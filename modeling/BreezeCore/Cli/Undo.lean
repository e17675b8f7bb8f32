import BreezeCore.Cli.Proxy
import BreezeCore.Lib.Backups

/-!
# Undo

Files are written, the journal is saved, and some time later the journal is played
backwards; when that fails it can be tried again.

* `undo_restores` — an undo that gets to its end brings back every file that no backup took
  the place of.
* `undoes_iff` — an undo that fails can be resumed exactly when no file was replaced: taking
  back a replaced file uses up its backup, and the journal goes last.
-/

namespace BreezeCli

open Actions Backups

/-! ## The journal as a list of changes -/

/-- A change as the journal lists it. -/
def toStep : Change String → Step
  | .created path => .created path
  | .replaced path => .replaced path (backupOf path)

/-- No two files have the same copy. -/
theorem backupOf_injective : Function.Injective backupOf := by
  intro path other h
  have htexts := congrArg String.toList h
  rw [backupOf_toList, backupOf_toList] at htexts
  exact String.toList_injective (List.append_cancel_right htexts)

/-! ## File operations -/

variable {host host' : Host}

/-- The next file operation works. -/
def Host.works (host : Host) : Prop := host.io.headD .done = .done

/-- A run ends with an error, and the journal on disk is as it was. -/
def Fails {α : Type} (x : Wizard α) (host : Host) : Prop :=
  ∃ e host', x host = (.error e, host') ∧ host'.saved = host.saved

/-- While the disk works an operation is done, and its fate used up. -/
theorem nextIo_done {op : FileOp} {path : String} (h : host.works) :
    nextIo op path host = (.ok .done, host.spend op path) :=
  Prod.ext (congrArg Except.ok h) rfl

/-- When it does not the operation fails, and its fate is used up too. -/
theorem nextIo_failed {op : FileOp} {path : String} (h : ¬ host.works) :
    ∃ e left, nextIo op path host = (.ok (.failed e left), host.spend op path) := by
  cases hfate : host.io.headD .done with
  | done => exact absurd hfate h
  | failed e left => exact ⟨e, left, Prod.ext (congrArg Except.ok hfate) rfl⟩

/-- While the disk works a file is removed. -/
theorem remove_done {path : String} {report : String → String} (h : host.works) :
    remove path report host = (.ok (), (host.spend .remove path).put path none) := by
  unfold remove
  rw [bind_ok (nextIo_done h)]
  rfl

/-- When it does not the run stops. -/
theorem remove_failed {path : String} {report : String → String} (h : ¬ host.works) :
    Fails (remove path report) host := by
  obtain ⟨e, left, hnext⟩ := nextIo_failed h
  unfold Fails remove
  rw [bind_ok hnext]
  exact ⟨_, _, rfl, rfl⟩

variable {path text : String} {note : Host → Host} {report : String → String}

/-- While the disk works a text is put there, and noted. -/
theorem put_done (h : host.works) :
    put path text note report host =
      (.ok (), note ((host.spend .write path).put path (some text))) := by
  unfold put
  rw [bind_ok (nextIo_done h)]
  rfl

/-- When it does not the run stops, with the journal as it was saved before. -/
theorem put_failed (hnote : ∀ host, (note host).saved = host.saved) (h : ¬ host.works) :
    Fails (put path text note report) host := by
  obtain ⟨e, left, hnext⟩ := nextIo_failed h
  unfold Fails put
  rw [bind_ok hnext]
  cases left with
  | none => exact ⟨_, _, rfl, rfl⟩
  | some left => exact ⟨_, _, rfl, hnote _⟩

/-- To copy a file that is there is to put its text elsewhere. -/
theorem copy_eq {source : String} (hsource : host.disk.files source = some text) :
    copy source path note report host = put path text note report host := by
  unfold copy
  rw [bind_ok (get_run host), hsource]

/-- To copy one that is not is an error. -/
theorem copy_missing {source : String} (hsource : host.disk.files source = none) :
    Fails (copy source path note report) host := by
  unfold Fails copy
  rw [bind_ok (get_run host), hsource]
  exact ⟨_, _, rfl, rfl⟩

/-- While the disk works the directory is made. -/
theorem createParent_done (h : host.works) :
    createParent path host = (.ok (), host.spend .makeDir (parent path)) := by
  unfold createParent
  rw [bind_ok (nextIo_done h)]
  rfl

/-- When it does not the run stops. -/
theorem createParent_failed (h : ¬ host.works) : Fails (createParent path) host := by
  obtain ⟨e, left, hnext⟩ := nextIo_failed h
  unfold Fails createParent
  rw [bind_ok hnext]
  exact ⟨_, _, rfl, rfl⟩

/-! ## Writing files -/

/-- What has been written so far. -/
structure Wrote (files : Store String String) (cs : List (Change String)) (host : Host) :
    Prop where
  files : host.disk.files = files
  steps : host.journal.steps = cs.map toStep
  dryRun : host.dryRun = false
  unsaved : host.saved = none

/-- One file is changed. -/
theorem Host.put_files (host : Host) (path : String) (content : Option String) :
    (host.put path content).disk.files = Function.update host.disk.files path content := by
  funext other
  simp [Host.put, Disk.put, Function.update_apply]

variable {files files' : Store String String} {cs : List (Change String)}

/-- A change that was made is noted behind the others. -/
theorem Wrote.record (h : Wrote files cs host) (c : Change String) :
    Wrote files (cs ++ [c]) (host.record (toStep c)) where
  files := h.files
  steps := by simp [Host.record, h.steps]
  dryRun := h.dryRun
  unsaved := h.unsaved

/-- An operation uses up its fate and writes nothing. -/
theorem Wrote.spend (h : Wrote files cs host) (op : FileOp) (path : String) :
    Wrote files cs (host.spend op path) :=
  ⟨h.files, h.steps, h.dryRun, h.unsaved⟩

/-- A text that is put there is there. -/
theorem Wrote.put (h : Wrote files cs host) (path : String) (content : Option String) :
    Wrote (Function.update files path content) cs (host.put path content) where
  files := by rw [Host.put_files, h.files]
  steps := h.steps
  dryRun := h.dryRun
  unsaved := h.unsaved

/-- That a change stands is bookkeeping. -/
theorem Wrote.stand (h : Wrote files cs host) (step : Step) : Wrote files cs (host.stand step) :=
  ⟨h.files, h.steps, h.dryRun, h.unsaved⟩

/-- An action that failed has not ended well. -/
theorem Fails.not_ok {α : Type} {x : Wizard α} {a : α} (h : Fails x host) :
    x host ≠ (.ok a, host') := by
  obtain ⟨e, other, hx, -⟩ := h
  rw [hx]
  nofun

/-- The first part of a sequence that ended well has ended well. -/
theorem bind_inv {α β : Type} {x : Wizard α} {f : α → Wizard β} {b : β}
    (h : (x >>= f) host = (.ok b, host')) :
    ∃ a mid, x host = (.ok a, mid) ∧ f a mid = (.ok b, host') := by
  cases hx : x host with
  | mk result mid =>
      cases result with
      | ok a => exact ⟨a, mid, rfl, (bind_ok hx).symm.trans h⟩
      | error e =>
          rw [bind_error hx] at h
          cases h

/-- Where the directory was made, one operation was spent on it. -/
theorem createParent_ok (h : createParent path host = (.ok (), host')) :
    host' = host.spend .makeDir (parent path) := by
  by_cases hworks : host.works
  · exact (congrArg Prod.snd ((createParent_done hworks).symm.trans h)).symm
  · exact absurd h (createParent_failed hworks).not_ok

/-- Where a text was put, it is there. -/
theorem put_ok (h : put path text note report host = (.ok (), host'))
    (hnote : ∀ host, (note host).saved = host.saved) :
    host' = note ((host.spend .write path).put path (some text)) := by
  by_cases hworks : host.works
  · exact (congrArg Prod.snd ((put_done hworks).symm.trans h)).symm
  · exact absurd h (put_failed hnote hworks).not_ok

/-- **Writing a file** makes one change to the files, and records it. Whether the path was there
before decides between the two kinds of change, in the code and in the abstract write alike. -/
theorem writeFile_ok (hwrote : Wrote files cs host)
    (h : writeFile path text host = (.ok (), host')) :
    Wrote (write backupOf files path text) (cs ++ [change files path]) host' := by
  unfold writeFile at h
  rw [bind_ok (get_run host)] at h
  dsimp only at h
  rw [hwrote.dryRun, if_neg (by decide)] at h
  cases hold : files path with
  | none =>
      have hchange : change files path = .created path := by simp [change, hold]
      have hwrite : write backupOf files path text = Function.update files path (some text) := by
        simp [write, hold]
      rw [if_neg (by simp [hwrote.files, hold])] at h
      rw [bind_ok (modify_run _ host)] at h
      obtain ⟨_, mid, hparent, hput⟩ := bind_inv h
      rw [put_ok hput fun _ => rfl, createParent_ok hparent, hwrite, hchange]
      have hready := ((hwrote.record (.created path)).spend .makeDir (parent path)).spend
        .write path
      exact (hready.put path (some text)).stand _
  | some old =>
      have hchange : change files path = .replaced path := by simp [change, hold]
      have hwrite : write backupOf files path text =
          Function.update (Function.update files (backupOf path) (some old)) path (some text) := by
        simp [write, hold]
      rw [if_pos (by simp [hwrote.files, hold])] at h
      obtain ⟨_, copied, hcopy, h⟩ := bind_inv h
      rw [copy_eq (by rw [hwrote.files, hold])] at hcopy
      rw [bind_ok (modify_run _ copied)] at h
      obtain ⟨_, mid, hparent, hput⟩ := bind_inv h
      rw [put_ok hput fun _ => rfl, createParent_ok hparent, put_ok hcopy fun _ => rfl, hwrite,
        hchange]
      have hcopied := ((hwrote.spend .write (backupOf path)).put (backupOf path) (some old)).stand
        (.replaced path (backupOf path))
      have hready := ((hcopied.record (.replaced path)).spend .makeDir (parent path)).spend
        .write path
      exact hready.put path (some text)

/-- Write some files, and save the journal. -/
def writeFiles (writes : List (String × String)) : Wizard Unit := do
  writes.forM fun w => writeFile w.1 w.2
  saveJournal

/-- Where all of the files were written, each is there, and the changes are noted in their order.
By induction on the files. -/
theorem writes_ok (hwrote : Wrote files cs host) {writes : List (String × String)}
    (h : writes.forM (fun w => writeFile w.1 w.2) host = (.ok (), host')) :
    Wrote (writeAll backupOf files writes) (cs ++ changes backupOf files writes) host' := by
  induction writes generalizing host files cs with
  | nil =>
      obtain rfl := congrArg Prod.snd h
      simpa [changes, writeAll] using hwrote
  | cons w rest ih =>
      obtain ⟨_, mid, hfirst, hrest⟩ := bind_inv h
      have hmid := ih (writeFile_ok hwrote hfirst) hrest
      rw [List.append_assoc] at hmid
      exact hmid

/-- The journal that is on disk, if any, lists these changes. -/
def Saved (cs : List (Change String)) (host : Host) : Prop :=
  (cs = [] ∧ host.saved = none) ∨
    ∃ journal, host.saved = some (.ok journal) ∧ journal.steps = cs.map toStep

/-- Where the journal was saved, it lists the changes, and the files are as they were. It is not
written at all when there are none. -/
theorem saveJournal_ok (hwrote : Wrote files cs host) (h : saveJournal host = (.ok (), host')) :
    host'.disk.files = files ∧ Saved cs host' := by
  unfold saveJournal at h
  rw [bind_ok (get_run host)] at h
  rw [hwrote.dryRun, Bool.false_or] at h
  by_cases hempty : host.journal.steps.isEmpty
  · rw [if_pos hempty] at h
    obtain rfl := congrArg Prod.snd h
    have hnone : cs = [] := by simpa [hwrote.steps] using hempty
    exact ⟨hwrote.files, .inl ⟨hnone, hwrote.unsaved⟩⟩
  · rw [if_neg hempty] at h
    by_cases hworks : host.works
    · rw [bind_ok (nextIo_done hworks)] at h
      obtain rfl := congrArg Prod.snd h
      exact ⟨hwrote.files, .inr ⟨host.journal, rfl, hwrote.steps⟩⟩
    · obtain ⟨e, left, hnext⟩ := nextIo_failed hworks
      rw [bind_ok hnext] at h
      cases left with
      | none => cases h
      | some left => cases h

/-- **Some files written** and the journal saved. -/
theorem writeFiles_ok {writes : List (String × String)} (hdry : host.dryRun = false)
    (hfresh : host.journal.steps = []) (hunsaved : host.saved = none)
    (h : writeFiles writes host = (.ok (), host')) :
    host'.disk.files = writeAll backupOf host.disk.files writes ∧
      Saved (changes backupOf host.disk.files writes) host' := by
  obtain ⟨_, mid, hwrites, hsave⟩ := bind_inv h
  have hstart : Wrote host.disk.files [] host := ⟨rfl, hfresh, hdry, hunsaved⟩
  have hmid := writes_ok hstart hwrites
  exact saveJournal_ok hmid hsave

/-! ## Taking back -/

/-- How many file operations it takes to take a change back. -/
def cost : Change String → ℕ
  | .created _ => 1
  | .replaced _ => 2

/-- The next `n` file operations work. -/
def Host.ready (n : ℕ) (host : Host) : Prop := ∀ i < n, host.io.getD i .done = .done

/-- Some changes were taken back, with `n` file operations. -/
structure TookBack (files : Store String String) (n : ℕ) (host host' : Host) : Prop where
  files : host'.disk.files = files
  io : host'.io = host.io.drop n
  saved : host'.saved = host.saved
  commands : host'.commands = host.commands
  dryRun : host'.dryRun = host.dryRun

/-- The disk works for one operation. -/
theorem ready_one : host.ready 1 ↔ host.works := by
  unfold Host.ready Host.works
  cases host.io <;> simp

/-- For two stretches of operations it works when it does for each. -/
theorem ready_add {m n : ℕ} {mid : Host} (hio : mid.io = host.io.drop m) :
    host.ready (m + n) ↔ host.ready m ∧ mid.ready n := by
  unfold Host.ready
  simp only [hio, List.getD_eq_getElem?_getD, List.getElem?_drop]
  constructor
  · intro h
    exact ⟨fun i hi => h i (by omega), fun i hi => h (m + i) (by omega)⟩
  · rintro ⟨hfirst, hrest⟩ i hi
    by_cases him : i < m
    · exact hfirst i him
    · have hlater := hrest (i - m) (by omega)
      rwa [Nat.add_sub_cancel' (Nat.not_lt.mp him)] at hlater

/-- Steps are played that stand for these changes: they are taken back, or a file operation
fails or a backup is missing. -/
def Plays (x : Wizard Unit) (cs : List (Change String)) (host : Host) : Prop :=
  (host.ready (cs.map cost).sum ∧ ∃ files' host',
      takeBackAll backupOf host.disk.files cs = some files' ∧
      x host = (.ok (), host') ∧ TookBack files' (cs.map cost).sum host host') ∨
    ((takeBackAll backupOf host.disk.files cs = none ∨ ¬ host.ready (cs.map cost).sum) ∧
      Fails x host)

/-- A file that was created is taken back by removing it. One operation is enough, and where it
fails nothing has moved. -/
theorem plays_created (hdry : host.dryRun = false) (path : String) :
    Plays (reverse (.created path)) [.created path] host := by
  have hstart : reverse (.created path) host =
      (do
        remove path fun e => "cannot remove " ++ path ++ ": " ++ e
        modify (Host.settle (.created path)) : Wizard Unit) host := by
    unfold reverse
    rw [bind_ok (get_run host)]
    dsimp only
    rw [hdry, if_neg (by decide)]
  by_cases hworks : host.works
  · refine .inl ⟨ready_one.mpr hworks, _,
      ((host.spend .remove path).put path none).settle (.created path), rfl, ?_, ?_⟩
    · rw [hstart, bind_ok (remove_done hworks)]
      rfl
    · exact ⟨Host.put_files .., List.drop_one.symm, rfl, rfl, rfl⟩
  · obtain ⟨e, stopped, hremove, hsaved⟩ := remove_failed hworks
    refine .inr ⟨.inr fun h => hworks (ready_one.mp h), e, stopped, ?_, hsaved⟩
    rw [hstart, bind_error hremove]

/-- One that was replaced, by putting back the copy. It costs two operations: with both the copy
is back and gone, with one it is back and still there, and with none nothing has moved. -/
theorem plays_replaced (hdry : host.dryRun = false) (path : String) :
    Plays (reverse (.replaced path (backupOf path))) [.replaced path] host := by
  have hstart : reverse (.replaced path (backupOf path)) host =
      (do
        copy (backupOf path) path id fun e => "cannot restore " ++ path ++ ": " ++ e
        remove (backupOf path) id
        modify (Host.settle (.replaced path (backupOf path))) : Wizard Unit) host := by
    unfold reverse
    rw [bind_ok (get_run host)]
    dsimp only
    rw [hdry, if_neg (by decide)]
  cases hold : host.disk.files (backupOf path) with
  | none =>
      obtain ⟨e, stopped, hcopy, hsaved⟩ := copy_missing hold
      refine .inr ⟨.inl (by simp [takeBack, hold]), e, stopped, ?_, hsaved⟩
      rw [hstart, bind_error hcopy]
  | some old =>
      let copied := (host.spend .write path).put path (some old)
      have htwo : host.ready 2 ↔ host.works ∧ copied.works := by
        rw [← ready_one, ← ready_one]
        exact @ready_add host 1 1 copied List.drop_one.symm
      by_cases hworks : host.works
      · have hcopy : copy (backupOf path) path id (fun e => "cannot restore " ++ path ++ ": " ++ e)
            host = (.ok (), copied) := (copy_eq hold).trans (put_done hworks)
        by_cases hworks' : copied.works
        · refine .inl ⟨htwo.mpr ⟨hworks, hworks'⟩,
            Function.update (Function.update host.disk.files path (some old)) (backupOf path) none,
            ((copied.spend .remove (backupOf path)).put (backupOf path) none).settle
              (.replaced path (backupOf path)),
            by simp [takeBack, hold], ?_, ?_⟩
          · rw [hstart, bind_ok hcopy, bind_ok (remove_done hworks')]
            rfl
          · refine ⟨?_, ?_, rfl, rfl, rfl⟩
            · calc ((copied.spend .remove (backupOf path)).put (backupOf path) none).disk.files
                  = Function.update copied.disk.files (backupOf path) none := Host.put_files ..
                _ = _ := by rw [Host.put_files]; rfl
            · have hspent : host.io.tail.tail = host.io.drop 2 := by simp [← List.drop_one]
              exact hspent
        · obtain ⟨e, stopped, hremove, hsaved⟩ := remove_failed hworks'
          refine .inr ⟨.inr fun h => hworks' (htwo.mp h).2, e, stopped, ?_, hsaved⟩
          rw [hstart, bind_ok hcopy, bind_error hremove]
      · obtain ⟨e, stopped, hput, hsaved⟩ := @put_failed host path old id
          (fun e => "cannot restore " ++ path ++ ": " ++ e) (fun _ => rfl) hworks
        refine .inr ⟨.inr fun h => hworks (htwo.mp h).1, e, stopped, ?_, hsaved⟩
        rw [hstart, bind_error ((copy_eq hold).trans hput)]

/-- So every change can be taken back by one step of the journal. -/
theorem plays_step (hdry : host.dryRun = false) (c : Change String) :
    Plays (reverse (toStep c)) [c] host := by
  cases c with
  | created path => exact plays_created hdry path
  | replaced path => exact plays_replaced hdry path

/-- **All the steps**: the changes are taken back, or a file operation fails or a backup is
missing. -/
theorem plays_steps (hdry : host.dryRun = false) (cs : List (Change String)) :
    Plays ((cs.map toStep).forM reverse) cs host := by
  induction cs generalizing host with
  | nil => exact .inl ⟨nofun, _, host, rfl, rfl, rfl, rfl, rfl, rfl, rfl⟩
  | cons c rest ih =>
      have hsum : ((c :: rest).map cost).sum = ([c].map cost).sum + (rest.map cost).sum := by simp
      rcases plays_step hdry c with
        ⟨hready, files', mid, hback, hstep, htook⟩ | ⟨hwhy, e, stopped, hstep, hsaved⟩
      · have hback : takeBack backupOf host.disk.files c = some files' := by simpa using hback
        have hboth := @ready_add host _ (rest.map cost).sum mid htook.io
        rcases ih (htook.dryRun.trans hdry) with ⟨hrest, files'', last, hall, hloop, hlast⟩ |
          ⟨hwhy, e, stopped, hloop, hsaved⟩
        · refine .inl ⟨hsum ▸ hboth.mpr ⟨hready, hrest⟩, files'', last, ?_, ?_, ?_⟩
          · rw [takeBackAll_cons, hback, Option.bind_some, ← htook.files, hall]
          · exact (bind_ok hstep).trans hloop
          · refine ⟨hlast.files, ?_, hlast.saved.trans htook.saved,
              hlast.commands.trans htook.commands, hlast.dryRun.trans htook.dryRun⟩
            rw [hlast.io, htook.io, List.drop_drop, hsum]
        · refine .inr ⟨hwhy.imp (fun hnone => ?_) fun hnot h => ?_, e, stopped,
            (bind_ok hstep).trans hloop, hsaved.trans htook.saved⟩
          · rw [takeBackAll_cons, hback, Option.bind_some, ← htook.files, hnone]
          · exact hnot (hboth.mp (hsum ▸ h)).2
      · refine .inr
          ⟨hwhy.imp (fun hnone => ?_) fun hnot h => ?_, e, stopped, bind_error hstep, hsaved⟩
        · have hnone : takeBack backupOf host.disk.files c = none := by simpa using hnone
          rw [takeBackAll_cons, hnone, Option.bind_none]
        · exact hnot fun i hi => h i (by omega)

/-! ## Playing the journal backwards -/

variable {journal : Journal}

/-- What undoing ends with: the journal is removed if every step was reversed, else saved with the
steps that are left. -/
theorem meets_finish {P E : Host → Prop} {Q : Nat → Host → Prop} (h : Commanded P E)
    (hdone : ∀ host, P host → host.works →
      Q 0 { host.spend .remove host.journalPath with saved := none })
    (hfailed : ∀ host, P host → ¬ host.works → E (host.spend .remove host.journalPath)) :
    Meets P (finish false journal) Q E := by
  unfold finish
  refine Meets.bind (meets_reloadValid h journal.server) fun _ => ?_
  refine Meets.bind (meets_restartBreeze h) fun _ => ?_
  intro host hP
  rw [bind_ok (get_run host), if_neg (by decide)]
  by_cases hworks : host.works
  · rw [bind_ok (nextIo_done hworks)]
    exact hdone host hP hworks
  · obtain ⟨e, left, hnext⟩ := nextIo_failed hworks
    rw [bind_ok hnext]
    exact hfailed host hP hworks

/-- What is answered is read off the lines, and the rest is left. -/
theorem converse_ok {α : Type} {talk : List Typed → Except String α × List Typed} {a : α}
    (h : (talk host.answers).1 = .ok a) :
    converse talk host = (.ok a, host.hear (talk host.answers).2) := by
  unfold converse
  rw [bind_ok (get_run host), bind_ok (modify_run _ host), h]
  rfl

/-- An error leaves the rest too. -/
theorem converse_error {α : Type} {talk : List Typed → Except String α × List Typed} {e : String}
    (h : (talk host.answers).1 = .error e) :
    converse talk host = (.error e, host.hear (talk host.answers).2) := by
  unfold converse
  rw [bind_ok (get_run host), bind_ok (modify_run _ host), h]
  rfl

/-- The journal is not played, or it is played as it is on disk. It is not played without root,
nor where the person at the terminal may have said no. -/
theorem undo_cases (hsaved : host.saved = some (.ok journal)) :
    ((host.isRoot = false ∨ host.answers ≠ []) ∧
        ∃ result host', undo false host = (result, host') ∧ result ≠ .ok 0 ∧
          host'.saved = host.saved) ∨
      ∃ mid, undo false host = (do
          journal.steps.reverse.forM reverse
          finish false journal : Wizard Nat) mid ∧
        mid.disk = host.disk ∧ mid.saved = host.saved ∧ mid.io = host.io ∧
        mid.commands = host.commands ∧ mid.dryRun = false := by
  have hundo : undo false host =
      (if !host.isRoot then
        stop ("undoing changes system configuration, so it needs root: " ++
          "sudo breeze-core proxy --undo")
      else do
        modify fun host => { host with dryRun := false, journal := {}, pm := none }
        if ← yesNo true then do
          journal.steps.reverse.forM reverse
          finish false journal
        else pure 1 : Wizard Nat) host := by
    unfold undo
    rw [bind_ok (get_run host), hsaved]
    rfl
  rw [hundo]
  by_cases hroot : host.isRoot
  · rw [if_neg (by simp [hroot]), bind_ok (modify_run _ host)]
    let start : Host := { host with dryRun := false, journal := {}, pm := none }
    have hnil : start.answers = [] →
        (readUntil (yesOrNo true) (.ok true) start.answers).1 = .ok true := by
      intro hnil
      rw [hnil]
      rfl
    cases hanswer : (readUntil (yesOrNo true) (.ok true) start.answers).1 with
    | error e =>
        refine .inl ⟨.inr fun h => ?_, _, _, bind_error (converse_error hanswer), nofun, rfl⟩
        exact absurd (hanswer.symm.trans (hnil h)) nofun
    | ok yes =>
        cases yes with
        | true => exact .inr ⟨_, bind_ok (converse_ok hanswer), rfl, rfl, rfl, rfl, rfl⟩
        | false =>
            refine .inl ⟨.inr fun h => ?_, .ok 1, _, bind_ok (converse_ok hanswer), nofun, rfl⟩
            exact absurd (hanswer.symm.trans (hnil h)) nofun
  · rw [if_pos (by simp [hroot])]
    exact .inl ⟨.inl (by simpa using hroot), _, _, rfl, nofun, rfl⟩

/-- The journal on disk lists these changes. -/
structure Ready (files : Store String String) (cs : List (Change String)) (host : Host) : Prop where
  files : host.disk.files = files
  saved : ∃ journal, host.saved = some (.ok journal) ∧ journal.steps = cs.map toStep

/-- Where an undo has got to when its steps are played. -/
theorem Ready.played (h : Ready files cs host) :
    ((host.isRoot = false ∨ host.answers ≠ []) ∧
        ∃ result host', undo false host = (result, host') ∧ result ≠ .ok 0 ∧
          host'.saved = host.saved) ∨
      ((takeBackAll backupOf files cs.reverse = none ∨ ¬ host.ready (cs.reverse.map cost).sum) ∧
        Fails (undo false) host) ∨
      ∃ files' journal mid, takeBackAll backupOf files cs.reverse = some files' ∧
        undo false host = finish false journal mid ∧ mid.disk.files = files' ∧
        mid.saved = host.saved ∧ mid.io = host.io.drop (cs.reverse.map cost).sum ∧
        mid.commands = host.commands := by
  obtain ⟨journal, hsaved, hsteps⟩ := h.saved
  rcases undo_cases hsaved with hnot | ⟨start, hundo, hdisk, hkept, hio, hcommands, hdry⟩
  · exact .inl hnot
  · have hfiles : start.disk.files = files := by rw [hdisk, h.files]
    have hplays := plays_steps hdry cs.reverse
    rw [List.map_reverse, ← hsteps] at hplays
    rcases hplays with ⟨-, files', mid, hback, hloop, htook⟩ | ⟨hwhy, e, stopped, hloop, hstopped⟩
    · refine .inr (.inr ⟨files', journal, mid, hfiles ▸ hback, ?_, htook.files,
        htook.saved.trans hkept, hio ▸ htook.io, htook.commands.trans hcommands⟩)
      exact hundo.trans (bind_ok hloop)
    · refine .inr (.inl ⟨?_, e, stopped, hundo.trans (bind_error hloop), hstopped.trans hkept⟩)
      unfold Host.ready at hwhy ⊢
      rwa [hfiles, hio] at hwhy

/-- The files and the journal on disk are as they were. -/
def Kept (files : Store String String) (saved : Option (Except String Journal)) (host : Host) :
    Prop :=
  host.disk.files = files ∧ host.saved = saved

/-- When the journal is kept the files are as they were. -/
theorem meets_finish_kept {saved : Option (Except String Journal)} :
    Meets (Kept files saved) (finish false journal) (fun _ host => host.disk.files = files)
      (Kept files saved) :=
  meets_finish ⟨fun _ _ h _ => h, fun _ _ h _ => h⟩ (fun _ h _ => h.1) fun _ h _ => h

/-- **An undo that gets to its end** has taken back every change. -/
theorem undo_ok (h : Ready files cs host) {done : Host} (hundo : undo false host = (.ok 0, done)) :
    takeBackAll backupOf files cs.reverse = some done.disk.files := by
  rcases h.played with ⟨-, result, other, hrun, hne, -⟩ | ⟨-, hfails⟩ |
    ⟨files', journal, mid, hback, hrun, hfiles, -⟩
  · exact absurd (congrArg Prod.fst (hrun.symm.trans hundo)) hne
  · exact absurd hundo hfails.not_ok
  · rw [hback, meets_finish_kept.ok ⟨hfiles, rfl⟩ (hrun.symm.trans hundo)]

/-- One that fails leaves the journal on disk. -/
theorem undo_error (h : Ready files cs host) {e : String} {failed : Host}
    (hundo : undo false host = (.error e, failed)) : failed.saved = host.saved := by
  rcases h.played with ⟨-, result, other, hrun, -, hsaved⟩ | ⟨-, e', other, hrun, hsaved⟩ |
    ⟨files', journal, mid, -, hrun, -, hkept, -⟩
  · obtain rfl := congrArg Prod.snd (hrun.symm.trans hundo)
    exact hsaved
  · obtain rfl := congrArg Prod.snd (hrun.symm.trans hundo)
    exact hsaved
  · exact (meets_finish_kept.error ⟨rfl, hkept⟩ (hrun.symm.trans hundo)).2

/-- Nothing stands in the way of an undo, up to its file operations. -/
structure Agreed (host : Host) : Prop where
  isRoot : host.isRoot = true
  answers : host.answers = []
  commands : host.commands = []

/-- An undo with nothing in its way gets to its end, unless the journal cannot be removed. Every
change costs its operations, and the removal of the journal is one operation more. -/
theorem undo_agreed (h : Ready files cs host) (hagreed : Agreed host)
    (hready : host.ready (cs.map cost).sum)
    (hback : takeBackAll backupOf files cs.reverse = some files') :
    (host.ready ((cs.map cost).sum + 1) ∧
        ∃ done, undo false host = (.ok 0, done) ∧ done.disk.files = files') ∨
      (¬ host.ready ((cs.map cost).sum + 1) ∧
        ∃ e failed, undo false host = (.error e, failed) ∧ Kept files' host.saved failed) := by
  have hsum : (cs.reverse.map cost).sum = (cs.map cost).sum := by
    rw [List.map_reverse, List.sum_reverse]
  rcases h.played with
    ⟨hwhy, -⟩ | ⟨hwhy, -⟩ | ⟨files'', journal, mid, hback', hrun, hfiles, hkept, hio, hcommands⟩
  · rcases hwhy with hroot | hanswers
    · exact absurd (hagreed.isRoot.symm.trans hroot) nofun
    · exact absurd hagreed.answers hanswers
  · rcases hwhy with hnone | hnot
    · exact absurd (hback.symm.trans hnone) nofun
    · exact absurd (hsum ▸ hready) hnot
  · obtain rfl : files' = files'' := Option.some_inj.mp (hback.symm.trans hback')
    have hlast : host.ready ((cs.map cost).sum + 1) ↔ mid.works := by
      rw [ready_add (hsum ▸ hio), ready_one]
      exact and_iff_right hready
    rw [hlast, hrun]
    let P : Host → Prop := fun m => Kept files' host.saved m ∧ m.commands = [] ∧ m.io = mid.io
    have hP : P mid := ⟨⟨hfiles, hkept⟩, hcommands.trans hagreed.commands, rfl⟩
    have hsame : ∀ m, P m → (m.works ↔ mid.works) := by
      intro m hm
      unfold Host.works
      rw [hm.2.2]
    have hfinish : Meets P (finish false journal)
        (fun n m => n = 0 ∧ mid.works ∧ m.disk.files = files')
        (fun m => ¬ mid.works ∧ Kept files' host.saved m) :=
      meets_finish
        ⟨fun m _ hm _ => ⟨hm.1, (congrArg List.tail hm.2.1).trans List.tail_nil, hm.2.2⟩,
          fun m command hm hbad => by
            rw [hm.2.1] at hbad
            exact absurd hbad (by simp [Exchange.bad, succeeds])⟩
        (fun m hm hworks => ⟨rfl, (hsame m hm).mp hworks, hm.1.1⟩)
        fun m hm hnot => ⟨fun hworks => hnot ((hsame m hm).mpr hworks), hm.1⟩
    cases hend : finish false journal mid with
    | mk result last =>
        cases result with
        | ok n =>
            obtain ⟨rfl, hworks, hdone⟩ := hfinish.ok hP hend
            exact .inl ⟨hworks, last, rfl, hdone⟩
        | error e =>
            obtain ⟨hnot, hfailed⟩ := hfinish.error hP hend
            exact .inr ⟨hnot, e, last, rfl, hfailed⟩

/-! ## Resuming -/

/-- The machine is the same one, some time later: its files and its journal are as they were
left. -/
structure Later (host host' : Host) : Prop where
  disk : host'.disk = host.disk
  saved : host'.saved = host.saved

/-- Nothing fails any more, and every question gets its default. -/
structure Clear (host : Host) : Prop extends Agreed host where
  io : host.io = []

/-- These files are what they were before. -/
def PutBack (before : Host) (paths : List String) (host : Host) : Prop :=
  ∀ path ∈ paths, host.disk.files path = before.disk.files path

/-- **Undo restores, and can be resumed.** -/
structure Undoes (before : Host) (paths : List String) (host : Host) : Prop where
  /-- With nothing in its way, it gets to its end. -/
  completes : ∀ first, Later host first → Clear first →
    ∃ done, undo false first = (.ok 0, done)
  /-- Where it gets to its end, every file is put back. -/
  restores : ∀ first done, Later host first → undo false first = (.ok 0, done) →
    PutBack before paths done
  /-- Where it fails, running it again gets there, once nothing is in its way. -/
  resumes : ∀ first failed e, Later host first → undo false first = (.error e, failed) →
    ∀ again, Later failed again → Clear again →
      ∃ done, undo false again = (.ok 0, done) ∧ PutBack before paths done

/-- A machine on which nothing fails is ready for any number of operations. -/
theorem Clear.ready (h : Clear host) (n : ℕ) : host.ready n := by
  intro i _
  simp [h.io]

/-- Being ready is a matter of the files and the journal, which nobody touched meanwhile. -/
theorem Ready.later (h : Ready files cs host) (hlater : Later host host') :
    Ready files cs host' where
  files := by rw [hlater.disk, h.files]
  saved := by rw [hlater.saved]; exact h.saved

/-- With nothing in its way, an undo takes back every change that can be. -/
theorem undo_clear (h : Ready files cs host) (hclear : Clear host)
    (hback : takeBackAll backupOf files cs.reverse = some files') :
    ∃ done, undo false host = (.ok 0, done) ∧ done.disk.files = files' := by
  rcases undo_agreed h hclear.toAgreed (hclear.ready _) hback with ⟨-, hdone⟩ | ⟨hnot, -⟩
  · exact hdone
  · exact absurd (hclear.ready _) hnot

/-- The journal cannot be removed. -/
def keptJournal (host : Host) (cs : List (Change String)) : Host :=
  { host with
    isRoot := true
    answers := []
    commands := []
    io := List.replicate (cs.map cost).sum .done ++ [.failed "Read-only file system" none] }

/-- **What was replaced is lost to a second attempt**, when only the journal was in the way. The
first attempt has used up the backup, so that every later one stops at it. -/
theorem not_resumed (h : Ready files cs host) {path : String} (hmem : .replaced path ∈ cs)
    (hback : takeBackAll backupOf files cs.reverse = some files') :
    ∃ e failed, undo false (keptJournal host cs) = (.error e, failed) ∧
      Kept files' host.saved failed ∧
      ∀ again done, Later failed again → undo false again ≠ (.ok 0, done) := by
  have hready : Ready files cs (keptJournal host cs) := ⟨h.files, h.saved⟩
  have hfates : (keptJournal host cs).ready (cs.map cost).sum := by
    intro i hi
    simp [keptJournal, List.getElem?_append, hi]
  have hlast : ¬ (keptJournal host cs).ready ((cs.map cost).sum + 1) := by
    intro hall
    have hstuck := hall (cs.map cost).sum (Nat.lt_succ_self _)
    simp [keptJournal] at hstuck
  rcases undo_agreed hready ⟨rfl, rfl, rfl⟩ hfates hback with
    ⟨hall, -⟩ | ⟨-, e, failed, hrun, hkept⟩
  · exact absurd hall hlast
  · refine ⟨e, failed, hrun, hkept, fun again done hlater hagain => ?_⟩
    obtain ⟨journal, hsaved, hsteps⟩ := h.saved
    have hfailed : Ready files' cs failed := ⟨hkept.1, journal, hkept.2.trans hsaved, hsteps⟩
    have hstuck := takeBackAll_twice length_backupOf (List.mem_reverse.mpr hmem) hback
    exact absurd (hstuck.symm.trans (undo_ok (hfailed.later hlater) hagain)) nofun

/-- Without a journal on disk there is nothing to undo. -/
theorem undo_none (h : host.saved = none) : undo false host = (.ok 0, host) := by
  unfold undo
  rw [bind_ok (get_run host), h]
  rfl

/-- A journal that was saved can be undone as soon as the disk works. -/
theorem Saved.ready (h : Saved cs host) (hcs : cs ≠ []) : Ready host.disk.files cs host :=
  ⟨rfl, h.resolve_left fun hnone => hcs hnone.1⟩

/-- **What undo brings back**, whenever it gets to its end: every file that no backup took the
place of. -/
theorem undo_restores {writes : List (String × String)} {before first done : Host}
    (hnodup : (writes.map Prod.fst).Nodup) (hdry : before.dryRun = false)
    (hfresh : before.journal.steps = []) (hunsaved : before.saved = none)
    (hrun : writeFiles writes before = (.ok (), host)) (hlater : Later host first)
    (hundo : undo false first = (.ok 0, done)) {path : String}
    (hfree : ∀ other, .replaced other ∈ changes backupOf before.disk.files writes →
      path ≠ backupOf other) :
    done.disk.files path = before.disk.files path := by
  obtain ⟨hfiles, hsaved⟩ := writeFiles_ok hdry hfresh hunsaved hrun
  obtain ⟨last, hback, hsame⟩ :=
    takeBackAll_writeAll backupOf_injective backupOf_ne hnodup before.disk.files
  rcases hsaved with ⟨hnil, hnone⟩ | hsaved
  · have hwrites : writes = [] := by
      cases writes with
      | nil => rfl
      | cons w rest => cases hnil
    obtain rfl := congrArg Prod.snd ((undo_none (hlater.saved.trans hnone)).symm.trans hundo)
    rw [hlater.disk, hfiles, hwrites]
    rfl
  · have hready : Ready host.disk.files (changes backupOf before.disk.files writes) host :=
      ⟨rfl, hsaved⟩
    have hdone := undo_ok (hready.later hlater) hundo
    rw [hfiles, hback] at hdone
    rw [← Option.some_inj.mp hdone]
    exact hsame path hfree

/-- Where nothing was written and nothing saved, undoing has nothing to do. -/
theorem undoes_unsaved {before : Host} {paths : List String} (hnone : host.saved = none)
    (hnil : paths = []) : Undoes before paths host where
  completes first hlater _ := ⟨first, undo_none (hlater.saved.trans hnone)⟩
  restores first done _ _ := by
    intro path hpath
    rw [hnil] at hpath
    cases hpath
  resumes first failed e hlater hundo := by
    rw [undo_none (hlater.saved.trans hnone)] at hundo
    cases hundo

/-- An undo can be resumed whose changes can be taken back from wherever it stopped. Each attempt
starts over with the whole journal, on the files as the last one left them. -/
theorem undoes_removed {before : Host} {paths : List String} (h : Ready files cs host)
    (hremoved : ∀ store, ∃ last, takeBackAll backupOf store cs.reverse = some last ∧
      ∀ path ∈ paths, last path = before.disk.files path) :
    Undoes before paths host where
  completes first hlater hclear := by
    obtain ⟨last, hback, -⟩ := hremoved files
    obtain ⟨done, hdone, -⟩ := undo_clear (h.later hlater) hclear hback
    exact ⟨done, hdone⟩
  restores first done hlater hundo := by
    obtain ⟨last, hback, hlast⟩ := hremoved files
    have hdone := undo_ok (h.later hlater) hundo
    obtain rfl := Option.some_inj.mp (hback.symm.trans hdone)
    exact hlast
  resumes first failed e hlater hundo again hagain hclear := by
    have hsaved := undo_error (h.later hlater) hundo
    obtain ⟨journal, hjournal, hsteps⟩ := (h.later hlater).saved
    have hfailed : Ready failed.disk.files cs failed :=
      ⟨rfl, journal, hsaved.trans hjournal, hsteps⟩
    obtain ⟨last, hback, hlast⟩ := hremoved failed.disk.files
    obtain ⟨done, hdone, hfiles⟩ := undo_clear (hfailed.later hagain) hclear hback
    exact ⟨done, hdone, fun path hpath => by rw [hfiles]; exact hlast path hpath⟩

/-- **Undo restores and can be resumed** exactly when none of the files was there before. A file
that was there is put back from a copy that is then removed, so that an undo which is stopped
behind it finds no copy the next time, and every later one stops there. -/
theorem undoes_iff {writes : List (String × String)} {before : Host}
    (hnodup : (writes.map Prod.fst).Nodup) (hdry : before.dryRun = false)
    (hfresh : before.journal.steps = []) (hunsaved : before.saved = none)
    (hrun : writeFiles writes before = (.ok (), host)) :
    Undoes before (writes.map Prod.fst) host ↔
      ∀ path ∈ writes.map Prod.fst, before.disk.files path = none := by
  obtain ⟨hfiles, hsaved⟩ := writeFiles_ok hdry hfresh hunsaved hrun
  constructor
  · intro hundoes path hpath
    by_contra hthere
    have hmem := @replaced_of_present _ _ _ backupOf _ _ _ hpath hthere
    have hready := hsaved.ready (List.ne_nil_of_mem hmem)
    obtain ⟨last, hback, -⟩ :=
      takeBackAll_writeAll backupOf_injective backupOf_ne hnodup before.disk.files
    rw [← hfiles] at hback
    obtain ⟨e, failed, hfirst, -, hstuck⟩ := not_resumed hready hmem hback
    let again : Host := { failed with isRoot := true, answers := [], commands := [], io := [] }
    obtain ⟨done, hdone, -⟩ := hundoes.resumes (keptJournal host _) failed e ⟨rfl, rfl⟩ hfirst again
      ⟨rfl, rfl⟩ ⟨⟨rfl, rfl, rfl⟩, rfl⟩
    exact hstuck again done ⟨rfl, rfl⟩ hdone
  · intro habsent
    rw [changes_absent hnodup habsent] at hsaved
    have hremoved : ∀ store : Store String String, ∃ last,
        takeBackAll backupOf store ((writes.map Prod.fst).map Change.created).reverse = some last ∧
          ∀ path ∈ writes.map Prod.fst, last path = before.disk.files path := by
      intro store
      refine ⟨_, (congrArg _ List.map_reverse.symm).trans (takeBackAll_created _ store), ?_⟩
      intro path hpath
      rw [if_pos (List.mem_reverse.mpr hpath), habsent path hpath]
    rcases hsaved with ⟨hnil, hnone⟩ | hsaved
    · exact undoes_unsaved hnone (by simpa using hnil)
    · exact undoes_removed ⟨rfl, hsaved⟩ hremoved

/-- A machine with these files. -/
def machine (files : List (String × String)) : Host where
  disk := { files := fun path => files.lookup path }

/-- What a run writes. -/
def nginxRun : List (String × String) :=
  [("/etc/nginx/conf.d/breeze-core.conf", "server \x7b \x7d\n"),
    ("/etc/breeze-core/breeze-core.env", "BREEZE_HOST=127.0.0.1\n")]

/-- The configuration of nginx, written where there was none. -/
theorem undoes_created :
    Undoes (machine []) (nginxRun.map Prod.fst) (writeFiles nginxRun (machine [])).2 :=
  (undoes_iff (by decide) rfl rfl rfl (Prod.ext (by decide +kernel) rfl)).mpr fun _ _ => rfl

/-- The Caddyfile is put back, and the journal cannot be removed: from then on every undo
fails, since the backup is gone. -/
theorem caddyfile_not_resumed :
    let before := machine [("/etc/caddy/Caddyfile", "a.example.com\n")]
    let host := (writeFiles [("/etc/caddy/Caddyfile", "b.example.com\n")] before).2
    let first := { host with io := [.done, .done, .failed "Read-only file system" none] }
    (undo false first).1 =
        .error "cannot remove /etc/breeze-core/proxy-undo.json: Read-only file system" ∧
      (undo false (undo false first).2).1 =
        .error ("cannot restore /etc/caddy/Caddyfile: " ++ NOT_FOUND) ∧
      ¬ Undoes before ["/etc/caddy/Caddyfile"] host := by
  intro before host first
  have hfirst : (undo false first).1 =
      .error "cannot remove /etc/breeze-core/proxy-undo.json: Read-only file system" := by
    decide +kernel
  have hagain : (undo false (undo false first).2).1 =
      .error ("cannot restore /etc/caddy/Caddyfile: " ++ NOT_FOUND) := by
    decide +kernel
  have hclear : Clear (undo false first).2 :=
    ⟨⟨by decide +kernel, by decide +kernel, by decide +kernel⟩, by decide +kernel⟩
  refine ⟨hfirst, hagain, fun hundoes => ?_⟩
  obtain ⟨done, hdone, -⟩ := hundoes.resumes first (undo false first).2 _ ⟨rfl, rfl⟩
    (Prod.ext hfirst rfl) _ ⟨rfl, rfl⟩ hclear
  rw [hdone] at hagain
  cases hagain

end BreezeCli
