import BreezeCore.Cli.Proxy

/-!
# Where a run of the wizard has got to

`At` says which changes stand and which the journal in memory has, as long as nothing
failed once something was written.  A run goes from `Fresh`, before anything is changed,
through `Placed`, while the site is set up, to `Busy`; at a failure it stops where it
is `Stopped`.
-/

namespace BreezeCli

open Actions

/-! ## Invariants -/

/-- No journal is on disk. -/
def Unsaved (host : Host) : Prop := ∀ journal, host.saved ≠ some (.ok journal)

/-- Nothing stands exactly when nothing failed once something was written. -/
def Told (host : Host) : Prop := host.standing = [] ↔ goesWell false host.exchanges = true

/-- **Where a run stops** with an error. -/
def Stopped (host : Host) : Prop := Unsaved host ∧ Told host

/-- The books and the disk are the same, whatever became of the lists of what is to come. -/
structure SameBooks (host host' : Host) : Prop where
  dryRun : host'.dryRun = host.dryRun
  saved : host'.saved = host.saved
  exchanges : host'.exchanges = host.exchanges
  standing : host'.standing = host.standing
  steps : host'.journal.steps = host.journal.steps
  disk : host'.disk = host.disk

/-- An invariant that stays as long as nothing fails.  A run that stops at a failure stops
where it should. -/
structure Stable (P : Host → Prop) : Prop where
  frame : ∀ host host', P host → SameBooks host host' → P host'
  fine : ∀ host x, P host → x.bad = false → x.writes = false → P (host.tell x)
  bad : ∀ host x, P host → x.bad = true → x.writes = false → Stopped (host.tell x)

/-- It says nothing about the disk. -/
def Loose (P : Host → Prop) : Prop := ∀ host disk, P host → P { host with disk := disk }

variable {α β : Type} {P Q : Host → Prop} {host host' : Host}

/-- An invariant stays, unless the run stops. -/
def Keeps (P : Host → Prop) (x : Wizard α) : Prop := Meets P x (fun _ => P) Stopped

/-- A result changes nothing. -/
theorem Keeps.pure {a : α} : Keeps P (pure a : Wizard α) := Meets.pure fun _ h => h

/-- What each part keeps, the two keep together. -/
theorem Keeps.bind {x : Wizard α} {f : α → Wizard β} (hx : Keeps P x) (hf : ∀ a, Keeps P (f a)) :
    Keeps P (x >>= f) := Meets.bind hx hf

/-- What is kept whatever the state that was looked at is kept. -/
theorem Keeps.get_bind {f : Host → Wizard α} (hf : ∀ host, Keeps P (f host)) :
    Keeps P (get >>= f) :=
  Meets.bind Meets.get fun host => (hf host).weaken (fun _ h => h.2) fun _ _ h => h

/-- What every round of a loop keeps, the loop keeps. -/
theorem Keeps.forM {γ : Type} {f : γ → Wizard PUnit} {xs : List γ} (h : ∀ x ∈ xs, Keeps P (f x)) :
    Keeps P (xs.forM f) := by
  induction xs with
  | nil => exact Keeps.pure
  | cons x rest ih =>
      have hrest := ih fun y hy => h y (List.mem_cons_of_mem _ hy)
      exact Keeps.bind (h x List.mem_cons_self) fun _ => hrest

/-- Whether anything was saved does not depend on the rest of the machine. -/
theorem Unsaved.of_eq (h : Unsaved host) (heq : host'.saved = host.saved) : Unsaved host' := by
  intro journal
  rw [heq]
  exact h journal

/-- What a failure makes of the exchanges when something was written. -/
theorem goesWell_bad {xs : List Exchange} {x : Exchange} (hbad : x.bad = true)
    (hwritten : (xs.any Exchange.writes || x.writes) = true) :
    goesWell false (xs ++ [x]) = false := by
  rw [goesWell_append, hbad, Bool.false_or, hwritten]
  simp

/-- A list that goes well still does with one more exchange at its end that is no failure. -/
theorem goesWell_fine {xs : List Exchange} {x : Exchange} (hwell : goesWell false xs = true)
    (hfine : x.bad = false) : goesWell false (xs ++ [x]) = true := by
  rw [goesWell_append, hwell, hfine]
  simp

/-- A run that stops at a failure while something stands. -/
theorem stopped_of_standing {x : Exchange} (hunsaved : Unsaved host) (hbad : x.bad = true)
    (hwritten : (host.exchanges.any Exchange.writes || x.writes) = true)
    (hstands : host'.standing ≠ []) (hsaved : host'.saved = host.saved)
    (htold : host'.exchanges = host.exchanges ++ [x]) : Stopped host' := by
  refine ⟨hunsaved.of_eq hsaved, iff_of_false hstands ?_⟩
  rw [htold, goesWell_bad hbad hwritten]
  decide

/-! ## Commands, questions and files -/

/-- A stable property survives a command that does what it has to, and at one that does not the
run may stop. -/
theorem Stable.commanded (hP : Stable P) : Commanded P Stopped where
  fine host _ h hfine :=
    hP.fine _ _ (hP.frame host { host with commands := host.commands.tail } h
      ⟨rfl, rfl, rfl, rfl, rfl, rfl⟩) hfine rfl
  bad host _ h hbad :=
    hP.bad _ _ (hP.frame host { host with commands := host.commands.tail } h
      ⟨rfl, rfl, rfl, rfl, rfl, rfl⟩) hbad rfl

/-- Running a command keeps a stable property. Whether the command has to succeed is the same in
the code and in the condition. -/
theorem keeps_runCmd (hP : Stable P) {command : List String} {required : Bool}
    (hneeded : needed command = required) : Keeps P (runCmd command required) :=
  meets_runCmd hP.commanded hneeded

/-- A file operation takes its fate and tells of it. -/
theorem meets_nextIo {E : Host → Prop} (hP : Stable P) (op : FileOp) (path : String) :
    Meets P (nextIo op path)
      (fun fate host => ∃ before, P before ∧ host = before.tell (.file op path fate)) E :=
  fun host h => ⟨{ host with io := host.io.tail },
    hP.frame host _ h ⟨rfl, rfl, rfl, rfl, rfl, rfl⟩, rfl⟩

/-- One that writes nothing keeps the invariant, or fails. -/
theorem meets_nextIo_quiet {E : Host → Prop} (hP : Stable P) {op : FileOp} (hop : op ≠ .write)
    (path : String) :
    Meets P (nextIo op path)
      (fun fate host => (fate = .done → P host) ∧ (fate ≠ .done → Stopped host)) E := by
  refine (meets_nextIo hP op path).weaken (fun _ h => h) ?_
  rintro fate _ ⟨before, h, rfl⟩
  have hquiet : (Exchange.file op path fate).writes = false := by
    cases op with
    | write => exact absurd rfl hop
    | makeDir => rfl
    | remove => rfl
  refine ⟨fun hdone => hP.fine before _ h ?_ hquiet, fun hne => hP.bad before _ h ?_ hquiet⟩
  · rw [hdone]
    rfl
  · simpa [Exchange.bad] using hne

/-- Making the directory of a file keeps a stable property, or fails and stops the run. -/
theorem keeps_createParent (hP : Stable P) (path : String) : Keeps P (createParent path) := by
  unfold createParent
  refine Meets.bind (meets_nextIo_quiet hP (by decide) _) fun fate => ?_
  cases fate with
  | done => exact Meets.pure fun _ h => h.1 rfl
  | failed e left => exact Meets.raise fun _ h => h.2 nofun

/-- Removing a file does what it does when the file is gone, and stops the run otherwise. -/
theorem meets_remove (hP : Stable P) {path : String} {report : String → String}
    (hdone : ∀ host, P host → Q (host.put path none)) :
    Meets P (remove path report) (fun _ => Q) Stopped := by
  unfold remove
  refine Meets.bind (meets_nextIo_quiet hP (by decide) _) fun fate => ?_
  cases fate with
  | done => exact Meets.modify fun host h => hdone host (h.1 rfl)
  | failed e left => exact Meets.raise fun _ h => h.2 nofun

/-- Writing a file leads from one invariant to another when its note does, also where only a
part of the text gets on disk. -/
theorem meets_put (hP : Stable P) {path text : String} {note : Host → Host}
    {report : String → String}
    (hdone : ∀ host, P host →
      Q (note ((host.tell (.file .write path .done)).put path (some text))))
    (hpart : ∀ host e left, P host → Stopped
      (note ((host.tell (.file .write path (.failed e (some left)))).put path (some left)))) :
    Meets P (put path text note report) (fun _ => Q) Stopped := by
  unfold put
  refine Meets.bind (meets_nextIo hP _ _) fun fate => ?_
  cases fate with
  | done =>
      refine Meets.modify ?_
      rintro _ ⟨before, h, rfl⟩
      exact hdone before h
  | failed e left =>
      cases left with
      | none =>
          refine Meets.raise ?_
          rintro _ ⟨before, h, rfl⟩
          exact hP.bad before _ h rfl rfl
      | some left =>
          refine Meets.bind (Q := fun _ => Stopped) (Meets.modify ?_) fun _ =>
            Meets.raise fun _ h => h
          rintro _ ⟨before, h, rfl⟩
          exact hpart before e left h

/-! ### Questions -/

/-- The lines that an answer took, and how the last of them was. By induction on the lines: those
in front of the answer were not understood, and a terminal that fails is the last one read. -/
theorem readUntil_used {accept : Text.Str → Option α} {a : α} (answers : List Typed) :
    ∃ used, answers = used ++ (readUntil accept (.ok a) answers).2 ∧
      match (readUntil accept (.ok a) answers).1 with
      | .ok _ => ∀ t ∈ used, (Exchange.typed t).bad = false
      | .error _ => ∃ fine e, used = fine ++ [.failed e] ∧
          ∀ t ∈ fine, (Exchange.typed t).bad = false := by
  induction answers with
  | nil => exact ⟨[], rfl, fun _ h => absurd h List.not_mem_nil⟩
  | cons t rest ih =>
      cases t with
      | eof => exact ⟨[.eof], rfl, by simp [readUntil, Exchange.bad]⟩
      | failed e => exact ⟨[.failed e], rfl, [], e, rfl, fun _ h => absurd h List.not_mem_nil⟩
      | line text =>
          unfold readUntil
          cases haccept : accept (Text.trim text) with
          | some a => exact ⟨[.line text], rfl, by simp [Exchange.bad]⟩
          | none =>
              obtain ⟨used, hused, hlast⟩ := ih
              refine ⟨.line text :: used, congrArg (.line text :: ·) hused, ?_⟩
              dsimp only
              split
              next heq =>
                rw [heq] at hlast
                simpa [Exchange.bad] using hlast
              next heq =>
                rw [heq] at hlast
                obtain ⟨fine, e, rfl, hfine⟩ := hlast
                refine ⟨.line text :: fine, e, rfl, ?_⟩
                simpa [Exchange.bad] using hfine

/-- What is told without a failure keeps the invariant. -/
theorem Stable.tells (hP : Stable P) (h : P host) {xs : List Exchange}
    (hfine : ∀ x ∈ xs, x.bad = false ∧ x.writes = false) :
    P { host with exchanges := host.exchanges ++ xs } := by
  induction xs generalizing host with
  | nil => exact hP.frame host _ h ⟨rfl, rfl, List.append_nil _, rfl, rfl, rfl⟩
  | cons x rest ih =>
      obtain ⟨hbad, hwrites⟩ := hfine x List.mem_cons_self
      have hrest := ih (hP.fine host x h hbad hwrites) fun y hy =>
        hfine y (List.mem_cons_of_mem _ hy)
      refine hP.frame _ _ hrest ⟨rfl, rfl, ?_, rfl, rfl, rfl⟩
      exact (List.append_assoc _ [x] rest).symm

/-- A question with a default keeps a stable property, or the terminal fails and the run stops.
What it read is told line by line, and nothing else about the host changes. -/
theorem keeps_yesNo (hP : Stable P) (default : Bool) : Keeps P (yesNo default) := by
  intro host h
  obtain ⟨used, hused, hlast⟩ := @readUntil_used _ (yesOrNo default) default host.answers
  have hrest := hP.frame host
    { host with answers := (readUntil (yesOrNo default) (.ok default) host.answers).2 } h
    ⟨rfl, rfl, rfl, rfl, rfl, rfl⟩
  unfold yesNo converse
  rw [bind_ok (get_run host), bind_ok (modify_run _ host), Host.hear_append hused]
  split at hlast
  next heq =>
    rw [heq]
    exact hP.tells hrest (by simpa [Exchange.writes] using hlast)
  next heq =>
    rw [heq]
    obtain ⟨fine, e, rfl, hfine⟩ := hlast
    have hquiet : ∀ x ∈ fine.map Exchange.typed, x.bad = false ∧ x.writes = false := by
      simpa [Exchange.writes] using hfine
    have hstopped := hP.bad _ (.typed (.failed e)) (hP.tells hrest hquiet) rfl rfl
    rw [Host.tell, List.append_assoc] at hstopped
    rw [List.map_append]
    exact hstopped

/-! ## Where a run has got to -/

/-- **While all is well:** these changes stand, and the journal in memory has those. -/
structure At (standing steps : List Step) (backed : Disk → Prop) (host : Host) : Prop where
  live : host.dryRun = false
  unsaved : Unsaved host
  well : goesWell false host.exchanges = true
  written : host.exchanges.any Exchange.writes = !standing.isEmpty
  stands : host.standing = standing
  steps : host.journal.steps = steps
  backed : backed host.disk

/-- Nothing is asked of the disk. -/
def anyDisk : Disk → Prop := fun _ => True

section

variable {standing steps : List Step} {backed : Disk → Prop}

/-- While all is well a run may stop at a failure. -/
theorem At.stopped (h : At standing steps backed host) {x : Exchange} (hbad : x.bad = true)
    (hwrites : x.writes = false) : Stopped (host.tell x) := by
  refine ⟨h.unsaved.of_eq rfl, ?_⟩
  have hstands : (host.tell x).standing = standing := h.stands
  have htold : (host.tell x).exchanges = host.exchanges ++ [x] := rfl
  unfold Told
  rw [hstands, htold, goesWell_append, h.well, h.written, hbad, hwrites]
  simp

/-- These changes stand as long as nothing fails; and where something does, once one of them was
written, the run may stop. -/
theorem stable_at : Stable (At standing steps backed) where
  frame host host' h hsame :=
    { live := hsame.dryRun.trans h.live
      unsaved := h.unsaved.of_eq hsame.saved
      well := by rw [hsame.exchanges, h.well]
      written := by rw [hsame.exchanges, h.written]
      stands := hsame.standing.trans h.stands
      steps := hsame.steps.trans h.steps
      backed := by rw [hsame.disk]; exact h.backed }
  fine host x h hfine hwrites :=
    { h with
      unsaved := h.unsaved.of_eq rfl
      well := goesWell_fine h.well hfine
      written := by
        rw [Host.tell, List.any_append, h.written]
        simp [hwrites] }
  bad _ _ h hbad hwrites := h.stopped hbad hwrites

/-- A change is kept in the journal. -/
theorem At.record (h : At standing steps backed host) (step : Step) :
    At standing (steps ++ [step]) backed (host.record step) :=
  { h with
    unsaved := h.unsaved.of_eq rfl
    steps := by rw [Host.record, h.steps] }

/-- Noting a step in the journal adds it to what is noted. -/
theorem meets_record {E : Host → Prop} (step : Step) :
    Meets (At standing steps backed) (modify (Host.record step) : Wizard Unit)
      (fun _ => At standing (steps ++ [step]) backed) E :=
  Meets.modify fun _ h => h.record step

/-- One more change stands. -/
theorem At.stand (h : At standing steps backed host) (hne : standing ≠ []) (step : Step) :
    At (standing ++ [step]) steps backed (host.stand step) :=
  { h with
    unsaved := h.unsaved.of_eq rfl
    written := by
      rw [List.isEmpty_eq_false_iff.mpr (List.append_ne_nil_of_left_ne_nil hne _)]
      rw [Host.stand, h.written, List.isEmpty_eq_false_iff.mpr hne]
    stands := by rw [Host.stand, h.stands] }

/-- A file is written, and changes stand. -/
theorem At.wrote (h : At standing steps backed host) {new : List Step} {path text : String}
    {backed' : Disk → Prop} (hne : standing ++ new ≠ [])
    (hdisk : ∀ disk, backed disk → backed' (disk.put path (some text))) :
    At (standing ++ new) steps backed'
      { (host.tell (.file .write path .done)).put path (some text) with
        standing := host.standing ++ new } where
  live := h.live
  unsaved := h.unsaved.of_eq rfl
  well := goesWell_fine h.well rfl
  written := by
    rw [List.isEmpty_eq_false_iff.mpr hne]
    simp [Host.put, Host.tell, Exchange.writes]
  stands := by rw [h.stands]
  steps := h.steps
  backed := hdisk _ h.backed

/-- A part of it is written, and changes stand. -/
theorem At.torn (h : At standing steps backed host) {new : List Step} {path e left : String}
    (hne : standing ++ new ≠ []) :
    Stopped
      { (host.tell (.file .write path (.failed e (some left)))).put path (some left) with
        standing := host.standing ++ new } := by
  refine stopped_of_standing h.unsaved (x := .file .write path (.failed e (some left))) rfl ?_ ?_
    rfl rfl
  · simp [Exchange.writes]
  · rw [h.stands]
    exact hne

/-- Putting a text on the disk: when it succeeds the file is as told, and the steps that go with
it stand. -/
theorem meets_put_at {new : List Step} {path text : String} {note : Host → Host}
    {report : String → String} {backed' : Disk → Prop}
    (hnote : ∀ host, note host = { host with standing := host.standing ++ new })
    (hne : standing ++ new ≠ [])
    (hdisk : ∀ disk, backed disk → backed' (disk.put path (some text))) :
    Meets (At standing steps backed) (put path text note report)
      (fun _ => At (standing ++ new) steps backed') Stopped := by
  refine meets_put stable_at ?_ ?_
  · intro host h
    rw [hnote]
    exact h.wrote hne hdisk
  · intro host e left h
    rw [hnote]
    exact h.torn hne

end

/-- These steps can be taken back: first the commands, and then the one file that was
written, whose backup is there. -/
def Undoable (files : String → Option String) : List Step → Prop
  | [] => True
  | .created _ :: rest => rest = []
  | .replaced _ backup :: rest => rest = [] ∧ (files backup).isSome = true
  | .ran _ undo :: rest => needed undo = true ∧ Undoable files rest

/-- No note adds no step. -/
theorem id_note (host : Host) : id host = { host with standing := host.standing ++ [] } := by
  rw [List.append_nil]
  rfl

/-- The file to be copied is there. -/
def Copyable (source : String) (P : Host → Prop) (host : Host) : Prop :=
  P host ∧ (host.disk.files source).isSome = true

/-- A copy of a file that is there is written like any other text. -/
theorem meets_copy {source target : String} {note : Host → Host} {report : String → String}
    (hput : ∀ text, Meets P (put target text note report) (fun _ => Q) Stopped) :
    Meets (Copyable source P) (copy source target note report) (fun _ => Q) Stopped := by
  unfold copy
  refine Meets.bind Meets.get fun host => ?_
  cases htext : host.disk.files source with
  | none =>
      rintro _ ⟨rfl, -, hthere⟩
      rw [htext] at hthere
      cases hthere
  | some text => exact (hput text).weaken (fun _ h => h.2.1) fun _ _ h => h

section

variable {standing steps : List Step}

/-- A file that is there: it is backed up, and then replaced. It stands as changed from the copy
on, and is recorded right behind it. -/
theorem meets_replace (path text : String) (report report' : String → String) :
    Meets (Copyable path (At standing steps anyDisk)) (do
      copy path (backupOf path) (Host.stand (.replaced path (backupOf path))) report
      modify (Host.record (.replaced path (backupOf path)))
      createParent path
      put path text id report')
      (fun _ => At (standing ++ [.replaced path (backupOf path)])
        (steps ++ [.replaced path (backupOf path)])
        fun disk => Undoable disk.files [.replaced path (backupOf path)]) Stopped := by
  have hstands : standing ++ [Step.replaced path (backupOf path)] ≠ [] :=
    List.append_ne_nil_of_right_ne_nil _ (List.cons_ne_nil _ _)
  have hput := fun copied => @meets_put_at standing steps anyDisk
    [.replaced path (backupOf path)] (backupOf path) copied
    (Host.stand (.replaced path (backupOf path))) report
    (fun disk => Undoable disk.files [.replaced path (backupOf path)]) (fun _ => rfl) hstands
    fun disk _ => ⟨rfl, by simp [Disk.put]⟩
  refine Meets.bind (meets_copy hput) fun _ => ?_
  refine Meets.bind (meets_record _) fun _ => ?_
  refine Meets.bind (keeps_createParent stable_at path) fun _ => ?_
  have hput := @meets_put_at _ (steps ++ [.replaced path (backupOf path)])
    (fun disk => Undoable disk.files [.replaced path (backupOf path)]) [] path text id report'
    (fun disk => Undoable disk.files [.replaced path (backupOf path)]) id_note
    (by rw [List.append_nil]; exact hstands)
    fun disk hdisk => ⟨rfl, by simpa [Disk.put, backupOf_ne] using hdisk.2⟩
  rw [List.append_nil] at hput
  exact hput

/-- A file that is not there. -/
theorem meets_create (path text : String) (report : String → String) :
    Meets (At standing steps anyDisk) (do
      modify (Host.record (.created path))
      createParent path
      put path text (Host.stand (.created path)) report)
      (fun _ => At (standing ++ [.created path]) (steps ++ [.created path])
        fun disk => Undoable disk.files [.created path]) Stopped := by
  refine Meets.bind (meets_record _) fun _ => ?_
  refine Meets.bind (keeps_createParent stable_at path) fun _ => ?_
  exact meets_put_at (fun _ => rfl)
    (List.append_ne_nil_of_right_ne_nil _ (List.cons_ne_nil _ _)) fun _ _ => rfl

/-- **Writing a file** makes one change, which stands, is kept, and can be taken back. -/
theorem meets_writeFile (path text : String) :
    Meets (At standing steps anyDisk) (writeFile path text)
      (fun _ host => ∃ step, At (standing ++ [step]) (steps ++ [step])
        (fun disk => Undoable disk.files [step]) host) Stopped := by
  unfold writeFile
  refine Meets.bind Meets.get fun host => ?_
  dsimp only
  split
  next hdry =>
    rintro _ ⟨rfl, h⟩
    exact absurd (h.live.symm.trans hdry) (by decide)
  split
  next hthere =>
    refine (meets_replace path text _ _).weaken ?_ fun _ _ h => ⟨_, h⟩
    rintro _ ⟨rfl, h⟩
    exact ⟨h, hthere⟩
  next => exact (meets_create path text _).weaken (fun _ h => h.2) fun _ _ h => ⟨_, h⟩

end

/-! ### Before, during and after the configuration -/

/-- **Before anything is changed.** -/
def Fresh : Host → Prop := At [] [] anyDisk

/-- **While the site is set up** what stands is what the journal has, and can be taken back. -/
def Placed (host : Host) : Prop :=
  ∃ steps, steps ≠ [] ∧ At steps steps (fun disk => Undoable disk.files steps.reverse) host

/-- **Later on** something stands, and the journal has it. -/
def Busy (host : Host) : Prop :=
  ∃ standing steps, standing ≠ [] ∧ standing ⊆ steps ∧ At standing steps anyDisk host

/-- So the site is being set up until something fails. -/
theorem stable_placed : Stable Placed where
  frame _ _ := fun ⟨steps, hne, h⟩ hsame => ⟨steps, hne, stable_at.frame _ _ h hsame⟩
  fine _ x := fun ⟨steps, hne, h⟩ hfine hwrites => ⟨steps, hne, stable_at.fine _ x h hfine hwrites⟩
  bad _ _ := fun ⟨_, _, h⟩ hbad hwrites => h.stopped hbad hwrites

/-- While the books are busy, what may come next keeps them so, or the run stops. -/
theorem stable_busy : Stable Busy where
  frame _ _ := fun ⟨s, j, hne, hsub, h⟩ hsame => ⟨s, j, hne, hsub, stable_at.frame _ _ h hsame⟩
  fine _ x := fun ⟨s, j, hne, hsub, h⟩ hfine hwrites =>
    ⟨s, j, hne, hsub, stable_at.fine _ x h hfine hwrites⟩
  bad _ _ := fun ⟨_, _, _, _, h⟩ hbad hwrites => h.stopped hbad hwrites

/-- What is known of the copies on the disk may be forgotten. -/
theorem At.loosen {standing steps : List Step} {backed : Disk → Prop}
    (h : At standing steps backed host) : At standing steps anyDisk host :=
  { h with backed := trivial }

/-- Where any disk will do, the disk may change by itself. -/
theorem At.loose {standing steps : List Step} (disk : Disk) (h : At standing steps anyDisk host) :
    At standing steps anyDisk { host with disk := disk } :=
  { h with unsaved := h.unsaved.of_eq rfl }

/-- While the site is set up something stands, and the journal has it. -/
theorem Placed.busy (h : Placed host) : Busy host := by
  obtain ⟨steps, hne, h⟩ := h
  exact ⟨steps, steps, hne, List.Subset.refl _, h.loosen⟩

/-! ### Before the configuration -/

/-- Nothing that is asked does harm as long as nothing was written. -/
theorem Fresh.tell (h : Fresh host) {x : Exchange} (hwrites : x.writes = false) :
    Fresh (host.tell x) :=
  { h with
    unsaved := h.unsaved.of_eq rfl
    well := by
      rw [Host.tell, goesWell_append, h.well, h.written, hwrites]
      rfl
    written := by
      rw [Host.tell, List.any_append, h.written]
      simp [hwrites] }

/-- A run that stops before anything was written has nothing to account for. -/
theorem Fresh.stopped (h : Fresh host) : Stopped host :=
  ⟨h.unsaved, iff_of_true h.stands h.well⟩

/-- Stopping is allowed while nothing was written. -/
theorem fresh_stop {e : String} : Keeps Fresh (stop e : Wizard α) :=
  Meets.raise fun _ h => h.stopped

/-- Lines that are typed write nothing. -/
theorem fresh_tells (h : Fresh host) (ts : List Typed) :
    Fresh { host with exchanges := host.exchanges ++ ts.map .typed } := by
  induction ts generalizing host with
  | nil => exact stable_at.frame host _ h ⟨rfl, rfl, List.append_nil _, rfl, rfl, rfl⟩
  | cons t rest ih =>
      have hrest := ih (h.tell (x := .typed t) rfl)
      have htold := List.append_assoc host.exchanges [Exchange.typed t] (rest.map Exchange.typed)
      exact stable_at.frame _ _ hrest ⟨rfl, rfl, htold.symm, rfl, rfl, rfl⟩

/-- Nor does reading some and leaving the rest. -/
theorem fresh_hear (h : Fresh host) (rest : List Typed) : Fresh (host.hear rest) :=
  stable_at.frame _ _ (fresh_tells h (host.answers.take (host.answers.length - rest.length)))
    ⟨rfl, rfl, rfl, rfl, rfl, rfl⟩

/-- So talking at the terminal leaves nothing written. -/
theorem fresh_converse (talk : List Typed → Except String α × List Typed) :
    Keeps Fresh (converse talk) := by
  unfold converse
  refine Keeps.get_bind fun host => Keeps.bind (Meets.modify fun _ h => fresh_hear h _) fun _ => ?_
  split
  next => exact Keeps.pure
  next => exact fresh_stop

/-- Installing packages has to succeed, with each of the package managers. -/
theorem needed_install (pm : Pm) (packages : List String) :
    needed (pm.install packages) = true := by
  cases pm <;> simp [needed, Pm.install]

/-- Installing packages keeps a stable property that asks nothing of the disk. -/
theorem keeps_install (hP : Stable P) (hloose : Loose P) (pm : Pm) (packages : List String) :
    Keeps P (install (pm.install packages)) := by
  unfold install
  refine Keeps.bind (keeps_runCmd hP (needed_install pm packages)) fun _ => ?_
  refine Meets.modify fun host h => ?_
  split
  next => exact h
  next => exact hloose host _ h

/-- Before anything is changed nothing is asked of the disk. -/
theorem fresh_loose : Loose Fresh := fun _ disk h => h.loose disk

/-- The disk may change by itself later on, too. -/
theorem busy_loose : Loose Busy :=
  fun _ disk ⟨s, j, hne, hsub, h⟩ => ⟨s, j, hne, hsub, h.loose disk⟩

/-- Refusing a server that is not supported ends the run as any other error does. -/
theorem keeps_supported (kind : Kind) : Keeps P (supported kind) := by
  unfold supported
  refine Keeps.get_bind fun host => ?_
  split
  next => exact Keeps.pure
  next => exact Keeps.pure

/-- The choice of the server comes before anything is written. Installing one runs commands, which
are on the books as such, and may be declined. -/
theorem fresh_chooseServer (asked : Option Text.Str) : Keeps Fresh (chooseServer asked) := by
  unfold chooseServer
  refine Keeps.get_bind fun host => ?_
  split
  next =>
    split
    next => exact keeps_supported _
    next => exact fresh_stop
  next => exact keeps_supported _
  next =>
    refine Keeps.bind (fresh_converse _) fun kind => ?_
    split
    next => exact Keeps.pure
    split
    next => exact Keeps.pure
    refine Keeps.bind (keeps_yesNo stable_at true) fun yes => ?_
    split
    next =>
      exact Keeps.bind (keeps_install stable_at fresh_loose _ _) fun _ => keeps_supported _
    next => exact Keeps.pure
  next => exact Keeps.bind (fresh_converse _) fun kind => keeps_supported _

/-- Asking for the name comes before anything is written. -/
theorem fresh_askDomain (asked : Option Text.Str) : Keeps Fresh (askDomain asked) := by
  unfold askDomain
  split
  next =>
    split
    next => exact Keeps.pure
    next => exact fresh_stop
  next => exact fresh_converse _

/-- The check of the name comes before anything is written. -/
theorem fresh_dns : Keeps Fresh dns := by
  unfold dns
  refine Keeps.get_bind fun host => Keeps.bind (keeps_yesNo stable_at true) fun yes => ?_
  split
  next => exact fresh_converse _
  next => exact fresh_converse _

/-! ### While the site is set up -/

/-- The first file. -/
theorem placed_writeFile (path text : String) :
    Meets Fresh (writeFile path text) (fun _ => Placed) Stopped :=
  (meets_writeFile path text).weaken (fun _ h => h)
    fun _ _ ⟨step, h⟩ => ⟨[step], List.cons_ne_nil _ _, h⟩

/-- A site is switched on. Only `a2ensite` leaves something to take back, and the command for that
is one of those that matter. -/
theorem placed_enable {command : List String} (hneeded : needed command = true) :
    Keeps Placed (enable command) := by
  unfold enable
  dsimp only
  generalize hundo : (if command.head? = some "a2ensite" then
    ["a2dissite", "-q", "breeze-core"] else []) = undo
  refine Keeps.bind (keeps_runCmd stable_placed hneeded) fun _ => ?_
  split
  next => exact Keeps.pure
  next hsome =>
    have hoff : needed undo = true := by
      split at hundo
      next =>
        rw [← hundo]
        rfl
      next => exact absurd hundo.symm hsome
    refine Meets.modify ?_
    rintro host ⟨steps, hne, h⟩
    have hboth := (h.stand hne (.ran command undo)).record (.ran command undo)
    refine ⟨_, List.append_ne_nil_of_left_ne_nil hne _, { hboth with backed := ?_ }⟩
    rw [List.reverse_append]
    exact ⟨hoff, h.backed⟩

/-- The commands that go with a configuration switch sites and modules on, and have to succeed. -/
theorem needed_target {disk : Disk} {kind : Kind} {command : List String}
    (h : command ∈ (target disk kind).2) : needed command = true := by
  unfold target at h
  cases kind with
  | nginx =>
      dsimp only at h
      split at h
      next => cases h
      next => cases h
  | caddy => cases h
  | apache =>
      dsimp only at h
      split at h
      next =>
        simp only [List.mem_cons, List.not_mem_nil, or_false] at h
        rcases h with rfl | rfl
        · rfl
        · rfl
      next => cases h

/-! ### Later on -/

/-- A change that is made and kept. -/
theorem Busy.more (h : Busy host) (step : Step) : Busy ((host.stand step).record step) := by
  obtain ⟨standing, steps, hne, hsub, h⟩ := h
  refine ⟨_, _, List.append_ne_nil_of_left_ne_nil hne _, ?_, (h.stand hne step).record step⟩
  exact List.append_subset.mpr
    ⟨List.subset_append_of_subset_left _ hsub, List.subset_append_right _ _⟩

/-- The file certbot adds and the site it enables stand, and are noted as they are found. -/
theorem busy_recordCertbot (leSsl : Option String) : Keeps Busy (recordCertbot leSsl) := by
  unfold recordCertbot
  cases leSsl with
  | none => exact Keeps.pure
  | some path =>
      refine Meets.modify fun host h => ?_
      split
      next => exact h
      next =>
        have hfile := h.more (.created path)
        dsimp only
        split
        next => exact hfile.more _
        next => exact hfile

/-- Certbot may fail without harm: it is no command that has to succeed, and what stands is
noted. -/
theorem busy_startCertbot (kind : Kind) (domain : String) :
    Keeps Busy (startCertbot kind domain) := by
  unfold startCertbot
  refine Keeps.bind (keeps_yesNo stable_busy true) fun yes => ?_
  split
  next =>
    refine Keeps.get_bind fun host => ?_
    dsimp only
    have hcertbot : ∀ plugin : String,
        needed ["certbot", plugin, "-d", domain, "--redirect", "--hsts"] = false := by
      intro plugin
      simp [needed]
    refine Keeps.bind (keeps_runCmd stable_busy (hcertbot _)) fun ok => ?_
    refine Keeps.bind (Meets.modify fun host h => ?_) fun _ => ?_
    · split
      next => exact h
      next => exact busy_loose host _ h
    · exact Keeps.bind (busy_recordCertbot _) fun _ => Keeps.pure
  next => exact Keeps.pure

/-- So with or without a certificate what stands is noted. -/
theorem busy_certificate (kind : Kind) (domain : String) :
    Keeps Busy (certificate kind domain) := by
  unfold certificate
  refine Keeps.get_bind fun host => ?_
  split
  next => exact Keeps.pure
  split
  next => exact busy_startCertbot _ _
  split
  next => exact Keeps.pure
  refine Keeps.bind (keeps_yesNo stable_busy true) fun yes => ?_
  split
  next =>
    exact Keeps.bind (keeps_install stable_busy busy_loose _ _) fun _ => busy_startCertbot _ _
  next => exact Keeps.pure

/-- Writing a file notes what it changed, when it succeeds. -/
theorem busy_writeFile (path text : String) : Keeps Busy (writeFile path text) := by
  rintro host ⟨standing, steps, hne, hsub, h⟩
  have hstep := (meets_writeFile path text).weaken (P := At standing steps anyDisk)
    (Q := fun _ => Busy) (fun _ h => h) ?_
  · exact hstep host h
  · rintro _ host' ⟨step, h'⟩
    refine ⟨_, _, List.append_ne_nil_of_left_ne_nil hne _, ?_, h'.loosen⟩
    exact List.append_subset.mpr
      ⟨List.subset_append_of_subset_left _ hsub, List.subset_append_right _ _⟩

/-- The settings of the service are written like any other file. -/
theorem busy_behindProxy (env : Text.Str) : Keeps Busy (behindProxy env) := by
  unfold behindProxy
  refine Keeps.get_bind fun host => Keeps.bind (keeps_yesNo stable_busy true) fun onlyProxy => ?_
  refine Keeps.bind (keeps_yesNo stable_busy true) fun yes => ?_
  split
  next =>
    exact Keeps.bind (busy_writeFile _ _) fun _ => meets_restartBreeze stable_busy.commanded
  next => exact Keeps.pure

end BreezeCli
