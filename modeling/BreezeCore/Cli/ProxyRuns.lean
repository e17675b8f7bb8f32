import BreezeCore.Cli.ProxyBooks
import BreezeCore.Cli.ProxyFates

/-!
# Changes that are left behind

A run of the wizard makes changes and keeps them in memory; only at its end, or after a
rollback, does it save the journal.  `Accounted` says that every change that stands is in
the journal on disk.

* `proxy_accounted_iff` — that is so exactly when, once something was written, no file
  operation fails, no command that has to succeed does not, and the terminal can be read.
-/

namespace BreezeCli

open Actions

/-- **Every change that stands is in the journal on disk.** -/
def Accounted (host : Host) : Prop :=
  ∀ step ∈ host.standing, ∃ journal, host.saved = some (.ok journal) ∧ step ∈ journal.steps

variable {P : Host → Prop} {host host' : Host}

/-! ## Rolling back -/

/-- **While changes are rolled back:** those that still stand are still to come, or something
failed and left more standing than that. -/
structure Rolling (rest : List Step) (host : Host) : Prop where
  live : host.dryRun = false
  unsaved : Unsaved host
  written : host.exchanges.any Exchange.writes = true
  dropped : host.journal.steps = []
  going : (goesWell false host.exchanges = true ∧
      ∀ step, host.standing.count step = rest.count step) ∨
    (goesWell false host.exchanges = false ∧
      ∃ step, rest.count step < host.standing.count step)

section

variable {step : Step} {rest : List Step}

/-- When no step is left to roll back, nothing stands exactly if nothing failed. -/
theorem Rolling.told (h : Rolling [] host) : Told host := by
  rcases h.going with ⟨hwell, hcount⟩ | ⟨hill, step, hlost⟩
  · refine iff_of_true ?_ hwell
    by_contra hne
    obtain ⟨step, hstep⟩ := List.exists_mem_of_ne_nil _ hne
    have hstands := List.count_pos_iff.mpr hstep
    rw [hcount step, List.count_nil] at hstands
    exact lt_irrefl _ hstands
  · refine iff_of_false ?_ (by rw [hill]; decide)
    intro hnone
    rw [hnone, List.count_nil] at hlost
    exact Nat.not_lt_zero _ hlost

/-- What is still to be taken back still stands. -/
theorem Rolling.standing_ne (h : Rolling (step :: rest) host) : host.standing ≠ [] := by
  intro hnone
  rcases h.going with ⟨-, hcount⟩ | ⟨-, other, hlost⟩
  · have hstands := hcount step
    rw [hnone, List.count_nil, List.count_cons_self] at hstands
    omega
  · rw [hnone, List.count_nil] at hlost
    exact Nat.not_lt_zero _ hlost

/-- The books of a rollback after something was told. -/
theorem Rolling.tell (h : Rolling rest host) {x : Exchange} (hfine : x.bad = false) :
    Rolling rest (host.tell x) := by
  refine ⟨h.live, h.unsaved.of_eq rfl, ?_, h.dropped, ?_⟩
  · rw [Host.tell, List.any_append, h.written, Bool.true_or]
  · have hsame : goesWell false (host.tell x).exchanges = goesWell false host.exchanges := by
      rw [Host.tell, goesWell_append, hfine]
      simp
    rw [hsame]
    exact h.going

/-- A rollback that fails stops while something stands. -/
theorem Rolling.stopped (h : Rolling (step :: rest) host) {x : Exchange} (hbad : x.bad = true)
    (hstands : host'.standing = host.standing) (hsaved : host'.saved = host.saved)
    (htold : host'.exchanges = host.exchanges ++ [x]) : Stopped host' := by
  refine stopped_of_standing h.unsaved hbad ?_ ?_ hsaved htold
  · rw [h.written, Bool.true_or]
  · rw [hstands]
    exact h.standing_ne

/-- Rolling back looks at the books alone. -/
theorem Rolling.frame (h : Rolling rest host) (hsame : SameBooks host host') :
    Rolling rest host' := by
  refine ⟨hsame.dryRun.trans h.live, h.unsaved.of_eq hsame.saved, ?_, hsame.steps.trans h.dropped,
    ?_⟩
  · rw [hsame.exchanges, h.written]
  · rw [hsame.exchanges, hsame.standing]
    exact h.going

/-- While changes are rolled back the disk may change by itself. -/
theorem Rolling.loose (h : Rolling rest host) (disk : Disk) :
    Rolling rest { host with disk := disk } :=
  ⟨h.live, h.unsaved.of_eq rfl, h.written, h.dropped, h.going⟩

/-- While steps are left a rollback goes on until something fails, and then more stands than is
left to reverse. -/
theorem stable_rolling : Stable (Rolling (step :: rest)) where
  frame _ _ h hsame := h.frame hsame
  fine _ _ h hfine _ := h.tell hfine
  bad _ _ h hbad _ := h.stopped hbad rfl rfl rfl

/-- A change that is taken back stands no more. What stands is counted with repetitions, as a
command may have been run twice: one is taken off on both sides. -/
theorem Rolling.settle (h : Rolling (step :: rest) host) : Rolling rest (host.settle step) := by
  have hcons : ∀ other, (step :: rest).count other =
      rest.count other + if step == other then 1 else 0 := fun other => List.count_cons
  have herase : ∀ other, (host.standing.erase step).count other =
      host.standing.count other - if step == other then 1 else 0 := fun other => List.count_erase
  refine ⟨h.live, h.unsaved.of_eq rfl, h.written, h.dropped, ?_⟩
  rcases h.going with ⟨hwell, hcount⟩ | ⟨hill, lost, hlost⟩
  · refine .inl ⟨hwell, ?_⟩
    intro other
    have hother := hcount other
    simp only [Host.settle]
    rw [herase]
    rw [hcons] at hother
    omega
  · refine .inr ⟨hill, lost, ?_⟩
    simp only [Host.settle]
    rw [herase]
    rw [hcons] at hlost
    omega

/-- A command that does not succeed leaves its change. -/
theorem Rolling.inVain (h : Rolling (step :: rest) host) {x : Exchange} (hbad : x.bad = true) :
    Rolling rest (host.tell x) := by
  have hill : goesWell false (host.tell x).exchanges = false :=
    goesWell_bad hbad (by rw [h.written, Bool.true_or])
  refine ⟨h.live, h.unsaved.of_eq rfl, ?_, h.dropped, .inr ⟨hill, ?_⟩⟩
  · rw [Host.tell, List.any_append, h.written, Bool.true_or]
  · rcases h.going with ⟨-, hcount⟩ | ⟨-, lost, hlost⟩
    · refine ⟨step, ?_⟩
      have hstep := hcount step
      rw [List.count_cons_self] at hstep
      exact Nat.lt_of_succ_le (le_of_eq hstep.symm)
    · refine ⟨lost, lt_of_le_of_lt ?_ hlost⟩
      rw [List.count_cons]
      exact Nat.le_add_right _ _

/-- The command that reverses a change may fail.  It leaves the files alone, and a failure is told
as one in vain, which the books keep apart from the changes still to take back. -/
theorem rolling_runCmd {undo : List String} (hneeded : needed undo = true) (disk : Disk) :
    Meets (fun host => Rolling (step :: rest) host ∧ host.disk = disk) (runCmd undo false)
      (fun ok host => Rolling (if ok then step :: rest else rest) host ∧ host.disk = disk)
      Stopped := by
  unfold runCmd
  refine Meets.bind Meets.get fun host => ?_
  split
  next hdry =>
    rintro _ ⟨rfl, h, -⟩
    exact absurd (h.live.symm.trans hdry) (by decide)
  next =>
    refine Meets.bind (Q := fun fate host => ∃ before, (Rolling (step :: rest) before ∧
      before.disk = disk) ∧ host = before.tell (.ran undo fate)) ?_ fun fate => ?_
    · rintro _ ⟨rfl, h, hdisk⟩
      exact ⟨{ host with commands := host.commands.tail },
        ⟨h.frame ⟨rfl, rfl, rfl, rfl, rfl, rfl⟩, hdisk⟩, rfl⟩
    · cases fate with
      | notStarted e =>
          refine Meets.raise ?_
          rintro _ ⟨before, ⟨h, -⟩, rfl⟩
          exact h.stopped rfl rfl rfl rfl
      | exited success status =>
          dsimp only
          rw [Bool.and_false, if_neg (by decide)]
          refine Meets.pure ?_
          rintro _ ⟨before, ⟨h, hdisk⟩, rfl⟩
          cases success with
          | true => exact ⟨h.tell rfl, hdisk⟩
          | false => exact ⟨h.inVain (by simp [Exchange.bad, hneeded]), hdisk⟩

/-- What is left of a rollback can be taken back. -/
def Playable (rest : List Step) (host : Host) : Prop :=
  Rolling rest host ∧ Undoable host.disk.files rest

/-- The file is put back from its backup, and the backup is removed. -/
theorem rolling_restore (path backup : String) (report : String → String) :
    Meets (Copyable backup (Rolling [step])) (do
      copy backup path id report
      remove backup id
      modify (Host.settle step)) (fun _ => Rolling []) Stopped := by
  refine Meets.bind (meets_copy fun text => meets_put (Q := Rolling [step]) stable_rolling ?_ ?_)
    fun _ => ?_
  · intro host h
    exact (h.tell rfl).loose _
  · intro host e left h
    exact h.stopped rfl rfl rfl rfl
  · exact Meets.bind (meets_remove stable_rolling fun _ h => h.loose _) fun _ =>
      Meets.modify fun _ h => h.settle

/-- **One change** is taken back. The newest file goes first and is there to be removed or
restored; commands come behind it, and those that matter were needed. -/
theorem rolling_reverse (step : Step) (rest : List Step) :
    Meets (Playable (step :: rest)) (reverse step) (fun _ => Playable rest) Stopped := by
  unfold reverse
  refine Meets.bind Meets.get fun host => ?_
  cases step with
  | created path =>
      dsimp only
      split
      next hdry => exact fun _ h => absurd h.2.1.live (by rw [← h.1, hdry]; decide)
      next =>
        rintro _ ⟨rfl, h, rfl⟩
        have hremove : Meets (Rolling [.created path]) (do
            remove path fun e => "cannot remove " ++ path ++ ": " ++ e
            modify (Host.settle (.created path))) (fun _ => Playable []) Stopped :=
          Meets.bind (meets_remove stable_rolling fun _ h => h.loose _) fun _ =>
            Meets.modify fun _ h => ⟨h.settle, trivial⟩
        exact hremove _ h
  | replaced path backup =>
      dsimp only
      split
      next hdry => exact fun _ h => absurd h.2.1.live (by rw [← h.1, hdry]; decide)
      next =>
        rintro _ ⟨rfl, h, rfl, hthere⟩
        exact (rolling_restore path backup _).weaken (fun _ h => h) (fun _ _ h => ⟨h, trivial⟩) _
          ⟨h, hthere⟩
  | ran command undo =>
      dsimp only
      rintro _ ⟨rfl, h, hneeded, hrest⟩
      refine Meets.bind (rolling_runCmd hneeded host.disk) (fun ok => ?_) _ ⟨h, rfl⟩
      cases ok with
      | true =>
          rw [if_pos rfl]
          refine Meets.modify ?_
          rintro host' ⟨h', hdisk⟩
          refine ⟨h'.settle, ?_⟩
          rw [← hdisk] at hrest
          exact hrest
      | false =>
          rw [if_neg (by decide)]
          refine Meets.pure ?_
          rintro host' ⟨h', hdisk⟩
          refine ⟨h', ?_⟩
          rw [hdisk]
          exact hrest

end

/-- After a rollback there is nothing left to save. -/
structure RolledBack (host : Host) : Prop where
  unsaved : Unsaved host
  dropped : host.journal.steps = []
  told : Told host

/-- Rolling back the site leaves nothing to save, or the run stops where it should. -/
theorem placed_rollback : Meets Placed rollback (fun _ => RolledBack) Stopped := by
  unfold rollback
  refine Meets.bind Meets.get fun host => ?_
  refine Meets.bind (Q := fun _ => Playable host.journal.steps.reverse) (Meets.modify ?_)
    fun _ => ?_
  · rintro _ ⟨rfl, steps, hne, h⟩
    rw [h.steps]
    refine ⟨⟨h.live, h.unsaved.of_eq rfl, ?_, rfl, .inl ⟨h.well, ?_⟩⟩, h.backed⟩
    · rw [h.written, List.isEmpty_eq_false_iff.mpr hne]
      rfl
    · intro step
      rw [h.stands, List.count_reverse]
  · exact (Meets.forM (fun step rest => rolling_reverse step rest) _).weaken (fun _ h => h)
      fun _ _ h => ⟨h.1.unsaved, h.1.dropped, h.1.told⟩

/-! ## The end of a run -/

/-- At the end, what stands is accounted for exactly when nothing failed once something was
written. -/
def Ended (host : Host) : Prop := Accounted host ↔ goesWell false host.exchanges = true

/-- Where nothing stands there is nothing to account for. -/
theorem accounted_of_none (h : host.standing = []) : Accounted host := by
  intro step hstep
  rw [h] at hstep
  cases hstep

/-- Without a journal on disk only nothing is accounted for. -/
theorem ended_of_unsaved (hunsaved : Unsaved host) (htold : Told host) : Ended host := by
  refine Iff.trans ⟨fun h => ?_, accounted_of_none⟩ htold
  by_contra hne
  obtain ⟨step, hstep⟩ := List.exists_mem_of_ne_nil _ hne
  obtain ⟨journal, hsaved, -⟩ := h step hstep
  exact hunsaved journal hsaved

/-- Where a run stops with an error it ends as it should: with no journal on disk its changes are
accounted for just when there are none. -/
theorem Stopped.ended (h : Stopped host) : Ended host := ended_of_unsaved h.1 h.2

/-- **The journal is saved**, and has every change that stands. It is skipped only where it has no
steps, which is not so while something stands; a write that fails is on the books as a failure. -/
theorem busy_saveJournal : Meets Busy saveJournal (fun _ => Ended) Ended := by
  unfold saveJournal
  refine Meets.bind Meets.get fun host => ?_
  split
  next hskip =>
    rintro _ ⟨rfl, standing, steps, hne, hsub, h⟩
    -- Something stands, so the journal has steps.
    rw [h.live, Bool.false_or, h.steps, List.isEmpty_iff] at hskip
    rw [hskip] at hsub
    exact absurd (List.subset_nil.mp hsub) hne
  next =>
    refine Meets.bind ((meets_nextIo stable_busy _ _).weaken (fun _ h => h.2) fun _ _ h => h)
      fun fate => ?_
    cases fate with
    | done =>
        refine Meets.modify ?_
        rintro _ ⟨before, ⟨standing, steps, -, hsub, h⟩, rfl⟩
        refine iff_of_true ?_ (goesWell_fine h.well rfl)
        intro step hstep
        refine ⟨before.journal, rfl, ?_⟩
        have hstands : step ∈ before.standing := hstep
        rw [h.stands] at hstands
        rw [h.steps]
        exact hsub hstands
    | failed e left =>
        cases left with
        | none =>
            refine Meets.raise ?_
            rintro _ ⟨before, hbusy, rfl⟩
            exact (stable_busy.bad before _ hbusy rfl rfl).ended
        | some left =>
            refine Meets.bind (Q := fun _ => Stopped) (Meets.modify ?_) fun _ =>
              Meets.raise fun _ h => h.ended
            -- The journal is torn, and so none is on disk.
            rintro _ ⟨before, ⟨standing, steps, hne, -, h⟩, rfl⟩
            refine ⟨nofun, iff_of_false ?_ ?_⟩
            · exact fun hnone => hne (h.stands.symm.trans hnone)
            · have hwritten : (before.exchanges.any Exchange.writes ||
                  (Exchange.file .write host.journalPath (.failed e (some left))).writes) = true :=
                Bool.or_true _
              exact fun hwell => absurd ((goesWell_bad rfl hwritten).symm.trans hwell) (by decide)

/-- Where there is nothing to save. -/
theorem saveJournal_nothing (hsteps : ∀ host, P host → host.journal.steps = [])
    (hended : ∀ host, P host → Ended host) :
    Meets P saveJournal (fun _ => Ended) Ended := by
  unfold saveJournal
  refine Meets.bind Meets.get fun host => ?_
  split
  next => exact Meets.pure fun _ h => hended _ h.2
  next hskip =>
    rintro _ ⟨rfl, h⟩
    exact absurd (by simp [hsteps _ h]) hskip

/-- A configuration that is not loaded was declined, or is rolled back. Declined, nothing was
written; otherwise the file and the link are placed, tested, and either loaded or taken back. -/
theorem fresh_configure (kind : Kind) (domain port : String) :
    Meets Fresh (configure kind domain port)
      (fun loaded host => if loaded.isSome then Busy host else Fresh host ∨ RolledBack host)
      Stopped := by
  unfold configure
  refine Meets.bind (Q := fun _ => Fresh) (Meets.get.weaken (fun _ h => h) fun _ _ h => h.2)
    fun host => ?_
  dsimp only
  split
  next => exact Meets.raise fun _ h => h.stopped
  refine Meets.bind (keeps_yesNo stable_at true) fun yes => ?_
  split
  next =>
    refine Meets.bind (placed_writeFile _ _) fun _ => ?_
    refine Meets.bind (Keeps.forM fun command h => placed_enable (needed_target h)) fun _ => ?_
    refine Meets.bind (meets_validate stable_placed.commanded kind) fun valid => ?_
    split
    next =>
      refine Meets.bind (meets_reload stable_placed.commanded kind) fun _ => ?_
      exact Meets.pure fun _ h => h.busy
    next =>
      refine Meets.bind placed_rollback fun _ => ?_
      exact Meets.pure fun _ h => .inr h
  next => exact Meets.pure fun _ h => .inl h

/-- From the beginning on, whatever becomes of the parts, the changes are accounted for in the end
exactly when nothing failed once something was written. -/
theorem fresh_setUp (kind : Kind) (domain : String) (env : Text.Str) :
    Meets Fresh (setUp kind domain env) (fun _ => Ended) Ended := by
  have hstopped : ∀ host, Stopped host → Ended host := fun _ h => h.ended
  unfold setUp
  refine Meets.bind ((fresh_configure _ _ _).weaken_error hstopped) fun loaded => ?_
  cases loaded with
  | none =>
      refine Meets.bind (saveJournal_nothing ?_ ?_) fun _ => Meets.pure fun _ h => h
      · rintro host (h | h)
        · exact h.steps
        · exact h.dropped
      · rintro host (h | h)
        · exact h.stopped.ended
        · exact ended_of_unsaved h.unsaved h.told
  | some =>
      refine Meets.bind (Q := fun _ => Busy)
        ((busy_certificate kind domain).weaken_error hstopped) fun _ => ?_
      refine Meets.bind ((busy_behindProxy env).weaken_error hstopped) fun _ => ?_
      exact Meets.bind busy_saveJournal fun _ => Meets.pure fun _ h => h

/-- So are those of the whole wizard. Each question keeps the books fresh, each mechanism after
the configuration keeps them busy, and every way out of it has ended well or been rolled back. -/
theorem fresh_wizard (options : Options) (hdry : options.dryRun = false) :
    Meets (fun host => host.saved = none ∧ host.standing = [] ∧ host.exchanges = [])
      (wizard options) (fun _ => Ended) Ended := by
  have hstopped : ∀ host, Stopped host → Ended host := fun _ h => h.ended
  have hended : ∀ host, Fresh host → Ended host := fun _ h => h.stopped.ended
  unfold wizard
  refine Meets.bind (Q := fun _ => Fresh) (Meets.modify ?_) fun _ => ?_
  · rintro host ⟨hsaved, hnone, hstart⟩
    refine ⟨hdry, ?_, ?_, ?_, hnone, rfl, trivial⟩
    · intro journal h
      exact absurd (hsaved.symm.trans h) nofun
    · dsimp only
      rw [hstart]
      rfl
    · dsimp only
      rw [hstart]
      rfl
  refine Meets.bind (Q := fun _ => Fresh) (Meets.get.weaken (fun _ h => h) fun _ _ h => h.2)
    fun host => ?_
  dsimp only
  refine Meets.bind ((fresh_chooseServer _).weaken_error hstopped) fun chosen => ?_
  cases chosen with
  | none => exact Meets.pure hended
  | some kind =>
      have hbooks : ∀ f : Journal → Journal, (∀ journal, (f journal).steps = journal.steps) →
          Meets Fresh (modify fun host => { host with journal := f host.journal } : Wizard Unit)
            (fun _ => Fresh) Ended := fun f hf =>
        Meets.modify fun host h => stable_at.frame host _ h ⟨rfl, rfl, rfl, rfl, hf _, rfl⟩
      refine Meets.bind (hbooks (fun journal => { journal with server := some kind }) fun _ => rfl)
        fun _ => ?_
      refine Meets.bind ((fresh_askDomain _).weaken_error hstopped) fun domain => ?_
      refine Meets.bind (hbooks (fun journal =>
        { journal with domain := String.ofList domain }) fun _ => rfl) fun _ => ?_
      refine Meets.bind (fresh_dns.weaken_error hstopped) fun found => ?_
      split
      next => exact fresh_setUp kind _ _
      next => exact Meets.pure hended

/-- **A run that is no dry run** has told what became of everything it asked the machine to
do, and leaves every change accounted for exactly when none of it failed once something was
written. -/
theorem proxy_accounted_iff {options : Options} (hundo : options.undo = false)
    (hdry : options.dryRun = false) {host : Host} (hnone : host.standing = [])
    (hstart : host.exchanges = []) :
    FacedBy (run options host).2.exchanges host (run options host).2 ∧
      (Accounted (run options host).2 ↔
        goesWell false (run options host).2.exchanges = true) := by
  refine ⟨?_, ?_⟩
  · obtain ⟨told, h⟩ := run_faces hundo host
    have htold : (run options host).2.exchanges = told := by
      rw [h.exchanges, hstart, List.nil_append]
    rw [htold]
    exact h
  have hwell : goesWell false host.exchanges = true := by
    rw [hstart]
    rfl
  unfold run
  rw [bind_ok (get_run host), hundo, if_neg (by decide)]
  split
  next => exact iff_of_true (accounted_of_none hnone) hwell
  split
  next => exact iff_of_true (accounted_of_none hnone) hwell
  next hsaved =>
    have hunsaved : host.saved = none := by simpa using hsaved
    cases hend : wizard options host with
    | mk result host' =>
        cases result with
        | ok n => exact (fresh_wizard options hdry).ok ⟨hunsaved, hnone, hstart⟩ hend
        | error e => exact (fresh_wizard options hdry).error ⟨hunsaved, hnone, hstart⟩ hend

/-- nginx and certbot are installed, the name resolves to this address, and every question is
answered with its default. -/
def readyHost : Host where
  disk :=
    { files := fun path =>
        if path = "/etc/breeze-core/breeze-core.env" then some "BREEZE_HOST=192.168.1.10\n"
        else none
      isDir := fun dir => dir = "/run/systemd/system"
      onPath := fun bin => bin = "certbot" }
  installed := fun kind => kind = .nginx
  publicIp := some (.v4 ⟨203, 0, 113, 9⟩)
  lookups := [[.v4 ⟨203, 0, 113, 9⟩]]

/-- The server and the name are given. -/
def withNginx : Options where
  server := some "nginx".toList
  domain := some "breeze.example.com".toList

/-- Nginx is set up, and the settings of the service are changed. -/
theorem proxy_accounted_ready :
    (run withNginx readyHost).2.standing =
        [.created "/etc/nginx/conf.d/breeze-core.conf",
          .replaced "/etc/breeze-core/breeze-core.env"
            "/etc/breeze-core/breeze-core.env.before-breeze-proxy"] ∧
      Accounted (run withNginx readyHost).2 :=
  ⟨by decide +kernel, (proxy_accounted_iff rfl rfl rfl rfl).2.mpr (by decide +kernel)⟩

/-- The configuration is written and is right, and the service cannot be enabled: the file
stays, and no journal has it. -/
theorem unrecorded_configuration :
    let host := (run withNginx { readyHost with
      commands := [.exited true "exit status: 0", .exited false "exit status: 1"] }).2
    host.standing = [.created "/etc/nginx/conf.d/breeze-core.conf"] ∧
      host.saved.isNone = true ∧ ¬ Accounted host := by
  have hstanding : (run withNginx { readyHost with
      commands := [.exited true "exit status: 0", .exited false "exit status: 1"] }).2.standing =
        [.created "/etc/nginx/conf.d/breeze-core.conf"] := by decide +kernel
  have hsaved : (run withNginx { readyHost with
      commands := [.exited true "exit status: 0",
        .exited false "exit status: 1"] }).2.saved.isNone = true := by decide +kernel
  refine ⟨hstanding, hsaved, ?_⟩
  intro h
  obtain ⟨journal, hjournal, -⟩ := h _ (by rw [hstanding]; exact List.mem_singleton_self _)
  rw [hjournal] at hsaved
  cases hsaved

end BreezeCli
