import BreezeCore.Cli.Proxy
import Mathlib.Data.List.GetD

/-!
# What the machine was asked to do

The fates of the file operations, of the commands and of the questions are listed in
advance.  `Faced` says that what a stretch of a run has told of them is what was listed,
each used once and in order, and that the rest is still to come.

* `run_faces` — so it is for every run of the wizard.
-/

namespace BreezeCli

open Actions

/-- The fate of a file operation, as the host lists it. -/
def Exchange.io? : Exchange → Option IoFate
  | .file _ _ fate => some fate
  | _ => none

/-- The fate of a command, as the host lists it. -/
def Exchange.command? : Exchange → Option CommandFate
  | .ran _ fate => some fate
  | _ => none

/-- The line that was typed, as the host lists it. -/
def Exchange.typed? : Exchange → Option Typed
  | .typed t => some t
  | _ => none

/-- What was told between two states of the machine is what was listed for it.  A list that
has run out goes on with successes. -/
structure FacedBy (told : List Exchange) (host host' : Host) : Prop where
  exchanges : host'.exchanges = host.exchanges ++ told
  io : ∀ i, (told.filterMap Exchange.io? ++ host'.io).getD i .done = host.io.getD i .done
  commands : ∀ i, (told.filterMap Exchange.command? ++ host'.commands).getD i succeeds =
    host.commands.getD i succeeds
  answers : told.filterMap Exchange.typed? ++ host'.answers = host.answers

/-- Some account of what the machine did fits what the host had listed, and what it has left. -/
def Faced (host host' : Host) : Prop := ∃ told, FacedBy told host host'

variable {α β : Type} {host host' host'' : Host}

/-- What leaves the lists alone. -/
theorem Faced.quiet (hexchanges : host'.exchanges = host.exchanges) (hio : host'.io = host.io)
    (hcommands : host'.commands = host.commands) (hanswers : host'.answers = host.answers) :
    Faced host host' := by
  refine ⟨[], ?_, ?_, ?_, ?_⟩
  · rw [hexchanges, List.append_nil]
  · intro i
    rw [← hio]
    rfl
  · intro i
    rw [← hcommands]
    rfl
  · exact hanswers

/-- A list that begins with what was used, and goes on alike. -/
theorem getD_append_congr {γ : Type} {used rest rest' : List γ} {d : γ}
    (h : ∀ i, rest.getD i d = rest'.getD i d) (i : ℕ) :
    (used ++ rest).getD i d = (used ++ rest').getD i d := by
  rcases Nat.lt_or_ge i used.length with hi | hi
  · rw [List.getD_append _ _ _ _ hi, List.getD_append _ _ _ _ hi]
  · rw [List.getD_append_right _ _ _ _ hi, List.getD_append_right _ _ _ _ hi]
    exact h _

/-- Two stretches of a run, each faced, are faced together: the fates the first used up stand in
front of those the second did. -/
theorem Faced.trans (h : Faced host host') (h' : Faced host' host'') : Faced host host'' := by
  obtain ⟨told, h⟩ := h
  obtain ⟨told', h'⟩ := h'
  refine ⟨told ++ told', ?_, ?_, ?_, ?_⟩
  · rw [h'.exchanges, h.exchanges, List.append_assoc]
  · intro i
    rw [List.filterMap_append, List.append_assoc, getD_append_congr h'.io]
    exact h.io i
  · intro i
    rw [List.filterMap_append, List.append_assoc, getD_append_congr h'.commands]
    exact h.commands i
  · rw [List.filterMap_append, List.append_assoc, h'.answers, h.answers]

/-! ## Actions -/

/-- An action faces what is listed, however it ends. -/
def Faces (x : Wizard α) : Prop := ∀ host, Faced host (x host).2

/-- Nothing is asked, and nothing used up. -/
theorem Faces.pure {a : α} : Faces (pure a : Wizard α) := fun _ => Faced.quiet rfl rfl rfl rfl

/-- Stopping asks nothing either. -/
theorem Faces.stop {e : String} : Faces (stop e : Wizard α) := fun _ => Faced.quiet rfl rfl rfl rfl

/-- Looking at the state is no exchange. -/
theorem Faces.get_bind {f : Host → Wizard α} (hf : ∀ host, Faces (f host)) :
    Faces (get >>= f) := fun host => hf host host

/-- One part after the other: the first may stop, and then the second has no part in it. -/
theorem Faces.bind {x : Wizard α} {f : α → Wizard β} (hx : Faces x) (hf : ∀ a, Faces (f a)) :
    Faces (x >>= f) := by
  intro host
  have hfirst := hx host
  cases hend : x host with
  | mk result host' =>
      rw [hend] at hfirst
      cases result with
      | ok a =>
          rw [bind_ok hend]
          exact hfirst.trans (hf a host')
      | error e =>
          rw [bind_error hend]
          exact hfirst

/-- A change to the state that leaves the lists alone. -/
theorem Faces.modify {f : Host → Host} (hf : ∀ host, Faced host (f host)) :
    Faces (modify f : Wizard Unit) := hf

/-- A loop, by induction on what it goes through. -/
theorem Faces.forM {γ : Type} {f : γ → Wizard PUnit} (h : ∀ x, Faces (f x)) (xs : List γ) :
    Faces (xs.forM f) := by
  induction xs with
  | nil => exact Faces.pure
  | cons x rest ih => exact Faces.bind (h x) fun _ => ih

/-- The head of a list, or what comes after its end, and then its tail. -/
theorem getD_headD_tail {γ : Type} (l : List γ) (d : γ) (i : ℕ) :
    (l.headD d :: l.tail).getD i d = l.getD i d := by
  cases l with
  | nil => cases i <;> simp
  | cons a rest => rfl

/-- The next file operation takes the first fate of its list. -/
theorem faces_nextIo (op : FileOp) (path : String) : Faces (nextIo op path) := fun host =>
  ⟨[.file op path (host.io.headD .done)], rfl, getD_headD_tail _ _, fun _ => rfl, rfl⟩

/-- The next command takes the first fate of its own. -/
theorem faces_nextCommand (command : List String) : Faces (nextCommand command) := fun host =>
  ⟨[.ran command (host.commands.headD succeeds)], rfl, fun _ => rfl, getD_headD_tail _ _, rfl⟩

/-- A conversation reads some lines and leaves the rest. It spends no fate of an operation and
runs no command, so that only the host's answers are shorter afterwards. -/
theorem faces_converse {talk : List Typed → Except String α × List Typed}
    (hrest : ∀ answers, (talk answers).2 <:+ answers) : Faces (converse talk) := by
  intro host
  obtain ⟨used, hused⟩ := hrest host.answers
  have hheard : Faced host (host.hear (talk host.answers).2) := by
    rw [Host.hear_append hused.symm]
    have hlines : (used.map Exchange.typed).filterMap Exchange.typed? = used := by
      rw [List.filterMap_map]
      exact List.filterMap_some
    have hnone : ∀ {γ : Type} (f : Exchange → Option γ), (∀ t, f (.typed t) = none) →
        (used.map Exchange.typed).filterMap f = [] := by
      intro γ f hf
      rw [List.filterMap_map]
      simp [hf]
    refine ⟨used.map .typed, rfl, ?_, ?_, ?_⟩
    · rw [hnone Exchange.io? fun _ => rfl]
      exact fun _ => rfl
    · rw [hnone Exchange.command? fun _ => rfl]
      exact fun _ => rfl
    · rw [hlines]
      exact hused
  unfold converse
  rw [bind_ok (get_run host), bind_ok (modify_run _ host)]
  cases (talk host.answers).1 with
  | ok a => exact hheard
  | error e => exact hheard

/-- Whoever reads until a line is accepted leaves the rest of the lines. -/
theorem readUntil_rest {accept : Text.Str → Option α} {atEnd : Except String α}
    (answers : List Typed) : (readUntil accept atEnd answers).2 <:+ answers := by
  induction answers with
  | nil => exact List.suffix_rfl
  | cons t rest ih =>
      cases t with
      | eof => exact List.suffix_cons _ _
      | failed e => exact List.suffix_cons _ _
      | line text =>
          unfold readUntil
          split
          next => exact List.suffix_cons _ _
          next => exact ih.trans (List.suffix_cons _ _)

/-- So does the check of the name, which may ask to look it up again. By induction on the answers,
as each question takes one line. -/
theorem dnsFrom_rest {address : Option Net.IpAddr} (answers : List Typed)
    (lookups : List (List Net.IpAddr)) : (dnsFrom address answers lookups).2 <:+ answers := by
  induction answers generalizing lookups with
  | nil =>
      unfold dnsFrom
      split
      next => exact List.suffix_rfl
      next => exact List.suffix_rfl
  | cons t rest ih =>
      unfold dnsFrom
      split
      next => exact List.suffix_rfl
      next =>
        cases t with
        | eof => exact List.suffix_cons _ _
        | failed e => exact List.suffix_cons _ _
        | line text =>
            dsimp only
            split
            next => exact (ih _).trans (List.suffix_cons _ _)
            next => exact List.suffix_cons _ _

/-! ## The wizard -/

/-- A question with a default is one of these. -/
theorem faces_yesNo (default : Bool) : Faces (yesNo default) := faces_converse readUntil_rest

/-- A text is put on the disk: one operation, and then a note of it that changes nothing the fates
are read off. -/
theorem faces_put {path text : String} {note : Host → Host} {report : String → String}
    (hnote : ∀ host, Faced host (note host)) : Faces (put path text note report) := by
  unfold put
  refine Faces.bind (faces_nextIo _ _) fun fate => ?_
  have hput : ∀ content, Faces (modify fun host => note (host.put path content)) := by
    intro content host
    have hfiles : Faced host (host.put path content) := Faced.quiet rfl rfl rfl rfl
    exact hfiles.trans (hnote _)
  cases fate with
  | done => exact hput _
  | failed e left =>
      cases left with
      | none => exact Faces.stop
      | some left => exact Faces.bind (hput _) fun _ => Faces.stop

/-- A file is copied: one operation, in the same way. -/
theorem faces_copy {source target : String} {note : Host → Host} {report : String → String}
    (hnote : ∀ host, Faced host (note host)) : Faces (copy source target note report) := by
  refine Faces.get_bind fun host => ?_
  split
  next => exact Faces.stop
  next => exact faces_put hnote

/-- A file is removed: one operation, or none where there is no such file. -/
theorem faces_remove {path : String} {report : String → String} : Faces (remove path report) := by
  refine Faces.bind (faces_nextIo _ _) fun fate => ?_
  cases fate with
  | done => exact Faces.modify fun _ => Faced.quiet rfl rfl rfl rfl
  | failed e left => exact Faces.stop

/-- The directory is made: one operation. -/
theorem faces_createParent (path : String) : Faces (createParent path) := by
  refine Faces.bind (faces_nextIo _ _) fun fate => ?_
  cases fate with
  | done => exact Faces.pure
  | failed e left => exact Faces.stop

/-- No note at all. -/
theorem faced_id (host : Host) : Faced host (id host) := Faced.quiet rfl rfl rfl rfl

/-- Noting that a change stands is bookkeeping. -/
theorem faced_stand (step : Step) (host : Host) : Faced host (host.stand step) :=
  Faced.quiet rfl rfl rfl rfl

/-- Noting a step in the journal asks the machine nothing. -/
theorem faced_record (step : Step) (host : Host) : Faced host (host.record step) :=
  Faced.quiet rfl rfl rfl rfl

/-- Writing a file is up to three operations: the directory, the copy that is kept, and the
text. -/
theorem faces_writeFile (path text : String) : Faces (writeFile path text) := by
  refine Faces.get_bind fun host => ?_
  dsimp only
  split
  next => exact Faces.pure
  split
  next =>
    refine Faces.bind (faces_copy (faced_stand _)) fun _ => ?_
    refine Faces.bind (Faces.modify (faced_record _)) fun _ => ?_
    exact Faces.bind (faces_createParent _) fun _ => faces_put faced_id
  next =>
    refine Faces.bind (Faces.modify (faced_record _)) fun _ => ?_
    exact Faces.bind (faces_createParent _) fun _ => faces_put (faced_stand _)

/-- A command is one exchange, whether or not it has to succeed; a dry run has none. -/
theorem faces_runCmd (command : List String) (required : Bool) :
    Faces (runCmd command required) := by
  refine Faces.get_bind fun host => ?_
  split
  next => exact Faces.pure
  next =>
    refine Faces.bind (faces_nextCommand _) fun fate => ?_
    cases fate with
    | notStarted e => exact Faces.stop
    | exited success status =>
        dsimp only
        split
        next => exact Faces.stop
        next => exact Faces.pure

/-- Saving the journal is writing a file. -/
theorem faces_saveJournal : Faces saveJournal := by
  refine Faces.get_bind fun host => ?_
  split
  next => exact Faces.pure
  next =>
    refine Faces.bind (faces_nextIo _ _) fun fate => ?_
    cases fate with
    | done => exact Faces.modify fun _ => Faced.quiet rfl rfl rfl rfl
    | failed e left =>
        cases left with
        | none => exact Faces.stop
        | some left =>
            exact Faces.bind (Faces.modify fun _ => Faced.quiet rfl rfl rfl rfl) fun _ => Faces.stop

/-- Noting that a change was taken back is bookkeeping. -/
theorem faces_settle (step : Step) : Faces (modify (Host.settle step)) :=
  Faces.modify fun _ => Faced.quiet rfl rfl rfl rfl

/-- Reversing a step is file operations or a command, as the step has it. In a dry run nothing is
taken back, and a command that fails leaves its step standing. -/
theorem faces_reverse (step : Step) : Faces (reverse step) := by
  refine Faces.get_bind fun host => ?_
  cases step with
  | created path =>
      dsimp only
      split
      next => exact Faces.pure
      next => exact Faces.bind faces_remove fun _ => faces_settle _
  | replaced path backup =>
      dsimp only
      split
      next => exact Faces.pure
      next =>
        refine Faces.bind (faces_copy faced_id) fun _ => ?_
        exact Faces.bind faces_remove fun _ => faces_settle _
  | ran command undo =>
      refine Faces.bind (faces_runCmd _ _) fun ok => ?_
      split
      next => exact faces_settle _
      next => exact Faces.pure

/-- All the steps are reversed, the last one first. -/
theorem faces_rollback : Faces rollback :=
  Faces.get_bind fun _ => Faces.bind (Faces.modify fun _ => Faced.quiet rfl rfl rfl rfl) fun _ =>
    Faces.forM faces_reverse _

/-- Installing packages is one command. -/
theorem faces_install (command : List String) : Faces (install command) := by
  refine Faces.bind (faces_runCmd _ _) fun _ => Faces.modify fun host => ?_
  split
  next => exact Faced.quiet rfl rfl rfl rfl
  next => exact Faced.quiet rfl rfl rfl rfl

/-- Refusing a server that is not supported asks nothing. -/
theorem faces_supported (kind : Kind) : Faces (supported kind) := by
  refine Faces.get_bind fun host => ?_
  split
  next => exact Faces.pure
  next => exact Faces.pure

/-- Which server is to be set up is asked at the terminal, unless it was named or only one is
there. -/
theorem faces_chooseServer (asked : Option Text.Str) : Faces (chooseServer asked) := by
  refine Faces.get_bind fun host => ?_
  split
  next =>
    split
    next => exact faces_supported _
    next => exact Faces.stop
  next => exact faces_supported _
  next =>
    refine Faces.bind (faces_converse readUntil_rest) fun kind => ?_
    split
    next => exact Faces.pure
    split
    next => exact Faces.pure
    refine Faces.bind (faces_yesNo true) fun yes => ?_
    split
    next => exact Faces.bind (faces_install _) fun _ => faces_supported _
    next => exact Faces.pure
  next => exact Faces.bind (faces_converse readUntil_rest) fun kind => faces_supported _

/-- The name is asked for until one is valid, one line each time. -/
theorem faces_askDomain (asked : Option Text.Str) : Faces (askDomain asked) := by
  unfold askDomain
  split
  next =>
    split
    next => exact Faces.pure
    next => exact Faces.stop
  next => exact faces_converse readUntil_rest

/-- And whether to go on with a name that does not resolve here. -/
theorem faces_dns : Faces dns := by
  refine Faces.get_bind fun host => Faces.bind (faces_yesNo true) fun yes => ?_
  split
  next => exact faces_converse fun answers => dnsFrom_rest answers _
  next => exact faces_converse fun answers => dnsFrom_rest answers _

/-- The server's own check of its configuration is a command. -/
theorem faces_validate (kind : Kind) : Faces (validate kind) :=
  Faces.get_bind fun _ => faces_runCmd _ _

/-- One command, and another where it did not succeed. -/
theorem faces_runOr (command other : List String) : Faces (runOr command other) := by
  refine Faces.bind (faces_runCmd _ _) fun ok => ?_
  split
  next => exact Faces.pure
  next => exact Faces.bind (faces_runCmd _ _) fun _ => Faces.pure

/-- Reloading is such a pair, or one command, by the kind of the server. -/
theorem faces_reload (kind : Kind) : Faces (reload kind) := by
  refine Faces.get_bind fun host => ?_
  dsimp only
  split
  next =>
    exact Faces.bind (faces_runCmd _ _) fun _ => Faces.bind (faces_runCmd _ _) fun _ => Faces.pure
  split
  next => exact Faces.bind (faces_runCmd _ _) fun _ => faces_runOr _ _
  next => cases kind <;> exact faces_runOr _ _

/-- Restarting the service is a command, if the service is there. -/
theorem faces_restartBreeze : Faces restartBreeze := by
  refine Faces.get_bind fun host => ?_
  split
  next => exact Faces.bind (faces_runCmd _ _) fun _ => Faces.pure
  split
  next => exact Faces.bind (faces_runCmd _ _) fun _ => Faces.pure
  next => exact Faces.pure

/-- Switching a site or a module on is a command. -/
theorem faces_enable (command : List String) : Faces (enable command) := by
  unfold enable
  dsimp only
  generalize (if command.head? = some "a2ensite" then _ else _) = undo
  refine Faces.bind (faces_runCmd _ _) fun _ => ?_
  split
  next => exact Faces.pure
  next => exact Faces.modify fun _ => (faced_stand _ _).trans (faced_record _ _)

/-- The configuration of the server is written, checked and loaded, or taken back. -/
theorem faces_configure (kind : Kind) (domain port : String) :
    Faces (configure kind domain port) := by
  refine Faces.get_bind fun host => ?_
  dsimp only
  split
  next => exact Faces.stop
  refine Faces.bind (faces_yesNo true) fun yes => ?_
  split
  next =>
    refine Faces.bind (faces_writeFile _ _) fun _ => ?_
    refine Faces.bind (Faces.forM faces_enable _) fun _ => ?_
    refine Faces.bind (faces_validate kind) fun valid => ?_
    split
    next => exact Faces.bind (faces_reload kind) fun _ => Faces.pure
    next => exact Faces.bind faces_rollback fun _ => Faces.pure
  next => exact Faces.pure

/-- What certbot left behind is looked for and noted. -/
theorem faces_recordCertbot (leSsl : Option String) : Faces (recordCertbot leSsl) := by
  unfold recordCertbot
  cases leSsl with
  | none => exact Faces.pure
  | some path =>
      refine Faces.modify fun host => ?_
      split
      next => exact Faced.quiet rfl rfl rfl rfl
      next =>
        dsimp only
        split
        next => exact Faced.quiet rfl rfl rfl rfl
        next => exact Faced.quiet rfl rfl rfl rfl

/-- Certbot is a command like the others, installed first where it is missing. -/
theorem faces_startCertbot (kind : Kind) (domain : String) : Faces (startCertbot kind domain) := by
  refine Faces.bind (faces_yesNo true) fun yes => ?_
  split
  next =>
    refine Faces.get_bind fun host => Faces.bind (faces_runCmd _ _) fun ok => ?_
    refine Faces.bind (Faces.modify fun host => ?_) fun _ =>
      Faces.bind (faces_recordCertbot _) fun _ => Faces.pure
    split
    next => exact Faced.quiet rfl rfl rfl rfl
    next => exact Faced.quiet rfl rfl rfl rfl
  next => exact Faces.pure

/-- The certificate, if it is wanted. -/
theorem faces_certificate (kind : Kind) (domain : String) : Faces (certificate kind domain) := by
  refine Faces.get_bind fun host => ?_
  split
  next => exact Faces.pure
  split
  next => exact faces_startCertbot _ _
  split
  next => exact Faces.pure
  refine Faces.bind (faces_yesNo true) fun yes => ?_
  split
  next => exact Faces.bind (faces_install _) fun _ => faces_startCertbot _ _
  next => exact Faces.pure

/-- The settings of the service, if it may be restarted. -/
theorem faces_behindProxy (env : Text.Str) : Faces (behindProxy env) := by
  refine Faces.get_bind fun host => Faces.bind (faces_yesNo true) fun onlyProxy => ?_
  refine Faces.bind (faces_yesNo true) fun yes => ?_
  split
  next => exact Faces.bind (faces_writeFile _ _) fun _ => faces_restartBreeze
  next => exact Faces.pure

/-- These parts in their order, with the journal saved behind them. -/
theorem faces_setUp (kind : Kind) (domain : String) (env : Text.Str) :
    Faces (setUp kind domain env) := by
  refine Faces.bind (faces_configure _ _ _) fun loaded => ?_
  cases loaded with
  | none => exact Faces.bind faces_saveJournal fun _ => Faces.pure
  | some =>
      refine Faces.bind (faces_certificate _ _) fun _ => ?_
      refine Faces.bind (faces_behindProxy _) fun _ => ?_
      exact Faces.bind faces_saveJournal fun _ => Faces.pure

/-- The whole wizard, from the choice of the server on. -/
theorem faces_wizard (options : Options) : Faces (wizard options) := by
  refine Faces.bind (Faces.modify fun _ => Faced.quiet rfl rfl rfl rfl) fun _ => ?_
  refine Faces.get_bind fun host => Faces.bind (faces_chooseServer _) fun chosen => ?_
  cases chosen with
  | none => exact Faces.pure
  | some kind =>
      refine Faces.bind (Faces.modify fun _ => Faced.quiet rfl rfl rfl rfl) fun _ => ?_
      refine Faces.bind (faces_askDomain _) fun domain => ?_
      refine Faces.bind (Faces.modify fun _ => Faced.quiet rfl rfl rfl rfl) fun _ => ?_
      refine Faces.bind faces_dns fun found => ?_
      split
      next => exact faces_setUp _ _ _
      next => exact Faces.pure

/-- **A run** faces what is listed. -/
theorem run_faces {options : Options} (hundo : options.undo = false) (host : Host) :
    Faced host (run options host).2 := by
  unfold run
  rw [bind_ok (get_run host), hundo, if_neg (by decide)]
  split
  next => exact Faces.stop host
  split
  next => exact Faces.pure host
  next => exact faces_wizard options host

end BreezeCli
