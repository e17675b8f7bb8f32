import BreezeCore.Lib.Runs
import BreezeCore.Store.Timers

/-!
# The timer routes and the thread that fires timers

`create` and `cancel` edit the document under its lock.  A pass of the runner
takes a snapshot of what is due and lets go of the lock; then it takes up one
timer after the other and sends to its units one at a time, and in the end it
removes everything in the snapshot.  `step` has one case for each section between
which requests can come in.

Saving the timer store works or fails with a message; which of the two is an
argument, as are random draws and the clock.
-/

namespace BreezeHttp.TimerRoutes

open Bytes Text BreezeStore

/-- What a client asks for. -/
structure TimerRequest where
  unitIds : List Str := []
  /-- A sleep timer: this many minutes from now. -/
  minutes : Option Nat := none
  /-- A scheduled start: this many days from the server's today. -/
  days : Option Nat := none
  /-- At this `HH:MM` on the server's clock. -/
  at_ : Option Str := none
  settings : Option ControlRequest := none
  label : Str := []
  deriving DecidableEq, Repr

/-- What a request asks for, once it is known to ask for exactly one thing. -/
inductive When where
  | after (minutes : Nat)
  | at_ (days : Nat) (time : Str)
  deriving DecidableEq, Repr

/-- When it is to be, one way or the other. Either in so many minutes, or at a time of a day;
settings go with the first only, and days with the second. -/
def TimerRequest.when (r : TimerRequest) : Except String When :=
  match r.minutes, r.at_ with
  | some _, some _ => .error "give minutes or at, not both"
  | none, none =>
      if r.days.isSome then .error "days needs at (an HH:MM)"
      else .error "say when: minutes, or at (with days)"
  | some m, none =>
      if r.days.isSome then .error "days goes with at, not with minutes" else .ok (.after m)
  | none, some time =>
      if r.settings.isSome then
        .error "a scheduled start only switches the unit on; settings are for sleep timers"
      else .ok (.at_ (r.days.getD 0) time)

/-- What a reply has in it. -/
inductive Content where
  | detail (message : String)
  /-- A timer with the seconds it has left. -/
  | timer (t : Timer) (secondsRemaining : Int)
  | empty
  deriving DecidableEq, Repr

/-- A reply of a timer route. -/
structure Reply where
  status : Nat
  content : Content
  deriving DecidableEq, Repr

/-- A reply that only tells what is wrong. -/
def Reply.detail (status : Nat) (message : String) : Reply := ⟨status, .detail message⟩

/-- The store could not be written. -/
def cannotWriteTimers (e : String) : Reply :=
  .detail 500 ("cannot write the timer store: " ++ e)

/-- How the runner is doing. -/
structure RunnerStats where
  runs : Nat := 0
  fired : Nat := 0
  errors : Nat := 0
  lastRun : Option Str := none
  deriving DecidableEq, Repr

/-- A pass of the runner: when it began, what was due then, which of that it has
still to take up, and the timer it is applying with the units still to come. -/
structure Pass where
  now : LocalTime
  due : List Timer
  rest : List Timer
  sending : Option (Timer × List Nat) := none
  fired : Nat := 0
  errors : Nat := 0
  deriving DecidableEq, Repr

/-- What the timer routes and the runner use. -/
structure TimerState where
  timers : TimersDoc := {}
  /-- The configured units, in order. -/
  units : List Nat := []
  runner : RunnerStats := {}
  pass : Option Pass := none
  deriving DecidableEq, Repr

/-- A unit id as a number: `parse::<u64>()`. -/
def unitNumber (id : Str) : Option Nat := fromStrRadix 10 (2 ^ 64) id

/-- The units the runner sends a timer to. -/
def targets (units : List Nat) (t : Timer) : List Nat :=
  if t.unitIds = [] then units else t.unitIds.filterMap unitNumber

/-- The ids that name no configured unit. -/
def unknownUnits (units : List Nat) (unitIds : List Str) : List Str :=
  unitIds.filter fun id =>
    match unitNumber id with
    | some n => ! units.contains n
    | none => true

/-- Without unknown ids, every id is the number of a configured unit. -/
theorem unknownUnits_eq_nil {units : List Nat} {unitIds : List Str}
    (h : unknownUnits units unitIds = []) {id : Str} (hid : id ∈ unitIds) :
    ∃ n ∈ units, unitNumber id = some n := by
  have hknown := List.filter_eq_nil_iff.mp h id hid
  split at hknown
  next n hn =>
    refine ⟨n, ?_, hn⟩
    simpa using hknown
  next => exact absurd rfl hknown

variable (clock : Clock) (toUppercase : String → String)

/-- Everything `create` does before it takes the store: the timer a request asks
for, or the reply that refuses it. -/
def requestedTimer (units : List Nat) (body : Except String TimerRequest) (idDraw : Option (Arr 6))
    (now : LocalTime) : Except Reply Timer :=
  match body with
  | .error e => .error (.detail 422 ("invalid timer request: " ++ e))
  | .ok request =>
      match request.when with
      | .error e => .error (.detail 422 e)
      | .ok asked =>
          match request.settings.map (ControlRequest.validate toUppercase) with
          | some (.error e) => .error (.detail 422 e.message)
          | _ =>
              let unknown := unknownUnits units request.unitIds
              if unknown ≠ [] then
                .error (.detail 404 ("unknown unit(s): " ++
                  String.intercalate ", " (unknown.map String.ofList)))
              else
                match idDraw with
                | none => .error (.detail 500 "no entropy available")
                | some raw =>
                    let id := hexLower raw.1
                    match (match asked with
                      | .after minutes =>
                          buildTimer clock id request.unitIds minutes request.settings
                            request.label now
                      | .at_ days time =>
                          buildStartTimer clock id request.unitIds days time request.label now) with
                    | .error e => .error (.detail 422 (e.message clock))
                    | .ok timer => .ok timer

/-- `POST /api/timers`. The timers of the same kind that name one of its units go, and the new one
is the last of the list. -/
def create (state : TimerState) (body : Except String TimerRequest) (idDraw : Option (Arr 6))
    (now : LocalTime) (saved : Except String Unit) : Reply × TimerState :=
  match requestedTimer clock toUppercase state.units body idDraw now with
  | .error reply => (reply, state)
  | .ok timer =>
      let (_, kept) := state.timers.replaceForUnits timer.unitIds timer.kind
      let timers : TimersDoc := { timers := kept.timers ++ [timer] }
      match saved with
      | .error e =>
          -- The new timer goes, what it displaced does not come back.
          (cannotWriteTimers e, { state with timers := (timers.remove timer.id).2 })
      | .ok () =>
          (⟨201, .timer timer (timer.secondsRemaining clock now)⟩, { state with timers := timers })

/-- `DELETE /api/timers/{id}`. -/
def cancel (state : TimerState) (timerId : Str) (saved : Except String Unit) :
    Reply × TimerState :=
  let (removed, timers) := state.timers.remove timerId
  let state := { state with timers := timers }
  if ¬ removed then (.detail 404 "no such timer", state)
  else
    match saved with
    | .error e => (cannotWriteTimers e, state)
    | .ok () => (⟨204, .empty⟩, state)

/-! ## The runner -/

/-- Begin a pass. -/
def snapshot (state : TimerState) (now : LocalTime) : TimerState :=
  let due := state.timers.due clock now
  { state with pass := some { now := now, due := due, rest := due } }

/-- Take up the next timer of the snapshot.  One that was missed is skipped. -/
def Pass.takeUp (pass : Pass) (units : List Nat) : Pass :=
  match pass.rest with
  | [] => pass
  | timer :: rest =>
      if timer.missed clock pass.now then { pass with rest := rest }
      else { pass with rest := rest, sending := some (timer, targets units timer) }

/-- Count what came of a send. -/
def Pass.count (pass : Pass) (outcome : Except String Unit) : Pass :=
  match outcome with
  | .ok () => { pass with fired := pass.fired + 1 }
  | .error _ => { pass with errors := pass.errors + 1 }

/-- Remove these timers, one by one. -/
def forget (due : List Timer) (doc : TimersDoc) : TimersDoc :=
  due.foldl (fun doc timer => (doc.remove timer.id).2) doc

/-- Forget whatever was due, in one write, and close the books. A write that fails is counted, and
the timers are forgotten in memory all the same. -/
def finish (state : TimerState) (pass : Pass) (saved : Except String Unit) : TimerState :=
  let failed := if pass.due = [] then 0 else match saved with
    | .ok () => 0
    | .error _ => 1
  { state with
    timers := forget pass.due state.timers
    pass := none
    runner :=
      { runs := state.runner.runs + 1
        fired := state.runner.fired + pass.fired
        errors := state.runner.errors + pass.errors + failed
        lastRun := some (clock.formatLocal pass.now) } }

/-! ## Runs -/

/-- The sections of the requests and of the runner. -/
inductive Op where
  | create (body : Except String TimerRequest) (idDraw : Option (Arr 6)) (now : LocalTime)
      (saved : Except String Unit)
  | cancel (timerId : Str) (saved : Except String Unit)
  | snapshot (now : LocalTime)
  | takeUp
  | send (outcome : Except String Unit)
  | finish (saved : Except String Unit)
  /-- Units come and go. -/
  | configure (units : List Nat)

/-- What can be seen of a section. -/
inductive Answer where
  | reply (r : Reply)
  /-- The runner sends a timer to a unit. -/
  | applied (timer : Timer) (unit : Nat)
  /-- The runner takes up a timer. -/
  | took (timer : Timer)
  | silent
  deriving DecidableEq, Repr

/-- One section.  The runner's sections do nothing when it is not their turn. -/
def step (state : TimerState) : Op → Answer × TimerState
  | .create body idDraw now saved =>
      let (reply, state) := create clock toUppercase state body idDraw now saved
      (.reply reply, state)
  | .cancel timerId saved =>
      let (reply, state) := cancel state timerId saved
      (.reply reply, state)
  | .snapshot now =>
      match state.pass with
      | none => (.silent, snapshot clock state now)
      | some _ => (.silent, state)
  | .takeUp =>
      match state.pass with
      | some ⟨now, due, timer :: rest, none, fired, errors⟩ =>
          let pass : Pass := ⟨now, due, timer :: rest, none, fired, errors⟩
          (if timer.missed clock now then .silent else .took timer,
            { state with pass := some (pass.takeUp clock state.units) })
      | _ => (.silent, state)
  | .send outcome =>
      match state.pass with
      | some ⟨now, due, rest, some (timer, unit :: units), fired, errors⟩ =>
          let pass : Pass := ⟨now, due, rest, some (timer, units), fired, errors⟩
          (.applied timer unit, { state with pass := some (pass.count outcome) })
      | some ⟨now, due, rest, some (_, []), fired, errors⟩ =>
          (.silent, { state with pass := some ⟨now, due, rest, none, fired, errors⟩ })
      | _ => (.silent, state)
  | .finish saved =>
      match state.pass with
      | some ⟨now, due, [], none, fired, errors⟩ =>
          (.silent, finish clock state ⟨now, due, [], none, fired, errors⟩ saved)
      | _ => (.silent, state)
  | .configure units => (.silent, { state with units := units })

/-- A request for a timer, as a step. -/
theorem step_create (state : TimerState) (body : Except String TimerRequest)
    (idDraw : Option (Arr 6)) (now : LocalTime) (saved : Except String Unit) :
    step clock toUppercase state (.create body idDraw now saved) =
      (.reply (create clock toUppercase state body idDraw now saved).1,
        (create clock toUppercase state body idDraw now saved).2) := rfl

/-- A request to cancel one, as a step. -/
theorem step_cancel (state : TimerState) (timerId : Str) (saved : Except String Unit) :
    step clock toUppercase state (.cancel timerId saved) =
      (.reply (cancel state timerId saved).1, (cancel state timerId saved).2) := rfl

/-- The id a creation draws. -/
def Op.drawnId : Op → Option Str
  | .create _ idDraw _ _ => idDraw.map fun raw => hexLower raw.1
  | _ => none

/-! ## What the sections do -/

variable {clock toUppercase}

/-- A request is refused in words. Every check has its own, and none of them answers with a body
of another kind. -/
theorem requestedTimer_error {units : List Nat} {body : Except String TimerRequest}
    {idDraw : Option (Arr 6)} {now : LocalTime} {reply : Reply}
    (h : requestedTimer clock toUppercase units body idDraw now = .error reply) :
    ∃ status message, reply = .detail status message := by
  unfold requestedTimer at h
  split at h
  next => exact ⟨_, _, (Except.error.inj h).symm⟩
  next =>
    split at h
    next => exact ⟨_, _, (Except.error.inj h).symm⟩
    next =>
      split at h
      next => exact ⟨_, _, (Except.error.inj h).symm⟩
      next =>
        dsimp only at h
        split at h
        next => exact ⟨_, _, (Except.error.inj h).symm⟩
        next =>
          split at h
          next => exact ⟨_, _, (Except.error.inj h).symm⟩
          next =>
            split at h
            next => exact ⟨_, _, (Except.error.inj h).symm⟩
            next => cases h

/-- **What is asked for is well formed**: the id was drawn, every unit named is
configured, and the moment is ahead of the clock. -/
theorem requestedTimer_ok {units : List Nat} {body : Except String TimerRequest}
    {idDraw : Option (Arr 6)} {now : LocalTime} {timer : Timer}
    (h : requestedTimer clock toUppercase units body idDraw now = .ok timer) :
    ∃ request raw, body = .ok request ∧ idDraw = some raw ∧ timer.id = hexLower raw.1 ∧
      timer.unitIds = request.unitIds ∧
      (∀ u ∈ timer.unitIds, ∃ n ∈ units, unitNumber u = some n) ∧
      ∃ moment, now < moment ∧ timer.firesAt = clock.formatLocal moment := by
  unfold requestedTimer at h
  split at h
  next => cases h
  next request =>
    split at h
    next => cases h
    next asked _ =>
      split at h
      next => cases h
      next =>
        dsimp only at h
        split at h
        next => cases h
        next hknown =>
          split at h
          next => cases h
          next raw =>
            split at h
            next => cases h
            next t ht =>
              obtain rfl := Except.ok.inj h
              have hmade : t.id = hexLower raw.1 ∧ t.unitIds = request.unitIds ∧
                  ∃ moment, now < moment ∧ t.firesAt = clock.formatLocal moment := by
                split at ht
                next => exact buildTimer_ok ht
                next => exact buildStartTimer_ok ht
              obtain ⟨hid, hunits, hstored⟩ := hmade
              refine ⟨request, raw, rfl, rfl, hid, hunits, ?_, hstored⟩
              intro u hu
              rw [hunits] at hu
              exact unknownUnits_eq_nil (not_not.mp hknown) hu

/-- The document a timer is put into: without what it displaces. -/
def admitted (doc : TimersDoc) (timer : Timer) : TimersDoc :=
  { timers := (doc.replaceForUnits timer.unitIds timer.kind).2.timers ++ [timer] }

/-- What is stored with the new timer: it, and what it does not displace. -/
theorem mem_admitted {doc : TimersDoc} {timer t : Timer} :
    t ∈ (admitted doc timer).timers ↔
      (t ∈ doc.timers ∧ t.displacedBy timer.unitIds timer.kind = false) ∨ t = timer := by
  unfold admitted
  rw [List.mem_append, TimersDoc.mem_replaceForUnits, List.mem_singleton]

/-- What a creation leaves that was not saved. -/
theorem remove_admitted (doc : TimersDoc) (timer : Timer) :
    ((admitted doc timer).remove timer.id).2.timers = doc.timers.filter fun t =>
      (t.id ≠ timer.id) && ! t.displacedBy timer.unitIds timer.kind := by
  unfold admitted TimersDoc.remove TimersDoc.replaceForUnits
  dsimp only
  rw [List.filter_append, List.filter_filter]
  simp

/-- Forgetting timers leaves the others in their order. -/
theorem forget_sublist (due : List Timer) (doc : TimersDoc) :
    (forget due doc).timers.Sublist doc.timers := by
  induction due generalizing doc with
  | nil => exact List.Sublist.refl _
  | cons timer due ih => exact (ih _).trans (doc.remove_sublist timer.id)

/-- What is left has none of the ids. -/
theorem mem_forget {due : List Timer} {doc : TimersDoc} {t : Timer} :
    t ∈ (forget due doc).timers ↔ t ∈ doc.timers ∧ ∀ d ∈ due, t.id ≠ d.id := by
  induction due generalizing doc with
  | nil => exact (and_iff_left fun d hd => absurd hd List.not_mem_nil).symm
  | cons timer due ih =>
      have hcons : forget (timer :: due) doc = forget due (doc.remove timer.id).2 := rfl
      rw [hcons, ih, TimersDoc.mem_remove, List.forall_mem_cons, and_assoc]

variable (clock toUppercase)

/-- A creation is refused, or saved, or it was not saved and the new timer is
taken out again. -/
theorem create_cases (state : TimerState) (body : Except String TimerRequest)
    (idDraw : Option (Arr 6)) (now : LocalTime) (saved : Except String Unit) :
    (∃ reply, requestedTimer clock toUppercase state.units body idDraw now = .error reply ∧
      create clock toUppercase state body idDraw now saved = (reply, state)) ∨
    ∃ timer, requestedTimer clock toUppercase state.units body idDraw now = .ok timer ∧
      ((∃ e, saved = .error e ∧ create clock toUppercase state body idDraw now saved =
          (cannotWriteTimers e,
            { state with timers := ((admitted state.timers timer).remove timer.id).2 })) ∨
        (saved = .ok () ∧ create clock toUppercase state body idDraw now saved =
          (⟨201, .timer timer (timer.secondsRemaining clock now)⟩,
            { state with timers := admitted state.timers timer }))) := by
  unfold create
  cases hasked : requestedTimer clock toUppercase state.units body idDraw now with
  | error reply => exact Or.inl ⟨reply, rfl, rfl⟩
  | ok timer =>
      cases saved with
      | error e => exact Or.inr ⟨timer, rfl, Or.inl ⟨e, rfl, rfl⟩⟩
      | ok => exact Or.inr ⟨timer, rfl, Or.inr ⟨rfl, rfl⟩⟩

/-- A cancellation finds nothing, or it removes and says whether that was saved. The removal
stands in either case, as the code has no way back. -/
theorem cancel_cases (state : TimerState) (timerId : Str) (saved : Except String Unit) :
    ((∀ t ∈ state.timers.timers, t.id ≠ timerId) ∧
      cancel state timerId saved = (.detail 404 "no such timer", state)) ∨
    ((∃ t ∈ state.timers.timers, t.id = timerId) ∧
      ((∃ e, saved = .error e ∧ cancel state timerId saved =
          (cannotWriteTimers e, { state with timers := (state.timers.remove timerId).2 })) ∨
        (saved = .ok () ∧ cancel state timerId saved =
          (⟨204, .empty⟩, { state with timers := (state.timers.remove timerId).2 })))) := by
  have hcancel : cancel state timerId saved =
      if ¬ (state.timers.remove timerId).1 then
        (.detail 404 "no such timer", { state with timers := (state.timers.remove timerId).2 })
      else match saved with
        | .error e =>
            (cannotWriteTimers e, { state with timers := (state.timers.remove timerId).2 })
        | .ok () => (⟨204, .empty⟩, { state with timers := (state.timers.remove timerId).2 }) := rfl
  rw [hcancel]
  by_cases hfound : (state.timers.remove timerId).1 = true
  · rw [if_neg (not_not.mpr hfound)]
    refine Or.inr ⟨TimersDoc.remove_fst.mp hfound, ?_⟩
    cases saved with
    | error e => exact Or.inl ⟨e, rfl, rfl⟩
    | ok => exact Or.inr ⟨rfl, rfl⟩
  · rw [if_pos hfound]
    have hnone : ∀ t ∈ state.timers.timers, t.id ≠ timerId := by
      intro t ht hid
      exact hfound (TimersDoc.remove_fst.mpr ⟨t, ht, hid⟩)
    have hsame : (state.timers.remove timerId).2 = state.timers := by
      unfold TimersDoc.remove
      dsimp only
      rw [List.filter_eq_self.mpr fun t ht => decide_eq_true (hnone t ht)]
    refine Or.inl ⟨hnone, ?_⟩
    rw [hsame]

/-- Only requests are replied to. A pass of the runner answers with what it does, or with
nothing. -/
theorem request_of_reply {state : TimerState} {op : Op} {reply : Reply}
    (h : (step clock toUppercase state op).1 = .reply reply) :
    (∃ body idDraw now saved, op = .create body idDraw now saved) ∨
      ∃ timerId saved, op = .cancel timerId saved := by
  cases op with
  | create body idDraw now saved => exact Or.inl ⟨body, idDraw, now, saved, rfl⟩
  | cancel timerId saved => exact Or.inr ⟨timerId, saved, rfl⟩
  | snapshot now =>
      unfold step at h
      dsimp only at h
      split at h <;> cases h
  | takeUp =>
      unfold step at h
      dsimp only at h
      split at h
      next => split at h <;> cases h
      next => cases h
  | send outcome =>
      unfold step at h
      dsimp only at h
      split at h <;> cases h
  | finish saved =>
      unfold step at h
      dsimp only at h
      split at h <;> cases h
  | configure units => cases h

/-- An accepted creation admits the timer it answers with. A reply of 201 comes from a creation
alone, and only from one whose save succeeded. -/
theorem created_of_reply {state : TimerState} {op : Op} {timer : Timer} {left : Int}
    (h : (step clock toUppercase state op).1 = .reply ⟨201, .timer timer left⟩) :
    ∃ body idDraw now, op = .create body idDraw now (.ok ()) ∧
      requestedTimer clock toUppercase state.units body idDraw now = .ok timer ∧
      (step clock toUppercase state op).2 =
        { state with timers := admitted state.timers timer } := by
  rcases request_of_reply clock toUppercase h with
    ⟨body, idDraw, now, saved, rfl⟩ | ⟨timerId, saved, rfl⟩
  · rw [step_create] at h ⊢
    have hreply := Answer.reply.inj h
    rcases create_cases clock toUppercase state body idDraw now saved with
      ⟨reply, hrefused, heq⟩ | ⟨timer', hasked, ⟨e, -, heq⟩ | ⟨rfl, heq⟩⟩
    · rw [heq] at hreply
      obtain ⟨status, message, rfl⟩ := requestedTimer_error hrefused
      cases hreply
    · rw [heq] at hreply
      cases hreply
    · rw [heq] at hreply ⊢
      cases hreply
      exact ⟨body, idDraw, now, rfl, hasked, rfl⟩
  · rw [step_cancel] at h
    have hreply := Answer.reply.inj h
    rcases cancel_cases state timerId saved with ⟨-, heq⟩ | ⟨-, ⟨e, -, heq⟩ | ⟨-, heq⟩⟩
    all_goals
      rw [heq] at hreply
      cases hreply

/-- An acknowledged cancellation removes what it names. -/
theorem cancelled_of_reply {state : TimerState} {timerId : Str} {saved : Except String Unit}
    (h : (step clock toUppercase state (.cancel timerId saved)).1 = .reply ⟨204, .empty⟩) :
    saved = .ok () ∧ (∃ t ∈ state.timers.timers, t.id = timerId) ∧
      (step clock toUppercase state (.cancel timerId saved)).2 =
        { state with timers := (state.timers.remove timerId).2 } := by
  rw [step_cancel] at h ⊢
  have hreply := Answer.reply.inj h
  rcases cancel_cases state timerId saved with ⟨-, heq⟩ | ⟨hfound, ⟨e, -, heq⟩ | ⟨hsaved, heq⟩⟩
  · rw [heq] at hreply
    cases hreply
  · rw [heq] at hreply
    cases hreply
  · rw [heq]
    exact ⟨hsaved, hfound, rfl⟩

/-- What one section does to the document. -/
inductive Edited (state : TimerState) : Op → TimersDoc → Prop where
  | same (op : Op) : Edited state op state.timers
  | created (body : Except String TimerRequest) (idDraw : Option (Arr 6)) (now : LocalTime)
      {timer : Timer}
      (asked : requestedTimer clock toUppercase state.units body idDraw now = .ok timer) :
      Edited state (.create body idDraw now (.ok ())) (admitted state.timers timer)
  | failed (body : Except String TimerRequest) (idDraw : Option (Arr 6)) (now : LocalTime)
      (e : String) {timer : Timer}
      (asked : requestedTimer clock toUppercase state.units body idDraw now = .ok timer) :
      Edited state (.create body idDraw now (.error e))
        ((admitted state.timers timer).remove timer.id).2
  | cancelled (timerId : Str) (saved : Except String Unit) :
      Edited state (.cancel timerId saved) (state.timers.remove timerId).2
  | finished (saved : Except String Unit) {pass : Pass} (running : state.pass = some pass) :
      Edited state (.finish saved) (forget pass.due state.timers)

/-- What one step does to the document. Each request has its own edit, and of the runner's
sections only those that take a timer out have any. -/
theorem step_edited (state : TimerState) (op : Op) :
    Edited clock toUppercase state op (step clock toUppercase state op).2.timers := by
  cases op with
  | create body idDraw now saved =>
      rw [step_create]
      rcases create_cases clock toUppercase state body idDraw now saved with
        ⟨reply, -, heq⟩ | ⟨timer, hasked, ⟨e, rfl, heq⟩ | ⟨rfl, heq⟩⟩
      · rw [heq]
        exact .same _
      · rw [heq]
        exact .failed body idDraw now e hasked
      · rw [heq]
        exact .created body idDraw now hasked
  | cancel timerId saved =>
      rw [step_cancel]
      rcases cancel_cases state timerId saved with ⟨-, heq⟩ | ⟨-, ⟨e, -, heq⟩ | ⟨-, heq⟩⟩
      · rw [heq]
        exact .same _
      · rw [heq]
        exact .cancelled timerId saved
      · rw [heq]
        exact .cancelled timerId saved
  | snapshot now =>
      unfold step
      dsimp only
      split
      next => exact .same _
      next => exact .same _
  | takeUp =>
      unfold step
      dsimp only
      split
      next => exact .same _
      next => exact .same _
  | send outcome =>
      unfold step
      dsimp only
      split
      next => exact .same _
      next => exact .same _
      next => exact .same _
  | finish saved =>
      unfold step
      dsimp only
      split
      next hpass => exact .finished saved hpass
      next => exact .same _
  | configure units => exact .same _

/-- A document after a section holds what it held, and what was drawn an id for. Nothing but a
creation brings a timer in, and that timer's id is the one drawn. -/
theorem Edited.mem {state : TimerState} {op : Op} {doc : TimersDoc}
    (h : Edited clock toUppercase state op doc) {t : Timer} (ht : t ∈ doc.timers) :
    t ∈ state.timers.timers ∨ op.drawnId = some t.id := by
  have hnew : ∀ {body : Except String TimerRequest} {idDraw : Option (Arr 6)} {now : LocalTime}
      {timer : Timer} (saved : Except String Unit),
      requestedTimer clock toUppercase state.units body idDraw now = .ok timer →
      t ∈ (admitted state.timers timer).timers →
      t ∈ state.timers.timers ∨ (Op.create body idDraw now saved).drawnId = some t.id := by
    intro body idDraw now timer saved hasked hmem
    rcases mem_admitted.mp hmem with ⟨hold, -⟩ | rfl
    · exact Or.inl hold
    · obtain ⟨-, raw, -, rfl, hid, -, -⟩ := requestedTimer_ok hasked
      right
      rw [hid]
      rfl
  cases h with
  | same => exact Or.inl ht
  | created body idDraw now asked => exact hnew _ asked ht
  | failed body idDraw now e asked => exact hnew _ asked (TimersDoc.mem_remove.mp ht).1
  | cancelled timerId saved => exact Or.inl (TimersDoc.mem_remove.mp ht).1
  | finished saved running => exact Or.inl (mem_forget.mp ht).1

/-- So no id comes to be there twice that was not going to. -/
theorem Edited.ids_sublist {state : TimerState} {op : Op} {doc : TimersDoc}
    (h : Edited clock toUppercase state op doc) (ops : List Op) :
    (doc.timers.map Timer.id ++ ops.filterMap Op.drawnId).Sublist
      (state.timers.timers.map Timer.id ++ (op :: ops).filterMap Op.drawnId) := by
  have htail : (ops.filterMap Op.drawnId).Sublist ((op :: ops).filterMap Op.drawnId) :=
    (List.sublist_cons_self op ops).filterMap Op.drawnId
  cases h with
  | same => exact (List.Sublist.refl _).append htail
  | @created body idDraw now timer asked =>
      obtain ⟨-, raw, -, rfl, hid, -, -⟩ := requestedTimer_ok asked
      have hdrawn : (Op.create body (some raw) now (.ok ()) :: ops).filterMap Op.drawnId =
          timer.id :: ops.filterMap Op.drawnId := by
        rw [hid]
        rfl
      rw [hdrawn, admitted, List.map_append, List.append_assoc]
      exact ((state.timers.replaceForUnits_sublist _ _).map _).append (List.Sublist.refl _)
  | failed body idDraw now e asked =>
      rw [remove_admitted]
      exact (List.filter_sublist.map _).append htail
  | cancelled timerId saved => exact ((state.timers.remove_sublist _).map _).append htail
  | finished saved running => exact ((forget_sublist _ _).map _).append htail

/-- What one section does to the state, and what can be seen of it. -/
inductive Section (state : TimerState) : Op → Answer → TimerState → Prop where
  | created (body : Except String TimerRequest) (idDraw : Option (Arr 6)) (now : LocalTime)
      (saved : Except String Unit) (reply : Reply) {doc : TimersDoc}
      (edited : Edited clock toUppercase state (.create body idDraw now saved) doc) :
      Section state (.create body idDraw now saved) (.reply reply) { state with timers := doc }
  | cancelled (timerId : Str) (saved : Except String Unit) (reply : Reply) {doc : TimersDoc}
      (edited : Edited clock toUppercase state (.cancel timerId saved) doc) :
      Section state (.cancel timerId saved) (.reply reply) { state with timers := doc }
  | configured (units : List Nat) :
      Section state (.configure units) .silent { state with units := units }
  /-- It is not the turn of this section of the runner. -/
  | idle (op : Op) : Section state op .silent state
  | began (now : LocalTime) (free : state.pass = none) :
      Section state (.snapshot now) .silent (snapshot clock state now)
  | skipped {pass : Pass} {timer : Timer} {rest : List Timer} (running : state.pass = some pass)
      (next : pass.rest = timer :: rest) (free : pass.sending = none)
      (missed : timer.missed clock pass.now = true) :
      Section state .takeUp .silent { state with pass := some { pass with rest := rest } }
  | took {pass : Pass} {timer : Timer} {rest : List Timer} (running : state.pass = some pass)
      (next : pass.rest = timer :: rest) (free : pass.sending = none)
      (missed : timer.missed clock pass.now = false) :
      Section state .takeUp (.took timer)
        { state with
          pass := some
            { pass with rest := rest, sending := some (timer, targets state.units timer) } }
  | sent {pass : Pass} {timer : Timer} {unit : Nat} {units : List Nat} (fired errors : Nat)
      (outcome : Except String Unit) (running : state.pass = some pass)
      (next : pass.sending = some (timer, unit :: units)) :
      Section state (.send outcome) (.applied timer unit)
        { state with
          pass := some { pass with
            sending := some (timer, units), fired := fired, errors := errors } }
  | done {pass : Pass} {timer : Timer} (outcome : Except String Unit)
      (running : state.pass = some pass) (next : pass.sending = some (timer, [])) :
      Section state (.send outcome) .silent
        { state with pass := some { pass with sending := none } }
  | finished {pass : Pass} (saved : Except String Unit) (running : state.pass = some pass)
      (next : pass.rest = []) (free : pass.sending = none) :
      Section state (.finish saved) .silent (finish clock state pass saved)

/-- **One step.** What each of them does to the whole state, the refusals included. Requests
change the document alone, and the runner's sections its pass as well. -/
theorem step_section (state : TimerState) (op : Op) :
    Section clock toUppercase state op (step clock toUppercase state op).1
      (step clock toUppercase state op).2 := by
  have hedited := step_edited clock toUppercase state op
  cases op with
  | create body idDraw now saved =>
      have hsame : (create clock toUppercase state body idDraw now saved).2 =
          { state with
            timers := (create clock toUppercase state body idDraw now saved).2.timers } := by
        rcases create_cases clock toUppercase state body idDraw now saved with
          ⟨reply, -, heq⟩ | ⟨timer, -, ⟨e, -, heq⟩ | ⟨-, heq⟩⟩
        all_goals rw [heq]
      rw [step_create] at hedited ⊢
      rw [hsame]
      exact .created body idDraw now saved _ hedited
  | cancel timerId saved =>
      have hsame : (cancel state timerId saved).2 =
          { state with timers := (cancel state timerId saved).2.timers } := by
        rcases cancel_cases state timerId saved with ⟨-, heq⟩ | ⟨-, ⟨e, -, heq⟩ | ⟨-, heq⟩⟩
        all_goals rw [heq]
      rw [step_cancel] at hedited ⊢
      rw [hsame]
      exact .cancelled timerId saved _ hedited
  | snapshot now =>
      unfold step
      dsimp only
      split
      next hfree => exact .began now hfree
      next => exact .idle _
  | takeUp =>
      unfold step
      dsimp only
      split
      next now due timer rest fired errors hpass =>
        unfold Pass.takeUp
        dsimp only
        cases hmissed : timer.missed clock now with
        | true => exact .skipped hpass rfl rfl hmissed
        | false => exact .took hpass rfl rfl hmissed
      next => exact .idle _
  | send outcome =>
      unfold step
      dsimp only
      split
      next now due rest timer unit units fired errors hpass =>
        have hsent : ∀ fired' errors', Section clock toUppercase state (.send outcome)
            (.applied timer unit)
            { state with pass := some ⟨now, due, rest, some (timer, units), fired', errors'⟩ } :=
          fun fired' errors' => .sent fired' errors' outcome hpass rfl
        cases outcome with
        | ok => exact hsent (fired + 1) errors
        | error e => exact hsent fired (errors + 1)
      next hpass => exact .done outcome hpass rfl
      next => exact .idle _
  | finish saved =>
      unfold step
      dsimp only
      split
      next hpass => exact .finished saved hpass rfl rfl
      next => exact .idle _
  | configure units => exact .configured units

/-! ## A failed save -/

/-- When the document survives a failed save: a creation displaces nothing and
draws an id that is not in use; a cancellation has nothing to cancel. -/
def SurvivesFailure (state : TimerState) : Op → Prop
  | .create body idDraw now (.error _) =>
      ∀ timer, requestedTimer clock toUppercase state.units body idDraw now = .ok timer →
        ∀ t ∈ state.timers.timers,
          t.displacedBy timer.unitIds timer.kind = false ∧ t.id ≠ timer.id
  | .cancel timerId (.error _) => ∀ t ∈ state.timers.timers, t.id ≠ timerId
  | _ => True

/-- The document is as it was once the request is answered with a failed save. -/
def KeptOnFailure (state : TimerState) (op : Op) : Prop :=
  (∃ e, (step clock toUppercase state op).1 = .reply (cannotWriteTimers e)) →
    (step clock toUppercase state op).2.timers = state.timers

/-- Taking the new timer out again gives the document back exactly when it displaced nothing and
no other has its id. -/
theorem remove_admitted_eq_iff {doc : TimersDoc} {timer : Timer} :
    ((admitted doc timer).remove timer.id).2 = doc ↔
      ∀ t ∈ doc.timers, t.displacedBy timer.unitIds timer.kind = false ∧ t.id ≠ timer.id := by
  have heq : ((admitted doc timer).remove timer.id).2 = doc ↔
      ((admitted doc timer).remove timer.id).2.timers = doc.timers :=
    ⟨congrArg TimersDoc.timers, fun h => congrArg TimersDoc.mk h⟩
  rw [heq, remove_admitted, List.filter_eq_self]
  refine forall₂_congr fun t _ => ?_
  simp [and_comm]

/-- A creation that fails keeps them when it had displaced none and its id was free. Taking the
new timer out again then gives the very list that was there. -/
theorem create_kept_iff (state : TimerState) (body : Except String TimerRequest)
    (idDraw : Option (Arr 6)) (now : LocalTime) (saved : Except String Unit) :
    KeptOnFailure clock toUppercase state (.create body idDraw now saved) ↔
      SurvivesFailure clock toUppercase state (.create body idDraw now saved) := by
  unfold KeptOnFailure
  rw [step_create]
  rcases create_cases clock toUppercase state body idDraw now saved with
    ⟨reply, hasked, heq⟩ | ⟨timer, hasked, ⟨e, rfl, heq⟩ | ⟨rfl, heq⟩⟩
  · rw [heq]
    refine iff_of_true (fun _ => rfl) ?_
    cases saved with
    | error e =>
        intro timer htimer
        rw [hasked] at htimer
        cases htimer
    | ok => trivial
  · rw [heq]
    constructor
    · intro hkept timer' htimer'
      rw [hasked] at htimer'
      obtain rfl := Except.ok.inj htimer'
      exact remove_admitted_eq_iff.mp (hkept ⟨e, rfl⟩)
    · intro hsurvives _
      exact remove_admitted_eq_iff.mpr (hsurvives timer hasked)
  · rw [heq]
    refine iff_of_true ?_ trivial
    rintro ⟨e, he⟩
    cases congrArg Reply.status (Answer.reply.inj he)

/-- A cancellation that fails to save has already taken its timer out. So it keeps the document
only when there was nothing to cancel. -/
theorem cancel_kept_iff (state : TimerState) (timerId : Str) (saved : Except String Unit) :
    KeptOnFailure clock toUppercase state (.cancel timerId saved) ↔
      SurvivesFailure clock toUppercase state (.cancel timerId saved) := by
  unfold KeptOnFailure
  rw [step_cancel]
  rcases cancel_cases state timerId saved with
    ⟨hnone, heq⟩ | ⟨⟨t, ht, hid⟩, ⟨e, rfl, heq⟩ | ⟨rfl, heq⟩⟩
  · rw [heq]
    refine iff_of_true (fun _ => rfl) ?_
    cases saved with
    | error e => exact hnone
    | ok => trivial
  · rw [heq]
    refine iff_of_false ?_ fun hnone => hnone t ht hid
    intro hkept
    have hsame : (state.timers.remove timerId).2 = state.timers := hkept ⟨e, rfl⟩
    rw [← hsame] at ht
    exact (TimersDoc.mem_remove.mp ht).2 hid
  · rw [heq]
    refine iff_of_true ?_ trivial
    rintro ⟨e, he⟩
    cases congrArg Reply.status (Answer.reply.inj he)

/-- **A failed save** leaves the timers as they were exactly when the request had
taken none of them out. -/
theorem kept_on_failure_iff (state : TimerState) (op : Op) :
    KeptOnFailure clock toUppercase state op ↔ SurvivesFailure clock toUppercase state op := by
  cases op with
  | create body idDraw now saved =>
      exact create_kept_iff clock toUppercase state body idDraw now saved
  | cancel timerId saved => exact cancel_kept_iff clock toUppercase state timerId saved
  | snapshot _ | takeUp | send _ | finish _ | configure _ =>
      refine iff_of_true ?_ trivial
      rintro ⟨e, he⟩
      rcases request_of_reply clock toUppercase he with
        ⟨body, idDraw, now, saved, hop⟩ | ⟨timerId, saved, hop⟩
      · cases hop
      · cases hop

/-- The id of a timer, drawn: five zeros and a byte. -/
def drawnLast (b : UInt8) : Option (Arr 6) := some ⟨[0, 0, 0, 0, 0, b], rfl⟩

/-- A sleep timer for unit 7 that replaces another one. -/
def replacement : Op :=
  .create (.ok { unitIds := ["7".toList], minutes := some 30 }) (drawnLast 2) (oneDayAt 21 0)
    (.error "disk full")

/-- The store with one sleep timer for unit 7. -/
def oneTimer : TimerState where
  units := [7]
  timers := ⟨[{ id := "000000000001".toList, unitIds := ["7".toList], minutes := 45
                createdAt := "2026-08-23T20:30:00".toList, firesAt := "2026-08-23T21:15:00".toList
                settings := .powerOff, label := [], kind := .sleep }]⟩

/-- When the replacement cannot be saved, both timers are gone. -/
theorem displaced_timer_lost : ¬ KeptOnFailure oneDay id oneTimer replacement := by
  intro hkept
  have hreply : (step oneDay id oneTimer replacement).1 =
      .reply (cannotWriteTimers "disk full") := by decide +kernel
  have hgone : (step oneDay id oneTimer replacement).2.timers = {} := by decide +kernel
  rw [KeptOnFailure, hgone] at hkept
  have hempty : oneTimer.timers = {} := (hkept ⟨_, hreply⟩).symm
  cases congrArg (fun doc => doc.timers.length) hempty

end BreezeHttp.TimerRoutes
