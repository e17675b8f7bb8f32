import BreezeCore.Lib.Runs
import BreezeCore.Store.Programs

/-!
# The program routes and the scheduler

`create`, `update` and `delete` edit the document under its lock and put it back when it
cannot be saved.  A pass of the scheduler takes a copy of the document and goes over its
enabled programs: a schedule fires the entries that are due and not yet claimed in this
minute, and a curve is sent to the units whose remembered setpoint is another.  The
events of a pass say what was fired, sent and left alone, in order.

Saving the program store works or fails with a message; which of the two is an
argument, as are random draws, the clock and the outcomes of the sends.

* `programs_kept_iff` — what a failed save leaves of the document.
-/

namespace BreezeHttp.ProgramRoutes

open Bytes Text BreezeStore

inductive Content where
  | detail (message : String)
  | program (p : Program)
  | empty
  deriving DecidableEq, Repr

/-- A reply of a program route. -/
structure Reply where
  status : Nat
  content : Content
  deriving DecidableEq, Repr

def Reply.detail (status : Nat) (message : String) : Reply := ⟨status, .detail message⟩

/-- The scheduler's own bookkeeping. -/
structure SchedulerState where
  running : Bool := false
  runs : Nat := 0
  errors : Nat := 0
  lastRun : Option Str := none
  /-- Program id and entry index, to the minute the trigger last fired in. -/
  fired : Str × Nat → Option Str := fun _ => none
  /-- Program id and unit, to the setpoint last applied. -/
  curveApplied : Str × Nat → Option ℚ := fun _ => none

/-- What the program routes and the scheduler use. -/
structure ProgramState where
  programs : ProgramsDoc := {}
  /-- The configured units, in order. -/
  units : List Nat := []
  scheduler : SchedulerState := {}

/-- Units a program targets: its own list, or every configured unit. -/
def targets (units : List Nat) (p : Program) : List Nat :=
  if p.unitIds = [] then units else p.unitIds.filterMap (fromStrRadix 10 (2 ^ 64))

/-! ## Editing -/

section Editing

variable (toUppercase : String → String) (sayF64 : ℚ → String)

/-- The store could not be written. -/
def cannotWritePrograms (e : String) : Reply :=
  .detail 500 ("cannot write the program store: " ++ e)

/-- `POST /api/programs`. The new program goes to the end of the list, and off it again when the
save fails. -/
def create (state : ProgramState) (body : Except String ProgramSpec) (idDraw : Option (Arr 6))
    (saved : Except String Unit) : Reply × ProgramState :=
  match body with
  | .error e => (.detail 422 ("invalid program: " ++ e), state)
  | .ok spec =>
      match idDraw with
      | none => (.detail 500 "no entropy available", state)
      | some raw =>
          match spec.intoProgram toUppercase (hexLower raw.1) with
          | .error e => (.detail 422 (e.message sayF64), state)
          | .ok program =>
              let programs := state.programs.programs ++ [program]
              match saved with
              | .error e =>
                  (cannotWritePrograms e, { state with programs := ⟨programs.dropLast⟩ })
              | .ok () => (⟨201, .program program⟩, { state with programs := ⟨programs⟩ })

/-- `PUT /api/programs/{id}`: replaces everything but the id. The program keeps its place, and so
does the old one when the save fails. -/
def update (state : ProgramState) (programId : Str) (body : Except String ProgramSpec)
    (saved : Except String Unit) : Reply × ProgramState :=
  match body with
  | .error e => (.detail 422 ("invalid program: " ++ e), state)
  | .ok spec =>
      match spec.intoProgram toUppercase programId with
      | .error e => (.detail 422 (e.message sayF64), state)
      | .ok program =>
          match state.programs.get programId with
          | none => (.detail 404 ("no program '" ++ String.ofList programId ++ "'"), state)
          | some previous =>
              let (_, programs) := state.programs.replace programId program
              match saved with
              | .error e =>
                  (cannotWritePrograms e,
                    { state with programs := (programs.replace programId previous).2 })
              | .ok () => (⟨200, .program program⟩, { state with programs := programs })

/-- `DELETE /api/programs/{id}`. -/
def delete (state : ProgramState) (programId : Str) (saved : Except String Unit) :
    Reply × ProgramState :=
  match state.programs.get programId with
  | none => (.detail 404 ("no program '" ++ String.ofList programId ++ "'"), state)
  | some previous =>
      let (_, programs) := state.programs.remove programId
      match saved with
      | .error e =>
          -- The removed program goes to the end, wherever it stood.
          (cannotWritePrograms e, { state with programs := ⟨programs.programs ++ [previous]⟩ })
      | .ok () => (⟨204, .empty⟩, { state with programs := programs })

end Editing

/-! ## A pass of the scheduler -/

/-- What a pass does to units, or leaves undone. -/
inductive Event where
  /-- A trigger fires. -/
  | fired (programId : Str) (entry : ScheduleEntry)
  /-- Its settings are sent to a unit. -/
  | applied (programId : Str) (unit : Nat) (request : ControlRequest)
      (outcome : Except String Unit)
  /-- A curve's request is sent to a unit. -/
  | tracked (programId : Str) (unit : Nat) (request : ControlRequest)
      (outcome : Except String Unit)
  /-- A curve's request is not sent, for the unit has that setpoint. -/
  | kept (programId : Str) (unit : Nat) (request : ControlRequest)
  deriving DecidableEq

/-- A pass under way. -/
structure Tick where
  scheduler : SchedulerState
  events : List Event := []

def Tick.emit (t : Tick) (e : Event) : Tick := { t with events := t.events ++ [e] }

/-- Claim a trigger for this minute. -/
def Tick.claim (t : Tick) (key : Str × Nat) (stamp : Str) : Tick :=
  { t with
    scheduler := { t.scheduler with fired := Function.update t.scheduler.fired key (some stamp) } }

/-- Remember the setpoint of a unit. -/
def Tick.remember (t : Tick) (key : Str × Nat) (temp : ℚ) : Tick :=
  { t with
    scheduler :=
      { t.scheduler with
        curveApplied := Function.update t.scheduler.curveApplied key (some temp) } }

section Scheduler

variable (clock : Clock) (sayDate : Int → Str) (toF64 : ℚ → ℚ)

/-- The outcomes of the sends of a pass, by their place among its events. -/
abbrev Outcomes := Nat → Except String Unit

/-- Send one scene to some units, whatever comes of it. -/
def applyAll (answers : Outcomes) (programId : Str) (settings : ControlRequest) :
    List Nat → Tick → Tick
  | [], t => t
  | unit :: units, t =>
      applyAll answers programId settings units
        (t.emit (.applied programId unit settings (answers t.events.length)))

/-- Fire these entries, except those already claimed in this minute.  Each is claimed
before it is sent, and only once. -/
def fireDue (answers : Outcomes) (units : List Nat) (program : Program) (stamp : Str) :
    List Nat → Tick → Tick
  | [], t => t
  | index :: due, t =>
      if t.scheduler.fired (program.id, index) = some stamp then
        fireDue answers units program stamp due t
      else
        match program.schedule[index]? with
        | none => t
        | some entry =>
            fireDue answers units program stamp due
              (applyAll answers program.id entry.settings (targets units program)
                ((t.claim (program.id, index) stamp).emit (.fired program.id entry)))

def runSchedule (answers : Outcomes) (units : List Nat) (program : Program) (now : LocalTime)
    (t : Tick) : Tick :=
  let due := dueEntries program.schedule now
  if due = [] then t else fireDue answers units program (minuteStamp sayDate now) due t

/-- Send a curve's request to the units that have another setpoint.  It is remembered only
on success, so a unit that was unreachable is retried. -/
def trackUnits (answers : Outcomes) (programId : Str) (request : ControlRequest) (temp : ℚ) :
    List Nat → Tick → Tick
  | [], t => t
  | unit :: units, t =>
      if t.scheduler.curveApplied (programId, unit) = some temp then
        trackUnits answers programId request temp units (t.emit (.kept programId unit request))
      else
        match answers t.events.length with
        | .ok () =>
            trackUnits answers programId request temp units
              ((t.remember (programId, unit) temp).emit
                (.tracked programId unit request (.ok ())))
        | .error e =>
            trackUnits answers programId request temp units
              (t.emit (.tracked programId unit request (.error e)))

def runCurve (answers : Outcomes) (units : List Nat) (program : Program) (now : LocalTime)
    (t : Tick) : Tick :=
  match program.curve with
  | none => t
  | some curve =>
      let request := curveRequest toF64 curve now
      match request.targetTemperature with
      | none => t
      | some temp => trackUnits answers program.id request temp (targets units program) t

def runProgram (answers : Outcomes) (units : List Nat) (now : LocalTime) (t : Tick)
    (program : Program) : Tick :=
  if program.isSchedule then runSchedule sayDate answers units program now t
  else if program.isCurve then runCurve toF64 answers units program now t
  else t

/-- The programs of one pass, in order. -/
def runPrograms (answers : Outcomes) (units : List Nat) (now : LocalTime)
    (programs : List Program) (t : Tick) : Tick :=
  (programs.filter Program.enabled).foldl (runProgram sayDate toF64 answers units now) t

/-- One pass over every enabled program. -/
def runOnce (state : ProgramState) (now : LocalTime) (answers : Outcomes) :
    List Event × ProgramState :=
  let t := runPrograms sayDate toF64 answers state.units now state.programs.programs
    ⟨state.scheduler, []⟩
  (t.events,
    { state with
      scheduler :=
        { t.scheduler with
          runs := t.scheduler.runs + 1
          lastRun := some (clock.formatLocal now) } })

end Scheduler

/-! ## Runs -/

inductive Op where
  | create (body : Except String ProgramSpec) (idDraw : Option (Arr 6))
      (saved : Except String Unit)
  | update (programId : Str) (body : Except String ProgramSpec) (saved : Except String Unit)
  | delete (programId : Str) (saved : Except String Unit)
  | tick (now : LocalTime) (answers : Outcomes)
  /-- Units come and go. -/
  | configure (units : List Nat)

/-- What can be seen of a step. -/
inductive Answer where
  | reply (r : Reply)
  | ran (events : List Event)
  | silent
  deriving DecidableEq

def Answer.events : Answer → List Event
  | .ran events => events
  | _ => []

/-- The libraries a run depends on. -/
structure Env where
  toUppercase : String → String
  sayF64 : ℚ → String
  clock : Clock
  sayDate : Int → Str
  toF64 : ℚ → ℚ

variable (env : Env)

def step (state : ProgramState) : Op → Answer × ProgramState
  | .create body idDraw saved =>
      let (reply, state) := create env.toUppercase env.sayF64 state body idDraw saved
      (.reply reply, state)
  | .update programId body saved =>
      let (reply, state) := update env.toUppercase env.sayF64 state programId body saved
      (.reply reply, state)
  | .delete programId saved =>
      let (reply, state) := delete state programId saved
      (.reply reply, state)
  | .tick now answers =>
      let (events, state) := runOnce env.clock env.sayDate env.toF64 state now answers
      (.ran events, state)
  | .configure units => (.silent, { state with units := units })

/-- The moment of a pass. -/
def Op.moment : Op → Option LocalTime
  | .tick now _ => some now
  | _ => none

/-! ## A failed save -/

/-- The document is as it was once the request is answered with a failed save. -/
def PutBack (state : ProgramState) (op : Op) : Prop :=
  (∃ e, (step env state op).1 = .reply (cannotWritePrograms e)) →
    (step env state op).2.programs = state.programs

/-- When a failed save leaves the document alone: a deletion finds nothing, or what it
finds is the only program of its id and the last in the list. -/
def OnlyAndLast (state : ProgramState) : Op → Prop
  | .delete programId (.error _) =>
      ∀ previous, state.programs.get programId = some previous →
        ∃ others, state.programs.programs = others ++ [previous] ∧
          ∀ p ∈ others, p.id ≠ programId
  | _ => True

/-- A creation that is not saved leaves the document alone. -/
theorem create_kept {toUppercase : String → String} {sayF64 : ℚ → String} {state : ProgramState}
    {body : Except String ProgramSpec} {idDraw : Option (Arr 6)} {saved : Except String Unit}
    {e : String}
    (h : (create toUppercase sayF64 state body idDraw saved).1 = cannotWritePrograms e) :
    (create toUppercase sayF64 state body idDraw saved).2.programs = state.programs := by
  unfold create at h ⊢
  split
  next => rfl
  next spec =>
    cases idDraw with
    | none => rfl
    | some raw =>
        dsimp only at h ⊢
        split
        next => rfl
        next program hprogram =>
          rw [hprogram] at h
          cases saved with
          | error => exact congrArg ProgramsDoc.mk List.dropLast_concat
          | ok => cases congrArg Reply.status h

/-- So does a replacement: the old program goes where the new one stands. A failed save puts it
back at its own place in the list. -/
theorem update_kept {toUppercase : String → String} {sayF64 : ℚ → String} {state : ProgramState}
    {programId : Str} {body : Except String ProgramSpec} {saved : Except String Unit} {e : String}
    (h : (update toUppercase sayF64 state programId body saved).1 = cannotWritePrograms e) :
    (update toUppercase sayF64 state programId body saved).2.programs = state.programs := by
  unfold update at h ⊢
  split
  next => rfl
  next spec =>
    dsimp only at h
    split
    next => rfl
    next program hprogram =>
      rw [hprogram] at h
      dsimp only at h
      split
      next => rfl
      next previous hprevious =>
        rw [hprevious] at h
        have hid : program.id = programId := (ProgramSpec.intoProgram_ok hprogram).2
        cases saved with
        | error => exact congrArg ProgramsDoc.mk (replaceFirst_back hprevious hid)
        | ok => cases congrArg Reply.status h

/-- What a removal that fails puts back is what was there exactly when it was one program,
at the end. -/
theorem remove_push_eq_iff {doc : ProgramsDoc} {programId : Str} {previous : Program}
    (hprevious : doc.get programId = some previous) :
    (⟨(doc.remove programId).2.programs ++ [previous]⟩ : ProgramsDoc) = doc ↔
      ∃ others, doc.programs = others ++ [previous] ∧ ∀ p ∈ others, p.id ≠ programId := by
  have hid := (ProgramsDoc.mem_of_get hprevious).2
  constructor
  · intro h
    refine ⟨(doc.remove programId).2.programs, (congrArg ProgramsDoc.programs h).symm, ?_⟩
    intro p hp
    exact (ProgramsDoc.mem_remove.mp hp).2
  · rintro ⟨others, hdoc, hothers⟩
    have hleft : (doc.remove programId).2.programs = others := by
      unfold ProgramsDoc.remove
      dsimp only
      rw [hdoc, List.filter_append, List.filter_eq_self.mpr fun p hp => by simpa using hothers p hp]
      simp [hid]
    rw [hleft, ← hdoc]

/-- **A failed save** leaves the document as it was, order included, exactly when the
request is no deletion, or one of the last program of the list and the only one of its
id. -/
theorem programs_kept_iff (state : ProgramState) (op : Op) :
    PutBack env state op ↔ OnlyAndLast state op := by
  cases op with
  | create body idDraw saved =>
      refine iff_of_true ?_ trivial
      rintro ⟨e, he⟩
      exact create_kept (Answer.reply.inj he)
  | update programId body saved =>
      refine iff_of_true ?_ trivial
      rintro ⟨e, he⟩
      exact update_kept (Answer.reply.inj he)
  | delete programId saved =>
      have hstep : step env state (.delete programId saved) =
        (.reply (delete state programId saved).1, (delete state programId saved).2) := rfl
      unfold PutBack
      rw [hstep]
      unfold delete
      cases hfound : state.programs.get programId with
      | none =>
          refine iff_of_true (fun _ => rfl) ?_
          cases saved with
          | error e =>
              intro previous hprevious
              rw [hfound] at hprevious
              cases hprevious
          | ok => trivial
      | some previous =>
          cases saved with
          | ok =>
              refine iff_of_true ?_ trivial
              rintro ⟨e, he⟩
              cases congrArg Reply.status (Answer.reply.inj he)
          | error e =>
              have hiff := remove_push_eq_iff hfound
              constructor
              · intro hkept previous' hprevious'
                rw [hfound] at hprevious'
                obtain rfl := Option.some.inj hprevious'
                exact hiff.mp (hkept ⟨e, rfl⟩)
              · intro hlast _
                exact hiff.mpr (hlast previous hfound)
  | tick now answers =>
      refine iff_of_true ?_ trivial
      rintro ⟨e, he⟩
      cases he
  | configure units =>
      refine iff_of_true ?_ trivial
      rintro ⟨e, he⟩
      cases he

/-- The date library on 2026-08-23, and other days told apart. -/
def oneDate (day : Int) : Str :=
  if day = dayOf oneMidnight then "2026-08-23".toList
  else if 0 ≤ day then List.replicate day.toNat 'd'
  else '-' :: List.replicate day.natAbs 'd'

theorem oneDate_injective : Function.Injective oneDate := by
  have hother : ∀ day, day ≠ dayOf oneMidnight → oneDate day ≠ "2026-08-23".toList := by
    intro day hday
    unfold oneDate
    rw [if_neg hday]
    split
    next =>
      intro h
      have hmem : '2' ∈ List.replicate day.toNat 'd' := by
        rw [h]
        decide
      exact absurd (List.eq_of_mem_replicate hmem) (by decide)
    next => exact fun h => absurd (List.cons.inj h).1 (by decide)
  have hone : oneDate (dayOf oneMidnight) = "2026-08-23".toList := if_pos rfl
  intro a b h
  by_cases ha : a = dayOf oneMidnight
  · by_contra hb
    rw [ha, hone] at h
    exact hother b (fun hb' => hb (ha.trans hb'.symm)) h.symm
  · by_cases hb : b = dayOf oneMidnight
    · rw [hb, hone] at h
      exact absurd h (hother a ha)
    · unfold oneDate at h
      rw [if_neg ha, if_neg hb] at h
      split at h
      next hpos =>
        split at h
        next hpos' =>
          have hlen := congrArg List.length h
          rw [List.length_replicate, List.length_replicate] at hlen
          omega
        next =>
          have hmem : '-' ∈ List.replicate a.toNat 'd' := by
            rw [h]
            exact List.mem_cons_self
          exact absurd (List.eq_of_mem_replicate hmem) (by decide)
      next hneg =>
        split at h
        next =>
          have hmem : '-' ∈ List.replicate b.toNat 'd' := by
            rw [← h]
            exact List.mem_cons_self
          exact absurd (List.eq_of_mem_replicate hmem) (by decide)
        next hneg' =>
          have hlen := congrArg List.length h
          rw [List.length_cons, List.length_cons, List.length_replicate,
            List.length_replicate] at hlen
          omega

/-- The libraries on plain text, whole numbers and that day. -/
def plainEnv : Env where
  toUppercase := fun name => String.ofList (name.toList.map Char.toUpper)
  sayF64 := fun x => toString x.num
  clock := oneDay
  sayDate := oneDate
  toF64 := id

/-- A favourite that switches off. -/
def offScene (id name : String) : Program :=
  { name := name.toList, favourite := some .powerOff, id := id.toList }

/-- Two favourites. -/
def twoScenes : ProgramState where
  programs := ⟨[offScene "a1" "Night", offScene "b2" "Away"]⟩

/-- When deleting the first cannot be saved, the two have changed places. -/
theorem deleted_program_moves :
    ¬ PutBack plainEnv twoScenes (.delete "a1".toList (.error "disk full")) := by
  intro hkept
  have hdoc := hkept ⟨"disk full", by decide +kernel⟩
  have hmoved : (step plainEnv twoScenes
      (.delete "a1".toList (.error "disk full"))).2.programs.programs.map Program.id =
        ["b2".toList, "a1".toList] := by decide +kernel
  rw [hdoc] at hmoved
  exact absurd hmoved (by decide +kernel)

end BreezeHttp.ProgramRoutes
