import BreezeCore.Http.ProgramRoutes
import BreezeCore.Lib.Claims

/-!
# Schedules over runs of the scheduler

The scheduler remembers what fired by program and place in the list, so it is places that
fire once in a minute.

* `step_fires` — what a pass fires of a program, by what it had claimed before;
* `step_sends` — and that what fires is sent to every unit of the program;
* `fires_once_iff` — entries fire once in a minute, and at the first pass that finds them
  due, exactly when the places of the list keep up with them.
-/

namespace BreezeHttp.ProgramRoutes

open Text BreezeStore Runs

/-- The trigger that fires for a program. -/
def Event.firedUnder (p : Str) : Event → Option ScheduleEntry
  | .fired programId entry => if programId = p then some entry else none
  | _ => none

/-- What some events fire for a program. -/
def firedUnder (p : Str) (events : List Event) : List ScheduleEntry :=
  events.filterMap (Event.firedUnder p)

/-- The entries of the enabled schedules of an id that are due, with their places. -/
def slots (p : Str) (now : LocalTime) (programs : List Program) : List (Nat × ScheduleEntry) :=
  (programs.filter Program.enabled).flatMap fun program =>
    if program.isSchedule ∧ program.id = p then dueSlots program.schedule now else []

/-- A slot of a program is due when the program is an enabled schedule and the entry at that place
is due. -/
theorem mem_slots {p : Str} {now : LocalTime} {programs : List Program}
    {x : Nat × ScheduleEntry} :
    x ∈ slots p now programs ↔ ∃ program ∈ programs, program.enabled = true ∧
      program.isSchedule = true ∧ program.id = p ∧ program.schedule[x.1]? = some x.2 ∧
      x.2.isDue now = true := by
  unfold slots
  rw [List.mem_flatMap]
  constructor
  · rintro ⟨program, hprogram, hx⟩
    obtain ⟨hmem, henabled⟩ := List.mem_filter.mp hprogram
    split at hx
    next h => exact ⟨program, hmem, henabled, h.1, h.2, mem_dueSlots.mp hx⟩
    next => cases hx
  · rintro ⟨program, hmem, henabled, hschedule, hid, hx⟩
    refine ⟨program, List.mem_filter.mpr ⟨hmem, henabled⟩, ?_⟩
    rw [if_pos ⟨hschedule, hid⟩]
    exact mem_dueSlots.mpr hx

/-! ## What one pass fires -/

/-- Between two moments of a pass these places of a program were gone over: those not yet
claimed in the minute fired, and now they all are. -/
structure Fires (p stamp : Str) (xs : List (Nat × ScheduleEntry)) (t t' : Tick) : Prop where
  events : ∀ claimed, (∀ i, i ∈ claimed ↔ t.scheduler.fired (p, i) = some stamp) →
    firedUnder p t'.events = firedUnder p t.events ++ Claims.fresh claimed xs
  claimed : ∀ i, t'.scheduler.fired (p, i) =
    if i ∈ xs.map Prod.fst then some stamp else t.scheduler.fired (p, i)

/-- What marks nothing and claims nothing fires nothing. -/
theorem Fires.refl {p stamp : Str} {t t' : Tick}
    (hevents : firedUnder p t'.events = firedUnder p t.events)
    (hfired : ∀ i, t'.scheduler.fired (p, i) = t.scheduler.fired (p, i)) :
    Fires p stamp [] t t' := by
  refine ⟨fun claimed _ => ?_, fun i => ?_⟩
  · rw [hevents, Claims.fresh, List.append_nil]
  · rw [hfired, List.map_nil, if_neg List.not_mem_nil]

/-- What fires in two stretches fires in one after the other. What the first one claimed is not
fired again by the second. -/
theorem Fires.trans {p stamp : Str} {xs ys : List (Nat × ScheduleEntry)} {t t' t'' : Tick}
    (h : Fires p stamp xs t t') (h' : Fires p stamp ys t' t'') :
    Fires p stamp (xs ++ ys) t t'' := by
  refine ⟨fun claimed hclaimed => ?_, fun i => ?_⟩
  · have hnext : ∀ i, i ∈ claimed ++ xs.map Prod.fst ↔
        t'.scheduler.fired (p, i) = some stamp := by
      intro i
      rw [h.claimed, List.mem_append, hclaimed]
      split
      next hi => exact iff_of_true (Or.inr hi) rfl
      next hi => exact or_iff_left hi
    rw [h'.events _ hnext, h.events _ hclaimed, Claims.fresh_append, List.append_assoc]
  · rw [h'.claimed, h.claimed, List.map_append]
    by_cases hy : i ∈ ys.map Prod.fst
    · rw [if_pos hy, if_pos (List.mem_append_right _ hy)]
    · rw [if_neg hy]
      by_cases hx : i ∈ xs.map Prod.fst
      · rw [if_pos hx, if_pos (List.mem_append_left _ hx)]
      · rw [if_neg hx, if_neg fun h => (List.mem_append.mp h).elim hx hy]

/-- What fires nothing in between can be left out. -/
theorem Fires.after_quiet {p stamp : Str} {xs : List (Nat × ScheduleEntry)} {t t' t'' : Tick}
    (h : Fires p stamp xs t' t'') (hevents : firedUnder p t'.events = firedUnder p t.events)
    (hfired : ∀ i, t'.scheduler.fired (p, i) = t.scheduler.fired (p, i)) :
    Fires p stamp xs t t'' :=
  (Fires.refl hevents hfired).trans h

/-- One event more fires what it fires. -/
theorem firedUnder_emit (p : Str) (t : Tick) (e : Event) :
    firedUnder p (t.emit e).events = firedUnder p t.events ++ (e.firedUnder p).toList := by
  unfold firedUnder Tick.emit
  rw [List.filterMap_append]
  cases h : e.firedUnder p <;> simp [h]

/-- The sends of a scene fire nothing. -/
theorem applyAll_fires (p stamp : Str) (answers : Outcomes) (programId : Str)
    (settings : ControlRequest) (units : List Nat) (t : Tick) :
    Fires p stamp [] t (applyAll answers programId settings units t) := by
  induction units generalizing t with
  | nil => exact .refl rfl fun _ => rfl
  | cons unit units ih =>
      unfold applyAll
      refine (ih _).after_quiet ?_ fun _ => rfl
      rw [firedUnder_emit]
      exact List.append_nil _

/-- A curve fires no trigger, and claims none. -/
theorem trackUnits_fires (p stamp : Str) (answers : Outcomes) (programId : Str)
    (request : ControlRequest) (temp : ℚ) (units : List Nat) (t : Tick) :
    Fires p stamp [] t (trackUnits answers programId request temp units t) := by
  induction units generalizing t with
  | nil => exact .refl rfl fun _ => rfl
  | cons unit units ih =>
      unfold trackUnits
      split
      next =>
        refine (ih _).after_quiet ?_ fun _ => rfl
        rw [firedUnder_emit]
        exact List.append_nil _
      next =>
        split
        all_goals
          refine (ih _).after_quiet ?_ fun _ => rfl
          rw [firedUnder_emit]
          exact List.append_nil _

/-- The due entries of one program, for the triggers of its id and for the others. By induction on
the entries: each that is not claimed fires and is claimed with the stamp. -/
theorem fireDue_fires (p stamp : Str) (answers : Outcomes) (units : List Nat) (program : Program)
    (xs : List (Nat × ScheduleEntry)) (hxs : ∀ x ∈ xs, program.schedule[x.1]? = some x.2)
    (t : Tick) :
    Fires p stamp (if program.id = p then xs else []) t
      (fireDue answers units program stamp (xs.map Prod.fst) t) := by
  induction xs generalizing t with
  | nil =>
      rw [ite_self]
      exact .refl rfl fun _ => rfl
  | cons x xs ih =>
      obtain ⟨i, entry⟩ := x
      obtain ⟨hentry, hrest⟩ := List.forall_mem_cons.mp hxs
      have hcons : (if program.id = p then (i, entry) :: xs else []) =
          (if program.id = p then [(i, entry)] else []) ++ if program.id = p then xs else [] := by
        split <;> rfl
      rw [hcons, List.map_cons]
      unfold fireDue
      dsimp only at hentry ⊢
      by_cases hclaimed : t.scheduler.fired (program.id, i) = some stamp
      · rw [if_pos hclaimed]
        refine Fires.trans ?_ (ih hrest t)
        split
        next hid =>
          rw [hid] at hclaimed
          refine ⟨fun claimed hc => ?_, fun j => ?_⟩
          · rw [Claims.fresh, if_pos ((hc i).mpr hclaimed), Claims.fresh, List.append_nil]
          · by_cases hj : j = i
            · rw [hj, hclaimed, ite_self]
            · rw [if_neg (by simpa using hj)]
        next => exact .refl rfl fun _ => rfl
      · rw [if_neg hclaimed, hentry]
        dsimp only
        refine Fires.trans ?_ (ih hrest _)
        have hsends := applyAll_fires p stamp answers program.id entry.settings
          (targets units program) ((t.claim (program.id, i) stamp).emit (.fired program.id entry))
        rw [← List.append_nil (if program.id = p then [(i, entry)] else [])]
        refine Fires.trans ?_ hsends
        split
        next hid =>
          subst hid
          refine ⟨fun claimed hc => ?_, fun j => ?_⟩
          · have hnot : i ∉ claimed := fun hi => hclaimed ((hc i).mp hi)
            rw [firedUnder_emit, Claims.fresh, if_neg hnot, Claims.fresh]
            simp [Event.firedUnder, Tick.claim]
          · simp only [Tick.emit, Tick.claim, Function.update_apply, Prod.mk.injEq, true_and,
              List.map_cons, List.map_nil, List.mem_singleton]
        next hid =>
          refine .refl ?_ fun j => ?_
          · rw [firedUnder_emit]
            simp [Event.firedUnder, Tick.claim, hid]
          · have hother : (p, j) ≠ (program.id, i) := fun h => hid (Prod.mk.inj h).1.symm
            exact Function.update_of_ne hother _ _

/-- Nothing due is nothing to fire. -/
theorem runSchedule_eq (sayDate : Int → Str) (answers : Outcomes) (units : List Nat)
    (program : Program) (now : LocalTime) (t : Tick) :
    runSchedule sayDate answers units program now t =
      fireDue answers units program (minuteStamp sayDate now) (dueEntries program.schedule now)
        t := by
  unfold runSchedule
  dsimp only
  split
  next hnone =>
    rw [hnone]
    rfl
  next => rfl

/-- A program fires the slots of it that are due, if it is a schedule, and not yet claimed. Curves
and favourites fire none. -/
theorem runProgram_fires {env : Env} (p : Str) (answers : Outcomes) (units : List Nat)
    (now : LocalTime) (t : Tick) (program : Program) :
    Fires p (minuteStamp env.sayDate now)
      (if program.isSchedule ∧ program.id = p then dueSlots program.schedule now else []) t
      (runProgram env.sayDate env.toF64 answers units now t program) := by
  unfold runProgram
  by_cases hschedule : program.isSchedule = true
  · have hdue := fireDue_fires p (minuteStamp env.sayDate now) answers units program
      (dueSlots program.schedule now) (fun x hx => (mem_dueSlots.mp hx).1) t
    rw [dueSlots_fst] at hdue
    rw [if_pos hschedule, runSchedule_eq]
    simp only [hschedule, true_and]
    exact hdue
  · rw [if_neg hschedule, if_neg fun h => hschedule h.1]
    split
    next =>
      unfold runCurve
      split
      next => exact .refl rfl fun _ => rfl
      next =>
        dsimp only
        split
        next => exact .refl rfl fun _ => rfl
        next => exact trackUnits_fires _ _ _ _ _ _ _ _
    next => exact .refl rfl fun _ => rfl

/-- So do all of them, by induction on the list. -/
theorem runPrograms_fires {env : Env} (p : Str) (answers : Outcomes) (units : List Nat)
    (now : LocalTime) (programs : List Program) (t : Tick) :
    Fires p (minuteStamp env.sayDate now) (slots p now programs) t
      (runPrograms env.sayDate env.toF64 answers units now programs t) := by
  unfold slots runPrograms
  induction programs.filter Program.enabled generalizing t with
  | nil => exact .refl rfl fun _ => rfl
  | cons program rest ih =>
      rw [List.flatMap_cons, List.foldl_cons]
      exact (runProgram_fires p answers units now t program).trans (ih _)

/-- **What a pass fires of a program**: the due entries at places not yet claimed in this
minute, after which they all are. -/
theorem step_fires (env : Env) (p : Str) (state : ProgramState) (now : LocalTime)
    (answers : Outcomes) :
    (∀ claimed, (∀ i, i ∈ claimed ↔
        state.scheduler.fired (p, i) = some (minuteStamp env.sayDate now)) →
      firedUnder p (step env state (.tick now answers)).1.events =
        Claims.fresh claimed (slots p now state.programs.programs)) ∧
    ∀ i, (step env state (.tick now answers)).2.scheduler.fired (p, i) =
      if i ∈ (slots p now state.programs.programs).map Prod.fst then
        some (minuteStamp env.sayDate now)
      else state.scheduler.fired (p, i) := by
  have hfires := @runPrograms_fires env p answers state.units now state.programs.programs
    ⟨state.scheduler, []⟩
  exact ⟨fun claimed hclaimed => hfires.events claimed hclaimed, hfires.claimed⟩

/-! ## What one pass sends -/

/-- What is sent at a time: settings, to a unit. -/
abbrev Sent := Nat × ControlRequest

/-- One more event, before those already gone over: what was sent of the program before the first
trigger of those, and the triggers, each with what was sent after it and before the next. -/
def sceneOf (p : Str) (event : Event) (later : List Sent × List (ScheduleEntry × List Sent)) :
    List Sent × List (ScheduleEntry × List Sent) :=
  match event with
  | .fired programId entry =>
      if programId = p then ([], (entry, later.1) :: later.2) else later
  | .applied programId unit settings _ =>
      if programId = p then ((unit, settings) :: later.1, later.2) else later
  | _ => later

/-- The sends of a program in these events: those before it fires anything, and for each firing
those behind it. -/
def scenes (p : Str) (events : List Event) : List Sent × List (ScheduleEntry × List Sent) :=
  events.foldr (sceneOf p) ([], [])

section Scenes

variable {p programId : Str} {entry : ScheduleEntry} {unit : Nat} {settings : ControlRequest}
  {outcome : Except String Unit} {events : List Event}

/-- A firing begins a scene of its own. -/
theorem scenes_fired_cons : scenes p (.fired programId entry :: events) =
    if programId = p then ([], (entry, (scenes p events).1) :: (scenes p events).2)
    else scenes p events := rfl

/-- A send belongs to the scene it stands in. -/
theorem scenes_applied_cons : scenes p (.applied programId unit settings outcome :: events) =
    if programId = p then ((unit, settings) :: (scenes p events).1, (scenes p events).2)
    else scenes p events := rfl

/-- What follows a curve belongs to none. -/
theorem scenes_tracked_cons :
    scenes p (.tracked programId unit settings outcome :: events) = scenes p events := rfl

/-- A setpoint that is kept as it is belongs to no scene. -/
theorem scenes_kept_cons :
    scenes p (.kept programId unit settings :: events) = scenes p events := rfl

/-- Behind events come those that begin with a trigger. -/
theorem scenes_append {more : List Event} (hmore : (scenes p more).1 = []) :
    scenes p (events ++ more) =
      ((scenes p events).1, (scenes p events).2 ++ (scenes p more).2) := by
  induction events with
  | nil => exact Prod.ext hmore rfl
  | cons e events ih =>
      rw [List.cons_append]
      cases e with
      | fired programId entry =>
          rw [scenes_fired_cons, scenes_fired_cons, ih]
          split <;> rfl
      | applied programId unit settings outcome =>
          rw [scenes_applied_cons, scenes_applied_cons, ih]
          split <;> rfl
      | tracked => rw [scenes_tracked_cons, scenes_tracked_cons, ih]
      | kept => rw [scenes_kept_cons, scenes_kept_cons, ih]

/-- The triggers are those that fire. Going through the events from the back, a trigger opens a
scene and everything else goes into one. -/
theorem scenes_fired : (scenes p events).2.map Prod.fst = firedUnder p events := by
  induction events with
  | nil => rfl
  | cons e events ih =>
      unfold firedUnder at ih ⊢
      rw [List.filterMap_cons, ← ih]
      cases e with
      | fired programId entry =>
          rw [scenes_fired_cons]
          by_cases h : programId = p
          · have hunder : (Event.fired programId entry).firedUnder p = some entry := if_pos h
            rw [if_pos h, hunder]
            rfl
          · have hunder : (Event.fired programId entry).firedUnder p = none := if_neg h
            rw [if_neg h, hunder]
      | applied programId unit settings outcome =>
          rw [scenes_applied_cons]
          split <;> rfl
      | tracked => rfl
      | kept => rfl

end Scenes

/-- A due entry of an enabled schedule, with its settings sent to each unit of the program, once
for each place the unit has in it. -/
def IsScene (programs : List Program) (units : List Nat) (p : Str) (now : LocalTime)
    (scene : ScheduleEntry × List Sent) : Prop :=
  ∃ program ∈ programs, program.enabled = true ∧ program.isSchedule = true ∧ program.id = p ∧
    scene.1 ∈ program.schedule ∧ scene.1.isDue now = true ∧
    scene.2 = (targets units program).map fun unit => (unit, scene.1.settings)

/-- In these events of a pass whatever fired of the program was sent, and nothing else. -/
structure SentToEach (programs : List Program) (units : List Nat) (p : Str) (now : LocalTime)
    (events : List Event) : Prop where
  fired : (scenes p events).2.map Prod.fst = firedUnder p events
  nothingElse : (scenes p events).1 = []
  toAll : ∀ s ∈ (scenes p events).2, IsScene programs units p now s

/-- Between two moments of a pass nothing was sent of the program but for the triggers that fired,
and for each of those all that is to be sent. -/
def Sends (p : Str) (scene : ScheduleEntry × List Sent → Prop) (t t' : Tick) : Prop :=
  ∃ more, t'.events = t.events ++ more ∧ (scenes p more).1 = [] ∧
    ∀ s ∈ (scenes p more).2, scene s

/-- Nothing happened. -/
theorem Sends.refl {p : Str} {scene : ScheduleEntry × List Sent → Prop} {t t' : Tick}
    (hevents : t'.events = t.events) : Sends p scene t t' :=
  ⟨[], by rw [hevents, List.append_nil], rfl, nofun⟩

/-- One stretch after the other. -/
theorem Sends.trans {p : Str} {scene : ScheduleEntry × List Sent → Prop} {t t' t'' : Tick}
    (h : Sends p scene t t') (h' : Sends p scene t' t'') : Sends p scene t t'' := by
  obtain ⟨more, hevents, hnone, hscenes⟩ := h
  obtain ⟨more', hevents', hnone', hscenes'⟩ := h'
  refine ⟨more ++ more', by rw [hevents', hevents, List.append_assoc], ?_, ?_⟩
  · rw [scenes_append hnone']
    exact hnone
  · rw [scenes_append hnone']
    exact List.forall_mem_append.mpr ⟨hscenes, hscenes'⟩

/-- The sends of one scene, to every unit. By induction on the units, each of which adds one send,
whatever it answers. -/
theorem applyAll_events (p : Str) (answers : Outcomes) (programId : Str)
    (settings : ControlRequest) (units : List Nat) (t : Tick) :
    ∃ sent, (applyAll answers programId settings units t).events = t.events ++ sent ∧
      scenes p sent =
        (if programId = p then units.map fun unit => (unit, settings) else [], []) := by
  induction units generalizing t with
  | nil =>
      refine ⟨[], (List.append_nil _).symm, ?_⟩
      rw [List.map_nil, ite_self]
      rfl
  | cons unit units ih =>
      unfold applyAll
      obtain ⟨sent, hevents, hscenes⟩ :=
        ih (t.emit (.applied programId unit settings (answers t.events.length)))
      refine ⟨.applied programId unit settings (answers t.events.length) :: sent, ?_, ?_⟩
      · rw [hevents]
        exact List.append_assoc _ _ _
      · rw [scenes_applied_cons, hscenes]
        split <;> rfl

/-- A trigger that fires is sent to every unit of its program. -/
theorem fire_sends (p : Str) {scene : ScheduleEntry × List Sent → Prop} (answers : Outcomes)
    (programId : Str) (entry : ScheduleEntry) (units : List Nat) (t : Tick) (key : Str × Nat)
    (stamp : Str)
    (hscene : programId = p → scene (entry, units.map fun unit => (unit, entry.settings))) :
    Sends p scene t (applyAll answers programId entry.settings units
      ((t.claim key stamp).emit (.fired programId entry))) := by
  obtain ⟨sent, hevents, hscenes⟩ := applyAll_events p answers programId entry.settings units
    ((t.claim key stamp).emit (.fired programId entry))
  have hfired : scenes p (.fired programId entry :: sent) =
      ([], if programId = p then [(entry, units.map fun unit => (unit, entry.settings))]
        else []) := by
    rw [scenes_fired_cons, hscenes]
    split <;> rfl
  refine ⟨.fired programId entry :: sent, ?_, ?_, ?_⟩
  · rw [hevents]
    exact List.append_assoc _ _ _
  · rw [hfired]
  · rw [hfired]
    intro s hs
    split at hs
    next h => exact List.mem_singleton.mp hs ▸ hscene h
    next => cases hs

/-- Firing what is due sends each entry's settings to the program's targets, right behind its
mark. By induction on what is due. -/
theorem fireDue_sends (p : Str) {scene : ScheduleEntry × List Sent → Prop} (answers : Outcomes)
    (units : List Nat) (program : Program) (stamp : Str) (due : List Nat)
    (hscene : program.id = p → ∀ i ∈ due, ∀ entry, program.schedule[i]? = some entry →
      scene (entry, (targets units program).map fun unit => (unit, entry.settings))) (t : Tick) :
    Sends p scene t (fireDue answers units program stamp due t) := by
  induction due generalizing t with
  | nil => exact .refl rfl
  | cons i due ih =>
      have hrest := ih fun hid j hj => hscene hid j (List.mem_cons_of_mem _ hj)
      unfold fireDue
      split
      next => exact hrest t
      next =>
        split
        next => exact .refl rfl
        next entry hentry =>
          refine (fire_sends p answers program.id entry _ t _ stamp fun hid => ?_).trans (hrest _)
          exact hscene hid i List.mem_cons_self entry hentry

/-- A curve sends nothing for a trigger. Its events are none of those that belong to a scene,
whatever the units answer. -/
theorem trackUnits_sends (p : Str) {scene : ScheduleEntry × List Sent → Prop} (answers : Outcomes)
    (programId : Str) (request : ControlRequest) (temp : ℚ) (units : List Nat) (t : Tick) :
    Sends p scene t (trackUnits answers programId request temp units t) := by
  have hone : ∀ t' : Tick, ∀ e : Event, t'.events = t.events → sceneOf p e ([], []) = ([], []) →
      Sends p scene t (t'.emit e) := by
    intro t' e hevents he
    refine ⟨[e], congrArg (· ++ [e]) hevents, ?_, ?_⟩
    · exact congrArg Prod.fst he
    · rw [show scenes p [e] = ([], []) from he]
      nofun
  induction units generalizing t with
  | nil => exact .refl rfl
  | cons unit units ih =>
      have hnext : ∀ t' : Tick, Sends p scene t t' →
          Sends p scene t (trackUnits answers programId request temp units t') := by
        intro t' ht'
        refine ht'.trans (ih t' fun t'' e hevents he => ?_)
        refine ⟨[e], congrArg (· ++ [e]) hevents, congrArg Prod.fst he, ?_⟩
        rw [show scenes p [e] = ([], []) from he]
        nofun
      unfold trackUnits
      split
      next => exact hnext _ (hone t _ rfl rfl)
      next =>
        split
        next => exact hnext _ (hone _ _ rfl rfl)
        next => exact hnext _ (hone t _ rfl rfl)

/-- So a program's scenes are those of its due entries; a curve and a favourite have none. Each
due entry is one of the program's own, and its time is the pass's moment. -/
theorem runProgram_sends {env : Env} (p : Str) (answers : Outcomes) (units : List Nat)
    (now : LocalTime) {programs : List Program} {program : Program} (hprogram : program ∈ programs)
    (henabled : program.enabled = true) (t : Tick) :
    Sends p (IsScene programs units p now) t
      (runProgram env.sayDate env.toF64 answers units now t program) := by
  unfold runProgram
  split
  next hschedule =>
    rw [runSchedule_eq]
    refine fireDue_sends p answers units program _ _ (fun hid i hi entry hentry => ?_) t
    rw [← dueSlots_fst, List.mem_map] at hi
    obtain ⟨slot, hslot, rfl⟩ := hi
    obtain ⟨hget, hdue⟩ := mem_dueSlots.mp hslot
    obtain rfl : slot.2 = entry := Option.some.inj (hget.symm.trans hentry)
    exact ⟨program, hprogram, henabled, hschedule, hid, List.mem_of_getElem? hget, hdue, rfl⟩
  next =>
    split
    next =>
      unfold runCurve
      split
      next => exact .refl rfl
      next =>
        dsimp only
        split
        next => exact .refl rfl
        next => exact trackUnits_sends _ _ _ _ _ _ _
    next => exact .refl rfl

/-- **What a pass sends of a program**: nothing but the settings of the entries that fire, those to
every unit of the program. -/
theorem step_sends (env : Env) (p : Str) (state : ProgramState) (now : LocalTime)
    (answers : Outcomes) :
    SentToEach state.programs.programs state.units p now
      (step env state (.tick now answers)).1.events := by
  have hfold : ∀ (programs : List Program) (t : Tick),
      (∀ program ∈ programs, program ∈ state.programs.programs ∧ program.enabled = true) →
      Sends p (IsScene state.programs.programs state.units p now) t
        (programs.foldl (runProgram env.sayDate env.toF64 answers state.units now) t) := by
    intro programs
    induction programs with
    | nil => exact fun t _ => .refl rfl
    | cons program rest ih =>
        intro t hprograms
        obtain ⟨hprogram, hrest⟩ := List.forall_mem_cons.mp hprograms
        exact (runProgram_sends p answers state.units now hprogram.1 hprogram.2 t).trans
          (ih _ hrest)
  obtain ⟨more, hevents, hnone, hscenes⟩ := hfold (state.programs.programs.filter Program.enabled)
    ⟨state.scheduler, []⟩ fun program hprogram => List.mem_filter.mp hprogram
  have hevents' : (step env state (.tick now answers)).1.events = more := hevents
  rw [hevents']
  exact ⟨scenes_fired, hnone, hscenes⟩

/-- What has a moment is a pass. -/
theorem tick_of_moment {op : Op} {now : LocalTime} (h : op.moment = some now) :
    ∃ answers, op = .tick now answers := by
  cases op with
  | tick now' answers =>
      obtain rfl := Option.some.inj h
      exact ⟨answers, rfl⟩
  | create | update | delete | configure => cases h

/-- A request leaves the scheduler alone, and fires nothing. That holds for each of them whether
it is refused, fails to save, or succeeds. -/
theorem step_request (env : Env) (state : ProgramState) {op : Op} (h : op.moment = none) :
    (step env state op).2.scheduler = state.scheduler ∧ (step env state op).1.events = [] := by
  cases op with
  | create body idDraw saved =>
      refine ⟨?_, rfl⟩
      show (create env.toUppercase env.sayF64 state body idDraw saved).2.scheduler = _
      unfold create
      split
      next => rfl
      next =>
        split
        next => rfl
        next =>
          split
          next => rfl
          next => cases saved <;> rfl
  | update programId body saved =>
      refine ⟨?_, rfl⟩
      show (update env.toUppercase env.sayF64 state programId body saved).2.scheduler = _
      unfold update
      split
      next => rfl
      next =>
        split
        next => rfl
        next =>
          split
          next => rfl
          next => cases saved <;> rfl
  | delete programId saved =>
      refine ⟨?_, rfl⟩
      show (delete state programId saved).2.scheduler = _
      unfold delete
      split
      next => rfl
      next => cases saved <;> rfl
  | tick now answers => cases h
  | configure units => exact ⟨rfl, rfl⟩

/-! ## Runs -/

/-- An entry of a run. -/
abbrev Entry := Runs.Entry ProgramState Op Answer

/-- The minute of an entry that is a pass. -/
def minuteOfEntry (e : Entry) : Option Int := e.input.moment.map minuteOf

/-- The places of a program that are due at the passes in a minute, pass by pass. -/
def batches (p : Str) (m : Int) (tr : List Entry) : List (List (Nat × ScheduleEntry)) :=
  tr.filterMap fun e =>
    match e.input.moment with
    | none => none
    | some now => if minuteOf now = m then some (slots p now e.before.programs.programs) else none

/-- What the passes in a minute fire of a program, in order. -/
def firings (p : Str) (m : Int) (tr : List Entry) : List ScheduleEntry :=
  tr.flatMap fun e => if minuteOfEntry e = some m then firedUnder p e.output.events else []

/-- **Exactly once.**  No entry of a program fires twice in a minute, and every entry of an
enabled schedule that is due at a pass has fired in that minute when the pass is over; and what
fires is sent: at a pass the settings of a program's entries go out for the entries that fire, for
each of them to every unit the program covers, and at no other time. -/
structure FiresOnce (tr : List Entry) : Prop where
  atMostOnce : ∀ p m, (firings p m tr).Nodup
  sent : ∀ e ∈ tr, ∀ now, e.input.moment = some now → ∀ p,
    SentToEach e.before.programs.programs e.before.units p now e.output.events
  silent : ∀ e ∈ tr, e.input.moment = none → e.output.events = []
  fired : ∀ pre e post, tr = pre ++ e :: post → ∀ now, e.input.moment = some now →
    ∀ program ∈ e.before.programs.programs, program.enabled = true → program.isSchedule = true →
      ∀ entry ∈ program.schedule, entry.isDue now = true →
        entry ∈ firings program.id (minuteOf now) (pre ++ [e])

/-- The places keep up with the entries: at every pass, an entry that was due at an earlier
pass of the minute stands only where something due stood at such a pass, and one that was
not stands at one place where nothing due did. -/
def PlacesKept (tr : List Entry) : Prop :=
  ∀ pre e post, tr = pre ++ e :: post → ∀ now, e.input.moment = some now → ∀ p,
    Claims.Fits (batches p (minuteOf now) pre) (slots p now e.before.programs.programs)

/-- The passes of two stretches of a run. -/
theorem batches_append (p : Str) (m : Int) (tr tr' : List Entry) :
    batches p m (tr ++ tr') = batches p m tr ++ batches p m tr' := List.filterMap_append

/-- What fired in two runs, one after the other, is what fired in each. -/
theorem firings_append (p : Str) (m : Int) (tr tr' : List Entry) :
    firings p m (tr ++ tr') = firings p m tr ++ firings p m tr' := List.flatMap_append

/-- What was due at a pass. -/
theorem batches_pass (p : Str) {e : Entry} {now : LocalTime} (hnow : e.input.moment = some now) :
    batches p (minuteOf now) [e] = [slots p now e.before.programs.programs] := by
  simp [batches, hnow]

/-- The batches of a minute around one of its passes. -/
theorem batches_around (p : Str) {pre post : List Entry} {e : Entry} {now : LocalTime}
    (hnow : e.input.moment = some now) :
    batches p (minuteOf now) (pre ++ e :: post) = batches p (minuteOf now) pre ++
      slots p now e.before.programs.programs :: batches p (minuteOf now) post := by
  rw [List.append_cons, batches_append, batches_append, batches_pass p hnow, List.append_assoc]
  rfl

/-- Without a pass in the minute there is nothing due in it. -/
theorem batches_eq_nil {p : Str} {m : Int} {tr : List Entry}
    (h : ∀ e ∈ tr, ∀ now, e.input.moment = some now → minuteOf now ≠ m) : batches p m tr = [] := by
  unfold batches
  rw [List.filterMap_eq_nil_iff]
  intro e he
  split
  next => rfl
  next now hnow => rw [if_neg (h e he now hnow)]

/-- The moments of the passes among some entries. -/
def moments (tr : List Entry) : List LocalTime := tr.filterMap fun e => e.input.moment

/-- The minute does not go back when the clock does not. -/
theorem minuteOf_mono {a b : LocalTime} (h : a ≤ b) : minuteOf a ≤ minuteOf b :=
  Int.ediv_le_ediv (by decide) h

variable {env : Env}

/-- What the scheduler remembers, and that time does not go back: for every moment no
earlier than the passes so far, a place bears its stamp exactly when something was due
there at a pass in its minute. -/
structure Remembers (env : Env) (past : List Entry) (state : ProgramState) (rest : List Op) :
    Prop where
  ordered : (moments past ++ rest.filterMap Op.moment).Pairwise (· ≤ ·)
  fired : ∀ p i now, (∀ t ∈ moments past, minuteOf t ≤ minuteOf now) →
    (state.scheduler.fired (p, i) = some (minuteStamp env.sayDate now) ↔
      i ∈ Claims.keys (batches p (minuteOf now) past))

/-- What the scheduler remembers is what fired: a pass adds to it, and an edit leaves it alone.
The stamp has the date in it, so that the same minute of two days is not mistaken for one. -/
theorem remembers_step (hdates : Function.Injective env.sayDate) {past : List Entry}
    {state : ProgramState} {op : Op} {rest : List Op} (h : Remembers env past state (op :: rest)) :
    Remembers env (past ++ [entry (step env) state op]) (step env state op).2 rest := by
  cases hop : op.moment with
  | none =>
      have hsame : moments (past ++ [entry (step env) state op]) = moments past := by
        unfold moments
        rw [List.filterMap_append]
        simp [entry, hop]
      refine ⟨?_, ?_⟩
      · have hordered := h.ordered
        rw [List.filterMap_cons_none hop] at hordered
        rw [hsame]
        exact hordered
      · intro p i now hnow
        rw [hsame] at hnow
        have hbatches : batches p (minuteOf now) [entry (step env) state op] = [] := by
          simp [batches, entry, hop]
        rw [batches_append, hbatches, List.append_nil, (step_request env state hop).1]
        exact h.fired p i now hnow
  | some now' =>
      obtain ⟨answers, rfl⟩ := tick_of_moment hop
      have hordered := h.ordered
      rw [List.filterMap_cons_some hop] at hordered
      have hsame : moments (past ++ [entry (step env) state (.tick now' answers)]) =
          moments past ++ [now'] := List.filterMap_append
      refine ⟨?_, ?_⟩
      · rw [hsame, List.append_assoc]
        exact hordered
      intro p i now hnow
      rw [hsame] at hnow
      have hlast : minuteOf now' ≤ minuteOf now :=
        hnow now' (List.mem_append_right _ List.mem_cons_self)
      have hpast : ∀ t ∈ moments past, minuteOf t ≤ minuteOf now' := fun t ht =>
        minuteOf_mono ((List.pairwise_append.mp hordered).2.2 t ht now' List.mem_cons_self)
      have hold := h.fired p i now fun t ht => hnow t (List.mem_append_left _ ht)
      have hbatch : batches p (minuteOf now) [entry (step env) state (.tick now' answers)] =
          if minuteOf now' = minuteOf now then [slots p now' state.programs.programs] else [] := by
        simp only [batches, entry, Op.moment, List.filterMap_cons, List.filterMap_nil]
        split <;> simp_all
      rw [(step_fires env p state now' answers).2 i, batches_append, hbatch]
      by_cases hminute : minuteOf now' = minuteOf now
      · -- A pass in the same minute: what was due at it is claimed as well.
        rw [if_pos hminute, (minuteStamp_inj hdates).mpr hminute, Claims.keys, List.flatten_append,
          List.map_append, List.flatten_singleton, List.mem_append]
        split
        next hin => exact iff_of_true rfl (Or.inr hin)
        next hin => exact hold.trans (or_iff_left hin).symm
      · -- A pass in an earlier minute, and so were those before it.
        rw [if_neg hminute, List.append_nil]
        split
        next =>
          refine iff_of_false ?_ ?_
          · intro hstamp
            exact hminute ((minuteStamp_inj hdates).mp (Option.some.inj hstamp))
          · have hnone : batches p (minuteOf now) past = [] := by
              apply batches_eq_nil
              intro e he t ht
              have hle := hpast t (List.mem_filterMap.mpr ⟨e, he, ht⟩)
              omega
            rw [hnone]
            exact List.not_mem_nil
        next => exact hold

/-- At every pass of the entries, a program fires what is due at places where nothing due
stood earlier in the minute. -/
def FiresFresh (tr : List Entry) : Prop :=
  ∀ pre e post, tr = pre ++ e :: post → ∀ now, e.input.moment = some now → ∀ p,
    firedUnder p e.output.events = Claims.fresh (Claims.keys (batches p (minuteOf now) pre))
      (slots p now e.before.programs.programs)

/-- A run does, from a scheduler that remembers nothing. The step lemma carries what is remembered
from pass to pass, and each pass fires what is due and not remembered. -/
theorem trace_firesFresh (hdates : Function.Injective env.sayDate) {state : ProgramState}
    {ops : List Op} (hstart : ∀ key, state.scheduler.fired key = none)
    (hordered : (ops.filterMap Op.moment).Pairwise (· ≤ ·)) :
    FiresFresh (trace (step env) state ops) := by
  have hinit : Remembers env [] state ops := by
    refine ⟨hordered, ?_⟩
    intro p i now _
    rw [hstart]
    exact iff_of_false nofun List.not_mem_nil
  intro pre e post heq now hnow p
  obtain ⟨hentry, rest, hremembers⟩ := @history_trace _ _ _ _ (Remembers env)
    (fun past s i is h => remembers_step hdates h) ops state [] hinit pre e post heq
  rw [List.nil_append] at hremembers
  obtain ⟨answers, hinput⟩ := tick_of_moment hnow
  have hordered' := hremembers.ordered
  rw [hinput, List.filterMap_cons_some (show Op.moment (.tick now answers) = some now from rfl)]
    at hordered'
  have hpast : ∀ t ∈ moments pre, minuteOf t ≤ minuteOf now := fun t ht =>
    minuteOf_mono ((List.pairwise_append.mp hordered').2.2 t ht now List.mem_cons_self)
  have houtput : e.output = (step env e.before (.tick now answers)).1 := by
    rw [hentry, hinput]
    rfl
  rw [houtput]
  exact (step_fires env p e.before now answers).1 _ fun i =>
    (hremembers.fired p i now hpast).symm

/-- So all that fires is what the places due send, pass by pass. By induction from the last pass,
whose claims are those of all the passes in front of it. -/
theorem firings_eq_sent {tr : List Entry} (hfresh : FiresFresh tr)
    (hquiet : ∀ e ∈ tr, e.input.moment = none → e.output.events = []) (p : Str) (m : Int) :
    firings p m tr = Claims.sent (batches p m tr) := by
  induction tr using List.reverseRecOn with
  | nil => rfl
  | append_singleton pre e ih =>
      have hold := ih
        (fun pre' e' post heq => hfresh pre' e' (post ++ [e]) (by
          rw [heq, List.append_assoc, List.cons_append]))
        (fun e' he' => hquiet e' (List.mem_append_left _ he'))
      rw [firings_append, batches_append, hold]
      cases hnow : e.input.moment with
      | none => simp [firings, batches, minuteOfEntry, hnow]
      | some now =>
          by_cases hminute : minuteOf now = m
          · subst hminute
            have hfired : firings p (minuteOf now) [e] = firedUnder p e.output.events := by
              simp [firings, minuteOfEntry, hnow]
            rw [batches_pass p hnow, hfired, Claims.sent_concat, hfresh pre e [] rfl now hnow p]
          · simp [firings, batches, minuteOfEntry, hnow, hminute]

/-- The batches of a minute come from the passes in it. -/
theorem batches_split {p : Str} {m : Int} {tr : List Entry}
    {before after : List (List (Nat × ScheduleEntry))} {batch : List (Nat × ScheduleEntry)}
    (h : batches p m tr = before ++ batch :: after) :
    ∃ pre e post now, tr = pre ++ e :: post ∧ e.input.moment = some now ∧ minuteOf now = m ∧
      batches p m pre = before ∧ slots p now e.before.programs.programs = batch := by
  obtain ⟨pre, rest, rfl, hpre, hrest⟩ := List.filterMap_eq_append_iff.mp h
  obtain ⟨skipped, e, post, rfl, hskipped, he, -⟩ := List.filterMap_eq_cons_iff.mp hrest
  split at he
  next => cases he
  next now hnow =>
    split at he
    next hminute =>
      refine ⟨pre ++ skipped, e, post, now, (List.append_assoc _ _ _).symm, hnow, hminute, ?_,
        Option.some.inj he⟩
      have hnone : batches p m skipped = [] := List.filterMap_eq_nil_iff.mpr hskipped
      rw [batches_append, hnone, List.append_nil]
      exact hpre
    next => cases he

/-- The places fit the entries at every pass exactly when they do in every minute. -/
theorem placesKept_iff (tr : List Entry) :
    PlacesKept tr ↔ ∀ p m, Claims.Once (batches p m tr) := by
  constructor
  · intro h p m
    rw [Claims.once_iff]
    intro before batch after hsplit
    obtain ⟨pre, e, post, now, htr, hnow, rfl, rfl, rfl⟩ := batches_split hsplit
    exact h pre e post htr now hnow p
  · intro h pre e post htr now hnow p
    refine Claims.once_iff.mp (h p (minuteOf now)) _ _ (batches p (minuteOf now) post) ?_
    rw [htr, batches_around p hnow]

/-- The passes of a run, with their documents. -/
def passes (tr : List Entry) : List (LocalTime × List Program) :=
  tr.filterMap fun e => e.input.moment.map fun now => (now, e.before.programs.programs)

/-- The places keep up where, within a minute, a due entry always stands at its own place:
in no list twice, and in none of an id anywhere else. -/
theorem placesKept_of_own_place {tr : List Entry}
    (h : ∀ a ∈ passes tr, ∀ b ∈ passes tr, minuteOf a.1 = minuteOf b.1 →
      ∀ p ∈ a.2, ∀ q ∈ b.2, p.enabled = true → q.enabled = true → p.isSchedule = true →
        q.isSchedule = true → p.id = q.id → ∀ x ∈ dueSlots p.schedule a.1,
          ∀ y ∈ dueSlots q.schedule b.1, (x.1 = y.1 ↔ x.2 = y.2)) : PlacesKept tr := by
  intro pre e post htr now hnow p
  have hpass : ∀ e' ∈ tr, ∀ now', e'.input.moment = some now' →
      (now', e'.before.programs.programs) ∈ passes tr := by
    intro e' he' now' hnow'
    refine List.mem_filterMap.mpr ⟨e', he', ?_⟩
    rw [hnow', Option.map_some]
  apply Claims.fits_of_agree
  intro x hx y hy
  have hy' : ∃ e' ∈ tr, ∃ now', e'.input.moment = some now' ∧ minuteOf now' = minuteOf now ∧
      y ∈ slots p now' e'.before.programs.programs := by
    rcases List.mem_append.mp hy with hy | hy
    · obtain ⟨batch, hbatch, hy⟩ := List.mem_flatten.mp hy
      obtain ⟨e', he', hbatch⟩ := List.mem_filterMap.mp hbatch
      split at hbatch
      next => cases hbatch
      next now' hnow' =>
        split at hbatch
        next hminute =>
          obtain rfl := Option.some.inj hbatch
          exact ⟨e', htr ▸ List.mem_append_left _ he', now', hnow', hminute, hy⟩
        next => cases hbatch
    · exact ⟨e, htr ▸ List.mem_append_right _ List.mem_cons_self, now, hnow, rfl, hy⟩
  obtain ⟨e', he', now', hnow', hminute, hy⟩ := hy'
  obtain ⟨P, hP, hPenabled, hPschedule, hPid, hx⟩ := mem_slots.mp hx
  obtain ⟨Q, hQ, hQenabled, hQschedule, hQid, hy⟩ := mem_slots.mp hy
  exact h _ (hpass e (htr ▸ List.mem_append_right _ List.mem_cons_self) now hnow) _
    (hpass e' he' now' hnow') hminute.symm P hP Q hQ hPenabled hQenabled hPschedule hQschedule
    (hPid.trans hQid.symm) x (mem_dueSlots.mpr hx) y (mem_dueSlots.mpr hy)

/-- **Schedules fire once.**  From the start of the server and with a clock that does not
go back, every entry fires at most once in a minute, and at the first pass that finds it
due, exactly when the places of the lists keep up with the entries. -/
theorem fires_once_iff (hdates : Function.Injective env.sayDate) (state : ProgramState)
    (ops : List Op) (hstart : ∀ key, state.scheduler.fired key = none)
    (hordered : (ops.filterMap Op.moment).Pairwise (· ≤ ·)) :
    FiresOnce (trace (step env) state ops) ↔ PlacesKept (trace (step env) state ops) := by
  have hfresh := trace_firesFresh hdates hstart hordered
  have hquiet : ∀ e ∈ trace (step env) state ops, e.input.moment = none →
      e.output.events = [] := by
    intro e he hnone
    obtain ⟨hentry, -⟩ := @forall_trace _ _ _ _ (fun _ _ => True) (fun _ _ _ _ => trivial) ops state
      trivial e he
    rw [hentry]
    exact (step_request env e.before hnone).2
  have hsends : ∀ e ∈ trace (step env) state ops, ∀ now, e.input.moment = some now → ∀ p,
      SentToEach e.before.programs.programs e.before.units p now e.output.events := by
    intro e he now hnow p
    obtain ⟨hentry, -⟩ := @forall_trace _ _ _ _ (fun _ _ => True) (fun _ _ _ _ => trivial) ops state
      trivial e he
    obtain ⟨answers, hinput⟩ := tick_of_moment hnow
    have houtput : e.output = (step env e.before (.tick now answers)).1 := by
      rw [hentry, hinput]
      rfl
    rw [houtput]
    exact step_sends env p e.before now answers
  generalize trace (step env) state ops = tr at hfresh hquiet hsends ⊢
  have hsent := firings_eq_sent hfresh hquiet
  have hsentPre : ∀ pre post, tr = pre ++ post → ∀ p m,
      firings p m pre = Claims.sent (batches p m pre) := by
    rintro pre post rfl
    apply firings_eq_sent
    · intro pre' e post' heq
      refine hfresh pre' e (post' ++ post) ?_
      rw [heq, List.append_assoc, List.cons_append]
    · exact fun e he => hquiet e (List.mem_append_left _ he)
  rw [placesKept_iff]
  constructor
  · intro h p m
    refine ⟨hsent p m ▸ h.atMostOnce p m, ?_⟩
    intro before batch after hsplit x hx
    obtain ⟨pre, e, post, now, htr, hnow, rfl, rfl, rfl⟩ := batches_split hsplit
    obtain ⟨program, hprogram, henabled, hschedule, rfl, hget, hdue⟩ := mem_slots.mp hx
    have hfired := h.fired pre e post htr now hnow program hprogram henabled hschedule x.2
      (List.mem_of_getElem? hget) hdue
    rw [hsentPre (pre ++ [e]) post (by rw [htr, List.append_assoc]; rfl), batches_append,
      batches_pass _ hnow] at hfired
    exact hfired
  · intro h
    refine ⟨fun p m => hsent p m ▸ (h p m).nodup, hsends, hquiet, ?_⟩
    intro pre e post htr now hnow program hprogram henabled hschedule entry hentry hdue
    obtain ⟨i, hget⟩ := List.getElem?_of_mem hentry
    have hslot : (i, entry) ∈ slots program.id now e.before.programs.programs :=
      mem_slots.mpr ⟨program, hprogram, henabled, hschedule, rfl, hget, hdue⟩
    rw [hsentPre (pre ++ [e]) post (by rw [htr, List.append_assoc]; rfl), batches_append,
      batches_pass _ hnow]
    refine (h program.id (minuteOf now)).complete _ _ (batches program.id (minuteOf now) post) ?_
      (i, entry) hslot
    rw [htr, batches_around _ hnow]

/-- Nine in the evening, every day. -/
def nightEntry (settings : ControlRequest) : ScheduleEntry :=
  { time := "21:00".toList, settings := settings }

/-- A schedule for unit 7 with these settings at nine. -/
def nightSpec (settings : List ControlRequest) : ProgramSpec :=
  { name := "Night".toList, unitIds := ["7".toList], kind := "schedule"
    schedule := settings.map nightEntry }

/-- The store with a schedule that switches unit 7 off at nine. -/
def nightSchedule : ProgramState where
  units := [7]
  programs := ⟨[{ name := "Night".toList, unitIds := ["7".toList], kind := "schedule"
                  schedule := [nightEntry .powerOff], id := "a1".toList }]⟩

/-- Two passes in the minute, and an entry put behind the first in between. -/
def entryAdded : List Op :=
  [.tick (oneDayAt 21 0) fun _ => .ok (),
    .update "a1".toList (.ok (nightSpec [.powerOff, .powerOn])) (.ok ()),
    .tick (oneDayAt 21 0 + 30 * SECOND) fun _ => .ok ()]

/-- An entry is added behind the others between two passes of a minute. -/
theorem fires_once_entryAdded :
    FiresOnce (trace (step plainEnv) nightSchedule entryAdded) :=
  (@fires_once_iff plainEnv oneDate_injective nightSchedule entryAdded (fun _ => rfl)
    (by decide +kernel)).mpr (placesKept_of_own_place (by decide +kernel))

/-- The same run, but the entry is put in front of the others. -/
def entryInserted : List Op :=
  [.tick (oneDayAt 21 0) fun _ => .ok (),
    .update "a1".toList (.ok (nightSpec [.powerOn, .powerOff])) (.ok ()),
    .tick (oneDayAt 21 0 + 30 * SECOND) fun _ => .ok ()]

/-- The first entry fires twice, and the new one not at all. -/
theorem inserted_entry_missed :
    ¬ FiresOnce (trace (step plainEnv) nightSchedule entryInserted) := by
  intro h
  have htwice : firings "a1".toList (minuteOf (oneDayAt 21 0))
      (trace (step plainEnv) nightSchedule entryInserted) =
        [nightEntry .powerOff, nightEntry .powerOff] := by decide +kernel
  have hnodup := h.atMostOnce "a1".toList (minuteOf (oneDayAt 21 0))
  rw [htwice] at hnodup
  exact absurd hnodup (by decide)

end BreezeHttp.ProgramRoutes
