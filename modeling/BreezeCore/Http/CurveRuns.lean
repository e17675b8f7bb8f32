import BreezeCore.Http.ScheduleRuns

/-!
# Curves over runs of the scheduler

The scheduler remembers the setpoint a unit was last brought to by a program, and leaves
the unit alone while the curve has that setpoint.  The setpoint is one part of the request,
so this is right as long as nothing else was asked for since.

* `applyAll_sends` — a scene goes to every target once, in order;
* `lastSent_eq_lastAsked` — what a unit was sent last is what it was asked for last, where it was
  left alone rightly;
* `curves_tracked_iff` — units are left alone only when they were last sent the request,
  and have it after every pass, exactly when a remembered setpoint is part of what was
  asked for last.
-/

namespace BreezeHttp.ProgramRoutes

open Text BreezeStore Runs

/-! ## What is sent, and what is asked for -/

/-- The request an event sends to a unit for a program, whatever comes of it. -/
def Event.sentTo (p : Str) (u : Nat) : Event → Option ControlRequest
  | .applied programId unit request _ | .tracked programId unit request _ =>
      if programId = p ∧ unit = u then some request else none
  | _ => none

/-- The request a unit was sent last for a program. -/
def lastSent (p : Str) (u : Nat) (events : List Event) : Option ControlRequest :=
  (events.filterMap (Event.sentTo p u)).getLast?

/-- Every unit left alone was last sent the request it would get. -/
def KeptRight (events : List Event) : Prop :=
  ∀ before p u request after, events = before ++ .kept p u request :: after →
    lastSent p u before = some request

variable (env : Env)

/-- What a program asks its units for at a pass, in order: the settings of its due triggers
that are not yet claimed in this minute, or the request of its curve. -/
def asks (fired : Str × Nat → Option Str) (now : LocalTime) (program : Program) :
    List ControlRequest :=
  if program.isSchedule then
    ((dueSlots program.schedule now).filter fun x =>
      fired (program.id, x.1) ≠ some (minuteStamp env.sayDate now)).map fun x => x.2.settings
  else if program.isCurve then
    match program.curve with
    | none => []
    | some curve =>
        if (curveSetpoint env.toF64 curve.points now).isSome then [curveRequest env.toF64 curve now]
        else []
  else []

/-- What the enabled programs of an id ask a unit for. -/
def asksOf (p : Str) (u : Nat) (state : ProgramState) (now : LocalTime) : List ControlRequest :=
  (state.programs.programs.filter Program.enabled).flatMap fun program =>
    if program.id = p ∧ u ∈ targets state.units program then
      asks env state.scheduler.fired now program
    else []

/-- What a unit was asked for last, at the passes of a run. -/
def lastAsked (p : Str) (u : Nat) (tr : List Entry) : Option ControlRequest :=
  (tr.flatMap fun e =>
    match e.input.moment with
    | none => []
    | some now => asksOf env p u e.before now).getLast?

variable {env}

/-- The last request a unit was sent is in the second part, if there is one there. -/
theorem lastSent_append (p : Str) (u : Nat) (events more : List Event) :
    lastSent p u (events ++ more) = (lastSent p u more).or (lastSent p u events) := by
  unfold lastSent
  rw [List.filterMap_append, List.getLast?_append]

/-- Of one event it is what that event sends. -/
theorem lastSent_singleton (p : Str) (u : Nat) (e : Event) :
    lastSent p u [e] = e.sentTo p u := by
  unfold lastSent
  cases h : e.sentTo p u <;> simp [h]

/-- What is kept right over a stretch was kept right over its beginning. -/
theorem KeptRight.of_prefix {events more : List Event} (h : KeptRight (events ++ more)) :
    KeptRight events := by
  intro before p u request after heq
  refine h before p u request (after ++ more) ?_
  rw [heq, List.append_assoc, List.cons_append]

/-- Of each event alone: what it says is kept was the last thing sent before it. -/
theorem keptRight_iff_split {events : List Event} :
    KeptRight events ↔ ∀ before e after, events = before ++ e :: after →
      ∀ p u request, e = .kept p u request → lastSent p u before = some request := by
  constructor
  · rintro h before e after heq p u request rfl
    exact h before p u request after heq
  · intro h before p u request after heq
    exact h before _ after heq p u request rfl

/-- One event more is judged by what was last sent before it. -/
theorem keptRight_concat {events : List Event} {e : Event} :
    KeptRight (events ++ [e]) ↔ KeptRight events ∧
      ∀ p u request, e = .kept p u request → lastSent p u events = some request := by
  rw [keptRight_iff_split, keptRight_iff_split, Runs.forall_split_concat]

/-! ## One program at work -/

/-- An event sends nothing but to these units, for this program. -/
def Event.SendsUnder (id : Str) (units : List Nat) (e : Event) : Prop :=
  ∀ p u, e.sentTo p u ≠ none → p = id ∧ u ∈ units

/-- An event is the program's own when all it is sent to are the program's units. -/
theorem Event.sendsUnder_of {id : Str} {units : List Nat} {unit : Nat} (h : unit ∈ units)
    {request : ControlRequest} {e : Event}
    (he : ∀ p u, e.sentTo p u = if id = p ∧ unit = u then some request else none) :
    e.SendsUnder id units := by
  intro p u hsent
  rw [he] at hsent
  obtain ⟨⟨rfl, rfl⟩, -⟩ := ite_ne_right_iff.mp hsent
  exact ⟨rfl, h⟩

/-- Between two moments of a pass the programs of one id were at work, on these units. -/
structure Under (id : Str) (units : List Nat) (t t' : Tick) : Prop where
  events : ∃ more, t'.events = t.events ++ more ∧ ∀ e ∈ more, e.SendsUnder id units
  fired : ∀ p i, p ≠ id → t'.scheduler.fired (p, i) = t.scheduler.fired (p, i)
  curveApplied : ∀ p u, p ≠ id →
    t'.scheduler.curveApplied (p, u) = t.scheduler.curveApplied (p, u)

section Under

variable {id : Str} {units : List Nat} {t t' t'' : Tick}

/-- Nothing happened. -/
theorem Under.refl (id : Str) (units : List Nat) (t : Tick) : Under id units t t :=
  ⟨⟨[], (List.append_nil _).symm, List.forall_mem_nil _⟩, fun _ _ _ => rfl, fun _ _ _ => rfl⟩

/-- One stretch after the other. -/
theorem Under.trans (h : Under id units t t') (h' : Under id units t' t'') :
    Under id units t t'' := by
  obtain ⟨more, hmore, hid⟩ := h.events
  obtain ⟨more', hmore', hid'⟩ := h'.events
  refine ⟨⟨more ++ more', ?_, ?_⟩, ?_, ?_⟩
  · rw [hmore', hmore, List.append_assoc]
  · exact List.forall_mem_append.mpr ⟨hid, hid'⟩
  · exact fun p i hp => (h'.fired p i hp).trans (h.fired p i hp)
  · exact fun p u hp => (h'.curveApplied p u hp).trans (h.curveApplied p u hp)

/-- An event of the program's own. -/
theorem Under.emit (t : Tick) {e : Event} (he : e.SendsUnder id units) :
    Under id units t (t.emit e) :=
  ⟨⟨[e], rfl, List.forall_mem_singleton.mpr he⟩, fun _ _ _ => rfl, fun _ _ _ => rfl⟩

/-- Claiming a slot of the schedule touches no unit's record. -/
theorem Under.claim (t : Tick) (i : Nat) (stamp : Str) :
    Under id units t (t.claim (id, i) stamp) := by
  refine ⟨⟨[], (List.append_nil _).symm, List.forall_mem_nil _⟩, ?_, fun _ _ _ => rfl⟩
  intro p j hp
  exact Function.update_of_ne (fun h => hp (Prod.mk.inj h).1) _ _

/-- Remembering a setpoint changes the program's own record. -/
theorem Under.remember (t : Tick) (u : Nat) (temp : ℚ) :
    Under id units t (t.remember (id, u) temp) := by
  refine ⟨⟨[], (List.append_nil _).symm, List.forall_mem_nil _⟩, fun _ _ _ => rfl, ?_⟩
  intro p v hp
  exact Function.update_of_ne (fun h => hp (Prod.mk.inj h).1) _ _

/-- What others were sent stays what it was. -/
theorem Under.lastSent_eq (h : Under id units t t') {p : Str} {u : Nat}
    (hother : ¬ (p = id ∧ u ∈ units)) (history : List Event) :
    lastSent p u (history ++ t'.events) = lastSent p u (history ++ t.events) := by
  obtain ⟨more, hmore, hid⟩ := h.events
  have hnone : lastSent p u more = none := by
    have hnil : more.filterMap (Event.sentTo p u) = [] :=
      List.filterMap_eq_nil_iff.mpr fun e he =>
        not_not.mp fun hsent => hother (hid e he p u hsent)
    rw [lastSent, hnil]
    rfl
  rw [hmore, ← List.append_assoc, lastSent_append, hnone, Option.none_or]

/-- What was kept right before such a stretch is judged by what was there before it. -/
theorem Under.keptRight (h : Under id units t t') {history : List Event}
    (hkept : KeptRight (history ++ t'.events)) : KeptRight (history ++ t.events) := by
  obtain ⟨more, hmore, -⟩ := h.events
  rw [hmore, ← List.append_assoc] at hkept
  exact hkept.of_prefix

/-- Sending a scene is the program's own business. -/
theorem applyAll_under (answers : Outcomes) (settings : ControlRequest) {some : List Nat}
    (hsome : some ⊆ units) (t : Tick) :
    Under id units t (applyAll answers id settings some t) := by
  induction some generalizing t with
  | nil => exact .refl id units t
  | cons unit rest ih =>
      obtain ⟨hunit, hrest⟩ := List.cons_subset.mp hsome
      exact (Under.emit t (Event.sendsUnder_of hunit fun _ _ => rfl)).trans (ih hrest _)

/-- Following a curve keeps to the units it is given. Each of them is sent the request, or left
alone because its setpoint is remembered. -/
theorem trackUnits_under (answers : Outcomes) (request : ControlRequest) (temp : ℚ)
    {some : List Nat} (hsome : some ⊆ units) (t : Tick) :
    Under id units t (trackUnits answers id request temp some t) := by
  induction some generalizing t with
  | nil => exact .refl id units t
  | cons unit rest ih =>
      obtain ⟨hunit, hrest⟩ := List.cons_subset.mp hsome
      have hsend : ∀ (t' : Tick) (outcome : Except String Unit),
          Under id units t' (t'.emit (.tracked id unit request outcome)) := fun t' _ =>
        Under.emit t' (Event.sendsUnder_of hunit fun _ _ => rfl)
      unfold trackUnits
      split
      next => exact (Under.emit t fun _ _ h => absurd rfl h).trans (ih hrest _)
      next =>
        split
        next => exact ((Under.remember t unit temp).trans (hsend _ _)).trans (ih hrest _)
        next => exact (hsend _ _).trans (ih hrest _)

end Under

/-- Firing what is due keeps to the program's own units, as each trigger is applied to these and
no others. -/
theorem fireDue_under (answers : Outcomes) (units : List Nat) (program : Program) (stamp : Str)
    (due : List Nat) (t : Tick) :
    Under program.id (targets units program) t
      (fireDue answers units program stamp due t) := by
  induction due generalizing t with
  | nil => exact .refl _ _ t
  | cons i due ih =>
      unfold fireDue
      split
      next => exact ih t
      next =>
        split
        next => exact .refl _ _ t
        next entry _ =>
          have hclaim : Under program.id (targets units program) t
              ((t.claim (program.id, i) stamp).emit (.fired program.id entry)) :=
            (Under.claim t i stamp).trans (Under.emit _ fun _ _ h => absurd rfl h)
          exact (hclaim.trans (applyAll_under answers _ (List.Subset.refl _) _)).trans (ih _)

/-- A program, whatever its kind, keeps to its own units. A schedule sends for its due entries, a
curve for its setpoint, and a favourite sends nothing. -/
theorem runProgram_under (answers : Outcomes) (units : List Nat) (now : LocalTime) (t : Tick)
    (program : Program) :
    Under program.id (targets units program) t
      (runProgram env.sayDate env.toF64 answers units now t program) := by
  unfold runProgram
  split
  next =>
    unfold runSchedule
    dsimp only
    split
    next => exact .refl _ _ t
    next => exact fireDue_under _ _ _ _ _ _
  next =>
    split
    next =>
      unfold runCurve
      split
      next => exact .refl _ _ t
      next =>
        dsimp only
        split
        next => exact .refl _ _ t
        next => exact trackUnits_under _ _ _ (List.Subset.refl _) _
    next => exact .refl _ _ t

/-! ## What a program sends last -/

/-- **A scene** goes to its units one after the other, each once. -/
theorem applyAll_sends (answers : Outcomes) (p : Str) (settings : ControlRequest)
    (units : List Nat) (t : Tick) :
    (applyAll answers p settings units t).events = t.events ++
      units.mapIdx fun k unit => .applied p unit settings (answers (t.events.length + k)) := by
  induction units generalizing t with
  | nil => exact (List.append_nil _).symm
  | cons unit units ih =>
      unfold applyAll
      rw [ih, List.mapIdx_cons, Tick.emit, List.append_assoc, List.length_append]
      simp [Nat.add_comm, Nat.add_left_comm]

/-- Sending a scene marks nothing. -/
theorem applyAll_scheduler (answers : Outcomes) (p : Str) (settings : ControlRequest)
    (units : List Nat) (t : Tick) :
    (applyAll answers p settings units t).scheduler = t.scheduler := by
  induction units generalizing t with
  | nil => rfl
  | cons unit units ih => exact ih _

/-- The last request a unit was sent is the one of this event, if it sends one. -/
theorem lastSent_emit (p : Str) (u : Nat) (t : Tick) (e : Event) :
    lastSent p u (t.emit e).events = (e.sentTo p u).or (lastSent p u t.events) := by
  rw [Tick.emit, lastSent_append, lastSent_singleton]

/-- After a scene its units were last sent its settings. -/
theorem applyAll_lastSent (answers : Outcomes) (p : Str) (settings : ControlRequest)
    (units : List Nat) (t : Tick) (u : Nat) :
    lastSent p u (applyAll answers p settings units t).events =
      if u ∈ units then some settings else lastSent p u t.events := by
  induction units generalizing t with
  | nil => exact (if_neg List.not_mem_nil).symm
  | cons unit units ih =>
      unfold applyAll
      rw [ih, lastSent_emit]
      simp only [Event.sentTo, true_and]
      by_cases hrest : u ∈ units
      · rw [if_pos hrest, if_pos (List.mem_cons_of_mem _ hrest)]
      · rw [if_neg hrest]
        by_cases hunit : unit = u
        · rw [if_pos hunit, if_pos (hunit ▸ List.mem_cons_self), Option.some_or]
        · have hnot : u ∉ unit :: units := fun h =>
            (List.mem_cons.mp h).elim (fun h => hunit h.symm) hrest
          rw [if_neg hunit, if_neg hnot, Option.none_or]

/-- The due triggers leave a target with the last of them that was not claimed. By induction on
the triggers: each one that fires overwrites what the ones in front of it left. -/
theorem fireDue_lastSent (answers : Outcomes) (units : List Nat) (program : Program) (stamp : Str)
    (xs : List (Nat × ScheduleEntry)) (hxs : ∀ x ∈ xs, program.schedule[x.1]? = some x.2)
    (hnodup : (xs.map Prod.fst).Nodup) (t : Tick) {u : Nat} (hu : u ∈ targets units program) :
    lastSent program.id u (fireDue answers units program stamp (xs.map Prod.fst) t).events =
      ((xs.filter fun x => t.scheduler.fired (program.id, x.1) ≠ some stamp).map
        fun x => x.2.settings).getLast?.or (lastSent program.id u t.events) := by
  induction xs generalizing t with
  | nil => rfl
  | cons x xs ih =>
      obtain ⟨hentry, hrest⟩ := List.forall_mem_cons.mp hxs
      obtain ⟨hfresh, hnodup⟩ := List.nodup_cons.mp hnodup
      rw [List.map_cons, fireDue]
      by_cases hclaimed : t.scheduler.fired (program.id, x.1) = some stamp
      · rw [if_pos hclaimed, ih hrest hnodup, List.filter_cons_of_neg (by simpa using hclaimed)]
      · rw [if_neg hclaimed, hentry]
        dsimp only
        rw [ih hrest hnodup, applyAll_lastSent, applyAll_scheduler, if_pos hu,
          List.filter_cons_of_pos (by simpa using hclaimed), List.map_cons]
        -- Claiming this place leaves those behind it alone.
        have hsame : ∀ y ∈ xs,
            (t.claim (program.id, x.1) stamp).scheduler.fired (program.id, y.1) =
              t.scheduler.fired (program.id, y.1) := by
          intro y hy
          refine Function.update_of_ne ?_ _ _
          intro h
          rw [← (Prod.mk.inj h).2] at hfresh
          exact hfresh (List.mem_map_of_mem hy)
        have hfilter : (xs.filter fun y =>
            (t.claim (program.id, x.1) stamp).scheduler.fired (program.id, y.1) ≠ some stamp) =
              xs.filter fun y => t.scheduler.fired (program.id, y.1) ≠ some stamp := by
          apply List.filter_congr
          intro y hy
          rw [hsame y hy]
        have hemit : ((t.claim (program.id, x.1) stamp).emit
            (.fired program.id x.2)).scheduler =
              (t.claim (program.id, x.1) stamp).scheduler := rfl
        rw [hemit, hfilter, List.getLast?_cons]
        cases (xs.filter fun y =>
          t.scheduler.fired (program.id, y.1) ≠ some stamp).map fun y => y.2.settings with
        | nil => rfl
        | cons request requests => simp [List.getLast?_cons]

/-- More events behind the history. -/
theorem lastSent_history_emit (p : Str) (u : Nat) (history : List Event) (t : Tick) (e : Event) :
    lastSent p u (history ++ (t.emit e).events) =
      (e.sentTo p u).or (lastSent p u (history ++ t.events)) := by
  rw [lastSent_append, lastSent_emit, lastSent_append, Option.or_assoc]

/-- One event more: if it keeps a unit as it is, the unit was last sent what it is kept at. -/
theorem keptRight_emit {history : List Event} {t : Tick} {e : Event} :
    KeptRight (history ++ (t.emit e).events) ↔ KeptRight (history ++ t.events) ∧
      ∀ p u request, e = .kept p u request →
        lastSent p u (history ++ t.events) = some request := by
  rw [Tick.emit, ← List.append_assoc, keptRight_concat]

/-- The event leaves a unit alone. -/
def Event.isKept : Event → Bool
  | .kept _ _ _ => true
  | _ => false

/-- An event that keeps nothing changes nothing of it. -/
theorem keptRight_emit_other {history : List Event} {t : Tick} {e : Event}
    (he : e.isKept = false) :
    KeptRight (history ++ (t.emit e).events) ↔ KeptRight (history ++ t.events) := by
  rw [keptRight_emit]
  apply and_iff_left
  rintro p u request rfl
  cases he

/-- Where a curve leaves units alone rightly, it leaves all of them with its request. A unit it
sends to has the request from then on, and one it leaves alone had it already. -/
theorem trackUnits_lastSent (answers : Outcomes) (p : Str) (request : ControlRequest) (temp : ℚ)
    {history : List Event} (units : List Nat) (t : Tick) {u : Nat} (hu : u ∈ units)
    (hkept : KeptRight (history ++ (trackUnits answers p request temp units t).events)) :
    lastSent p u (history ++ (trackUnits answers p request temp units t).events) =
      some request := by
  -- What comes later leaves the unit with this request too.
  have hlater : ∀ (units : List Nat) (t : Tick),
      KeptRight (history ++ (trackUnits answers p request temp units t).events) →
      lastSent p u (history ++ t.events) = some request →
      lastSent p u (history ++ (trackUnits answers p request temp units t).events) =
        some request := by
    intro units
    induction units with
    | nil => exact fun t _ hlast => hlast
    | cons unit units ih =>
        intro t hkept hlast
        unfold trackUnits at hkept ⊢
        split at hkept
        next hremembered =>
          rw [if_pos hremembered]
          exact ih _ hkept ((lastSent_history_emit _ _ _ _ _).trans hlast)
        next hremembered =>
          rw [if_neg hremembered]
          have hsent : ∀ (t' : Tick) (outcome : Except String Unit), t'.events = t.events →
              lastSent p u (history ++ (t'.emit (.tracked p unit request outcome)).events) =
                some request := by
            intro t' outcome hevents
            rw [lastSent_history_emit, hevents, hlast]
            simp only [Event.sentTo, true_and]
            split <;> rfl
          split at hkept
          next houtcome => exact ih _ hkept (hsent _ _ rfl)
          next houtcome => exact ih _ hkept (hsent _ _ rfl)
  induction units generalizing t with
  | nil => cases hu
  | cons unit units ih =>
      rcases List.mem_cons.mp hu with rfl | hu
      · unfold trackUnits at hkept ⊢
        split at hkept
        next hremembered =>
          rw [if_pos hremembered]
          have hstep := (trackUnits_under answers request temp (List.Subset.refl units)
            (t.emit (.kept p u request))).keptRight hkept
          have hlast := (keptRight_emit.mp hstep).2 p u request rfl
          exact hlater _ _ hkept ((lastSent_history_emit _ _ _ _ _).trans hlast)
        next hremembered =>
          rw [if_neg hremembered]
          have hsent : ∀ (t' : Tick) (outcome : Except String Unit),
              lastSent p u (history ++ (t'.emit (.tracked p u request outcome)).events) =
                some request := by
            intro t' outcome
            rw [lastSent_history_emit, Event.sentTo, if_pos ⟨rfl, rfl⟩, Option.some_or]
          split at hkept
          next houtcome => exact hlater _ _ hkept (hsent _ _)
          next houtcome => exact hlater _ _ hkept (hsent _ _)
      · unfold trackUnits at hkept ⊢
        split at hkept
        next hremembered =>
          rw [if_pos hremembered]
          exact ih _ hu hkept
        next hremembered =>
          rw [if_neg hremembered]
          split at hkept
          next houtcome => exact ih _ hu hkept
          next houtcome => exact ih _ hu hkept

/-- Units were left alone rightly so far, and of these units each whose setpoint is
remembered was last sent the request. -/
structure Backed (p : Str) (request : ControlRequest) (temp : ℚ) (history : List Event)
    (units : List Nat) (t : Tick) : Prop where
  kept : KeptRight (history ++ t.events)
  sent : ∀ u ∈ units, t.scheduler.curveApplied (p, u) = some temp →
    lastSent p u (history ++ t.events) = some request

section Backed

variable {p : Str} {request : ControlRequest} {temp : ℚ} {history : List Event}
  {unit : Nat} {units : List Nat} {t : Tick}

/-- The first unit is left alone. Then it must have been sent this request last, which is what the
condition says of it. -/
theorem backed_keep (hremembered : t.scheduler.curveApplied (p, unit) = some temp) :
    Backed p request temp history units (t.emit (.kept p unit request)) ↔
      Backed p request temp history (unit :: units) t := by
  constructor
  · rintro ⟨hkept, hsent⟩
    obtain ⟨hold, hnow⟩ := keptRight_emit.mp hkept
    refine ⟨hold, ?_⟩
    intro u hu hsame
    rcases List.mem_cons.mp hu with rfl | hu
    · exact hnow p u request rfl
    · exact (lastSent_history_emit _ _ _ _ _).symm.trans (hsent u hu hsame)
  · rintro ⟨hold, hsent⟩
    refine ⟨keptRight_emit.mpr ⟨hold, ?_⟩, ?_⟩
    · intro p' u' request' heq
      obtain ⟨rfl, rfl, rfl⟩ := Event.kept.inj heq
      exact hsent _ List.mem_cons_self hremembered
    · intro u hu hsame
      exact (lastSent_history_emit _ _ _ _ _).trans
        (hsent u (List.mem_cons_of_mem _ hu) hsame)

/-- The first unit is sent the request, which makes it right and changes nothing for the
others. -/
theorem backed_send (hremembered : t.scheduler.curveApplied (p, unit) ≠ some temp) (t' : Tick)
    (hevents : t'.events = t.events)
    (hothers : ∀ u, u ≠ unit →
      t'.scheduler.curveApplied (p, u) = t.scheduler.curveApplied (p, u))
    (outcome : Except String Unit) :
    Backed p request temp history units (t'.emit (.tracked p unit request outcome)) ↔
      Backed p request temp history (unit :: units) t := by
  have hkept : KeptRight (history ++ (t'.emit (.tracked p unit request outcome)).events) ↔
      KeptRight (history ++ t.events) := by
    rw [keptRight_emit_other rfl, hevents]
  have hlast : ∀ u, u ≠ unit →
      lastSent p u (history ++ (t'.emit (.tracked p unit request outcome)).events) =
        lastSent p u (history ++ t.events) := by
    intro u hu
    rw [lastSent_history_emit, hevents, Event.sentTo, if_neg fun h => hu h.2.symm, Option.none_or]
  constructor
  · rintro ⟨hall, hsent⟩
    refine ⟨hkept.mp hall, ?_⟩
    intro u hu hsame
    rcases List.mem_cons.mp hu with rfl | hu
    · exact absurd hsame hremembered
    · have hunit : u ≠ unit := by
        rintro rfl
        exact hremembered hsame
      rw [← hlast u hunit]
      exact hsent u hu ((hothers u hunit).trans hsame)
  · rintro ⟨hold, hsent⟩
    refine ⟨hkept.mpr hold, ?_⟩
    intro u hu hsame
    by_cases hunit : u = unit
    · subst hunit
      rw [lastSent_history_emit, Event.sentTo, if_pos ⟨rfl, rfl⟩, Option.some_or]
    · rw [hlast u hunit]
      exact hsent u (List.mem_cons_of_mem _ hu) ((hothers u hunit).symm.trans hsame)

end Backed

/-- **A curve leaves units alone rightly** exactly when each of its units whose setpoint is
remembered was last sent its request. -/
theorem trackUnits_keptRight_iff (answers : Outcomes) (p : Str) (request : ControlRequest)
    (temp : ℚ) {history : List Event} (units : List Nat) (t : Tick) :
    KeptRight (history ++ (trackUnits answers p request temp units t).events) ↔
      Backed p request temp history units t := by
  induction units generalizing t with
  | nil => exact ⟨fun h => ⟨h, List.forall_mem_nil _⟩, Backed.kept⟩
  | cons unit units ih =>
      unfold trackUnits
      split
      next hremembered => exact (ih _).trans (backed_keep hremembered)
      next hremembered =>
        split
        next houtcome =>
          refine (ih _).trans (backed_send hremembered (t.remember (p, unit) temp) rfl ?_ _)
          intro u hu
          exact Function.update_of_ne (fun h => hu (Prod.mk.inj h).2) _ _
        next houtcome => exact (ih _).trans (backed_send hremembered t rfl (fun _ _ => rfl) _)

/-! ## One pass -/

/-- The units of a program whose remembered setpoint is the curve's were last sent its
request. -/
def Settled (env : Env) (units : List Nat) (now : LocalTime) (curveApplied : Str × Nat → Option ℚ)
    (last : Str → Nat → Option ControlRequest) (program : Program) : Prop :=
  program.isCurve = true → ∀ curve ∈ program.curve,
    ∀ temp ∈ curveSetpoint env.toF64 curve.points now, ∀ u ∈ targets units program,
      curveApplied (program.id, u) = some temp →
        last program.id u = some (curveRequest env.toF64 curve now)

instance (env : Env) (units : List Nat) (now : LocalTime) (curveApplied : Str × Nat → Option ℚ)
    (last : Str → Nat → Option ControlRequest) (program : Program) :
    Decidable (Settled env units now curveApplied last program) :=
  inferInstanceAs (Decidable (_ → ∀ curve ∈ program.curve, _))

/-- A program has one kind. -/
theorem not_isSchedule_of_isCurve {program : Program} (h : program.isCurve = true) :
    program.isSchedule = false := by
  have hkind : program.kind = "curve" := of_decide_eq_true h
  unfold Program.isSchedule
  rw [hkind]
  decide

/-- A curve at work. -/
theorem runProgram_curve {answers : Outcomes} {units : List Nat} {now : LocalTime} {t : Tick}
    {program : Program} (hcurve : program.isCurve = true) {curve : CurveConfig}
    (hsome : program.curve = some curve) {temp : ℚ}
    (htemp : curveSetpoint env.toF64 curve.points now = some temp) :
    runProgram env.sayDate env.toF64 answers units now t program =
      trackUnits answers program.id (curveRequest env.toF64 curve now) temp
        (targets units program) t := by
  have hrequest : (curveRequest env.toF64 curve now).targetTemperature = some temp := htemp
  unfold runProgram runCurve
  rw [not_isSchedule_of_isCurve hcurve, if_neg Bool.false_ne_true, if_pos hcurve, hsome]
  dsimp only
  rw [hrequest]

/-- Any other program leaves no unit alone. A curve without a setpoint does nothing at all, and a
schedule sends whatever is due. -/
theorem runProgram_other {answers : Outcomes} {units : List Nat} {now : LocalTime} {t : Tick}
    {program : Program}
    (hnone : program.isCurve = true → ∀ curve, program.curve = some curve →
      curveSetpoint env.toF64 curve.points now = none) :
    runProgram env.sayDate env.toF64 answers units now t program =
      if program.isSchedule then runSchedule env.sayDate answers units program now t else t := by
  unfold runProgram
  split
  next => rfl
  next =>
    split
    next hcurve =>
      unfold runCurve
      split
      next => rfl
      next curve hsome =>
        have hrequest : (curveRequest env.toF64 curve now).targetTemperature = none :=
          hnone hcurve curve hsome
        dsimp only
        rw [hrequest]
    next => rfl

/-- A scene keeps no unit as it is, so nothing can be wrong with it. -/
theorem applyAll_keptRight {answers : Outcomes} {p : Str} {settings : ControlRequest}
    {units : List Nat} {t : Tick} {history : List Event} (h : KeptRight (history ++ t.events)) :
    KeptRight (history ++ (applyAll answers p settings units t).events) := by
  induction units generalizing t with
  | nil => exact h
  | cons unit units ih => exact ih ((keptRight_emit_other rfl).mpr h)

/-- Firing what is due leaves no unit alone. -/
theorem fireDue_keptRight {answers : Outcomes} {units : List Nat} {program : Program} {stamp : Str}
    {due : List Nat} {t : Tick} {history : List Event} (h : KeptRight (history ++ t.events)) :
    KeptRight (history ++ (fireDue answers units program stamp due t).events) := by
  induction due generalizing t with
  | nil => exact h
  | cons i due ih =>
      unfold fireDue
      split
      next => exact ih h
      next =>
        split
        next => exact h
        next => exact ih (applyAll_keptRight ((keptRight_emit_other rfl).mpr h))

/-- A schedule leaves no unit alone, as it keeps no setpoints. -/
theorem runSchedule_keptRight {answers : Outcomes} {units : List Nat} {program : Program}
    {now : LocalTime} {t : Tick} {history : List Event} (h : KeptRight (history ++ t.events)) :
    KeptRight (history ++ (runSchedule env.sayDate answers units program now t).events) := by
  unfold runSchedule
  dsimp only
  split
  next => exact h
  next => exact fireDue_keptRight h

/-- One program leaves units alone rightly exactly when it is settled. Only a curve with a
setpoint leaves any alone, namely those the scheduler has its setpoint noted for. -/
theorem runProgram_keptRight_iff (answers : Outcomes) (units : List Nat) (now : LocalTime)
    (t : Tick) (program : Program) (history : List Event) :
    KeptRight (history ++
        (runProgram env.sayDate env.toF64 answers units now t program).events) ↔
      KeptRight (history ++ t.events) ∧ Settled env units now t.scheduler.curveApplied
        (fun p u => lastSent p u (history ++ t.events)) program := by
  by_cases hnone : program.isCurve = true → ∀ curve, program.curve = some curve →
      curveSetpoint env.toF64 curve.points now = none
  · have hunder := @runProgram_under env answers units now t program
    constructor
    · intro h
      refine ⟨hunder.keptRight h, ?_⟩
      intro hcurve curve hsome temp htemp
      rw [hnone hcurve curve hsome] at htemp
      cases htemp
    · rintro ⟨hold, -⟩
      rw [runProgram_other hnone]
      split
      next => exact runSchedule_keptRight hold
      next => exact hold
  · push Not at hnone
    obtain ⟨hcurve, curve, hsome, hne⟩ := hnone
    obtain ⟨temp, htemp⟩ := Option.ne_none_iff_exists'.mp hne
    rw [runProgram_curve hcurve hsome htemp, trackUnits_keptRight_iff]
    constructor
    · rintro ⟨hkept, hsent⟩
      refine ⟨hkept, ?_⟩
      intro _ curve' hsome' temp' htemp'
      obtain rfl := Option.some.inj (hsome.symm.trans hsome')
      obtain rfl := Option.some.inj (htemp.symm.trans htemp')
      exact hsent
    · rintro ⟨hkept, hsettled⟩
      exact ⟨hkept, hsettled hcurve curve hsome temp htemp⟩

/-- What a program leaves a unit with. That is the last thing it asks for at this moment, or what
the unit had when it asks for nothing or does not cover the unit. -/
theorem runProgram_lastSent (answers : Outcomes) (units : List Nat) (now : LocalTime)
    (t : Tick) (program : Program) {history : List Event} (u : Nat)
    (hkept : KeptRight (history ++
      (runProgram env.sayDate env.toF64 answers units now t program).events)) :
    lastSent program.id u (history ++
        (runProgram env.sayDate env.toF64 answers units now t program).events) =
      (if u ∈ targets units program then asks env t.scheduler.fired now program
        else []).getLast?.or (lastSent program.id u (history ++ t.events)) := by
  by_cases hu : u ∈ targets units program
  swap
  · rw [(runProgram_under answers units now t program).lastSent_eq (fun h => hu h.2), if_neg hu]
    rfl
  rw [if_pos hu]
  by_cases hnone : program.isCurve = true → ∀ curve, program.curve = some curve →
      curveSetpoint env.toF64 curve.points now = none
  · rw [runProgram_other hnone]
    unfold asks
    split
    next hschedule =>
      have hdue := fireDue_lastSent answers units program (minuteStamp env.sayDate now)
        (dueSlots program.schedule now) (fun x hx => (mem_dueSlots.mp hx).1)
        (dueSlots_nodup program.schedule now) t hu
      rw [dueSlots_fst] at hdue
      rw [runSchedule_eq, lastSent_append, hdue, lastSent_append, Option.or_assoc]
    next hschedule =>
      split
      next hcurve =>
        split
        next => rfl
        next curve hsome =>
          rw [hnone hcurve curve hsome]
          rfl
      next => rfl
  · push Not at hnone
    obtain ⟨hcurve, curve, hsome, hne⟩ := hnone
    obtain ⟨temp, htemp⟩ := Option.ne_none_iff_exists'.mp hne
    rw [runProgram_curve hcurve hsome htemp] at hkept ⊢
    rw [trackUnits_lastSent answers program.id _ temp _ t hu hkept]
    have hasks : asks env t.scheduler.fired now program = [curveRequest env.toF64 curve now] := by
      unfold asks
      rw [not_isSchedule_of_isCurve hcurve, if_neg Bool.false_ne_true, if_pos hcurve, hsome]
      dsimp only
      rw [htemp]
      rfl
    rw [hasks]
    rfl

/-- Whether a curve may be kept depends on what is remembered and last sent for this program
alone. -/
theorem Settled.congr {env : Env} {units : List Nat} {now : LocalTime}
    {applied applied' : Str × Nat → Option ℚ} {last last' : Str → Nat → Option ControlRequest}
    {program : Program} (happlied : ∀ u, applied' (program.id, u) = applied (program.id, u))
    (hlast : ∀ u, last' program.id u = last program.id u) :
    Settled env units now applied' last' program ↔ Settled env units now applied last program := by
  simp only [Settled, happlied, hlast]

/-- **A pass leaves units alone rightly** exactly when all its programs are settled. -/
theorem foldl_keptRight_iff (answers : Outcomes) (units : List Nat) (now : LocalTime)
    {programs : List Program} (hids : (programs.map Program.id).Nodup) (t : Tick)
    (history : List Event) :
    KeptRight (history ++ (programs.foldl
        (runProgram env.sayDate env.toF64 answers units now) t).events) ↔
      KeptRight (history ++ t.events) ∧ ∀ program ∈ programs,
        Settled env units now t.scheduler.curveApplied
          (fun p u => lastSent p u (history ++ t.events)) program := by
  induction programs generalizing t with
  | nil => exact (and_iff_left (List.forall_mem_nil _)).symm
  | cons program programs ih =>
      obtain ⟨hfresh, hids⟩ := List.nodup_cons.mp hids
      have hunder := @runProgram_under env answers units now t program
      have hothers : ∀ other ∈ programs, other.id ≠ program.id := fun other hother heq =>
        hfresh (heq ▸ List.mem_map_of_mem hother)
      rw [List.foldl_cons, ih hids, runProgram_keptRight_iff, List.forall_mem_cons, and_assoc]
      refine and_congr_right fun _ => and_congr_right fun _ => ?_
      refine forall₂_congr fun other hother => Settled.congr ?_ ?_
      · exact fun u => hunder.curveApplied _ u (hothers other hother)
      · exact fun u => hunder.lastSent_eq (fun h => hothers other hother h.1) history

/-- **What a pass leaves a unit with**: what its programs ask for last. By induction on the
programs, as each works under its own id and leaves the marks of the others alone. -/
theorem foldl_lastSent (answers : Outcomes) (units : List Nat) (now : LocalTime)
    {programs : List Program} (hids : (programs.map Program.id).Nodup) (t : Tick)
    {history : List Event} (p : Str) (u : Nat)
    (hkept : KeptRight (history ++ (programs.foldl
      (runProgram env.sayDate env.toF64 answers units now) t).events)) :
    lastSent p u (history ++ (programs.foldl
        (runProgram env.sayDate env.toF64 answers units now) t).events) =
      (programs.flatMap fun program =>
        if program.id = p ∧ u ∈ targets units program then asks env t.scheduler.fired now program
        else []).getLast?.or (lastSent p u (history ++ t.events)) := by
  induction programs generalizing t with
  | nil => rfl
  | cons program programs ih =>
      obtain ⟨hfresh, hids'⟩ := List.nodup_cons.mp hids
      have hunder := @runProgram_under env answers units now t program
      rw [List.foldl_cons] at hkept ⊢
      rw [ih hids' _ hkept, List.flatMap_cons, List.getLast?_append, Option.or_assoc]
      -- The triggers of the others are claimed as they were.
      have hrest : (programs.flatMap fun other =>
          if other.id = p ∧ u ∈ targets units other then asks env (runProgram env.sayDate env.toF64
            answers units now t program).scheduler.fired now other else []) =
          programs.flatMap fun other =>
            if other.id = p ∧ u ∈ targets units other then asks env t.scheduler.fired now other
            else [] := by
        apply List.flatMap_congr
        intro other hother
        have hne : other.id ≠ program.id := fun heq => hfresh (heq ▸ List.mem_map_of_mem hother)
        have hfired : ∀ i, (runProgram env.sayDate env.toF64 answers units now t
            program).scheduler.fired (other.id, i) = t.scheduler.fired (other.id, i) :=
          fun i => hunder.fired _ i hne
        unfold asks
        simp only [hfired]
      have hkept' := ((foldl_keptRight_iff answers units now hids' _ history).mp hkept).1
      rw [hrest]
      congr 1
      by_cases hid : program.id = p
      · subst hid
        rw [runProgram_lastSent answers units now t program u hkept']
        simp only [true_and]
      · rw [hunder.lastSent_eq (fun h => hid h.1.symm), if_neg fun h => hid h.1]
        rfl

/-! ## Runs -/

/-- Every curve of the document that has points has one whose time can be read. -/
def Readable (state : ProgramState) : Prop := ∀ program ∈ state.programs.programs, program.Readable

/-- What is created or replaced passed its checks, so it stays so. Every other step takes its
programs from those that are stored. -/
theorem step_readable {state : ProgramState} (h : Readable state) (op : Op) :
    Readable (step env state op).2 := by
  cases op with
  | create body idDraw saved =>
      show Readable (create env.toUppercase env.sayF64 state body idDraw saved).2
      unfold create
      split
      next => exact h
      next =>
        split
        next => exact h
        next =>
          split
          next => exact h
          next program hprogram =>
            cases saved with
            | error => exact fun p hp => h p (by simpa using hp)
            | ok =>
                intro p hp
                rcases List.mem_append.mp hp with hp | hp
                · exact h p hp
                · obtain rfl := List.mem_singleton.mp hp
                  exact (ProgramSpec.intoProgram_ok hprogram).1.readable
  | update programId body saved =>
      show Readable (update env.toUppercase env.sayF64 state programId body saved).2
      unfold update
      split
      next => exact h
      next =>
        split
        next => exact h
        next program hprogram =>
          split
          next => exact h
          next previous hprevious =>
            have hnew : ∀ p ∈ (state.programs.replace programId program).2.programs,
                p.Readable := by
              intro p hp
              rcases mem_replaceFirst hp with rfl | hp
              · exact (ProgramSpec.intoProgram_ok hprogram).1.readable
              · exact h p hp
            cases saved with
            | error =>
                intro p hp
                rcases mem_replaceFirst hp with rfl | hp
                · exact h _ (ProgramsDoc.mem_of_get hprevious).1
                · exact hnew p hp
            | ok => exact hnew
  | delete programId saved =>
      show Readable (delete state programId saved).2
      unfold delete
      split
      next => exact h
      next previous hprevious =>
        cases saved with
        | error =>
            intro p hp
            rcases List.mem_append.mp hp with hp | hp
            · exact h p (ProgramsDoc.mem_remove.mp hp).1
            · obtain rfl := List.mem_singleton.mp hp
              exact h _ (ProgramsDoc.mem_of_get hprevious).1
        | ok => exact fun p hp => h p (ProgramsDoc.mem_remove.mp hp).1
  | tick now answers => exact h
  | configure units => exact h

/-- All the events of some entries. -/
def eventsOf (tr : List Entry) : List Event := tr.flatMap fun e => e.output.events

/-- At every pass the enabled programs have different ids. -/
def OneProgramAnId (tr : List Entry) : Prop :=
  ∀ e ∈ tr, e.input.moment.isSome = true →
    ((e.before.programs.programs.filter Program.enabled).map Program.id).Nodup

instance (tr : List Entry) : Decidable (OneProgramAnId tr) :=
  inferInstanceAs (Decidable (∀ e ∈ tr, _ → _))

/-- Every send of some events worked. -/
def AllSent (events : List Event) : Prop :=
  ∀ p u request outcome, .applied p u request outcome ∈ events ∨
    .tracked p u request outcome ∈ events → outcome = .ok ()

/-- **Curves are tracked.**  A unit is left alone only when the last request the program
sent to it is the one it would get now.  After a pass whose sends all worked, the last
request an enabled curve with points sent to each of its units is the one it prescribes for
the moment of the pass. -/
structure Tracks (env : Env) (tr : List Entry) : Prop where
  skipped : KeptRight (eventsOf tr)
  tracked : ∀ pre e post, tr = pre ++ e :: post → ∀ now, e.input.moment = some now →
    AllSent e.output.events →
    ∀ program ∈ e.before.programs.programs, program.enabled = true → program.isCurve = true →
      ∀ curve, program.curve = some curve → curve.points ≠ [] →
        ∀ u ∈ targets e.before.units program,
          lastSent program.id u (eventsOf (pre ++ [e])) = some (curveRequest env.toF64 curve now)

/-- A remembered setpoint is part of what was asked for last: at every pass, a unit whose
remembered setpoint is that of an enabled curve was asked for the curve's whole request
when the programs of its id last asked it for anything. -/
def RememberedIsLast (env : Env) (tr : List Entry) : Prop :=
  ∀ pre e post, tr = pre ++ e :: post → ∀ now, e.input.moment = some now →
    ∀ program ∈ e.before.programs.programs, program.enabled = true →
      Settled env e.before.units now e.before.scheduler.curveApplied
        (fun p u => lastAsked env p u pre) program

/-- The entries are steps. -/
def Genuine (env : Env) (tr : List Entry) : Prop :=
  ∀ e ∈ tr, e = entry (step env) e.before e.input

/-- The events of two stretches of a run. -/
theorem eventsOf_append (tr tr' : List Entry) :
    eventsOf (tr ++ tr') = eventsOf tr ++ eventsOf tr' := List.flatMap_append

/-- The events of one step. -/
theorem eventsOf_singleton (e : Entry) : eventsOf [e] = e.output.events := List.flatMap_singleton ..

/-- The events of an entry that is a pass. -/
theorem events_of_pass {e : Entry} (he : e = entry (step env) e.before e.input) {now : LocalTime}
    (hnow : e.input.moment = some now) :
    ∃ answers, e.output.events = ((e.before.programs.programs.filter Program.enabled).foldl
      (runProgram env.sayDate env.toF64 answers e.before.units now)
      ⟨e.before.scheduler, []⟩).events := by
  rw [he]
  cases hinput : e.input with
  | tick now' answers =>
      rw [hinput] at hnow
      obtain rfl := Option.some.inj hnow
      exact ⟨answers, rfl⟩
  | create | update | delete | configure =>
      rw [hinput] at hnow
      cases hnow

/-- Any other entry has none. -/
theorem events_of_request {e : Entry} (he : e = entry (step env) e.before e.input)
    (hnone : e.input.moment = none) : e.output.events = [] := by
  rw [he]
  exact (step_request env e.before hnone).2

/-- One more pass leaves units alone rightly exactly when its programs are settled. -/
theorem keptRight_pass {pre : List Entry} {e : Entry}
    (he : e = entry (step env) e.before e.input) {now : LocalTime}
    (hnow : e.input.moment = some now) (hids : OneProgramAnId (pre ++ [e])) :
    KeptRight (eventsOf (pre ++ [e])) ↔ KeptRight (eventsOf pre) ∧
      ∀ program ∈ e.before.programs.programs, program.enabled = true →
        Settled env e.before.units now e.before.scheduler.curveApplied
          (fun p u => lastSent p u (eventsOf pre)) program := by
  obtain ⟨answers, hevents⟩ := events_of_pass he hnow
  have hnodup := hids e (List.mem_append_right _ List.mem_cons_self) (by rw [hnow]; rfl)
  have hpass := @foldl_keptRight_iff env answers e.before.units now _ hnodup
    ⟨e.before.scheduler, []⟩ (eventsOf pre)
  rw [← hevents] at hpass
  simp only [List.append_nil] at hpass
  rw [eventsOf_append, eventsOf_singleton, hpass]
  simp only [List.mem_filter, and_imp]

/-- What the documents asked for last at a pass, or before it. -/
theorem lastAsked_concat {p : Str} {u : Nat} {pre : List Entry} {e : Entry} {now : LocalTime}
    (hnow : e.input.moment = some now) : lastAsked env p u (pre ++ [e]) =
      (asksOf env p u e.before now).getLast?.or (lastAsked env p u pre) := by
  unfold lastAsked
  rw [List.flatMap_append, List.getLast?_append, List.flatMap_singleton, hnow]

/-- A request asks for nothing. -/
theorem lastAsked_concat_request {p : Str} {u : Nat} {pre : List Entry} {e : Entry}
    (hnone : e.input.moment = none) : lastAsked env p u (pre ++ [e]) = lastAsked env p u pre := by
  unfold lastAsked
  rw [List.flatMap_append, List.flatMap_singleton, hnone, List.append_nil]

/-- Where the ids differ, a unit is asked for what the one program asks. The list is cut at this
program, and nothing in front of it or behind it bears its id. -/
theorem asksOf_eq {state : ProgramState} {now : LocalTime}
    (hids : ((state.programs.programs.filter Program.enabled).map Program.id).Nodup)
    {program : Program} (hprogram : program ∈ state.programs.programs)
    (henabled : program.enabled = true) {u : Nat} (hu : u ∈ targets state.units program) :
    asksOf env program.id u state now = asks env state.scheduler.fired now program := by
  unfold asksOf
  have hmem : program ∈ state.programs.programs.filter Program.enabled :=
    List.mem_filter.mpr ⟨hprogram, henabled⟩
  generalize state.programs.programs.filter Program.enabled = programs at hids hmem
  obtain ⟨before, after, rfl⟩ := List.append_of_mem hmem
  rw [List.map_append, List.map_cons, List.nodup_middle, List.nodup_cons, List.mem_append] at hids
  have hnone : ∀ others : List Program, program.id ∉ others.map Program.id →
      (others.flatMap fun other =>
        if other.id = program.id ∧ u ∈ targets state.units other then
          asks env state.scheduler.fired now other
        else []) = [] := by
    intro others hothers
    rw [List.flatMap_eq_nil_iff]
    intro other hother
    have hid : other.id ≠ program.id := fun h => hothers (h ▸ List.mem_map_of_mem hother)
    rw [if_neg fun h => hid h.1]
  rw [List.flatMap_append, List.flatMap_cons, hnone before fun h => hids.1 (Or.inl h),
    hnone after fun h => hids.1 (Or.inr h), if_pos ⟨rfl, hu⟩, List.nil_append, List.append_nil]

/-- **What a unit was sent last** is what it was asked for last, where it was left alone
rightly. -/
theorem lastSent_eq_lastAsked {tr : List Entry} (hgenuine : Genuine env tr)
    (hids : OneProgramAnId tr) (hkept : KeptRight (eventsOf tr)) (p : Str) (u : Nat) :
    lastSent p u (eventsOf tr) = lastAsked env p u tr := by
  induction tr using List.reverseRecOn with
  | nil => rfl
  | append_singleton pre e ih =>
      have he := hgenuine e (List.mem_append_right _ List.mem_cons_self)
      have hkept' : KeptRight (eventsOf pre) := by
        rw [eventsOf_append] at hkept
        exact hkept.of_prefix
      have hpre := ih (fun e he => hgenuine e (List.mem_append_left _ he))
        (fun e he => hids e (List.mem_append_left _ he)) hkept'
      cases hnow : e.input.moment with
      | none =>
          rw [eventsOf_append, eventsOf_singleton, events_of_request he hnow, List.append_nil,
            lastAsked_concat_request hnow]
          exact hpre
      | some now =>
          obtain ⟨answers, hevents⟩ := events_of_pass he hnow
          have hnodup := hids e (List.mem_append_right _ List.mem_cons_self) (by rw [hnow]; rfl)
          rw [eventsOf_append, eventsOf_singleton, hevents] at hkept ⊢
          rw [foldl_lastSent answers e.before.units now hnodup _ p u hkept, List.append_nil,
            lastAsked_concat hnow, ← hpre]
          rfl

/-- With one program to an id, what the scheduler remembers is what it last sent exactly when what
it keeps is. By induction on the run, from its end. -/
theorem keptRight_iff_rememberedIsLast {tr : List Entry} (hgenuine : Genuine env tr)
    (hids : OneProgramAnId tr) : KeptRight (eventsOf tr) ↔ RememberedIsLast env tr := by
  induction tr using List.reverseRecOn with
  | nil =>
      refine iff_of_true ?_ forall_split_nil
      intro before p u request after heq
      cases (List.append_eq_nil_iff.mp heq.symm).2
  | append_singleton pre e ih =>
      have he := hgenuine e (List.mem_append_right _ List.mem_cons_self)
      have hgenuine' : Genuine env pre := fun e he => hgenuine e (List.mem_append_left _ he)
      have hids' : OneProgramAnId pre := fun e he => hids e (List.mem_append_left _ he)
      have hpre := ih hgenuine' hids'
      unfold RememberedIsLast at hpre ⊢
      rw [forall_split_concat, ← hpre]
      cases hnow : e.input.moment with
      | none =>
          rw [eventsOf_append, eventsOf_singleton, events_of_request he hnow, List.append_nil]
          exact (and_iff_left nofun).symm
      | some now =>
          rw [keptRight_pass he hnow hids]
          refine and_congr_right fun hkept => ?_
          have hlast := lastSent_eq_lastAsked hgenuine' hids' hkept
          simp only [hlast, Option.some.injEq, forall_eq']

/-- **Curves are tracked** over a run exactly when at every pass a remembered setpoint is
part of what was asked for last. -/
theorem curves_tracked_iff (state : ProgramState) (ops : List Op) (hread : Readable state)
    (hids : OneProgramAnId (trace (step env) state ops)) :
    Tracks env (trace (step env) state ops) ↔
      RememberedIsLast env (trace (step env) state ops) := by
  have hentries := @forall_trace _ _ _ (step env) (fun s _ => Readable s)
    (fun s i _ h => step_readable h i) ops state hread
  generalize trace (step env) state ops = tr at hentries hids ⊢
  have hgenuine : Genuine env tr := fun e he => (hentries e he).1
  rw [← keptRight_iff_rememberedIsLast hgenuine hids]
  refine ⟨Tracks.skipped, fun hkept => ⟨hkept, ?_⟩⟩
  intro pre e post htr now hnow _ program hprogram henabled hcurve curve hsome hpoints u hu
  have hmem : e ∈ tr := htr ▸ List.mem_append_right _ List.mem_cons_self
  have hsplit : tr = (pre ++ [e]) ++ post := by rw [htr, List.append_assoc]; rfl
  have hleft : ∀ e' ∈ pre ++ [e], e' ∈ tr := fun e' he' => hsplit ▸ List.mem_append_left _ he'
  have hkept' : KeptRight (eventsOf (pre ++ [e])) := by
    rw [hsplit, eventsOf_append] at hkept
    exact hkept.of_prefix
  have hread' : Readable e.before := (hentries e hmem).2.choose_spec
  have hisSome : (curveSetpoint env.toF64 curve.points now).isSome = true :=
    curveSetpoint_isSome.mpr (hread' program hprogram curve hsome hpoints)
  have hasks : asksOf env program.id u e.before now = [curveRequest env.toF64 curve now] := by
    rw [asksOf_eq (hids e hmem (by rw [hnow]; rfl)) hprogram henabled hu]
    unfold asks
    rw [not_isSchedule_of_isCurve hcurve, if_neg Bool.false_ne_true, if_pos hcurve, hsome]
    exact if_pos hisSome
  rw [lastSent_eq_lastAsked (fun e' he' => hgenuine e' (hleft e' he'))
    (fun e' he' => hids e' (hleft e' he')) hkept', lastAsked_concat hnow, hasks]
  rfl

/-- A curve of one point, the same temperature all day. -/
def steadySpec (operationalMode : String) (temperature : ℚ) : ProgramSpec :=
  { name := "Steady".toList, unitIds := ["7".toList], kind := "curve"
    curve := some { operationalMode := operationalMode
                    points := [{ time := "06:00".toList, temperature := temperature }] } }

/-- The store with such a curve, cooling unit 7 to 21 degrees. -/
def steadyCurve : ProgramState where
  units := [7]
  programs := ⟨[{ name := "Steady".toList, unitIds := ["7".toList], kind := "curve"
                  curve := (steadySpec "COOL" 21).curve, id := "a1".toList }]⟩

/-- Two passes, and the curve is changed in between. -/
def curveChanged (operationalMode : String) (temperature : ℚ) : List Op :=
  [.tick (oneDayAt 21 0) fun _ => .ok (),
    .update "a1".toList (.ok (steadySpec operationalMode temperature)) (.ok ()),
    .tick (oneDayAt 21 5) fun _ => .ok ()]

/-- Every time of the program below can be read. -/
theorem steadyCurve_readable : Readable steadyCurve := by
  intro program hprogram curve hcurve _
  obtain rfl := List.mem_singleton.mp hprogram
  obtain rfl := Option.some.inj hcurve
  exact ⟨_, List.mem_cons_self, by decide +kernel⟩

/-- A curve that changes its temperatures is followed. -/
theorem curves_tracked_warmer :
    Tracks plainEnv (trace (step plainEnv) steadyCurve (curveChanged "HEAT" 24)) := by
  refine (@curves_tracked_iff plainEnv steadyCurve (curveChanged "HEAT" 24)
    steadyCurve_readable (by decide +kernel)).mpr ?_
  refine forall_split_concat.mpr ⟨forall_split_concat.mpr ⟨forall_split_concat.mpr
    ⟨forall_split_nil, ?_⟩, ?_⟩, ?_⟩
  · rintro now hnow
    obtain rfl := Option.some.inj hnow
    decide +kernel
  · rintro now hnow
    cases hnow
  · rintro now hnow
    obtain rfl := Option.some.inj hnow
    decide +kernel

/-- With another mode at the same temperature, the unit goes on cooling. -/
theorem mode_not_tracked :
    ¬ Tracks plainEnv (trace (step plainEnv) steadyCurve (curveChanged "HEAT" 21)) := by
  intro h
  have hevents : ∃ first second, eventsOf (trace (step plainEnv) steadyCurve
      (curveChanged "HEAT" 21)) = [first] ++ Event.kept "a1".toList 7 second :: [] ∧
        lastSent "a1".toList 7 [first] ≠ some second :=
    ⟨.tracked "a1".toList 7 (curveRequest id { points := [⟨"06:00".toList, 21⟩] } 0) (.ok ()),
      curveRequest id { operationalMode := "HEAT", points := [⟨"06:00".toList, 21⟩] } 0,
      by decide +kernel, by decide +kernel⟩
  obtain ⟨first, second, hsplit, hne⟩ := hevents
  exact hne (h.skipped [first] "a1".toList 7 second [] hsplit)

end BreezeHttp.ProgramRoutes
