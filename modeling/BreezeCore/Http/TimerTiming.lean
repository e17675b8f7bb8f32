import BreezeCore.Http.TimerRuns

/-!
# When timers are applied

A pass reads the clock once, to the nanosecond, and compares with stamps of whole
seconds.  What is left until a stamp is cut to whole seconds, so a timer is due up to
a second before its moment: `isDue_iff`.

* `timers_timely` — in a run whose passes do not begin in the second before the moment
  of a timer, no timer is applied early and no start past its grace; a pass applies
  every sleep timer that is due to it; and a timer is not applied by two passes.  A pass
  that does begin there is about to apply some timer early;
* `applied_early` — a pass that begins half a second before applies the timer then.
-/

namespace BreezeHttp.TimerRoutes

open Bytes Text BreezeStore Runs

variable (clock : Clock)

/-! ## The moment of a timer -/

/-- The moment of the timer has come, or cannot be read. -/
def Reached (t : Timer) (now : LocalTime) : Prop :=
  ∀ due, clock.parseLocal t.firesAt = some due → due ≤ now

/-- The moment of the timer is less than a second away. -/
def imminent (t : Timer) (now : LocalTime) : Bool :=
  match clock.parseLocal t.firesAt with
  | none => false
  | some due => due - SECOND < now && now < due

/-- Less than a whole second is left, or nothing. -/
theorem whole_seconds_eq_zero (left : Int) : max (left.tdiv SECOND) 0 = 0 ↔ left < SECOND := by
  unfold SECOND
  by_cases hleft : 0 ≤ left
  · rw [Int.tdiv_eq_ediv_of_nonneg hleft]
    omega
  · have hneg : left.tdiv 1000000000 ≤ (0 : Int).tdiv 1000000000 :=
      Int.tdiv_le_tdiv (by decide) (by omega)
    rw [Int.zero_tdiv] at hneg
    omega

/-- Less than a second is left when the moment has come, or is in the next second. -/
theorem less_than_second (due now : Int) :
    due - now < SECOND ↔ due ≤ now ∨ (due - SECOND < now ∧ now < due) := by
  have hsecond : 0 < SECOND := by decide
  omega

/-- **A timer is due** when its moment has come, and also in the second before. -/
theorem isDue_iff (t : Timer) (now : LocalTime) :
    t.isDue clock now = true ↔ Reached clock t now ∨ imminent clock t now = true := by
  unfold Timer.isDue Timer.secondsRemaining Reached imminent
  cases clock.parseLocal t.firesAt with
  | none => exact iff_of_true rfl (.inl fun due hdue => by cases hdue)
  | some due =>
      have hreached : (∀ due', some due = some due' → due' ≤ now) ↔ due ≤ now :=
        ⟨fun h => h due rfl, fun h due' heq => Option.some.inj heq ▸ h⟩
      rw [hreached, decide_eq_true_iff]
      dsimp only
      rw [whole_seconds_eq_zero, Bool.and_eq_true, decide_eq_true_iff, decide_eq_true_iff]
      exact less_than_second due now

/-- In the second before, the timer is due, and not too late either. -/
theorem early_of_imminent {t : Timer} {now : LocalTime} (h : imminent clock t now = true) :
    t.isDue clock now = true ∧ t.missed clock now = false ∧ ¬ Reached clock t now := by
  refine ⟨(isDue_iff clock t now).mpr (.inr h), ?_⟩
  unfold imminent at h
  unfold Timer.missed Reached
  cases hparse : clock.parseLocal t.firesAt with
  | none =>
      rw [hparse] at h
      cases h
  | some due =>
      rw [hparse] at h
      have hbefore : now < due := of_decide_eq_true (Bool.and_eq_true_iff.mp h).2
      constructor
      · rw [Bool.and_eq_false_iff]
        right
        have hpast : now - due < 0 := sub_neg.mpr hbefore
        exact decide_eq_false (not_lt.mpr (hpast.le.trans (by decide)))
      · intro hreached
        exact absurd (hreached due rfl) (not_le.mpr hbefore)

/-- A start that is not missed has a moment, no more than its grace ago. -/
theorem grace_of_not_missed {t : Timer} {now : LocalTime} (hkind : t.kind = .start)
    (h : t.missed clock now = false) :
    ∃ due, clock.parseLocal t.firesAt = some due ∧ now ≤ due + START_GRACE_MINUTES * MINUTE := by
  unfold Timer.missed at h
  rw [hkind] at h
  cases hparse : clock.parseLocal t.firesAt with
  | none =>
      rw [hparse] at h
      cases h
  | some due =>
      rw [hparse] at h
      have hlate : now - due ≤ START_GRACE_MINUTES * MINUTE := not_lt.mp (of_decide_eq_false h)
      exact ⟨due, rfl, sub_le_iff_le_add'.mp hlate⟩

/-- A sleep timer is never too late. -/
theorem not_missed_of_sleep {t : Timer} (hkind : t.kind = .sleep) (now : LocalTime) :
    t.missed clock now = false := by
  unfold Timer.missed
  rw [hkind]
  rfl

/-! ## One pass -/

variable (toUppercase : String → String)

/-- A pass that begins does not read the clock in the second before the moment of a
timer. -/
def Clear (state : TimerState) : Op → Prop
  | .snapshot now => state.pass = none → ∀ t ∈ state.timers.timers, imminent clock t now = false
  | _ => True

instance (state : TimerState) (op : Op) : Decidable (Clear clock state op) := by
  unfold Clear
  split <;> infer_instance

/-- Any other pass is to apply some timer before its moment. -/
theorem early_of_not_clear {state : TimerState} {now : LocalTime}
    (h : ¬ Clear clock state (.snapshot now)) :
    ∃ t ∈ state.timers.due clock now, t.missed clock now = false ∧ ¬ Reached clock t now := by
  by_contra hnone
  refine h fun _ t ht => ?_
  by_contra himminent
  obtain ⟨hdue, hmissed, hearly⟩ := early_of_imminent clock (Bool.eq_true_of_not_eq_false himminent)
  exact hnone ⟨t, List.mem_filter.mpr ⟨ht, hdue⟩, hmissed, hearly⟩

/-- The pass is about timers whose moment has come, and sends none that was missed. -/
structure OnTime (pass : Pass) : Prop where
  reached : ∀ t ∈ pass.due, Reached clock t pass.now
  rest : ∀ t ∈ pass.rest, t ∈ pass.due
  sending : ∀ t units, pass.sending = some (t, units) →
    t ∈ pass.due ∧ t.missed clock pass.now = false

/-- **One step.** A pass that begins in the clear is about timers whose moment has come, and stays
so. -/
theorem onTime_step (state : TimerState) (op : Op) (hclear : Clear clock state op)
    (h : ∀ pass, state.pass = some pass → OnTime clock pass) :
    ∀ pass, (step clock toUppercase state op).2.pass = some pass → OnTime clock pass := by
  have hsection := step_section clock toUppercase state op
  generalize (step clock toUppercase state op).1 = answer at hsection
  generalize (step clock toUppercase state op).2 = state' at hsection ⊢
  intro pass' hpass'
  cases hsection with
  | created | cancelled | configured | idle => exact h pass' hpass'
  | began now free =>
      obtain rfl := Option.some.inj hpass'
      refine ⟨?_, fun t ht => ht, fun t units hsending => by cases hsending⟩
      intro t ht
      obtain ⟨hmem, hdue⟩ := List.mem_filter.mp ht
      rcases (isDue_iff clock t now).mp hdue with hreached | himminent
      · exact hreached
      · rw [hclear free t hmem] at himminent
        cases himminent
  | @skipped pass timer rest running next free missed =>
      obtain rfl := Option.some.inj hpass'
      have hold := h pass running
      exact ⟨hold.reached, fun t ht => hold.rest t (next ▸ List.mem_cons_of_mem timer ht),
        hold.sending⟩
  | @took pass timer rest running next free missed =>
      obtain rfl := Option.some.inj hpass'
      have hold := h pass running
      refine ⟨hold.reached, fun t ht => hold.rest t (next ▸ List.mem_cons_of_mem timer ht), ?_⟩
      intro t units hsending
      obtain ⟨rfl, -⟩ := Prod.mk.inj (Option.some.inj hsending)
      exact ⟨hold.rest timer (next ▸ List.mem_cons_self), missed⟩
  | @sent pass timer unit units fired errors outcome running next =>
      obtain rfl := Option.some.inj hpass'
      have hold := h pass running
      refine ⟨hold.reached, hold.rest, ?_⟩
      intro t units' hsending
      obtain ⟨rfl, -⟩ := Prod.mk.inj (Option.some.inj hsending)
      exact hold.sending timer (unit :: units) next
  | @done pass timer outcome running next =>
      obtain rfl := Option.some.inj hpass'
      have hold := h pass running
      exact ⟨hold.reached, hold.rest, fun t units hsending => by cases hsending⟩
  | finished saved running next free => cases hpass'

/-- The timer is taken up, or sent to a unit. -/
def Handles (e : Moment) (t : Timer) : Prop :=
  e.output = .took t ∨ ∃ unit, e.output = .applied t unit

variable {clock toUppercase}

/-- What is handled is of the pass in progress, and not missed. -/
theorem handled_cases {state : TimerState} {op : Op} {t : Timer}
    (h : Handles (entry (step clock toUppercase) state op) t)
    (hontime : ∀ pass, state.pass = some pass → OnTime clock pass) :
    ∃ pass, state.pass = some pass ∧ t ∈ pass.due ∧ t.missed clock pass.now = false := by
  have hsection := step_section clock toUppercase state op
  rcases h with htook | ⟨unit, happlied⟩
  · have htook' : (step clock toUppercase state op).1 = .took t := htook
    rw [htook'] at hsection
    generalize (step clock toUppercase state op).2 = state' at hsection
    cases hsection with
    | @took pass _ rest running next free missed =>
        exact ⟨pass, running, (hontime pass running).rest t (next ▸ List.mem_cons_self), missed⟩
  · have happlied' : (step clock toUppercase state op).1 = .applied t unit := happlied
    rw [happlied'] at hsection
    generalize (step clock toUppercase state op).2 = state' at hsection
    cases hsection with
    | @sent pass _ _ units fired errors outcome running next =>
        exact ⟨pass, running, (hontime pass running).sending t (unit :: units) next⟩

/-! ## The account of a pass -/

/-- The timer was taken up, and sent to each of its targets but for those still left. -/
def Served (since : List Moment) (t : Timer) (left : List Nat) : Prop :=
  ∃ e ∈ since, e.output = .took t ∧ ∀ unit ∈ targets e.before.units t,
    unit ∈ left ∨ ∃ e' ∈ since, e'.output = .applied t unit

/-- What was served stays served, with less left. -/
theorem Served.mono {since later : List Moment} {t : Timer} {left left' : List Nat}
    (h : Served since t left) (hsince : ∀ e ∈ since, e ∈ later)
    (hleft : ∀ unit ∈ left, unit ∈ left' ∨ ∃ e' ∈ later, e'.output = .applied t unit) :
    Served later t left' := by
  obtain ⟨e, he, htook, hunits⟩ := h
  refine ⟨e, hsince e he, htook, fun unit hunit => ?_⟩
  rcases hunits unit hunit with hstill | ⟨e', he', happlied⟩
  · exact hleft unit hstill
  · exact .inr ⟨e', hsince e' he', happlied⟩

/-- The units a pass has still to send a timer to. -/
def Pass.left (pass : Pass) (t : Timer) : List Nat :=
  match pass.sending with
  | some (t', units) => if t' = t then units else []
  | none => []

/-- What came since a pass began: its sleep timers are waiting, or dealt with. -/
structure Account (pass : Pass) (start : Moment) (since : List Moment) : Prop where
  began : start.input = .snapshot pass.now
  free : start.before.pass = none
  due : pass.due = start.before.timers.due clock pass.now
  running : ∀ e ∈ since, e.before.pass ≠ none
  dealt : ∀ t ∈ pass.due, t.kind = .sleep → t ∈ pass.rest ∨ Served since t (pass.left t)

/-- The pass in progress is accounted for. -/
def Accounted (clock : Clock) (past : List Moment) (state : TimerState) : Prop :=
  ∀ pass, state.pass = some pass → ∃ front start since,
    past = front ++ start :: since ∧ @Account clock pass start since

/-- A section of the pass is entered into its account. -/
theorem Accounted.go_on {past : List Moment} {e : Moment} {state' : TimerState} {pass pass' : Pass}
    (h : Accounted clock past e.before) (hrunning : e.before.pass = some pass)
    (hpass' : state'.pass = some pass') (hnow : pass'.now = pass.now) (hdue : pass'.due = pass.due)
    (hdealt : ∀ since, ∀ t ∈ pass.due, t.kind = .sleep →
      t ∈ pass.rest ∨ Served since t (pass.left t) →
      t ∈ pass'.rest ∨ Served (since ++ [e]) t (pass'.left t)) :
    Accounted clock (past ++ [e]) state' := by
  intro pass'' hpass''
  rw [hpass'] at hpass''
  obtain rfl := Option.some.inj hpass''
  obtain ⟨front, start, since, rfl, haccount⟩ := h pass hrunning
  refine ⟨front, start, since ++ [e], by rw [List.append_assoc, List.cons_append], ?_⟩
  constructor
  · rw [hnow]
    exact haccount.began
  · exact haccount.free
  · rw [hdue, hnow]
    exact haccount.due
  · rw [List.forall_mem_append, List.forall_mem_singleton]
    refine ⟨haccount.running, ?_⟩
    rw [hrunning]
    exact Option.some_ne_none pass
  · rw [hdue]
    exact fun t ht hkind => hdealt since t ht hkind (haccount.dealt t ht hkind)

/-- In particular as the run goes on. -/
theorem served_append {since : List Moment} (e : Moment) {t : Timer} {left left' : List Nat}
    (h : Served since t left) (hleft : ∀ unit ∈ left, unit ∈ left') :
    Served (since ++ [e]) t left' :=
  h.mono (fun _ he => List.mem_append_left _ he) fun unit hunit => .inl (hleft unit hunit)

variable (clock toUppercase)

/-- **One step.** Every section of the pass is entered: what is taken up is served, what is sent
leaves less, and what is passed over was no sleep timer. -/
theorem accounted_step (past : List Moment) (state : TimerState) (op : Op) (_ops : List Op)
    (h : Accounted clock past state) :
    Accounted clock (past ++ [entry (step clock toUppercase) state op])
      (step clock toUppercase state op).2 := by
  have hsection := step_section clock toUppercase state op
  have houtput : (entry (step clock toUppercase) state op).output =
      (step clock toUppercase state op).1 := rfl
  have hinput : (entry (step clock toUppercase) state op).input = op := rfl
  have hold : Accounted clock past (entry (step clock toUppercase) state op).before := h
  have hbefore : (entry (step clock toUppercase) state op).before = state := rfl
  generalize entry (step clock toUppercase) state op = e at houtput hinput hold hbefore ⊢
  generalize (step clock toUppercase state op).1 = answer at hsection houtput
  generalize (step clock toUppercase state op).2 = state' at hsection ⊢
  have hrunning : ∀ {pass}, state.pass = some pass → e.before.pass = some pass := by
    intro pass running
    rw [hbefore]
    exact running
  -- The document and the units may change beside the pass.
  have hbeside : ∀ doc units, Accounted clock (past ++ [e])
      { state with timers := doc, units := units } := by
    intro doc units pass hpass
    exact hold.go_on (hrunning hpass) hpass rfl rfl
      (fun since t _ _ hdealt => hdealt.imp_right fun hserved => served_append e hserved
        fun _ hunit => hunit) pass hpass
  cases hsection with
  | @created _ _ _ _ _ doc => exact hbeside doc state.units
  | @cancelled _ _ _ doc => exact hbeside doc state.units
  | configured units => exact hbeside state.timers units
  | idle => exact hbeside state.timers state.units
  | began now free =>
      intro pass hpass
      obtain rfl := Option.some.inj hpass
      refine ⟨past, e, [], rfl, hinput, ?_, ?_, fun _ he => absurd he List.not_mem_nil,
        fun t ht _ => .inl ht⟩
      · rw [hbefore]
        exact free
      · rw [hbefore]
  | @skipped pass timer rest running next free missed =>
      refine hold.go_on (hrunning running) rfl rfl rfl ?_
      intro since t _ hkind hdealt
      rcases hdealt with hwaits | hserved
      · rw [next] at hwaits
        rcases List.mem_cons.mp hwaits with rfl | hwaits
        · rw [not_missed_of_sleep clock hkind] at missed
          cases missed
        · exact .inl hwaits
      · exact .inr (served_append e hserved fun _ hunit => hunit)
  | @took pass timer rest running next free missed =>
      refine hold.go_on (hrunning running) rfl rfl rfl ?_
      intro since t _ hkind hdealt
      have htaken : Served (since ++ [e]) timer (targets state.units timer) := by
        refine ⟨e, List.mem_append_right _ List.mem_cons_self, houtput, fun unit hunit => .inl ?_⟩
        rw [hbefore] at hunit
        exact hunit
      rcases hdealt with hwaits | hserved
      · rw [next] at hwaits
        rcases List.mem_cons.mp hwaits with rfl | hwaits
        · right
          unfold Pass.left
          dsimp only
          rw [if_pos rfl]
          exact htaken
        · exact .inl hwaits
      · right
        refine served_append e hserved ?_
        unfold Pass.left
        rw [free]
        exact fun _ hunit => absurd hunit List.not_mem_nil
  | @sent pass timer unit units fired errors outcome running next =>
      refine hold.go_on (hrunning running) rfl rfl rfl ?_
      intro since t _ hkind hdealt
      refine hdealt.imp_right fun hserved => ?_
      refine hserved.mono (fun _ he => List.mem_append_left _ he) ?_
      unfold Pass.left
      rw [next]
      dsimp only
      by_cases hsame : timer = t
      · subst hsame
        rw [if_pos rfl, if_pos rfl]
        intro unit' hunit'
        rcases List.mem_cons.mp hunit' with rfl | hunit'
        · exact .inr ⟨e, List.mem_append_right _ List.mem_cons_self, houtput⟩
        · exact .inl hunit'
      · rw [if_neg hsame]
        exact fun _ hunit => absurd hunit List.not_mem_nil
  | @done pass timer outcome running next =>
      refine hold.go_on (hrunning running) rfl rfl rfl ?_
      intro since t _ hkind hdealt
      refine hdealt.imp_right fun hserved => served_append e hserved ?_
      unfold Pass.left
      rw [next]
      dsimp only
      split <;> exact fun _ hunit => absurd hunit List.not_mem_nil
  | finished saved running next free =>
      intro pass hpass
      cases hpass

/-! ## No second pass -/

/-- A timer with this id is done with by the end of the pass after so many runs. -/
structure Retired (x : Str) (runs : Nat) (state : TimerState) : Prop where
  before : runs ≤ state.runner.runs
  now : state.runner.runs = runs → ∃ pass, state.pass = some pass ∧ ∃ d ∈ pass.due, d.id = x
  gone : runs < state.runner.runs → ∀ t ∈ state.timers.timers, t.id ≠ x
  passed : runs < state.runner.runs → ∀ pass, state.pass = some pass → ∀ d ∈ pass.due, d.id ≠ x

/-- **One step.** A timer that a pass has handled is in that pass until it ends, and then gone,
unless its id is drawn again. -/
theorem retired_step {x : Str} {runs : Nat} (state : TimerState) (op : Op)
    (hundrawn : op.drawnId ≠ some x) (h : Retired x runs state) :
    Retired x runs (step clock toUppercase state op).2 := by
  have hmem : ∀ t ∈ (step clock toUppercase state op).2.timers.timers, t.id = x →
      t ∈ state.timers.timers := by
    intro t ht hid
    rcases (step_edited clock toUppercase state op).mem clock toUppercase ht with hold | hnew
    · exact hold
    · rw [hid] at hnew
      exact absurd hnew hundrawn
  have hsection := step_section clock toUppercase state op
  generalize (step clock toUppercase state op).1 = answer at hsection
  generalize (step clock toUppercase state op).2 = state' at hsection hmem ⊢
  have hgone : runs < state.runner.runs → ∀ t ∈ state'.timers.timers, t.id ≠ x :=
    fun hruns t ht hid => h.gone hruns t (hmem t ht hid) hid
  have hgoes : ∀ {pass pass'}, state.pass = some pass → state'.pass = some pass' →
      pass'.due = pass.due → state'.runner.runs = state.runner.runs → Retired x runs state' := by
    intro pass pass' running hpass' hdue hsame
    refine ⟨hsame ▸ h.before, ?_, hsame ▸ hgone, ?_⟩
    · intro hruns
      obtain ⟨pass'', hpass'', d, hd, hid⟩ := h.now (hsame ▸ hruns)
      rw [running] at hpass''
      obtain rfl := Option.some.inj hpass''
      exact ⟨pass', hpass', d, hdue ▸ hd, hid⟩
    · intro hruns pass'' hpass'' d hd
      rw [hpass'] at hpass''
      obtain rfl := Option.some.inj hpass''
      exact h.passed (hsame ▸ hruns) pass running d (hdue ▸ hd)
  cases hsection with
  | created | cancelled | configured | idle => exact ⟨h.before, h.now, hgone, h.passed⟩
  | began now free =>
      refine ⟨h.before, ?_, hgone, ?_⟩
      · intro hruns
        obtain ⟨pass, hpass, -⟩ := h.now hruns
        rw [free] at hpass
        cases hpass
      · intro hruns pass hpass d hd
        obtain rfl := Option.some.inj hpass
        exact h.gone hruns d (List.mem_filter.mp hd).1
  | skipped running | took running => exact hgoes running rfl rfl rfl
  | sent fired errors outcome running => exact hgoes running rfl rfl rfl
  | done outcome running => exact hgoes running rfl rfl rfl
  | @finished pass saved running next free =>
      have hruns' : (finish clock state pass saved).runner.runs = state.runner.runs + 1 := rfl
      refine ⟨?_, ?_, ?_, fun _ pass' hpass' => by cases hpass'⟩
      · rw [hruns']
        exact Nat.le_succ_of_le h.before
      · intro hruns
        have hbefore := h.before
        omega
      · intro _ t ht hid
        rcases Nat.lt_or_eq_of_le h.before with hlater | hruns
        · exact hgone hlater t ht hid
        · obtain ⟨pass', hpass', d, hd, hdx⟩ := h.now hruns.symm
          rw [running] at hpass'
          obtain rfl := Option.some.inj hpass'
          exact (mem_forget.mp ht).2 d hd (hid.trans hdx.symm)

/-- What was handled, and not drawn again since, is retired. -/
def AllRetired (past : List Moment) (state : TimerState) : Prop :=
  ∀ pre e mid, past = pre ++ e :: mid → ∀ t, Handles e t →
    (∀ c ∈ mid, c.input.drawnId ≠ some t.id) → Retired t.id e.before.runner.runs state

/-- What a pass handles, it also retires. -/
theorem retired_of_handled {state : TimerState} {op : Op} {t : Timer}
    (h : Handles (entry (step clock toUppercase) state op) t)
    (hontime : ∀ pass, state.pass = some pass → OnTime clock pass) :
    Retired t.id state.runner.runs (step clock toUppercase state op).2 := by
  obtain ⟨pass, running, hdue, -⟩ := handled_cases h hontime
  have hnow : Retired t.id state.runner.runs state :=
    ⟨Nat.le_refl _, fun _ => ⟨pass, running, t, hdue, rfl⟩,
      fun hlt => absurd hlt (Nat.lt_irrefl _), fun hlt => absurd hlt (Nat.lt_irrefl _)⟩
  refine retired_step clock toUppercase state op ?_ hnow
  intro hdrawn
  have houtput : ∃ reply, (step clock toUppercase state op).1 = .reply reply := by
    cases op with
    | create body idDraw now saved => exact ⟨_, rfl⟩
    | _ => cases hdrawn
  obtain ⟨reply, hreply⟩ := houtput
  have hsame : (entry (step clock toUppercase) state op).output = .reply reply := hreply
  rcases h with htook | ⟨unit, happlied⟩
  · rw [hsame] at htook
    cases htook
  · rw [hsame] at happlied
    cases happlied

/-- So every timer that was handled stays retired. -/
theorem allRetired_step (past : List Moment) (state : TimerState) (op : Op)
    (hontime : ∀ pass, state.pass = some pass → OnTime clock pass) (h : AllRetired past state) :
    AllRetired (past ++ [entry (step clock toUppercase) state op])
      (step clock toUppercase state op).2 := by
  intro pre e mid heq t hhandles hundrawn
  rcases List.eq_nil_or_concat mid with rfl | ⟨mid', last, rfl⟩
  · obtain ⟨rfl, hlast⟩ := List.append_inj' heq rfl
    obtain rfl := (List.cons.inj hlast).1
    exact retired_of_handled clock toUppercase hhandles hontime
  · rw [List.concat_eq_append, ← List.cons_append, ← List.append_assoc] at heq
    obtain ⟨hpast, hlast⟩ := List.append_inj' heq rfl
    obtain rfl := (List.cons.inj hlast).1
    rw [List.concat_eq_append, List.forall_mem_append, List.forall_mem_singleton] at hundrawn
    exact retired_step clock toUppercase state op hundrawn.2
      (h pre e mid' hpast t hhandles hundrawn.1)

/-! ## Whole runs -/

/-- When the runs of the server apply timers. -/
structure Timely (entries : List Moment) : Prop where
  /-- A timer is stored with a moment ahead of the clock. -/
  stored : ∀ e ∈ entries, ∀ timer, Creates e timer →
    ∃ now moment, now < moment ∧ timer.firesAt = clock.formatLocal moment ∧
      ∃ body idDraw saved, e.input = .create body idDraw now saved
  /-- No timer is applied before its moment. -/
  notEarly : ∀ e ∈ entries, ∀ t, Handles e t →
    ∃ pass, e.before.pass = some pass ∧ Reached clock t pass.now
  /-- No start is applied after its grace. -/
  notLate : ∀ e ∈ entries, ∀ t, Handles e t → t.kind = .start →
    ∃ pass due, e.before.pass = some pass ∧ clock.parseLocal t.firesAt = some due ∧
      pass.now ≤ due + START_GRACE_MINUTES * MINUTE
  /-- When a pass ends it has applied every sleep timer whose moment had come. -/
  sleepers : ∀ pre e post, entries = pre ++ e :: post → ∀ pass, e.before.pass = some pass →
    e.after.pass = none → ∃ front start since, pre = front ++ start :: since ∧
      start.input = .snapshot pass.now ∧ start.before.pass = none ∧
      (∀ c ∈ since, c.before.pass ≠ none) ∧
      ∀ t ∈ start.before.timers.timers, t.kind = .sleep → Reached clock t pass.now →
        Served since t []
  /-- A timer that one pass applies no later pass applies, unless another one with its id
  was created since. -/
  once : ∀ pre e mid e' post, entries = pre ++ e :: mid ++ e' :: post →
    ∀ t t', Handles e t → Handles e' t' → t'.id = t.id →
      e'.before.runner.runs ≠ e.before.runner.runs → ∃ c ∈ mid, c.input.drawnId = some t.id

/-- A pass ends when there is nothing left to take up or to send. -/
theorem ended_cases {state : TimerState} {op : Op} {pass : Pass} (running : state.pass = some pass)
    (h : (step clock toUppercase state op).2.pass = none) :
    pass.rest = [] ∧ pass.sending = none := by
  have hsection := step_section clock toUppercase state op
  generalize (step clock toUppercase state op).1 = answer at hsection
  generalize (step clock toUppercase state op).2 = state' at hsection h
  cases hsection with
  | created | cancelled | configured | idle =>
      have hnone : state.pass = none := h
      rw [running] at hnone
      cases hnone
  | began | skipped | took | sent | done => cases h
  | finished saved running' next free =>
      rw [running] at running'
      obtain rfl := Option.some.inj running'
      exact ⟨next, free⟩

/-- A timer that is created has a moment ahead of the clock. -/
theorem stored_of_creates {state : TimerState} {op : Op} {timer : Timer}
    (h : Creates (entry (step clock toUppercase) state op) timer) :
    ∃ now moment, now < moment ∧ timer.firesAt = clock.formatLocal moment ∧
      ∃ body idDraw saved, op = .create body idDraw now saved := by
  obtain ⟨left, hreply⟩ := h
  obtain ⟨body, idDraw, now, hinput, hasked, -⟩ := created_of_reply clock toUppercase hreply
  obtain ⟨-, -, -, -, -, -, -, moment, hahead, hstored⟩ := requestedTimer_ok hasked
  exact ⟨now, moment, hahead, hstored, body, idDraw, _, hinput⟩

/-- A pass that is accounted for has served the sleep timers whose moment had come when
it ends. -/
theorem served_of_ended {past : List Moment} {state : TimerState} {op : Op} {pass : Pass}
    (haccounted : Accounted clock past state) (running : state.pass = some pass)
    (h : (step clock toUppercase state op).2.pass = none) :
    ∃ front start since, past = front ++ start :: since ∧
      start.input = .snapshot pass.now ∧ start.before.pass = none ∧
      (∀ c ∈ since, c.before.pass ≠ none) ∧
      ∀ t ∈ start.before.timers.timers, t.kind = .sleep → Reached clock t pass.now →
        Served since t [] := by
  obtain ⟨front, start, since, hpast, haccount⟩ := haccounted pass running
  obtain ⟨hrest, hsending⟩ := ended_cases clock toUppercase running h
  refine ⟨front, start, since, hpast, haccount.began, haccount.free, haccount.running, ?_⟩
  intro t ht hkind hreached
  have hdue : t ∈ pass.due := by
    rw [haccount.due]
    exact List.mem_filter.mpr ⟨ht, (isDue_iff clock t pass.now).mpr (.inl hreached)⟩
  rcases haccount.dealt t hdue hkind with hwaits | hserved
  · rw [hrest] at hwaits
    exact absurd hwaits List.not_mem_nil
  · unfold Pass.left at hserved
    rw [hsending] at hserved
    exact hserved

/-- Only the pass that retires a timer handles one with its id. -/
theorem same_pass_of_retired {state : TimerState} {op : Op} {x : Str} {runs : Nat} {t : Timer}
    (hretired : Retired x runs state) (hontime : ∀ pass, state.pass = some pass → OnTime clock pass)
    (hhandles : Handles (entry (step clock toUppercase) state op) t) (hid : t.id = x) :
    state.runner.runs = runs := by
  by_contra hruns
  obtain ⟨pass, running, hdue, -⟩ := handled_cases hhandles hontime
  have hlater : runs < state.runner.runs := lt_of_le_of_ne hretired.before (Ne.symm hruns)
  exact hretired.passed hlater pass running t hdue hid

/-- The passes so far are on time, accounted for and have retired what they handled; those
to come begin in the clear. -/
structure Punctual (past : List Moment) (state : TimerState) (ops : List Op) : Prop where
  onTime : ∀ pass, state.pass = some pass → OnTime clock pass
  accounted : Accounted clock past state
  retired : AllRetired past state
  clear : ∀ e ∈ trace (step clock toUppercase) state ops, Clear clock e.before e.input

/-- At the start there is no pass and nothing was handled. -/
theorem punctual_init {state : TimerState} {ops : List Op} (hpass : state.pass = none)
    (hclear : ∀ e ∈ trace (step clock toUppercase) state ops, Clear clock e.before e.input) :
    Punctual clock toUppercase [] state ops := by
  refine ⟨?_, ?_, fun pre e mid heq => ?_, hclear⟩
  · intro pass hsome
    rw [hpass] at hsome
    cases hsome
  · intro pass hsome
    rw [hpass] at hsome
    cases hsome
  · cases (List.append_eq_nil_iff.mp heq.symm).2

/-- The three together. -/
theorem punctual_step (past : List Moment) (state : TimerState) (op : Op) (ops : List Op)
    (h : Punctual clock toUppercase past state (op :: ops)) :
    Punctual clock toUppercase (past ++ [entry (step clock toUppercase) state op])
      (step clock toUppercase state op).2 ops where
  onTime := onTime_step clock toUppercase state op (h.clear _ List.mem_cons_self) h.onTime
  accounted := accounted_step clock toUppercase past state op ops h.accounted
  retired := allRetired_step clock toUppercase past state op h.onTime h.retired
  clear := fun e he => h.clear e (List.mem_cons_of_mem _ he)

/-- The five properties are read off `Punctual`, which holds before every step: the pass in
progress tells what is handled now, the account what a pass that ends has sent, and the
retired timers what no later pass takes up. -/
theorem timely_of_clear {state : TimerState} {ops : List Op} (hpass : state.pass = none)
    (hclear : ∀ e ∈ trace (step clock toUppercase) state ops, Clear clock e.before e.input) :
    Timely clock (trace (step clock toUppercase) state ops) := by
  have hrun := fun pre e post => history_trace (punctual_step clock toUppercase) ops state []
    (punctual_init clock toUppercase hpass hclear) pre e post
  have hmem : ∀ e ∈ trace (step clock toUppercase) state ops,
      e = entry (step clock toUppercase) e.before e.input ∧
        ∀ pass, e.before.pass = some pass → OnTime clock pass := by
    intro e he
    obtain ⟨pre, post, heq⟩ := List.append_of_mem he
    obtain ⟨hentry, rest, hpunctual⟩ := hrun pre e post heq
    exact ⟨hentry, hpunctual.onTime⟩
  refine ⟨?_, ?_, ?_, ?_, ?_⟩
  · intro e he timer hcreates
    rw [(hmem e he).1] at hcreates
    exact stored_of_creates clock toUppercase hcreates
  · intro e he t hhandles
    obtain ⟨hentry, hontime⟩ := hmem e he
    rw [hentry] at hhandles
    obtain ⟨pass, running, hdue, -⟩ := handled_cases hhandles hontime
    exact ⟨pass, running, (hontime pass running).reached t hdue⟩
  · intro e he t hhandles hkind
    obtain ⟨hentry, hontime⟩ := hmem e he
    rw [hentry] at hhandles
    obtain ⟨pass, running, -, hmissed⟩ := handled_cases hhandles hontime
    obtain ⟨due, hparse, hgrace⟩ := grace_of_not_missed clock hkind hmissed
    exact ⟨pass, due, running, hparse, hgrace⟩
  · intro pre e post heq pass running hends
    obtain ⟨hentry, rest, hpunctual⟩ := hrun pre e post heq
    rw [hentry] at hends
    exact served_of_ended clock toUppercase hpunctual.accounted running hends
  · intro pre e mid e' post heq t t' hhandles hhandles' hid hruns
    have hsplit : trace (step clock toUppercase) state ops = (pre ++ e :: mid) ++ e' :: post := by
      rw [heq, List.append_assoc, List.cons_append]
    obtain ⟨hentry, rest, hpunctual⟩ := hrun (pre ++ e :: mid) e' post hsplit
    rw [hentry] at hhandles'
    by_contra hnone
    have hretired : Retired t.id e.before.runner.runs e'.before :=
      hpunctual.retired pre e mid rfl t hhandles fun c hc hdrawn => hnone ⟨c, hc, hdrawn⟩
    exact hruns (same_pass_of_retired clock toUppercase hretired hpunctual.onTime hhandles' hid)

/-- **Timely runs.**  In a run of the server whose passes do not begin in the second before
the moment of a timer, a timer is applied only at a reading at or after its moment, a start
only within its grace, a pass applies every sleep timer that is due to it, and no
timer is applied by two passes.  The condition leaves out no more than it has to: a pass
that begins in that second has before it a timer that is due and not missed, and whose
moment has not come. -/
theorem timers_timely (state : TimerState) (ops : List Op) (hpass : state.pass = none)
    (hclear : ∀ e ∈ trace (step clock toUppercase) state ops, Clear clock e.before e.input) :
    Timely clock (trace (step clock toUppercase) state ops) ∧
    ∀ (other : TimerState) (now : LocalTime), ¬ Clear clock other (.snapshot now) →
      ∃ t ∈ other.timers.due clock now, t.missed clock now = false ∧ ¬ Reached clock t now :=
  ⟨timely_of_clear clock toUppercase hpass hclear, fun _ _ => early_of_not_clear clock⟩

/-- A pass a second before the moment, and one half a second after. -/
def punctualRun : List Op :=
  [.snapshot (oneDayAt 21 15 - SECOND), .finish (.ok ()), .snapshot (oneDayAt 21 15 + SECOND / 2),
    .takeUp, .send (.ok ()), .send (.ok ()), .finish (.ok ())]

/-- Two passes, neither in the second before the moment. -/
theorem timers_timely_punctualRun : Timely oneDay (trace (step oneDay id) oneTimer punctualRun) :=
  (timers_timely oneDay id oneTimer punctualRun rfl (by decide +kernel)).1

/-- A pass half a second before the moment. -/
def hastyRun : List Op := [.snapshot (oneDayAt 21 15 - SECOND / 2), .takeUp]

/-- It applies the timer then. -/
theorem applied_early : ¬ Timely oneDay (trace (step oneDay id) oneTimer hastyRun) := by
  intro htimely
  let timer := oneTimer.timers.timers.get ⟨0, by decide⟩
  let e := entry (step oneDay id)
    (step oneDay id oneTimer (.snapshot (oneDayAt 21 15 - SECOND / 2))).2 .takeUp
  have hmem : e ∈ trace (step oneDay id) oneTimer hastyRun :=
    List.mem_cons_of_mem _ List.mem_cons_self
  have htook : e.output = .took timer := by decide +kernel
  obtain ⟨pass, running, hreached⟩ := htimely.notEarly e hmem timer (.inl htook)
  have hnow : e.before.pass.map Pass.now = some (oneDayAt 21 15 - SECOND / 2) := by decide +kernel
  rw [running] at hnow
  have hdue : oneDay.parseLocal timer.firesAt = some (oneDayAt 21 15) := by decide +kernel
  have hearly := hreached _ hdue
  rw [Option.some.inj hnow] at hearly
  exact absurd hearly (by decide +kernel)

end BreezeHttp.TimerRoutes
