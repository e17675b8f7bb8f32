import BreezeCore.Http.TimerRoutes

/-!
# One timer of each kind per unit

A new timer displaces by comparing texts, and the runner sends to numbers.  The
two agree on a creation that is `Separate` from what is pending: it names its
units, and every unit that a timer of its kind names too it names in the same
spelling.

* `one_each_iff` — a run keeps to one timer of each kind per unit exactly when all
  its creations are separate.
-/

namespace BreezeHttp.TimerRoutes

open Bytes Text BreezeStore Runs

/-- Two timers do not act on one unit as the same kind, whatever units are
configured. -/
def Disjoint (a b : Timer) : Prop :=
  a.kind = b.kind → ∀ units n, n ∈ targets units a → n ∉ targets units b

/-- No unit is the target of two pending timers of the same kind. -/
def OneEach (doc : TimersDoc) : Prop := doc.timers.Pairwise Disjoint

/-- Every id a timer names is a number. -/
def Parsed (doc : TimersDoc) : Prop :=
  ∀ t ∈ doc.timers, ∀ u ∈ t.unitIds, ∃ n, unitNumber u = some n

/-- A timer names its units, and displaces the timers of its kind that name one of
them in any spelling. -/
def Separate (doc : TimersDoc) (timer : Timer) : Prop :=
  ∀ t ∈ doc.timers, t.kind = timer.kind → timer.unitIds ≠ [] ∧
    ((∃ u ∈ timer.unitIds, ∃ v ∈ t.unitIds, unitNumber u = unitNumber v) →
      t.displacedBy timer.unitIds timer.kind = true)

variable (clock : Clock) (toUppercase : String → String)

/-- A creation that is accepted and saved is separate. -/
def SeparateOp (state : TimerState) : Op → Prop
  | .create body idDraw now (.ok ()) =>
      ∀ timer, requestedTimer clock toUppercase state.units body idDraw now = .ok timer →
        Separate state.timers timer
  | _ => True

theorem mem_targets {units : List Nat} {t : Timer} {n : Nat} (ht : t.unitIds ≠ []) :
    n ∈ targets units t ↔ ∃ u ∈ t.unitIds, unitNumber u = some n := by
  unfold targets
  rw [if_neg ht]
  exact List.mem_filterMap

/-- **The displacement is right** exactly for a timer that is separate. The code compares the
texts of the ids, and an empty list with nothing; the units are driven by number, and an empty
list is all of them. -/
theorem disjoint_kept_iff {doc : TimersDoc} {timer : Timer}
    (hdoc : Parsed doc)
    (htimer : ∀ u ∈ timer.unitIds, ∃ n, unitNumber u = some n) :
    (∀ t ∈ (doc.replaceForUnits timer.unitIds timer.kind).2.timers, Disjoint t timer) ↔
      Separate doc timer := by
  constructor
  · intro hkept t ht hkind
    -- What is not displaced stays, and must be out of the new timer's way.
    have hdisjoint : t.displacedBy timer.unitIds timer.kind = false →
        ∀ units n, n ∈ targets units t → n ∉ targets units timer := fun hstays =>
      hkept t (TimersDoc.mem_replaceForUnits.mpr ⟨ht, hstays⟩) hkind
    constructor
    · intro hall
      have hstays : t.displacedBy timer.unitIds timer.kind = false := by
        rw [Timer.displacedBy, hall]
        exact Bool.and_false _
      obtain ⟨units, n, hn⟩ : ∃ units n, n ∈ targets units t ∧ n ∈ units := by
        by_cases hnamed : t.unitIds = []
        · refine ⟨[0], 0, ?_, List.mem_cons_self⟩
          rw [targets, if_pos hnamed]
          exact List.mem_cons_self
        · obtain ⟨v, hv⟩ := List.exists_mem_of_ne_nil _ hnamed
          obtain ⟨n, hn⟩ := hdoc t ht v hv
          exact ⟨[n], n, (mem_targets hnamed).mpr ⟨v, hv, hn⟩, List.mem_cons_self⟩
      apply hdisjoint hstays units n hn.1
      rw [targets, if_pos hall]
      exact hn.2
    · rintro ⟨u, hu, v, hv, hsame⟩
      by_contra hstays
      rw [Bool.not_eq_true] at hstays
      obtain ⟨n, hn⟩ := htimer u hu
      refine hdisjoint hstays [] n ?_ ?_
      · exact (mem_targets (List.ne_nil_of_mem hv)).mpr ⟨v, hv, hsame ▸ hn⟩
      · exact (mem_targets (List.ne_nil_of_mem hu)).mpr ⟨u, hu, hn⟩
  · intro hseparate t ht hkind units n hn hn'
    obtain ⟨hmem, hstays⟩ := TimersDoc.mem_replaceForUnits.mp ht
    obtain ⟨hnamed, hspelling⟩ := hseparate t hmem hkind
    obtain ⟨u, hu, hun⟩ := (mem_targets hnamed).mp hn'
    have hdisplaced : t.displacedBy timer.unitIds timer.kind = true := by
      by_cases hall : t.unitIds = []
      · -- A timer for every unit is displaced by any.
        have hcovers : timer.unitIds.any t.covers = true := by
          refine List.any_eq_true.mpr ⟨u, hu, ?_⟩
          rw [Timer.covers, hall]
          rfl
        rw [Timer.displacedBy, hcovers, decide_eq_true hkind]
        rfl
      · obtain ⟨v, hv, hvn⟩ := (mem_targets hall).mp hn
        exact hspelling ⟨u, hu, v, hv, hun.trans hvn.symm⟩
    rw [hstays] at hdisplaced
    cases hdisplaced

theorem parsed_admitted {doc : TimersDoc} {timer : Timer} (h : Parsed doc)
    (htimer : ∀ u ∈ timer.unitIds, ∃ n, unitNumber u = some n) : Parsed (admitted doc timer) := by
  intro t ht
  rcases mem_admitted.mp ht with ⟨hmem, -⟩ | rfl
  · exact h t hmem
  · exact htimer

theorem requestedTimer_parsed {units : List Nat} {body : Except String TimerRequest}
    {idDraw : Option (Arr 6)} {now : LocalTime} {timer : Timer}
    (h : requestedTimer clock toUppercase units body idDraw now = .ok timer) :
    ∀ u ∈ timer.unitIds, ∃ n, unitNumber u = some n := by
  obtain ⟨-, -, -, -, -, -, hunits, -⟩ := requestedTimer_ok h
  intro u hu
  obtain ⟨n, -, hn⟩ := hunits u hu
  exact ⟨n, hn⟩

theorem parsed_step (state : TimerState) (op : Op) (h : Parsed state.timers) :
    Parsed (step clock toUppercase state op).2.timers := by
  have hedited := step_edited clock toUppercase state op
  generalize (step clock toUppercase state op).2.timers = doc at hedited ⊢
  cases hedited with
  | same => exact h
  | created body idDraw now asked =>
      exact parsed_admitted h (requestedTimer_parsed clock toUppercase asked)
  | failed body idDraw now e asked =>
      have hadmitted := parsed_admitted h (requestedTimer_parsed clock toUppercase asked)
      exact fun t ht => hadmitted t (TimersDoc.mem_remove.mp ht).1
  | cancelled timerId saved => exact fun t ht => h t (TimersDoc.mem_remove.mp ht).1
  | finished saved running => exact fun t ht => h t (mem_forget.mp ht).1

/-- A section adds nothing, unless it is a creation that is saved. One that fails to save removes
its timer again, and may have displaced others. -/
theorem step_sublist (state : TimerState) (op : Op) :
    (∃ body idDraw now timer, op = .create body idDraw now (.ok ()) ∧
      requestedTimer clock toUppercase state.units body idDraw now = .ok timer ∧
      (step clock toUppercase state op).2.timers = admitted state.timers timer) ∨
    ((step clock toUppercase state op).2.timers.timers.Sublist state.timers.timers ∧
      SeparateOp clock toUppercase state op) := by
  have hedited := step_edited clock toUppercase state op
  generalize hdoc : (step clock toUppercase state op).2.timers = doc at hedited ⊢
  cases op with
  | create body idDraw now saved =>
      rw [← hdoc, step_create]
      rcases create_cases clock toUppercase state body idDraw now saved with
        ⟨reply, hrefused, heq⟩ | ⟨timer, hasked, ⟨e, rfl, heq⟩ | ⟨rfl, heq⟩⟩
      · rw [heq]
        refine Or.inr ⟨List.Sublist.refl _, ?_⟩
        cases saved with
        | error e => trivial
        | ok =>
            intro timer htimer
            rw [hrefused] at htimer
            cases htimer
      · rw [heq]
        refine Or.inr ⟨?_, trivial⟩
        rw [remove_admitted]
        exact List.filter_sublist
      · rw [heq]
        exact Or.inl ⟨body, idDraw, now, timer, rfl, hasked, rfl⟩
  | cancel timerId saved =>
      refine Or.inr ⟨?_, trivial⟩
      cases hedited with
      | same => exact List.Sublist.refl _
      | cancelled => exact state.timers.remove_sublist timerId
  | finish saved =>
      refine Or.inr ⟨?_, trivial⟩
      cases hedited with
      | same => exact List.Sublist.refl _
      | finished => exact forget_sublist _ _
  | snapshot _ | takeUp | send _ | configure _ =>
      cases hedited with
      | same => exact Or.inr ⟨List.Sublist.refl _, trivial⟩

/-- A section keeps to one timer of each kind per unit exactly when it is
separate. -/
theorem oneEach_step (state : TimerState) (op : Op) (hparsed : Parsed state.timers)
    (h : OneEach state.timers) :
    OneEach (step clock toUppercase state op).2.timers ↔ SeparateOp clock toUppercase state op := by
  rcases step_sublist clock toUppercase state op with
    ⟨body, idDraw, now, timer, rfl, hasked, hdoc⟩ | ⟨hsub, hseparate⟩
  · rw [hdoc]
    have hiff := disjoint_kept_iff hparsed (requestedTimer_parsed clock toUppercase hasked)
    have hkept :
        (state.timers.replaceForUnits timer.unitIds timer.kind).2.timers.Pairwise Disjoint :=
      h.sublist (state.timers.replaceForUnits_sublist timer.unitIds timer.kind)
    unfold OneEach admitted SeparateOp
    rw [List.pairwise_append]
    constructor
    · rintro ⟨-, -, hdisjoint⟩ timer' htimer'
      obtain rfl := Except.ok.inj (hasked.symm.trans htimer')
      exact hiff.mp fun t ht => hdisjoint t ht timer List.mem_cons_self
    · intro hseparate
      refine ⟨hkept, List.pairwise_singleton _ _, ?_⟩
      intro t ht timer' htimer'
      obtain rfl := List.mem_singleton.mp htimer'
      exact hiff.mpr (hseparate timer' hasked) t ht
  · exact iff_of_true (h.sublist hsub) hseparate

/-- **One of each per unit.**  From an empty document, in every order of creations,
cancellations and passes, and however units come and go: all states reached keep
to one timer of each kind per unit exactly when all saved creations are separate
from what they find. -/
theorem one_each_iff (units : List Nat) (ops : List Op) :
    (∀ e ∈ trace (step clock toUppercase) { units := units } ops, OneEach e.after.timers) ↔
      ∀ e ∈ trace (step clock toUppercase) { units := units } ops,
        SeparateOp clock toUppercase e.before e.input := by
  have hparsed : Parsed {} := fun t ht => absurd ht List.not_mem_nil
  have hinv : ∀ s op, Parsed s.timers → Parsed (step clock toUppercase s op).2.timers :=
    fun s op => parsed_step clock toUppercase s op
  exact forall_trace_iff hinv (fun s op => oneEach_step clock toUppercase s op) ops _ hparsed
    List.Pairwise.nil

/-- A sleep timer for every unit, twice. -/
def allTwice : List Op :=
  [.create (.ok { minutes := some 30 }) (drawnLast 1) (oneDayAt 21 0) (.ok ()),
   .create (.ok { minutes := some 45 }) (drawnLast 2) (oneDayAt 21 5) (.ok ())]

/-- The second timer for every unit does not displace the first. -/
theorem all_units_twice :
    ¬ ∀ e ∈ trace (step oneDay id) { units := [7] } allTwice, OneEach e.after.timers := by
  intro hall
  have hseven : ∀ e ∈ trace (step oneDay id) { units := [7] } allTwice,
      e.after.timers.timers.Pairwise fun a b =>
        ¬ (a.kind = b.kind ∧ 7 ∈ targets [7] a ∧ 7 ∈ targets [7] b) := by
    intro e he
    apply (hall e he).imp
    rintro a b hdisjoint ⟨hkind, ha, hb⟩
    exact hdisjoint hkind [7] 7 ha hb
  exact absurd hseven (by decide +kernel)

end BreezeHttp.TimerRoutes
