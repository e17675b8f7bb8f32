import BreezeCore.Http.TimerRoutes
import Mathlib.Data.List.Nodup

/-!
# Timers over whole runs

The runner works from a snapshot.  A timer it has taken up is `Spent`: it is in
the snapshot, so the pass removes it, and no later snapshot can hold it.  One that
is withdrawn while the pass has nothing more to send for it is `Inert`.

* `timers_final` — in a run without a withdrawal in the middle of a pass, a
  withdrawn timer is not applied again; a timer is taken up once, for each of its
  targets at most once; and a pass loses no timer that was created during it.
-/

namespace BreezeHttp.TimerRoutes

open Bytes Text BreezeStore Runs

variable (clock : Clock) (toUppercase : String → String)

/-- What the pass in progress has still to take up. -/
def waiting (state : TimerState) : List Timer :=
  match state.pass with
  | none => []
  | some pass => pass.rest.filter fun t => ! t.missed clock pass.now

/-- The timer the pass is sending, with the units still to come. -/
def current (state : TimerState) : Option (Timer × List Nat) := state.pass.bind Pass.sending

/-- The timers the pass in progress has still to send. -/
def toSend (state : TimerState) : List Timer :=
  match current state with
  | some (t, _ :: _) => t :: waiting clock state
  | _ => waiting clock state

/-- A withdrawal that is acknowledged finds the timer out of the pass in
progress. -/
def Calm (state : TimerState) : Op → Prop
  | .cancel timerId (.ok ()) => ∀ t ∈ toSend clock state, t.id ≠ timerId
  | .create body idDraw now (.ok ()) =>
      match requestedTimer clock toUppercase state.units body idDraw now with
      | .error _ => True
      | .ok timer =>
          ∀ old ∈ state.timers.timers, old.displacedBy timer.unitIds timer.kind = true →
            ∀ t ∈ toSend clock state, t.id ≠ old.id
  | _ => True

instance (state : TimerState) (op : Op) : Decidable (Calm clock toUppercase state op) := by
  unfold Calm
  split
  · infer_instance
  · split <;> infer_instance
  · infer_instance

/-- A snapshot with the document beside it and the operations to come. -/
structure Snapshot (pass : Pass) (doc : TimersDoc) (ops : List Op) : Prop where
  rest : pass.rest.Sublist pass.due
  ids : (pass.due.map Timer.id).Nodup
  fresh : ∀ d ∈ pass.due, d.id ∉ ops.filterMap Op.drawnId
  same : ∀ d ∈ pass.due, ∀ t ∈ doc.timers, t.id = d.id → t = d
  /-- What is being sent does not come again. -/
  sending : ∀ t units, pass.sending = some (t, units) →
    t ∈ pass.due ∧ ∀ r ∈ pass.rest, r.id ≠ t.id

/-- No two timers, in the document or to come, have the same id. -/
structure Distinct (state : TimerState) (ops : List Op) : Prop where
  ids : (state.timers.timers.map Timer.id ++ ops.filterMap Op.drawnId).Nodup
  snapshot : ∀ pass, state.pass = some pass → Snapshot pass state.timers ops

/-- An id that is drawn nowhere is not drawn first, nor later. -/
theorem notMem_drawn {x : Str} {op : Op} {ops : List Op}
    (h : x ∉ (op :: ops).filterMap Op.drawnId) :
    op.drawnId ≠ some x ∧ x ∉ ops.filterMap Op.drawnId := by
  constructor
  · intro hop
    exact h (List.mem_filterMap.mpr ⟨op, List.mem_cons_self, hop⟩)
  · intro hmem
    exact h (((List.sublist_cons_self op ops).filterMap Op.drawnId).subset hmem)

variable {clock toUppercase}

/-- The document may change beside a snapshot. -/
theorem Snapshot.edit {state : TimerState} {op : Op} {ops : List Op} {pass : Pass}
    {doc : TimersDoc} (h : Snapshot pass state.timers (op :: ops))
    (hedited : Edited clock toUppercase state op doc) : Snapshot pass doc ops where
  rest := h.rest
  ids := h.ids
  fresh := fun d hd => (notMem_drawn (h.fresh d hd)).2
  same := by
    intro d hd t ht hid
    rcases hedited.mem clock toUppercase ht with hold | hnew
    · exact h.same d hd t hold hid
    · rw [hid] at hnew
      exact absurd hnew (notMem_drawn (h.fresh d hd)).1
  sending := h.sending

/-- A new snapshot is of the document. -/
theorem Snapshot.begin {doc : TimersDoc} {ops : List Op} (now : LocalTime)
    (h : (doc.timers.map Timer.id ++ ops.filterMap Op.drawnId).Nodup) :
    Snapshot { now := now, due := doc.due clock now, rest := doc.due clock now } doc ops where
  rest := List.Sublist.refl _
  ids := (List.nodup_append.mp h).1.sublist (List.filter_sublist.map _)
  fresh := by
    intro d hd hmem
    have hid : d.id ∈ doc.timers.map Timer.id := List.mem_map_of_mem (List.mem_filter.mp hd).1
    exact (List.nodup_append.mp h).2.2 d.id hid d.id hmem rfl
  same := by
    intro d hd t ht hid
    exact List.inj_on_of_nodup_map (List.nodup_append.mp h).1 ht (List.mem_filter.mp hd).1 hid
  sending := by
    intro t units hsending
    cases hsending

variable (clock toUppercase)

/-- The ids stay apart: a step stores only what it drew. The pass that runs holds a copy of timers
that were stored, and those ids are not drawn again either. -/
theorem distinct_step (state : TimerState) (op : Op) (ops : List Op)
    (h : Distinct state (op :: ops)) : Distinct (step clock toUppercase state op).2 ops := by
  have hedited := step_edited clock toUppercase state op
  have hids := h.ids.sublist (hedited.ids_sublist clock toUppercase ops)
  refine ⟨hids, ?_⟩
  have hkeep : ∀ pass, state.pass = some pass →
      Snapshot pass (step clock toUppercase state op).2.timers ops :=
    fun pass hpass => (h.snapshot pass hpass).edit hedited
  have hsection := step_section clock toUppercase state op
  generalize (step clock toUppercase state op).1 = answer at hsection
  generalize (step clock toUppercase state op).2 = state' at hsection hids hkeep ⊢
  intro pass' hpass'
  cases hsection with
  | created | cancelled | configured | idle => exact hkeep pass' hpass'
  | began now free =>
      obtain rfl := Option.some.inj hpass'
      exact Snapshot.begin now hids
  | @skipped pass timer rest running next free missed =>
      obtain rfl := Option.some.inj hpass'
      have hold := hkeep pass running
      have hrest : rest.Sublist pass.due :=
        (List.sublist_cons_self timer rest).trans (next ▸ hold.rest)
      refine ⟨hrest, hold.ids, hold.fresh, hold.same, ?_⟩
      intro t units hsending
      rw [free] at hsending
      cases hsending
  | @took pass timer rest running next free missed =>
      obtain rfl := Option.some.inj hpass'
      have hold := hkeep pass running
      have hall : (timer :: rest).Sublist pass.due := next ▸ hold.rest
      refine ⟨(List.sublist_cons_self timer rest).trans hall, hold.ids, hold.fresh, hold.same, ?_⟩
      intro t units hsending
      obtain ⟨rfl, -⟩ := Prod.mk.inj (Option.some.inj hsending)
      have hnodup : ((timer :: rest).map Timer.id).Nodup := hold.ids.sublist (hall.map _)
      refine ⟨hall.subset List.mem_cons_self, ?_⟩
      intro r hr hid
      apply (List.nodup_cons.mp hnodup).1
      rw [← hid]
      exact List.mem_map_of_mem hr
  | @sent pass timer unit units fired errors outcome running next =>
      obtain rfl := Option.some.inj hpass'
      have hold := hkeep pass running
      refine ⟨hold.rest, hold.ids, hold.fresh, hold.same, ?_⟩
      intro t units' hsending
      obtain ⟨rfl, -⟩ := Prod.mk.inj (Option.some.inj hsending)
      exact hold.sending timer (unit :: units) next
  | @done pass timer outcome running next =>
      obtain rfl := Option.some.inj hpass'
      have hold := hkeep pass running
      refine ⟨hold.rest, hold.ids, hold.fresh, hold.same, ?_⟩
      intro t units hsending
      cases hsending
  | finished saved running next free => cases hpass'

/-! ## Spent timers -/

/-- No timer with this id is taken up any more: the pass in progress removes it,
and none is to come. -/
structure Spent (x : Str) (state : TimerState) (ops : List Op) : Prop where
  undrawn : x ∉ ops.filterMap Op.drawnId
  passed : ∀ t ∈ waiting clock state, t.id ≠ x
  removed : ∀ t ∈ state.timers.timers, t.id = x →
    ∃ pass, state.pass = some pass ∧ ∃ d ∈ pass.due, d.id = x

/-- What a pass has still to take up, but for what is missed. -/
theorem mem_waiting {state : TimerState} {pass : Pass} (running : state.pass = some pass)
    {t : Timer} :
    t ∈ waiting clock state ↔ t ∈ pass.rest ∧ t.missed clock pass.now = false := by
  unfold waiting
  rw [running]
  dsimp only
  rw [List.mem_filter, Bool.not_eq_true']

/-- What it has still to send: what it is sending, and what waits. A timer that is being sent
counts while it has units left, and one that waits unless it was missed. -/
theorem mem_toSend {state : TimerState} {pass : Pass} (running : state.pass = some pass)
    {t : Timer} :
    t ∈ toSend clock state ↔ (∃ unit units, pass.sending = some (t, unit :: units)) ∨
      (t ∈ pass.rest ∧ t.missed clock pass.now = false) := by
  have hcurrent : current state = pass.sending := by
    unfold current
    rw [running]
    rfl
  rw [← mem_waiting clock running]
  unfold toSend
  rw [hcurrent]
  split
  next t' unit units hsending =>
    rw [hsending, List.mem_cons]
    apply or_congr_left
    constructor
    · rintro rfl
      exact ⟨unit, units, rfl⟩
    · rintro ⟨unit', units', heq⟩
      cases heq
      rfl
  next hnone =>
    refine (or_iff_right ?_).symm
    rintro ⟨unit, units, heq⟩
    exact hnone t unit units heq

/-- In particular what waits. -/
theorem mem_toSend_of_waiting {state : TimerState} {t : Timer} (ht : t ∈ waiting clock state) :
    t ∈ toSend clock state := by
  unfold toSend
  split
  next => exact List.mem_cons_of_mem _ ht
  next => exact ht

/-- Between passes there is nothing to send. -/
theorem notMem_toSend {state : TimerState} (free : state.pass = none) (t : Timer) :
    t ∉ toSend clock state := by
  have hnil : toSend clock state = [] := by
    unfold toSend current waiting
    rw [free]
    rfl
  rw [hnil]
  exact List.not_mem_nil

/-- No timer comes to wait for its turn, but when a pass begins. -/
theorem waiting_step (state : TimerState) (op : Op) {t : Timer}
    (ht : t ∈ waiting clock (step clock toUppercase state op).2) :
    t ∈ waiting clock state ∨ (state.pass = none ∧ t ∈ state.timers.timers) := by
  have hsection := step_section clock toUppercase state op
  generalize (step clock toUppercase state op).1 = answer at hsection
  generalize (step clock toUppercase state op).2 = state' at hsection ht
  cases hsection with
  | created | cancelled | configured | idle => exact Or.inl ht
  | began now free =>
      exact Or.inr ⟨free, (List.mem_filter.mp (List.mem_filter.mp ht).1).1⟩
  | @skipped pass timer rest running next | @took pass timer rest running next =>
      rw [mem_waiting clock rfl] at ht
      exact Or.inl ((mem_waiting clock running).mpr
        ⟨next ▸ List.mem_cons_of_mem timer ht.1, ht.2⟩)
  | sent fired errors outcome running | done outcome running =>
      rw [mem_waiting clock rfl] at ht
      exact Or.inl ((mem_waiting clock running).mpr ht)
  | finished => exact absurd ht List.not_mem_nil

/-- A timer that is gone, with an id that nobody draws again, stays gone. A new pass copies from
the document, where it is no more. -/
theorem spent_step {x : Str} (state : TimerState) (op : Op) (ops : List Op)
    (h : Spent clock x state (op :: ops)) :
    Spent clock x (step clock toUppercase state op).2 ops := by
  have hundrawn := notMem_drawn h.undrawn
  have hmem : ∀ t ∈ (step clock toUppercase state op).2.timers.timers, t.id = x →
      t ∈ state.timers.timers := by
    intro t ht hid
    rcases (step_edited clock toUppercase state op).mem clock toUppercase ht with hold | hnew
    · exact hold
    · rw [hid] at hnew
      exact absurd hnew hundrawn.1
  have hnone : state.pass = none → ∀ t ∈ state.timers.timers, t.id ≠ x := by
    intro hfree t ht hid
    obtain ⟨pass, hpass, -⟩ := h.removed t ht hid
    rw [hfree] at hpass
    cases hpass
  refine ⟨hundrawn.2, ?_, ?_⟩
  · intro t ht
    rcases waiting_step clock toUppercase state op ht with hwaits | ⟨hfree, hold⟩
    · exact h.passed t hwaits
    · exact hnone hfree t hold
  · intro t ht hid
    have hold := hmem t ht hid
    obtain ⟨pass, hpass, d, hd, hdx⟩ := h.removed t hold hid
    have hsection := step_section clock toUppercase state op
    generalize (step clock toUppercase state op).1 = answer at hsection
    generalize (step clock toUppercase state op).2 = state' at hsection ht ⊢
    -- The pass goes on, and still removes what it was to remove, or has removed it.
    cases hsection with
    | created | cancelled | configured | idle => exact ⟨pass, hpass, d, hd, hdx⟩
    | began now free => exact absurd hid (hnone free t hold)
    | skipped running | took running | sent _ _ _ running | done _ running =>
        rw [running] at hpass
        obtain rfl := Option.some.inj hpass
        exact ⟨_, rfl, d, hd, hdx⟩
    | finished saved running =>
        rw [running] at hpass
        obtain rfl := Option.some.inj hpass
        exact absurd (hid.trans hdx.symm) ((mem_forget.mp ht).2 d hd)

/-- The pass never has more to send, but when it begins. Then it takes up the timers that are due,
and every other section takes one of them further or lets it go. -/
theorem toSend_step (state : TimerState) (op : Op) {t : Timer}
    (ht : t ∈ toSend clock (step clock toUppercase state op).2) :
    t ∈ toSend clock state ∨ (state.pass = none ∧ t ∈ state.timers.timers) := by
  have hsection := step_section clock toUppercase state op
  generalize (step clock toUppercase state op).1 = answer at hsection
  generalize (step clock toUppercase state op).2 = state' at hsection ht
  cases hsection with
  | created | cancelled | configured | idle => exact Or.inl ht
  | began now free =>
      rcases (mem_toSend clock rfl).mp ht with ⟨unit, units, heq⟩ | ⟨hrest, -⟩
      · cases heq
      · exact Or.inr ⟨free, (List.mem_filter.mp hrest).1⟩
  | @skipped pass timer rest running next free missed =>
      left
      rcases (mem_toSend clock rfl).mp ht with ⟨unit, units, heq⟩ | ⟨hrest, hfires⟩
      · rw [free] at heq
        cases heq
      · refine (mem_toSend clock running).mpr (Or.inr ⟨?_, hfires⟩)
        rw [next]
        exact List.mem_cons_of_mem timer hrest
  | @took pass timer rest running next free missed =>
      left
      rcases (mem_toSend clock rfl).mp ht with ⟨unit, units, heq⟩ | ⟨hrest, hfires⟩
      · obtain ⟨rfl, -⟩ := Prod.mk.inj (Option.some.inj heq)
        refine (mem_toSend clock running).mpr (Or.inr ⟨?_, missed⟩)
        rw [next]
        exact List.mem_cons_self
      · refine (mem_toSend clock running).mpr (Or.inr ⟨?_, hfires⟩)
        rw [next]
        exact List.mem_cons_of_mem timer hrest
  | @sent pass timer unit units fired errors outcome running next =>
      left
      rcases (mem_toSend clock rfl).mp ht with ⟨unit', units', heq⟩ | hwaits
      · obtain ⟨rfl, -⟩ := Prod.mk.inj (Option.some.inj heq)
        exact (mem_toSend clock running).mpr (Or.inl ⟨unit, units, next⟩)
      · exact (mem_toSend clock running).mpr (Or.inr hwaits)
  | @done pass timer outcome running next =>
      left
      rcases (mem_toSend clock rfl).mp ht with ⟨unit, units, heq⟩ | hwaits
      · cases heq
      · exact (mem_toSend clock running).mpr (Or.inr hwaits)
  | @finished pass saved running next free => exact absurd ht (notMem_toSend clock rfl t)

/-- What is sent was to be sent. -/
theorem mem_toSend_of_applied {state : TimerState} {op : Op} {timer : Timer} {unit : Nat}
    (h : (step clock toUppercase state op).1 = .applied timer unit) :
    timer ∈ toSend clock state := by
  have hsection := step_section clock toUppercase state op
  rw [h] at hsection
  generalize (step clock toUppercase state op).2 = state' at hsection
  cases hsection with
  | @sent pass _ _ units fired errors outcome running next =>
      exact (mem_toSend clock running).mpr (Or.inl ⟨unit, units, next⟩)

/-! ## Withdrawn timers -/

/-- The pass in progress has nothing more to send for this id either. -/
structure Inert (x : Str) (state : TimerState) (ops : List Op) : Prop where
  spent : Spent clock x state ops
  sent : ∀ t ∈ toSend clock state, t.id ≠ x

/-- So does one that nothing will be sent for. -/
theorem inert_step {x : Str} (state : TimerState) (op : Op) (ops : List Op)
    (h : Inert clock x state (op :: ops)) :
    Inert clock x (step clock toUppercase state op).2 ops := by
  refine ⟨spent_step clock toUppercase state op ops h.spent, ?_⟩
  intro t ht hid
  rcases toSend_step clock toUppercase state op ht with hold | ⟨hfree, hmem⟩
  · exact h.sent t hold hid
  · obtain ⟨pass, hpass, -⟩ := h.spent.removed t hmem hid
    rw [hfree] at hpass
    cases hpass

variable {clock toUppercase}

/-- A step of a run of the timers. -/
abbrev Moment := Entry TimerState Op Answer

/-- A timer with this id is sent to a unit. -/
def Applies (e : Moment) (x : Str) : Prop := ∃ t unit, e.output = .applied t unit ∧ t.id = x

/-- A timer with this id is taken up. -/
def Takes (e : Moment) (x : Str) : Prop := ∃ t, e.output = .took t ∧ t.id = x

/-- The answer says that this timer is gone: it was cancelled, or a new one
displaced it. -/
def Withdraws (e : Moment) (x : Str) : Prop :=
  (∃ saved, e.input = .cancel x saved ∧ e.output = .reply ⟨204, .empty⟩) ∨
  ∃ timer left, e.output = .reply ⟨201, .timer timer left⟩ ∧
    ∃ t ∈ e.before.timers.timers, t.id = x ∧ t.displacedBy timer.unitIds timer.kind = true

/-- An inert timer is not sent any more. -/
theorem Inert.not_applies {x : Str} {state : TimerState} {ops : List Op}
    (h : Inert clock x state ops) :
    ∀ e ∈ trace (step clock toUppercase) state ops, ¬ Applies e x := by
  intro e he
  obtain ⟨hentry, rest, hinv⟩ := @forall_trace _ _ _ _ (Inert clock x)
    (inert_step clock toUppercase) ops state h e he
  rintro ⟨t, unit, happlied, hid⟩
  rw [hentry] at happlied
  exact hinv.sent t (mem_toSend_of_applied clock toUppercase happlied) hid

/-- An id of the document is not drawn again. -/
theorem Distinct.undrawn {state : TimerState} {ops : List Op} (h : Distinct state ops)
    {t : Timer} (ht : t ∈ state.timers.timers) : t.id ∉ ops.filterMap Op.drawnId := by
  intro hmem
  exact (List.nodup_append.mp h.ids).2.2 t.id (List.mem_map_of_mem ht) t.id hmem rfl

/-- **A calm withdrawal is final.** The timer is out of the document, its id is not drawn again,
and by calmness the pass has nothing of it left to send. -/
theorem inert_of_withdraws {state : TimerState} {op : Op} {ops : List Op}
    (hdistinct : Distinct state (op :: ops)) (hcalm : Calm clock toUppercase state op) {x : Str}
    (h : Withdraws (entry (step clock toUppercase) state op) x) :
    Inert clock x (step clock toUppercase state op).2 ops := by
  rcases h with ⟨saved, hop, hreply⟩ | ⟨timer, left, hreply, old, hold, rfl, hdisplaced⟩
  · obtain rfl : op = .cancel x saved := hop
    obtain ⟨rfl, ⟨t, ht, rfl⟩, hafter⟩ := cancelled_of_reply clock toUppercase hreply
    rw [hafter]
    refine ⟨⟨(notMem_drawn (hdistinct.undrawn ht)).2, ?_, ?_⟩, hcalm⟩
    · exact fun t' ht' => hcalm t' (mem_toSend_of_waiting clock ht')
    · intro t' ht' hid
      exact absurd hid (TimersDoc.mem_remove.mp ht').2
  · obtain ⟨body, idDraw, now, rfl, hasked, hafter⟩ := created_of_reply clock toUppercase hreply
    have hquiet : ∀ t ∈ toSend clock state, t.id ≠ old.id := by
      unfold Calm at hcalm
      dsimp only at hcalm
      rw [hasked] at hcalm
      exact hcalm old hold hdisplaced
    have hundrawn := notMem_drawn (hdistinct.undrawn hold)
    rw [hafter]
    refine ⟨⟨hundrawn.2, fun t ht => hquiet t (mem_toSend_of_waiting clock ht), ?_⟩, hquiet⟩
    intro t ht hid
    rcases mem_admitted.mp ht with ⟨hmem, hkept⟩ | rfl
    · -- The document holds one timer with this id, and that one was displaced.
      have hsame : t = old := List.inj_on_of_nodup_map
        (List.nodup_append.mp hdistinct.ids).1 hmem hold hid
      rw [hsame, hdisplaced] at hkept
      cases hkept
    · obtain ⟨-, raw, -, rfl, hdrawn, -, -⟩ := requestedTimer_ok hasked
      refine absurd ?_ hundrawn.1
      rw [← hid, hdrawn]
      rfl

/-! ## One application -/

/-- A timer that is taken up is spent. -/
theorem spent_of_takes {state : TimerState} {op : Op} {ops : List Op}
    (hdistinct : Distinct state (op :: ops)) {t : Timer}
    (h : (step clock toUppercase state op).1 = .took t) :
    Spent clock t.id (step clock toUppercase state op).2 ops := by
  have hsection := step_section clock toUppercase state op
  rw [h] at hsection
  generalize (step clock toUppercase state op).2 = state' at hsection ⊢
  cases hsection with
  | @took pass _ rest running next free missed =>
      have hsnapshot := hdistinct.snapshot pass running
      have hall : (t :: rest).Sublist pass.due := next ▸ hsnapshot.rest
      have hdue : t ∈ pass.due := hall.subset List.mem_cons_self
      have hnodup : ((t :: rest).map Timer.id).Nodup := hsnapshot.ids.sublist (hall.map _)
      refine ⟨(notMem_drawn (hsnapshot.fresh t hdue)).2, ?_, ?_⟩
      · intro r hr hid
        rw [mem_waiting clock rfl] at hr
        apply (List.nodup_cons.mp hnodup).1
        rw [← hid]
        exact List.mem_map_of_mem hr.1
      · intro _ _ _
        exact ⟨_, rfl, t, hdue, rfl⟩

/-- A spent timer is not taken up. -/
theorem Spent.not_takes {x : Str} {state : TimerState} {ops : List Op}
    (h : Spent clock x state ops) :
    ∀ e ∈ trace (step clock toUppercase) state ops, ¬ Takes e x := by
  intro e he
  obtain ⟨hentry, rest, hinv⟩ := @forall_trace _ _ _ _ (Spent clock x)
    (spent_step clock toUppercase) ops state h e he
  rintro ⟨t, htook, hid⟩
  rw [hentry] at htook
  have hsection := step_section clock toUppercase e.before e.input
  rw [show (step clock toUppercase e.before e.input).1 = .took t from htook] at hsection
  generalize (step clock toUppercase e.before e.input).2 = state' at hsection
  generalize hinput : e.input = input at hsection
  cases hsection with
  | @took pass _ rest' running next free missed =>
      refine hinv.passed t ((mem_waiting clock running).mpr ⟨?_, missed⟩) hid
      rw [next]
      exact List.mem_cons_self

/-- The units a timer with this id is sent to. -/
def sentTo (x : Str) (entries : List Moment) : List Nat :=
  entries.filterMap fun e =>
    match e.output with
    | .applied t unit => if t.id = x then some unit else none
    | _ => none

/-- Nothing is sent for it any more, by induction on the run. -/
theorem Inert.sentTo_eq_nil {x : Str} {state : TimerState} {ops : List Op}
    (h : Inert clock x state ops) : sentTo x (trace (step clock toUppercase) state ops) = [] := by
  apply List.filterMap_eq_nil_iff.mpr
  intro e he
  split
  next t unit happlied =>
    refine if_neg fun hid => ?_
    exact h.not_applies e he ⟨t, unit, happlied, hid⟩
  next => rfl

/-- The first entry of a run, and the others. -/
theorem sentTo_cons (x : Str) (e : Moment) (entries : List Moment) :
    sentTo x (e :: entries) =
      (match e.output with
        | .applied t unit => if t.id = x then [unit] else []
        | _ => []) ++ sentTo x entries := by
  unfold sentTo
  rw [List.filterMap_cons]
  cases e.output with
  | applied t unit =>
      by_cases hid : t.id = x
      · dsimp only
        rw [if_pos hid, if_pos hid]
        exact (List.singleton_append).symm
      · dsimp only
        rw [if_neg hid, if_neg hid]
        exact (List.nil_append _).symm
  | reply _ | took _ | silent => exact (List.nil_append _).symm

/-- What is being sent is what the pass has in hand. -/
theorem current_eq {state : TimerState} {pass : Pass} (running : state.pass = some pass) :
    current state = pass.sending := by
  unfold current
  rw [running]
  rfl

/-- **One application.**  A spent timer that is being sent goes to the units it is
to go to, in order, and to no other. -/
theorem sentTo_prefix {x : Str} {ops : List Op} :
    ∀ {state : TimerState} {t : Timer} {units : List Nat}, Spent clock x state ops →
      current state = some (t, units) → t.id = x →
      (sentTo x (trace (step clock toUppercase) state ops)).IsPrefix units := by
  induction ops with
  | nil =>
      intro state t units _ _ _
      exact List.nil_prefix
  | cons op ops ih =>
      intro state t units hspent hcurrent hid
      have hspent' := spent_step clock toUppercase state op ops hspent
      have hsection := step_section clock toUppercase state op
      have hcons : trace (step clock toUppercase) state (op :: ops) =
          entry (step clock toUppercase) state op ::
            trace (step clock toUppercase) (step clock toUppercase state op).2 ops := rfl
      rw [hcons, sentTo_cons]
      have houtput : (entry (step clock toUppercase) state op).output =
          (step clock toUppercase state op).1 := rfl
      rw [houtput]
      generalize (step clock toUppercase state op).1 = answer at hsection ⊢
      generalize (step clock toUppercase state op).2 = state' at hsection hspent' ⊢
      cases hsection with
      | created | cancelled | configured | idle => exact ih hspent' hcurrent hid
      | began now free =>
          unfold current at hcurrent
          rw [free] at hcurrent
          cases hcurrent
      | skipped running next free missed =>
          rw [current_eq running, free] at hcurrent
          cases hcurrent
      | took running next free missed =>
          rw [current_eq running, free] at hcurrent
          cases hcurrent
      | @sent pass timer unit rest fired errors outcome running next =>
          rw [current_eq running, next] at hcurrent
          cases hcurrent
          dsimp only
          rw [if_pos hid]
          exact List.prefix_cons_inj unit |>.mpr (ih hspent' rfl hid)
      | @done pass timer outcome running next =>
          rw [current_eq running, next] at hcurrent
          cases hcurrent
          -- Nothing is left to send.
          have hinert :
              Inert clock x { state with pass := some { pass with sending := none } } ops := by
            refine ⟨hspent', ?_⟩
            intro r hr
            rcases (mem_toSend clock rfl).mp hr with ⟨unit, units, heq⟩ | hwaits
            · cases heq
            · exact hspent'.passed r ((mem_waiting clock rfl).mpr hwaits)
          rw [hinert.sentTo_eq_nil]
          exact List.nil_prefix
      | finished saved running next free =>
          rw [current_eq running, free] at hcurrent
          cases hcurrent

/-- What is taken up is sent next, to its targets. -/
theorem current_of_took {state : TimerState} {op : Op} {t : Timer}
    (h : (step clock toUppercase state op).1 = .took t) :
    current (step clock toUppercase state op).2 = some (t, targets state.units t) := by
  have hsection := step_section clock toUppercase state op
  rw [h] at hsection
  generalize (step clock toUppercase state op).2 = state' at hsection ⊢
  cases hsection with
  | took running next free missed => rfl

/-- What is sent is being sent. -/
theorem current_of_applied {state : TimerState} {op : Op} {t : Timer} {unit : Nat}
    (h : (step clock toUppercase state op).1 = .applied t unit) :
    ∃ units, current state = some (t, unit :: units) := by
  have hsection := step_section clock toUppercase state op
  rw [h] at hsection
  generalize (step clock toUppercase state op).2 = state' at hsection
  cases hsection with
  | sent fired errors outcome running next => exact ⟨_, (current_eq running).trans next⟩

/-- A timer that is not being sent, and is not taken up, is not being sent
after. -/
theorem other_step {x : Str} {state : TimerState} {op : Op}
    (hother : ∀ t units, current state = some (t, units) → t.id ≠ x)
    (htook : ∀ t, (step clock toUppercase state op).1 = .took t → t.id ≠ x) :
    ∀ t units, current (step clock toUppercase state op).2 = some (t, units) → t.id ≠ x := by
  have hsection := step_section clock toUppercase state op
  generalize (step clock toUppercase state op).1 = answer at hsection htook
  generalize (step clock toUppercase state op).2 = state' at hsection ⊢
  intro t units hcurrent
  cases hsection with
  | created | cancelled | configured | idle => exact hother t units hcurrent
  | began now free => cases hcurrent
  | skipped running next free missed =>
      rw [current_eq rfl, free] at hcurrent
      cases hcurrent
  | took running next free missed =>
      cases hcurrent
      exact htook t rfl
  | @sent pass _ unit _ fired errors outcome running next =>
      cases hcurrent
      exact hother t (unit :: units) ((current_eq running).trans next)
  | done outcome running next => cases hcurrent
  | finished saved running next free => cases hcurrent

/-- A timer that is not being sent is not sent at all, or goes to its targets once
it is taken up. -/
theorem sentTo_cases {x : Str} {ops : List Op} :
    ∀ {state : TimerState}, Distinct state ops →
      (∀ t units, current state = some (t, units) → t.id ≠ x) →
      sentTo x (trace (step clock toUppercase) state ops) = [] ∨
        ∃ e ∈ trace (step clock toUppercase) state ops, ∃ t, e.output = .took t ∧ t.id = x ∧
          (sentTo x (trace (step clock toUppercase) state ops)).IsPrefix
            (targets e.before.units t) := by
  induction ops with
  | nil =>
      intro state _ _
      exact Or.inl rfl
  | cons op ops ih =>
      intro state hdistinct hother
      have hdistinct' := distinct_step clock toUppercase state op ops hdistinct
      have hcons : trace (step clock toUppercase) state (op :: ops) =
          entry (step clock toUppercase) state op ::
            trace (step clock toUppercase) (step clock toUppercase state op).2 ops := rfl
      have houtput : (entry (step clock toUppercase) state op).output =
          (step clock toUppercase state op).1 := rfl
      rw [hcons, sentTo_cons, houtput]
      by_cases htakes : ∃ t, (step clock toUppercase state op).1 = .took t ∧ t.id = x
      · obtain ⟨t, htook, rfl⟩ := htakes
        right
        refine ⟨_, List.mem_cons_self, t, htook, rfl, ?_⟩
        rw [htook]
        exact sentTo_prefix (spent_of_takes hdistinct htook) (current_of_took htook) rfl
      · have htook : ∀ t, (step clock toUppercase state op).1 = .took t → t.id ≠ x :=
          fun t h hid => htakes ⟨t, h, hid⟩
        have hother' := other_step hother htook
        have hfirst : (match (step clock toUppercase state op).1 with
            | .applied t unit => if t.id = x then [unit] else []
            | _ => []) = [] := by
          split
          next t unit happlied =>
            obtain ⟨units, hcurrent⟩ := current_of_applied happlied
            exact if_neg (hother t (unit :: units) hcurrent)
          next => rfl
        rw [hfirst, List.nil_append]
        refine (ih hdistinct' hother').imp_right ?_
        rintro ⟨e, he, h⟩
        exact ⟨e, List.mem_cons_of_mem _ he, h⟩

/-! ## Timers created during a pass -/

/-- A creation is answered with this timer. -/
def Creates (e : Moment) (timer : Timer) : Prop :=
  ∃ left, e.output = .reply ⟨201, .timer timer left⟩

/-- No pass that was over before is in progress, and the one after so many runs
does not remove this id. -/
structure Spares (x : Str) (runs : Nat) (state : TimerState) : Prop where
  before : runs ≤ state.runner.runs
  spared : state.runner.runs = runs →
    ∃ pass, state.pass = some pass ∧ ∀ d ∈ pass.due, d.id ≠ x

variable (clock toUppercase)

/-- A pass that has passed a timer over does not take it up again. What is due is fixed when the
pass begins, so that only the next pass could. -/
theorem spares_step {x : Str} {runs : Nat} (state : TimerState) (op : Op)
    (h : Spares x runs state) : Spares x runs (step clock toUppercase state op).2 := by
  have hsection := step_section clock toUppercase state op
  generalize (step clock toUppercase state op).1 = answer at hsection
  generalize (step clock toUppercase state op).2 = state' at hsection ⊢
  have hgoes : ∀ {pass pass'}, state.pass = some pass → state'.pass = some pass' →
      pass'.due = pass.due → state.runner.runs = runs →
      ∃ pass, state'.pass = some pass ∧ ∀ d ∈ pass.due, d.id ≠ x := by
    intro pass pass' hrunning hpass' hdue hruns
    obtain ⟨pass'', hpass'', hspared⟩ := h.spared hruns
    rw [hrunning] at hpass''
    obtain rfl := Option.some.inj hpass''
    exact ⟨pass', hpass', hdue ▸ hspared⟩
  cases hsection with
  | created | cancelled | configured | idle => exact ⟨h.before, h.spared⟩
  | began now free =>
      refine ⟨h.before, ?_⟩
      intro hruns
      obtain ⟨pass, hpass, -⟩ := h.spared hruns
      rw [free] at hpass
      cases hpass
  | skipped running | took running => exact ⟨h.before, hgoes running rfl rfl⟩
  | sent fired errors outcome running => exact ⟨h.before, hgoes running rfl rfl⟩
  | done outcome running => exact ⟨h.before, hgoes running rfl rfl⟩
  | finished saved running next free =>
      refine ⟨Nat.le_succ_of_le h.before, ?_⟩
      intro hruns
      have hbefore := h.before
      have hafter : state.runner.runs + 1 = runs := hruns
      omega

variable {clock toUppercase}

/-- The runner keeps what its pass spares. -/
theorem Spares.kept {timer : Timer} {state : TimerState} {op : Op}
    (h : Spares timer.id state.runner.runs state) (hmem : timer ∈ state.timers.timers) :
    timer ∈ (step clock toUppercase state op).2.timers.timers ∨
      ∃ reply, (step clock toUppercase state op).1 = .reply reply := by
  have hsection := step_section clock toUppercase state op
  generalize (step clock toUppercase state op).1 = answer at hsection ⊢
  generalize (step clock toUppercase state op).2 = state' at hsection ⊢
  cases hsection with
  | created body idDraw now saved reply => exact Or.inr ⟨reply, rfl⟩
  | cancelled timerId saved reply => exact Or.inr ⟨reply, rfl⟩
  | configured | idle | began | skipped | took | sent | done => exact Or.inl hmem
  | @finished pass saved running next free =>
      left
      obtain ⟨pass', hpass', hspared⟩ := h.spared rfl
      rw [running] at hpass'
      obtain rfl := Option.some.inj hpass'
      exact mem_forget.mpr ⟨hmem, fun d hd hid => hspared d hd hid.symm⟩

/-- What is created during a pass, that pass spares. -/
theorem spares_of_creates {state : TimerState} {op : Op} {ops : List Op}
    (hdistinct : Distinct state (op :: ops)) {timer : Timer}
    (h : Creates (entry (step clock toUppercase) state op) timer) (hpass : state.pass ≠ none) :
    Spares timer.id state.runner.runs (step clock toUppercase state op).2 := by
  obtain ⟨left, hreply⟩ := h
  obtain ⟨body, idDraw, now, rfl, hasked, hafter⟩ := created_of_reply clock toUppercase hreply
  obtain ⟨-, raw, -, rfl, hdrawn, -, -⟩ := requestedTimer_ok hasked
  obtain ⟨pass, hrunning⟩ := Option.ne_none_iff_exists'.mp hpass
  rw [hafter]
  refine ⟨Nat.le_refl _, ?_⟩
  intro _
  refine ⟨pass, hrunning, ?_⟩
  intro d hd hid
  apply (notMem_drawn ((hdistinct.snapshot pass hrunning).fresh d hd)).1
  rw [hid, hdrawn]
  rfl

/-! ## Whole runs -/

/-- What a run of the timers promises. -/
structure Final (entries : List Moment) : Prop where
  /-- A timer that is gone is not sent to a unit any more. -/
  withdrawn : entries.Pairwise fun e e' => ∀ x, Withdraws e x → ¬ Applies e' x
  /-- A timer is taken up once over all passes. -/
  once : entries.Pairwise fun e e' => ∀ x, Takes e x → ¬ Takes e' x
  /-- It is sent to its targets, one by one, and no further. -/
  sent : ∀ x, sentTo x entries = [] ∨
    ∃ e ∈ entries, ∃ t, e.output = .took t ∧ t.id = x ∧
      (sentTo x entries).IsPrefix (targets e.before.units t)
  /-- A timer is in the store once it is created. -/
  created : ∀ e ∈ entries, ∀ timer, Creates e timer → timer ∈ e.after.timers.timers
  /-- The pass during which it is created does not take it out. -/
  kept : entries.Pairwise fun e e' => ∀ timer, Creates e timer → e.before.pass ≠ none →
    e'.before.runner.runs = e.before.runner.runs → timer ∈ e'.before.timers.timers →
    timer ∈ e'.after.timers.timers ∨ ∃ reply, e'.output = .reply reply

variable (clock toUppercase)

/-- Distinct ids, and calm steps to come. -/
structure Undisturbed (state : TimerState) (ops : List Op) : Prop where
  distinct : Distinct state ops
  calm : ∀ e ∈ trace (step clock toUppercase) state ops, Calm clock toUppercase e.before e.input

/-- A run that nobody disturbs stays one. -/
theorem undisturbed_step (state : TimerState) (op : Op) (ops : List Op)
    (h : Undisturbed clock toUppercase state (op :: ops)) :
    Undisturbed clock toUppercase (step clock toUppercase state op).2 ops where
  distinct := distinct_step clock toUppercase state op ops h.distinct
  calm := fun e he => h.calm e (List.mem_cons_of_mem _ he)

/-- **Calm runs.**  In a run of the server in which no withdrawal finds its timer
still to be sent, and no two timers have the same id, a withdrawal is final, every
timer is applied at most once, and no pass loses a timer created during it. -/
theorem timers_final (state : TimerState) (ops : List Op) (hpass : state.pass = none)
    (hids : (state.timers.timers.map Timer.id ++ ops.filterMap Op.drawnId).Nodup)
    (hcalm : ∀ e ∈ trace (step clock toUppercase) state ops,
      Calm clock toUppercase e.before e.input) :
    Final (trace (step clock toUppercase) state ops) := by
  have hdistinct : Distinct state ops := by
    refine ⟨hids, ?_⟩
    intro pass hrunning
    rw [hpass] at hrunning
    cases hrunning
  have hstep := undisturbed_step clock toUppercase
  refine ⟨?_, ?_, ?_, ?_, ?_⟩
  · refine pairwise_trace hstep ?_ ops state ⟨hdistinct, hcalm⟩
    intro state op ops h e' he' x hwithdraws
    have hquiet := h.calm _ List.mem_cons_self
    exact (inert_of_withdraws h.distinct hquiet hwithdraws).not_applies e' he'
  · refine pairwise_trace hstep ?_ ops state ⟨hdistinct, hcalm⟩
    intro state op ops h e' he' x
    rintro ⟨t, htook, rfl⟩
    exact (spent_of_takes h.distinct htook).not_takes e' he'
  · intro x
    apply sentTo_cases hdistinct
    intro t units hcurrent
    unfold current at hcurrent
    rw [hpass] at hcurrent
    cases hcurrent
  · intro e he timer
    obtain ⟨hentry, -⟩ := forall_trace hstep ops state ⟨hdistinct, hcalm⟩ e he
    rw [hentry]
    rintro ⟨left, hreply⟩
    obtain ⟨-, -, -, -, -, hafter⟩ := created_of_reply clock toUppercase hreply
    rw [show (entry (step clock toUppercase) e.before e.input).after =
      { e.before with timers := admitted e.before.timers timer } from hafter]
    exact mem_admitted.mpr (Or.inr rfl)
  · refine pairwise_trace hstep ?_ ops state ⟨hdistinct, hcalm⟩
    intro state op ops h e' he' timer hcreates hrunning hruns hmem
    obtain ⟨hentry, -, hspares⟩ := @forall_trace _ _ _ _
      (fun state _ => Spares timer.id _ state)
      (fun state op _ => spares_step clock toUppercase state op) ops _
      (spares_of_creates h.distinct hcreates hrunning) e' he'
    rw [hentry]
    refine Spares.kept ?_ hmem
    rw [hruns]
    exact hspares

/-- A sleep timer for unit 7, drawn after `oneTimer`. -/
def another : Op :=
  .create (.ok { unitIds := ["7".toList], minutes := some 30 }) (drawnLast 2) (oneDayAt 21 15)
    (.ok ())

/-- A timer fires; another one for the unit comes before the pass is over, and is
cancelled after. -/
def calmRun : List Op :=
  [.snapshot (oneDayAt 21 15), .takeUp, .send (.ok ()), another, .send (.ok ()),
    .finish (.ok ()), .cancel "000000000002".toList (.ok ())]

/-- Passes and requests one after the other. -/
theorem timers_final_calmRun : Final (trace (step oneDay id) oneTimer calmRun) :=
  timers_final oneDay id oneTimer calmRun rfl (by decide +kernel) (by decide +kernel)

/-- A timer is cancelled between the snapshot and its turn. -/
def cancelledInPass : List Op :=
  [.snapshot (oneDayAt 21 15), .cancel "000000000001".toList (.ok ()), .takeUp, .send (.ok ())]

/-- The cancellation is acknowledged, and the timer fires all the same. -/
theorem applied_after_cancellation :
    ¬ Final (trace (step oneDay id) oneTimer cancelledInPass) := by
  intro hfinal
  let e₁ := entry (step oneDay id) (step oneDay id oneTimer (.snapshot (oneDayAt 21 15))).2
    (.cancel "000000000001".toList (.ok ()))
  let e₃ := entry (step oneDay id) (step oneDay id e₁.after .takeUp).2 (.send (.ok ()))
  have hsublist : [e₁, e₃].Sublist (trace (step oneDay id) oneTimer cancelledInPass) :=
    .cons _ (.cons_cons _ (.cons _ (.cons_cons _ .slnil)))
  have hwithdraws : Withdraws e₁ "000000000001".toList := Or.inl ⟨.ok (), rfl, by decide +kernel⟩
  have happlied : e₃.output = .applied (oneTimer.timers.timers.get ⟨0, by decide⟩) 7 := by
    decide +kernel
  exact List.rel_of_pairwise_cons (hfinal.withdrawn.sublist hsublist) List.mem_cons_self
    _ hwithdraws ⟨_, _, happlied, rfl⟩

end BreezeHttp.TimerRoutes
