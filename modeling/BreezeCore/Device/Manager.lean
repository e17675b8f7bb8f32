import BreezeCore.Device.Change
import BreezeCore.Device.Device
import Mathlib.Logic.Function.Basic

/-!
# The control queue of a unit

Changes that arrive while the unit is busy are merged into one batch; the first
request of the batch to reach the unit sends them all as one command, and leaves
the outcome for the others to collect.  Each function here is one section under
the queue's lock, or the sending itself.
-/

namespace BreezeDevice

open Bytes Ac

/-- The result of one command, shared by every request merged into it. -/
structure ControlOutcome where
  /-- What the unit reported back. -/
  state : State
  /-- What the command was built on. -/
  base : State
  /-- Whether `base` was the unit's recent report rather than a fresh read. -/
  baseWasCached : Bool
  /-- The setpoint actually sent. -/
  sent : Setpoint
  /-- How many requests this one command answered. -/
  merged : Nat
  /-- Whether this request is the one that sent the command. -/
  sentByThisRequest : Bool
  deriving DecidableEq, Repr

/-- What a request is answered with. -/
abbrev Result := Except DeviceError ControlOutcome

/-- A published outcome, and how many requests have still to collect it. -/
structure Finished where
  outcome : Result
  uncollected : Nat

/-- Controls waiting to go out on one unit. -/
structure ControlQueue where
  /-- Everything merged since the last command left. -/
  pending : Change := {}
  /-- How many requests are folded into `pending`. -/
  pendingCount : Nat := 0
  /-- The number `pending` will be sent under. -/
  nextBatch : Nat := 0
  /-- Outcomes some of whose requests have not collected them yet. -/
  done : Nat → Option Finished := fun _ => none

/-- The outcome as a request sees it that did not send the command itself. -/
def shared (outcome : Result) : Result :=
  outcome.map fun o => { o with sentByThisRequest := false }

/-- Join the batch that goes out next. -/
def ControlQueue.join (q : ControlQueue) (change : Change) : Nat × ControlQueue :=
  (q.nextBatch,
    { q with pending := q.pending.merge change, pendingCount := q.pendingCount + 1 })

/-- Take the outcome of batch `n` if it has already been sent. -/
def ControlQueue.collect (q : ControlQueue) (n : Nat) : Option (Result × ControlQueue) :=
  match q.done n with
  | none => none
  | some finished =>
      let uncollected := finished.uncollected - 1
      some (shared finished.outcome,
        { q with
          done := Function.update q.done n
            (if uncollected = 0 then none else some ⟨finished.outcome, uncollected⟩) })

/-- Take everything merged so far, if it is still the batch with this number. -/
def ControlQueue.takeBatch (q : ControlQueue) (batch : Nat) :
    Option (Change × Nat × ControlQueue) :=
  if q.nextBatch ≠ batch then none
  else
    some (q.pending, q.pendingCount,
      { q with nextBatch := q.nextBatch + 1, pendingCount := 0, pending := {} })

/-- Leave an outcome for the other requests of its batch. -/
def ControlQueue.publish (q : ControlQueue) (batch merged : Nat) (outcome : Result) :
    ControlQueue :=
  if 1 < merged then
    { q with done := Function.update q.done batch (some ⟨outcome, merged - 1⟩) }
  else q

/-- The answer to a change whose batch was taken by a request that panicked. -/
def lostBeforeSent : Result := .error (.io .other)

/-! ## What the sections under the lock do -/

/-- Publishing leaves the open batch alone. -/
theorem ControlQueue.publish_open (q : ControlQueue) (batch merged : Nat) (outcome : Result) :
    (q.publish batch merged outcome).nextBatch = q.nextBatch ∧
      (q.publish batch merged outcome).pending = q.pending ∧
      (q.publish batch merged outcome).pendingCount = q.pendingCount := by
  unfold publish
  split
  next => exact ⟨rfl, rfl, rfl⟩
  next => exact ⟨rfl, rfl, rfl⟩

/-- It leaves the other batches alone. -/
theorem ControlQueue.publish_other (q : ControlQueue) {batch n : Nat} (merged : Nat)
    (outcome : Result) (hn : n ≠ batch) : (q.publish batch merged outcome).done n = q.done n := by
  unfold publish
  split
  next => exact Function.update_of_ne hn _ _
  next => rfl

/-- It leaves an entry when there is somebody to collect it. -/
theorem ControlQueue.publish_self (q : ControlQueue) {batch : Nat} (merged : Nat)
    (outcome : Result) (hnone : q.done batch = none) :
    (q.publish batch merged outcome).done batch =
      if merged - 1 = 0 then none else some ⟨outcome, merged - 1⟩ := by
  unfold publish
  by_cases hmerged : 1 < merged
  · rw [if_pos hmerged, if_neg (by omega)]
    exact Function.update_self _ _ _
  · rw [if_neg hmerged, if_pos (by omega), hnone]

/-- Collecting finds an entry, and counts it down. -/
theorem ControlQueue.collect_some {q q' : ControlQueue} {n : Nat} {outcome : Result}
    (h : q.collect n = some (outcome, q')) :
    ∃ f, q.done n = some f ∧ outcome = shared f.outcome ∧ q'.nextBatch = q.nextBatch ∧
      q'.pending = q.pending ∧ q'.pendingCount = q.pendingCount ∧
      (∀ m, m ≠ n → q'.done m = q.done m) ∧
      q'.done n = if f.uncollected - 1 = 0 then none
        else some ⟨f.outcome, f.uncollected - 1⟩ := by
  unfold collect at h
  split at h
  next => cases h
  next f hf =>
    obtain ⟨rfl, rfl⟩ := Prod.mk.inj (Option.some.inj h)
    exact ⟨f, hf, rfl, rfl, rfl, rfl, fun m hm => Function.update_of_ne hm _ _,
      Function.update_self _ _ _⟩

theorem ControlQueue.collect_none {q : ControlQueue} {n : Nat} (h : q.collect n = none) :
    q.done n = none := by
  unfold collect at h
  split at h
  next hnone => exact hnone
  next => cases h

/-- Taking the batch empties the queue and opens the next one. -/
theorem ControlQueue.takeBatch_some {q q' : ControlQueue} {batch merged : Nat} {change : Change}
    (h : q.takeBatch batch = some (change, merged, q')) :
    q.nextBatch = batch ∧ change = q.pending ∧ merged = q.pendingCount ∧
      q'.nextBatch = q.nextBatch + 1 ∧ q'.pending = {} ∧ q'.pendingCount = 0 ∧
      q'.done = q.done := by
  unfold takeBatch at h
  split at h
  next => cases h
  next hbatch =>
    obtain ⟨rfl, hrest⟩ := Prod.mk.inj (Option.some.inj h)
    obtain ⟨rfl, rfl⟩ := Prod.mk.inj hrest
    exact ⟨not_not.mp hbatch, rfl, rfl, rfl, rfl, rfl, rfl⟩

theorem ControlQueue.takeBatch_none {q : ControlQueue} {batch : Nat}
    (h : q.takeBatch batch = none) : q.nextBatch ≠ batch := by
  unfold takeBatch at h
  split at h
  next hbatch => exact hbatch
  next => cases h

/-! ## Sending -/

/-- In milliseconds, as the instants of a device are. -/
def CONTROL_BASE_MAX_AGE : Nat := 10000

/-- The last state, if it is no older than `maxAge`. -/
def Device.freshState (d : Device) (maxAge now : Nat) : Option State :=
  match d.lastStateAt with
  | some at_ => if now - at_ ≤ maxAge then d.lastState else none
  | none => none

/-- Drop any cached connection. -/
def Device.forget (d : Device) : Device := { d.dropSession with online := false }

/-- Lay the change over the base and send the result. -/
def sendOver (change : Change) (merged : Nat) (baseWasCached : Bool) (base : State) (d : Device) :
    Outcome ControlOutcome × Device :=
  let sent := change.applyTo (Setpoint.fromState base)
  let (outcome, d) := d.apply sent
  (outcome.map fun state =>
    { state := state, base := base, baseWasCached := baseWasCached, sent := sent
      merged := merged, sentByThisRequest := true }, d)

/-- Build one command from `change` and send it. -/
def sendChange (d : Device) (change : Change) (merged now : Nat) :
    Outcome ControlOutcome × Device :=
  match d.freshState CONTROL_BASE_MAX_AGE now with
  | some base => sendOver change merged true base d
  | none =>
      match d.refresh with
      | (.ok base, d) => sendOver change merged false base d
      | (.failed e, d) => (.failed e, d)
      | (.panicked, d) => (.panicked, d)
      | (.waiting, d) => (.waiting, d)

/-! ## What a send puts on the line -/

theorem Device.exchangeState_sent (d : Device) (command : Octets) :
    ∃ n, (d.exchangeState command).2.sent = d.sent ++ List.replicate (n + 1) command := by
  obtain ⟨n, hn⟩ := d.exchange_sent command fun payload =>
    Fallible.mapFail DeviceError.response (State.parse payload)
  refine ⟨n, ?_⟩
  unfold exchangeState
  rw [← hn]
  split
  next heq =>
    rw [heq]
    rfl
  next heq => rw [heq]

theorem Device.apply_sent (d : Device) (setpoint : Setpoint) :
    ∃ n, (d.apply setpoint).2.sent =
      d.sent ++ List.replicate (n + 1) (setState d.nextId setpoint) :=
  d.nextMessageId.2.exchangeState_sent (setState d.nextId setpoint)

theorem Device.refresh_sent (d : Device) :
    ∃ n, d.refresh.2.sent = d.sent ++ List.replicate (n + 1) (getState d.nextId .indoor) :=
  d.nextMessageId.2.exchangeState_sent (getState d.nextId .indoor)

/-- The outcome is of a command built on a base with this change. -/
structure Built (change : Change) (merged : Nat) (o : ControlOutcome) : Prop where
  sent : o.sent = change.applyTo (Setpoint.fromState o.base)
  merged : o.merged = merged
  sentByThisRequest : o.sentByThisRequest = true

theorem sendOver_built {change : Change} {merged : Nat} {baseWasCached : Bool} {base : State}
    {d : Device} {o : ControlOutcome}
    (h : (sendOver change merged baseWasCached base d).1 = .ok o) :
    Built change merged o ∧ o.base = base := by
  obtain ⟨state, -, rfl⟩ := Outcome.map_eq_ok h
  exact ⟨⟨rfl, rfl, rfl⟩, rfl⟩

theorem sendOver_sent (change : Change) (merged : Nat) (baseWasCached : Bool) (base : State)
    (d : Device) :
    ∃ n, (sendOver change merged baseWasCached base d).2.sent = d.sent ++
      List.replicate (n + 1) (setState d.nextId (change.applyTo (Setpoint.fromState base))) :=
  d.apply_sent (change.applyTo (Setpoint.fromState base))

/-- The base is the unit's recent report, or what it answers when asked. -/
def BaseOf (d : Device) (now : Nat) (base : State) : Prop :=
  d.freshState CONTROL_BASE_MAX_AGE now = some base ∨
    (d.freshState CONTROL_BASE_MAX_AGE now = none ∧ d.refresh.1 = .ok base)

theorem BaseOf.unique {d : Device} {now : Nat} {base base' : State} (h : BaseOf d now base)
    (h' : BaseOf d now base') : base = base' := by
  rcases h with hfresh | ⟨hfresh, hrefresh⟩
  · rcases h' with hfresh' | ⟨hfresh', -⟩
    · exact Option.some.inj (hfresh.symm.trans hfresh')
    · cases hfresh.symm.trans hfresh'
  · rcases h' with hfresh' | ⟨-, hrefresh'⟩
    · cases hfresh.symm.trans hfresh'
    · exact Outcome.ok.inj (hrefresh.symm.trans hrefresh')

/-- What a send puts on the line: state queries, and then one control command, the change over
the unit's base state, at least once; and it does so unless there is no base, because the unit's
recent report is too old and the unit does not answer a query. -/
def Wrote (d : Device) (change : Change) (now : Nat) (written : List Octets) : Prop :=
  ∃ reads readId controls, written =
      List.replicate reads (getState readId .indoor) ++ controls ∧
    ((∀ base, ¬ BaseOf d now base) ∧ controls = [] ∨ ∃ base copies writeId, BaseOf d now base ∧
      controls =
        List.replicate (copies + 1)
          (setState writeId (change.applyTo (Setpoint.fromState base))))

/-- Where there is a base, the command was sent. -/
theorem Wrote.delivered {d : Device} {change : Change} {now : Nat} {written : List Octets}
    {base : State} (h : Wrote d change now written) (hbase : BaseOf d now base) :
    ∃ reads readId copies writeId, written = List.replicate reads (getState readId .indoor) ++
      List.replicate (copies + 1)
        (setState writeId (change.applyTo (Setpoint.fromState base))) := by
  obtain ⟨reads, readId, controls, hwritten,
    ⟨hnone, -⟩ | ⟨base', copies, writeId, hbase', rfl⟩⟩ := h
  · exact absurd hbase (hnone base)
  · obtain rfl := hbase.unique hbase'
    exact ⟨reads, readId, copies, writeId, hwritten⟩

/-- **A send that succeeds** sent the change over the unit's base state. That is the state at hand
while it is recent, and else the one that was read first. -/
theorem sendChange_built {d : Device} {change : Change} {merged now : Nat} {o : ControlOutcome}
    (h : (sendChange d change merged now).1 = .ok o) :
    Built change merged o ∧ BaseOf d now o.base := by
  unfold sendChange at h
  split at h
  next base hfresh =>
    obtain ⟨hbuilt, rfl⟩ := sendOver_built h
    exact ⟨hbuilt, Or.inl hfresh⟩
  next hfresh =>
    split at h
    next base d' hrefresh =>
      obtain ⟨hbuilt, rfl⟩ := sendOver_built h
      refine ⟨hbuilt, Or.inr ⟨hfresh, ?_⟩⟩
      rw [hrefresh]
    next => cases h
    next => cases h
    next => cases h

/-- **Every send**, whatever comes of it, writes the change over the unit's base
state, or nothing but queries where there is none. -/
theorem sendChange_wrote (d : Device) (change : Change) (merged now : Nat) :
    ∃ written, (sendChange d change merged now).2.sent = d.sent ++ written ∧
      Wrote d change now written := by
  unfold sendChange
  split
  next base hfresh =>
    obtain ⟨n, hn⟩ := sendOver_sent change merged true base d
    exact ⟨_, hn, 0, 0, _, rfl, Or.inr ⟨base, n, d.nextId, Or.inl hfresh, rfl⟩⟩
  next hfresh =>
    obtain ⟨reads, hreads⟩ := d.refresh_sent
    have hqueries : (∀ base, d.refresh.1 ≠ .ok base) →
        Wrote d change now (List.replicate (reads + 1) (getState d.nextId .indoor)) := by
      intro hfailed
      refine ⟨reads + 1, d.nextId, [], (List.append_nil _).symm, Or.inl ⟨?_, rfl⟩⟩
      rintro base (hfresh' | ⟨-, hrefresh⟩)
      · cases hfresh.symm.trans hfresh'
      · exact hfailed base hrefresh
    split
    next base d' hrefresh =>
      have hbase : BaseOf d now base := by
        refine Or.inr ⟨hfresh, ?_⟩
        rw [hrefresh]
      rw [hrefresh] at hreads
      obtain ⟨n, hn⟩ := sendOver_sent change merged false base d'
      refine ⟨_, ?_, reads + 1, d.nextId, _, rfl, Or.inr ⟨base, n, d'.nextId, hbase, rfl⟩⟩
      rw [hn, hreads, List.append_assoc]
    next heq =>
      have hfailed : ∀ base, d.refresh.1 ≠ .ok base := by
        intro base hok
        rw [heq] at hok
        cases hok
      rw [heq] at hreads
      exact ⟨_, hreads, hqueries hfailed⟩
    next heq =>
      have hfailed : ∀ base, d.refresh.1 ≠ .ok base := by
        intro base hok
        rw [heq] at hok
        cases hok
      rw [heq] at hreads
      exact ⟨_, hreads, hqueries hfailed⟩
    next heq =>
      have hfailed : ∀ base, d.refresh.1 ≠ .ok base := by
        intro base hok
        rw [heq] at hok
        cases hok
      rw [heq] at hreads
      exact ⟨_, hreads, hqueries hfailed⟩

end BreezeDevice
