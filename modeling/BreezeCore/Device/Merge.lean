import BreezeCore.Device.Manager
import BreezeCore.Lib.Tally

/-!
# Requests that share a command

Any number of requests change the settings of one unit at once.  Each joins the
queue, waits for the unit, looks for an outcome, and, finding none, takes the
batch, sends it and publishes what came of it.  A step is one section under a
lock; the steps of different requests interleave in every way, and whoever else
uses the unit may do so while no request holds it.

`joined` and `sends` are bookkeeping: the requests in order of arrival, and the
calls of `send_change` in order.
-/

namespace BreezeDevice

open Tally

/-- Where a request is.  The numbers are what it keeps in its local variables: its batch, and what
it took from the queue when it was the one to send. -/
inductive Phase where
  | idle
  /-- Joined a batch and waits for the unit. -/
  | waiting (batch : Nat)
  /-- Has the unit. -/
  | holding (batch : Nat)
  /-- Has the unit and found no outcome. -/
  | unanswered (batch : Nat)
  /-- Took the batch. -/
  | sending (batch : Nat) (change : Change) (merged : Nat)
  /-- Sent it and has the outcome. -/
  | publishing (batch merged : Nat) (outcome : Result)
  | finished (outcome : Result)
  | panicked
  deriving DecidableEq

/-- A request, its batch and its change, as it joined. -/
structure Joined where
  id : Nat
  batch : Nat
  change : Change

/-- A call of `send_change`: who sent which batch, on what device and when. -/
structure Sent where
  batch : Nat
  sender : Nat
  change : Change
  merged : Nat
  device : Device
  now : Nat

def Sent.result (x : Sent) : Outcome ControlOutcome :=
  (sendChange x.device x.change x.merged x.now).1

/-- The commands it put on the line. -/
def Sent.written (x : Sent) : List Bytes.Octets :=
  (sendChange x.device x.change x.merged x.now).2.sent.drop x.device.sent.length

/-- One unit and everything that goes on around it. -/
structure Slot where
  device : Device
  poisoned : Bool := false
  /-- Who has the unit. -/
  holder : Option Nat := none
  queue : ControlQueue := {}
  phase : Nat → Phase := fun _ => .idle
  joined : List Joined := []
  sends : List Sent := []

/-- The unit as a request finds it when it gets the lock: rebuilt, if somebody
panicked with it. -/
def Slot.lockDevice (s : Slot) : Device := if s.poisoned then s.device.forget else s.device

/-- An outcome a call came back with. -/
def Outcome.ofResult {α : Type} : Except DeviceError α → Outcome α
  | .ok a => .ok a
  | .error e => .failed e

inductive Action where
  | join (i : Nat) (change : Change)
  | acquire (i : Nat)
  | collect (i : Nat)
  | take (i : Nat)
  | send (i : Nat)
  | publish (i : Nat)
  | other

/-- The steps of the requests, and of others that use the unit in between. A step is what happens
between two releases of the queue's lock, or of the unit's. -/
inductive Step : Slot → Action → Slot → Prop where
  | join {s : Slot} {i : Nat} (change : Change) (idle : s.phase i = .idle) :
      Step s (.join i change)
        { s with
          queue := (s.queue.join change).2
          phase := Function.update s.phase i (.waiting (s.queue.join change).1)
          joined := s.joined ++ [⟨i, (s.queue.join change).1, change⟩] }
  | acquire {s : Slot} {i batch : Nat} (waiting : s.phase i = .waiting batch)
      (free : s.holder = none) :
      Step s (.acquire i)
        { s with
          device := s.lockDevice
          holder := some i
          phase := Function.update s.phase i (.holding batch) }
  | collected {s : Slot} {i batch : Nat} {outcome : Result} {queue : ControlQueue}
      (holding : s.phase i = .holding batch)
      (found : s.queue.collect batch = some (outcome, queue)) :
      Step s (.collect i)
        { s with
          holder := none
          queue := queue
          phase := Function.update s.phase i (.finished outcome) }
  | uncollected {s : Slot} {i batch : Nat} (holding : s.phase i = .holding batch)
      (missing : s.queue.collect batch = none) :
      Step s (.collect i) { s with phase := Function.update s.phase i (.unanswered batch) }
  | taken {s : Slot} {i batch merged : Nat} {change : Change} {queue : ControlQueue}
      (unanswered : s.phase i = .unanswered batch)
      (found : s.queue.takeBatch batch = some (change, merged, queue)) :
      Step s (.take i)
        { s with
          queue := queue
          phase := Function.update s.phase i (.sending batch change merged) }
  | lost {s : Slot} {i batch : Nat} (unanswered : s.phase i = .unanswered batch)
      (missing : s.queue.takeBatch batch = none) :
      Step s (.take i)
        { s with
          holder := none
          phase := Function.update s.phase i (.finished lostBeforeSent) }
  | sent {s : Slot} {i batch merged : Nat} {change : Change} {result : Result} {device : Device}
      (line : List Attempt) (now : Nat) (sending : s.phase i = .sending batch change merged)
      (answered : sendChange { s.device with line := line } change merged now =
        (.ofResult result, device)) :
      Step s (.send i)
        { s with
          device := device
          phase := Function.update s.phase i (.publishing batch merged result)
          sends := s.sends ++
            [⟨batch, i, change, merged, { s.device with line := line }, now⟩] }
  | panicked {s : Slot} {i batch merged : Nat} {change : Change} {device : Device}
      (line : List Attempt) (now : Nat) (sending : s.phase i = .sending batch change merged)
      (panics : sendChange { s.device with line := line } change merged now =
        (.panicked, device)) :
      Step s (.send i)
        { s with
          device := device
          poisoned := true
          holder := none
          phase := Function.update s.phase i .panicked
          sends := s.sends ++
            [⟨batch, i, change, merged, { s.device with line := line }, now⟩] }
  | publish {s : Slot} {i batch merged : Nat} {outcome : Result}
      (publishing : s.phase i = .publishing batch merged outcome) :
      Step s (.publish i)
        { s with
          holder := none
          queue := s.queue.publish batch merged outcome
          phase := Function.update s.phase i (.finished outcome) }
  | other {s : Slot} (device : Device) (poisoned : Bool) (free : s.holder = none) :
      Step s .other { s with device := device, poisoned := s.poisoned || poisoned }

/-- A step of a request together with what the unit does and when. -/
inductive Move where
  | join (i : Nat) (change : Change)
  | acquire (i : Nat)
  | collect (i : Nat)
  | take (i : Nat)
  | send (i : Nat) (line : List Attempt) (now : Nat)
  | publish (i : Nat)

def Move.action : Move → Action
  | .join i change => .join i change
  | .acquire i => .acquire i
  | .collect i => .collect i
  | .take i => .take i
  | .send i _ _ => .send i
  | .publish i => .publish i

/-- A request ends with an outcome and gives up the unit. -/
def Slot.finish (s : Slot) (i : Nat) (queue : ControlQueue) (outcome : Result) : Slot :=
  { s with
    holder := none
    queue := queue
    phase := Function.update s.phase i (.finished outcome) }

/-- The steps, computed. Where the relation has no step of this request the answer is none. -/
def act (s : Slot) : Move → Option Slot
  | .join i change =>
      match s.phase i with
      | .idle =>
          let (batch, queue) := s.queue.join change
          some { s with
            queue := queue
            phase := Function.update s.phase i (.waiting batch)
            joined := s.joined ++ [⟨i, batch, change⟩] }
      | _ => none
  | .acquire i =>
      match s.phase i, s.holder with
      | .waiting batch, none =>
          some { s with
            device := s.lockDevice
            holder := some i
            phase := Function.update s.phase i (.holding batch) }
      | _, _ => none
  | .collect i =>
      match s.phase i with
      | .holding batch =>
          match s.queue.collect batch with
          | some (outcome, queue) => some (s.finish i queue outcome)
          | none => some { s with phase := Function.update s.phase i (.unanswered batch) }
      | _ => none
  | .take i =>
      match s.phase i with
      | .unanswered batch =>
          match s.queue.takeBatch batch with
          | some (change, merged, queue) =>
              some { s with
                queue := queue
                phase := Function.update s.phase i (.sending batch change merged) }
          | none => some (s.finish i s.queue lostBeforeSent)
      | _ => none
  | .send i line now =>
      match s.phase i with
      | .sending batch change merged =>
          let before := { s.device with line := line }
          let sent : Sent := ⟨batch, i, change, merged, before, now⟩
          let came (device : Device) (result : Result) : Slot :=
            { s with
              device := device
              phase := Function.update s.phase i (.publishing batch merged result)
              sends := s.sends ++ [sent] }
          match sendChange before change merged now with
          | (.ok o, device) => some (came device (.ok o))
          | (.failed e, device) => some (came device (.error e))
          | (.panicked, device) =>
              some { s with
                device := device
                poisoned := true
                holder := none
                phase := Function.update s.phase i .panicked
                sends := s.sends ++ [sent] }
          | (.waiting, _) => none
      | _ => none
  | .publish i =>
      match s.phase i with
      | .publishing batch merged outcome =>
          some (s.finish i (s.queue.publish batch merged outcome) outcome)
      | _ => none

/-- What is computed is a step. Each move looks at the phase of its request and at who holds the
lock, and is refused where the relation would not have it. -/
theorem act_step (s : Slot) (m : Move) (s' : Slot) (h : act s m = some s') :
    Step s m.action s' := by
  cases m with
  | join i change =>
      rw [act] at h
      split at h
      next hphase =>
        obtain rfl := Option.some.inj h
        exact .join change hphase
      next => cases h
  | acquire i =>
      rw [act] at h
      split at h
      next batch hphase hholder =>
        obtain rfl := Option.some.inj h
        exact .acquire hphase hholder
      next => cases h
  | collect i =>
      rw [act] at h
      split at h
      next batch hphase =>
        split at h
        next outcome queue hfound =>
          obtain rfl := Option.some.inj h
          exact .collected hphase hfound
        next hmissing =>
          obtain rfl := Option.some.inj h
          exact .uncollected hphase hmissing
      next => cases h
  | take i =>
      rw [act] at h
      split at h
      next batch hphase =>
        split at h
        next change merged queue hfound =>
          obtain rfl := Option.some.inj h
          exact .taken hphase hfound
        next hmissing =>
          obtain rfl := Option.some.inj h
          exact .lost hphase hmissing
      next => cases h
  | send i line now =>
      rw [act] at h
      split at h
      next batch change merged hphase =>
        dsimp only at h
        split at h
        next o device hanswer =>
          obtain rfl := Option.some.inj h
          have hsent : sendChange { s.device with line := line } change merged now =
              (.ofResult (.ok o), device) := hanswer
          exact .sent line now hphase hsent
        next e device hanswer =>
          obtain rfl := Option.some.inj h
          have hsent : sendChange { s.device with line := line } change merged now =
              (.ofResult (.error e), device) := hanswer
          exact .sent line now hphase hsent
        next device hpanics =>
          obtain rfl := Option.some.inj h
          exact .panicked line now hphase hpanics
        next => cases h
      next => cases h
  | publish i =>
      rw [act] at h
      split at h
      next batch merged outcome hphase =>
        obtain rfl := Option.some.inj h
        exact .publish hphase
      next => cases h

/-! ## Batches -/

/-- The requests of a batch, in order of arrival. -/
def members (joined : List Joined) (n : Nat) : List Joined := joined.filter fun r => r.batch = n

/-- Their changes folded together. -/
def folded (requests : List Joined) : Change := mergeAll (requests.map Joined.change)

/-- The batch number a request on its way keeps. -/
def Phase.batch? : Phase → Option Nat
  | .waiting n | .holding n | .unanswered n | .sending n _ _ | .publishing n _ _ => some n
  | .idle | .finished _ | .panicked => none

/-- Has sent nothing yet, and has no outcome. -/
def Phase.early : Phase → Bool
  | .idle | .waiting _ | .holding _ | .unanswered _ | .sending .. => true
  | .publishing .. | .finished _ | .panicked => false

/-- Has the unit. -/
def Phase.holds : Phase → Bool
  | .holding _ | .unanswered _ | .sending .. | .publishing .. => true
  | _ => false

/-- Whether a request still waits for its outcome, as a number. -/
def Phase.waits (p : Phase) : Nat := if p.batch?.isSome then 1 else 0

/-- How many steps a request has before it, at most. -/
def Phase.work : Phase → Nat
  | .waiting _ => 5
  | .holding _ => 4
  | .unanswered _ => 3
  | .sending .. => 2
  | .publishing .. => 1
  | .idle | .finished _ | .panicked => 0

/-- The requests of a batch that wait for an outcome. -/
def outstanding (joined : List Joined) (phase : Nat → Phase) (n : Nat) : Nat :=
  tally Joined.id Phase.waits phase (members joined n)

theorem mem_members {joined : List Joined} {n : Nat} {r : Joined} :
    r ∈ members joined n ↔ r ∈ joined ∧ r.batch = n := by
  rw [members, List.mem_filter, decide_eq_true_iff]

theorem members_append_of_ne {joined : List Joined} {r : Joined} {n : Nat} (h : r.batch ≠ n) :
    members (joined ++ [r]) n = members joined n := by
  rw [members, List.filter_append, List.filter_singleton, decide_eq_false h]
  exact List.append_nil _

theorem members_append_self (joined : List Joined) (r : Joined) :
    members (joined ++ [r]) r.batch = members joined r.batch ++ [r] := by
  rw [members, List.filter_append, List.filter_singleton, decide_eq_true rfl]
  rfl

theorem folded_append (requests : List Joined) (r : Joined) :
    folded (requests ++ [r]) = (folded requests).merge r.change := by
  rw [folded, List.map_append]
  exact mergeAll_append _ _

theorem nodup_members {joined : List Joined} (h : (joined.map Joined.id).Nodup) (n : Nat) :
    ((members joined n).map Joined.id).Nodup :=
  h.sublist (List.filter_sublist.map _)

end BreezeDevice
