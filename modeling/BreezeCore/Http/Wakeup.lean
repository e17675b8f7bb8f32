import Mathlib.Logic.Function.Basic
import BreezeCore.Http.Stream
import BreezeCore.Lib.Monitor

/-!
# Waking the poller

While nobody is subscribed the poller sleeps on a condition variable.  The list of
subscribers has a lock of its own, held only to look at it or to change it, so each use of
the list is one step; taking the lock of the condition variable, waiting, notifying and
dropping the lock are steps too.  Nothing that runs under one of these locks panics, so none
is ever poisoned.

* `no_lost_wakeup` — whoever has subscribed is not waited for, in any order of the steps of
  any number of threads.
-/

namespace BreezeHttp.Wakeup

open Runs LiveStream

/-- The poller, and the calls of `subscribe`. -/
inductive Thread where
  | poller
  | caller (n : Nat)
  deriving DecidableEq

/-- Where one call of `subscribe` is. -/
inductive Call where
  | start
  | numbered (id : UInt64)
  | pushed (id : UInt64)
  /-- It holds the wake lock. -/
  | locked (id : UInt64)
  | notified (id : UInt64)
  | returned (id : UInt64)
  /-- `MAX_STREAMS` were open. -/
  | refused
  deriving DecidableEq

/-- Where the poller is. -/
inductive Poller where
  | counting
  | locking
  /-- It holds the wake lock, here and in the next two. -/
  | recounting
  | waitNext
  | leaving
  /-- It is in `wait`. -/
  | asleep
  | polling
  deriving DecidableEq

/-- A stream that is to be told of changes. -/
structure Subscriber where
  id : UInt64
  /-- The call that made the channel. -/
  tx : Nat
  deriving DecidableEq

/-- The subscribers, the lock and condition variable the poller waits on, and how far each call
has come. -/
structure WakeState where
  nextId : UInt64 := 1
  subs : List Subscriber := []
  /-- The wake lock and its condition variable. -/
  wake : Monitor Thread := {}
  calls : Nat → Call := fun _ => .start
  poller : Poller := .counting

/-- How many there are. -/
def WakeState.subscriberCount (s : WakeState) : Nat := s.subs.length

/-- One call has come further. -/
def WakeState.setCall (s : WakeState) (n : Nat) (call : Call) : WakeState :=
  { s with calls := Function.update s.calls n call }

/-- The next step of a call of `subscribe`. It enters the table first, and notifies with the lock
of the condition held. -/
def subscribe (s : WakeState) (n : Nat) : Option WakeState :=
  match s.calls n with
  | .start => some { s.setCall n (.numbered s.nextId) with nextId := s.nextId + 1 }
  | .numbered id =>
      if MAX_STREAMS ≤ s.subs.length then some (s.setCall n .refused)
      else some { s.setCall n (.pushed id) with subs := s.subs ++ [⟨id, n⟩] }
  | .pushed id => do
      let wake ← s.wake.acquire (.caller n)
      some { s.setCall n (.locked id) with wake := wake }
  | .locked id => some { s.setCall n (.notified id) with wake := s.wake.notifyAll }
  | .notified id => do
      let wake ← s.wake.release (.caller n)
      some { s.setCall n (.returned id) with wake := wake }
  | .returned _ | .refused => none

/-- A stream is told no more. -/
def unsubscribe (s : WakeState) (id : UInt64) : WakeState :=
  { s with subs := s.subs.filter fun sub => sub.id ≠ id }

/-- The next step of the poller. It counts twice: once without the lock of the condition, and
again with it, before it waits. -/
def poll (s : WakeState) : Option WakeState :=
  match s.poller with
  | .counting => some { s with poller := if s.subscriberCount = 0 then .locking else .polling }
  | .locking => do
      let wake ← s.wake.acquire .poller
      some { s with wake := wake, poller := .recounting }
  | .recounting => some { s with poller := if s.subscriberCount = 0 then .waitNext else .leaving }
  | .waitNext => do
      let wake ← s.wake.wait .poller
      some { s with wake := wake, poller := .asleep }
  | .asleep => do
      let wake ← s.wake.acquire .poller
      some { s with wake := wake, poller := .leaving }
  | .leaving => do
      let wake ← s.wake.release .poller
      some { s with wake := wake, poller := .counting }
  | .polling => some { s with poller := .counting }

/-- A step of a call or of the poller, or a wake-up for no reason. -/
inductive Op where
  | subscribe (n : Nat)
  | unsubscribe (id : UInt64)
  | poll
  /-- The poller wakes up by itself. -/
  | spurious
  deriving DecidableEq

/-- One step, where it can be taken. -/
def step (s : WakeState) : Op → Option WakeState
  | .subscribe n => subscribe s n
  | .unsubscribe id => some (unsubscribe s id)
  | .poll => poll s
  | .spurious => do
      let wake ← s.wake.wakeUp .poller
      some { s with wake := wake }

/-- The poller waits and has not been notified. -/
def WakeState.Waits (s : WakeState) : Prop := s.poller = .asleep ∧ .poller ∈ s.wake.waiting

/-- A call of `subscribe` has returned, and its subscriber is registered. -/
def WakeState.Watched (s : WakeState) : Prop :=
  ∃ sub ∈ s.subs, ∃ id, s.calls sub.tx = .returned id

/-! ## Who holds the lock -/

/-- The call is between taking the lock and letting it go. -/
def Call.Holding : Call → Prop
  | .locked _ | .notified _ => True
  | _ => False

/-- The poller has the lock of the condition. -/
def Poller.Holding : Poller → Prop
  | .recounting | .waitNext | .leaving => True
  | _ => False

/-- A thread has the lock. -/
def WakeState.Holding (s : WakeState) : Thread → Prop
  | .poller => s.poller.Holding
  | .caller n => (s.calls n).Holding

/-- The call has registered its subscriber and has still to notify the poller. -/
def Call.WillNotify : Call → Prop
  | .pushed _ | .locked _ => True
  | _ => False

/-- What holds in every state. -/
structure Inv (s : WakeState) : Prop where
  room : s.subs.length ≤ MAX_STREAMS
  owner : ∀ t, s.wake.holder = some t ↔ s.Holding t
  waiting : ∀ t ∈ s.wake.waiting, t = .poller ∧ s.poller = .asleep
  /-- Whoever subscribed since the poller counted nobody will notify it. -/
  awaited : s.poller = .waitNext ∨ .poller ∈ s.wake.waiting →
    ∀ sub ∈ s.subs, (s.calls sub.tx).WillNotify

/-- Nobody has subscribed, and the poller has not begun. -/
theorem inv_start : Inv {} where
  room := Nat.zero_le _
  owner t := by
    cases t with
    | poller => exact iff_of_false nofun id
    | caller n => exact iff_of_false nofun id
  waiting := nofun
  awaited := nofun

section SetCall

variable {s : WakeState} {n m : Nat} {call : Call}

/-- The call that has come further. -/
@[simp] theorem setCall_same : (s.setCall n call).calls n = call := Function.update_self ..

/-- The others are where they were. -/
theorem setCall_other (h : m ≠ n) : (s.setCall n call).calls m = s.calls m :=
  Function.update_of_ne h ..

/-- Whether it has the lock now. -/
theorem holding_setCall_same : (s.setCall n call).Holding (.caller n) ↔ call.Holding :=
  iff_of_eq (congrArg Call.Holding setCall_same)

/-- The other threads have it or not as before. -/
theorem holding_setCall_other {t : Thread} (h : t ≠ .caller n) :
    (s.setCall n call).Holding t ↔ s.Holding t := by
  cases t with
  | poller => exact Iff.rfl
  | caller m =>
      have hne : m ≠ n := fun heq => h (congrArg Thread.caller heq)
      exact iff_of_eq (congrArg Call.Holding (setCall_other hne))

/-- The lock stays with its owner when the call keeps it, or keeps off it. -/
theorem holding_setCall (h : call.Holding ↔ (s.calls n).Holding) (t : Thread) :
    (s.setCall n call).Holding t ↔ s.Holding t := by
  by_cases ht : t = .caller n
  · subst ht
    exact holding_setCall_same.trans h
  · exact holding_setCall_other ht

/-- A call that will notify still will, if the one that moved has not given up. -/
theorem willNotify_setCall (h : (s.calls n).WillNotify → call.WillNotify)
    (hm : (s.calls m).WillNotify) : ((s.setCall n call).calls m).WillNotify := by
  by_cases hmn : m = n
  · subst hmn
    rw [setCall_same]
    exact h hm
  · rw [setCall_other hmn]
    exact hm

end SetCall

/-- Who holds the lock is the only one to hold it. -/
theorem Inv.only {s : WakeState} (h : Inv s) {t t' : Thread} (ht : s.Holding t)
    (ht' : s.wake.holder = some t') : t = t' :=
  Option.some.inj (((h.owner t).mpr ht).symm.trans ht')

/-- A call goes on, keeps what it had of the lock, and notifies the poller still if it was
to. -/
theorem Inv.setCall {s : WakeState} (h : Inv s) {n : Nat} {call : Call}
    (hkeep : call.Holding ↔ (s.calls n).Holding)
    (hwill : (s.calls n).WillNotify → call.WillNotify) : Inv (s.setCall n call) where
  room := h.room
  owner t := (h.owner t).trans (holding_setCall hkeep t).symm
  waiting := h.waiting
  awaited hasleep sub hsub := willNotify_setCall hwill (h.awaited hasleep sub hsub)

/-- A call takes the lock. -/
theorem Inv.callAcquires {s : WakeState} (h : Inv s) {n : Nat} {call : Call}
    {wake : Monitor Thread} (hacquire : s.wake.acquire (.caller n) = some wake)
    (hholding : call.Holding) (hwill : call.WillNotify) :
    Inv { s.setCall n call with wake := wake } := by
  obtain ⟨hfree, -, rfl⟩ := Monitor.acquire_eq_some.mp hacquire
  refine
    { room := h.room
      owner := fun t => ?_
      waiting := h.waiting
      awaited := fun hasleep sub hsub =>
        willNotify_setCall (fun _ => hwill) (h.awaited hasleep sub hsub) }
  by_cases ht : t = .caller n
  · subst ht
    exact iff_of_true rfl (holding_setCall_same.mpr hholding)
  · refine iff_of_false (fun heq => ht (Option.some.inj heq).symm) fun hother => ?_
    have hheld := (h.owner t).mpr ((holding_setCall_other ht).mp hother)
    rw [hfree] at hheld
    cases hheld

/-- A call gives the lock back, and has notified the poller. -/
theorem Inv.callReleases {s : WakeState} (h : Inv s) {n : Nat} {call : Call}
    {wake : Monitor Thread} (hrelease : s.wake.release (.caller n) = some wake)
    (hholding : ¬ call.Holding) (hwill : (s.calls n).WillNotify → call.WillNotify) :
    Inv { s.setCall n call with wake := wake } := by
  obtain ⟨hheld, rfl⟩ := Monitor.release_eq_some.mp hrelease
  refine
    { room := h.room
      owner := fun t => iff_of_false nofun fun hother => ?_
      waiting := h.waiting
      awaited := fun hasleep sub hsub =>
        willNotify_setCall hwill (h.awaited hasleep sub hsub) }
  by_cases ht : t = .caller n
  · subst ht
    exact hholding (holding_setCall_same.mp hother)
  · exact ht (h.only ((holding_setCall_other ht).mp hother) hheld)

/-- A subscriber is registered by a call that will notify the poller. -/
theorem Inv.register {s : WakeState} (h : Inv s) {sub : Subscriber}
    (hroom : s.subs.length < MAX_STREAMS) (hwill : (s.calls sub.tx).WillNotify) :
    Inv { s with subs := s.subs ++ [sub] } where
  room := by
    rw [List.length_append, List.length_singleton]
    omega
  owner := h.owner
  waiting := h.waiting
  awaited hasleep other hother := by
    rcases List.mem_append.mp hother with hold | hnew
    · exact h.awaited hasleep other hold
    · obtain rfl := List.mem_singleton.mp hnew
      exact hwill

/-- A call that holds the lock notifies the poller, which cannot be about to wait then. -/
theorem Inv.callNotifies {s : WakeState} (h : Inv s) {n : Nat} {call : Call}
    (hheld : s.wake.holder = some (.caller n)) (hkeep : call.Holding) :
    Inv { s.setCall n call with wake := s.wake.notifyAll } where
  room := h.room
  owner t := by
    have hholding : (s.calls n).Holding := (h.owner (.caller n)).mp hheld
    exact (h.owner t).trans (holding_setCall (iff_of_true hkeep hholding) t).symm
  waiting := nofun
  awaited hasleep := by
    rcases hasleep with hnext | hwaiting
    · have hpoller : s.Holding .poller := by
        change s.poller.Holding
        rw [show s.poller = .waitNext from hnext]
        trivial
      cases h.only hpoller hheld
    · cases hwaiting

/-- **One step of `subscribe`.** It draws its number, enters the table or is refused, and only
then takes the lock to notify, so that whoever waits is woken behind its entry. -/
theorem inv_subscribe {s s' : WakeState} (h : Inv s) {n : Nat} (hstep : subscribe s n = some s') :
    Inv s' := by
  unfold subscribe at hstep
  cases hcall : s.calls n with
  | start =>
      rw [hcall] at hstep
      obtain rfl := Option.some.inj hstep
      have hnext : Inv (s.setCall n (.numbered s.nextId)) :=
        h.setCall (by rw [hcall]; exact Iff.rfl) (by rw [hcall]; exact False.elim)
      exact ⟨hnext.room, hnext.owner, hnext.waiting, hnext.awaited⟩
  | numbered id =>
      rw [hcall] at hstep
      dsimp only at hstep
      split at hstep
      next =>
        obtain rfl := Option.some.inj hstep
        exact h.setCall (by rw [hcall]; exact Iff.rfl) (by rw [hcall]; exact False.elim)
      next hroom =>
        obtain rfl := Option.some.inj hstep
        have hpushed : Inv (s.setCall n (.pushed id)) :=
          h.setCall (by rw [hcall]; exact Iff.rfl) fun _ => trivial
        refine @Inv.register _ hpushed ⟨id, n⟩ (Nat.not_le.mp hroom) ?_
        rw [setCall_same]
        trivial
  | pushed id =>
      rw [hcall] at hstep
      obtain ⟨wake, hacquire, hs'⟩ := Option.bind_eq_some_iff.mp hstep
      obtain rfl := Option.some.inj hs'
      exact h.callAcquires hacquire trivial trivial
  | locked id =>
      rw [hcall] at hstep
      obtain rfl := Option.some.inj hstep
      refine h.callNotifies ((h.owner (.caller n)).mpr ?_) trivial
      change (s.calls n).Holding
      rw [hcall]
      trivial
  | notified id =>
      rw [hcall] at hstep
      obtain ⟨wake, hrelease, hs'⟩ := Option.bind_eq_some_iff.mp hstep
      obtain rfl := Option.some.inj hs'
      exact h.callReleases hrelease not_false (by rw [hcall]; exact False.elim)
  | returned id => rw [hcall] at hstep; cases hstep
  | refused => rw [hcall] at hstep; cases hstep

/-- A subscriber less keeps the invariant: nobody has to be woken for it. -/
theorem inv_unsubscribe {s : WakeState} (h : Inv s) (id : UInt64) : Inv (unsubscribe s id) where
  room := (List.length_filter_le _ _).trans h.room
  owner := h.owner
  waiting := h.waiting
  awaited hasleep sub hsub := h.awaited hasleep sub (List.mem_filter.mp hsub).1

/-- While the poller is not asleep, nobody waits. -/
theorem Inv.awake {s : WakeState} (h : Inv s) (hpoller : s.poller ≠ .asleep) (t : Thread) :
    t ∉ s.wake.waiting :=
  fun ht => hpoller (h.waiting t ht).2

/-- Nobody holds the lock when the poller has given it up. -/
theorem Inv.pollerGivesUp {s s' : WakeState} (h : Inv s) (hheld : s.wake.holder = some .poller)
    (hfree : s'.wake.holder = none) (hpoller : ¬ s'.poller.Holding) (hcalls : s'.calls = s.calls)
    (t : Thread) : s'.wake.holder = some t ↔ s'.Holding t := by
  refine iff_of_false (by rw [hfree]; nofun) fun hholding => ?_
  cases t with
  | poller => exact hpoller hholding
  | caller n =>
      have hcaller : s.Holding (.caller n) := by
        change (s.calls n).Holding
        rw [← hcalls]
        exact hholding
      cases h.only hcaller hheld

/-- The poller goes on, keeps what it had of the lock, and does not wait. -/
theorem Inv.setPoller {s : WakeState} (h : Inv s) {poller : Poller}
    (hpoller : s.poller ≠ .asleep) (hkeep : poller.Holding ↔ s.poller.Holding)
    (hnext : poller = .waitNext → s.subs = []) : Inv { s with poller := poller } where
  room := h.room
  owner t := by
    cases t with
    | poller => exact (h.owner .poller).trans hkeep.symm
    | caller n => exact h.owner (.caller n)
  waiting t ht := absurd ht (h.awake hpoller t)
  awaited hasleep sub hsub := by
    rcases hasleep with hwait | hwaiting
    · rw [hnext hwait] at hsub
      cases hsub
    · exact absurd hwaiting (h.awake hpoller _)

/-- The poller takes the lock, and does not wait. -/
theorem Inv.pollerAcquires {s : WakeState} (h : Inv s) {wake : Monitor Thread} {poller : Poller}
    (hacquire : s.wake.acquire .poller = some wake) (hholding : poller.Holding)
    (hnext : poller ≠ .waitNext) : Inv { s with wake := wake, poller := poller } := by
  obtain ⟨hfree, hawake, rfl⟩ := Monitor.acquire_eq_some.mp hacquire
  have hnobody : ∀ t, ¬ s.Holding t := by
    intro t ht
    have hheld := (h.owner t).mpr ht
    rw [hfree] at hheld
    cases hheld
  refine { room := h.room, owner := fun t => ?_, waiting := fun t ht => ?_, awaited := ?_ }
  · cases t with
    | poller => exact iff_of_true rfl hholding
    | caller n => exact iff_of_false nofun (hnobody (.caller n))
  · obtain ⟨rfl, -⟩ := h.waiting t ht
    exact absurd ht hawake
  · rintro (hwait | hwaiting)
    · exact absurd hwait hnext
    · exact absurd hwaiting hawake

/-- **One step of the poller.** It counts the subscribers, and where there are none counts again
under the lock before it waits, so that a call that notifies in between is not slept through. -/
theorem inv_poll {s s' : WakeState} (h : Inv s) (hstep : poll s = some s') : Inv s' := by
  unfold poll at hstep
  cases hphase : s.poller with
  | counting =>
      rw [hphase] at hstep
      obtain rfl := Option.some.inj hstep
      refine h.setPoller (by rw [hphase]; decide) ?_ ?_
      · rw [hphase]
        split <;> exact Iff.rfl
      · split <;> nofun
  | locking =>
      rw [hphase] at hstep
      obtain ⟨wake, hacquire, hs'⟩ := Option.bind_eq_some_iff.mp hstep
      obtain rfl := Option.some.inj hs'
      exact h.pollerAcquires hacquire trivial nofun
  | recounting =>
      rw [hphase] at hstep
      obtain rfl := Option.some.inj hstep
      refine h.setPoller (by rw [hphase]; decide) ?_ ?_
      · rw [hphase]
        split <;> exact Iff.rfl
      · intro hnext
        split at hnext
        next hcount => exact List.length_eq_zero_iff.mp hcount
        next => cases hnext
  | waitNext =>
      rw [hphase] at hstep
      obtain ⟨wake, hwait, hs'⟩ := Option.bind_eq_some_iff.mp hstep
      obtain rfl := Option.some.inj hs'
      obtain ⟨hheld, rfl⟩ := Monitor.wait_eq_some.mp hwait
      refine
        { room := h.room
          owner := h.pollerGivesUp hheld rfl not_false rfl
          waiting := fun t ht => ?_
          awaited := fun _ => h.awaited (Or.inl hphase) }
      rcases List.mem_cons.mp ht with rfl | hold
      · exact ⟨rfl, rfl⟩
      · exact ⟨(h.waiting t hold).1, rfl⟩
  | leaving =>
      rw [hphase] at hstep
      obtain ⟨wake, hrelease, hs'⟩ := Option.bind_eq_some_iff.mp hstep
      obtain rfl := Option.some.inj hs'
      obtain ⟨hheld, rfl⟩ := Monitor.release_eq_some.mp hrelease
      have hawake := h.awake (by rw [hphase]; decide)
      refine
        { room := h.room
          owner := h.pollerGivesUp hheld rfl not_false rfl
          waiting := fun t ht => absurd ht (hawake t)
          awaited := ?_ }
      rintro (hwait | hwaiting)
      · cases hwait
      · exact absurd hwaiting (hawake _)
  | asleep =>
      rw [hphase] at hstep
      obtain ⟨wake, hacquire, hs'⟩ := Option.bind_eq_some_iff.mp hstep
      obtain rfl := Option.some.inj hs'
      exact h.pollerAcquires hacquire trivial nofun
  | polling =>
      rw [hphase] at hstep
      obtain rfl := Option.some.inj hstep
      exact h.setPoller (by rw [hphase]; decide) (by rw [hphase]; exact Iff.rfl) nofun

/-- **One step.** The cases are those of the poller and of a call; the ones that count are a
subscription, whose caller will notify, and the wait, which begins under the lock. -/
theorem inv_step {s s' : WakeState} {op : Op} (h : Inv s) (hstep : step s op = some s') :
    Inv s' := by
  cases op with
  | subscribe n => exact inv_subscribe h hstep
  | unsubscribe id =>
      obtain rfl := Option.some.inj hstep
      exact inv_unsubscribe h id
  | poll => exact inv_poll h hstep
  | spurious =>
      obtain ⟨wake, hwake, hs'⟩ := Option.bind_eq_some_iff.mp hstep
      obtain rfl := Option.some.inj hs'
      obtain ⟨-, rfl⟩ := Monitor.wakeUp_eq_some.mp hwake
      refine
        { room := h.room
          owner := h.owner
          waiting := fun t ht => h.waiting t (List.mem_filter.mp ht).1
          awaited := fun hasleep => h.awaited ?_ }
      exact hasleep.imp_right fun hwaiting => (List.mem_filter.mp hwaiting).1

/-! ## Every order of steps -/

/-- The threads take a step. -/
abbrev WakeStep (s : WakeState) (op : Op) (s' : WakeState) : Prop := step s op = some s'

/-- The invariant holds after every run from the start. -/
theorem inv_run {s : WakeState} {ops : List Op} (hrun : Run WakeStep {} ops s) : Inv s :=
  hrun.preserves (fun _ _ _ h hstep => inv_step h hstep) inv_start

/-- What a thread does next. -/
def Thread.next : Thread → Op
  | .poller => .poll
  | .caller n => .subscribe n

/-- A poller that waits, not notified, is about to be notified by everybody registered. -/
theorem awaited_of_waits {s : WakeState} {ops : List Op} (hrun : Run WakeStep {} ops s)
    (hwaits : s.Waits) : ∀ sub ∈ s.subs, (s.calls sub.tx).WillNotify :=
  (inv_run hrun).awaited (Or.inr hwaits.2)

/-- **No wake-up is lost**: in no state that the threads can reach does the poller wait, not
notified, while somebody is registered whose `subscribe` has returned; and there are never
more subscribers than allowed. -/
theorem no_lost_wakeup {s : WakeState} {ops : List Op} (hrun : Run WakeStep {} ops s) :
    ¬ (s.Watched ∧ s.Waits) ∧ s.subs.length ≤ MAX_STREAMS := by
  refine ⟨?_, (inv_run hrun).room⟩
  rintro ⟨⟨sub, hsub, id, hreturned⟩, hwaits⟩
  have hwill := awaited_of_waits hrun hwaits sub hsub
  rw [hreturned] at hwill
  exact hwill

/-- The poller falls asleep, and a stream opens while it does. -/
def firstStream : List Op :=
  [.poll, .poll, .subscribe 0, .poll, .unsubscribe 7, .poll, .subscribe 0, .subscribe 0,
   .spurious, .subscribe 0, .subscribe 0, .poll, .poll, .poll]

/-- A first stream comes while the poller is about to wait. -/
theorem no_lost_wakeup_first :
    ∃ s, Run WakeStep {} firstStream s ∧ s.subs.length = 1 ∧ ¬ (s.Watched ∧ s.Waits) := by
  have hruns : (firstStream.foldlM step {}).map (fun s => s.subs.length) = some 1 := by decide
  obtain ⟨s, hs, hone⟩ := Option.map_eq_some_iff.mp hruns
  have hrun : Run WakeStep {} (firstStream.map id) s := .of_foldlM (fun _ _ _ => id) hs
  rw [List.map_id] at hrun
  exact ⟨s, hrun, hone, (no_lost_wakeup hrun).1⟩

end BreezeHttp.Wakeup
