import Mathlib.Data.List.Induction
import Mathlib.Data.List.Nodup
import BreezeCore.Http.Stream

/-!
# What streams have been told

A subscriber has been told of a unit, or will be: what it has written, its snapshot and
its queue end with the unit's last known value, or a lane is about to broadcast it.  Every
step keeps this, except three that can break it: a subscription that comes after a unit it
does not know was polled, the return of a polled unit a stream was not told of, and the
broadcast of a value that has been overtaken.

* `stream_consistent` — where these three do not happen, streams are consistent;
* `apart_step` — a unit that stands in the list once is not overtaken, so that the last of
  the three takes a list with a repetition;
* `missed_unit` — a unit added and polled while a stream is being opened is missed.
-/

namespace BreezeHttp.LiveStream

open Text Runs

variable {canonical : UnitState → Str}

/-! ## The last event about a unit -/

/-- The last event of a unit is in the second part, if there is one. -/
theorem latest_append (u : Nat) (events more : List UnitState) :
    latest u (events ++ more) = (latest u more).or (latest u events) := by
  unfold latest
  rw [List.filter_append, List.getLast?_append]

/-- One event more is the last of its unit. -/
theorem latest_concat (u : Nat) (events : List UnitState) (e : UnitState) :
    latest u (events ++ [e]) = if e.id = u then some e else latest u events := by
  rw [latest_append]
  unfold latest
  split
  next h => simp [h]
  next h => simp [h]

/-- Everything a stream has written, is about to write of its snapshot, taken now if it is
still to be taken, and has in its queue. -/
def Stream.heard (last : Last) (stream : Stream) : List UnitState :=
  stream.written ++ (if stream.phase = .subscribed then snapshotOf last stream.order
    else stream.snapshot) ++ stream.queue

/-- Values are kept under their units. -/
def Named (last : Last) : Prop := ∀ u text v, last u = some (text, v) → v.id = u

/-- A snapshot has the last known value of the units it is about, and of no other. By induction
from the end of the list, as the last entry about a unit is what counts. -/
theorem latest_snapshotOf {last : Last} (hlast : Named last) (order : List Nat) (u : Nat) :
    latest u (snapshotOf last order) =
      if u ∈ order then (last u).map Prod.snd else none := by
  induction order using List.reverseRecOn with
  | nil => rfl
  | append_singleton order id ih =>
      have happend : snapshotOf last (order ++ [id]) =
          snapshotOf last order ++ ((last id).map Prod.snd).toList := by
        unfold snapshotOf
        rw [List.filterMap_append]
        cases h : last id <;> simp [h]
      rw [happend, latest_append, ih]
      cases h : last id with
      | none =>
          by_cases hu : u = id
          · subst hu
            simp [latest, h]
          · simp [latest, hu]
      | some known =>
          obtain ⟨text, v⟩ := known
          have hid := hlast id text v h
          by_cases hu : u = id
          · subst hu
            simp [latest, h, hid]
          · have hne : ¬ v.id = u := fun h' => hu (h'.symm.trans hid)
            simp [latest, hu, hne]

/-- What a stream has heard of a unit depends on what is known of that unit alone. -/
theorem latest_heard_congr {last last' : Last} (hlast : Named last) (hlast' : Named last')
    {u : Nat} (hsame : last' u = last u) (stream : Stream) :
    latest u (stream.heard last') = latest u (stream.heard last) := by
  unfold Stream.heard
  rw [latest_append, latest_append, latest_append, latest_append]
  split
  next => rw [latest_snapshotOf hlast, latest_snapshotOf hlast', hsame]
  next => rfl

/-! ## Lanes -/

/-- Another lane is about to broadcast this value. -/
def PendingBut (s : StreamState) (i u : Nat) (v : UnitState) : Prop :=
  ∃ j < s.lanes.length, j ≠ i ∧ (s.lanes[j]?).map Lane.work = some (.recorded u v)

instance (s : StreamState) (i u : Nat) (v : UnitState) : Decidable (PendingBut s i u v) :=
  inferInstanceAs (Decidable (∃ j < _, _))

/-- A value that another lane is to broadcast is to be broadcast. -/
theorem PendingBut.pending {s : StreamState} {i u : Nat} {v : UnitState}
    (h : PendingBut s i u v) : Pending s u v := by
  obtain ⟨j, hj, -, hwork⟩ := h
  exact ⟨j, hj, hwork⟩

/-- A lane that works on something else is not the one. -/
theorem Pending.but {s : StreamState} {i u : Nat} {v : UnitState} (h : Pending s u v)
    {lane : Lane} (hlane : s.lanes[i]? = some lane) (hwork : lane.work ≠ .recorded u v) :
    PendingBut s i u v := by
  obtain ⟨j, hj, hpending⟩ := h
  refine ⟨j, hj, ?_, hpending⟩
  rintro rfl
  rw [hlane] at hpending
  exact hwork (Option.some.inj hpending)

/-- What one lane does leaves the others as they are. -/
theorem PendingBut.set {s s' : StreamState} {i u : Nat} {v : UnitState} {lane : Lane}
    (h : PendingBut s i u v) (hlanes : s'.lanes = s.lanes.set i lane) : Pending s' u v := by
  obtain ⟨j, hj, hne, hwork⟩ := h
  refine ⟨j, ?_, ?_⟩
  · rw [hlanes, List.length_set]
    exact hj
  · rw [hlanes, List.getElem?_set_ne (Ne.symm hne)]
    exact hwork

/-! ## Told -/

/-- A subscriber has been told the last known value of a unit, or will be. -/
def Told (s : StreamState) (stream : Stream) (u : Nat) : Prop :=
  ∀ known ∈ s.last u,
    Pending s u known.2 ∨ latest u (stream.heard s.last) = some known.2

instance (s : StreamState) (stream : Stream) (u : Nat) : Decidable (Told s stream u) :=
  inferInstanceAs (Decidable (∀ known ∈ s.last u, _))

/-- The value a lane has in hand bears the id of its unit. -/
def Work.Named : Work → Prop
  | .free => True
  | .answered id value | .recorded id value => value.id = id

/-- It is a new value of this unit. -/
def Work.isRecorded (u : Nat) : Work → Bool
  | .recorded id _ => id = u
  | _ => false

/-- What holds at every moment of a run without the three accidents. -/
structure Inv (s : StreamState) : Prop where
  named : Named s.last
  work : ∀ lane ∈ s.lanes, lane.work.Named
  opened : ∀ stream ∈ s.streams, stream.phase = .opened → stream.written = [] ∧ stream.queue = []
  told : ∀ stream ∈ s.streams, stream.isSubscriber = true → ∀ u ∈ s.units, Told s stream u

/-- No subscriber's queue overflows. -/
def NoOverflow (s : StreamState) : Op → Prop
  | .broadcast _ => ∀ stream ∈ s.streams, stream.isSubscriber = true →
      stream.queue.length < QUEUE_DEPTH
  | _ => True

/-- None of the three accidents.  Units that come in are such that every subscriber has
been told of them, a stream that subscribes knows every unit that was polled, and a lane
broadcasts the last known value, unless another is about to. -/
def NothingMissed (s : StreamState) : Op → Prop
  | .configure units => ∀ u ∈ units, u ∉ s.units → ∀ stream ∈ s.streams,
      stream.isSubscriber = true → Told s stream u
  | .subscribe i => ∀ stream ∈ s.streams[i]?, ∀ u ∈ s.units, ∀ known ∈ s.last u,
      u ∈ stream.order ∨ Pending s u known.2
  | .broadcast i => ∀ lane ∈ s.lanes[i]?, ∀ u ∈ s.units, ∀ known ∈ s.last u,
      lane.work.isRecorded u = true →
        lane.work = .recorded u known.2 ∨ PendingBut s i u known.2
  | _ => True

/-- A told stream is consistent once it has written everything. -/
theorem Inv.consistent {s : StreamState} (h : Inv s) : Consistent s := by
  intro stream hstream hlive hsnapshot hqueue u hu text v hlast hpending
  have hsubscriber : stream.isSubscriber = true := by
    unfold Stream.isSubscriber
    rw [hlive]
    rfl
  have htold := (h.told stream hstream hsubscriber u hu (text, v) hlast).resolve_left hpending
  have hheard : stream.heard s.last = stream.written := by
    unfold Stream.heard
    rw [hlive, hsnapshot, hqueue, if_neg nofun, List.append_nil, List.append_nil]
  rw [hheard] at htold
  exact htold

/-- At the start there is nothing to be consistent with. -/
theorem Start.inv {s : StreamState} (h : Start s) : Inv s := by
  refine ⟨?_, ?_, ?_, ?_⟩
  · intro u text v hlast
    rw [h.last] at hlast
    cases hlast
  · rw [h.lanes]
    exact List.forall_mem_nil _
  · rw [h.streams]
    exact List.forall_mem_nil _
  · rw [h.streams]
    exact List.forall_mem_nil _

/-- What is recorded of a unit that does not answer is recorded under its own id. -/
theorem offlineValue_id {last : Last} (hlast : Named last) (configured : Option UnitInfo)
    (id : Nat) : (offlineValue last configured id).id = id := by
  unfold offlineValue
  split
  next text previous h => exact hlast id text previous h
  next => rfl

/-- What is recorded of a unit bears its id, whether it answers or not. -/
theorem readUnit_id {last : Last} (hlast : Named last) (live : Option (UnitInfo × Ac.State))
    (configured : Option UnitInfo) (id : Nat) : (readUnit last live configured id).id = id := by
  unfold readUnit
  split
  next => rfl
  next => exact offlineValue_id hlast configured id

/-- A step of a lane that broadcasts nothing and records nothing. -/
theorem Inv.setLane {s : StreamState} (h : Inv s) {i : Nat} {lane lane' : Lane}
    (hlane : s.lanes[i]? = some lane) (hwork : ∀ u v, lane.work ≠ .recorded u v)
    (hnamed : lane'.work.Named) : Inv { s with lanes := s.lanes.set i lane' } := by
  refine ⟨h.named, ?_, h.opened, ?_⟩
  · intro other hother
    rcases List.mem_or_eq_of_mem_set hother with hother | rfl
    · exact h.work other hother
    · exact hnamed
  · intro stream hstream hsubscriber u hu known hknown
    rcases h.told stream hstream hsubscriber u hu known hknown with hpending | hheard
    · exact Or.inl ((hpending.but hlane (hwork u known.2)).set rfl)
    · exact Or.inr hheard

/-- A step of a stream after which it has heard no less. -/
theorem Inv.setStream {s : StreamState} (h : Inv s) {i : Nat} {stream' : Stream}
    (hopened : stream'.phase ≠ .opened)
    (hstream' : stream'.isSubscriber = true → ∀ u ∈ s.units, Told s stream' u) :
    Inv { s with streams := s.streams.set i stream' } := by
  refine ⟨h.named, h.work, ?_, ?_⟩
  · intro other hother hphase
    rcases List.mem_or_eq_of_mem_set hother with hother | rfl
    · exact h.opened other hother hphase
    · exact absurd hphase hopened
  · intro other hother hsubscriber u hu
    rcases List.mem_or_eq_of_mem_set hother with hother | rfl
    · exact h.told other hother hsubscriber u hu
    · exact hstream' hsubscriber u hu

/-- A change of the units keeps the invariant when nothing comes back that a subscriber was not
told of. -/
theorem inv_configure {s : StreamState} (h : Inv s) {units : List Nat}
    (hcalm : NothingMissed s (.configure units)) : Inv { s with units := units } := by
  refine ⟨h.named, h.work, h.opened, ?_⟩
  intro stream hstream hsubscriber u hu
  by_cases hold : u ∈ s.units
  · exact h.told stream hstream hsubscriber u hold
  · exact hcalm u hu hold stream hstream hsubscriber

/-- A pass that begins gives each of its lanes its units; nothing was read yet. So whatever a
stream was told or has in its queue is as it was. -/
theorem inv_startPass {s s' : StreamState} (h : Inv s) {requested : Nat}
    (hstep : startPass s requested = some s') : Inv s' := by
  unfold startPass at hstep
  split at hstep
  next hready =>
    obtain rfl := Option.some.inj hstep
    refine ⟨h.named, ?_, h.opened, ?_⟩
    · intro lane hlane
      obtain ⟨j, -, rfl⟩ := List.mem_map.mp hlane
      trivial
    · intro stream hstream hsubscriber u hu known hknown
      refine Or.inr ((h.told stream hstream hsubscriber u hu known hknown).resolve_left ?_)
      -- The lanes of the pass before have nothing in hand.
      rintro ⟨j, hj, hwork⟩
      have hdone := List.all_eq_true.mp hready.2 _ (List.getElem_mem hj)
      rw [List.getElem?_eq_getElem hj] at hwork
      simp only [Lane.done, Bool.and_eq_true, decide_eq_true_eq] at hdone
      rw [Option.map_some, hdone.2] at hwork
      cases hwork
  next => cases hstep

/-- A lane that reads has a value in hand, of the unit it read. -/
theorem inv_read {s s' : StreamState} (h : Inv s) {i : Nat}
    {live : Option (UnitInfo × Ac.State)} {configured : Option UnitInfo}
    (hstep : read s i live configured = some s') : Inv s' := by
  unfold read at hstep
  split at hstep
  next id todo hlane =>
    obtain rfl := Option.some.inj hstep
    exact h.setLane hlane (fun u v => by simp) (readUnit_id h.named live configured id)
  next => cases hstep

/-- A value that is new is recorded and is now to be broadcast, which makes it pending for every
subscriber; one that is not new changes nothing. -/
theorem inv_record {s s' : StreamState} (h : Inv s) {i : Nat}
    (hstep : record canonical s i = some s') : Inv s' := by
  unfold record at hstep
  split at hstep
  next todo id value hlane =>
    have hid : value.id = id := h.work _ (List.mem_of_getElem? hlane)
    split at hstep
    next =>
      obtain rfl := Option.some.inj hstep
      exact h.setLane hlane (fun u v => by simp) trivial
    next =>
      obtain rfl := Option.some.inj hstep
      have hnamed : Named (Function.update s.last id (some (canonical value, value))) := by
        intro u text v hlast
        by_cases hu : u = id
        · subst hu
          rw [Function.update_self] at hlast
          obtain ⟨-, rfl⟩ := Prod.mk.inj (Option.some.inj hlast)
          exact hid
        · rw [Function.update_of_ne hu] at hlast
          exact h.named u text v hlast
      refine ⟨hnamed, ?_, h.opened, ?_⟩
      · intro lane hmem
        rcases List.mem_or_eq_of_mem_set hmem with hmem | rfl
        · exact h.work lane hmem
        · exact hid
      · intro stream hstream hsubscriber u hu known hknown
        by_cases hunit : u = id
        · -- This lane is about to broadcast it.
          subst hunit
          have hvalue : known = (canonical value, value) := by
            have hknown' : some known = some (canonical value, value) :=
              hknown.symm.trans (Function.update_self ..)
            exact Option.some.inj hknown'
          subst hvalue
          left
          have hi : i < s.lanes.length := (List.getElem?_eq_some_iff.mp hlane).1
          refine ⟨i, by rw [List.length_set]; exact hi, ?_⟩
          rw [List.getElem?_set_self hi]
          rfl
        · have hsame : Function.update s.last id (some (canonical value, value)) u = s.last u :=
            Function.update_of_ne hunit _ _
          have hknown' : known ∈ s.last u := hsame ▸ hknown
          rcases h.told stream hstream hsubscriber u hu known hknown' with hpending | hheard
          · exact Or.inl ((hpending.but hlane (by simp)).set rfl)
          · exact Or.inr ((latest_heard_congr h.named hnamed hsame stream).trans hheard)
  next => cases hstep

/-- A value that is queued does not change where a stream stands. -/
theorem push_phase (e : UnitState) (stream : Stream) : (stream.push e).phase = stream.phase := by
  unfold Stream.push
  split <;> rfl

/-- A stream that has only been opened hears nothing. -/
theorem push_opened {e : UnitState} {stream : Stream} (hphase : stream.phase = .opened) :
    stream.push e = stream := by
  unfold Stream.push Stream.isSubscriber
  rw [hphase]
  exact if_neg fun h => absurd h.1 (by decide)

/-- A broadcast is heard by every subscriber with room for it. -/
theorem heard_push {last : Last} {e : UnitState} {stream : Stream}
    (hsubscriber : stream.isSubscriber = true) (hroom : stream.queue.length < QUEUE_DEPTH) :
    (stream.push e).heard last = stream.heard last ++ [e] := by
  unfold Stream.push Stream.heard
  rw [if_pos ⟨hsubscriber, hroom⟩]
  exact (List.append_assoc _ _ _).symm

/-- What is broadcast is queued for every subscriber, and is then the last each was told of its
unit. -/
theorem inv_broadcast {s s' : StreamState} (h : Inv s) {i : Nat}
    (hroom : NoOverflow s (.broadcast i)) (hcalm : NothingMissed s (.broadcast i))
    (hstep : broadcast s i = some s') : Inv s' := by
  unfold broadcast at hstep
  split at hstep
  next todo id value hlane =>
    obtain rfl := Option.some.inj hstep
    have hid : value.id = id := h.work _ (List.mem_of_getElem? hlane)
    refine ⟨h.named, ?_, ?_, ?_⟩
    · intro lane hmem
      rcases List.mem_or_eq_of_mem_set hmem with hmem | rfl
      · exact h.work lane hmem
      · trivial
    · intro stream' hstream' hphase
      obtain ⟨stream, hstream, rfl⟩ := List.mem_map.mp hstream'
      rw [push_phase] at hphase
      rw [push_opened hphase]
      exact h.opened stream hstream hphase
    · intro stream' hstream' hsubscriber' u hu known hknown
      obtain ⟨stream, hstream, rfl⟩ := List.mem_map.mp hstream'
      have hsubscriber : stream.isSubscriber = true := by
        unfold Stream.isSubscriber at hsubscriber' ⊢
        rw [push_phase] at hsubscriber'
        exact hsubscriber'
      dsimp only
      rw [heard_push hsubscriber (hroom stream hstream hsubscriber), latest_concat]
      by_cases hunit : u = id
      · subst hunit
        rcases hcalm _ hlane u hu known hknown (decide_eq_true rfl) with hvalue | hother
        · have hvalue' : value = known.2 := by
            injection hvalue
          rw [if_pos hid, hvalue']
          exact Or.inr rfl
        · exact Or.inl (hother.set rfl)
      · rw [if_neg fun h' => hunit (h'.symm.trans hid)]
        have hother : (⟨todo, .recorded id value⟩ : Lane).work ≠ .recorded u known.2 := by
          intro h'
          injection h' with h' _
          exact hunit h'.symm
        rcases h.told stream hstream hsubscriber u hu known hknown with hpending | hheard
        · exact Or.inl ((hpending.but hlane hother).set rfl)
        · exact Or.inr hheard
  next => cases hstep

/-- A stream that opens is promised nothing before it subscribes. -/
theorem inv_openStream {s : StreamState} (h : Inv s) : Inv (openStream s) := by
  refine ⟨h.named, h.work, ?_, ?_⟩
  · intro stream hstream hphase
    rcases List.mem_append.mp hstream with hstream | hstream
    · exact h.opened stream hstream hphase
    · obtain rfl := List.mem_singleton.mp hstream
      exact ⟨rfl, rfl⟩
  · intro stream hstream hsubscriber
    rcases List.mem_append.mp hstream with hstream | hstream
    · exact h.told stream hstream hsubscriber
    · obtain rfl := List.mem_singleton.mp hstream
      cases hsubscriber

/-- From now on it is: what it has not been told yet is in its list, and comes with the
snapshot. -/
theorem inv_subscribe {s s' : StreamState} (h : Inv s) {i : Nat}
    (hcalm : NothingMissed s (.subscribe i)) (hstep : subscribe s i = some s') : Inv s' := by
  unfold subscribe at hstep
  split at hstep
  next => cases hstep
  next stream hstream =>
    split at hstep
    next => cases hstep
    next hopened =>
      obtain ⟨hwritten, hqueue⟩ :=
        h.opened stream (List.mem_of_getElem? hstream) (not_not.mp hopened)
      split at hstep
      next =>
        obtain rfl := Option.some.inj hstep
        exact h.setStream nofun fun hsubscriber =>
          absurd hsubscriber (by simp [Stream.isSubscriber])
      next =>
        obtain rfl := Option.some.inj hstep
        refine h.setStream nofun fun _ u hu known hknown => ?_
        rcases hcalm stream hstream u hu known hknown with horder | hpending
        · right
          unfold Stream.heard
          rw [if_pos rfl, hwritten, hqueue, List.nil_append, List.append_nil,
            latest_snapshotOf h.named, if_pos horder]
          have hlast : s.last u = some known := hknown
          rw [hlast]
          rfl
        · exact Or.inl hpending

/-- The snapshot tells it the last known values of its list. -/
theorem inv_takeSnapshot {s s' : StreamState} (h : Inv s) {i : Nat}
    (hstep : takeSnapshot s i = some s') : Inv s' := by
  unfold takeSnapshot at hstep
  split at hstep
  next => cases hstep
  next stream hstream =>
    split at hstep
    next => cases hstep
    next hsubscribed =>
      obtain rfl := Option.some.inj hstep
      have hphase : stream.phase = .subscribed := not_not.mp hsubscribed
      have hsubscriber : stream.isSubscriber = true := by
        unfold Stream.isSubscriber
        rw [hphase]
        rfl
      refine h.setStream nofun fun _ u hu known hknown => ?_
      have hheard : Stream.heard s.last
          { stream with phase := .live, snapshot := snapshotOf s.last stream.order } =
            stream.heard s.last := by
        unfold Stream.heard
        rw [if_pos hphase, if_neg nofun]
      rw [hheard]
      exact h.told stream (List.mem_of_getElem? hstream) hsubscriber u hu known hknown

/-- What is written was in the queue, in the same order. So the newest word on each unit, written
or queued, is the same as before. -/
theorem inv_write {s s' : StreamState} (h : Inv s) {i : Nat} (hstep : write s i = some s') :
    Inv s' := by
  unfold write at hstep
  split at hstep
  next => cases hstep
  next stream hstream =>
    split at hstep
    next => cases hstep
    next hlive =>
      have hphase : stream.phase = .live := not_not.mp hlive
      have hsubscriber : stream.isSubscriber = true := by
        unfold Stream.isSubscriber
        rw [hphase]
        rfl
      -- What is written leaves the snapshot or the queue, at the front.
      have hset : ∀ stream' : Stream, stream'.phase = .live →
          stream'.heard s.last = stream.heard s.last →
          Inv { s with streams := s.streams.set i stream' } := by
        intro stream' hphase' hheard
        refine h.setStream (by simp [hphase']) fun _ u hu known hknown => ?_
        rw [hheard]
        exact h.told stream (List.mem_of_getElem? hstream) hsubscriber u hu known hknown
      split at hstep
      next event rest hsnapshot =>
        obtain rfl := Option.some.inj hstep
        refine hset _ hphase ?_
        unfold Stream.heard
        simp [hphase, hsnapshot]
      next event rest hsnapshot hqueue =>
        obtain rfl := Option.some.inj hstep
        refine hset _ hphase ?_
        unfold Stream.heard
        simp [hphase, hsnapshot, hqueue]
      next => cases hstep

/-- A stream that ends is promised nothing. -/
theorem inv_close {s s' : StreamState} (h : Inv s) {i : Nat} (hstep : close s i = some s') :
    Inv s' := by
  unfold close at hstep
  split at hstep
  next => cases hstep
  next stream hstream =>
    obtain rfl := Option.some.inj hstep
    exact h.setStream nofun fun hsubscriber =>
      absurd hsubscriber (by simp [Stream.isSubscriber])

/-- **Every step** without an accident keeps what was told. -/
theorem inv_step {s s' : StreamState} {op : Op} (h : Inv s) (hroom : NoOverflow s op)
    (hcalm : NothingMissed s op) (hstep : step canonical s op = some s') : Inv s' := by
  cases op with
  | configure units =>
      obtain rfl := Option.some.inj hstep
      exact inv_configure h hcalm
  | startPass requested => exact inv_startPass h hstep
  | read lane live configured => exact inv_read h hstep
  | record lane => exact inv_record h hstep
  | broadcast lane => exact inv_broadcast h hroom hcalm hstep
  | openStream =>
      obtain rfl := Option.some.inj hstep
      exact inv_openStream h
  | subscribe stream => exact inv_subscribe h hcalm hstep
  | takeSnapshot stream => exact inv_takeSnapshot h hstep
  | write stream => exact inv_write h hstep
  | close stream => exact inv_close h hstep

/-- A step in which no queue overflows. -/
def RoomyStep (canonical : UnitState → Str) (s : StreamState) (op : Op) (s' : StreamState) :
    Prop :=
  step canonical s op = some s' ∧ NoOverflow s op

/-- Such a step without an accident. -/
def CalmStep (canonical : UnitState → Str) (s : StreamState) (op : Op) (s' : StreamState) : Prop :=
  RoomyStep canonical s op s' ∧ NothingMissed s op

/-- Where nothing is missed, what was told stays told. -/
theorem calm_consistent {s s' : StreamState} {ops : List Op} (hstart : Start s)
    (hrun : Run (CalmStep canonical) s ops s') : Consistent s' := by
  have hstep : ∀ s op s', Inv s → CalmStep canonical s op s' → Inv s' := fun _ _ _ h hstep =>
    inv_step h hstep.1.2 hstep.2 hstep.1.1
  exact (hrun.preserves hstep hstart.inv).consistent

/-! ## Lanes apart -/

/-- The unit a lane has in hand. -/
def Work.ids : Work → List Nat
  | .free => []
  | .answered id _ | .recorded id _ => [id]

/-- It, and those a lane has still to poll. -/
def Lane.ids (lane : Lane) : List Nat := lane.work.ids ++ lane.todo

/-- No unit is in two lanes or twice in one, and what was recorded and is about to be
broadcast is the last known value. -/
structure Apart (s : StreamState) : Prop where
  nodup : (s.lanes.flatMap Lane.ids).Nodup
  current : ∀ lane ∈ s.lanes, ∀ u v, lane.work = .recorded u v →
    (s.last u).map Prod.snd = some v

/-- Then nothing that is broadcast was overtaken. -/
theorem Apart.nothingMissed {s : StreamState} (h : Apart s) (i : Nat) :
    NothingMissed s (.broadcast i) := by
  intro lane hlane u _ known hknown hrecorded
  left
  cases hwork : lane.work with
  | free | answered id value =>
      rw [hwork] at hrecorded
      cases hrecorded
  | recorded id value =>
      rw [hwork] at hrecorded
      obtain rfl : id = u := of_decide_eq_true hrecorded
      have hlast := h.current lane (List.mem_of_getElem? hlane) id value hwork
      have hknown' : s.last id = some known := hknown
      rw [hknown', Option.map_some] at hlast
      rw [Option.some.inj hlast]

/-- Shortening what one entry stands for shortens the whole. -/
theorem flatMap_set_sublist {α β : Type} {f : α → List β} {xs : List α} {i : Nat} {x y : α}
    (hx : xs[i]? = some x) (h : (f y).Sublist (f x)) :
    ((xs.set i y).flatMap f).Sublist (xs.flatMap f) := by
  induction xs generalizing i with
  | nil => cases hx
  | cons z xs ih =>
      cases i with
      | zero =>
          obtain rfl := Option.some.inj hx
          rw [List.set_cons_zero, List.flatMap_cons, List.flatMap_cons]
          exact h.append (List.Sublist.refl _)
      | succ i =>
          rw [List.set_cons_succ, List.flatMap_cons, List.flatMap_cons]
          exact (List.Sublist.refl _).append (ih hx)

/-- A lane moves on with its own units. -/
theorem Apart.setLane {s : StreamState} (h : Apart s) {i : Nat} {lane lane' : Lane}
    (hlane : s.lanes[i]? = some lane) (hids : lane'.ids.Sublist lane.ids)
    (hcurrent : ∀ u v, lane'.work = .recorded u v → (s.last u).map Prod.snd = some v)
    (streams : List Stream) :
    Apart { s with lanes := s.lanes.set i lane', streams := streams } := by
  refine ⟨h.nodup.sublist (flatMap_set_sublist hlane hids), ?_⟩
  intro other hother u v hwork
  rcases List.mem_or_eq_of_mem_set hother with hother | rfl
  · exact h.current other hother u v hwork
  · exact hcurrent u v hwork

/-- A lane has every so-manieth unit of the list, beginning with its own. -/
theorem mem_laneUnits {units : List Nat} {lanes lane u : Nat} :
    u ∈ laneUnits units lanes lane ↔ ∃ i : Nat, units[i]? = some u ∧ i % lanes = lane := by
  unfold laneUnits
  rw [List.mem_map]
  constructor
  · rintro ⟨⟨u, i⟩, hmem, rfl⟩
    obtain ⟨hzip, hlane⟩ := List.mem_filter.mp hmem
    exact ⟨i, List.mk_mem_zipIdx_iff_getElem?.mp hzip, of_decide_eq_true hlane⟩
  · rintro ⟨i, hget, hlane⟩
    exact ⟨(u, i), List.mem_filter.mpr ⟨List.mk_mem_zipIdx_iff_getElem?.mpr hget,
      decide_eq_true hlane⟩, rfl⟩

/-- The lanes share out a list without repetitions. -/
theorem laneUnits_nodup {units : List Nat} (h : units.Nodup) (lanes : Nat) :
    ((List.range lanes).flatMap fun lane => laneUnits units lanes lane).Nodup := by
  rw [List.nodup_flatMap]
  constructor
  · intro lane _
    have hsub : (laneUnits units lanes lane).Sublist (units.zipIdx.map Prod.fst) :=
      List.filter_sublist.map Prod.fst
    rw [List.zipIdx_map_fst] at hsub
    exact h.sublist hsub
  · refine List.nodup_range.imp ?_
    intro lane lane' hne u hu hu'
    obtain ⟨i, hi, rfl⟩ := mem_laneUnits.mp hu
    obtain ⟨j, hj, rfl⟩ := mem_laneUnits.mp hu'
    obtain ⟨hi, rfl⟩ := List.getElem?_eq_some_iff.mp hi
    obtain ⟨hj, hsame⟩ := List.getElem?_eq_some_iff.mp hj
    rw [h.getElem_inj_iff] at hsame
    rw [hsame] at hne
    exact hne rfl

/-- What was recorded for one unit is not touched by a lane that polls another. No unit is in two
lanes, so that the value written is the business of this lane alone. -/
theorem Apart.record {s : StreamState} (h : Apart s) {i : Nat} {todo : List Nat} {id : Nat}
    {value : UnitState} (hlane : s.lanes[i]? = some ⟨todo, .answered id value⟩)
    (known : Str × UnitState) (hknown : known.2 = value) :
    Apart { s with
      last := Function.update s.last id (some known)
      lanes := s.lanes.set i ⟨todo, .recorded id value⟩ } := by
  have hsub : (⟨todo, .recorded id value⟩ : Lane).ids.Sublist
      (⟨todo, .answered id value⟩ : Lane).ids := List.Sublist.refl _
  have hnodup := h.nodup.sublist (flatMap_set_sublist hlane hsub)
  refine ⟨hnodup, ?_⟩
  intro lane hmem u v hwork
  obtain ⟨j, hj⟩ := List.getElem?_of_mem hmem
  by_cases hji : j = i
  · subst hji
    rw [List.getElem?_set_self (List.getElem?_eq_some_iff.mp hlane).1] at hj
    obtain rfl := Option.some.inj hj
    injection hwork with hu hv
    dsimp only
    rw [← hu, ← hv, Function.update_self, Option.map_some, hknown]
  · have hother : s.lanes[j]? = some lane := by
      rw [List.getElem?_set_ne (Ne.symm hji)] at hj
      exact hj
    have hu : u ≠ id := by
      rintro rfl
      -- Two lanes would have the unit.
      obtain ⟨hlanei, hgeti⟩ := List.getElem?_eq_some_iff.mp hlane
      obtain ⟨hlanej, hgetj⟩ := List.getElem?_eq_some_iff.mp hother
      have hpairs := List.pairwise_iff_getElem.mp (List.nodup_flatMap.mp h.nodup).2
      have hini : u ∈ s.lanes[i].ids := by
        rw [hgeti]
        exact List.mem_cons_self
      have hinj : u ∈ s.lanes[j].ids := by
        rw [hgetj, Lane.ids, hwork]
        exact List.mem_cons_self
      rcases Nat.lt_or_gt_of_ne hji with hlt | hlt
      · exact hpairs j i hlanej hlanei hlt hinj hini
      · exact hpairs i j hlanei hlanej hlt hini hinj
    dsimp only
    rw [Function.update_of_ne hu]
    exact h.current lane (List.mem_of_getElem? hother) u v hwork

/-- Whether the lanes keep apart depends on the lanes and the record alone. -/
theorem Apart.congr {s s' : StreamState} (h : Apart s) (hlanes : s'.lanes = s.lanes)
    (hlast : s'.last = s.last) : Apart s' := by
  refine ⟨hlanes ▸ h.nodup, ?_⟩
  rw [hlanes, hlast]
  exact h.current

/-- From a list without repetitions the lanes get different units. -/
theorem apart_startPass {s s' : StreamState} {requested : Nat} (hunits : s.units.Nodup)
    (hstep : startPass s requested = some s') : Apart s' := by
  unfold startPass at hstep
  split at hstep
  next =>
    obtain rfl := Option.some.inj hstep
    refine ⟨?_, ?_⟩
    · rw [List.flatMap_map]
      exact laneUnits_nodup hunits _
    · intro lane hlane u v hwork
      obtain ⟨j, -, rfl⟩ := List.mem_map.mp hlane
      cases hwork
  next => cases hstep

/-- A lane that reads keeps its unit. -/
theorem apart_read {s s' : StreamState} (h : Apart s) {i : Nat}
    {live : Option (UnitInfo × Ac.State)} {configured : Option UnitInfo}
    (hstep : read s i live configured = some s') : Apart s' := by
  unfold read at hstep
  split at hstep
  next id todo hlane =>
    obtain rfl := Option.some.inj hstep
    have hids : (⟨todo, .answered id (readUnit s.last live configured id)⟩ : Lane).ids.Sublist
        (⟨id :: todo, .free⟩ : Lane).ids := List.Sublist.refl _
    exact h.setLane hlane hids (fun u v hwork => by cases hwork) s.streams
  next => cases hstep

/-- The step of a lane that records keeps the lanes apart. -/
theorem apart_record {s s' : StreamState} (h : Apart s) {i : Nat}
    (hstep : record canonical s i = some s') : Apart s' := by
  unfold LiveStream.record at hstep
  split at hstep
  next todo id value hlane =>
    split at hstep
    next =>
      obtain rfl := Option.some.inj hstep
      exact h.setLane hlane (List.sublist_append_right _ _) (fun u v hwork => by cases hwork)
        s.streams
    next =>
      obtain rfl := Option.some.inj hstep
      exact h.record hlane (canonical value, value) rfl
  next => cases hstep

/-- And one that broadcasts has one unit less. -/
theorem apart_broadcast {s s' : StreamState} (h : Apart s) {i : Nat}
    (hstep : broadcast s i = some s') : Apart s' := by
  unfold broadcast at hstep
  split at hstep
  next todo id value hlane =>
    obtain rfl := Option.some.inj hstep
    exact h.setLane hlane (List.sublist_append_right _ _) (fun u v hwork => by cases hwork) _
  next => cases hstep

/-- What a stream does is nothing to the poller. -/
theorem subscribe_poller {s s' : StreamState} {i : Nat} (hstep : subscribe s i = some s') :
    s'.lanes = s.lanes ∧ s'.last = s.last := by
  unfold subscribe at hstep
  grind

/-- Taking a snapshot is nothing to the poller. -/
theorem takeSnapshot_poller {s s' : StreamState} {i : Nat} (hstep : takeSnapshot s i = some s') :
    s'.lanes = s.lanes ∧ s'.last = s.last := by
  unfold takeSnapshot at hstep
  grind

/-- Writing an event leaves the lanes and their last values alone. -/
theorem write_poller {s s' : StreamState} {i : Nat} (hstep : write s i = some s') :
    s'.lanes = s.lanes ∧ s'.last = s.last := by
  unfold write at hstep
  grind

/-- Closing a stream leaves the lanes and their last values alone. -/
theorem close_poller {s s' : StreamState} {i : Nat} (hstep : close s i = some s') :
    s'.lanes = s.lanes ∧ s'.last = s.last := by
  unfold close at hstep
  grind

/-- **A unit that stands in the list once** when a pass begins is not overtaken. -/
theorem apart_step {s s' : StreamState} {op : Op} (h : Apart s)
    (hunits : ∀ requested, op = .startPass requested → s.units.Nodup)
    (hstep : step canonical s op = some s') : Apart s' := by
  cases op with
  | configure units =>
      obtain rfl := Option.some.inj hstep
      exact h.congr rfl rfl
  | startPass requested => exact apart_startPass (hunits requested rfl) hstep
  | read lane live configured => exact apart_read h hstep
  | record lane => exact apart_record h hstep
  | broadcast lane => exact apart_broadcast h hstep
  | openStream =>
      obtain rfl := Option.some.inj hstep
      exact h.congr rfl rfl
  | subscribe stream => exact h.congr (subscribe_poller hstep).1 (subscribe_poller hstep).2
  | takeSnapshot stream => exact h.congr (takeSnapshot_poller hstep).1 (takeSnapshot_poller hstep).2
  | write stream => exact h.congr (write_poller hstep).1 (write_poller hstep).2
  | close stream => exact h.congr (close_poller hstep).1 (close_poller hstep).2

/-- Units only come in that every subscriber was told of, streams know every polled unit
when they subscribe, and passes begin with a list without repetitions. -/
def OrderlyStep (canonical : UnitState → Str) (s : StreamState) (op : Op) (s' : StreamState) :
    Prop :=
  RoomyStep canonical s op s' ∧ (∀ requested, op = .startPass requested → s.units.Nodup) ∧
    ((∀ i, op ≠ .broadcast i) → NothingMissed s op)

/-- **Lists without repetitions** leave the two accidents of subscribing and of coming
back. -/
theorem orderly_consistent {s s' : StreamState} {ops : List Op} (hstart : Start s)
    (hrun : Run (OrderlyStep canonical) s ops s') : Consistent s' := by
  have hapart : Apart s := by
    refine ⟨?_, ?_⟩
    · rw [hstart.lanes]
      exact List.nodup_nil
    · rw [hstart.lanes]
      exact fun lane hlane => absurd hlane List.not_mem_nil
  have hstep : ∀ s op s', Inv s ∧ Apart s → OrderlyStep canonical s op s' → Inv s' ∧ Apart s' := by
    rintro s op s' ⟨hinv, hapart⟩ ⟨⟨hstep, hroom⟩, hunits, hcalm⟩
    refine ⟨inv_step hinv hroom ?_ hstep, apart_step hapart hunits hstep⟩
    cases op with
    | broadcast i => exact hapart.nothingMissed i
    | _ => exact hcalm nofun
  exact (hrun.preserves hstep ⟨hstart.inv, hapart⟩).1.consistent

/-- **Streams are consistent** in every state of a run in which nothing is missed; and where
the lists have no repetitions, only subscribing and coming back can make a stream miss
something. -/
theorem stream_consistent {s s' : StreamState} {ops : List Op} (hstart : Start s) :
    (Run (CalmStep canonical) s ops s' → Consistent s') ∧
      (Run (OrderlyStep canonical) s ops s' → Consistent s') :=
  ⟨calm_consistent hstart, orderly_consistent hstart⟩

/-! ## Two runs -/

instance (s : StreamState) (op : Op) : Decidable (NoOverflow s op) :=
  match op with
  | .broadcast _ => inferInstanceAs (Decidable (∀ stream ∈ s.streams, _ → _))
  | .configure _ | .startPass _ | .read _ _ _ | .record _ | .openStream | .subscribe _
  | .takeSnapshot _ | .write _ | .close _ => inferInstanceAs (Decidable True)

instance (s : StreamState) (op : Op) : Decidable (NothingMissed s op) :=
  match op with
  | .configure units => inferInstanceAs (Decidable (∀ u ∈ units, _ → ∀ stream ∈ s.streams, _))
  | .subscribe i => inferInstanceAs
      (Decidable (∀ stream ∈ s.streams[i]?, ∀ u ∈ s.units, ∀ known ∈ s.last u, _ ∨ _))
  | .broadcast i => inferInstanceAs
      (Decidable (∀ lane ∈ s.lanes[i]?, ∀ u ∈ s.units, ∀ known ∈ s.last u, _ → _ ∨ _))
  | .startPass _ | .read _ _ _ | .record _ | .openStream | .takeSnapshot _ | .write _
  | .close _ => inferInstanceAs (Decidable True)

/-- The step where it is without an accident and the list without repetitions. -/
def calmStep (canonical : UnitState → Str) (s : StreamState) (op : Op) : Option StreamState :=
  if NoOverflow s op ∧ NothingMissed s op ∧ s.units.Nodup then step canonical s op else none

/-- A step that the test allows is one of a calm run and of an orderly one. -/
theorem calmStep_some {s s' : StreamState} {op : Op} (h : calmStep canonical s op = some s') :
    CalmStep canonical s (id op) s' ∧ OrderlyStep canonical s (id op) s' := by
  unfold calmStep at h
  split at h
  next hcalm =>
    obtain ⟨hroom, hmissed, hunits⟩ := hcalm
    exact ⟨⟨⟨h, hroom⟩, hmissed⟩, ⟨h, hroom⟩, fun _ _ => hunits, fun _ => hmissed⟩
  next => cases h

/-- The step where no queue overflows. -/
def roomyStep (canonical : UnitState → Str) (s : StreamState) (op : Op) : Option StreamState :=
  if NoOverflow s op then step canonical s op else none

/-- The same where only the room in the queues is tested. -/
theorem roomyStep_some {s s' : StreamState} {op : Op} (h : roomyStep canonical s op = some s') :
    RoomyStep canonical s (id op) s' := by
  unfold roomyStep at h
  split at h
  next hroom => exact ⟨h, hroom⟩
  next => cases h

/-- A server with unit 1. -/
def oneUnit : StreamState where
  units := [1]

/-- One unit is configured and nothing was polled. -/
theorem oneUnit_start : Start oneUnit := ⟨fun _ => rfl, rfl, rfl⟩

/-- The text of a value, in short. -/
def idText (v : UnitState) : Str := (toString v.id).toList

/-- What is said of a unit that never answered. -/
def neverSeen (id : Nat) : UnitState := offlineValue (fun _ => none) none id

/-- A lane finds that its next unit does not answer, and says so. -/
def pollNew (lane : Nat) : List Op := [.read lane none none, .record lane, .broadcast lane]

/-- A poll that finds that the unit does still not answer. -/
def pollOld (lane : Nat) : List Op := [.read lane none none, .record lane]

/-- Unit 1 is polled for a first stream. -/
def firstStream : List Op :=
  [.openStream, .subscribe 0, .takeSnapshot 0, .startPass 1] ++ pollNew 0 ++ [.write 0]

/-- Unit 2 is added and polled, and then a second stream is opened. -/
def addedBefore : List Op :=
  firstStream ++ [.configure [1, 2], .startPass 1] ++ pollOld 0 ++ pollNew 0 ++
    [.openStream, .subscribe 1, .takeSnapshot 1, .write 1, .write 1]

/-- A unit is added before a stream subscribes, and is in its list. -/
theorem stream_consistent_addedBefore :
    ∃ s, Run (CalmStep idText) oneUnit (addedBefore.map id) s ∧
      Run (OrderlyStep idText) oneUnit (addedBefore.map id) s ∧ Consistent s := by
  have hrun : (addedBefore.foldlM (calmStep idText) oneUnit).isSome = true := by decide +kernel
  obtain ⟨s, hs⟩ := Option.isSome_iff_exists.mp hrun
  have hcalmStep : ∀ s op s', calmStep idText s op = some s' → CalmStep idText s (id op) s' :=
    fun _ _ _ h => (calmStep_some h).1
  have horderlyStep : ∀ s op s', calmStep idText s op = some s' →
      OrderlyStep idText s (id op) s' := fun _ _ _ h => (calmStep_some h).2
  have hcalm := Run.of_foldlM hcalmStep hs
  have horderly := Run.of_foldlM horderlyStep hs
  exact ⟨s, hcalm, horderly, (stream_consistent oneUnit_start).1 hcalm⟩

/-- Unit 2 is added and polled between the moment a second stream asks for the units and
the moment it subscribes. -/
def addedMeanwhile : List Op :=
  firstStream ++ [.openStream, .configure [1, 2], .startPass 1] ++ pollOld 0 ++ pollNew 0 ++
    [.subscribe 1, .takeSnapshot 1, .write 1]

/-- That stream is never told of the unit. The run is evaluated, and its last state has a stream
whose list is older than the unit. -/
theorem missed_unit : ¬ ∀ s ops s', Start s → Run (RoomyStep idText) s ops s' →
    Consistent s' := by
  intro h
  have hrun : (addedMeanwhile.foldlM (roomyStep idText) oneUnit).isSome = true := by
    decide +kernel
  obtain ⟨s, hs⟩ := Option.isSome_iff_exists.mp hrun
  have hconsistent := h oneUnit _ s oneUnit_start
    (Run.of_foldlM (fun _ _ _ h => roomyStep_some h) hs)
  -- What the run ends with.
  have hstreams : (addedMeanwhile.foldlM (roomyStep idText) oneUnit).map (fun s => s.streams[1]?) =
      some (some { order := [1], phase := .live, written := [neverSeen 1] }) := by
    decide +kernel
  have hunits : (addedMeanwhile.foldlM (roomyStep idText) oneUnit).map StreamState.units =
      some [1, 2] := by decide +kernel
  have hlast : (addedMeanwhile.foldlM (roomyStep idText) oneUnit).map (fun s => s.last 2) =
      some (some (['2'], neverSeen 2)) := by decide +kernel
  have hlanes : (addedMeanwhile.foldlM (roomyStep idText) oneUnit).map StreamState.lanes =
      some [⟨[], .free⟩] := by decide +kernel
  rw [hs] at hstreams hunits hlast hlanes
  have hnone : ¬ Pending s 2 (neverSeen 2) := by
    unfold Pending
    rw [Option.some.inj hlanes]
    decide +kernel
  have hunit : 2 ∈ s.units := by
    rw [Option.some.inj hunits]
    decide
  have hwritten := hconsistent _ (List.mem_of_getElem? (Option.some.inj hstreams)) rfl rfl rfl 2
    hunit _ _ (Option.some.inj hlast) hnone
  exact absurd hwritten (by decide +kernel)

end BreezeHttp.LiveStream
