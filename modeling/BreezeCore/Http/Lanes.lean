import BreezeCore.Http.StreamRuns
import BreezeCore.Lib.Exec
import BreezeCore.Lib.Shares

/-!
# The lanes of a pass

One pass polls the units in lanes that run side by side, or in a plain walk.  Each lane goes
through all units and takes those whose position is its own modulo the number of lanes.

* `pollOnce_eq` — the pass never divides by zero, and a plain walk is a single lane;
* `lanes_partition` — every position is polled by exactly one lane, and a pass that runs its
  lanes in any order reads every unit of the list as often as it stands there;
* `lane_without_units` — there is a lane even where there are no units.
-/

namespace BreezeHttp.LiveStream

open Text Fallible Runs Shares

/-- `a % b`. -/
def remainder {ε : Type} (a b : Nat) : Exec ε Nat := if b = 0 then crash else .ok (a % b)

/-- What one lane polls, a unit and its position each. -/
def lanePolls {ε : Type} (lanes lane : Nat) : List (Nat × Nat) → Exec ε (List (Nat × Nat))
  | [] => pure []
  | unit :: rest => do
      let own ← remainder unit.2 lanes
      let polls ← lanePolls lanes lane rest
      pure (if own = lane then unit :: polls else polls)

/-- One refresh of every unit: what each lane polls, in its order. -/
def pollOnce {ε : Type} (units : List Nat) (bgWorkers : Nat) :
    Exec ε (List (List (Nat × Nat))) :=
  let lanes := laneCount units.length bgWorkers
  if lanes ≤ 1 then pure [units.zipIdx]
  else (List.range lanes).mapM fun lane => lanePolls lanes lane units.zipIdx

theorem laneCount_pos (units requested : Nat) : 0 < laneCount units requested := by
  unfold laneCount
  omega

theorem laneCount_le (units requested : Nat) : laneCount units requested ≤ max units 1 :=
  Nat.min_le_right _ _

variable {ε : Type}

theorem lanePolls_eq {lanes : Nat} (h : 0 < lanes) (lane : Nat) (units : List (Nat × Nat)) :
    (lanePolls lanes lane units : Exec ε _) = .ok (units.filter fun u => u.2 % lanes = lane) := by
  induction units with
  | nil => rfl
  | cons unit units ih =>
      rw [lanePolls, remainder, if_neg h.ne', ok_bind, ih, ok_bind]
      by_cases hown : unit.2 % lanes = lane
      · rw [if_pos hown, List.filter_cons_of_pos (by simpa using hown)]
        rfl
      · rw [if_neg hown, List.filter_cons_of_neg (by simpa using hown)]
        rfl

/-- **No division by zero**, and the plain walk is what a single lane polls. -/
theorem pollOnce_eq (units : List Nat) (requested : Nat) :
    (pollOnce units requested : Exec ε _) =
      .ok ((List.range (laneCount units.length requested)).map fun lane =>
        units.zipIdx.filter fun u => u.2 % laneCount units.length requested = lane) := by
  have hpos := laneCount_pos units.length requested
  unfold pollOnce
  dsimp only
  by_cases hone : laneCount units.length requested ≤ 1
  · have hsingle : laneCount units.length requested = 1 := by omega
    have hall : (units.zipIdx.filter fun u => u.2 % 1 = 0) = units.zipIdx :=
      List.filter_eq_self.mpr fun u _ => decide_eq_true (Nat.mod_one u.2)
    rw [if_pos hone, hsingle, List.range_one, List.map_singleton, hall]
    rfl
  · rw [if_neg hone]
    simp only [lanePolls_eq hpos]
    exact List.mapM_pure

/-! ## The lanes side by side -/

/-- The unit a step reads. -/
def readBy (s : StreamState) : Op → Option Nat
  | .read i _ _ => (s.lanes[i]?).bind fun lane => lane.todo.head?
  | _ => none

/-- A step of a pass that has begun, with the unit it reads. -/
def PassStep (canonical : UnitState → Str) (s : StreamState) (a : Op × Option Nat)
    (s' : StreamState) : Prop :=
  step canonical s a.1 = some s' ∧ a.2 = readBy s a.1 ∧ ∀ requested, a.1 ≠ .startPass requested

/-- The units that are still to be read in the pass. -/
def StreamState.unread (s : StreamState) : List Nat := s.lanes.flatMap Lane.todo

variable {canonical : UnitState → Str}

theorem unread_set {s : StreamState} {i : Nat} {lane lane' : Lane} {taken : List Nat}
    (hlane : s.lanes[i]? = some lane) (htodo : lane.todo = taken ++ lane'.todo) :
    s.unread.Perm (taken ++ (s.lanes.set i lane').flatMap Lane.todo) :=
  flatMap_set_perm hlane (List.Perm.of_eq htodo)

/-- What a step reads goes out of what is to be read, and nothing else does. A read takes the head
off one lane, and every other step leaves the lists of the lanes alone. -/
theorem unread_step {s s' : StreamState} {a : Op × Option Nat} (h : PassStep canonical s a s') :
    s.unread.Perm (a.2.toList ++ s'.unread) := by
  obtain ⟨hstep, hread, hpass⟩ := h
  rw [hread]
  have hsame : s'.lanes = s.lanes → s.unread.Perm s'.unread := by
    intro hlanes
    rw [StreamState.unread, StreamState.unread, hlanes]
  generalize a.1 = op at hstep hpass ⊢
  cases op with
  | configure units =>
      obtain rfl := Option.some.inj hstep
      exact List.Perm.refl _
  | startPass requested => exact absurd rfl (hpass requested)
  | read i live configured =>
      have hstep : read s i live configured = some s' := hstep
      unfold read at hstep
      split at hstep
      next id todo hlane =>
        obtain rfl := Option.some.inj hstep
        rw [readBy, hlane]
        exact unread_set hlane rfl
      next => cases hstep
  | record i =>
      have hstep : record canonical s i = some s' := hstep
      unfold record at hstep
      split at hstep
      next todo id value hlane =>
        split at hstep <;> obtain rfl := Option.some.inj hstep <;> exact unread_set hlane rfl
      next => cases hstep
  | broadcast i =>
      have hstep : broadcast s i = some s' := hstep
      unfold broadcast at hstep
      split at hstep
      next todo id value hlane =>
        obtain rfl := Option.some.inj hstep
        exact unread_set hlane rfl
      next => cases hstep
  | openStream =>
      obtain rfl := Option.some.inj hstep
      exact List.Perm.refl _
  | subscribe stream => exact hsame (subscribe_poller hstep).1
  | takeSnapshot stream => exact hsame (takeSnapshot_poller hstep).1
  | write stream => exact hsame (write_poller hstep).1
  | close stream => exact hsame (close_poller hstep).1

theorem unread_of_done {s : StreamState} (h : s.lanes.all Lane.done = true) : s.unread = [] := by
  rw [StreamState.unread, List.flatMap_eq_nil_iff]
  intro lane hlane
  have hdone := List.all_eq_true.mp h lane hlane
  exact of_decide_eq_true (Bool.and_eq_true_iff.mp hdone).1

/-- A pass begins with the lanes of `pollOnce`. -/
theorem startPass_lanes {s s' : StreamState} {requested : Nat}
    (h : startPass s requested = some s') {lanes : List (List (Nat × Nat))}
    (hpoll : pollOnce (ε := Empty) s.units requested = .ok lanes) :
    s'.lanes.map Lane.todo = lanes.map (List.map Prod.fst) := by
  rw [pollOnce_eq] at hpoll
  obtain rfl := Except.ok.inj hpoll
  unfold startPass at h
  split at h
  next =>
    obtain rfl := Option.some.inj h
    simp only [List.map_map]
    rfl
  next => cases h

/-- **Lanes partition the units.**  Whatever the units and however many lanes are configured,
a pass divides by no zero; its lanes are no more than the units, or one where there are none;
they poll what a plain walk polls, every position once and no position in two lanes; and in
whatever order the steps of the lanes follow, a pass that is over has read every unit of the
list as often as it stands there. -/
theorem lanes_partition (units : List Nat) (requested : Nat) :
    ∃ lanes, (pollOnce units requested : Exec Empty _) = .ok lanes ∧
      (pollOnce units 1 : Exec Empty _) = .ok [units.zipIdx] ∧
      lanes.length ≤ max units.length 1 ∧
      lanes.flatten.Perm units.zipIdx ∧
      (lanes.flatten.map Prod.snd).Perm (List.range units.length) ∧
      (lanes.map (List.map Prod.snd)).Pairwise List.Disjoint ∧
      ∀ (canonical : UnitState → Str) (s s₀ s₁ : StreamState) (steps : List (Op × Option Nat)),
        s.units = units → startPass s requested = some s₀ →
          Run (PassStep canonical) s₀ steps s₁ → s₁.lanes.all Lane.done = true →
            (steps.filterMap Prod.snd).Perm units := by
  have hpos := laneCount_pos units.length requested
  have hpoll := pollOnce_eq (ε := Empty) units requested
  have hflat : ((List.range (laneCount units.length requested)).map fun lane =>
      units.zipIdx.filter fun u => u.2 % laneCount units.length requested = lane).flatten.Perm
        units.zipIdx := by
    rw [← List.flatMap_def]
    exact shares_perm fun u _ => Nat.mod_lt u.2 hpos
  generalize hlanes : (List.range (laneCount units.length requested)).map (fun lane =>
    units.zipIdx.filter fun u => u.2 % laneCount units.length requested = lane) = lanes
    at hpoll hflat
  have hpositions : (lanes.flatten.map Prod.snd).Perm (List.range units.length) := by
    have hmap := hflat.map Prod.snd
    rwa [List.zipIdx_map_snd, ← List.range_eq_range'] at hmap
  refine ⟨lanes, hpoll, ?_, ?_, hflat, hpositions, ?_, ?_⟩
  · rw [pollOnce, laneCount, if_pos (by omega)]
    rfl
  · rw [← hlanes, List.length_map, List.length_range]
    exact laneCount_le units.length requested
  · have hnodup := hpositions.nodup_iff.mpr List.nodup_range
    rw [List.map_flatten, List.nodup_flatten] at hnodup
    exact hnodup.2
  · intro canonical s s₀ s₁ steps hunits hstart hrun hdone
    subst hunits
    have hbegin : s₀.unread.Perm s.units := by
      have hmap := hflat.map Prod.fst
      rw [List.zipIdx_map_fst, List.map_flatten] at hmap
      rw [StreamState.unread, List.flatMap_def, startPass_lanes hstart hpoll]
      exact hmap
    have hreads : s₀.unread.Perm ((steps.flatMap fun a => a.2.toList) ++ s₁.unread) :=
      hrun.spends fun _ _ _ h => unread_step h
    rw [unread_of_done hdone, List.append_nil] at hreads
    rw [List.filterMap_eq_flatMap_toList]
    exact hreads.symm.trans hbegin

/-- Three units, and a subscriber that has them polled. -/
def threeUnits : StreamState where
  units := [4, 9, 6]
  streams := [{ order := [4, 9, 6], phase := .subscribed }]

/-- The two lanes of their pass, the second one reading first. -/
def twoLaneSteps : List (Op × Option Nat) :=
  [(.read 1 none none, some 9), (.read 0 none none, some 4), (.record 0, none),
    (.broadcast 0, none), (.read 0 none none, some 6), (.record 1, none), (.record 0, none),
    (.broadcast 1, none), (.broadcast 0, none)]

/-- Three units in two lanes, whose steps come in turn. -/
theorem lanes_partition_three :
    ∃ s₀ s₁, startPass threeUnits 2 = some s₀ ∧ Run (PassStep fun _ => []) s₀ twoLaneSteps s₁ ∧
      s₁.lanes.all Lane.done = true ∧ (twoLaneSteps.filterMap Prod.snd).Perm [4, 9, 6] := by
  obtain ⟨lanes, -, -, -, -, -, -, hpass⟩ := lanes_partition [4, 9, 6] 2
  have hrun : Run (PassStep fun _ => []) ((startPass threeUnits 2).getD threeUnits)
      twoLaneSteps _ :=
    .cons ⟨rfl, rfl, nofun⟩ (.cons ⟨rfl, rfl, nofun⟩ (.cons ⟨rfl, rfl, nofun⟩
      (.cons ⟨rfl, rfl, nofun⟩ (.cons ⟨rfl, rfl, nofun⟩ (.cons ⟨rfl, rfl, nofun⟩
        (.cons ⟨rfl, rfl, nofun⟩ (.cons ⟨rfl, rfl, nofun⟩ (.cons ⟨rfl, rfl, nofun⟩
          (.nil _)))))))))
  exact ⟨_, _, rfl, hrun, rfl, hpass _ threeUnits _ _ twoLaneSteps rfl rfl hrun rfl⟩

/-- No units, and yet a lane. -/
theorem lane_without_units :
    ¬ ∀ (units : List Nat) (requested : Nat), laneCount units.length requested ≤ units.length :=
  fun h => absurd (h [] 8) (by decide)

end BreezeHttp.LiveStream
