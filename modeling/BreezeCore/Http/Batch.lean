import BreezeCore.Http.Stream

/-!
# Every unit in one call

The batch read starts one worker a unit, waits for all of them, and puts their results
together in the order of the configuration.  A result is found again by the id it carries, and
the result that stands in for a worker that panicked carries the id 0.

`batch_complete_iff`: units are lost to panics and to nothing else, whatever the workers come
to and in whatever order they finish.
-/

namespace BreezeHttp.Batch

open Text Ac LiveStream

/-- What a unit looks like when we cannot speak to it. -/
structure UnitOffline where
  id : Nat
  name : Str
  ip : Str
  online : Bool
  error : Str
  deriving DecidableEq, Repr

/-- One element of the reply. -/
inductive Entry where
  | state (state : UnitState)
  | offline (unit : UnitOffline)
  /-- Only an id and an error: the unit was not asked. -/
  | failed (id : Nat) (online : Bool) (error : Str)
  deriving DecidableEq, Repr

def Entry.id : Entry → Nat
  | .state s => s.id
  | .offline unit => unit.id
  | .failed id _ _ => id

/-- The `online` field. -/
def Entry.online : Entry → Bool
  | .state s => s.online
  | .offline unit => unit.online
  | .failed _ online _ => online

/-- What becomes of the worker of a unit. -/
inductive Reading where
  | state (info : UnitInfo) (state : State)
  | failure (info : UnitInfo) (error : Str)
  /-- The manager does not know the unit (any more). -/
  | unconfigured
  | panicked

abbrev Result : Type := Except Str Entry

/-- One unit's live state, or a structured offline record.  Nothing when it panics. -/
def unitState (id : Nat) : Reading → Option Result
  | .unconfigured => some (.error "unit has no V3 token and key configured".toList)
  | .state info s => some (.ok (.state (.fromInfo id info s)))
  | .failure info error =>
      some (.ok (.offline
        { id := id, name := info.name, ip := info.ip, online := false, error := error }))
  | .panicked => none

/-- What a worker leaves, or what stands in for it: a panicked worker must not take the batch
down with it. -/
def joined (left : Option (Nat × Result)) : Nat × Result :=
  left.getD (0, .error "worker panicked".toList)

/-- Wait for the worker with this handle, among those that have ended. -/
def join (ended : List (Nat × Option (Nat × Result))) (handle : Nat) : Nat × Result :=
  joined ((ended.find? fun e => e.1 = handle).bind Prod.snd)

structure Envelope where
  states : List Entry := []
  errors : List Entry := []
  deriving DecidableEq, Repr

/-- One unit's result goes into one of the lists. -/
def Envelope.place (results : List (Nat × Result)) (env : Envelope) (id : Nat) : Envelope :=
  match results.find? fun r => r.1 = id with
  | none => env
  | some (_, .ok entry) =>
      if entry.online = false then { env with errors := env.errors ++ [entry] }
      else { env with states := env.states ++ [entry] }
  | some (_, .error e) => { env with errors := env.errors ++ [.failed id false e] }

/-- What the worker with the `handle`-th id leaves. -/
def work (ids : List Nat) (reading : Nat → Reading) (handle : Nat) : Option (Nat × Result) :=
  ids[handle]?.bind fun id => (unitState id (reading id)).map fun result => (id, result)

/-- Every unit in one call: the workers end in the order `finished`, are joined in the order
they were started in, and their results are put together in the order of the ids. -/
def allStates (ids : List Nat) (reading : Nat → Reading) (finished : List Nat) : Envelope :=
  let ended := finished.map fun handle => (handle, work ids reading handle)
  let results := (List.range ids.length).map (join ended)
  ids.foldl (Envelope.place results) {}

/-! ## What the reply is to hold -/

/-- The unit was read. -/
def Reading.isState : Reading → Bool
  | .state _ _ => true
  | _ => false

/-- The entry of a unit, by what became of its own worker. -/
def Reading.entry (id : Nat) : Reading → Entry
  | .state info s => .state (.fromInfo id info s)
  | .failure info error =>
      .offline { id := id, name := info.name, ip := info.ip, online := false, error := error }
  | .unconfigured => .failed id false "unit has no V3 token and key configured".toList
  | .panicked => .failed id false "worker panicked".toList

/-- **No unit is lost**: the units that were read are in one list, the others in the other, each
once and in the order of the ids, and each with an entry that is its own affair. -/
structure Complete (ids : List Nat) (reading : Nat → Reading) (reply : Envelope) : Prop where
  states : reply.states =
    (ids.filter fun id => (reading id).isState).map fun id => (reading id).entry id
  errors : reply.errors =
    (ids.filter fun id => ¬ (reading id).isState).map fun id => (reading id).entry id

theorem Reading.entry_id (id : Nat) (r : Reading) : (r.entry id).id = id := by
  cases r <;> rfl

/-! ## The results -/

/-- What is filed under a key is found under it. -/
private theorem find?_keyed {α : Type} (f : Nat → α) {keys : List Nat} {k : Nat} (h : k ∈ keys) :
    (keys.map fun key => (key, f key)).find? (fun e => e.1 = k) = some (k, f k) := by
  induction keys with
  | nil => cases h
  | cons key keys ih =>
      rw [List.map_cons, List.find?_cons]
      by_cases heq : key = k
      · rw [heq, decide_eq_true rfl]
      · rw [decide_eq_false heq]
        exact ih ((List.mem_cons.mp h).resolve_left fun h => heq h.symm)

section Run

variable {ids finished : List Nat} {reading : Nat → Reading}

/-- The result of a unit's worker, or of its stand-in. -/
def resultOf (reading : Nat → Reading) (id : Nat) : Nat × Result :=
  joined ((unitState id (reading id)).map fun result => (id, result))

/-- **The order in which the workers finish** does not matter. -/
theorem join_eq (hfinished : finished.Perm (List.range ids.length)) :
    (List.range ids.length).map (join (finished.map fun handle =>
      (handle, work ids reading handle))) = ids.map (resultOf reading) := by
  refine List.ext_getElem (by simp) fun i hi hi' => ?_
  have hlt : i < ids.length := by simpa using hi
  have hmem : i ∈ finished := hfinished.mem_iff.mpr (List.mem_range.mpr hlt)
  rw [List.getElem_map, List.getElem_map, List.getElem_range, join,
    find?_keyed (work ids reading) hmem]
  unfold work
  rw [List.getElem?_eq_getElem hlt]
  rfl

/-- The stand-in carries no id. -/
theorem resultOf_panicked {id : Nat} (h : reading id = .panicked) :
    resultOf reading id = (0, .error "worker panicked".toList) := by
  unfold resultOf
  rw [h]
  rfl

/-- Any other result carries the id of its unit. -/
theorem resultOf_eq {id : Nat} (h : reading id ≠ .panicked) :
    resultOf reading id =
      (id, (unitState id (reading id)).getD (.error "worker panicked".toList)) := by
  unfold resultOf
  cases hreading : reading id with
  | panicked => exact absurd hreading h
  | state info s => rfl
  | failure info error => rfl
  | unconfigured => rfl

theorem unitState_id {id : Nat} {r : Reading} {entry : Entry}
    (h : unitState id r = some (.ok entry)) : entry.id = id := by
  cases r with
  | state info s => cases h; rfl
  | failure info error => cases h; rfl
  | unconfigured => cases h
  | panicked => cases h

/-- The result of a unit is found under its id, unless a panic has put it under another. -/
theorem find?_results (hpanics : ∀ id ∈ ids, reading id = .panicked → id = 0) {id : Nat}
    (h : id ∈ ids) : (ids.map (resultOf reading)).find? (fun r => r.1 = id) =
      some (id, (unitState id (reading id)).getD (.error "worker panicked".toList)) := by
  have hfiled : ids.map (resultOf reading) = ids.map fun id =>
      (id, (unitState id (reading id)).getD (.error "worker panicked".toList)) := by
    refine List.map_congr_left fun id hid => ?_
    by_cases hpanicked : reading id = .panicked
    · rw [resultOf_panicked hpanicked, hpanicked, hpanics id hid hpanicked]
      rfl
    · exact resultOf_eq hpanicked
  rw [hfiled]
  exact find?_keyed _ h

/-- Nothing is found under the id of a unit whose worker panicked, unless that is 0. -/
theorem find?_panicked {id : Nat} (hid : id ≠ 0) (hpanicked : reading id = .panicked) :
    (ids.map (resultOf reading)).find? (fun r => r.1 = id) = none := by
  refine List.find?_eq_none.mpr fun r hr => ?_
  obtain ⟨other, -, rfl⟩ := List.mem_map.mp hr
  rw [decide_eq_true_iff]
  intro heq
  by_cases hother : reading other = .panicked
  · rw [resultOf_panicked hother] at heq
    exact hid heq.symm
  · rw [resultOf_eq hother] at heq
    obtain rfl : other = id := heq
    exact hother hpanicked

/-- What is found under an id is about that unit. -/
theorem found_id {id other : Nat} {entry : Entry}
    (h : (ids.map (resultOf reading)).find? (fun r => r.1 = id) = some (other, .ok entry)) :
    entry.id = id := by
  have hkey : other = id := by simpa using List.find?_some h
  obtain ⟨unit, -, hunit⟩ := List.mem_map.mp (List.mem_of_find?_eq_some h)
  by_cases hpanicked : reading unit = .panicked
  · rw [resultOf_panicked hpanicked] at hunit
    cases hunit
  · rw [resultOf_eq hpanicked] at hunit
    obtain ⟨rfl, hentry⟩ := Prod.mk.inj hunit
    rw [← hkey]
    refine @unitState_id unit (reading unit) entry ?_
    cases hleft : unitState unit (reading unit) with
    | none => rw [hleft] at hentry; cases hentry
    | some result =>
        rw [hleft] at hentry
        exact congrArg some hentry

/-! ## The reply -/

theorem allStates_eq (hfinished : finished.Perm (List.range ids.length)) :
    allStates ids reading finished =
      ids.foldl (Envelope.place (ids.map (resultOf reading))) {} := by
  unfold allStates
  dsimp only
  rw [join_eq hfinished]

/-- A unit that is found goes into its list. -/
theorem Envelope.place_found (env : Envelope) {results : List (Nat × Result)} {id : Nat}
    (h : results.find? (fun r => r.1 = id) =
      some (id, (unitState id (reading id)).getD (.error "worker panicked".toList))) :
    env.place results id =
      if (reading id).isState then
        { env with states := env.states ++ [(reading id).entry id] }
      else { env with errors := env.errors ++ [(reading id).entry id] } := by
  unfold Envelope.place
  rw [h]
  cases reading id <;> rfl

theorem foldl_place {results : List (Nat × Result)} (some_ : List Nat) (env : Envelope)
    (h : ∀ id ∈ some_, results.find? (fun r => r.1 = id) =
      some (id, (unitState id (reading id)).getD (.error "worker panicked".toList))) :
    some_.foldl (Envelope.place results) env =
      { states := env.states ++
          (some_.filter fun id => (reading id).isState).map fun id => (reading id).entry id
        errors := env.errors ++
          (some_.filter fun id => ¬ (reading id).isState).map fun id =>
            (reading id).entry id } := by
  induction some_ generalizing env with
  | nil => simp
  | cons id rest ih =>
      obtain ⟨hid, hrest⟩ := List.forall_mem_cons.mp h
      rw [List.foldl_cons, ih _ hrest, env.place_found hid]
      by_cases hstate : (reading id).isState = true
      · simp [hstate]
      · simp [hstate]

/-- A unit that is not found is in neither list. Placing the other results adds entries under
their own ids, and this one has no result to place. -/
theorem foldl_place_without {id : Nat}
    (hnone : (ids.map (resultOf reading)).find? (fun r => r.1 = id) = none) (some_ : List Nat)
    (env : Envelope) (henv : ∀ e ∈ env.errors, e.id ≠ id) :
    ∀ e ∈ (some_.foldl (Envelope.place (ids.map (resultOf reading))) env).errors, e.id ≠ id := by
  induction some_ generalizing env with
  | nil => exact henv
  | cons other rest ih =>
      refine ih _ ?_
      unfold Envelope.place
      split
      next => exact henv
      next key entry hfound =>
        split
        next =>
          intro e he
          rcases List.mem_append.mp he with he | he
          · exact henv e he
          · obtain rfl := List.mem_singleton.mp he
            rw [found_id hfound]
            rintro rfl
            rw [hnone] at hfound
            cases hfound
        next => exact henv
      next key error hfound =>
        intro e he
        rcases List.mem_append.mp he with he | he
        · exact henv e he
        · obtain rfl := List.mem_singleton.mp he
          rintro rfl
          exact absurd (hnone.symm.trans hfound) nofun

/-- **The batch read loses no unit exactly when no worker panics**, but for the unit that has
the id of the stand-in. -/
theorem batch_complete_iff (hfinished : finished.Perm (List.range ids.length)) :
    Complete ids reading (allStates ids reading finished) ↔
      ∀ id ∈ ids, reading id = .panicked → id = 0 := by
  rw [allStates_eq hfinished]
  constructor
  · intro h id hid hpanicked
    by_contra hne
    have habsent := foldl_place_without (@find?_panicked ids reading id hne hpanicked) ids {}
      fun e he => absurd he List.not_mem_nil
    rw [h.errors] at habsent
    have hunread : (reading id).isState = false := by rw [hpanicked]; rfl
    have hfailed : id ∈ ids.filter fun id => ¬ (reading id).isState :=
      List.mem_filter.mpr ⟨hid, by simp [hunread]⟩
    have hentry := habsent _ (List.mem_map_of_mem hfailed)
    exact hentry (Reading.entry_id id (reading id))
  · intro hpanics
    rw [foldl_place ids {} fun id hid => find?_results hpanics hid]
    exact ⟨rfl, rfl⟩

end Run

/-- Of two units one does not answer. -/
def oneSilent (id : Nat) : Reading :=
  if id = 5 then .failure ⟨"Hall".toList, "10.0.0.5".toList⟩ "timed out".toList
  else .unconfigured

/-- Of two units one does not answer, and neither worker panics. -/
theorem batch_complete_silent :
    Complete [5, 7] oneSilent (allStates [5, 7] oneSilent [1, 0]) ↔
      ∀ id ∈ [5, 7], oneSilent id = .panicked → id = 0 :=
  batch_complete_iff (by decide)

/-- Of two units the worker of one panics: it is in neither list. -/
theorem panicked_unit_lost :
    ¬ Complete [5, 7] (fun id => if id = 5 then .panicked else .unconfigured)
        (allStates [5, 7] (fun id => if id = 5 then .panicked else .unconfigured) [0, 1]) := by
  intro h
  exact absurd h.errors (by decide)

end BreezeHttp.Batch
