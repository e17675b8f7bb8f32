import BreezeCore.Lib.Tails
import BreezeCore.Lib.Text

/-!
# Recent readings per unit

A small buffer for each unit, filled whenever a state is read.  It is a hint for drawing a
graph, so the oldest readings go.

* `history_ring` — what is held for a unit is the tail of everything recorded for it.
-/

namespace BreezeHttp

open Text Tails

/-- A JSON value; a number is the double it reads as. -/
inductive Value where
  | null
  | bool (b : Bool)
  | number (value : ℚ)
  | string (text : Str)
  | array (items : List Value)
  | object (fields : List (Str × Value))

namespace Value

/-- `value.get(key)`. -/
def get (key : String) : Value → Option Value
  | object fields => (fields.find? fun field => field.1 = key.toList).map Prod.snd
  | _ => none

def asBool : Value → Option Bool
  | bool b => some b
  | _ => none

def asStr : Value → Option Str
  | string text => some text
  | _ => none

def asF64 : Value → Option ℚ
  | number value => some value
  | _ => none

end Value

/-- One reading, trimmed to what a graph plots. -/
structure Sample where
  /-- Unix seconds. -/
  t : ℤ
  online : Bool
  powerState : Bool
  operationalMode : Str
  targetTemperature : ℚ
  indoorTemperature : Option ℚ
  outdoorTemperature : Option ℚ
  deriving DecidableEq, Repr

/-- What a serialised unit state shows.  An offline record has no mode. -/
def Sample.ofState (state : Value) (now : ℤ) : Sample where
  t := now
  online := ((state.get "online").bind Value.asBool).getD false
  powerState := ((state.get "power_state").bind Value.asBool).getD false
  operationalMode := ((state.get "operational_mode").bind Value.asStr).getD "UNKNOWN".toList
  targetTemperature := ((state.get "target_temperature").bind Value.asF64).getD 0
  indoorTemperature := (state.get "indoor_temperature").bind Value.asF64
  outdoorTemperature := (state.get "outdoor_temperature").bind Value.asF64

/-- Per-unit buffers. -/
structure History where
  byUnit : Str → Option (List Sample)
  size : ℕ

namespace History

def new (size : ℕ) : History where
  byUnit := fun _ => none
  size := max size 1

/-- Remember a sample taken from a serialised unit state.  One without an id is ignored. -/
def record (history : History) (state : Value) (now : ℤ) : History :=
  match (state.get "id").bind Value.asStr with
  | none => history
  | some id =>
      let buffer := (history.byUnit id).getD []
      let buffer := if history.size ≤ buffer.length then buffer.tail else buffer
      { history with
        byUnit := Function.update history.byUnit id (some (buffer ++ [Sample.ofState state now])) }

/-- Every sample held for a unit, oldest first. -/
def samples (history : History) (unitId : Str) : List Sample := (history.byUnit unitId).getD []

/-- The most recent sample. -/
def latest (history : History) (unitId : Str) : Option Sample :=
  (history.byUnit unitId).bind List.getLast?

/-- The states read from a server's start, each with the time. -/
abbrev Readings := List (Value × ℤ)

/-- The history after some readings. -/
def after (size : ℕ) (readings : Readings) : History :=
  readings.foldl (fun history reading => history.record reading.1 reading.2) (new size)

/-- A reading under the id it carries. -/
def filed (reading : Value × ℤ) : Option (Str × Sample) :=
  ((reading.1.get "id").bind Value.asStr).map fun id => (id, Sample.ofState reading.1 reading.2)

/-- The samples of one unit in all readings. -/
def recorded (unitId : Str) (readings : Readings) : List Sample :=
  under unitId (readings.filterMap filed)

theorem record_filed (history : History) (reading : Value × ℤ) :
    history.record reading.1 reading.2 =
      { history with
        byUnit := match filed reading with
          | none => history.byUnit
          | some entry => pushAt history.size history.byUnit entry } := by
  unfold record filed
  cases (reading.1.get "id").bind Value.asStr <;> rfl

/-- The buffers are those of the readings that carry an id. -/
theorem after_eq (size : ℕ) (readings : Readings) :
    after size readings =
      ⟨(readings.filterMap filed).foldl (pushAt (max size 1)) fun _ => none, max size 1⟩ := by
  induction readings using List.reverseRecOn with
  | nil => rfl
  | append_singleton readings reading ih =>
      have hlast : after size (readings ++ [reading]) =
          (after size readings).record reading.1 reading.2 := by
        rw [after, List.foldl_append]
        rfl
      rw [hlast, record_filed, ih, List.filterMap_append, List.foldl_append,
        List.filterMap_cons, List.filterMap_nil]
      cases filed reading <;> rfl

theorem latest_eq (history : History) (unitId : Str) :
    history.latest unitId = (history.samples unitId).getLast? := by
  unfold latest samples
  cases history.byUnit unitId <;> rfl

/-- **The history is a ring.**  Whatever the size and the readings, the samples held for a
unit are the last ones recorded for it, as many as the size and at least one, in the order
they were recorded; and the latest is the last of all that were. -/
theorem history_ring (size : ℕ) (readings : Readings) (unitId : Str) :
    (after size readings).samples unitId = (recorded unitId readings).rtake (max size 1) ∧
      (after size readings).latest unitId = (recorded unitId readings).getLast? := by
  have hsize : 0 < max size 1 := Nat.lt_of_lt_of_le Nat.zero_lt_one (Nat.le_max_right ..)
  have hsamples : (after size readings).samples unitId =
      (recorded unitId readings).rtake (max size 1) := by
    rw [samples, after_eq]
    exact foldl_pushAt hsize _ unitId
  refine ⟨hsamples, ?_⟩
  rw [latest_eq, hsamples, getLast?_rtake hsize]

/-- Ten readings of unit 7 in a history of three, with one of another unit and one without
an id between them. -/
example :
    let reading (id : String) (t : ℤ) : Value × ℤ :=
      (.object [("id".toList, .string id.toList), ("online".toList, .bool true)], t)
    (((after 3 ((List.range 10).map (fun n => reading "7" n) ++ [reading "8" 10,
      (.object [], 11)])).samples "7".toList).map Sample.t) = [7, 8, 9] := by decide +kernel

end History

end BreezeHttp
