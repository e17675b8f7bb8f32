import BreezeCore.Proto.Types
import Mathlib.Tactic.FieldSimp

/-!
# The control payload

Shared by favourites, schedule entries and timers.  Every field is optional and
absent means "leave it alone".  `ControlRequest.validate` holds it to the bounds
the REST API enforces, and `validate_temperature` says what that leaves of a
temperature: a whole or half degree from 16 to 30.

Letter case is folded by the standard library's `to_uppercase`, which is a
parameter here: nothing depends on what it does to a name.
-/

namespace BreezeStore

open Ac

def TEMP_MIN : ℚ := 16
def TEMP_MAX : ℚ := 30
def ALLOWED_FAN_SPEEDS : List Int := [20, 40, 60, 80, 100, 102]
def OPERATIONAL_MODES : List String := ["AUTO", "COOL", "DRY", "HEAT", "FAN_ONLY"]
def SWING_MODES : List String := ["OFF", "VERTICAL", "HORIZONTAL", "BOTH"]

/-- What a client asks of a unit; what is not named is left as it is. -/
structure ControlRequest where
  powerState : Option Bool := none
  operationalMode : Option String := none
  targetTemperature : Option ℚ := none
  fanSpeed : Option Int := none
  swingMode : Option String := none
  eco : Option Bool := none
  turbo : Option Bool := none
  /-- Absent means silent. -/
  beep : Option Bool := none
  deriving DecidableEq, Repr

/-- Why a request is refused; each names the field. -/
inductive ValidationError where
  | temperatureOutOfRange
  | temperatureNotHalfDegree
  | unknownFanSpeed (v : Int)
  | unknownMode (v : String)
  | unknownSwingMode (v : String)
  deriving DecidableEq, Repr

/-- The text a client is answered with. -/
def ValidationError.message : ValidationError → String
  | .temperatureOutOfRange => "target_temperature must be between 16 and 30"
  | .temperatureNotHalfDegree => "target_temperature must be in 0.5 degree steps"
  | .unknownFanSpeed v => "fan_speed " ++ toString v ++ " is not one of " ++
      toString ALLOWED_FAN_SPEEDS
  | .unknownMode v => "Unknown mode: " ++ v
  | .unknownSwingMode v => "Unknown swing mode: " ++ v

/-- Check a field that is set. -/
def check {α : Type} (field : Option α) (test : α → Except ValidationError Unit) :
    Except ValidationError Unit :=
  match field with
  | none => .ok ()
  | some v => test v

variable (toUppercase : String → String)

/-- Check the same bounds the REST API does. -/
def ControlRequest.validate (r : ControlRequest) : Except ValidationError Unit := do
  check r.targetTemperature fun t =>
    if ¬ (TEMP_MIN ≤ t ∧ t ≤ TEMP_MAX) then .error .temperatureOutOfRange
    else if t * 2 - trunc (t * 2) ≠ 0 then .error .temperatureNotHalfDegree
    else .ok ()
  check r.fanSpeed fun f =>
    if ¬ ALLOWED_FAN_SPEEDS.contains f then .error (.unknownFanSpeed f) else .ok ()
  check r.operationalMode fun m =>
    if ¬ OPERATIONAL_MODES.contains (toUppercase m) then .error (.unknownMode m) else .ok ()
  check r.swingMode fun m =>
    if ¬ SWING_MODES.contains (toUppercase m) then .error (.unknownSwingMode m) else .ok ()

/-- Switch the unit off: what a sleep timer defaults to. -/
def ControlRequest.powerOff : ControlRequest := { powerState := some false }

/-- Switch the unit on and nothing else. -/
def ControlRequest.powerOn : ControlRequest := { powerState := some true }

/-- A field is checked if it is there. -/
theorem check_eq_ok {α : Type} {field : Option α} {test : α → Except ValidationError Unit} :
    check field test = .ok () ↔ ∀ v, field = some v → test v = .ok () := by
  cases field with
  | none => exact iff_of_true rfl nofun
  | some v =>
      refine ⟨fun h v' hv => ?_, fun h => h v rfl⟩
      obtain rfl := Option.some.inj hv
      exact h

/-- Two checks, one after the other. -/
private theorem seq_eq_ok {x y : Except ValidationError Unit} :
    (x >>= fun _ => y) = .ok () ↔ x = .ok () ∧ y = .ok () := by
  cases x with
  | error e => exact iff_of_false nofun fun h => nomatch h.1
  | ok => exact ⟨fun h => ⟨rfl, h⟩, fun h => h.2⟩

/-- A check of a condition. -/
private theorem ite_error_eq_ok {p : Prop} [Decidable p] {e : ValidationError} :
    (if ¬ p then .error e else .ok () : Except ValidationError Unit) = .ok () ↔ p := by
  by_cases hp : p
  · rw [if_neg (not_not_intro hp)]
    exact iff_of_true rfl hp
  · rw [if_pos hp]
    exact iff_of_false nofun hp

/-- **A request is valid** when every field that is set passes its own check. -/
theorem ControlRequest.validate_iff {toUppercase : String → String} {r : ControlRequest} :
    r.validate toUppercase = .ok () ↔
      (∀ t, r.targetTemperature = some t →
        TEMP_MIN ≤ t ∧ t ≤ TEMP_MAX ∧ t * 2 = (trunc (t * 2) : ℚ)) ∧
      (∀ f, r.fanSpeed = some f → f ∈ ALLOWED_FAN_SPEEDS) ∧
      (∀ m, r.operationalMode = some m → toUppercase m ∈ OPERATIONAL_MODES) ∧
      (∀ m, r.swingMode = some m → toUppercase m ∈ SWING_MODES) := by
  have htemp : ∀ t : ℚ, ((if ¬ (TEMP_MIN ≤ t ∧ t ≤ TEMP_MAX) then .error .temperatureOutOfRange
      else if t * 2 - trunc (t * 2) ≠ 0 then .error .temperatureNotHalfDegree
      else .ok () : Except ValidationError Unit) = .ok () ↔
        TEMP_MIN ≤ t ∧ t ≤ TEMP_MAX ∧ t * 2 = (trunc (t * 2) : ℚ)) := by
    intro t
    by_cases hrange : TEMP_MIN ≤ t ∧ t ≤ TEMP_MAX
    · rw [if_neg (not_not_intro hrange), ite_error_eq_ok, sub_eq_zero]
      exact ⟨fun h => ⟨hrange.1, hrange.2, h⟩, fun h => h.2.2⟩
    · rw [if_pos hrange]
      exact iff_of_false nofun fun h => hrange ⟨h.1, h.2.1⟩
  unfold ControlRequest.validate
  rw [seq_eq_ok, seq_eq_ok, seq_eq_ok, check_eq_ok, check_eq_ok, check_eq_ok, check_eq_ok]
  simp only [htemp, ite_error_eq_ok, List.contains_iff_mem]

/-- **What a valid request holds.**  Every field that is set passed its own
check. -/
theorem ControlRequest.validate_ok {toUppercase : String → String} {r : ControlRequest}
    (h : r.validate toUppercase = .ok ()) :
    (∀ t, r.targetTemperature = some t →
        TEMP_MIN ≤ t ∧ t ≤ TEMP_MAX ∧ t * 2 = (trunc (t * 2) : ℚ)) ∧
      (∀ f, r.fanSpeed = some f → f ∈ ALLOWED_FAN_SPEEDS) ∧
      (∀ m, r.operationalMode = some m → toUppercase m ∈ OPERATIONAL_MODES) ∧
      (∀ m, r.swingMode = some m → toUppercase m ∈ SWING_MODES) := validate_iff.mp h

/-- **A valid temperature** is a whole or half degree from 16 to 30. Its double is a whole number
from 32 to 60, and whether that is odd is the half. -/
theorem ControlRequest.validate_temperature {toUppercase : String → String} {r : ControlRequest}
    {t : ℚ} (h : r.validate toUppercase = .ok ()) (ht : r.targetTemperature = some t) :
    ∃ (n : Nat) (b : Bool), 16 ≤ n ∧ n ≤ 30 ∧ t = (n : ℚ) + half b := by
  obtain ⟨hlow, hhigh, hwhole⟩ := (validate_ok h).1 t ht
  simp only [TEMP_MIN, TEMP_MAX] at hlow hhigh
  obtain ⟨k, hk⟩ : ∃ k : Int, t * 2 = (k : ℚ) := ⟨_, hwhole⟩
  have hklow : (32 : Int) ≤ k := by
    have : ((32 : Int) : ℚ) ≤ k := by rw [← hk]; push_cast; linarith
    exact_mod_cast this
  have hkhigh : k ≤ (60 : Int) := by
    have : (k : ℚ) ≤ ((60 : Int) : ℚ) := by rw [← hk]; push_cast; linarith
    exact_mod_cast this
  -- Twice the temperature is a whole number: even for a whole degree.
  refine ⟨(k / 2).toNat, decide (k % 2 = 1), by omega, by omega, ?_⟩
  have hsplit : k = 2 * ((k / 2).toNat : Int) + k % 2 := by omega
  have hcast : (k : ℚ) = 2 * ((k / 2).toNat : ℚ) + ((k % 2 : Int) : ℚ) := by
    exact_mod_cast congrArg (Int.cast : Int → ℚ) hsplit
  rcases Int.emod_two_eq_zero_or_one k with heven | hodd
  · rw [heven] at hcast ⊢
    simp only [half, Int.cast_zero] at hcast ⊢
    norm_num
    linarith
  · rw [hodd] at hcast ⊢
    simp only [half, Int.cast_one] at hcast ⊢
    norm_num
    linarith

end BreezeStore
