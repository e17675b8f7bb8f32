import BreezeCore.Http.Control
import Mathlib.Data.List.Nodup

/-!
# What a request sets and what the unit took

Validation and conversion each look a name up by its own list.
`changeFrom_whole` says that the two agree: whatever passes validation is carried
over field by field, and no name is dropped on the way.

The reply to a control lists the fields the unit did not take.  Compared are the
setpoint that was sent and the state the unit echoes, and only fields this
request set are listed.
-/

namespace BreezeHttp

open Ac BreezeDevice BreezeStore

/-- The fields of `request` the unit did not take: sent one value, reported
another. -/
def notApplied (request : ControlRequest) (sent : Setpoint) (echoed : State) : List String :=
  (if request.powerState.isSome ∧ sent.powerOn ≠ echoed.powerOn then ["power_state"] else []) ++
  (if request.operationalMode.isSome ∧ some sent.mode ≠ echoed.mode then ["operational_mode"]
    else []) ++
  (if request.targetTemperature.isSome ∧
      1 / 100 < |sent.targetTemperature - echoed.targetTemperature| then ["target_temperature"]
    else []) ++
  (if request.fanSpeed.isSome ∧ sent.fanSpeed ≠ echoed.fanSpeed then ["fan_speed"] else []) ++
  (if request.swingMode.isSome ∧ some sent.swingMode ≠ echoed.swingMode then ["swing_mode"]
    else []) ++
  (if request.eco.isSome ∧ sent.eco ≠ echoed.eco then ["eco"] else []) ++
  (if request.turbo.isSome ∧ sent.turbo ≠ echoed.turbo then ["turbo"] else [])

/-! ## The fields of a request -/

/-- The settings of a request, the chirp left out. -/
inductive Field where
  | power
  | mode
  | temperature
  | fan
  | swing
  | eco
  | turbo
  deriving DecidableEq

/-- In the order of the reply. -/
def Field.all : List Field := [.power, .mode, .temperature, .fan, .swing, .eco, .turbo]

def Field.name : Field → String
  | .power => "power_state"
  | .mode => "operational_mode"
  | .temperature => "target_temperature"
  | .fan => "fan_speed"
  | .swing => "swing_mode"
  | .eco => "eco"
  | .turbo => "turbo"

/-- The request sets this field. -/
def Field.asked (request : ControlRequest) : Field → Bool
  | .power => request.powerState.isSome
  | .mode => request.operationalMode.isSome
  | .temperature => request.targetTemperature.isSome
  | .fan => request.fanSpeed.isSome
  | .swing => request.swingMode.isSome
  | .eco => request.eco.isSome
  | .turbo => request.turbo.isSome

/-- What the unit echoes is not what was sent. -/
def Field.differs (sent : Setpoint) (echoed : State) : Field → Bool
  | .power => sent.powerOn ≠ echoed.powerOn
  | .mode => some sent.mode ≠ echoed.mode
  | .temperature => 1 / 100 < |sent.targetTemperature - echoed.targetTemperature|
  | .fan => sent.fanSpeed ≠ echoed.fanSpeed
  | .swing => some sent.swingMode ≠ echoed.swingMode
  | .eco => sent.eco ≠ echoed.eco
  | .turbo => sent.turbo ≠ echoed.turbo

theorem Field.mem_all (f : Field) : f ∈ all := by
  cases f <;> decide

theorem Field.name_injective : Function.Injective Field.name := by
  intro f g h
  cases f <;> cases g <;> first | rfl | exact absurd h (by decide)

/-! ## The reply -/

/-- The reply is a filter of the fields. -/
theorem notApplied_eq (request : ControlRequest) (sent : Setpoint) (echoed : State) :
    notApplied request sent echoed =
      (Field.all.filter fun f => f.asked request && f.differs sent echoed).map Field.name := by
  have hone : ∀ (f : Field) (rest : List Field),
      ((f :: rest).filter fun f => f.asked request && f.differs sent echoed).map Field.name =
        (if f.asked request && f.differs sent echoed then [f.name] else []) ++
          (rest.filter fun f => f.asked request && f.differs sent echoed).map Field.name := by
    intro f rest
    rw [List.filter_cons]
    cases f.asked request && f.differs sent echoed <;> rfl
  rw [Field.all, hone, hone, hone, hone, hone, hone, hone]
  simp only [notApplied, Field.asked, Field.differs, Field.name, Bool.and_eq_true,
    decide_eq_true_eq, List.filter_nil, List.map_nil, List.append_nil, List.append_assoc]

/-- **A field is listed** exactly when the request set it and the unit echoes another
value. -/
theorem mem_notApplied {request : ControlRequest} {sent : Setpoint} {echoed : State} {f : Field} :
    f.name ∈ notApplied request sent echoed ↔
      f.asked request = true ∧ f.differs sent echoed = true := by
  rw [notApplied_eq, List.mem_map_of_injective Field.name_injective, List.mem_filter,
    Bool.and_eq_true]
  exact and_iff_right f.mem_all

theorem notApplied_nodup (request : ControlRequest) (sent : Setpoint) (echoed : State) :
    (notApplied request sent echoed).Nodup := by
  have hall : Field.all.Nodup := by decide
  rw [notApplied_eq]
  exact List.Nodup.map Field.name_injective (hall.filter _)

/-! ## The conversion -/

variable {toUppercase : String → String}

/-- The names of the modes, read back. -/
theorem modeFromName_eq_some {text : String} {mode : Mode} :
    modeFromName toUppercase text = some mode ↔ toUppercase text = mode.asStr := by
  unfold modeFromName
  generalize toUppercase text = upper
  constructor
  · intro h
    dsimp only at h
    split_ifs at h with h₁ h₂ h₃ h₄ h₅ <;> obtain rfl := Option.some.inj h <;> assumption
  · rintro rfl
    cases mode <;> decide

theorem swingFromName_eq_some {text : String} {swing : SwingMode} :
    swingFromName toUppercase text = some swing ↔ toUppercase text = swing.asStr := by
  unfold swingFromName
  generalize toUppercase text = upper
  constructor
  · intro h
    dsimp only at h
    split_ifs at h with h₁ h₂ h₃ h₄ <;> obtain rfl := Option.some.inj h <;> assumption
  · rintro rfl
    cases swing <;> decide

/-- Every mode the check knows, the conversion knows. -/
theorem modeFromName_of_valid {text : String} (h : toUppercase text ∈ OPERATIONAL_MODES) :
    ∃ mode, modeFromName toUppercase text = some mode := by
  have hall : ∀ upper ∈ OPERATIONAL_MODES, ∃ mode : Mode, upper = mode.asStr := by
    rw [OPERATIONAL_MODES]
    simp only [List.forall_mem_cons]
    exact ⟨⟨.auto, rfl⟩, ⟨.cool, rfl⟩, ⟨.dry, rfl⟩, ⟨.heat, rfl⟩, ⟨.fanOnly, rfl⟩,
      fun _ h => absurd h List.not_mem_nil⟩
  obtain ⟨mode, hmode⟩ := hall _ h
  exact ⟨mode, modeFromName_eq_some.mpr hmode⟩

theorem swingFromName_of_valid {text : String} (h : toUppercase text ∈ SWING_MODES) :
    ∃ swing, swingFromName toUppercase text = some swing := by
  have hall : ∀ upper ∈ SWING_MODES, ∃ swing : SwingMode, upper = swing.asStr := by
    rw [SWING_MODES]
    simp only [List.forall_mem_cons]
    exact ⟨⟨.off, rfl⟩, ⟨.vertical, rfl⟩, ⟨.horizontal, rfl⟩, ⟨.both, rfl⟩,
      fun _ h => absurd h List.not_mem_nil⟩
  obtain ⟨swing, hswing⟩ := hall _ h
  exact ⟨swing, swingFromName_eq_some.mpr hswing⟩

/-- A fan speed that is allowed fits its byte. -/
theorem fan_of_allowed {v : Int} (h : v ∈ ALLOWED_FAN_SPEEDS) :
    v = ((UInt8.ofInt v).toNat : Int) := by
  have hall : (ALLOWED_FAN_SPEEDS.all fun v => v = ((UInt8.ofInt v).toNat : Int)) = true := by
    decide
  exact of_decide_eq_true (List.all_eq_true.mp hall v h)

/-- The change sets what the request sets and nothing else, each field to the value its
text or number names. -/
structure Carried (toUppercase : String → String) (request : ControlRequest) (change : Change) :
    Prop where
  power : change.powerOn = request.powerState
  mode : Option.Rel (fun text mode => toUppercase text = mode.asStr) request.operationalMode
    change.mode
  temperature : change.targetTemperature = request.targetTemperature
  fan : Option.Rel (fun (v : Int) (speed : FanSpeed) => v = (speed.raw.toNat : Int))
    request.fanSpeed change.fanSpeed
  swing : Option.Rel (fun text swing => toUppercase text = swing.asStr) request.swingMode
    change.swingMode
  eco : change.eco = request.eco
  turbo : change.turbo = request.turbo
  beep : change.beep = request.beep

/-- **A valid request is carried over whole.** The validation accepts the names and numbers that
the change can hold, so that no field is dropped on the way. -/
theorem changeFrom_whole {request : ControlRequest} (h : request.validate toUppercase = .ok ()) :
    Carried toUppercase request (changeFrom toUppercase request) := by
  obtain ⟨-, hfan, hmode, hswing⟩ := ControlRequest.validate_ok h
  refine ⟨rfl, ?_, rfl, ?_, ?_, rfl, rfl, rfl⟩
  · unfold changeFrom
    cases htext : request.operationalMode with
    | none => exact .none
    | some text =>
        obtain ⟨mode, hread⟩ := modeFromName_of_valid (hmode text htext)
        rw [Option.bind_some, hread]
        exact .some (modeFromName_eq_some.mp hread)
  · unfold changeFrom
    cases hv : request.fanSpeed with
    | none => exact .none
    | some v => exact .some (fan_of_allowed (hfan v hv))
  · unfold changeFrom
    cases htext : request.swingMode with
    | none => exact .none
    | some text =>
        obtain ⟨swing, hread⟩ := swingFromName_of_valid (hswing text htext)
        rw [Option.bind_some, hread]
        exact .some (swingFromName_eq_some.mp hread)

/-- **A valid request reaches the unit whole, and the reply says what it did not take:**
each field the request set, the chirp aside, whose echoed value is not the one sent, once
and under its name. -/
theorem control_honest (toUppercase : String → String) :
    (∀ request : ControlRequest, request.validate toUppercase = .ok () →
      Carried toUppercase request (changeFrom toUppercase request)) ∧
    ∀ (request : ControlRequest) (sent : Setpoint) (echoed : State),
      (∀ f : Field, f.name ∈ notApplied request sent echoed ↔
        f.asked request = true ∧ f.differs sent echoed = true) ∧
      (∀ name ∈ notApplied request sent echoed, ∃ f : Field, name = f.name) ∧
      (notApplied request sent echoed).Nodup := by
  refine ⟨fun request h => changeFrom_whole h, ?_⟩
  intro request sent echoed
  refine ⟨fun f => mem_notApplied, ?_, notApplied_nodup request sent echoed⟩
  intro name hname
  rw [notApplied_eq] at hname
  obtain ⟨f, -, rfl⟩ := List.mem_map.mp hname
  exact ⟨f, rfl⟩

end BreezeHttp
