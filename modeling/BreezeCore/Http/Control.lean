import BreezeCore.Device.Change
import BreezeCore.Store.Control

/-!
# Applying a partial control request to a unit

A control command restates the whole configuration, so a partial request is laid
over the unit's last report and the result sent.  `command_restates` is the law
that makes this safe: the command a unit receives differs from what it reported
in exactly the settings the request sets.
-/

namespace BreezeHttp

open Fallible Bytes Ac BreezeDevice BreezeStore

variable (toUppercase : String → String)

/-- Names as the REST API publishes them. -/
def modeFromName (name : String) : Option Mode :=
  let upper := toUppercase name
  if upper = "AUTO" then some .auto
  else if upper = "COOL" then some .cool
  else if upper = "DRY" then some .dry
  else if upper = "HEAT" then some .heat
  else if upper = "FAN_ONLY" then some .fanOnly
  else none

def swingFromName (name : String) : Option SwingMode :=
  let upper := toUppercase name
  if upper = "OFF" then some .off
  else if upper = "VERTICAL" then some .vertical
  else if upper = "HORIZONTAL" then some .horizontal
  else if upper = "BOTH" then some .both
  else none

/-- The device layer's view of a request: typed, and only what it sets. -/
def changeFrom (request : ControlRequest) : Change where
  powerOn := request.powerState
  mode := request.operationalMode.bind (modeFromName toUppercase)
  targetTemperature := request.targetTemperature
  fanSpeed := request.fanSpeed.map fun v => ⟨UInt8.ofInt v⟩
  swingMode := request.swingMode.bind (swingFromName toUppercase)
  eco := request.eco
  turbo := request.turbo
  -- Absent means silent.
  beep := request.beep

/-- The command in `payload` restates the report `s` with the change `c` laid
over it, setting by setting. -/
structure Restates (c : Change) (s : State) (mode : Mode) (swing : SwingMode)
    (payload : Octets) : Prop where
  power : (readBack payload).powerOn = c.powerOn.getD s.powerOn
  mode : (readBack payload).mode = some (c.mode.getD mode)
  temperature : (readBack payload).targetTemperature = c.targetTemperature.getD s.targetTemperature
  fan : (readBack payload).fanSpeed = c.fanSpeed.getD s.fanSpeed
  swing : (readBack payload).swingMode = some (c.swingMode.getD swing)
  eco : (readBack payload).eco = c.eco.getD s.eco
  turbo : (readBack payload).turbo = (c.turbo.getD s.turbo, c.turbo.getD s.turbo)
  sleep : (readBack payload).sleep = s.sleep
  displayUnit : (readBack payload).fahrenheit = s.fahrenheit
  purifier : (readBack payload).purifier = s.purifier
  auxHeat : (readBack payload).auxHeat = s.auxHeat
  independentAuxHeat : (readBack payload).independentAuxHeat = s.independentAuxHeat
  followMe : (readBack payload).followMe = s.followMe
  humidity : ∀ h, s.targetHumidity = some h → (readBack payload).targetHumidity = h
  freeze : ∀ f, s.freezeProtection = some f → (readBack payload).freezeProtection = f

/-- The setpoint of the overlay is one the command layout can carry. -/
private theorem overlay_temperature {toUppercase : String → String} {s : State}
    {request : ControlRequest}
    (hreport : ∃ (n : Nat) (b : Bool), 13 ≤ n ∧ n ≤ 43 ∧ s.targetTemperature = (n : ℚ) + half b)
    (hvalid : request.validate toUppercase = .ok ()) :
    ∃ (n : Nat) (b : Bool), 13 ≤ n ∧ n ≤ 43 ∧
      ((changeFrom toUppercase request).applyTo (Setpoint.fromState s)).targetTemperature =
        (n : ℚ) + half b := by
  cases htemp : request.targetTemperature with
  | none => simpa only [Change.applyTo, changeFrom, Setpoint.fromState, htemp, Option.getD_none]
      using hreport
  | some t =>
      obtain ⟨n, b, hlow, hhigh, ht⟩ := ControlRequest.validate_temperature hvalid htemp
      exact ⟨n, b, by omega, by omega,
        by simpa only [Change.applyTo, changeFrom, htemp, Option.getD_some] using ht⟩

/-- **Read, change, write.**  For every report the decoder accepts with a mode
and a swing value it knows, and every request that passes validation, the
command built from the two carries the requested value in every setting the
request sets and the reported one in every other. -/
theorem command_restates {report : Octets} {s : State} {mode : Mode} {swing : SwingMode}
    {request : ControlRequest} (hreport : State.parse report = .ok s) (hmode : s.mode = some mode)
    (hswing : s.swingMode = some swing) (hvalid : request.validate toUppercase = .ok ())
    (messageId : UInt8) :
    ∃ payload,
      Frame.parse (setState messageId
          ((changeFrom toUppercase request).applyTo (Setpoint.fromState s))) .airConditioner =
        .ok payload ∧
      Restates (changeFrom toUppercase request) s mode swing payload := by
  obtain ⟨hsetpoint, hseven⟩ := State.parse_restatable hreport
  obtain ⟨n, b, hlow, hhigh, htemp⟩ := overlay_temperature hsetpoint hvalid
  refine ⟨_, parse_finish .control messageId (by simp), ?_⟩
  have hread := readBack_setState hlow hhigh htemp ([messageId] ++ [Crc8.calculate
    (setStatePayload ((changeFrom toUppercase request).applyTo (Setpoint.fromState s)) ++
      [messageId])])
  rw [← List.append_assoc] at hread
  constructor <;> rw [hread]
  case mode => simp [Setpoint.settings, Change.applyTo, Setpoint.fromState, hmode]
  case swing => simp [Setpoint.settings, Change.applyTo, Setpoint.fromState, hswing]
  case humidity =>
    intro h hh
    simp [Setpoint.settings, Change.applyTo, Setpoint.fromState, hh, hseven h hh]
  case freeze =>
    intro f hf
    simp [Setpoint.settings, Change.applyTo, Setpoint.fromState, hf]
  all_goals rfl

/-- A unit at 24.5 degrees, cooling, with byte 13 carrying the setpoint, is asked
to heat to 16 degrees. -/
theorem command_restates_heat :
    ∃ (s : State) (payload : Octets),
      State.parse [0xC0, 0x01, 0x58, 0x66, 0, 0, 0, 0x3C, 0x20, 0x10, 0x04, 0xFF, 0xFF, 0x0C, 0,
        0, 0, 0, 0, 0x2D, 0, 0x80] = .ok s ∧
      Frame.parse (setState 9
          ((changeFrom (fun name => String.ofList (name.toList.map Char.toUpper))
            { operationalMode := some "heat", targetTemperature := some 16 }).applyTo
              (Setpoint.fromState s))) .airConditioner = .ok payload ∧
      Restates (changeFrom (fun name => String.ofList (name.toList.map Char.toUpper))
        { operationalMode := some "heat", targetTemperature := some 16 }) s .cool .vertical
        payload := by
  obtain ⟨payload, hpayload, hrestates⟩ := @command_restates
    (fun name => String.ofList (name.toList.map Char.toUpper))
    [0xC0, 0x01, 0x58, 0x66, 0, 0, 0, 0x3C, 0x20, 0x10, 0x04, 0xFF, 0xFF, 0x0C, 0, 0, 0, 0, 0,
      0x2D, 0, 0x80] _ .cool .vertical
    { operationalMode := some "heat", targetTemperature := some 16 } rfl rfl rfl
    (by decide +kernel) 9
  exact ⟨_, payload, rfl, hpayload, hrestates⟩

end BreezeHttp
