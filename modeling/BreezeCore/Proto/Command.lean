import BreezeCore.Proto.Crc8
import BreezeCore.Proto.Frame
import BreezeCore.Proto.Response

/-!
# Commands sent to an air conditioner

A command is a payload, a rolling message id and a CRC, wrapped in a frame.  A
unit has no notion of "change only the fan speed": a control command restates
the whole configuration, so it starts from what the unit reports
(`Setpoint.fromState`).

`parse_finish` is what a unit sees of a command.  `readBack` is the layout of a
control command read in the other direction, and `readBack_setState` says that
every setting of a setpoint arrives.
-/

namespace Ac

open Fallible Bytes Frame

/-- Marks a command as coming from an app rather than the unit's own remote. -/
def CONTROL_SOURCE : UInt8 := 0x02

/-- Append the message id and CRC, then frame it. -/
def finish (frameType : FrameType) (payload : Octets) (messageId : UInt8) : Octets :=
  let body := payload ++ [messageId]
  let crc := Crc8.calculate body
  build .airConditioner frameType (body ++ [crc])

/-- Query basic state.  The payload is mostly fixed bytes, reproduced exactly
because the units expect them. -/
def getState (messageId : UInt8) (temperature : TemperatureType) : Octets :=
  finish .query [0x41, 0x81, 0x00, 0xFF, 0x03, 0xFF, 0x00, temperature.wire, 0x00, 0x00, 0x00,
    0x00, 0x00, 0x00, 0x00, 0x00, 0x00, 0x00, 0x00, 0x00, 0x03] messageId

/-- Query what the unit supports. -/
def getCapabilities (messageId : UInt8) : Octets :=
  finish .query [0xB5, 0x01, 0x00] messageId

/-- The second half of the capability set. -/
def getMoreCapabilities (messageId : UInt8) : Octets :=
  finish .query [0xB5, 0x01, 0x01, 0x01] messageId

/-- Everything a set-state command carries. -/
structure Setpoint where
  powerOn : Bool
  mode : Mode
  targetTemperature : ℚ
  fanSpeed : FanSpeed
  swingMode : SwingMode
  eco : Bool
  turbo : Bool
  sleep : Bool
  fahrenheit : Bool
  purifier : Bool
  auxHeat : Bool
  independentAuxHeat : Bool
  followMe : Bool
  freezeProtection : Bool
  targetHumidity : UInt8
  /-- Whether the unit chirps on accepting this. -/
  beep : Bool
  deriving DecidableEq, Repr

/-- Start from what the unit currently reports.  Values the unit reported as
unrecognised fall back to something safe. -/
def Setpoint.fromState (state : State) : Setpoint where
  powerOn := state.powerOn
  mode := state.mode.getD .auto
  targetTemperature := state.targetTemperature
  fanSpeed := state.fanSpeed
  swingMode := state.swingMode.getD .off
  eco := state.eco
  turbo := state.turbo
  sleep := state.sleep
  fahrenheit := state.fahrenheit
  purifier := state.purifier
  auxHeat := state.auxHeat
  independentAuxHeat := state.independentAuxHeat
  followMe := state.followMe
  freezeProtection := state.freezeProtection.getD false
  targetHumidity := state.targetHumidity.getD 40
  beep := false

/-- The two temperature fields for a whole part and a half-degree bit: 17 to 30
in a nibble biased by 16, anything else biased by 12 in a field of its own.  The
half-degree bit is separate and applies either way. -/
def packTemperature (integral : Int) (hasHalf : Bool) : UInt8 × UInt8 :=
  let (primary, alternate) : UInt8 × UInt8 :=
    if 17 ≤ integral ∧ integral ≤ 30 then (UInt8.ofInt (integral - 16) &&& 0xF, 0)
    else (0, UInt8.ofInt (integral - 12) &&& 0x1F)
  (if hasHalf then primary ||| 0x10 else primary, alternate)

/-- Split the setpoint into the two temperature fields the protocol uses. -/
def Setpoint.temperatureBytes (s : Setpoint) : UInt8 × UInt8 :=
  let integral := asI32 s.targetTemperature
  packTemperature integral (0 < s.targetTemperature - integral)

/-- `if b { v } else { 0 }`. -/
def flag (b : Bool) (v : UInt8) : UInt8 := if b then v else 0

/-- The 24 bytes of a control command in front of its message id. -/
def setStatePayload (s : Setpoint) : Octets :=
  let (temperature, temperatureAlt) := s.temperatureBytes
  [ 0x40,
    CONTROL_SOURCE ||| flag s.beep 0x40 ||| flag s.powerOn 0x01,
    -- Setpoint and mode share a byte.
    temperature ||| ((s.mode.wire &&& 0x7) <<< 5),
    s.fanSpeed.raw,
    0x7F, 0x7F, 0x00,
    0x30 ||| (s.swingMode.wire &&& 0x3F),
    flag s.followMe 0x80 ||| flag s.turbo 0x20,
    flag s.eco 0x80 ||| flag s.purifier 0x20 ||| flag s.auxHeat 0x08,
    flag s.sleep 0x01 ||| flag s.turbo 0x02 ||| flag s.fahrenheit 0x04,
    0x00, 0x00, 0x00, 0x00, 0x00, 0x00, 0x00,
    temperatureAlt,
    s.targetHumidity &&& 0x7F,
    0x00,
    flag s.freezeProtection 0x80,
    flag s.independentAuxHeat 0x08,
    0x00 ]

/-- Build a control command from a complete setpoint. -/
def setState (messageId : UInt8) (s : Setpoint) : Octets :=
  finish .control (setStatePayload s) messageId

@[simp] theorem setStatePayload_length (s : Setpoint) : (setStatePayload s).length = 24 := rfl

/-- **What a unit sees of a command**: the payload, the message id and the CRC. -/
theorem parse_finish (frameType : FrameType) {payload : Octets} (messageId : UInt8)
    (hlen : payload.length ≤ 243) :
    parse (finish frameType payload messageId) .airConditioner =
      .ok (payload ++ [messageId] ++ [Crc8.calculate (payload ++ [messageId])]) := by
  refine (parse_build .airConditioner frameType ?_).1
  simp only [List.length_append, List.length_singleton]
  omega

/-! ## The layout of a control command, read back -/

/-- The settings in a control command. -/
structure Settings where
  powerOn : Bool
  mode : Option Mode
  targetTemperature : ℚ
  fanSpeed : FanSpeed
  swingMode : Option SwingMode
  eco : Bool
  /-- Turbo travels twice; both bits are kept. -/
  turbo : Bool × Bool
  sleep : Bool
  fahrenheit : Bool
  purifier : Bool
  auxHeat : Bool
  independentAuxHeat : Bool
  followMe : Bool
  freezeProtection : Bool
  targetHumidity : UInt8
  deriving DecidableEq, Repr

/-- Byte `i` of a payload. -/
def byteAt (p : Octets) (i : Nat) : UInt8 := p.getD i 0

/-- The whole degrees in the low nibble of byte 2, or in byte 18. -/
def readWhole (temperature alternate : UInt8) : Nat :=
  let primary := temperature &&& 0xF
  if primary ≠ 0 then primary.toNat + 16 else (alternate &&& 0x1F).toNat + 12

/-- The setpoint in the low five bits of byte 2 and in byte 18. -/
def readTemperature (temperature alternate : UInt8) : ℚ :=
  (readWhole temperature alternate : ℚ) + half ((temperature &&& 0x10) != 0)

/-- Read a control command the way a unit adopts it. -/
def readBack (p : Octets) : Settings where
  powerOn := (byteAt p 1 &&& 0x01) != 0
  mode := Mode.fromWire ((byteAt p 2 >>> 5) &&& 0x7)
  targetTemperature := readTemperature (byteAt p 2) (byteAt p 18)
  fanSpeed := ⟨byteAt p 3⟩
  swingMode := SwingMode.fromWire (byteAt p 7 &&& 0xF)
  eco := (byteAt p 9 &&& 0x80) != 0
  turbo := ((byteAt p 8 &&& 0x20) != 0, (byteAt p 10 &&& 0x02) != 0)
  sleep := (byteAt p 10 &&& 0x01) != 0
  fahrenheit := (byteAt p 10 &&& 0x04) != 0
  purifier := (byteAt p 9 &&& 0x20) != 0
  auxHeat := (byteAt p 9 &&& 0x08) != 0
  independentAuxHeat := (byteAt p 22 &&& 0x08) != 0
  followMe := (byteAt p 8 &&& 0x80) != 0
  freezeProtection := (byteAt p 21 &&& 0x80) != 0
  targetHumidity := byteAt p 19 &&& 0x7F

/-- The settings a setpoint asks for. -/
def Setpoint.settings (s : Setpoint) : Settings where
  powerOn := s.powerOn
  mode := some s.mode
  targetTemperature := s.targetTemperature
  fanSpeed := s.fanSpeed
  swingMode := some s.swingMode
  eco := s.eco
  turbo := (s.turbo, s.turbo)
  sleep := s.sleep
  fahrenheit := s.fahrenheit
  purifier := s.purifier
  auxHeat := s.auxHeat
  independentAuxHeat := s.independentAuxHeat
  followMe := s.followMe
  freezeProtection := s.freezeProtection
  targetHumidity := s.targetHumidity &&& 0x7F

/-- Byte 2 and byte 18 hold mode, whole degrees and half degree apart, for every
setpoint a report can carry. -/
private theorem packTemperature_readBack :
    ∀ n : Fin 44, 13 ≤ n.val → ∀ (b : Bool) (mode : Mode),
      let packed := packTemperature (n.val : Int) b
      let byte := packed.1 ||| ((mode.wire &&& 0x7) <<< 5)
      Mode.fromWire ((byte >>> 5) &&& 0x7) = some mode ∧ readWhole byte packed.2 = n.val ∧
        ((byte &&& 0x10) != 0) = b := by
  have hall : ∀ n : Fin 44, 13 ≤ n.val → ∀ b : Bool,
      ∀ mode ∈ [Mode.auto, .cool, .dry, .heat, .fanOnly],
        let packed := packTemperature (n.val : Int) b
        let byte := packed.1 ||| ((mode.wire &&& 0x7) <<< 5)
        Mode.fromWire ((byte >>> 5) &&& 0x7) = some mode ∧ readWhole byte packed.2 = n.val ∧
          ((byte &&& 0x10) != 0) = b := by decide +kernel
  intro n hn b mode
  exact hall n hn b mode (by cases mode <;> simp)

/-- The temperature fields of a whole or half degree. -/
private theorem temperatureBytes_eq {s : Setpoint} {n : Nat} {b : Bool} (hn : n ≤ 43)
    (hs : s.targetTemperature = (n : ℚ) + half b) :
    s.temperatureBytes = packTemperature n b := by
  have hwhole : asI32 s.targetTemperature = n := by
    rw [hs]
    exact asI32_add_half (by omega) b
  have hhalf : decide (0 < s.targetTemperature - ((n : Int) : ℚ)) = b := by
    rw [hs]
    cases b <;> simp [half]
  simp only [Setpoint.temperatureBytes, hwhole, hhalf]

/-- Bits that do not overlap are read back one by one. -/
private theorem flags_readBack :
    ∀ a b c : Bool,
      (((CONTROL_SOURCE ||| flag a 0x40 ||| flag b 0x01) &&& 0x01) != 0) = b ∧
      (((flag a 0x80 ||| flag b 0x20) &&& 0x80) != 0) = a ∧
      (((flag a 0x80 ||| flag b 0x20) &&& 0x20) != 0) = b ∧
      (((flag a 0x80 ||| flag b 0x20 ||| flag c 0x08) &&& 0x80) != 0) = a ∧
      (((flag a 0x80 ||| flag b 0x20 ||| flag c 0x08) &&& 0x20) != 0) = b ∧
      (((flag a 0x80 ||| flag b 0x20 ||| flag c 0x08) &&& 0x08) != 0) = c ∧
      (((flag a 0x01 ||| flag b 0x02 ||| flag c 0x04) &&& 0x01) != 0) = a ∧
      (((flag a 0x01 ||| flag b 0x02 ||| flag c 0x04) &&& 0x02) != 0) = b ∧
      (((flag a 0x01 ||| flag b 0x02 ||| flag c 0x04) &&& 0x04) != 0) = c ∧
      ((flag a 0x80 &&& 0x80) != 0) = a ∧ ((flag a 0x08 &&& 0x08) != 0) = a := by
  decide

private theorem swing_readBack (m : SwingMode) :
    SwingMode.fromWire ((0x30 ||| (m.wire &&& 0x3F)) &&& 0xF) = some m := by
  cases m <;> rfl

/-- **Every setting arrives.**  For a setpoint on a whole or half degree from 13
to 43.5, reading the payload of the command by its layout gives the setpoint. -/
theorem readBack_setState {s : Setpoint} {n : Nat} {b : Bool} (hlow : 13 ≤ n) (hhigh : n ≤ 43)
    (hs : s.targetTemperature = (n : ℚ) + half b) (rest : Octets) :
    readBack (setStatePayload s ++ rest) = s.settings := by
  obtain ⟨hmode, hwhole, hhalf⟩ := packTemperature_readBack ⟨n, by omega⟩ hlow b s.mode
  dsimp only at hmode hwhole hhalf
  have htemp : readTemperature
      ((packTemperature n b).1 ||| ((s.mode.wire &&& 0x7) <<< 5)) (packTemperature n b).2 =
        s.targetTemperature := by
    rw [readTemperature, hwhole, hhalf, hs]
  have hhumidity : (s.targetHumidity &&& 0x7F) &&& 0x7F = s.targetHumidity &&& 0x7F := by
    rw [UInt8.and_assoc, UInt8.and_self]
  obtain ⟨hpower, -⟩ := flags_readBack s.beep s.powerOn false
  obtain ⟨-, hfollow, hturbo8, -⟩ := flags_readBack s.followMe s.turbo false
  obtain ⟨-, -, -, heco, hpurifier, haux, -⟩ := flags_readBack s.eco s.purifier s.auxHeat
  obtain ⟨-, -, -, -, -, -, hsleep, hturbo10, hfahrenheit, -⟩ :=
    flags_readBack s.sleep s.turbo s.fahrenheit
  obtain ⟨-, -, -, -, -, -, -, -, -, hfreeze, -⟩ := flags_readBack s.freezeProtection false false
  obtain ⟨-, -, -, -, -, -, -, -, -, -, hindependent⟩ :=
    flags_readBack s.independentAuxHeat false false
  simp only [readBack, byteAt, setStatePayload, temperatureBytes_eq hhigh hs, List.cons_append,
    List.getD_cons_succ, List.getD_cons_zero, hmode, htemp, swing_readBack, hpower, hfollow,
    hturbo8, heco, hpurifier, haux, hsleep, hturbo10, hfahrenheit, hfreeze, hindependent,
    hhumidity, Setpoint.settings]

end Ac
