import BreezeCore.Lib.Bytes
import BreezeCore.Proto.Types

/-!
# Decoding a unit's state report

The layout is a bit-field salad and the temperature encoding has three separate
paths.  Two facts about the decoder are used later: it never reads outside the
length it has checked (`State.returns_parse`), and the setpoint it reports is
one a command can restate (`State.parse_restatable`).
-/

namespace Ac

open Fallible Bytes

/-- A `0xC0` state report.  Fields are optional where the protocol has an absent
value. -/
structure State where
  powerOn : Bool
  targetTemperature : ℚ
  mode : Option Mode
  modeRaw : UInt8
  fanSpeed : FanSpeed
  swingMode : Option SwingMode
  swingRaw : UInt8
  turbo : Bool
  eco : Bool
  sleep : Bool
  fahrenheit : Bool
  indoorTemperature : Option ℚ
  outdoorTemperature : Option ℚ
  filterAlert : Bool
  displayOn : Bool
  auxHeat : Bool
  independentAuxHeat : Bool
  followMe : Bool
  purifier : Bool
  errorCode : UInt8
  targetHumidity : Option UInt8
  freezeProtection : Option Bool
  deriving DecidableEq, Repr

inductive ResponseError where
  /-- Not enough bytes to read the mandatory fields. -/
  | tooShort (length : Nat)
  /-- First byte was not 0xC0, so this is some other report. -/
  | notAStateReport (kind : UInt8)
  deriving DecidableEq, Repr

/-- The shortest report every mandatory field can be read from. -/
def MIN_LEN : Nat := 17

/-- Decode a temperature byte, folding in the extra precision nibble.  `0xFF`
means there is no sensor. -/
def parseTemperature (data : UInt8) (decimals : ℚ) (fahrenheit : Bool) : Option ℚ :=
  if data = 0xFF then none
  else
    let temperature : ℚ := ((data.toNat : ℚ) - 50) / 2
    let whole : ℚ := trunc temperature
    if ¬ fahrenheit ∧ decimals ≠ 0 then
      -- The nibble supplies the fraction and the half-degree bit is ignored.
      some (if 0 ≤ temperature then whole + decimals else whole - decimals)
    else if 1 / 2 ≤ decimals then
      some (if 0 ≤ temperature then whole + 1 / 2 else whole - 1 / 2)
    else some temperature

/-- Parse the payload of a framed `0xC0` report. -/
def State.parse (p : Octets) : Exec ResponseError State :=
  if p.length < MIN_LEN then fail (.tooShort p.length)
  else do
    let p0 ← index p 0
    if p0 ≠ 0xC0 then fail (.notAStateReport p0)
    else do
      let p1 ← index p 1
      let p2 ← index p 2
      let p3 ← index p 3
      let p7 ← index p 7
      let p8 ← index p 8
      let p9 ← index p 9
      let p10 ← index p 10
      let p11 ← index p 11
      let p12 ← index p 12
      let p13 ← index p 13
      let p14 ← index p 14
      let p15 ← index p 15
      let p16 ← index p 16
      let halfDegree := (p2 &&& 0x10) != 0
      let modeRaw := (p2 >>> 5) &&& 0x7
      let swingRaw := p7 &&& 0xF
      let fahrenheit := (p10 &&& 0x04) != 0
      -- Low nibble for indoor, high nibble for outdoor, in tenths.
      let indoorDecimals : ℚ := ((p15 &&& 0xF).toNat : ℚ) / 10
      let outdoorDecimals : ℚ := ((p15 >>> 4).toNat : ℚ) / 10
      -- Some firmware reports the setpoint again in byte 13; then that one wins.
      let alt := p13 &&& 0x1F
      let targetTemperature : ℚ :=
        if alt ≠ 0 then (alt.toNat : ℚ) + 12 + half halfDegree
        else ((p2 &&& 0xF).toNat : ℚ) + 16 + half halfDegree
      pure {
        powerOn := (p1 &&& 0x1) != 0
        targetTemperature := targetTemperature
        mode := Mode.fromWire modeRaw
        modeRaw := modeRaw
        fanSpeed := ⟨p3 &&& 0x7F⟩
        swingMode := SwingMode.fromWire swingRaw
        swingRaw := swingRaw
        turbo := (p8 &&& 0x20) != 0 || (p10 &&& 0x02) != 0
        eco := (p9 &&& 0x10) != 0
        sleep := (p10 &&& 0x1) != 0
        fahrenheit := fahrenheit
        indoorTemperature := parseTemperature p11 indoorDecimals fahrenheit
        outdoorTemperature := parseTemperature p12 outdoorDecimals fahrenheit
        filterAlert := (p13 &&& 0x20) != 0
        displayOn := p14 != 0x70
        auxHeat := (p9 &&& 0x08) != 0
        independentAuxHeat := (p8 &&& 0x40) != 0
        followMe := (p8 &&& 0x80) != 0
        purifier := (p9 &&& 0x20) != 0
        errorCode := p16
        targetHumidity := p[19]?.map fun b => b &&& 0x7F
        freezeProtection := p[21]?.map fun b => (b &&& 0x80) != 0 }

/-- **The decoder is total.**  Every byte it reads is inside the length it has
checked. -/
theorem State.returns_parse (p : Octets) : Returns (State.parse p) := by
  unfold State.parse
  split
  next => trivial
  next hlen =>
    have hmin : 17 ≤ p.length := Nat.le_of_not_lt hlen
    rw [index_eq (by omega), ok_bind]
    split
    next => trivial
    next =>
      simp only [index_eq (show 1 < p.length by omega), index_eq (show 2 < p.length by omega),
        index_eq (show 3 < p.length by omega), index_eq (show 7 < p.length by omega),
        index_eq (show 8 < p.length by omega), index_eq (show 9 < p.length by omega),
        index_eq (show 10 < p.length by omega), index_eq (show 11 < p.length by omega),
        index_eq (show 12 < p.length by omega), index_eq (show 13 < p.length by omega),
        index_eq (show 14 < p.length by omega), index_eq (show 15 < p.length by omega),
        index_eq (show 16 < p.length by omega), ok_bind, returns_pure]

/-- The setpoint of a report, from the nibble or from the alternative field. -/
private theorem setpoint_restatable (p2 p13 : UInt8) :
    ∃ (n : Nat) (b : Bool), 13 ≤ n ∧ n ≤ 43 ∧
      (if p13 &&& 0x1F ≠ 0 then ((p13 &&& 0x1F).toNat : ℚ) + 12 + half ((p2 &&& 0x10) != 0)
        else ((p2 &&& 0xF).toNat : ℚ) + 16 + half ((p2 &&& 0x10) != 0)) = (n : ℚ) + half b := by
  by_cases halt : p13 &&& 0x1F = 0
  · have hnibble : (p2 &&& 0xF).toNat ≤ 15 := by
      rw [UInt8.toNat_and]
      exact Nat.and_le_right
    refine ⟨(p2 &&& 0xF).toNat + 16, (p2 &&& 0x10) != 0, by omega, by omega, ?_⟩
    rw [if_neg (not_not_intro halt)]
    push_cast
    rfl
  · have hfive : (p13 &&& 0x1F).toNat ≤ 31 := by
      rw [UInt8.toNat_and]
      exact Nat.and_le_right
    have hpos : (p13 &&& 0x1F).toNat ≠ 0 := fun hzero =>
      halt (UInt8.toNat_inj.mp (by simpa using hzero))
    refine ⟨(p13 &&& 0x1F).toNat + 12, (p2 &&& 0x10) != 0, by omega, by omega, ?_⟩
    rw [if_pos halt]
    push_cast
    rfl

/-- What a control command has to be able to restate: the setpoint of any
report the decoder accepts is a whole or half degree from 13 to 43.5, and a
humidity it carries has seven bits. -/
theorem State.parse_restatable {p : Octets} {s : State} (h : State.parse p = .ok s) :
    (∃ (n : Nat) (b : Bool), 13 ≤ n ∧ n ≤ 43 ∧ s.targetTemperature = (n : ℚ) + half b) ∧
      ∀ humidity, s.targetHumidity = some humidity → humidity &&& 0x7F = humidity := by
  unfold State.parse at h
  split at h
  next => simp [fail] at h
  next hlen =>
    obtain ⟨p0, -, h⟩ := bind_eq_ok h
    split at h
    next => simp [fail] at h
    next =>
      obtain ⟨p1, -, h⟩ := bind_eq_ok h
      obtain ⟨p2, -, h⟩ := bind_eq_ok h
      obtain ⟨p3, -, h⟩ := bind_eq_ok h
      obtain ⟨p7, -, h⟩ := bind_eq_ok h
      obtain ⟨p8, -, h⟩ := bind_eq_ok h
      obtain ⟨p9, -, h⟩ := bind_eq_ok h
      obtain ⟨p10, -, h⟩ := bind_eq_ok h
      obtain ⟨p11, -, h⟩ := bind_eq_ok h
      obtain ⟨p12, -, h⟩ := bind_eq_ok h
      obtain ⟨p13, -, h⟩ := bind_eq_ok h
      obtain ⟨p14, -, h⟩ := bind_eq_ok h
      obtain ⟨p15, -, h⟩ := bind_eq_ok h
      obtain ⟨p16, -, h⟩ := bind_eq_ok h
      obtain rfl := Except.ok.inj h
      refine ⟨?_, ?_⟩
      · exact setpoint_restatable p2 p13
      · intro humidity hhumidity
        obtain ⟨b, -, rfl⟩ := Option.map_eq_some_iff.mp hhumidity
        rw [UInt8.and_assoc, UInt8.and_self]

end Ac
