import Mathlib.Data.Rat.Floor

/-!
# The wire enums for air conditioners

The values are the protocol's, and several are counter-intuitive: horizontal
swing is `0x3` and vertical is `0xC`.  A wire value no member has is no member
at all, and `fromWire_wire` says the others are read back.

Temperatures are rational numbers.  Every one that a control command can carry
is a whole or half degree, which the source's 32-bit floats hold exactly.
-/

namespace Ac

/-- Operating mode, as carried in the top three bits of state byte 2. -/
inductive Mode where
  | auto
  | cool
  | dry
  | heat
  | fanOnly
  deriving DecidableEq, Repr

/-- `mode as u8`. -/
def Mode.wire : Mode → UInt8
  | .auto => 1
  | .cool => 2
  | .dry => 3
  | .heat => 4
  | .fanOnly => 5

def Mode.fromWire (v : UInt8) : Option Mode :=
  if v = 1 then some .auto
  else if v = 2 then some .cool
  else if v = 3 then some .dry
  else if v = 4 then some .heat
  else if v = 5 then some .fanOnly
  else none

/-- The name the REST API uses. -/
def Mode.asStr : Mode → String
  | .auto => "AUTO"
  | .cool => "COOL"
  | .dry => "DRY"
  | .heat => "HEAT"
  | .fanOnly => "FAN_ONLY"

@[simp] theorem Mode.fromWire_wire (m : Mode) : Mode.fromWire m.wire = some m := by
  cases m <;> rfl

/-- Flap movement.  The values are not sequential. -/
inductive SwingMode where
  | off
  | horizontal
  | vertical
  | both
  deriving DecidableEq, Repr

/-- `swing as u8`. -/
def SwingMode.wire : SwingMode → UInt8
  | .off => 0x0
  | .horizontal => 0x3
  | .vertical => 0xC
  | .both => 0xF

def SwingMode.fromWire (v : UInt8) : Option SwingMode :=
  if v = 0x0 then some .off
  else if v = 0x3 then some .horizontal
  else if v = 0xC then some .vertical
  else if v = 0xF then some .both
  else none

def SwingMode.asStr : SwingMode → String
  | .off => "OFF"
  | .horizontal => "HORIZONTAL"
  | .vertical => "VERTICAL"
  | .both => "BOTH"

@[simp] theorem SwingMode.fromWire_wire (m : SwingMode) :
    SwingMode.fromWire m.wire = some m := by
  cases m <;> rfl

/-- Fan speed.  102 means "let the unit decide" and is not on the same scale as
the others. -/
structure FanSpeed where
  raw : UInt8
  deriving DecidableEq, Repr

def FanSpeed.AUTO : FanSpeed := ⟨102⟩

/-- Which sensor a state query should report. -/
inductive TemperatureType where
  | indoor
  | outdoor
  deriving DecidableEq, Repr

/-- `temperature as u8`. -/
def TemperatureType.wire : TemperatureType → UInt8
  | .indoor => 0x2
  | .outdoor => 0x3

/-! ## Whole parts -/

/-- `x.trunc()`: the whole part, towards zero. -/
def trunc (x : ℚ) : Int := if 0 ≤ x then ⌊x⌋ else ⌈x⌉

/-- `x as i32`: the whole part, clamped to 32 bits. -/
def asI32 (x : ℚ) : Int := max (-2147483648) (min 2147483647 (trunc x))

/-- Half a degree more, or not. -/
def half (b : Bool) : ℚ := if b then 1 / 2 else 0

theorem half_bounds (b : Bool) : 0 ≤ half b ∧ half b < 1 := by
  cases b <;> norm_num [half]

/-- The whole part of a whole or half degree. -/
theorem asI32_add_half {n : Nat} (hn : n ≤ 2147483647) (b : Bool) :
    asI32 ((n : ℚ) + half b) = n := by
  obtain ⟨hlow, hhigh⟩ := half_bounds b
  have hnonneg : (0 : ℚ) ≤ n := Nat.cast_nonneg n
  have hfloor : ⌊(n : ℚ) + half b⌋ = (n : Int) := by
    rw [Int.floor_eq_iff]
    push_cast
    constructor <;> linarith
  rw [asI32, trunc, if_pos (by linarith), hfloor]
  omega

end Ac
