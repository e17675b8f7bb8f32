import Mathlib.Algebra.Order.Floor.Ring
import Mathlib.Order.Monotone.Basic
import Mathlib.Tactic.FieldSimp
import Mathlib.Tactic.Linarith
import Mathlib.Tactic.Positivity
import Mathlib.Tactic.Ring

/-!
# Rounding among evenly spaced numbers

Between two powers of its base the numbers of a floating format are evenly spaced.  `Rounds`
says what is known of a rounding there: it keeps the order, it leaves the multiples of one
tick alone as far as they are numbers of the format, and beyond a bound it yields no others.
A comparison of a rounded value with a multiple then comes out as it would have unrounded
(`Rounds.abs_le_iff`).

`nearestTick` is such a rounding (`rounds_nearestTick`).
-/

namespace Grid

variable {K : Type} [Field K] [LinearOrder K] [IsStrictOrderedRing K]

/-- A multiple of one tick, of which a unit has so many. -/
def Tick (ticks : ℕ) (x : K) : Prop := ∃ k : ℤ, x = k / ticks

/-- A rounding for which the multiples of a tick are numbers up to `high`, and from `low` on
there are no others. -/
structure Rounds (rnd : K → K) (ticks : ℕ) (low high : K) : Prop where
  pos : 0 < ticks
  mono : Monotone rnd
  exact : ∀ x, Tick ticks x → |x| ≤ high → rnd x = x
  grid : ∀ x, low ≤ rnd x → Tick ticks (rnd x)

/-! ## Multiples -/

section

variable {ticks : ℕ} {x y : K}

omit [LinearOrder K] [IsStrictOrderedRing K] in
theorem Tick.sub (hx : Tick ticks x) (hy : Tick ticks y) : Tick ticks (x - y) := by
  obtain ⟨k, rfl⟩ := hx
  obtain ⟨l, rfl⟩ := hy
  exact ⟨k - l, by push_cast; ring⟩

omit [LinearOrder K] [IsStrictOrderedRing K] in
theorem Tick.neg (hx : Tick ticks x) : Tick ticks (-x) := by
  obtain ⟨k, rfl⟩ := hx
  exact ⟨-k, by push_cast; ring⟩

omit [LinearOrder K] [IsStrictOrderedRing K] in
theorem Tick.add (hx : Tick ticks x) (hy : Tick ticks y) : Tick ticks (x + y) := by
  obtain ⟨k, rfl⟩ := hx
  obtain ⟨l, rfl⟩ := hy
  exact ⟨k + l, by push_cast; ring⟩

omit [LinearOrder K] [IsStrictOrderedRing K] in
theorem tick_one_div (ticks : ℕ) : Tick ticks (1 / ticks : K) := ⟨1, by rw [Int.cast_one]⟩

/-- A whole number of units is one of ticks. -/
theorem tick_intCast (h : 0 < ticks) (n : ℤ) : Tick ticks (n : K) := by
  have hne : (ticks : K) ≠ 0 := Nat.cast_ne_zero.mpr h.ne'
  refine ⟨n * ticks, ?_⟩
  push_cast
  field_simp

theorem tick_natCast (h : 0 < ticks) (n : ℕ) : Tick ticks (n : K) := by
  have hcast : Tick ticks ((n : ℤ) : K) := tick_intCast h n
  rwa [Int.cast_natCast] at hcast

/-- Between two multiples there is a tick at least. -/
theorem Tick.next_le (h : 0 < ticks) (hx : Tick ticks x) (hy : Tick ticks y) (hlt : x < y) :
    x + 1 / ticks ≤ y := by
  obtain ⟨k, rfl⟩ := hx
  obtain ⟨l, rfl⟩ := hy
  have hpos : (0 : K) < ticks := Nat.cast_pos.mpr h
  have hkl : (k : K) < l := (div_lt_div_iff_of_pos_right hpos).mp hlt
  have hstep : ((k + 1 : ℤ) : K) ≤ l := Int.cast_le.mpr (Int.cast_lt.mp hkl)
  have hsum : (k : K) / ticks + 1 / ticks = ((k + 1 : ℤ) : K) / ticks := by
    push_cast
    ring
  rw [hsum]
  exact (div_le_div_iff_of_pos_right hpos).mpr hstep

theorem one_div_le (h : 0 < ticks) : (1 / ticks : K) ≤ 1 := by
  have hone : (1 : K) ≤ ticks := Nat.one_le_cast.mpr h
  exact (div_le_one (by linarith)).mpr hone

end

/-! ## Comparisons -/

namespace Rounds

variable {rnd : K → K} {ticks : ℕ} {low high x : K}

theorem natCast (h : Rounds rnd ticks low high) {n : ℕ} (hn : (n : K) ≤ high) :
    rnd (n : K) = n :=
  h.exact _ (tick_natCast h.pos n) (by rwa [abs_of_nonneg n.cast_nonneg])

/-- What is rounded to no more than a whole number is no more. -/
theorem le_natCast (h : Rounds rnd ticks low high) (hx : Tick ticks x) {n : ℕ}
    (hn : (n : K) + 1 ≤ high) (hle : rnd x ≤ n) : x ≤ n := by
  by_contra hgt
  have hnext := (tick_natCast h.pos n).next_le h.pos hx (not_le.mp hgt)
  have hone : (1 / ticks : K) ≤ 1 := one_div_le h.pos
  have hpos : (0 : K) < 1 / ticks := one_div_pos.mpr (Nat.cast_pos.mpr h.pos)
  have hn0 : (0 : K) ≤ n := n.cast_nonneg
  have hexact : rnd ((n : K) + 1 / ticks) = n + 1 / ticks := by
    refine h.exact _ ((tick_natCast h.pos n).add (tick_one_div ticks)) ?_
    rw [abs_of_nonneg (by linarith)]
    linarith
  have hmono := h.mono hnext
  rw [hexact] at hmono
  linarith

/-- And what is rounded to no less than its opposite is no less. -/
theorem neg_natCast_le (h : Rounds rnd ticks low high) (hx : Tick ticks x) {n : ℕ}
    (hn : (n : K) + 1 ≤ high) (hle : -(n : K) ≤ rnd x) : -(n : K) ≤ x := by
  by_contra hlt
  have hneg : Tick ticks (-(n : K)) := (tick_natCast h.pos n).neg
  have hnext := hx.next_le h.pos hneg (not_le.mp hlt)
  have hone : (1 / ticks : K) ≤ 1 := one_div_le h.pos
  have hpos : (0 : K) < 1 / ticks := one_div_pos.mpr (Nat.cast_pos.mpr h.pos)
  have hn0 : (0 : K) ≤ n := n.cast_nonneg
  have hexact : rnd (-(n : K) - 1 / ticks) = -n - 1 / ticks := by
    refine h.exact _ (hneg.sub (tick_one_div ticks)) ?_
    rw [abs_of_nonpos (by linarith)]
    linarith
  have hmono := h.mono (show x ≤ -(n : K) - 1 / ticks by linarith)
  rw [hexact] at hmono
  linarith

/-- **A rounded distance is compared as the distance itself.** -/
theorem abs_le_iff (h : Rounds rnd ticks low high) (hx : Tick ticks x) {n : ℕ}
    (hn : (n : K) + 1 ≤ high) : |rnd x| ≤ n ↔ |x| ≤ n := by
  constructor
  · intro hle
    obtain ⟨hlow, hhigh⟩ := abs_le.mp hle
    exact abs_le.mpr ⟨h.neg_natCast_le hx hn hlow, h.le_natCast hx hn hhigh⟩
  · intro hle
    rwa [h.exact x hx (by linarith)]

end Rounds

/-! ## One such rounding -/

/-- The multiple of a tick that is nearest. -/
def nearestTick [FloorRing K] (ticks : ℕ) (x : K) : K := ⌊x * ticks + 1 / 2⌋ / ticks

section

variable [FloorRing K] {ticks : ℕ}

theorem nearestTick_tick (h : 0 < ticks) {x : K} (hx : Tick ticks x) : nearestTick ticks x = x := by
  obtain ⟨k, rfl⟩ := hx
  have hne : (ticks : K) ≠ 0 := Nat.cast_ne_zero.mpr h.ne'
  have hfloor : ⌊(k : K) + 1 / 2⌋ = k := Int.floor_eq_iff.mpr ⟨by linarith, by linarith⟩
  unfold nearestTick
  rw [div_mul_cancel₀ _ hne, hfloor]

/-- Half a tick is the most that is added or dropped. -/
theorem abs_nearestTick_sub_le (h : 0 < ticks) (x : K) :
    |nearestTick ticks x - x| ≤ 1 / 2 / ticks := by
  have hpos : (0 : K) < ticks := Nat.cast_pos.mpr h
  have hlow := Int.lt_floor_add_one (x * ticks + 1 / 2)
  have hhigh := Int.floor_le (x * ticks + 1 / 2)
  have hsub : nearestTick ticks x - x = (⌊x * ticks + 1 / 2⌋ - x * ticks) / ticks := by
    unfold nearestTick
    field_simp
  rw [hsub, abs_div, abs_of_pos hpos]
  refine (div_le_div_iff_of_pos_right hpos).mpr (abs_le.mpr ⟨?_, ?_⟩)
  · linarith
  · linarith

theorem nearestTick_mono (h : 0 < ticks) : Monotone (nearestTick ticks : K → K) := by
  intro x y hle
  have hpos : (0 : K) < ticks := Nat.cast_pos.mpr h
  have hmul : x * ticks ≤ y * ticks := mul_le_mul_of_nonneg_right hle hpos.le
  have hfloor : ⌊x * ticks + 1 / 2⌋ ≤ ⌊y * ticks + 1 / 2⌋ := Int.floor_mono (by linarith)
  exact (div_le_div_iff_of_pos_right hpos).mpr (Int.cast_le.mpr hfloor)

theorem rounds_nearestTick (h : 0 < ticks) (low high : K) :
    Rounds (nearestTick ticks) ticks low high where
  pos := h
  mono := nearestTick_mono h
  exact := fun _ hx _ => nearestTick_tick h hx
  grid := fun _ _ => ⟨_, rfl⟩

end

end Grid
