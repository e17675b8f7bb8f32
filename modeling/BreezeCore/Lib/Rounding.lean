import Mathlib.Algebra.Order.Floor.Ring
import Mathlib.Algebra.Ring.Int.Parity
import Mathlib.Data.Int.Cast.Lemmas
import Mathlib.Tactic.Linarith

/-!
# The nearest whole number, ties to even

`IsNearest x k` says which whole number a value is rounded to.  There is one for every value
(`isNearest_of_lower`, `isNearest_floor`) and no other (`IsNearest.unique`), and a larger value
is not rounded to a smaller number (`IsNearest.mono`).
-/

namespace Rounding

variable {K : Type} [Field K] [LinearOrder K] [IsStrictOrderedRing K]

/-- No whole number is nearer, and where two are as near this is the even one. -/
structure IsNearest (x : K) (k : ℤ) : Prop where
  near : |x - k| ≤ 1 / 2
  even : |x - k| = 1 / 2 → Even k

variable {x y : K} {k l : ℤ}

theorem IsNearest.mono (hx : IsNearest x k) (hy : IsNearest y l) (h : x ≤ y) : k ≤ l := by
  by_contra hlt
  have hstep : l + 1 ≤ k := by omega
  have hcast : (l : K) + 1 ≤ k := by exact_mod_cast hstep
  obtain ⟨-, hxhigh⟩ := abs_le.mp hx.near
  obtain ⟨hxlow, -⟩ := abs_le.mp hx.near
  obtain ⟨-, hyhigh⟩ := abs_le.mp hy.near
  -- both values stand in the middle between two numbers that follow each other
  have hxmid : x - k = -(1 / 2) := by linarith
  have hymid : y - l = 1 / 2 := by linarith
  have hnext : (k : K) = ((l + 1 : ℤ) : K) := by
    push_cast
    linarith
  obtain rfl : k = l + 1 := by exact_mod_cast hnext
  have hk := hx.even (by rw [hxmid, abs_neg, abs_of_pos (by norm_num)])
  have hl := hy.even (by rw [hymid, abs_of_pos (by norm_num)])
  exact (Int.even_add_one.mp hk) hl

theorem IsNearest.unique (hk : IsNearest x k) (hl : IsNearest x l) : k = l :=
  le_antisymm (hk.mono hl le_rfl) (hl.mono hk le_rfl)

theorem isNearest_intCast (k : ℤ) : IsNearest (k : K) k := by
  refine ⟨by rw [sub_self, abs_zero]; norm_num, fun h => ?_⟩
  rw [sub_self, abs_zero] at h
  norm_num at h

/-- A bound that is a whole number bounds the rounded value too. -/
theorem IsNearest.le_of_le (h : IsNearest x k) (hx : x ≤ (l : K)) : k ≤ l :=
  h.mono (isNearest_intCast l) hx

theorem IsNearest.le_of_ge (h : IsNearest x k) (hx : (l : K) ≤ x) : l ≤ k :=
  (isNearest_intCast l).mono h hx

omit [IsStrictOrderedRing K] in
/-- What is nearer than half a unit is nearest. -/
theorem isNearest_of_lt (h : |x - k| < 1 / 2) : IsNearest x k :=
  ⟨h.le, fun heq => absurd heq h.ne⟩

variable [FloorRing K]

theorem isNearest_of_lower (h : x - ⌊x⌋ = 1 / 2) :
    IsNearest x (if ⌊x⌋ % 2 = 0 then ⌊x⌋ else ⌊x⌋ + 1) := by
  split
  next heven =>
    exact ⟨by rw [h, abs_of_pos (by norm_num)], fun _ => Int.even_iff.mpr heven⟩
  next hodd =>
    have hside : x - ((⌊x⌋ + 1 : ℤ) : K) = -(1 / 2) := by
      push_cast
      linarith
    refine ⟨by rw [hside, abs_neg, abs_of_pos (by norm_num)], fun _ => ?_⟩
    exact Int.even_iff.mpr (by omega)

/-- Away from the middle it is enough to add one half and drop the rest. -/
theorem isNearest_floor (h : x - ⌊x⌋ ≠ 1 / 2) : IsNearest x ⌊x + 1 / 2⌋ := by
  have hlow := Int.floor_le x
  have hhigh := Int.lt_floor_add_one x
  rcases lt_or_gt_of_ne h with hless | hmore
  · have hfloor : ⌊x + 1 / 2⌋ = ⌊x⌋ := Int.floor_eq_iff.mpr ⟨by linarith, by linarith⟩
    rw [hfloor]
    exact isNearest_of_lt (abs_lt.mpr ⟨by linarith, hless⟩)
  · have hfloor : ⌊x + 1 / 2⌋ = ⌊x⌋ + 1 :=
      Int.floor_eq_iff.mpr ⟨by push_cast; linarith, by push_cast; linarith⟩
    rw [hfloor]
    refine isNearest_of_lt (abs_lt.mpr ⟨?_, ?_⟩) <;> push_cast <;> linarith

end Rounding
