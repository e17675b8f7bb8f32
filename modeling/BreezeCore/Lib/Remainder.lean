import Mathlib.Algebra.Polynomial.Div

/-!
# Remainders, one digit at a time

The remainder of a long polynomial by a monic one can be found digit by digit: what is left
so far is shifted up together with the next digit and reduced again.  `foldl_reduce` says
that the result is the remainder of the whole, as checksums compute it.
-/

namespace Remainder

open Polynomial

variable {R : Type*} [CommRing R]

/-- Digits of `k` coefficients each, the highest digit first. -/
noncomputable def ofDigits (k : ℕ) (digits : List R[X]) : R[X] :=
  digits.foldl (fun m d => m * X ^ k + d) 0

/-- The next digit is put on the remainder so far, and both are shifted up and reduced. -/
noncomputable def reduce (P : R[X]) (k : ℕ) (r d : R[X]) : R[X] := ((r + d) * X ^ k) %ₘ P

theorem ofDigits_concat (k : ℕ) (digits : List R[X]) (d : R[X]) :
    ofDigits k (digits ++ [d]) = ofDigits k digits * X ^ k + d := by
  rw [ofDigits, List.foldl_append]
  rfl

/-- A remainder can be taken before the next digit is put on. -/
theorem reduce_modByMonic {P : R[X]} (hP : P.Monic) (k : ℕ) (m d : R[X]) :
    reduce P k (m %ₘ P) d = reduce P k m d := by
  apply modByMonic_eq_of_dvd_sub hP
  have hdvd : P ∣ (m %ₘ P + d) - (m + d) := by
    rw [add_sub_add_right_eq_sub]
    exact dvd_modByMonic_sub m P
  rw [← sub_mul]
  exact hdvd.mul_right _

/-- **Digit by digit.**  The remainders of a message's digits end in the remainder of the
message, shifted up by one digit. -/
theorem foldl_reduce {P : R[X]} (hP : P.Monic) (k : ℕ) (digits : List R[X]) :
    digits.foldl (reduce P k) 0 = (ofDigits k digits * X ^ k) %ₘ P := by
  induction digits using List.reverseRecOn with
  | nil => rw [ofDigits, List.foldl_nil, List.foldl_nil, zero_mul, zero_modByMonic]
  | append_singleton digits d ih =>
      rw [List.foldl_append, ih, List.foldl_cons, List.foldl_nil, reduce_modByMonic hP,
        ofDigits_concat, reduce]

end Remainder
