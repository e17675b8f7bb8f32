import Mathlib
import BreezeCore.Lib.Remainder
import BreezeCore.Proto.Crc8

/-!
# The polynomial behind the CRC table

The table has a polynomial after all: `x^8 + x^5 + x^4 + 1`, with the lowest bit of a byte
as its highest coefficient.

* `lookup_eq_shift` — each entry is eight shifts of its index;
* `ofByte_shift` — a shift multiplies by `x` and reduces;
* `crc_divides` — so the CRC of a message is its remainder, and no change of one byte goes
  unseen.
-/

namespace Crc8

open Bytes Polynomial Remainder

/-- The low eight coefficients of the generator, as a byte. -/
def POLYNOMIAL : UInt8 := 0x8C

/-- One bit of the division: shift down, and subtract the generator where a bit falls out. -/
def shift (crc : UInt8) : UInt8 :=
  if crc.toNat.testBit 0 then (crc >>> 1) ^^^ POLYNOMIAL else crc >>> 1

/-- The division bit by bit, without a table. -/
def bitwise (data : Octets) : UInt8 := data.foldl (fun crc byte => shift^[8] (crc ^^^ byte)) 0

/-- **The table is generated**: an entry is what eight shifts make of its index. -/
theorem lookup_eq_shift (byte : UInt8) : lookup byte = shift^[8] byte := by
  have hall : ∀ n : Fin 256, lookup (UInt8.ofNat n) = shift^[8] (UInt8.ofNat n) := by
    decide +kernel
  have hbyte := hall ⟨byte.toNat, byte.toNat_lt⟩
  rwa [UInt8.ofNat_toNat] at hbyte

/-- The table gives what the bits do one by one. -/
theorem calculate_eq_bitwise (data : Octets) : calculate data = bitwise data := by
  unfold calculate bitwise
  simp only [lookup_eq_shift]

/-! ## Single bytes -/

/-- A shift taken back: the highest bit tells whether the generator was subtracted. -/
def unshift (crc : UInt8) : UInt8 :=
  if crc.toNat.testBit 7 then ((crc ^^^ POLYNOMIAL) <<< 1) ||| 1 else crc <<< 1

/-- A shift can be undone. -/
theorem unshift_shift (crc : UInt8) : unshift (shift crc) = crc := by
  have hall : ∀ n : Fin 256, unshift (shift (UInt8.ofNat n)) = UInt8.ofNat n := by
    decide +kernel
  have hcrc := hall ⟨crc.toNat, crc.toNat_lt⟩
  rwa [UInt8.ofNat_toNat] at hcrc

/-- Different values stay different when they are shifted with the feedback. -/
theorem shift_injective : Function.Injective shift :=
  Function.LeftInverse.injective unshift_shift

/-- The table is a permutation of the bytes. -/
theorem lookup_injective : Function.Injective lookup := by
  intro a b h
  rw [lookup_eq_shift, lookup_eq_shift] at h
  exact shift_injective.iterate 8 h

/-- Two registers that differ still differ after the same bytes. -/
theorem foldl_lookup_injective (data : Octets) :
    Function.Injective fun crc => data.foldl (fun crc byte => lookup (crc ^^^ byte)) crc := by
  induction data with
  | nil => exact Function.injective_id
  | cons byte data ih =>
      intro a b h
      have hstep : lookup (a ^^^ byte) = lookup (b ^^^ byte) := ih h
      exact UInt8.xor_left_inj byte |>.mp (lookup_injective hstep)

/-- **One byte changed** changes the CRC. -/
theorem calculate_ne {a b : UInt8} (h : a ≠ b) (front back : Octets) :
    calculate (front ++ a :: back) ≠ calculate (front ++ b :: back) := by
  intro heq
  unfold calculate at heq
  rw [List.foldl_append, List.foldl_append, List.foldl_cons, List.foldl_cons] at heq
  have hregister := lookup_injective (foldl_lookup_injective back heq)
  exact h (UInt8.xor_right_inj _ |>.mp hregister)

/-! ## Bytes as polynomials -/

/-- The polynomial of a byte, its lowest bit the coefficient of `x^7`. -/
noncomputable def ofByte (byte : UInt8) : (ZMod 2)[X] :=
  ∑ i ∈ Finset.range 8, if byte.toNat.testBit i then X ^ (7 - i) else 0

/-- The generator. -/
noncomputable def generator : (ZMod 2)[X] := X ^ 8 + X ^ 5 + X ^ 4 + 1

/-- The polynomial of a message, byte by byte. -/
noncomputable def message (data : Octets) : (ZMod 2)[X] := ofDigits 8 (data.map ofByte)

/-- The generator begins with one. -/
theorem generator_monic : generator.Monic := by
  unfold generator
  monicity!

/-- The generator has degree eight. -/
theorem generator_degree : generator.degree = 8 := by
  unfold generator
  compute_degree!

/-- Zero is the zero polynomial. -/
theorem ofByte_zero : ofByte 0 = 0 := by
  apply Finset.sum_eq_zero
  intro i _
  rw [if_neg]
  simp

/-- Exclusive or is addition. -/
theorem ofByte_xor (a b : UInt8) : ofByte (a ^^^ b) = ofByte a + ofByte b := by
  unfold ofByte
  rw [← Finset.sum_add_distrib]
  apply Finset.sum_congr rfl
  intro i _
  rw [UInt8.toNat_xor, Nat.testBit_xor]
  cases a.toNat.testBit i <;> cases b.toNat.testBit i <;>
    simp [CharTwo.add_self_eq_zero]

/-- The constant of the code is the generator without its first term. -/
theorem ofByte_POLYNOMIAL : ofByte POLYNOMIAL = X ^ 5 + X ^ 4 + 1 := by
  have hbits : ∀ i ∈ Finset.range 8, POLYNOMIAL.toNat.testBit i = decide (i ∈ [2, 3, 7]) := by
    decide
  unfold ofByte
  rw [Finset.sum_congr rfl fun i hi => by rw [hbits i hi]]
  simp [Finset.sum_range_succ]

/-- Shifting down multiplies by `x`, but for the bit that falls out. -/
theorem X_mul_ofByte (byte : UInt8) :
    X * ofByte byte = ofByte (byte >>> 1) + if byte.toNat.testBit 0 then X ^ 8 else 0 := by
  have hbit : ∀ i, (byte >>> 1).toNat.testBit i = byte.toNat.testBit (i + 1) := by
    intro i
    rw [UInt8.toNat_shiftRight, Nat.testBit_shiftRight, Nat.add_comm]
    rfl
  have htop : byte.toNat.testBit 8 = false := Nat.testBit_lt_two_pow byte.toNat_lt
  unfold ofByte
  rw [Finset.sum_range_succ' (n := 7), Finset.sum_range_succ (n := 7), hbit 7, htop, mul_add,
    Finset.mul_sum]
  congr 1
  · rw [if_neg Bool.false_ne_true, add_zero]
    apply Finset.sum_congr rfl
    intro i hi
    have hi7 : i < 7 := Finset.mem_range.mp hi
    have hexp : 7 - i = 7 - (i + 1) + 1 := by omega
    rw [hbit i, mul_ite, mul_zero, ← pow_succ', hexp]
  · rw [mul_ite, mul_zero, ← pow_succ']

/-- **A shift is a step of the division**: it multiplies by `x`, and takes the generator off
where that has reached its degree. -/
theorem ofByte_shift (byte : UInt8) :
    X * ofByte byte = ofByte (shift byte) + if byte.toNat.testBit 0 then generator else 0 := by
  rw [X_mul_ofByte, shift]
  cases byte.toNat.testBit 0
  · rfl
  · rw [if_pos rfl, if_pos rfl, if_pos rfl, ofByte_xor, ofByte_POLYNOMIAL, generator]
    have htwice : (X ^ 5 + X ^ 4 + 1 : (ZMod 2)[X]) + (X ^ 5 + X ^ 4 + 1) = 0 :=
      CharTwo.add_self_eq_zero _
    linear_combination -htwice

/-- Shifting is multiplying, up to the generator. By induction on the number of shifts. -/
theorem ofByte_shifts (n : ℕ) (byte : UInt8) :
    (ofByte byte * X ^ n) %ₘ generator = ofByte (shift^[n] byte) %ₘ generator := by
  induction n generalizing byte with
  | zero => rw [pow_zero, mul_one, Function.iterate_zero, id]
  | succ n ih =>
      rw [Function.iterate_succ_apply, ← ih (shift byte)]
      apply modByMonic_eq_of_dvd_sub generator_monic
      have hstep : ofByte byte * X ^ (n + 1) - ofByte (shift byte) * X ^ n =
          (if byte.toNat.testBit 0 then generator else 0) * X ^ n := by
        linear_combination X ^ n * ofByte_shift byte
      rw [hstep]
      split
      · exact Dvd.intro _ rfl
      · rw [zero_mul]
        exact dvd_zero _

/-- A byte is a remainder. -/
theorem degree_ofByte (byte : UInt8) : (ofByte byte).degree < generator.degree := by
  rw [generator_degree]
  refine (degree_sum_le _ _).trans_lt ?_
  rw [Finset.sup_lt_iff (by decide)]
  intro i _
  split
  · rw [degree_X_pow]
    exact_mod_cast Nat.lt_succ_of_le (Nat.sub_le 7 i)
  · rw [degree_zero]
    exact WithBot.bot_lt_coe 8

/-- A byte is its own remainder. -/
theorem ofByte_mod (byte : UInt8) : ofByte byte %ₘ generator = ofByte byte :=
  (modByMonic_eq_self_iff generator_monic).mpr (degree_ofByte byte)

/-- A coefficient is a bit. -/
theorem coeff_ofByte (byte : UInt8) {i : ℕ} (hi : i < 8) :
    (ofByte byte).coeff (7 - i) = if byte.toNat.testBit i then 1 else 0 := by
  unfold ofByte
  rw [finsetSum_coeff, Finset.sum_eq_single_of_mem i (Finset.mem_range.mpr hi)]
  · split <;> simp
  · intro j hj hne
    have hj8 : j < 8 := Finset.mem_range.mp hj
    split
    · rw [coeff_X_pow, if_neg (by omega)]
    · exact coeff_zero _

/-- So different bytes are different remainders. -/
theorem ofByte_injective : Function.Injective ofByte := by
  intro a b h
  apply UInt8.toNat_inj.mp
  apply Nat.eq_of_testBit_eq
  intro i
  by_cases hi : i < 8
  · have hcoeff : (ofByte a).coeff (7 - i) = (ofByte b).coeff (7 - i) := by rw [h]
    rw [coeff_ofByte a hi, coeff_ofByte b hi] at hcoeff
    revert hcoeff
    cases a.toNat.testBit i <;> cases b.toNat.testBit i <;> simp
  · have hlarge : 2 ^ 8 ≤ 2 ^ i := Nat.pow_le_pow_right Nat.two_pos (Nat.not_lt.mp hi)
    rw [Nat.testBit_lt_two_pow (a.toNat_lt.trans_le hlarge),
      Nat.testBit_lt_two_pow (b.toNat_lt.trans_le hlarge)]

/-! ## Messages -/

/-- One lookup is one digit of the division. -/
theorem ofByte_lookup (crc byte : UInt8) :
    ofByte (lookup (crc ^^^ byte)) = reduce generator 8 (ofByte crc) (ofByte byte) := by
  rw [lookup_eq_shift, reduce, ← ofByte_xor, ofByte_shifts, ofByte_mod]

/-- Going through the bytes is reducing their polynomials one after the other. -/
theorem ofByte_foldl (data : Octets) (crc : UInt8) :
    ofByte (data.foldl (fun crc byte => lookup (crc ^^^ byte)) crc) =
      (data.map ofByte).foldl (reduce generator 8) (ofByte crc) := by
  induction data generalizing crc with
  | nil => rfl
  | cons byte data ih => rw [List.foldl_cons, ih, ofByte_lookup, List.map_cons, List.foldl_cons]

/-- The CRC of a message is its remainder. -/
theorem ofByte_calculate (data : Octets) :
    ofByte (calculate data) = (message data * X ^ 8) %ₘ generator := by
  rw [calculate, ofByte_foldl, ofByte_zero, foldl_reduce generator_monic, message]

/-- **The CRC divides.**  The table is the one its generator makes bit by bit; the CRC of a
message is what division bit by bit leaves of it, which is the remainder of its polynomial;
and messages that differ in a single byte have different CRCs. -/
theorem crc_divides :
    (∀ byte, lookup byte = shift^[8] byte) ∧
      (∀ data, calculate data = bitwise data) ∧
      (∀ data crc, calculate data = crc ↔
        (message data * X ^ 8) %ₘ generator = ofByte crc) ∧
      ∀ front back a b, a ≠ b →
        calculate (front ++ a :: back) ≠ calculate (front ++ b :: back) := by
  refine ⟨lookup_eq_shift, calculate_eq_bitwise, ?_, fun front back a b h =>
    calculate_ne h front back⟩
  intro data crc
  rw [← ofByte_calculate]
  exact ofByte_injective.eq_iff.symm

end Crc8
