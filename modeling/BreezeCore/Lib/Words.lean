import Mathlib.Data.Int.Bitwise
import Mathlib.Data.List.Induction

/-!
# Integers as words

Integers of any size are worked on bit by bit, a negative one as if its sign went on for
ever.  A word of `w` bits is an integer that has no bit from `w` on, so it is not negative.
-/

namespace Words

/-- A word has no bit from `w` on. -/
def IsWord (w : ℕ) (v : ℤ) : Prop := ∀ k, w ≤ k → v.testBit k = false

variable {w : ℕ} {u v : ℤ}

/-- A word is a natural number below `2 ^ w`. -/
theorem IsWord.exists_nat (h : IsWord w v) : ∃ m : ℕ, v = m ∧ m < 2 ^ w := by
  cases v with
  | ofNat m => exact ⟨m, rfl, Nat.lt_pow_two_of_testBit m fun k hk => h k hk⟩
  | negSucc m =>
      -- the sign of a negative number would be a bit beyond all of `m`
      have hk := h (max w m) (le_max_left ..)
      have hm : m.testBit (max w m) = false := by
        apply Nat.testBit_lt_two_pow
        calc m < 2 ^ m := Nat.lt_two_pow_self
          _ ≤ 2 ^ max w m := Nat.pow_le_pow_right Nat.two_pos (le_max_right ..)
      simp [Int.testBit, hm] at hk

/-- A number below the power of two is a word. -/
theorem isWord_natCast {m : ℕ} (h : m < 2 ^ w) : IsWord w m := fun _ hk =>
  Nat.testBit_lt_two_pow (h.trans_le (Nat.pow_le_pow_right Nat.two_pos hk))

/-- An integer that is not negative is a word where it is below the bound. -/
theorem isWord_of_lt (hnonneg : 0 ≤ v) (hlt : v < 2 ^ w) : IsWord w v := by
  obtain ⟨m, rfl⟩ := Int.eq_ofNat_of_zero_le hnonneg
  exact isWord_natCast (by exact_mod_cast hlt)

/-- Words stay words, bit by bit. -/
theorem IsWord.xor (hu : IsWord w u) (hv : IsWord w v) : IsWord w (Int.xor u v) := by
  intro k hk
  rw [Int.testBit_lxor, hu k hk, hv k hk]
  rfl

/-- The bits that either of two words has make a word. -/
theorem IsWord.or (hu : IsWord w u) (hv : IsWord w v) : IsWord w (Int.lor u v) := by
  intro k hk
  rw [Int.testBit_lor, hu k hk, hv k hk]
  rfl

/-- Whatever is masked with a word is a word. -/
theorem IsWord.and (hv : IsWord w v) (u : ℤ) : IsWord w (Int.land u v) := by
  intro k hk
  rw [Int.testBit_land, hv k hk, Bool.and_false]

/-- Zero is a word of any width. -/
theorem isWord_zero : IsWord w 0 := fun k _ => Nat.zero_testBit k

/-! ## Shifts -/

/-- Shifted to the right. -/
theorem testBit_shiftRight (v : ℤ) (n k : ℕ) : (v >>> n).testBit k = v.testBit (n + k) := by
  cases v with
  | ofNat m => exact Nat.testBit_shiftRight ..
  | negSucc m => exact congrArg (! ·) (Nat.testBit_shiftRight ..)

/-- Shifted to the left: zeros come in. -/
theorem IsWord.testBit_shiftLeft (hv : IsWord w v) (n k : ℕ) :
    (v <<< n).testBit k = (decide (n ≤ k) && v.testBit (k - n)) := by
  obtain ⟨m, rfl, -⟩ := hv.exists_nat
  exact Nat.testBit_shiftLeft ..

/-- Shifted to the left a word is wider by the shift. -/
theorem IsWord.shiftLeft (hv : IsWord w v) (n : ℕ) : IsWord (w + n) (v <<< n) := by
  intro k hk
  rw [hv.testBit_shiftLeft, hv _ (by omega), Bool.and_false]

/-! ## Masks -/

/-- The word whose bits are all set. -/
def mask (w : ℕ) : ℤ := (2 ^ w - 1 : ℕ)

/-- A mask has ones up to its width. -/
theorem testBit_mask (w k : ℕ) : (mask w).testBit k = decide (k < w) :=
  Nat.testBit_two_pow_sub_one w k

/-- The mask of a width is a word of that width. -/
theorem isWord_mask : IsWord w (mask w) := by
  intro k hk
  rw [testBit_mask, decide_eq_false (Nat.not_lt.mpr hk)]

/-- **Rotation**, as two shifts that are put together and masked. -/
theorem testBit_rotate (hv : IsWord w v) {n k : ℕ} (hn : n ≤ w) (hk : k < w) :
    (Int.land (Int.lor (v <<< n) (v >>> (w - n))) (mask w)).testBit k =
      v.testBit ((k + (w - n)) % w) := by
  rw [Int.testBit_land, testBit_mask, decide_eq_true hk, Bool.and_true, Int.testBit_lor,
    hv.testBit_shiftLeft, testBit_shiftRight]
  by_cases hnk : n ≤ k
  · have hhigh : v.testBit (w - n + k) = false := hv _ (by omega)
    have hback : (k + (w - n)) % w = k - n := by
      rw [show k + (w - n) = k - n + w by omega, Nat.add_mod_right, Nat.mod_eq_of_lt (by omega)]
    rw [hhigh, hback, decide_eq_true hnk, Bool.true_and, Bool.or_false]
  · have hback : (k + (w - n)) % w = w - n + k := by
      rw [Nat.mod_eq_of_lt (by omega), Nat.add_comm]
    rw [hback, decide_eq_false hnk, Bool.false_and, Bool.false_or]

/-! ## Words from bytes -/

/-- The word whose bytes these are, the highest byte first. -/
def ofBytes (bytes : List UInt8) : ℤ :=
  bytes.foldl (fun v byte => Int.lor (v <<< (8 : ℕ)) byte.toNat) 0

/-- One byte more, at the low end. -/
theorem ofBytes_concat (bytes : List UInt8) (byte : UInt8) :
    ofBytes (bytes ++ [byte]) = Int.lor (ofBytes bytes <<< (8 : ℕ)) byte.toNat :=
  List.foldl_append

/-- A byte is a word of eight bits. -/
theorem isWord_byte (byte : UInt8) : IsWord 8 byte.toNat := isWord_natCast byte.toNat_lt

/-- Bytes are a word of eight bits each. -/
theorem isWord_ofBytes (bytes : List UInt8) : IsWord (8 * bytes.length) (ofBytes bytes) := by
  induction bytes using List.reverseRecOn with
  | nil => exact isWord_zero
  | append_singleton bytes byte ih =>
      rw [ofBytes_concat, List.length_append, List.length_singleton, Nat.mul_add]
      refine (ih.shiftLeft 8).or fun k hk => isWord_byte byte k ?_
      omega

/-- **Bits of a word** that is read byte after byte. -/
theorem testBit_ofBytes (bytes : List UInt8) (k : ℕ) :
    (ofBytes bytes).testBit k = (bytes.reverse.getD (k / 8) 0).toNat.testBit (k % 8) := by
  induction bytes using List.reverseRecOn generalizing k with
  | nil => simp [ofBytes, Int.testBit]
  | append_singleton bytes byte ih =>
      rw [ofBytes_concat, Int.testBit_lor, (isWord_ofBytes bytes).testBit_shiftLeft,
        List.reverse_append, List.reverse_singleton, List.singleton_append]
      by_cases hk : 8 ≤ k
      · obtain ⟨j, rfl⟩ := Nat.exists_eq_add_of_le hk
        have hlow : Int.testBit (byte.toNat : ℤ) (8 + j) = false := isWord_byte byte _ hk
        have hdiv : (8 + j) / 8 = j / 8 + 1 := by omega
        have hmod : (8 + j) % 8 = j % 8 := by omega
        rw [hlow, hdiv, hmod, List.getD_cons_succ, decide_eq_true hk, Bool.true_and, Bool.or_false,
          Nat.add_sub_cancel_left, ih]
      · have hdiv : k / 8 = 0 := by omega
        have hmod : k % 8 = k := by omega
        rw [decide_eq_false hk, Bool.false_and, Bool.false_or, hdiv, hmod, List.getD_cons_zero]
        rfl

end Words
