import BreezeCore.Lib.Text

/-!
# Numbers written in decimal

What a number is written as reads back as that number, with or without a sign in
front, and different numbers are written differently.
-/

namespace Text

/-- A number in decimal. -/
def showNat (n : Nat) : Str := Nat.toDigits 10 n

/-- A number with a minus sign where it is negative. -/
def showInt (i : Int) : Str := if i < 0 then '-' :: showNat i.natAbs else showNat i.toNat

/-- Reading on where the first digits stopped. -/
theorem readDigits_append (radix bound acc : Nat) (xs ys : List Char) :
    readDigits radix bound acc (xs ++ ys) =
      (readDigits radix bound acc xs).bind fun n => readDigits radix bound n ys := by
  induction xs generalizing acc with
  | nil => rfl
  | cons x xs ih =>
      simp only [List.cons_append, readDigits]
      split
      next => rfl
      next d _ =>
        split
        next => exact ih _
        next => rfl

/-- The value of the character of a decimal digit. -/
theorem digitValue_digitChar {d : Nat} (h : d < 10) : digitValue (Nat.digitChar d) = some d := by
  have hall : ∀ d : Fin 10, digitValue (Nat.digitChar d) = some d.val := by decide
  exact hall ⟨d, h⟩

/-- A number below ten is a digit. -/
theorem showNat_digit {n : Nat} (h : n < 10) : showNat n = [Nat.digitChar n] :=
  Nat.toDigits_of_lt_base h

/-- Any other is the tenth part of it with a digit behind. -/
theorem showNat_more {n : Nat} (h : 10 ≤ n) :
    showNat n = showNat (n / 10) ++ [Nat.digitChar (n % 10)] :=
  Nat.toDigits_of_base_le (by decide) h

/-- The characters of a number are those of digits. -/
theorem digit_of_mem_showNat {n : Nat} {c : Char} (h : c ∈ showNat n) :
    ∃ d < 10, c = Nat.digitChar d := by
  induction n using Nat.strongRecOn with
  | ind n ih =>
      by_cases hsmall : n < 10
      · rw [showNat_digit hsmall] at h
        exact ⟨n, hsmall, List.mem_singleton.mp h⟩
      · rw [showNat_more (by omega), List.mem_append, List.mem_singleton] at h
        rcases h with h | rfl
        · exact ih (n / 10) (by omega) h
        · exact ⟨n % 10, by omega, rfl⟩

/-- No zero stands in front of other digits. -/
theorem head?_showNat {n : Nat} (h : 0 < n) : (showNat n).head? ≠ some '0' := by
  induction n using Nat.strongRecOn with
  | ind n ih =>
      by_cases hsmall : n < 10
      · have hall : ∀ d : Fin 10, 0 < d.val → Nat.digitChar d ≠ '0' := by decide
        rw [showNat_digit hsmall]
        exact fun hzero => hall ⟨n, hsmall⟩ h (Option.some.inj hzero)
      · have hrest := ih (n / 10) (by omega) (by omega)
        rw [showNat_more (by omega), List.head?_append]
        cases hhead : (showNat (n / 10)).head? with
        | none => exact absurd (List.head?_eq_none_iff.mp hhead) Nat.toDigits_ne_nil
        | some c =>
            rw [hhead] at hrest
            exact hrest

/-- **A number that is written reads back**, as long as it is below the bound. -/
theorem readDigits_showNat {bound n : Nat} (h : n < bound) :
    readDigits 10 bound 0 (showNat n) = some n := by
  induction n using Nat.strongRecOn with
  | ind n ih =>
      by_cases hsmall : n < 10
      · rw [showNat_digit hsmall, readDigits, digitValue_digitChar hsmall]
        dsimp only
        rw [Nat.zero_mul, Nat.zero_add, if_pos ⟨hsmall, h⟩, readDigits]
      · have hdigit : n % 10 < 10 := Nat.mod_lt n (by decide)
        have hsum : n / 10 * 10 + n % 10 = n := Nat.div_add_mod' n 10
        rw [showNat_more (by omega), readDigits_append, ih (n / 10) (by omega) (by omega),
          Option.bind_some, readDigits, digitValue_digitChar hdigit]
        dsimp only
        rw [hsum, if_pos ⟨hdigit, h⟩, readDigits]

/-- There is always a digit. -/
theorem showNat_ne_nil (n : Nat) : showNat n ≠ [] := Nat.toDigits_ne_nil

/-- It is written with digits only. -/
theorem isDigit_of_mem_showNat {n : Nat} {c : Char} (h : c ∈ showNat n) : c.isDigit = true :=
  Nat.isDigit_of_mem_toDigits (by decide) (by decide) h

/-- A number that fits is read back. -/
theorem fromStrRadix_showNat {bound n : Nat} (h : n < bound) :
    fromStrRadix 10 bound (showNat n) = some n := by
  have hread := readDigits_showNat h
  have hdigits := fun c => isDigit_of_mem_showNat (n := n) (c := c)
  unfold fromStrRadix
  split
  next heq => exact absurd heq (showNat_ne_nil n)
  next heq =>
    rw [heq] at hdigits
    exact absurd (hdigits '+' List.mem_cons_self) (by decide)
  next heq =>
    rw [heq] at hdigits
    exact absurd (hdigits '+' List.mem_cons_self) (by decide)
  next => exact hread

/-- So different numbers are written differently. -/
theorem showNat_injective : Function.Injective showNat := by
  intro a b h
  have ha := readDigits_showNat (Nat.lt_succ_of_le (Nat.le_max_left a b))
  have hb := readDigits_showNat (Nat.lt_succ_of_le (Nat.le_max_right a b))
  rw [h] at ha
  exact Option.some.inj (ha.symm.trans hb)

/-- **A number is read back** from its text if it is not negative, and not at all if it
is. -/
theorem fromStrRadix_showInt {bound : Nat} {i : Int} (h : i < bound) :
    fromStrRadix 10 bound (showInt i) = if i < 0 then none else some i.toNat := by
  unfold showInt
  split
  next => rfl
  next hpos => exact fromStrRadix_showNat (by omega)

/-- Different integers are written differently. -/
theorem showInt_injective : Function.Injective showInt := by
  intro a b h
  have hminus : ∀ n, '-' ∉ showNat n := fun n hmem =>
    absurd (isDigit_of_mem_showNat hmem) (by decide)
  unfold showInt at h
  split at h
  next ha =>
    split at h
    next hb =>
      have habs := showNat_injective (List.cons.inj h).2
      omega
    next => exact absurd (h ▸ List.mem_cons_self) (hminus b.toNat)
  next ha =>
    split at h
    next => exact absurd (h ▸ List.mem_cons_self) (hminus a.toNat)
    next hb =>
      have hnat := showNat_injective h
      omega

/-! ## Whole numbers as floats -/

/-- A digit has its value. -/
private theorem digitChar_value : ∀ d : Fin 10,
    isDigit (Nat.digitChar d) = true ∧ (Nat.digitChar d).toNat - 48 = d.val := by decide

/-- The value of what is written is the number. -/
theorem decimal_showNat (n : Nat) : decimal (showNat n) = n := by
  induction n using Nat.strongRecOn with
  | ind n ih =>
      by_cases hsmall : n < 10
      · rw [showNat_digit hsmall]
        exact (Nat.zero_add _).trans (digitChar_value ⟨n, hsmall⟩).2
      · have hlast : (Nat.digitChar (n % 10)).toNat - 48 = n % 10 :=
          (digitChar_value ⟨n % 10, by omega⟩).2
        have hrest : (showNat (n / 10)).foldl (fun acc c => acc * 10 + (c.toNat - 48)) 0 = n / 10 :=
          ih (n / 10) (by omega)
        rw [showNat_more (by omega), decimal, List.foldl_append, hrest, List.foldl_cons,
          List.foldl_nil, hlast]
        exact Nat.div_add_mod' n 10

/-- Which is written in digits. -/
theorem isDigit_showNat {n : Nat} {c : Char} (h : c ∈ showNat n) : isDigit c = true := by
  obtain ⟨d, hd, rfl⟩ := digit_of_mem_showNat h
  exact (digitChar_value ⟨d, hd⟩).1

/-- A natural number is written without a sign. -/
private theorem readSign_showNat (n : Nat) : readSign (showNat n) = (false, showNat n) := by
  have hdigits := fun c => isDigit_showNat (n := n) (c := c)
  unfold readSign
  split
  next heq =>
    rw [heq] at hdigits
    exact absurd (hdigits '-' List.mem_cons_self) (by decide)
  next heq =>
    rw [heq] at hdigits
    exact absurd (hdigits '+' List.mem_cons_self) (by decide)
  next => rfl

/-- The text of a number behind its sign. -/
private theorem parseFiniteF64_digits {toF64 : ℚ → ℚ} {text : List Char} {negative : Bool}
    {n : Nat}
    (hsign : readSign text = (negative, showNat n)) (h : (n : ℚ) < f64Bound) :
    parseFiniteF64 toF64 text = some (toF64 (if negative then -(n : ℚ) else n)) := by
  have hwhole : (showNat n).takeWhile isDigit = showNat n :=
    List.takeWhile_eq_self_iff.mpr fun c hc => isDigit_showNat hc
  have hvalue : scale (decimal (showNat n)) 0 = n := by
    rw [decimal_showNat, scale, if_pos le_rfl]
    simp
  unfold parseFiniteF64
  rw [hsign]
  dsimp only
  rw [hwhole, List.drop_length]
  dsimp only
  rw [if_neg fun hnil => showNat_ne_nil n hnil.1, List.append_nil, readExponent]
  dsimp only
  rw [List.length_nil, Nat.cast_zero, sub_zero, hvalue, if_pos h]

/-- **A whole number that is written is read as a float**, as long as it is not too large for
one. -/
theorem parseFiniteF64_showInt {toF64 : ℚ → ℚ} {i : Int} (h : |(i : ℚ)| < f64Bound) :
    parseFiniteF64 toF64 (showInt i) = some (toF64 i) := by
  unfold showInt
  split
  next hneg =>
    have hcast : (i : ℚ) = -(i.natAbs : ℚ) := by
      have habs : i = -(i.natAbs : Int) := by omega
      calc (i : ℚ) = ((-(i.natAbs : Int) : Int) : ℚ) := congrArg (Int.cast : Int → ℚ) habs
        _ = -((i.natAbs : Int) : ℚ) := Int.cast_neg _
        _ = -(i.natAbs : ℚ) := congrArg Neg.neg (Int.cast_natCast _)
    have hsmall : (i.natAbs : ℚ) < f64Bound := by
      rw [hcast, abs_neg, abs_of_nonneg (Nat.cast_nonneg _)] at h
      exact h
    rw [@parseFiniteF64_digits toF64 _ true i.natAbs rfl hsmall, if_pos rfl, hcast]
  next hpos =>
    have hcast : (i : ℚ) = (i.toNat : ℚ) := by
      have hnat : i = (i.toNat : Int) := by omega
      exact_mod_cast congrArg (Int.cast : Int → ℚ) hnat
    have hsmall : (i.toNat : ℚ) < f64Bound := by
      rw [hcast, abs_of_nonneg (Nat.cast_nonneg _)] at h
      exact h
    rw [@parseFiniteF64_digits toF64 _ false i.toNat (readSign_showNat _) hsmall, hcast]
    rfl

end Text
