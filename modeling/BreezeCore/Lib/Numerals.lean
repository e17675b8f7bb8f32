import BreezeCore.Lib.Text

/-!
# What an integer parser accepts

`fromStrRadix` reads an unsigned number in a radix.  `fromStrRadix_eq_some` says of
which texts it makes a number: those of at least one digit of the radix, with or
without a plus sign in front, whose value stays below the bound.
-/

namespace Text

open Bytes

/-- A digit of the radix. -/
def IsDigitIn (radix : Nat) (c : Char) : Prop := ∃ d < radix, digitValue c = some d

instance (radix : Nat) (c : Char) : Decidable (IsDigitIn radix c) :=
  decidable_of_iff ((digitValue c).any (· < radix) = true) (by
    unfold IsDigitIn
    cases digitValue c <;> simp)

/-- Digits read onto `acc`. -/
def digitsOnto (radix acc : Nat) (digits : List Char) : Nat :=
  digits.foldl (fun acc c => acc * radix + (digitValue c).getD 0) acc

/-- At least one digit of the radix, and what they denote. -/
def Numeral (radix : Nat) (digits : List Char) (n : Nat) : Prop :=
  digits ≠ [] ∧ (∀ c ∈ digits, IsDigitIn radix c) ∧ n = digitsOnto radix 0 digits

theorem le_digitsOnto {radix : Nat} (hradix : 0 < radix) (acc : Nat) (digits : List Char) :
    acc ≤ digitsOnto radix acc digits := by
  induction digits generalizing acc with
  | nil => exact Nat.le_refl acc
  | cons c digits ih =>
      calc acc ≤ acc * radix := Nat.le_mul_of_pos_right acc hradix
        _ ≤ acc * radix + (digitValue c).getD 0 := Nat.le_add_right _ _
        _ ≤ digitsOnto radix acc (c :: digits) := ih _

/-- The value only grows, so the bound holds on the way when it holds at the end. By induction on
the digits, with what was read before them in `acc`. -/
theorem readDigits_eq_some {radix bound : Nat} (hradix : 0 < radix) {acc n : Nat}
    (hacc : acc < bound) {digits : List Char} :
    readDigits radix bound acc digits = some n ↔
      (∀ c ∈ digits, IsDigitIn radix c) ∧ n = digitsOnto radix acc digits ∧ n < bound := by
  induction digits generalizing acc with
  | nil =>
      constructor
      · intro h
        obtain rfl := Option.some.inj h
        exact ⟨fun c hc => absurd hc List.not_mem_nil, rfl, hacc⟩
      · rintro ⟨-, rfl, -⟩
        rfl
  | cons c digits ih =>
      rw [List.forall_mem_cons, readDigits]
      cases hdigit : digitValue c with
      | none =>
          refine iff_of_false (fun h => by cases h) ?_
          rintro ⟨⟨⟨d, -, hd⟩, -⟩, -⟩
          rw [hdigit] at hd
          cases hd
      | some d =>
          have honto : digitsOnto radix acc (c :: digits) =
              digitsOnto radix (acc * radix + d) digits := by
            rw [digitsOnto, List.foldl_cons, hdigit]
            rfl
          dsimp only
          by_cases hstep : d < radix ∧ acc * radix + d < bound
          · rw [if_pos hstep, ih hstep.2, honto]
            have hc : IsDigitIn radix c := ⟨d, hstep.1, hdigit⟩
            simp only [hc, true_and]
          · rw [if_neg hstep]
            refine iff_of_false (fun h => by cases h) ?_
            rintro ⟨⟨⟨d', hlt, hd'⟩, -⟩, rfl, hbound⟩
            obtain rfl := Option.some.inj (hdigit.symm.trans hd')
            have hle := le_digitsOnto hradix (acc * radix + d) digits
            rw [honto] at hbound
            exact hstep ⟨hlt, Nat.lt_of_le_of_lt hle hbound⟩

theorem readDigits_eq_some' {radix bound : Nat} (hradix : 0 < radix) (hbound : 0 < bound)
    {digits : List Char} (hdigits : digits ≠ []) {n : Nat} :
    readDigits radix bound 0 digits = some n ↔ Numeral radix digits n ∧ n < bound := by
  rw [readDigits_eq_some hradix hbound, Numeral]
  tauto

theorem not_isDigitIn_plus {radix : Nat} : ¬ IsDigitIn radix '+' := by
  rintro ⟨d, -, hd⟩
  cases hd

/-- **What the parser accepts.**  A plus sign in front of the digits is let
through. -/
theorem fromStrRadix_eq_some {radix bound : Nat} (hradix : 0 < radix) (hbound : 0 < bound)
    {text : List Char} {n : Nat} :
    fromStrRadix radix bound text = some n ↔
      ∃ digits, (text = digits ∨ text = '+' :: digits) ∧ Numeral radix digits n ∧ n < bound := by
  have hunsigned : ∀ digits, (∀ rest, digits ≠ '+' :: rest) → digits ≠ [] →
      (readDigits radix bound 0 digits = some n ↔
        ∃ ds, (digits = ds ∨ digits = '+' :: ds) ∧ Numeral radix ds n ∧ n < bound) := by
    intro digits hplus hne
    rw [readDigits_eq_some' hradix hbound hne]
    constructor
    · intro h
      exact ⟨digits, Or.inl rfl, h⟩
    · rintro ⟨ds, rfl | hds, h⟩
      · exact h
      · exact absurd hds (hplus ds)
  have hsigned : ∀ digits, digits ≠ [] →
      (readDigits radix bound 0 digits = some n ↔
        ∃ ds, ('+' :: digits = ds ∨ '+' :: digits = '+' :: ds) ∧ Numeral radix ds n ∧
          n < bound) := by
    intro digits hne
    rw [readDigits_eq_some' hradix hbound hne]
    constructor
    · intro h
      exact ⟨digits, Or.inr rfl, h⟩
    · rintro ⟨ds, rfl | hds, h, hlt⟩
      · exact absurd (h.2.1 '+' List.mem_cons_self) not_isDigitIn_plus
      · obtain rfl := (List.cons.inj hds).2
        exact ⟨h, hlt⟩
  unfold fromStrRadix
  split
  next =>
    refine iff_of_false (fun h => by cases h) ?_
    rintro ⟨ds, rfl | hds, h, -⟩
    · exact h.1 rfl
    · cases hds
  next =>
    refine iff_of_false (fun h => by cases h) ?_
    rintro ⟨ds, rfl | hds, h, -⟩
    · exact absurd (h.2.1 '+' List.mem_cons_self) not_isDigitIn_plus
    · exact h.1 (List.cons.inj hds).2.symm
  next digits hne => exact hsigned digits fun h => hne (by rw [h])
  next hnil hlone hplus => exact hunsigned text (fun rest h => hplus rest h) hnil

/-! ## ASCII digits -/

theorem toNat_lt_of_isDigitIn {radix : Nat} {c : Char} (h : IsDigitIn radix c) :
    c.toNat < 128 := by
  obtain ⟨d, -, hd⟩ := h
  unfold digitValue at hd
  dsimp only at hd
  split at hd
  next h => omega
  next =>
    split at hd
    next h => omega
    next =>
      split at hd
      next h => omega
      next => cases hd

theorem digitValue_of_isDigit {c : Char} (h : isDigit c = true) :
    digitValue c = some (c.toNat - 48) := by
  simp only [isDigit, Bool.and_eq_true, decide_eq_true_eq] at h
  exact if_pos h

theorem not_whitespace_of_isDigit {c : Char} (h : isDigit c = true) : isWhitespace c = false := by
  simp only [isDigit, Bool.and_eq_true, decide_eq_true_eq] at h
  rw [Bool.eq_false_iff]
  intro hspace
  simp only [isWhitespace, Bool.or_eq_true, Bool.and_eq_true, decide_eq_true_eq, beq_iff_eq]
    at hspace
  omega

theorem isDigitIn_ten {c : Char} : IsDigitIn 10 c ↔ isDigit c = true := by
  constructor
  · rintro ⟨d, hlt, hd⟩
    unfold digitValue at hd
    dsimp only at hd
    rw [isDigit, Bool.and_eq_true, decide_eq_true_eq, decide_eq_true_eq]
    split at hd
    next h => exact h
    next =>
      split at hd
      next h =>
        have := Option.some.inj hd
        omega
      next =>
        split at hd
        next h =>
          have := Option.some.inj hd
          omega
        next => cases hd
  · intro h
    refine ⟨c.toNat - 48, ?_, digitValue_of_isDigit h⟩
    simp only [isDigit, Bool.and_eq_true, decide_eq_true_eq] at h
    omega

theorem digitsOnto_ten {digits : List Char} (h : ∀ c ∈ digits, isDigit c = true) :
    digitsOnto 10 0 digits = decimal digits := by
  apply List.foldl_ext
  intro acc c hc
  rw [digitValue_of_isDigit (h c hc)]
  rfl

/-- In radix ten a numeral is decimal digits. -/
theorem numeral_ten {digits : List Char} {n : Nat} :
    Numeral 10 digits n ↔
      digits ≠ [] ∧ (∀ c ∈ digits, isDigit c = true) ∧ n = decimal digits := by
  unfold Numeral
  simp only [isDigitIn_ten]
  refine and_congr_right fun _ => and_congr_right fun h => ?_
  rw [digitsOnto_ten h]

/-- Decimal digits are read as the number they denote, where that is below the bound. -/
theorem fromStrRadix_digits {bound : Nat} (hbound : 0 < bound) {digits : List Char}
    (hne : digits ≠ []) (hdigits : ∀ c ∈ digits, isDigit c = true) :
    fromStrRadix 10 bound digits =
      if decimal digits < bound then some (decimal digits) else none := by
  split
  next h =>
    exact (fromStrRadix_eq_some (by decide) hbound).mpr
      ⟨digits, Or.inl rfl, numeral_ten.mpr ⟨hne, hdigits, rfl⟩, h⟩
  next h =>
    rw [Option.eq_none_iff_forall_ne_some]
    intro n hn
    obtain ⟨ds, htext, hnumeral, hlt⟩ := (fromStrRadix_eq_some (by decide) hbound).mp hn
    obtain ⟨-, -, rfl⟩ := numeral_ten.mp hnumeral
    rcases htext with rfl | rfl
    · exact h hlt
    · exact absurd (hdigits '+' List.mem_cons_self) (by decide)

end Text
