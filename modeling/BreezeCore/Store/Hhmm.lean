import BreezeCore.Lib.Numerals
import BreezeCore.Store.Timers

/-!
# Times of day as they are typed

`parse_hhmm` is meant to take one or two digits, a colon and two digits.  Its
fields go through the integer parser, which lets a plus sign through in place of
the first of two digits.  `parseHhmm_eq_some` is what it accepts, and
`parseHhmm_exact` says that the plus sign is the only difference.
-/

namespace BreezeStore

open Bytes Text

/-- One or two digits, below 24. -/
def Hours (text : Str) (n : Nat) : Prop :=
  (text.length = 1 ∨ text.length = 2) ∧ (∀ c ∈ text, isDigit c = true) ∧ n = decimal text ∧ n < 24

/-- Two digits, below 60. -/
def Minutes (text : Str) (n : Nat) : Prop :=
  text.length = 2 ∧ (∀ c ∈ text, isDigit c = true) ∧ n = decimal text ∧ n < 60

/-- The grammar of a time of day. -/
def Hhmm (text : Str) (hour minute : Nat) : Prop :=
  ∃ h m, text = h ++ ':' :: m ∧ Hours h hour ∧ Minutes m minute

/-- A plus sign and one digit. -/
def Plus (text : Str) (n : Nat) : Prop := ∃ d, text = ['+', d] ∧ isDigit d = true ∧ n = decimal [d]

/-- A time of day in which a plus sign stands for a first digit. -/
def PlusTime (text : Str) : Prop :=
  ∃ h m hour minute, text = h ++ ':' :: m ∧
    (Plus h hour ∧ (Minutes m minute ∨ Plus m minute) ∨ Hours h hour ∧ Plus m minute)

/-! ## The fields -/

private theorem decimal_digit_lt {d : Char} (h : isDigit d = true) : decimal [d] < 10 := by
  simp only [isDigit, Bool.and_eq_true, decide_eq_true_eq] at h
  have hvalue : decimal [d] = d.toNat - 48 := by simp [decimal]
  omega

/-- Two digits stay far below the bound of the parser. -/
private theorem decimal_lt {text : Str} (hlen : text.length ≤ 2)
    (hdigits : ∀ c ∈ text, isDigit c = true) : decimal text < 2 ^ 32 := by
  match text with
  | [] => decide
  | [d] =>
      have hd := decimal_digit_lt (hdigits d List.mem_cons_self)
      omega
  | [d, e] =>
      have hd := hdigits d List.mem_cons_self
      have he := hdigits e (List.mem_cons_of_mem _ List.mem_cons_self)
      simp only [isDigit, Bool.and_eq_true, decide_eq_true_eq] at hd he
      have hvalue : decimal [d, e] = (d.toNat - 48) * 10 + (e.toNat - 48) := by simp [decimal]
      omega
  | _ :: _ :: _ :: _ => simp at hlen

private theorem digits_ascii {digits : Str} (h : ∀ c ∈ digits, isDigit c = true) :
    ∀ c ∈ digits, c.toNat < 128 :=
  fun c hc => toNat_lt_of_isDigitIn (isDigitIn_ten.mpr (h c hc))

private theorem plus_ascii {digits : Str} (h : ∀ c ∈ digits, isDigit c = true) :
    ∀ c ∈ '+' :: digits, c.toNat < 128 := by
  rw [List.forall_mem_cons]
  exact ⟨by decide, digits_ascii h⟩

/-- A field of at most two bytes as the parser reads it. It is one digit or two, or a plus sign
and a digit. -/
private theorem fromStrRadix_field {field : Str} {n : Nat} :
    (field ≠ [] ∧ (toUtf8 field).length ≤ 2 ∧ fromStrRadix 10 (2 ^ 32) field = some n) ↔
      ((field.length = 1 ∨ field.length = 2) ∧ (∀ c ∈ field, isDigit c = true) ∧
        n = decimal field) ∨ Plus field n := by
  rw [fromStrRadix_eq_some (by decide) (by decide)]
  simp only [numeral_ten]
  constructor
  · rintro ⟨-, hbytes, digits, rfl | rfl, ⟨hne, hdigits, rfl⟩, -⟩
    · rw [length_toUtf8_of_ascii (digits_ascii hdigits)] at hbytes
      have hpos := List.length_pos_iff.mpr hne
      exact Or.inl ⟨by omega, hdigits, rfl⟩
    · rw [length_toUtf8_of_ascii (plus_ascii hdigits), List.length_cons] at hbytes
      obtain ⟨d, rfl⟩ : ∃ d, digits = [d] := by
        have hpos := List.length_pos_iff.mpr hne
        exact List.length_eq_one_iff.mp (by omega)
      exact Or.inr ⟨d, rfl, hdigits d List.mem_cons_self, rfl⟩
  · rintro (⟨hlen, hdigits, rfl⟩ | ⟨d, rfl, hd, rfl⟩)
    · have hne : field ≠ [] := by
        rintro rfl
        simp at hlen
      have hbytes := length_toUtf8_of_ascii (digits_ascii hdigits)
      exact ⟨hne, by omega, field, Or.inl rfl, ⟨hne, hdigits, rfl⟩,
        decimal_lt (by omega) hdigits⟩
    · have hdigits : ∀ c ∈ [d], isDigit c = true := by simpa using hd
      have hbytes := length_toUtf8_of_ascii (plus_ascii hdigits)
      rw [List.length_cons, List.length_singleton] at hbytes
      exact ⟨List.cons_ne_nil _ _, by omega, [d], Or.inr rfl,
        ⟨List.cons_ne_nil _ _, hdigits, rfl⟩, decimal_lt (by simp) hdigits⟩

private theorem Plus.small {text : Str} {n : Nat} (h : Plus text n) : n < 10 := by
  obtain ⟨d, -, hd, rfl⟩ := h
  exact decimal_digit_lt hd

private theorem hours_field {h : Str} {hour : Nat} :
    (¬ (h = [] ∨ 2 < (toUtf8 h).length) ∧ fromStrRadix 10 (2 ^ 32) h = some hour ∧ hour < 24) ↔
      Hours h hour ∨ Plus h hour := by
  have hfield := @fromStrRadix_field h hour
  have hsmall := @Plus.small h hour
  rw [not_or, Nat.not_lt]
  unfold Hours
  grind

private theorem minutes_field {m : Str} {minute : Nat} :
    ((toUtf8 m).length = 2 ∧ fromStrRadix 10 (2 ^ 32) m = some minute ∧ minute < 60) ↔
      Minutes m minute ∨ Plus m minute := by
  constructor
  · rintro ⟨hbytes, hread, hrange⟩
    have hne : m ≠ [] := by
      rintro rfl
      cases hbytes
    rcases fromStrRadix_field.mp ⟨hne, hbytes.le, hread⟩ with ⟨-, hdigits, hvalue⟩ | hplus
    · rw [length_toUtf8_of_ascii (digits_ascii hdigits)] at hbytes
      exact Or.inl ⟨hbytes, hdigits, hvalue, hrange⟩
    · exact Or.inr hplus
  · rintro (⟨hlen, hdigits, hvalue, hrange⟩ | hplus)
    · obtain ⟨-, -, hread⟩ := fromStrRadix_field.mpr (Or.inl ⟨Or.inr hlen, hdigits, hvalue⟩)
      rw [length_toUtf8_of_ascii (digits_ascii hdigits)]
      exact ⟨hlen, hread, hrange⟩
    · obtain ⟨-, -, hread⟩ := fromStrRadix_field.mpr (Or.inr hplus)
      have hsmall := hplus.small
      obtain ⟨d, rfl, hd, -⟩ := hplus
      rw [length_toUtf8_of_ascii (plus_ascii (List.forall_mem_singleton.mpr hd))]
      exact ⟨rfl, hread, by omega⟩

/-! ## The time -/

private theorem colon_notMem {h : Str} {hour : Nat} (hhour : Hours h hour ∨ Plus h hour) :
    ':' ∉ h := by
  intro hmem
  rcases hhour with ⟨-, hdigits, -⟩ | ⟨d, rfl, hd, -⟩
  · exact absurd (hdigits ':' hmem) (by decide)
  · rcases List.mem_cons.mp hmem with heq | hmem
    · exact absurd heq (by decide)
    · obtain rfl := List.mem_singleton.mp hmem
      exact absurd hd (by decide)

/-- **What is accepted.** White space at the ends goes, the first colon cuts the text, and each
side is one digit or two, or a plus sign and a digit. -/
theorem parseHhmm_eq_some {text : Str} {hour minute : Nat} :
    parseHhmm text = some (hour, minute) ↔
      ∃ h m, trim text = h ++ ':' :: m ∧ (Hours h hour ∨ Plus h hour) ∧
        (Minutes m minute ∨ Plus m minute) := by
  constructor
  · intro hparse
    unfold parseHhmm at hparse
    split at hparse
    next => cases hparse
    next h m hsplit =>
      split at hparse
      next => cases hparse
      next hlen =>
        rw [or_assoc.symm, not_or, ne_eq, not_not] at hlen
        split at hparse
        next hour' minute' hhour hminute =>
          split at hparse
          next hrange =>
            obtain ⟨rfl, rfl⟩ := Prod.mk.inj (Option.some.inj hparse)
            exact ⟨h, m, (splitOnce_eq_some.mp hsplit).1,
              hours_field.mp ⟨hlen.1, hhour, hrange.1⟩,
              minutes_field.mp ⟨hlen.2, hminute, hrange.2⟩⟩
          next => cases hparse
        next => cases hparse
  · rintro ⟨h, m, htext, hhour, hminute⟩
    have hsplit := splitOnce_eq_some.mpr ⟨htext, colon_notMem hhour⟩
    obtain ⟨hlen, hreadHour, hhour⟩ := hours_field.mpr hhour
    obtain ⟨hlen', hreadMinute, hminute⟩ := minutes_field.mpr hminute
    rw [not_or] at hlen
    unfold parseHhmm
    rw [hsplit]
    dsimp only
    rw [if_neg (by rw [not_or, not_or]; exact ⟨hlen.1, hlen.2, not_not_intro hlen'⟩), hreadHour,
      hreadMinute]
    dsimp only
    rw [if_pos ⟨hhour, hminute⟩]

private theorem Plus.not_digits {text : Str} {n : Nat} (h : Plus text n) :
    ¬ ∀ c ∈ text, isDigit c = true := by
  obtain ⟨d, rfl, -, -⟩ := h
  intro hdigits
  exact absurd (hdigits '+' List.mem_cons_self) (by decide)

/-- A text is cut at its first colon and nowhere else. -/
private theorem cut_unique {h m h' m' : Str} {hour hour' : Nat} (hhour : Hours h hour ∨ Plus h hour)
    (hhour' : Hours h' hour' ∨ Plus h' hour') (heq : h ++ ':' :: m = h' ++ ':' :: m') :
    h = h' ∧ m = m' := by
  have hfirst : splitOnce ':' (h ++ ':' :: m) = some (h, m) :=
    splitOnce_eq_some.mpr ⟨rfl, colon_notMem hhour⟩
  have hsecond := splitOnce_eq_some.mpr ⟨heq, colon_notMem hhour'⟩
  exact Prod.mk.inj (Option.some.inj (hfirst.symm.trans hsecond))

/-- **The plus sign is the only difference** between the grammar and what is
accepted. -/
theorem parseHhmm_exact (text : Str) :
    (∀ hour minute, parseHhmm text = some (hour, minute) ↔ Hhmm (trim text) hour minute) ↔
      ¬ PlusTime (trim text) := by
  constructor
  · rintro hexact ⟨h, m, hour, minute, htext, hplus⟩
    have hhour : Hours h hour ∨ Plus h hour := hplus.elim (fun h => Or.inr h.1) fun h => Or.inl h.1
    have hminute : Minutes m minute ∨ Plus m minute := hplus.elim (fun h => h.2) fun h => Or.inr h.2
    obtain ⟨h', m', htext', hhour', hminute'⟩ :=
      (hexact hour minute).mp (parseHhmm_eq_some.mpr ⟨h, m, htext, hhour, hminute⟩)
    obtain ⟨rfl, rfl⟩ := cut_unique hhour (Or.inl hhour') (htext.symm.trans htext')
    rcases hplus with ⟨hplus, -⟩ | ⟨-, hplus⟩
    · exact hplus.not_digits hhour'.2.1
    · exact hplus.not_digits hminute'.2.1
  · intro hnone hour minute
    rw [parseHhmm_eq_some]
    constructor
    · rintro ⟨h, m, htext, hhour | hhour, hminute⟩
      · rcases hminute with hminute | hminute
        · exact ⟨h, m, htext, hhour, hminute⟩
        · exact absurd ⟨h, m, hour, minute, htext, Or.inr ⟨hhour, hminute⟩⟩ hnone
      · exact absurd ⟨h, m, hour, minute, htext, Or.inl ⟨hhour, hminute⟩⟩ hnone
    · rintro ⟨h, m, htext, hhour, hminute⟩
      exact ⟨h, m, htext, Or.inl hhour, Or.inl hminute⟩

/-- Five past seven, with a plus sign in front of either number. -/
theorem parseHhmm_plus : ¬ ∀ text hour minute,
    parseHhmm text = some (hour, minute) ↔ Hhmm (trim text) hour minute := by
  intro hexact
  have hparse : parseHhmm "+7:+5".toList = some (7, 5) := by decide +kernel
  have htrim : trim "+7:+5".toList = "+7:+5".toList := by decide +kernel
  obtain ⟨h, m, htext, hhour, -⟩ := (hexact _ _ _).mp hparse
  rw [htrim] at htext
  have hplus : Plus ['+', '7'] 7 := ⟨'7', rfl, by decide, by decide⟩
  obtain ⟨rfl, -⟩ := @cut_unique ['+', '7'] ['+', '5'] _ _ _ _ (Or.inr hplus) (Or.inl hhour) htext
  exact hplus.not_digits hhour.2.1

end BreezeStore
