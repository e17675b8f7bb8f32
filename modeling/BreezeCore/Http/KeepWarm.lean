import BreezeCore.Lib.Numerals
import BreezeCore.Lib.Decimal

/-!
# How long units are kept warm

The setting is read from a text and can be written back.

* `parse_describe` — what it is written as reads back as the same setting;
* `parse_amount` — a number with a unit is read as number times scale seconds, where that
  fits 64 bits;
* `keep_warm` — both.
-/

namespace BreezeHttp

open Text

/-- A span of time: whole seconds, and nanoseconds below a second. -/
structure Duration where
  secs : UInt64
  nanos : Fin 1000000000
  deriving DecidableEq, Repr

/-- A duration of whole seconds. -/
def Duration.fromSecs (secs : UInt64) : Duration := ⟨secs, 0⟩

/-- How long unit connections are kept open after the server was last used. -/
inductive KeepWarm where
  /-- No traffic to a unit unless a client asks for something. -/
  | off
  /-- For this long after the server was last used. -/
  | forWindow (window : Duration)
  /-- From startup, whether or not anyone has ever connected. -/
  | always
  deriving DecidableEq, Repr

namespace KeepWarm

/-- The words that switch it off. -/
def OFF_WORDS : List String := ["off", "no", "false", "never", "none", "disabled"]

/-- The words that never let it stop. -/
def ALWAYS_WORDS : List String :=
  ["always", "forever", "indefinite", "indefinitely", "infinite", "inf", "-1"]

/-- The units, with the seconds they stand for. -/
def UNITS : List (String × Nat) :=
  [("", 1), ("s", 1), ("sec", 1), ("secs", 1), ("second", 1), ("seconds", 1),
    ("m", 60), ("min", 60), ("mins", 60), ("minute", 60), ("minutes", 60),
    ("h", 3600), ("hr", 3600), ("hrs", 3600), ("hour", 3600), ("hours", 3600)]

/-- How many seconds a unit is. -/
def scaleOf (unit : Str) : Option Nat :=
  (UNITS.find? fun entry => entry.1.toList = unit).map Prod.snd

/-- `n.checked_mul(scale)`, on 64 bits. -/
def checkedMul (n scale : Nat) : Option Nat := if n * scale < 2 ^ 64 then some (n * scale) else none

/-- The setting of a number of seconds. -/
def ofSeconds (secs : Nat) : KeepWarm :=
  if secs = 0 then off else forWindow (.fromSecs (UInt64.ofNat secs))

/-- `1800`, `90s`, `30m`, `2h`; `0` or `off` to disable; `always` for ever. -/
def parse (raw : Str) : Option KeepWarm :=
  let v := toAsciiLowercase (trim raw)
  if OFF_WORDS.any fun word => v = word.toList then some off
  else if ALWAYS_WORDS.any fun word => v = word.toList then some always
  else do
    let n ← fromStrRadix 10 (2 ^ 64) (v.takeWhile isDigit)
    let scale ← scaleOf (trim (v.dropWhile isDigit))
    let secs ← checkedMul n scale
    some (ofSeconds secs)

/-- The setting as a person would write it back. -/
def describe : KeepWarm → Str
  | off => "off".toList
  | always => "always".toList
  | forWindow d =>
      let s := d.secs.toNat
      if s % 3600 = 0 then showNat (s / 3600) ++ "h".toList
      else if s % 60 = 0 then showNat (s / 60) ++ "m".toList
      else showNat s ++ "s".toList

/-! ## A number with a unit -/

/-- A number with a unit, in any letter case: digits, and one of the units behind them, with
white space around both. -/
def Amount (raw : Str) (n scale : Nat) : Prop :=
  ∃ lead digits gap unit trail, raw = lead ++ (digits ++ (gap ++ unit)) ++ trail ∧
    (∀ c ∈ lead ++ gap ++ trail, isWhitespace c = true) ∧
    digits ≠ [] ∧ (∀ c ∈ digits, isDigit c = true) ∧ n = decimal digits ∧
    ∃ entry ∈ UNITS, entry.1.toList = toAsciiLowercase unit ∧ entry.2 = scale

/-- A unit is written in letters. -/
theorem unit_letters : ∀ entry ∈ UNITS, ∀ c ∈ entry.1.toList,
    isWhitespace c = false ∧ isDigit c = false := by
  have hall : (UNITS.all fun entry =>
      entry.1.toList.all fun c => !isWhitespace c && !isDigit c) = true := by decide +kernel
  intro entry hentry c hc
  have hletter := List.all_eq_true.mp (List.all_eq_true.mp hall entry hentry) c hc
  rwa [Bool.and_eq_true, Bool.not_eq_true', Bool.not_eq_true'] at hletter

/-- Every unit of the table is found there, so none stands twice. -/
theorem scaleOf_unit : ∀ entry ∈ UNITS, scaleOf entry.1.toList = some entry.2 := by
  decide +kernel

/-- Every unit is a second at least. -/
theorem scale_pos : ∀ entry ∈ UNITS, 0 < entry.2 := by decide

/-- No setting in words begins with a digit. -/
theorem word_not_digit : ∀ word ∈ OFF_WORDS ++ ALWAYS_WORDS, ∀ c ∈ word.toList.head?,
    isDigit c = false := by
  have hall : ((OFF_WORDS ++ ALWAYS_WORDS).all fun word =>
      word.toList.head?.all fun c => !isDigit c) = true := by decide +kernel
  intro word hword c hc
  have hfirst := List.all_eq_true.mp hall word hword
  rw [Option.mem_def.mp hc, Option.all_some] at hfirst
  exact (Bool.not_eq_true' _).mp hfirst

/-- What is no capital stays. -/
theorem toLower_of_small {c : Char} (h : c.toNat < 65 ∨ 90 < c.toNat) : c.toLower = c := by
  refine dif_neg ?_
  rintro ⟨hlow, hhigh⟩
  have hlow' : 65 ≤ c.toNat := hlow
  have hhigh' : c.toNat ≤ 90 := hhigh
  omega

/-- White space stays as it is in lower case. -/
theorem toLower_of_whitespace {c : Char} (h : isWhitespace c = true) : c.toLower = c := by
  apply toLower_of_small
  simp only [isWhitespace, Bool.or_eq_true, Bool.and_eq_true, decide_eq_true_eq, beq_iff_eq] at h
  omega

/-- Digits stay as they are in lower case. -/
theorem toLower_of_isDigit {c : Char} (h : isDigit c = true) : c.toLower = c := by
  apply toLower_of_small
  simp only [isDigit, Bool.and_eq_true, decide_eq_true_eq] at h
  omega

/-- A text without capitals stays as it is in lower case. -/
theorem map_toLower {text : Str} (h : ∀ c ∈ text, c.toLower = c) : toAsciiLowercase text = text :=
  (List.map_congr_left h).trans (List.map_id _)

/-- White space in a text is still there in lower case. -/
theorem dark_of_lower {text : Str} (h : ∀ c ∈ toAsciiLowercase text, isWhitespace c = false) :
    ∀ c ∈ text, isWhitespace c = false := by
  intro c hc
  rw [Bool.eq_false_iff]
  intro hwhite
  have hmem : c.toLower ∈ toAsciiLowercase text := List.mem_map_of_mem hc
  rw [toLower_of_whitespace hwhite] at hmem
  rw [h c hmem] at hwhite
  cases hwhite

/-- Trimmed and in lower case, an amount is its digits, perhaps white space, and its unit. Where
there is no unit the white space goes with the trimming, and otherwise it stays. -/
theorem lower_trim_amount {lead digits gap unit trail : Str}
    (hspace : ∀ c ∈ lead ++ gap ++ trail, isWhitespace c = true) (hne : digits ≠ [])
    (hdigits : ∀ c ∈ digits, isDigit c = true) (hunit : ∀ c ∈ unit, isWhitespace c = false) :
    ∃ gap', (∀ c ∈ gap', isWhitespace c = true) ∧
      toAsciiLowercase (trim (lead ++ (digits ++ (gap ++ unit)) ++ trail)) =
        digits ++ (gap' ++ toAsciiLowercase unit) := by
  rw [List.forall_mem_append, List.forall_mem_append] at hspace
  obtain ⟨⟨hlead, hgap⟩, htrail⟩ := hspace
  have hlower : toAsciiLowercase digits = digits :=
    map_toLower fun c hc => toLower_of_isDigit (hdigits c hc)
  have hdark : ∀ c ∈ digits, isWhitespace c = false :=
    fun c hc => not_whitespace_of_isDigit (hdigits c hc)
  rcases List.eq_nil_or_concat unit with rfl | ⟨front, last, rfl⟩
  · refine ⟨[], fun c hc => absurd hc List.not_mem_nil, ?_⟩
    have htext : lead ++ (digits ++ (gap ++ [])) ++ trail = lead ++ digits ++ (gap ++ trail) := by
      simp only [List.append_nil, List.append_assoc]
    rw [htext, trim_padded hlead hdark (List.forall_mem_append.mpr ⟨hgap, htrail⟩), hlower]
    exact (List.append_nil digits).symm
  · refine ⟨gap, hgap, ?_⟩
    have hgap' : toAsciiLowercase gap = gap :=
      map_toLower fun c hc => toLower_of_whitespace (hgap c hc)
    rw [trim_ends hlead _ _ htrail]
    · rw [toAsciiLowercase, List.map_append, List.map_append, ← toAsciiLowercase,
        ← toAsciiLowercase, ← toAsciiLowercase, hlower, hgap']
    · intro c hc
      rw [List.head?_append_of_ne_nil _ hne] at hc
      exact hdark c (List.mem_of_head? hc)
    · intro c hc
      rw [List.concat_eq_append, ← List.append_assoc, ← List.append_assoc,
        List.getLast?_concat] at hc
      obtain rfl := Option.some.inj hc
      refine hunit last ?_
      rw [List.concat_eq_append]
      exact List.mem_append_right _ List.mem_cons_self

/-- Digits are cut off where they end. -/
theorem scan_digits {digits rest : Str} (hdigits : ∀ c ∈ digits, isDigit c = true)
    (hrest : ∀ c ∈ rest, isDigit c = false) :
    (digits ++ rest).takeWhile isDigit = digits ∧ (digits ++ rest).dropWhile isDigit = rest := by
  rw [List.takeWhile_append_of_pos hdigits, List.dropWhile_append_of_pos hdigits]
  cases rest with
  | nil => exact ⟨List.append_nil digits, rfl⟩
  | cons c rest =>
      have hc : ¬ isDigit c = true := by
        rw [hrest c List.mem_cons_self]
        decide
      rw [List.takeWhile_cons_of_neg hc, List.dropWhile_cons_of_neg hc, List.append_nil]
      exact ⟨rfl, rfl⟩

/-- What begins with a digit is no setting in words. -/
theorem not_word {v : Str} (h : ∃ c ∈ v.head?, isDigit c = true) {words : List String}
    (hwords : ∀ word ∈ words, word ∈ OFF_WORDS ++ ALWAYS_WORDS) :
    ¬ (words.any fun word => v = word.toList) = true := by
  rw [List.any_eq_true]
  rintro ⟨word, hword, hv⟩
  obtain rfl := of_decide_eq_true hv
  obtain ⟨c, hc, hdigit⟩ := h
  rw [word_not_digit word (hwords word hword) c hc] at hdigit
  cases hdigit

/-- **An amount** is read as its seconds, where they fit 64 bits. The digits end where the unit
begins, and a number of digits that fits no 64 bits makes no product that does. -/
theorem parse_amount {raw : Str} {n scale : Nat} (h : Amount raw n scale) :
    parse raw = if n * scale < 2 ^ 64 then some (ofSeconds (n * scale)) else none := by
  obtain ⟨lead, digits, gap, unit, trail, rfl, hspace, hne, hdigits, rfl, entry, hentry, hlower,
    rfl⟩ := h
  have hletters := unit_letters entry hentry
  rw [hlower] at hletters
  obtain ⟨gap', hgap', hv⟩ := lower_trim_amount hspace hne hdigits
    (dark_of_lower fun c hc => (hletters c hc).1)
  have hrest : ∀ c ∈ gap' ++ toAsciiLowercase unit, isDigit c = false := by
    rw [List.forall_mem_append]
    refine ⟨fun c hc => ?_, fun c hc => (hletters c hc).2⟩
    rw [Bool.eq_false_iff]
    intro hdigit
    have hdark := not_whitespace_of_isDigit hdigit
    rw [hgap' c hc] at hdark
    cases hdark
  have hhead : ∃ c ∈ (digits ++ (gap' ++ toAsciiLowercase unit)).head?, isDigit c = true := by
    cases digits with
    | nil => exact absurd rfl hne
    | cons d digits => exact ⟨d, rfl, hdigits d List.mem_cons_self⟩
  obtain ⟨htake, hdrop⟩ := scan_digits hdigits hrest
  have htrim : trim (gap' ++ toAsciiLowercase unit) = toAsciiLowercase unit := by
    have h := @trim_padded gap' (toAsciiLowercase unit) [] hgap' (fun c hc => (hletters c hc).1)
      fun c hc => absurd hc List.not_mem_nil
    rwa [List.append_nil] at h
  unfold parse
  dsimp only
  rw [hv, if_neg (not_word hhead fun word => List.mem_append_left _),
    if_neg (not_word hhead fun word => List.mem_append_right _), htake, hdrop, htrim,
    fromStrRadix_digits (by decide) hne hdigits, ← hlower, scaleOf_unit entry hentry]
  have hscale := scale_pos entry hentry
  have hle : decimal digits ≤ decimal digits * entry.2 := Nat.le_mul_of_pos_right _ hscale
  by_cases hfits : decimal digits * entry.2 < 2 ^ 64
  · rw [if_pos hfits, if_pos (Nat.lt_of_le_of_lt hle hfits)]
    simp only [Option.bind_eq_bind, Option.bind_some, checkedMul, if_pos hfits]
  · rw [if_neg hfits]
    split <;> simp only [Option.bind_eq_bind, Option.bind_some, Option.bind_none, checkedMul,
      if_neg hfits]

/-- What is read: one of the two words, or a positive number of seconds. An amount of nothing is
the same as the word for off. -/
theorem parse_cases {raw : Str} {setting : KeepWarm} (h : parse raw = some setting) :
    setting = off ∨ setting = always ∨
      ∃ secs, 0 < secs ∧ secs < 2 ^ 64 ∧ setting = ofSeconds secs := by
  unfold parse at h
  dsimp only at h
  split at h
  next => exact Or.inl (Option.some.inj h).symm
  split at h
  next => exact Or.inr (Or.inl (Option.some.inj h).symm)
  next =>
    obtain ⟨n, -, h⟩ := Option.bind_eq_some_iff.mp h
    obtain ⟨scale, -, h⟩ := Option.bind_eq_some_iff.mp h
    obtain ⟨secs, hsecs, h⟩ := Option.bind_eq_some_iff.mp h
    obtain rfl := Option.some.inj h
    unfold checkedMul at hsecs
    split at hsecs
    next hfits =>
      obtain rfl := Option.some.inj hsecs
      rcases Nat.eq_zero_or_pos (n * scale) with hzero | hpos
      · rw [hzero]
        exact Or.inl rfl
      · exact Or.inr (Or.inr ⟨_, hpos, hfits, rfl⟩)
    next => cases hsecs

/-- A number written in decimal, with a unit behind it. -/
theorem amount_showNat (n : Nat) (entry : String × Nat) (hentry : entry ∈ UNITS)
    (hlower : toAsciiLowercase entry.1.toList = entry.1.toList) :
    Amount (showNat n ++ entry.1.toList) n entry.2 :=
  ⟨[], showNat n, [], entry.1.toList, [], (List.append_nil _).symm,
    fun _ hc => absurd hc List.not_mem_nil, showNat_ne_nil n, fun _ hc => isDigit_showNat hc,
    (decimal_showNat n).symm, entry, hentry, hlower.symm, rfl⟩

/-- A window is told in the largest unit that it is a multiple of. -/
theorem describe_forWindow (d : Duration) : (forWindow d).describe =
    if d.secs.toNat % 3600 = 0 then showNat (d.secs.toNat / 3600) ++ "h".toList
    else if d.secs.toNat % 60 = 0 then showNat (d.secs.toNat / 60) ++ "m".toList
    else showNat d.secs.toNat ++ "s".toList := rfl

/-- So what is told is an amount of so many seconds. -/
theorem describe_seconds {secs : Nat} (hpos : 0 < secs) (hfits : secs < 2 ^ 64) :
    ∃ n scale, Amount (ofSeconds secs).describe n scale ∧ n * scale = secs := by
  have hvalue : (UInt64.ofNat secs).toNat = secs := UInt64.toNat_ofNat_of_lt' hfits
  unfold ofSeconds
  rw [if_neg hpos.ne', describe_forWindow]
  simp only [Duration.fromSecs, hvalue]
  split
  next hhours =>
    exact ⟨secs / 3600, 3600, amount_showNat _ ("h", 3600) (by decide) (by decide),
      by omega⟩
  split
  next hminutes =>
    exact ⟨secs / 60, 60, amount_showNat _ ("m", 60) (by decide) (by decide), by omega⟩
  next =>
    exact ⟨secs, 1, amount_showNat _ ("s", 1) (by decide) (by decide), by omega⟩

/-- **What is written reads back.** -/
theorem parse_describe {raw : Str} {setting : KeepWarm} (h : parse raw = some setting) :
    parse setting.describe = some setting := by
  rcases parse_cases h with rfl | rfl | ⟨secs, hpos, hfits, rfl⟩
  · decide +kernel
  · decide +kernel
  · obtain ⟨n, scale, hamount, hsecs⟩ := describe_seconds hpos hfits
    rw [parse_amount hamount, hsecs, if_pos hfits]

/-- **Keep-warm settings.**  Every setting that is read is written so that it reads back; and
a number with a unit is accepted exactly when its seconds fit 64 bits, is off exactly when
they are zero, and is that many seconds otherwise. -/
theorem keep_warm :
    (∀ raw setting, parse raw = some setting → parse setting.describe = some setting) ∧
      ∀ raw n scale, Amount raw n scale →
        ((parse raw).isSome ↔ n * scale < 2 ^ 64) ∧
        (parse raw = some off ↔ n * scale = 0) ∧
        (0 < n * scale → n * scale < 2 ^ 64 →
          parse raw = some (forWindow (.fromSecs (UInt64.ofNat (n * scale)))) ∧
            (UInt64.ofNat (n * scale)).toNat = n * scale) := by
  refine ⟨fun raw setting h => parse_describe h, ?_⟩
  intro raw n scale h
  rw [parse_amount h]
  refine ⟨?_, ?_, ?_⟩
  · split
    next hfits => exact iff_of_true rfl hfits
    next hfits => exact iff_of_false Bool.false_ne_true hfits
  · unfold ofSeconds
    by_cases hzero : n * scale = 0
    · rw [hzero]
      exact iff_of_true rfl rfl
    · rw [if_neg hzero]
      refine iff_of_false ?_ hzero
      split <;> nofun
  · intro hpos hfits
    rw [if_pos hfits, ofSeconds, if_neg hpos.ne']
    exact ⟨rfl, UInt64.toNat_ofNat_of_lt' hfits⟩

example : parse " 90 Min ".toList = some (ofSeconds 5400) ∧
    (ofSeconds 5400).describe = "90m".toList ∧
    parse "18446744073709551615h".toList = none := by decide +kernel

end KeepWarm

end BreezeHttp
