import BreezeCore.Lib.Numerals
import BreezeCore.Lib.Utf8

/-!
# The query string

Two routes take a parameter.  Its value is read by hand: the first pair with the name, with `+`
and `%XX` in its value undone.

* `percentBytes_encoded` — what a form encodes is decoded, however it chose between the ways to
  write a byte;
* `query_value` — so a parameter that was sent is the parameter that is read.
-/

namespace BreezeHttp.Query

open Bytes Text

/-- The byte that two hexadecimal digits stand for.  The two bytes of one character are no
digits. -/
def hexByte (high low : UInt8) : Option UInt8 :=
  if high.toNat < 128 ∧ low.toNat < 128 then
    (fromStrRadix 16 256 [Char.ofNat high.toNat, Char.ofNat low.toNat]).map UInt8.ofNat
  else none

def percentBytes : Octets → Octets
  | 0x25 :: high :: low :: rest =>
      match hexByte high low with
      | some byte => byte :: percentBytes rest
      | none => 0x25 :: percentBytes (high :: low :: rest)
  | byte :: rest => byte :: percentBytes rest
  | [] => []

def percentDecode (text : Str) : Str := fromUtf8Lossy (percentBytes (toUtf8 text))

/-- `replace('+', " ")`. -/
def spaced (text : Str) : Str := text.map fun c => if c = '+' then ' ' else c

/-- The value in a pair of the name.  A bare flag is skipped. -/
def pairValue (key pair : Str) : Option Str :=
  match splitOnce '=' pair with
  | some (k, v) => if k = key then some (percentDecode (spaced v)) else none
  | none => none

/-- Read one value out of a raw query string. -/
def queryValue (query key : Str) : Option Str := (split '&' query).findSome? (pairValue key)

/-! ## What is sent -/

/-- A way to write bytes in a form: a character as it is, a space as a plus sign, and any byte as
two hexadecimal digits behind a percent sign. -/
inductive FormEncodes : Octets → Str → Prop
  | nil : FormEncodes [] []
  | plain {bytes : Octets} {text : Str} {c : Char} (hc : c ≠ '%' ∧ c ≠ '+' ∧ c ≠ '&')
      (h : FormEncodes bytes text) : FormEncodes (String.utf8EncodeChar c ++ bytes) (c :: text)
  | space {bytes : Octets} {text : Str} (h : FormEncodes bytes text) :
      FormEncodes (0x20 :: bytes) ('+' :: text)
  | escaped {byte : UInt8} {high low : Char} {bytes : Octets} {text : Str}
      (hbyte : Numeral 16 [high, low] byte.toNat) (h : FormEncodes bytes text) :
      FormEncodes (byte :: bytes) ('%' :: high :: low :: text)

/-- A parameter, or a bare flag. -/
structure Param where
  name : Str
  value : Option Str

/-- The text of a parameter.  A name is not encoded. -/
structure Param.Sent (p : Param) (text : Str) : Prop where
  name : '&' ∉ p.name ∧ '=' ∉ p.name
  text : match p.value with
    | none => text = p.name
    | some value => ∃ encoded, FormEncodes (toUtf8 value) encoded ∧
        text = p.name ++ '=' :: encoded

/-! ## Bytes -/

theorem percentBytes_cons {byte : UInt8} (h : byte ≠ 0x25) (rest : Octets) :
    percentBytes (byte :: rest) = byte :: percentBytes rest := by
  rw [percentBytes]
  intro high low rest' hbyte
  exact absurd hbyte h

theorem percentBytes_append {bytes : Octets} (h : ∀ byte ∈ bytes, byte ≠ 0x25) (rest : Octets) :
    percentBytes (bytes ++ rest) = bytes ++ percentBytes rest := by
  induction bytes with
  | nil => rfl
  | cons byte bytes ih =>
      obtain ⟨hbyte, hbytes⟩ := List.forall_mem_cons.mp h
      rw [List.cons_append, percentBytes_cons hbyte, ih hbytes, List.cons_append]

/-- The bytes of an ASCII character. -/
theorem utf8EncodeChar_ascii {c : Char} (h : c.toNat < 128) :
    String.utf8EncodeChar c = [UInt8.ofNat c.toNat] := by
  have hsize : c.utf8Size = 1 := by
    rw [Char.utf8Size_eq_one_iff, UInt32.le_iff_toNat_le]
    exact Nat.le_of_lt_succ h
  rw [String.utf8EncodeChar_eq_singleton hsize]
  rfl

/-- No byte of a character looks like a percent sign, but that of the percent sign. A character of
one byte is that byte, and the bytes of longer ones all have the high bit set. -/
theorem percent_notMem {c : Char} (h : c ≠ '%') :
    ∀ byte ∈ String.utf8EncodeChar c, byte ≠ 0x25 := by
  have hhigh : ∀ x y : UInt8, 0x80 ≤ y.toNat → x ||| y ≠ 0x25 := by
    intro x y hy heq
    have hle : y.toNat ≤ (x ||| y).toNat := by
      rw [UInt8.toNat_or]
      exact Nat.right_le_or
    rw [heq] at hle
    exact absurd (hy.trans hle) (by decide)
  intro byte hbyte
  rcases Char.utf8Size_eq c with hsize | hsize | hsize | hsize
  · have hascii : c.toNat < 128 :=
      Nat.lt_succ_of_le (UInt32.le_iff_toNat_le.mp (Char.utf8Size_eq_one_iff.mp hsize))
    rw [utf8EncodeChar_ascii hascii, List.mem_singleton] at hbyte
    rintro rfl
    have hnat := congrArg UInt8.toNat hbyte
    rw [UInt8.toNat_ofNat', Nat.mod_eq_of_lt (by omega)] at hnat
    exact h (Char.toNat_inj.mp hnat.symm)
  · rw [String.utf8EncodeChar_eq_cons_cons hsize] at hbyte
    simp only [List.mem_cons, List.not_mem_nil, or_false] at hbyte
    rcases hbyte with rfl | rfl <;> exact hhigh _ _ (by decide)
  · rw [String.utf8EncodeChar_eq_cons_cons_cons hsize] at hbyte
    simp only [List.mem_cons, List.not_mem_nil, or_false] at hbyte
    rcases hbyte with rfl | rfl | rfl <;> exact hhigh _ _ (by decide)
  · rw [String.utf8EncodeChar_eq_cons_cons_cons_cons hsize] at hbyte
    simp only [List.mem_cons, List.not_mem_nil, or_false] at hbyte
    rcases hbyte with rfl | rfl | rfl | rfl <;> exact hhigh _ _ (by decide)

/-- A digit is one byte, and none of the characters a query string is divided at. -/
theorem digit_bounds {c : Char} (h : IsDigitIn 16 c) :
    c.toNat < 128 ∧ c ≠ '%' ∧ c ≠ '+' ∧ c ≠ '&' := by
  refine ⟨toNat_lt_of_isDigitIn h, ?_, ?_, ?_⟩ <;>
    · rintro rfl
      exact absurd h (by decide)

/-- **Two digits** are read as the byte they are written for. -/
theorem hexByte_eq {high low : Char} {byte : UInt8} (h : Numeral 16 [high, low] byte.toNat) :
    hexByte (UInt8.ofNat high.toNat) (UInt8.ofNat low.toNat) = some byte := by
  have hhigh := (digit_bounds (h.2.1 high List.mem_cons_self)).1
  have hlow := (digit_bounds (h.2.1 low (List.mem_cons_of_mem _ List.mem_cons_self))).1
  have hbyte : ∀ {c : Char}, c.toNat < 128 → (UInt8.ofNat c.toNat).toNat = c.toNat := by
    intro c hc
    rw [UInt8.toNat_ofNat', Nat.mod_eq_of_lt (by omega)]
  have hread : fromStrRadix 16 256 [high, low] = some byte.toNat :=
    (fromStrRadix_eq_some (by decide) (by decide)).mpr ⟨_, .inl rfl, h, byte.toNat_lt⟩
  rw [hexByte, hbyte hhigh, hbyte hlow, if_pos ⟨hhigh, hlow⟩, Char.ofNat_toNat,
    Char.ofNat_toNat, hread, Option.map_some, UInt8.ofNat_toNat]

/-! ## What is read -/

theorem spaced_cons {c : Char} (h : c ≠ '+') (text : Str) :
    toUtf8 (spaced (c :: text)) = String.utf8EncodeChar c ++ toUtf8 (spaced text) := by
  rw [spaced, List.map_cons, if_neg h]
  rfl

/-- **What a form encodes** is decoded. -/
theorem percentBytes_encoded {bytes : Octets} {text : Str} (h : FormEncodes bytes text) :
    percentBytes (toUtf8 (spaced text)) = bytes := by
  induction h with
  | nil => rfl
  | @plain bytes text c hc _ ih =>
      rw [spaced_cons hc.2.1, percentBytes_append (percent_notMem hc.1), ih]
  | @space bytes text _ ih =>
      change percentBytes (0x20 :: toUtf8 (spaced text)) = _
      rw [percentBytes_cons (by decide), ih]
  | @escaped byte high low bytes text hbyte _ ih =>
      obtain ⟨hhigh, -, hhighPlus, -⟩ := digit_bounds (hbyte.2.1 high List.mem_cons_self)
      obtain ⟨hlow, -, hlowPlus, -⟩ :=
        digit_bounds (hbyte.2.1 low (List.mem_cons_of_mem _ List.mem_cons_self))
      rw [spaced_cons (by decide), spaced_cons hhighPlus, spaced_cons hlowPlus,
        utf8EncodeChar_ascii hhigh, utf8EncodeChar_ascii hlow]
      change percentBytes (0x25 :: UInt8.ofNat high.toNat :: UInt8.ofNat low.toNat :: _) = _
      rw [percentBytes, hexByte_eq hbyte]
      exact congrArg _ ih

theorem percentDecode_encoded {value encoded : Str} (h : FormEncodes (toUtf8 value) encoded) :
    percentDecode (spaced encoded) = value := by
  rw [percentDecode, percentBytes_encoded h, Utf8.fromUtf8Lossy_toUtf8]

/-- No pair ends inside a value. -/
theorem FormEncodes.notMem {bytes : Octets} {text : Str} (h : FormEncodes bytes text) :
    '&' ∉ text := by
  induction h with
  | nil => exact List.not_mem_nil
  | plain hc _ ih => exact List.not_mem_cons_of_ne_of_not_mem hc.2.2.symm ih
  | space _ ih => exact List.not_mem_cons_of_ne_of_not_mem (by decide) ih
  | @escaped _ high low _ _ hbyte _ ih =>
      have hhigh := digit_bounds (hbyte.2.1 high List.mem_cons_self)
      have hlow := digit_bounds (hbyte.2.1 low (List.mem_cons_of_mem _ List.mem_cons_self))
      simp only [List.mem_cons, not_or]
      exact ⟨by decide, hhigh.2.2.2.symm, hlow.2.2.2.symm, ih⟩

/-- One pair. The first equals sign ends the name, which holds none itself, and a pair without one
has no value at all. -/
theorem pairValue_sent {p : Param} {text : Str} (h : p.Sent text) (key : Str) :
    '&' ∉ text ∧ pairValue key text = if p.name = key then p.value else none := by
  obtain ⟨⟨hamp, hequals⟩, htext⟩ := h
  unfold pairValue
  cases hvalue : p.value with
  | none =>
      rw [hvalue] at htext
      obtain rfl : text = p.name := htext
      have hsplit : splitOnce '=' p.name = none := by
        cases h : splitOnce '=' p.name with
        | none => rfl
        | some pieces =>
            obtain ⟨hname, -⟩ := splitOnce_eq_some.mp h
            exact absurd (hname ▸ List.mem_append_right _ List.mem_cons_self) hequals
      rw [hsplit, ite_self]
      exact ⟨hamp, rfl⟩
  | some value =>
      rw [hvalue] at htext
      obtain ⟨encoded, hencoded, rfl⟩ := htext
      refine ⟨?_, ?_⟩
      · simp only [List.mem_append, List.mem_cons, not_or]
        exact ⟨hamp, by decide, hencoded.notMem⟩
      · rw [splitOnce_eq_some.mpr ⟨rfl, hequals⟩]
        dsimp only
        rw [percentDecode_encoded hencoded]

/-- **A parameter that is sent is read**: the first value of the name, whatever flags and other
parameters are sent with it, and however the bytes of the value are written. -/
theorem query_value {params : List Param} {texts : List Str}
    (h : List.Forall₂ Param.Sent params texts) (key : Str) :
    queryValue (['&'].intercalate texts) key =
      params.findSome? fun p => if p.name = key then p.value else none := by
  have hpieces : ∀ text ∈ texts, '&' ∉ text := by
    induction h with
    | nil => exact List.forall_mem_nil _
    | cons hp _ ih => exact List.forall_mem_cons.mpr ⟨(pairValue_sent hp key).1, ih⟩
  have hvalues : texts.findSome? (pairValue key) =
      params.findSome? fun p => if p.name = key then p.value else none := by
    clear hpieces
    induction h with
    | nil => rfl
    | cons hp _ ih => rw [List.findSome?_cons, List.findSome?_cons, (pairValue_sent hp key).2, ih]
  unfold queryValue
  by_cases hnil : texts = []
  · subst hnil
    rw [← hvalues]
    rfl
  · rw [split_intercalate hnil hpieces, hvalues]

/-- Characters that are none of the three are written as they are. -/
theorem FormEncodes.plainText {front : Str} (hfront : ∀ c ∈ front, c ≠ '%' ∧ c ≠ '+' ∧ c ≠ '&')
    {bytes : Octets} {text : Str} (h : FormEncodes bytes text) :
    FormEncodes (toUtf8 front ++ bytes) (front ++ text) := by
  induction front with
  | nil => exact h
  | cons c front ih =>
      obtain ⟨hc, hrest⟩ := List.forall_mem_cons.mp hfront
      have hplain := (ih hrest).plain hc
      rw [← List.append_assoc] at hplain
      exact hplain

/-- A scan of a subnet, after a bare flag. -/
theorem query_value_subnet :
    queryValue (['&'].intercalate ["verbose".toList, "subnet=10.0.0.0%2F24".toList])
        "subnet".toList = some "10.0.0.0/24".toList := by
  have hencoded : FormEncodes (toUtf8 "10.0.0.0/24".toList) "10.0.0.0%2F24".toList := by
    have hback : FormEncodes (toUtf8 "24".toList) "24".toList :=
      FormEncodes.nil.plainText (by simp : ∀ c ∈ "24".toList, c ≠ '%' ∧ c ≠ '+' ∧ c ≠ '&')
    have htwo : IsDigitIn 16 '2' := by decide
    have hfifteen : IsDigitIn 16 'F' := by decide
    have hbyte : Numeral 16 ['2', 'F'] (0x2F : UInt8).toNat :=
      ⟨by simp, by simp [htwo, hfifteen], by decide⟩
    have hslash : FormEncodes (0x2F :: toUtf8 "24".toList) "%2F24".toList := .escaped hbyte hback
    exact hslash.plainText
      (by simp : ∀ c ∈ "10.0.0.0".toList, c ≠ '%' ∧ c ≠ '+' ∧ c ≠ '&')
  have hparams : List.Forall₂ Param.Sent
      [⟨"verbose".toList, none⟩, ⟨"subnet".toList, some "10.0.0.0/24".toList⟩]
      ["verbose".toList, "subnet=10.0.0.0%2F24".toList] :=
    .cons ⟨by decide, rfl⟩ (.cons ⟨by decide, _, hencoded, rfl⟩ .nil)
  rw [query_value hparams]
  decide

end BreezeHttp.Query
