import BreezeCore.Lib.Text

/-!
# UTF-8 read as it arrives

A decoder that is given a few bytes at a time keeps those of a character that is not complete
yet, and replaces what cannot become one.

* `feed_append` — it does not matter how the bytes are cut;
* `feed_toUtf8` — the bytes of a text are read as the text;
* `fromUtf8Lossy_eq` — a reader that has all of them at once reads the same.
-/

namespace Utf8

open Bytes Text

/-- A character that has begun. -/
structure Partial where
  /-- The bytes still to come, and what the next of them may be. -/
  needed : Nat
  lo : UInt8
  hi : UInt8
  acc : Nat
  deriving DecidableEq, Repr

/-- What stands for bytes that are no character. -/
def replacement : Char := Char.ofNat 0xFFFD

/-- A byte where a character begins. -/
def start (byte : UInt8) : Option Partial × List Char :=
  if byte < 0x80 then (none, [Char.ofNat byte.toNat])
  else
    match utf8Lead byte with
    | none => (none, [replacement])
    | some (count, lo, hi, bits) => (some ⟨count, lo, hi, bits⟩, [])

/-- One byte: it begins a character, goes on with one, or ends it; a byte that cannot be the next
one ends it as a replacement and is looked at again. -/
def push (state : Option Partial) (byte : UInt8) : Option Partial × List Char :=
  match state with
  | none => start byte
  | some p =>
      if p.lo ≤ byte ∧ byte ≤ p.hi then
        let acc := p.acc * 64 + (byte.toNat - 0x80)
        if p.needed = 1 then (none, [Char.ofNat acc])
        else (some ⟨p.needed - 1, 0x80, 0xBF, acc⟩, [])
      else
        -- The byte is looked at again, as the first of another character.
        let (state, out) := start byte
        (state, replacement :: out)

/-- Byte by byte, with what is left of a character at the end. -/
def feed (state : Option Partial) : Octets → Option Partial × List Char
  | [] => (state, [])
  | byte :: bytes =>
      let (next, out) := push state byte
      let (last, more) := feed next bytes
      (last, out ++ more)

/-- The first byte, and then the rest. -/
theorem feed_cons (state : Option Partial) (byte : UInt8) (bytes : Octets) :
    feed state (byte :: bytes) = ((feed (push state byte).1 bytes).1,
      (push state byte).2 ++ (feed (push state byte).1 bytes).2) := rfl

/-- **It does not matter how the bytes are cut.** -/
theorem feed_append (xs ys : Octets) (state : Option Partial) :
    feed state (xs ++ ys) =
      ((feed (feed state xs).1 ys).1, (feed state xs).2 ++ (feed (feed state xs).1 ys).2) := by
  induction xs generalizing state with
  | nil => rfl
  | cons byte xs ih =>
      rw [List.cons_append, feed_cons, feed_cons, ih]
      exact Prod.ext rfl (List.append_assoc _ _ _).symm

/-! ## A character at a time -/

/-- A byte that goes on with a character of more bytes. -/
theorem push_more {p : Partial} {byte : UInt8} (hlo : p.lo.toNat ≤ byte.toNat)
    (hhi : byte.toNat ≤ p.hi.toNat) (hneeded : p.needed ≠ 1) :
    push (some p) byte =
      (some ⟨p.needed - 1, 0x80, 0xBF, p.acc * 64 + (byte.toNat - 0x80)⟩, []) := by
  unfold push
  dsimp only
  rw [if_pos ⟨UInt8.le_iff_toNat_le.mpr hlo, UInt8.le_iff_toNat_le.mpr hhi⟩, if_neg hneeded]

/-- The last byte of a character. -/
theorem push_last {p : Partial} {byte : UInt8} (hlo : p.lo.toNat ≤ byte.toNat)
    (hhi : byte.toNat ≤ p.hi.toNat) (hneeded : p.needed = 1) :
    push (some p) byte = (none, [Char.ofNat (p.acc * 64 + (byte.toNat - 0x80))]) := by
  unfold push
  dsimp only
  rw [if_pos ⟨UInt8.le_iff_toNat_le.mpr hlo, UInt8.le_iff_toNat_le.mpr hhi⟩, if_pos hneeded]

/-- A byte that leads a character. -/
theorem push_lead {byte : UInt8} {count bits : Nat} {lo hi : UInt8} (hbyte : 0x80 ≤ byte.toNat)
    (h : utf8Lead byte = some (count, lo, hi, bits)) :
    push none byte = (some ⟨count, lo, hi, bits⟩, []) := by
  change start byte = _
  unfold start
  rw [if_neg (by rw [UInt8.lt_iff_toNat_lt]; exact Nat.not_lt.mpr hbyte), h]

/-- A number below 256 is a byte. -/
private theorem toNat_byte {n : Nat} (h : n < 256) : (UInt8.ofNat n).toNat = n := by
  rw [UInt8.toNat_ofNat']
  exact Nat.mod_eq_of_lt h

/-- The two bytes of a character. -/
theorem feed_two {v : Nat} (hlow : 0x80 ≤ v) (hhigh : v ≤ 0x7FF) :
    feed none [UInt8.ofNat (v / 64 % 32 + 0xC0), UInt8.ofNat (v % 64 + 0x80)] =
      (none, [Char.ofNat v]) := by
  have hfirst := @toNat_byte (v / 64 % 32 + 0xC0) (by omega)
  have hsecond := @toNat_byte (v % 64 + 0x80) (by omega)
  have hlead : utf8Lead (UInt8.ofNat (v / 64 % 32 + 0xC0)) = some (1, 0x80, 0xBF, v / 64) := by
    unfold utf8Lead
    dsimp only
    rw [hfirst, if_pos (by omega)]
    exact congrArg (fun n => some (1, 0x80, 0xBF, n)) (by omega)
  simp only [feed]
  rw [push_lead (by omega) hlead, push_last (by rw [hsecond]; exact Nat.le_add_left _ _)
    (by rw [hsecond]; change _ ≤ 0xBF; omega) rfl, hsecond]
  dsimp only
  rw [show v / 64 * 64 + (v % 64 + 0x80 - 0x80) = v by omega]
  rfl

/-- What may come second after the leading byte of three. After 0xE0 it is bounded below, as
shorter forms would do, and after 0xED above, where the surrogates begin. -/
private theorem lead_three {v : Nat} (hlow : 0x800 ≤ v) (hhigh : v ≤ 0xFFFF)
    (hvalid : v < 0xD800 ∨ 0xDFFF < v) :
    ∃ lo hi : UInt8, utf8Lead (UInt8.ofNat (v / 4096 % 16 + 0xE0)) = some (2, lo, hi, v / 4096) ∧
      lo.toNat ≤ v / 64 % 64 + 0x80 ∧ v / 64 % 64 + 0x80 ≤ hi.toNat := by
  have hfirst := @toNat_byte (v / 4096 % 16 + 0xE0) (by omega)
  unfold utf8Lead
  dsimp only
  rw [hfirst, if_neg (by omega)]
  by_cases hE0 : v / 4096 % 16 + 0xE0 = 0xE0
  · rw [if_pos hE0]
    refine ⟨0xA0, 0xBF, ?_, ?_, ?_⟩
    · exact congrArg (fun n => some (2, 0xA0, 0xBF, n)) (by omega)
    · change 0xA0 ≤ _
      omega
    · change _ ≤ 0xBF
      omega
  rw [if_neg hE0]
  by_cases hED : v / 4096 % 16 + 0xE0 = 0xED
  · rw [if_pos hED]
    refine ⟨0x80, 0x9F, ?_, ?_, ?_⟩
    · exact congrArg (fun n => some (2, 0x80, 0x9F, n)) (by omega)
    · exact Nat.le_add_left _ _
    · change _ ≤ 0x9F
      omega
  rw [if_neg hED, if_pos (by omega)]
  refine ⟨0x80, 0xBF, ?_, ?_, ?_⟩
  · exact congrArg (fun n => some (2, 0x80, 0xBF, n)) (by omega)
  · exact Nat.le_add_left _ _
  · change _ ≤ 0xBF
    omega

/-- The three bytes of one. -/
theorem feed_three {v : Nat} (hlow : 0x800 ≤ v) (hhigh : v ≤ 0xFFFF)
    (hvalid : v < 0xD800 ∨ 0xDFFF < v) :
    feed none [UInt8.ofNat (v / 4096 % 16 + 0xE0), UInt8.ofNat (v / 64 % 64 + 0x80),
      UInt8.ofNat (v % 64 + 0x80)] = (none, [Char.ofNat v]) := by
  have hfirst := @toNat_byte (v / 4096 % 16 + 0xE0) (by omega)
  have hsecond := @toNat_byte (v / 64 % 64 + 0x80) (by omega)
  have hthird := @toNat_byte (v % 64 + 0x80) (by omega)
  obtain ⟨lo, hi, hlead, hlo, hhi⟩ := lead_three hlow hhigh hvalid
  simp only [feed]
  rw [push_lead (by omega) hlead, push_more (by rw [hsecond]; exact hlo)
    (by rw [hsecond]; exact hhi) (by simp), hsecond,
    push_last (by rw [hthird]; exact Nat.le_add_left _ _)
    (by rw [hthird]; change _ ≤ 0xBF; omega) rfl, hthird]
  dsimp only
  rw [show (v / 4096 * 64 + (v / 64 % 64 + 0x80 - 0x80)) * 64 + (v % 64 + 0x80 - 0x80) = v by omega]
  rfl

/-- What may come second after the leading byte of four. After 0xF0 it is bounded below, as
shorter forms would do, and after 0xF4 above, where the last character is. -/
private theorem lead_four {v : Nat} (hlow : 0x10000 ≤ v) (hhigh : v < 0x110000) :
    ∃ lo hi : UInt8, utf8Lead (UInt8.ofNat (v / 262144 % 8 + 0xF0)) =
        some (3, lo, hi, v / 262144) ∧
      lo.toNat ≤ v / 4096 % 64 + 0x80 ∧ v / 4096 % 64 + 0x80 ≤ hi.toNat := by
  have hfirst := @toNat_byte (v / 262144 % 8 + 0xF0) (by omega)
  unfold utf8Lead
  dsimp only
  rw [hfirst, if_neg (by omega), if_neg (by omega), if_neg (by omega), if_neg (by omega)]
  by_cases hF0 : v / 262144 % 8 + 0xF0 = 0xF0
  · rw [if_pos hF0]
    refine ⟨0x90, 0xBF, ?_, ?_, ?_⟩
    · exact congrArg (fun n => some (3, 0x90, 0xBF, n)) (by omega)
    · change 0x90 ≤ _
      omega
    · change _ ≤ 0xBF
      omega
  rw [if_neg hF0]
  by_cases hmid : 0xF1 ≤ v / 262144 % 8 + 0xF0 ∧ v / 262144 % 8 + 0xF0 ≤ 0xF3
  · rw [if_pos hmid]
    refine ⟨0x80, 0xBF, ?_, ?_, ?_⟩
    · exact congrArg (fun n => some (3, 0x80, 0xBF, n)) (by omega)
    · exact Nat.le_add_left _ _
    · change _ ≤ 0xBF
      omega
  rw [if_neg hmid, if_pos (by omega)]
  refine ⟨0x80, 0x8F, ?_, ?_, ?_⟩
  · exact congrArg (fun n => some (3, 0x80, 0x8F, n)) (by omega)
  · exact Nat.le_add_left _ _
  · change _ ≤ 0x8F
    omega

/-- The four bytes of one. -/
theorem feed_four {v : Nat} (hlow : 0x10000 ≤ v) (hhigh : v < 0x110000) :
    feed none [UInt8.ofNat (v / 262144 % 8 + 0xF0), UInt8.ofNat (v / 4096 % 64 + 0x80),
      UInt8.ofNat (v / 64 % 64 + 0x80), UInt8.ofNat (v % 64 + 0x80)] =
      (none, [Char.ofNat v]) := by
  have hfirst := @toNat_byte (v / 262144 % 8 + 0xF0) (by omega)
  have hsecond := @toNat_byte (v / 4096 % 64 + 0x80) (by omega)
  have hthird := @toNat_byte (v / 64 % 64 + 0x80) (by omega)
  have hfourth := @toNat_byte (v % 64 + 0x80) (by omega)
  obtain ⟨lo, hi, hlead, hlo, hhi⟩ := lead_four hlow hhigh
  simp only [feed]
  rw [push_lead (by omega) hlead, push_more (by rw [hsecond]; exact hlo)
    (by rw [hsecond]; exact hhi) (by simp), hsecond,
    push_more (by rw [hthird]; exact Nat.le_add_left _ _)
    (by rw [hthird]; change _ ≤ 0xBF; omega) (by simp), hthird,
    push_last (by rw [hfourth]; exact Nat.le_add_left _ _)
    (by rw [hfourth]; change _ ≤ 0xBF; omega) rfl, hfourth]
  dsimp only
  rw [show ((v / 262144 * 64 + (v / 4096 % 64 + 0x80 - 0x80)) * 64 +
    (v / 64 % 64 + 0x80 - 0x80)) * 64 + (v % 64 + 0x80 - 0x80) = v by omega]
  rfl

/-- **The bytes of a character** are read as the character. One case for each length, and in each
the bytes are fed one by one, every one within the bounds left by those before it. -/
theorem feed_utf8EncodeChar (c : Char) : feed none (String.utf8EncodeChar c) = (none, [c]) := by
  have hvalid : c.toNat < 0xD800 ∨ 0xDFFF < c.toNat ∧ c.toNat < 0x110000 := c.valid
  have hchar : Char.ofNat c.toNat = c := Char.ofNat_toNat c
  unfold String.utf8EncodeChar
  change feed none (if c.toNat ≤ 0x7f then _ else if c.toNat ≤ 0x7ff then _
    else if c.toNat ≤ 0xffff then _ else _) = _
  split
  next hone =>
    have hbyte := @toNat_byte c.toNat (by omega)
    have hsmall : UInt8.ofNat c.toNat < 0x80 := by
      rw [UInt8.lt_iff_toNat_lt, hbyte]
      change _ < 0x80
      omega
    change feed none [UInt8.ofNat c.toNat] = _
    simp only [feed, push, start]
    rw [if_pos hsmall, hbyte, hchar]
    rfl
  next hone =>
    split
    next htwo => exact (feed_two (by omega) htwo).trans (by rw [hchar])
    next htwo =>
      split
      next hthree => exact (feed_three (by omega) hthree (by omega)).trans (by rw [hchar])
      next hthree =>
        exact (@feed_four c.toNat (by omega) (by omega)).trans (by rw [hchar])

/-- **The bytes of a text** are read as the text. -/
theorem feed_toUtf8 (text : List Char) : feed none (toUtf8 text) = (none, text) := by
  induction text with
  | nil => rfl
  | cons c text ih =>
      change feed none (String.utf8EncodeChar c ++ toUtf8 text) = _
      rw [feed_append, feed_utf8EncodeChar, ih]
      rfl

/-! ## All bytes at once -/

/-- What is read when nothing more arrives: a character that has begun is replaced. -/
def finish (read : Option Partial × List Char) : List Char :=
  read.2 ++ if read.1.isSome then [replacement] else []

/-- What comes out of bytes comes out of the first and then of the rest. -/
theorem finish_cons (state : Option Partial) (byte : UInt8) (bytes : Octets) :
    finish (feed state (byte :: bytes)) =
      (push state byte).2 ++ finish (feed (push state byte).1 bytes) := by
  rw [feed_cons, finish, finish, List.append_assoc]

/-- Continuation bytes taken together are taken one by one. -/
theorem finish_tail (bytes : Octets) {count acc : Nat} {lo hi : UInt8} (hcount : 1 ≤ count) :
    finish (feed (some ⟨count, lo, hi, acc⟩) bytes) =
      match utf8Tail count lo hi acc bytes with
      | (some n, rest) => Char.ofNat n :: finish (feed none rest)
      | (none, rest) => replacement :: finish (feed none rest) := by
  obtain ⟨count, rfl⟩ := Nat.exists_eq_add_of_le' hcount
  clear hcount
  induction bytes generalizing count acc lo hi with
  | nil => rfl
  | cons byte bytes ih =>
      rw [finish_cons, utf8Tail, push]
      dsimp only
      by_cases hbyte : lo ≤ byte ∧ byte ≤ hi
      · rw [if_pos hbyte, if_pos hbyte]
        cases count with
        | zero => rfl
        | succ count => exact ih count
      · rw [if_neg hbyte, if_neg hbyte]
        dsimp only
        rw [finish_cons]
        rfl

/-- Looking for the bytes of a character takes some away or none. -/
theorem utf8Tail_length (bytes : Octets) {count acc : Nat} {lo hi : UInt8} :
    (utf8Tail count lo hi acc bytes).2.length ≤ bytes.length := by
  induction bytes generalizing count acc lo hi with
  | nil => cases count <;> exact Nat.le_refl 0
  | cons byte bytes ih =>
      cases count with
      | zero => exact Nat.le_refl _
      | succ count =>
          rw [utf8Tail]
          split
          next => exact Nat.le_succ_of_le ih
          next => exact Nat.le_refl _

/-- A byte that begins a longer character is followed by one at least. -/
theorem utf8Lead_pos {byte lo hi : UInt8} {count bits : Nat}
    (h : utf8Lead byte = some (count, lo, hi, bits)) : 1 ≤ count := by
  unfold utf8Lead at h
  dsimp only at h
  split_ifs at h <;> obtain ⟨rfl, -⟩ := Prod.mk.inj (Option.some.inj h) <;> decide

/-- Decoding at once is decoding byte by byte, if the fuel lasts; each round uses a byte of it. -/
theorem fromUtf8LossyFrom_eq {fuel : Nat} {bytes : Octets} (h : bytes.length ≤ fuel) :
    fromUtf8LossyFrom fuel bytes = finish (feed none bytes) := by
  induction fuel generalizing bytes with
  | zero =>
      obtain rfl := List.length_eq_zero_iff.mp (Nat.le_zero.mp h)
      rfl
  | succ fuel ih =>
      cases bytes with
      | nil => rfl
      | cons byte bytes =>
          rw [List.length_cons] at h
          rw [fromUtf8LossyFrom, finish_cons, push, start]
          by_cases hascii : byte < 0x80
          · rw [if_pos hascii, if_pos hascii, ih (by omega)]
            rfl
          · rw [if_neg hascii, if_neg hascii]
            cases hlead : utf8Lead byte with
            | none =>
                dsimp only
                rw [ih (by omega)]
                rfl
            | some lead =>
                obtain ⟨count, lo, hi, bits⟩ := lead
                have hlength := @utf8Tail_length bytes count bits lo hi
                dsimp only
                rw [List.nil_append, finish_tail bytes (utf8Lead_pos hlead)]
                rcases htail : utf8Tail count lo hi bits bytes with ⟨_ | n, rest⟩
                · rw [htail] at hlength
                  exact congrArg _ (ih (Nat.le_trans hlength (by omega)))
                · rw [htail] at hlength
                  exact congrArg _ (ih (Nat.le_trans hlength (by omega)))

/-- **All bytes at once** are read as when they arrive one by one. -/
theorem fromUtf8Lossy_eq (bytes : Octets) : fromUtf8Lossy bytes = finish (feed none bytes) :=
  fromUtf8LossyFrom_eq (Nat.le_refl _)

/-- A text that is written and read is the text. -/
theorem fromUtf8Lossy_toUtf8 (text : List Char) : fromUtf8Lossy (toUtf8 text) = text := by
  rw [fromUtf8Lossy_eq, feed_toUtf8]
  exact List.append_nil text

end Utf8
