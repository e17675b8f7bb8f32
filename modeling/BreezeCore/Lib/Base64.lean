import BreezeCore.Lib.Text

/-!
# Base64

Three bytes are four digits of six bits each; one or two bytes left over are two or three
digits, filled up with zero bits, and with `=` where the text is padded.  The two alphabets
differ in their last two digits.

A strict reader takes only what such a writer writes, in the standard alphabet and without
padding.  What is written reads back (`decode_encode`).
-/

namespace Base64

open Bytes Text

/-- The two digits an alphabet chooses. -/
structure Alphabet where
  d62 : Char
  d63 : Char

def standard : Alphabet := ⟨'+', '/'⟩

def urlSafe : Alphabet := ⟨'-', '_'⟩

/-- The digit of a value below 64. -/
def digit (a : Alphabet) (n : Nat) : Char :=
  if n < 26 then Char.ofNat (65 + n)
  else if n < 52 then Char.ofNat (71 + n)
  else if n < 62 then Char.ofNat (n - 4)
  else if n = 62 then a.d62
  else a.d63

/-- Bytes as digits, without padding. -/
def encode (a : Alphabet) : Octets → Str
  | [] => []
  | [x] => [digit a (x.toNat / 4), digit a (x.toNat % 4 * 16)]
  | [x, y] =>
      [digit a (x.toNat / 4), digit a (x.toNat % 4 * 16 + y.toNat / 16),
        digit a (y.toNat % 16 * 4)]
  | x :: y :: z :: rest =>
      digit a (x.toNat / 4) :: digit a (x.toNat % 4 * 16 + y.toNat / 16) ::
        digit a (y.toNat % 16 * 4 + z.toNat / 64) :: digit a (z.toNat % 64) :: encode a rest

/-- The padding that makes whole groups of four. -/
def padding (bytes : Octets) : Str := List.replicate ((3 - bytes.length % 3) % 3) '='

def encodePadded (a : Alphabet) (bytes : Octets) : Str := encode a bytes ++ padding bytes

/-- The value of a digit of the standard alphabet. -/
def digitOf (c : Char) : Option Nat :=
  let n := c.toNat
  if 65 ≤ n ∧ n ≤ 90 then some (n - 65)
  else if 97 ≤ n ∧ n ≤ 122 then some (n - 71)
  else if 48 ≤ n ∧ n ≤ 57 then some (n + 4)
  else if c = '+' then some 62
  else if c = '/' then some 63
  else none

/-- Digits as bytes; the bits that fill the last digit must be zero. There is no padding here, so
that one digit alone is none. -/
def decode : Str → Option Octets
  | [] => some []
  | [_] => none
  | [a, b] => do
      let a ← digitOf a
      let b ← digitOf b
      if b % 16 = 0 then some [UInt8.ofNat (a * 4 + b / 16)] else none
  | [a, b, c] => do
      let a ← digitOf a
      let b ← digitOf b
      let c ← digitOf c
      if c % 4 = 0 then
        some [UInt8.ofNat (a * 4 + b / 16), UInt8.ofNat (b % 16 * 16 + c / 4)]
      else none
  | a :: b :: c :: d :: rest => do
      let a ← digitOf a
      let b ← digitOf b
      let c ← digitOf c
      let d ← digitOf d
      let bytes ← decode rest
      some (UInt8.ofNat (a * 4 + b / 16) :: UInt8.ofNat (b % 16 * 16 + c / 4) ::
        UInt8.ofNat (c % 4 * 64 + d) :: bytes)

example : encode standard [0xFB, 0xEF, 0xFF] = "++//".toList ∧
    encodePadded urlSafe [0xFB, 0xEF] = "--8=".toList ∧
    decode "++9".toList = none := by decide +kernel

/-! ## What is written reads back -/

theorem digitOf_digit {n : Nat} (h : n < 64) : digitOf (digit standard n) = some n := by
  have hall : ∀ n : Fin 64, digitOf (digit standard n) = some n.val := by decide +kernel
  exact hall ⟨n, h⟩

theorem ofNat_eq {x : UInt8} {n : Nat} (h : n = x.toNat) : UInt8.ofNat n = x := by
  rw [h, UInt8.ofNat_toNat]

/-- **What is written reads back**, group by group and for each length of the last one. One digit
or two of the last group are padding, and there the bits that are left over are zero. -/
theorem decode_encode (bytes : Octets) : decode (encode standard bytes) = some bytes := by
  induction bytes using encode.induct with
  | case1 => rfl
  | case2 x =>
      have hx := x.toNat_lt
      rw [encode, decode, digitOf_digit (by omega), digitOf_digit (by omega)]
      dsimp only [Option.bind_eq_bind, Option.bind_some]
      rw [if_pos (by omega), ofNat_eq (x := x) (by omega)]
  | case3 x y =>
      have hx := x.toNat_lt
      have hy := y.toNat_lt
      rw [encode, decode, digitOf_digit (by omega), digitOf_digit (by omega),
        digitOf_digit (by omega)]
      dsimp only [Option.bind_eq_bind, Option.bind_some]
      rw [if_pos (by omega), ofNat_eq (x := x) (by omega), ofNat_eq (x := y) (by omega)]
  | case4 x y z rest ih =>
      have hx := x.toNat_lt
      have hy := y.toNat_lt
      have hz := z.toNat_lt
      rw [encode, decode, digitOf_digit (by omega), digitOf_digit (by omega),
        digitOf_digit (by omega), digitOf_digit (by omega), ih]
      dsimp only [Option.bind_eq_bind, Option.bind_some]
      rw [ofNat_eq (x := x) (by omega), ofNat_eq (x := y) (by omega),
        ofNat_eq (x := z) (by omega)]

/-! ## The characters of an encoding -/

/-- Every character of an encoding is a digit. By the recursion of the encoding, one group at a
time. -/
theorem mem_encode {a : Alphabet} {bytes : Octets} {c : Char} (h : c ∈ encode a bytes) :
    ∃ n < 64, c = digit a n := by
  induction bytes using encode.induct with
  | case1 => cases h
  | case2 x =>
      have hx := x.toNat_lt
      rw [encode, List.mem_cons, List.mem_singleton] at h
      rcases h with rfl | rfl
      · exact ⟨_, by omega, rfl⟩
      · exact ⟨_, by omega, rfl⟩
  | case3 x y =>
      have hx := x.toNat_lt
      have hy := y.toNat_lt
      rw [encode, List.mem_cons, List.mem_cons, List.mem_singleton] at h
      rcases h with rfl | rfl | rfl
      · exact ⟨_, by omega, rfl⟩
      · exact ⟨_, by omega, rfl⟩
      · exact ⟨_, by omega, rfl⟩
  | case4 x y z rest ih =>
      have hx := x.toNat_lt
      have hy := y.toNat_lt
      have hz := z.toNat_lt
      rw [encode, List.mem_cons, List.mem_cons, List.mem_cons, List.mem_cons] at h
      rcases h with rfl | rfl | rfl | rfl | h
      · exact ⟨_, by omega, rfl⟩
      · exact ⟨_, by omega, rfl⟩
      · exact ⟨_, by omega, rfl⟩
      · exact ⟨_, by omega, rfl⟩
      · exact ih h

/-- A translation that takes the digits of one alphabet to those of another takes the
encodings along. -/
theorem map_encode {a b : Alphabet} {f : Char → Char}
    (hf : ∀ n < 64, f (digit a n) = digit b n) (bytes : Octets) :
    (encode a bytes).map f = encode b bytes := by
  induction bytes using encode.induct with
  | case1 => rfl
  | case2 x =>
      have hx := x.toNat_lt
      simp only [encode, List.map_cons, List.map_nil]
      rw [hf _ (by omega), hf _ (by omega)]
  | case3 x y =>
      have hx := x.toNat_lt
      have hy := y.toNat_lt
      simp only [encode, List.map_cons, List.map_nil]
      rw [hf _ (by omega), hf _ (by omega), hf _ (by omega)]
  | case4 x y z rest ih =>
      have hx := x.toNat_lt
      have hy := y.toNat_lt
      have hz := z.toNat_lt
      simp only [encode, List.map_cons]
      rw [hf _ (by omega), hf _ (by omega), hf _ (by omega), hf _ (by omega), ih]

end Base64
