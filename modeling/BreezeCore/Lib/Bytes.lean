import BreezeCore.Lib.Exec
import Mathlib.Data.List.Basic
import Mathlib.Tactic.Ring

/-!
# Bytes, fixed-length arrays and numbers written in bytes

The vocabulary of binary formats: byte strings, arrays whose length is part of
their type, and unsigned numbers written least or most significant byte first.
-/

namespace Bytes

open Fallible

/-- A byte string. -/
abbrev Octets := List UInt8

/-- An array of exactly `n` bytes. -/
abbrev Arr (n : Nat) := {bytes : Octets // bytes.length = n}

variable {ε : Type} {n : Nat}

/-- Read a slice as an array, panicking when the length is another one. -/
def Arr.fromSlice (n : Nat) (bytes : Octets) : Exec ε (Arr n) :=
  if h : bytes.length = n then .ok ⟨bytes, h⟩ else crash

/-- Bytes of the right number are an array. -/
theorem Arr.fromSlice_eq {bytes : Octets} (h : bytes.length = n) :
    (Arr.fromSlice n bytes : Exec ε (Arr n)) = .ok ⟨bytes, h⟩ := by
  simp [Arr.fromSlice, h]

/-- The bytes of an array are the array. -/
@[simp] theorem Arr.fromSlice_val (a : Arr n) :
    (Arr.fromSlice n a.val : Exec ε (Arr n)) = .ok a :=
  Arr.fromSlice_eq a.property

/-- An array is made of as many bytes as it holds, and of no other number. -/
@[simp] theorem Arr.returns_fromSlice {bytes : Octets} :
    Returns (Arr.fromSlice n bytes : Exec ε (Arr n)) ↔ bytes.length = n := by
  unfold Arr.fromSlice
  split <;> simp_all

/-- The array of `n` zero bytes. -/
def Arr.zero (n : Nat) : Arr n := ⟨List.replicate n 0, List.length_replicate⟩

/-- Bytewise exclusive or. -/
def Arr.xor (a b : Arr n) : Arr n :=
  ⟨List.zipWith (· ^^^ ·) a.val b.val, by simp [a.property, b.property]⟩

/-- Masking twice with the same array is masking not at all. -/
@[simp] theorem Arr.xor_xor_cancel (a b : Arr n) : (a.xor b).xor b = a := by
  apply Subtype.ext
  apply List.ext_getElem
  · simp [Arr.xor, a.property, b.property]
  · intro i h1 h2
    simp only [Arr.xor, List.getElem_zipWith, UInt8.xor_assoc, UInt8.xor_self, UInt8.xor_zero]

/-! ## Numbers in bytes -/

/-- The low `count` bytes of `value`, least significant first. -/
def leBytes : (count : Nat) → (value : Nat) → Octets
  | 0, _ => []
  | count + 1, value => UInt8.ofNat value :: leBytes count (value / 256)

/-- The number a byte string denotes, least significant byte first. -/
def ofLeBytes : Octets → Nat
  | [] => 0
  | byte :: rest => byte.toNat + 256 * ofLeBytes rest

/-- The low `count` bytes of `value`, most significant first. -/
def beBytes (count value : Nat) : Octets := (leBytes count value).reverse

/-- The number a byte string denotes, most significant byte first. -/
def ofBeBytes (bytes : Octets) : Nat := ofLeBytes bytes.reverse

/-- As many bytes as are asked for. -/
@[simp] theorem leBytes_length (count value : Nat) : (leBytes count value).length = count := by
  induction count generalizing value with
  | zero => rfl
  | succ count ih => simp [leBytes, ih]

/-- In either order. -/
@[simp] theorem beBytes_length (count value : Nat) : (beBytes count value).length = count := by
  simp [beBytes]

/-- Reading back what was written keeps the low bytes. -/
theorem ofLeBytes_leBytes (count value : Nat) :
    ofLeBytes (leBytes count value) = value % 256 ^ count := by
  induction count generalizing value with
  | zero => simp [leBytes, ofLeBytes, Nat.mod_one]
  | succ count ih =>
      have hbyte : (UInt8.ofNat value).toNat = value % 256 := by simp
      simp only [leBytes, ofLeBytes, ih, hbyte]
      rw [Nat.pow_succ, Nat.mul_comm (256 ^ count) 256, Nat.mod_mul]

/-- A number that fits is read back unchanged. -/
theorem ofLeBytes_leBytes_of_lt {count value : Nat} (h : value < 256 ^ count) :
    ofLeBytes (leBytes count value) = value := by
  rw [ofLeBytes_leBytes, Nat.mod_eq_of_lt h]

end Bytes
