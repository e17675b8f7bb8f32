import BreezeCore.Lib.Bytes
import Mathlib.Data.Nat.Bitwise
import Mathlib.Logic.Function.Iterate

/-!
# Keccak

The permutations, the sponge and SHA3-512, bit by bit as the standard FIPS 202 gives them.
A state array has a bit for each `x` and `y` below five and each `z` below the lane length
`w`; coordinates are taken modulo their bounds.
-/

namespace Keccak

open Bytes

/-- Bits, the first one first. -/
abbrev BitString := List Bool

/-! ## Step mappings -/

/-- A state array. -/
abbrev State (w : ℕ) := Fin 5 → Fin 5 → Fin w → Bool

variable {w : ℕ} [NeZero w]

/-- The parity of a column. -/
def parity (A : State w) (x : Fin 5) (z : Fin w) : Bool :=
  A x 0 z ^^ A x 1 z ^^ A x 2 z ^^ A x 3 z ^^ A x 4 z

/-- Every bit takes in the parities of two columns. -/
def theta (A : State w) : State w := fun x y z =>
  A x y z ^^ (parity A (x - 1) z ^^ parity A (x + 1) (z - 1))

/-- The lane that is reached in `t` steps from (1, 0). -/
def walk (t : ℕ) : Fin 5 × Fin 5 := (fun p => (p.2, 2 * p.1 + 3 * p.2))^[t] (1, 0)

/-- How far a lane is rotated: by the `t`-th triangular number from the first on, and not at
all at (0, 0), which the walk never reaches. -/
def offset (x y : Fin 5) : ℕ :=
  match (List.range 24).find? fun t => walk t = (x, y) with
  | some t => (t + 1) * (t + 2) / 2
  | none => 0

/-- Every lane is rotated by its offset. -/
def rho (A : State w) : State w := fun x y z => A x y (z - Fin.ofNat w (offset x y))

/-- The lanes change their places. -/
def pi (A : State w) : State w := fun x y z => A (x + 3 * y) x z

/-- Every row is mixed, bit by bit. -/
def chi (A : State w) : State w := fun x y z =>
  A x y z ^^ (!(A (x + 1) y z) && A (x + 2) y z)

/-- One step of the shift register: a zero is put in front, and what falls out at the end is
added at four places. -/
def shift (R : List Bool) : List Bool :=
  ((false :: R).mapIdx fun i bit => if i ∈ [0, 4, 5, 6] then bit ^^ R.getD 7 false else bit).take 8

/-- The bit that the register gives out after `t` steps. -/
def rc (t : ℕ) : Bool :=
  if t % 255 = 0 then true
  else (shift^[t % 255] [true, false, false, false, false, false, false, false]).headD false

/-- Bit `z` of the round constant. -/
def roundConstant (w round z : ℕ) : Bool :=
  (List.range (w.log2 + 1)).any fun j => z = 2 ^ j - 1 && rc (j + 7 * round)

/-- The first lane takes in the constant of the round. -/
def iota (round : ℕ) (A : State w) : State w := fun x y z =>
  if x = 0 ∧ y = 0 then A x y z ^^ roundConstant w round z else A x y z

/-- One round. -/
def rnd (A : State w) (round : ℕ) : State w := iota round (chi (pi (rho (theta A))))

/-! ## The permutation -/

/-- The state array of a string. -/
def toState (w : ℕ) (S : BitString) : State w := fun x y z => S.getD (w * (5 * y + x) + z) false

/-- The string of a state array: plane after plane, and lane after lane in each. -/
def ofState (A : State w) : BitString :=
  List.ofFn fun k : Fin (25 * w) =>
    A (Fin.ofNat 5 (k / w)) (Fin.ofNat 5 (k / w / 5)) (Fin.ofNat w k)

/-- The last `rounds` rounds of the permutation on strings of `25 * w` bits. -/
def keccakP (w rounds : ℕ) [NeZero w] (S : BitString) : BitString :=
  ofState ((List.range' (12 + 2 * w.log2 - rounds) rounds).foldl rnd (toState w S))

/-- A state of twenty-five lanes. -/
theorem ofState_length (A : State w) : (ofState A).length = 25 * w := List.length_ofFn

/-- The string of a state, bit by bit. -/
theorem getD_ofState (A : State w) {k : ℕ} (hk : k < 25 * w) :
    (ofState A).getD k false =
      A (Fin.ofNat 5 (k / w)) (Fin.ofNat 5 (k / w / 5)) (Fin.ofNat w k) := by
  rw [List.getD_eq_getElem _ _ (by rwa [ofState_length])]
  exact List.getElem_ofFn _

/-- Bit (x, y, z) is where the standard puts it. Dividing its place by the width of a lane gives
the lane, and the remainder is the bit in it. -/
theorem toState_ofState (A : State w) : toState w (ofState A) = A := by
  funext x y z
  have hz := z.isLt
  have hx := x.isLt
  have hy := y.isLt
  have hw : 0 < w := NeZero.pos w
  have hdiv : (w * (5 * y + x) + z) / w = 5 * y + x := by
    rw [Nat.mul_add_div hw, Nat.div_eq_of_lt hz, Nat.add_zero]
  have hlt : w * (5 * y + x) + z < 25 * w := by
    rw [← Nat.div_lt_iff_lt_mul hw, hdiv]
    omega
  have hx' : Fin.ofNat 5 (5 * y + x) = x := by
    apply Fin.ext
    rw [Fin.val_ofNat]
    omega
  have hy' : Fin.ofNat 5 ((5 * y + x) / 5) = y := by
    apply Fin.ext
    rw [Fin.val_ofNat]
    omega
  have hz' : Fin.ofNat w (w * (5 * y + x) + z) = z := by
    apply Fin.ext
    rw [Fin.val_ofNat, Nat.mul_add_mod, Nat.mod_eq_of_lt hz]
  rw [toState, getD_ofState A hlt, hdiv, hx', hy', hz']

/-! ## The sponge -/

/-- Absorb blocks of `r` bits, and squeeze until there are `d`.  A round of squeezing gives at
least one bit, so there are at most `d`. -/
def squeeze (f : BitString → BitString) (r d : ℕ) : ℕ → BitString → BitString → BitString
  | 0, Z, _ => Z.take d
  | fuel + 1, Z, S =>
      let Z := Z ++ S.take r
      if d ≤ Z.length then Z.take d else squeeze f r d fuel Z (f S)

/-- Add block `i` of a string, which has `r` bits, to a state of `b` bits, and apply `f`. -/
def absorbBlock (f : BitString → BitString) (b r : ℕ) (P S : BitString) (i : ℕ) : BitString :=
  f (List.zipWith xor S ((P.drop (r * i)).take r ++ List.replicate (b - r) false))

/-- The sponge of a function on strings of `b` bits. -/
def sponge (f : BitString → BitString) (pad : ℕ → ℕ → BitString) (b r : ℕ) (N : BitString)
    (d : ℕ) : BitString :=
  let P := N ++ pad r N.length
  let S := (List.range (P.length / r)).foldl (absorbBlock f b r P) (List.replicate b false)
  squeeze f r d (d + 1) [] S

/-- The rule `pad10*1`. -/
def pad10star1 (x m : ℕ) : BitString :=
  true :: List.replicate ((-(m : ℤ) - 2) % x).toNat false ++ [true]

/-- KECCAK[c], on strings of 1600 bits. -/
def keccak (c : ℕ) (N : BitString) (d : ℕ) : BitString :=
  sponge (keccakP 64 24) pad10star1 1600 (1600 - c) N d

/-! ## Bytes -/

/-- The bits of a byte string, the lowest of each byte first. -/
def bitsOf (bytes : Octets) : BitString :=
  bytes.flatMap fun byte => (List.range 8).map byte.toNat.testBit

/-- The bytes of a bit string. -/
def bytesOf (bits : BitString) : Octets :=
  (List.range (bits.length / 8)).map fun i =>
    UInt8.ofNat (Nat.ofBits fun j : Fin 8 => bits.getD (8 * i + j) false)

/-- The bits of bytes, one after the other. -/
theorem bitsOf_append (bytes bytes' : Octets) :
    bitsOf (bytes ++ bytes') = bitsOf bytes ++ bitsOf bytes' := List.flatMap_append

/-- Eight to a byte. -/
@[simp] theorem bitsOf_length (bytes : Octets) : (bitsOf bytes).length = 8 * bytes.length := by
  induction bytes with
  | nil => rfl
  | cons byte rest ih =>
      have hcons : bitsOf (byte :: rest) =
          (List.range 8).map byte.toNat.testBit ++ bitsOf rest := rfl
      rw [hcons, List.length_append, ih, List.length_map, List.length_range, List.length_cons]
      omega

/-- Bit `k` is in byte `k / 8`. -/
theorem getD_bitsOf (bytes : Octets) (k : ℕ) :
    (bitsOf bytes).getD k false = (bytes.getD (k / 8) 0).toNat.testBit (k % 8) := by
  induction bytes generalizing k with
  | nil => simp [bitsOf]
  | cons byte rest ih =>
      have hcons : bitsOf (byte :: rest) =
          (List.range 8).map byte.toNat.testBit ++ bitsOf rest := rfl
      have hlength : ((List.range 8).map byte.toNat.testBit).length = 8 := rfl
      rw [hcons]
      by_cases hk : k < 8
      · rw [List.getD_append _ _ _ _ (by rwa [hlength]), Nat.div_eq_of_lt hk, Nat.mod_eq_of_lt hk]
        simp [List.getD_eq_getElem?_getD, hk]
      · obtain ⟨j, rfl⟩ := Nat.exists_eq_add_of_le (Nat.not_lt.mp hk)
        have hdiv : (8 + j) / 8 = j / 8 + 1 := by omega
        have hmod : (8 + j) % 8 = j % 8 := by omega
        rw [List.getD_append_right _ _ _ _ (by rw [hlength]; omega), hlength,
          Nat.add_sub_cancel_left, ih, hdiv, hmod, List.getD_cons_succ]

/-- SHA3-512. -/
def sha3_512 (message : Octets) : Octets :=
  bytesOf (keccak 1024 (bitsOf message ++ [false, true]) 512)

end Keccak
