import BreezeCore.Lib.Keccak
import BreezeCore.Panel.Sha3

/-!
# The panel's digest is SHA3-512

The panel keeps bit (x, y, z) of a state array in bit z of lane x + 5y.  Each of its steps
makes of that what the standard's step mappings do (`stateOf_theta`, `stateOf_rhoPi`,
`stateOf_chi`, `stateOf_iota`).
-/

namespace BreezePanel

open Bytes Keccak Loops Words

/-- Twenty-five lanes of 64 bits. -/
structure Lanes (A : List ℤ) : Prop where
  length : A.length = 25
  word : ∀ i, IsWord 64 (A.getD i 0)

/-- The state array that the lanes hold. -/
def stateOf (A : List ℤ) : State 64 := fun x y z => (A.getD (x + 5 * y) 0).testBit z

/-- A list is a state when it has twenty-five lanes and each is a word. -/
theorem lanes_of {A : List ℤ} (hlength : A.length = 25)
    (hword : ∀ x y : Fin 5, IsWord 64 (A.getD (x + 5 * y) 0)) : Lanes A := by
  refine ⟨hlength, fun i => ?_⟩
  by_cases hi : i < 25
  · have hword := hword ⟨i % 5, by omega⟩ ⟨i / 5, by omega⟩
    rwa [show i % 5 + 5 * (i / 5) = i by omega] at hword
  · rw [List.getD_eq_default _ _ (by omega)]
    exact isWord_zero

/-! ## Rotation -/

/-- The mask is the one of sixty-four ones. -/
theorem MASK64_eq : MASK64 = mask 64 := by decide

/-- A rotated word, bit by bit. -/
theorem testBit_rotl {v : ℤ} (hv : IsWord 64 v) {n k : ℕ} (hn : n < 64) (hk : k < 64) :
    (rotl v n).testBit k = v.testBit ((k + (64 - n)) % 64) := by
  unfold rotl
  split
  next hzero =>
    rw [hzero, Nat.sub_zero, Nat.add_mod_right, Nat.mod_eq_of_lt hk]
  next => rw [MASK64_eq, testBit_rotate hv hn.le hk]

/-- Rotating keeps a word one. -/
theorem IsWord.rotl {v : ℤ} (hv : IsWord 64 v) (n : ℕ) : IsWord 64 (rotl v n) := by
  unfold BreezePanel.rotl
  split
  next => exact hv
  next => exact MASK64_eq ▸ isWord_mask.and _

/-! ## θ -/

variable {A B : List ℤ}

/-- The parity of a sheet's columns. -/
def parityOf (A : List ℤ) (x : ℕ) : ℤ :=
  Int.xor (Int.xor (Int.xor (Int.xor (A.getD x 0) (A.getD (x + 5) 0)) (A.getD (x + 10) 0))
    (A.getD (x + 15) 0)) (A.getD (x + 20) 0)

/-- What is added to each lane of a sheet. -/
def effectOf (A : List ℤ) (x : ℕ) : ℤ :=
  let C := (List.range 5).map (parityOf A)
  Int.xor (C.getD ((x + 4) % 5) 0) (rotl (C.getD ((x + 1) % 5) 0) 1)

/-- The two loops of `theta` update one lane after the other; the effects are computed before,
from the state as it was. -/
theorem theta_eq (A : List ℤ) :
    theta A = updates (fun p : ℕ × ℕ => p.1 + p.2) (fun p lane => Int.xor lane (effectOf A p.1))
      (List.range 5 ×ˢ [0, 5, 10, 15, 20]) A :=
  foldl_modify (fun x y => x + y) (fun x _ lane => Int.xor lane (effectOf A x)) _ _ A

/-- So each lane is changed by the effect of its column. -/
theorem getD_theta (hlength : A.length = 25) (x y : Fin 5) :
    (theta A).getD (x + 5 * y) 0 = Int.xor (A.getD (x + 5 * y) 0) (effectOf A x) := by
  rw [theta_eq]
  exact @getD_updates _ _ _ _ _ _ ((x : ℕ), 5 * (y : ℕ)) 0 (by decide) (by revert x y; decide)
    (by dsimp only; omega)

/-- The effect on a column is made of the parities of its two neighbours. -/
theorem effectOf_eq (A : List ℤ) (x : Fin 5) :
    effectOf A x =
      Int.xor (parityOf A (x - 1 : Fin 5)) (rotl (parityOf A (x + 1 : Fin 5)) 1) := by
  have hbefore : ((x : ℕ) + 4) % 5 = (x - 1 : Fin 5) := by revert x; decide
  have hafter : ((x : ℕ) + 1) % 5 = (x + 1 : Fin 5) := by revert x; decide
  rw [effectOf, hbefore, hafter, getD_map_range (Fin.isLt _), getD_map_range (Fin.isLt _)]

/-- A parity of words is a word. -/
theorem isWord_parityOf (hA : Lanes A) (x : ℕ) : IsWord 64 (parityOf A x) :=
  ((((hA.word _).xor (hA.word _)).xor (hA.word _)).xor (hA.word _)).xor (hA.word _)

/-- The effect of a column is a word, as the parities it is made of are. -/
theorem isWord_effectOf (hA : Lanes A) (x : Fin 5) : IsWord 64 (effectOf A x) := by
  rw [effectOf_eq]
  exact (isWord_parityOf hA _).xor (IsWord.rotl (isWord_parityOf hA _) 1)

/-- A parity, bit by bit, is that of the standard. -/
theorem testBit_parityOf (A : List ℤ) (x : Fin 5) (z : Fin 64) :
    (parityOf A x).testBit z = parity (stateOf A) x z := by
  simp only [parityOf, Int.testBit_lxor]
  rfl

/-- An effect, bit by bit. -/
theorem testBit_effectOf (hA : Lanes A) (x : Fin 5) (z : Fin 64) :
    (effectOf A x).testBit z =
      (parity (stateOf A) (x - 1) z ^^ parity (stateOf A) (x + 1) (z - 1)) := by
  have hbelow : ((z : ℕ) + (64 - 1)) % 64 = (z - 1 : Fin 64) := by revert z; decide
  rw [effectOf_eq, Int.testBit_lxor, testBit_rotl (isWord_parityOf hA _) (by decide) z.isLt, hbelow,
    testBit_parityOf, testBit_parityOf]

/-- The state stays a state of words. -/
theorem lanes_theta (hA : Lanes A) : Lanes (theta A) := by
  refine lanes_of (by rw [theta_eq, updates_length, hA.length]) fun x y => ?_
  rw [getD_theta hA.length]
  exact (hA.word _).xor (isWord_effectOf hA x)

/-- **θ.** -/
theorem stateOf_theta (hA : Lanes A) : stateOf (theta A) = Keccak.theta (stateOf A) := by
  funext x y z
  calc stateOf (theta A) x y z
      = (Int.xor (A.getD (x + 5 * y) 0) (effectOf A x)).testBit z := by
        rw [stateOf, getD_theta hA.length]
    _ = Keccak.theta (stateOf A) x y z := by
        rw [Int.testBit_lxor, testBit_effectOf hA]
        rfl

/-! ## ρ and π -/

/-- The loops of `rhoPi` write each lane once, rotated, to its new place. -/
theorem rhoPi_eq (A : List ℤ) :
    rhoPi A = updates (fun p : ℕ × ℕ => p.2 + 5 * ((2 * p.1 + 3 * p.2) % 5))
      (fun p _ => rotl (A.getD (p.1 + 5 * p.2) 0) (ROT.getD (p.1 + 5 * p.2) 0))
      (List.range 5 ×ˢ List.range 5) (List.replicate 25 0) :=
  foldl_set (fun x y => y + 5 * ((2 * x + 3 * y) % 5))
    (fun x y => rotl (A.getD (x + 5 * y) 0) (ROT.getD (x + 5 * y) 0)) _ _ _

/-- The lane that ends up at (x, y). -/
theorem getD_rhoPi (A : List ℤ) (x y : Fin 5) :
    (rhoPi A).getD (x + 5 * y) 0 =
      rotl (A.getD ((x + 3 * y : Fin 5) + 5 * x) 0) (ROT.getD ((x + 3 * y : Fin 5) + 5 * x) 0) := by
  have hkey : (x : ℕ) + 5 * ((2 * (x + 3 * y : Fin 5) + 3 * x) % 5) = x + 5 * y := by
    revert x y
    decide
  rw [rhoPi_eq]
  have hrounds := @getD_updates _ _
    (fun p : ℕ × ℕ => p.2 + 5 * ((2 * p.1 + 3 * p.2) % 5))
    (fun p _ => rotl (A.getD (p.1 + 5 * p.2) 0) (ROT.getD (p.1 + 5 * p.2) 0))
    (List.range 5 ×ˢ List.range 5) (List.replicate 25 0)
    (((x + 3 * y : Fin 5) : ℕ), (x : ℕ)) 0 (by decide) (by revert x y; decide)
    (by rw [List.length_replicate]; dsimp only; omega)
  dsimp only at hrounds
  rwa [hkey] at hrounds

/-- **The offsets** are in the right places. -/
theorem ROT_eq : ∀ x y : Fin 5, ROT.getD (x + 5 * y) 0 = offset x y % 64 := by
  decide +kernel

/-- Rotating the lanes and moving them about gives words again. -/
theorem lanes_rhoPi (hA : Lanes A) : Lanes (rhoPi A) := by
  refine lanes_of (by rw [rhoPi_eq, updates_length, List.length_replicate]) fun x y => ?_
  rw [getD_rhoPi]
  exact IsWord.rotl (hA.word _) _

/-- **ρ and π.** -/
theorem stateOf_rhoPi (hA : Lanes A) : stateOf (rhoPi A) = Keccak.pi (rho (stateOf A)) := by
  funext x y z
  have hback : ∀ n, ((z : ℕ) + (64 - n % 64)) % 64 = (z - Fin.ofNat 64 n : Fin 64) := by
    intro n
    rw [Fin.val_sub, Fin.val_ofNat, Nat.add_comm]
  rw [stateOf, getD_rhoPi, ROT_eq,
    testBit_rotl (hA.word _) (Nat.mod_lt _ (by decide)) z.isLt, hback]
  rfl

/-! ## χ and ι -/

/-- The loops of `chi` read the copy that was made before, not what they write. -/
theorem chi_eq (B A : List ℤ) :
    chi B A = updates (fun p : ℕ × ℕ => p.2 + p.1)
      (fun p _ => Int.xor (B.getD (p.2 + p.1) 0)
        (Int.land (Int.land (Int.lnot (B.getD ((p.2 + 1) % 5 + p.1) 0))
          (B.getD ((p.2 + 2) % 5 + p.1) 0)) MASK64))
      ([0, 5, 10, 15, 20] ×ˢ List.range 5) A :=
  foldl_set (fun y x => x + y) (fun y x => Int.xor (B.getD (x + y) 0)
    (Int.land (Int.land (Int.lnot (B.getD ((x + 1) % 5 + y) 0)) (B.getD ((x + 2) % 5 + y) 0))
      MASK64)) _ _ _

/-- So each lane is made of itself and its two neighbours in the row. -/
theorem getD_chi (hlength : A.length = 25) (x y : Fin 5) :
    (chi B A).getD (x + 5 * y) 0 =
      Int.xor (B.getD (x + 5 * y) 0)
        (Int.land (Int.land (Int.lnot (B.getD ((x + 1 : Fin 5) + 5 * y) 0))
          (B.getD ((x + 2 : Fin 5) + 5 * y) 0)) MASK64) := by
  have hone : ((x : ℕ) + 1) % 5 = (x + 1 : Fin 5) := by revert x; decide
  have htwo : ((x : ℕ) + 2) % 5 = (x + 2 : Fin 5) := by revert x; decide
  rw [chi_eq, ← hone, ← htwo]
  exact @getD_updates _ _ (fun p : ℕ × ℕ => p.2 + p.1) _ _ _ (5 * (y : ℕ), (x : ℕ)) 0 (by decide)
    (by revert x y; decide) (by dsimp only; omega)

/-- The complement is cut to a word by the mask, and the state stays one of words. -/
theorem lanes_chi (hA : Lanes A) (hB : Lanes B) : Lanes (chi B A) := by
  refine lanes_of (by rw [chi_eq, updates_length, hA.length]) fun x y => ?_
  rw [getD_chi hA.length, MASK64_eq]
  exact (hB.word _).xor (isWord_mask.and _)

/-- **χ.** -/
theorem stateOf_chi (hlength : A.length = 25) : stateOf (chi B A) = Keccak.chi (stateOf B) := by
  funext x y z
  rw [stateOf, getD_chi hlength, Int.testBit_lxor, Int.testBit_land, Int.testBit_land,
    Int.testBit_lnot, MASK64_eq, testBit_mask, decide_eq_true z.isLt, Bool.and_true]
  rfl

/-- **The round constants** are what the shift register gives. -/
theorem RC_eq : ∀ round : Fin 24, ∀ z : Fin 64,
    (RC.getD round 0).testBit z = roundConstant 64 round z := by
  decide +kernel

/-- The round constants are words. -/
theorem isWord_RC (round : ℕ) : IsWord 64 (RC.getD round 0) := by
  by_cases hround : round < 24
  · have hrange : ∀ i : Fin 24, 0 ≤ RC.getD i 0 ∧ RC.getD i 0 < 2 ^ 64 := by decide
    obtain ⟨hnonneg, hlt⟩ := hrange ⟨round, hround⟩
    exact isWord_of_lt hnonneg hlt
  · rw [List.getD_eq_default _ _ (Nat.not_lt.mp hround)]
    exact isWord_zero

/-- Only the first lane is changed. -/
theorem getD_iota (hlength : A.length = 25) (round : ℕ) (x y : Fin 5) :
    (iota round A).getD (x + 5 * y) 0 =
      if x = 0 ∧ y = 0 then Int.xor (A.getD (x + 5 * y) 0) (RC.getD round 0)
      else A.getD (x + 5 * y) 0 := by
  have hfirst : 0 = (x : ℕ) + 5 * y ↔ x = 0 ∧ y = 0 := by revert x y; decide
  have hlt : (x : ℕ) + 5 * y < A.length := by omega
  simp only [iota, List.getD_eq_getElem?_getD, List.getElem?_modify, hfirst]
  split
  next => simp [hlt]
  next => simp

/-- By a word, so it stays one. -/
theorem lanes_iota (hA : Lanes A) (round : ℕ) : Lanes (iota round A) := by
  refine lanes_of (by rw [iota, List.length_modify, hA.length]) fun x y => ?_
  rw [getD_iota hA.length]
  split
  next => exact (hA.word _).xor (isWord_RC round)
  next => exact hA.word _

/-- **ι.** -/
theorem stateOf_iota (hlength : A.length = 25) {round : ℕ} (hround : round < 24) :
    stateOf (iota round A) = Keccak.iota round (stateOf A) := by
  funext x y z
  rw [stateOf, getD_iota hlength, Keccak.iota]
  split
  next => rw [Int.testBit_lxor, RC_eq ⟨round, hround⟩ z]; rfl
  next => rfl

/-! ## The permutation -/

/-- One round. -/
def roundOf (A : List ℤ) (round : ℕ) : List ℤ := iota round (chi (rhoPi (theta A)) (theta A))

/-- A round keeps the state one of words. -/
theorem lanes_roundOf (hA : Lanes A) (round : ℕ) : Lanes (roundOf A round) :=
  lanes_iota (lanes_chi (lanes_theta hA) (lanes_rhoPi (lanes_theta hA))) round

/-- **A round.** -/
theorem stateOf_roundOf (hA : Lanes A) {round : ℕ} (hround : round < 24) :
    stateOf (roundOf A round) = rnd (stateOf A) round := by
  have htheta := lanes_theta hA
  have hchi := lanes_chi htheta (lanes_rhoPi htheta)
  rw [roundOf, stateOf_iota hchi.length hround, stateOf_chi htheta.length, stateOf_rhoPi htheta,
    stateOf_theta hA]
  rfl

/-- Some rounds, one after the other. -/
theorem rounds_spec {rounds : List ℕ} (hrounds : ∀ round ∈ rounds, round < 24) (hA : Lanes A) :
    Lanes (rounds.foldl roundOf A) ∧
      stateOf (rounds.foldl roundOf A) = rounds.foldl rnd (stateOf A) := by
  induction rounds generalizing A with
  | nil => exact ⟨hA, rfl⟩
  | cons round rest ih =>
      have hrest := ih (fun r hr => hrounds r (List.mem_cons_of_mem _ hr)) (lanes_roundOf hA round)
      rwa [stateOf_roundOf hA (hrounds round List.mem_cons_self), ← List.foldl_cons,
        ← List.foldl_cons] at hrest

/-- **The permutation.** -/
theorem keccakF_spec (hA : Lanes A) :
    Lanes (keccakF A) ∧ ofState (stateOf (keccakF A)) = keccakP 64 24 (ofState (stateOf A)) := by
  have hrounds : List.range' (12 + 2 * Nat.log2 64 - 24) 24 = List.range 24 := by decide
  have hkeccakF : keccakF A = (List.range 24).foldl roundOf A := rfl
  obtain ⟨hlanes, hstate⟩ := rounds_spec (fun round hround => List.mem_range.mp hround) hA
  rw [hkeccakF, keccakP, toState_ofState, hrounds, hstate]
  exact ⟨hlanes, rfl⟩

/-! ## Padding -/

/-- What is put behind a message. -/
def padBytes : ℕ → Octets
  | 0 => []
  | 1 => [0x86]
  | count + 2 => 0x06 :: List.replicate count 0 ++ [0x80]

/-- The padding is written into zeros: its first byte is set, and the top bit of the last one
added, also where the two are one byte. -/
theorem set_modify_eq (count : ℕ) :
    ((List.replicate (count + 1) (0 : UInt8)).set 0 0x06).modify count (fun byte => byte ||| 0x80) =
      padBytes (count + 1) := by
  cases count with
  | zero => rfl
  | succ count =>
      have hlast : (List.replicate (count + 1) (0 : UInt8)).modify count
          (fun byte => byte ||| 0x80) = List.replicate count 0 ++ [0x80] := by
        rw [List.replicate_succ']
        have happend := @modify_append _ (List.replicate count (0 : UInt8)) [0] 0
          fun byte => byte ||| 0x80
        rwa [List.length_replicate] at happend
      rw [List.replicate_succ, List.set_cons_zero, List.modify_succ_cons, hlast]
      rfl

/-- The padding fills the last block. -/
theorem pad_eq (bytes : Octets) :
    pad bytes = bytes ++ padBytes (72 - bytes.length % 72) := by
  have hfill : (bytes.length + 1 + (RATE - 1)) / RATE * RATE - bytes.length =
      72 - bytes.length % 72 := by
    unfold RATE
    omega
  obtain ⟨count, hcount⟩ : ∃ count, 72 - bytes.length % 72 = count + 1 :=
    ⟨71 - bytes.length % 72, by omega⟩
  unfold pad
  dsimp only
  rw [hfill, hcount, List.set_append_right _ _ (le_refl _), Nat.sub_self, List.length_append,
    List.length_set, List.length_replicate, Nat.add_succ_sub_one, modify_append, set_modify_eq]

/-- The bits that the padding adds: the two of the digest, and those of `pad10*1`. Bits are
counted from the low end of each byte, so 0x06 begins with them and 0x80 ends with a one. -/
theorem bitsOf_padBytes (count : ℕ) :
    bitsOf (padBytes (count + 1)) =
      [false, true] ++ (true :: List.replicate (8 * count + 4) false ++ [true]) := by
  have hzeros : ∀ n, bitsOf (List.replicate n 0) = List.replicate (8 * n) false := by
    intro n
    induction n with
    | zero => rfl
    | succ n ih =>
        have hbyte : bitsOf [0] = List.replicate 8 false := by decide
        rw [List.replicate_succ, ← List.singleton_append, bitsOf_append, ih, hbyte,
          List.replicate_append_replicate, Nat.mul_succ, Nat.add_comm]
  cases count with
  | zero => decide
  | succ count =>
      have hfirst : bitsOf [0x06] = [false, true, true] ++ List.replicate 5 false := by decide
      have hlast : bitsOf [0x80] = List.replicate 7 false ++ [true] := by decide
      have hpad : padBytes (count + 1 + 1) = [0x06] ++ (List.replicate count 0 ++ [0x80]) := rfl
      have hcount : 8 * (count + 1) + 4 = 5 + (8 * count + 7) := by omega
      rw [hpad, bitsOf_append, bitsOf_append, hfirst, hlast, hzeros, hcount,
        ← List.replicate_append_replicate, ← List.replicate_append_replicate]
      simp only [List.append_assoc, List.cons_append, List.nil_append]

/-- **Padding**, at every length. -/
theorem bitsOf_pad (bytes : Octets) :
    bitsOf (pad bytes) =
      (bitsOf bytes ++ [false, true]) ++
        pad10star1 576 (bitsOf bytes ++ [false, true]).length := by
  obtain ⟨count, hcount⟩ : ∃ count, 72 - bytes.length % 72 = count + 1 :=
    ⟨71 - bytes.length % 72, by omega⟩
  have hlength : (bitsOf bytes ++ [false, true]).length = 8 * bytes.length + 2 := by simp
  have hzeros : ((-((8 * bytes.length + 2 : ℕ) : ℤ) - 2) % (576 : ℕ)).toNat = 8 * count + 4 := by
    omega
  rw [pad_eq, hcount, bitsOf_append, bitsOf_padBytes, hlength, pad10star1, hzeros,
    List.append_assoc]

/-! ## The sponge -/

/-- The string of a state, bit by bit, read off the lanes. -/
theorem getD_ofState_stateOf (A : List ℤ) {k : ℕ} (hk : k < 1600) :
    (ofState (stateOf A)).getD k false = (A.getD (k / 64) 0).testBit (k % 64) := by
  have hlane : k / 64 % 5 + 5 * (k / 64 / 5 % 5) = k / 64 := by omega
  rw [getD_ofState _ (by omega), stateOf, Fin.val_ofNat, Fin.val_ofNat, Fin.val_ofNat, hlane]

/-- **A lane of a block** holds the bits of its bytes in their order. -/
theorem testBit_laneAt (padded : Octets) (off i : ℕ) {z : ℕ} (hz : z < 64) :
    (laneAt padded off i).testBit z = (bitsOf padded).getD (8 * off + (64 * i + z)) false := by
  have hlane : laneAt padded off i =
      ofBytes ([7, 6, 5, 4, 3, 2, 1, 0].map fun b => padded.getD (off + i * 8 + b) 0) := rfl
  have hbyte : ((List.range 8).map fun b => padded.getD (off + i * 8 + b) 0).getD (z / 8) 0 =
      padded.getD (off + i * 8 + z / 8) 0 := getD_map_range (by omega)
  have hdiv : (8 * off + (64 * i + z)) / 8 = off + i * 8 + z / 8 := by omega
  have hmod : (8 * off + (64 * i + z)) % 8 = z % 8 := by omega
  rw [hlane, testBit_ofBytes, getD_bitsOf, hdiv, hmod, ← hbyte]
  rfl

/-- Eight bytes of the message make a word. -/
theorem isWord_laneAt (padded : Octets) (off i : ℕ) : IsWord 64 (laneAt padded off i) :=
  isWord_ofBytes ([7, 6, 5, 4, 3, 2, 1, 0].map fun b => padded.getD (off + i * 8 + b) 0)

/-- The lanes with a block added. -/
def added (padded : Octets) (A : List ℤ) (off : ℕ) : List ℤ :=
  updates id (fun i lane => Int.xor lane (laneAt padded off i)) (List.range 9) A

/-- The nine lanes of the rate take in the block, the others do not. -/
theorem getD_added (hlength : A.length = 25) (padded : Octets) (off i : ℕ) :
    (added padded A off).getD i 0 =
      if i < 9 then Int.xor (A.getD i 0) (laneAt padded off i) else A.getD i 0 := by
  split
  next hi =>
    exact @getD_updates _ _ id _ _ _ i 0 (by decide) (List.mem_range.mpr hi)
      (by dsimp only [id]; omega)
  next hi => exact getD_updates_other (by simpa using hi)

/-- A state with a block added to it is one of words. -/
theorem lanes_added (hA : Lanes A) (padded : Octets) (off : ℕ) : Lanes (added padded A off) := by
  refine ⟨updates_length.trans hA.length, fun i => ?_⟩
  rw [getD_added hA.length]
  split
  next => exact (hA.word i).xor (isWord_laneAt padded off i)
  next => exact hA.word i

/-- The bits of block `i`, on the whole width. -/
def blockOf (padded : Octets) (i : ℕ) : BitString :=
  ((bitsOf padded).drop (576 * i)).take 576 ++ List.replicate 1024 false

/-- A block is the rate and zeros up to the width. -/
theorem blockOf_length {padded : Octets} {i : ℕ} (hblock : 72 * (i + 1) ≤ padded.length) :
    (blockOf padded i).length = 1600 := by
  rw [blockOf, List.length_append, List.length_take, List.length_drop, bitsOf_length,
    List.length_replicate]
  omega

/-- Bit by bit. -/
theorem getD_blockOf {padded : Octets} {i k : ℕ} (hblock : 72 * (i + 1) ≤ padded.length) :
    (blockOf padded i).getD k false =
      if k < 576 then (bitsOf padded).getD (576 * i + k) false else false := by
  have hrate : (((bitsOf padded).drop (576 * i)).take 576).length = 576 := by
    rw [List.length_take, List.length_drop, bitsOf_length]
    omega
  unfold blockOf
  split
  next hlow =>
    rw [List.getD_append _ _ _ _ (by rwa [hrate])]
    simp only [List.getD_eq_getElem?_getD, List.getElem?_take, if_pos hlow, List.getElem?_drop]
  next hhigh =>
    rw [List.getD_append_right _ _ _ _ (by rw [hrate]; omega), List.getD_eq_getElem?_getD,
      List.getElem?_getD_replicate_default_eq]

/-- **Adding a block.** -/
theorem ofState_added (hA : Lanes A) {padded : Octets} {i : ℕ}
    (hblock : 72 * (i + 1) ≤ padded.length) :
    ofState (stateOf (added padded A (72 * i))) =
      List.zipWith xor (ofState (stateOf A)) (blockOf padded i) := by
  have hstate : ∀ A, (ofState (stateOf A)).length = 1600 := fun A => ofState_length _
  apply List.ext_getElem
  · rw [hstate, List.length_zipWith, hstate, blockOf_length hblock]
    rfl
  · intro k hk _
    rw [hstate] at hk
    rw [List.getElem_zipWith, ← List.getD_eq_getElem _ false, ← List.getD_eq_getElem _ false,
      ← List.getD_eq_getElem _ false, getD_ofState_stateOf _ hk, getD_ofState_stateOf _ hk,
      getD_added hA.length, getD_blockOf hblock]
    by_cases hlow : k < 576
    · have hbit : 8 * (72 * i) + (64 * (k / 64) + k % 64) = 576 * i + k := by omega
      rw [if_pos (by omega), if_pos hlow, Int.testBit_lxor,
        testBit_laneAt _ _ _ (Nat.mod_lt _ (by decide)), hbit]
    · rw [if_neg (by omega), if_neg hlow, Bool.xor_false]

/-- **One block.** Absorbing it is what the standard's sponge does with the same bits. -/
theorem absorb_spec (hA : Lanes A) {padded : Octets} {i : ℕ}
    (hblock : 72 * (i + 1) ≤ padded.length) :
    Lanes (absorb padded A (72 * i)) ∧
      ofState (stateOf (absorb padded A (72 * i))) =
        absorbBlock (keccakP 64 24) 1600 576 (bitsOf padded) (ofState (stateOf A)) i := by
  have hspec := keccakF_spec (lanes_added hA padded (72 * i))
  rw [ofState_added hA hblock] at hspec
  exact hspec

/-- Some blocks, one after the other. -/
theorem blocks_spec {padded : Octets} {blocks : List ℕ}
    (hblocks : ∀ i ∈ blocks, 72 * (i + 1) ≤ padded.length) (hA : Lanes A) :
    Lanes ((blocks.map (72 * ·)).foldl (absorb padded) A) ∧
      ofState (stateOf ((blocks.map (72 * ·)).foldl (absorb padded) A)) =
        blocks.foldl (absorbBlock (keccakP 64 24) 1600 576 (bitsOf padded))
          (ofState (stateOf A)) := by
  induction blocks generalizing A with
  | nil =>
      rw [List.map_nil, List.foldl_nil, List.foldl_nil]
      exact ⟨hA, rfl⟩
  | cons i rest ih =>
      obtain ⟨hlanes, hstate⟩ := absorb_spec hA (hblocks i List.mem_cons_self)
      have hrest := ih (fun j hj => hblocks j (List.mem_cons_of_mem _ hj)) hlanes
      rw [hstate] at hrest
      rwa [List.map_cons, List.foldl_cons, List.foldl_cons]

/-- What is left after a message was absorbed. -/
def absorbed (bytes : Octets) : List ℤ :=
  (List.range' 0 ((pad bytes).length / RATE) RATE).foldl (absorb (pad bytes)) (List.replicate 25 0)

/-- Every lane of the first state is zero. -/
theorem getD_zero (i : ℕ) : (List.replicate 25 (0 : ℤ)).getD i 0 = 0 := by
  rw [List.getD_eq_getElem?_getD, List.getElem?_getD_replicate_default_eq]

/-- The state that absorbing begins with is one of words. -/
theorem lanes_zero : Lanes (List.replicate 25 0) :=
  ⟨List.length_replicate, fun i => by rw [getD_zero]; exact isWord_zero⟩

/-- The string of the state that absorbing begins with is all zeros. -/
theorem ofState_zero : ofState (stateOf (List.replicate 25 0)) = List.replicate 1600 false := by
  have hlength : (ofState (stateOf (List.replicate 25 0))).length = 1600 := ofState_length _
  apply List.ext_getElem
  · rw [hlength, List.length_replicate]
  · intro k hk _
    rw [hlength] at hk
    rw [← List.getD_eq_getElem _ false, getD_ofState_stateOf _ hk, getD_zero,
      List.getElem_replicate]
    exact Nat.zero_testBit _

/-- The offsets at which the blocks begin. -/
theorem range'_step (n step : ℕ) : List.range' 0 n step = (List.range n).map (step * ·) := by
  apply List.ext_getElem
  · simp
  · intro k _ _
    simp

/-- **All blocks.** By induction on their number, since each begins with the state that the one
before it left. -/
theorem absorbed_spec (bytes : Octets) :
    Lanes (absorbed bytes) ∧
      ofState (stateOf (absorbed bytes)) =
        (List.range ((bitsOf (pad bytes)).length / 576)).foldl
          (absorbBlock (keccakP 64 24) 1600 576 (bitsOf (pad bytes)))
          (List.replicate 1600 false) := by
  have hcount : (bitsOf (pad bytes)).length / 576 = (pad bytes).length / 72 := by
    rw [bitsOf_length]
    omega
  have hblocks : ∀ i ∈ List.range ((pad bytes).length / 72), 72 * (i + 1) ≤ (pad bytes).length := by
    intro i hi
    have hlt := List.mem_range.mp hi
    omega
  rw [hcount, ← ofState_zero, absorbed, RATE, range'_step]
  exact blocks_spec hblocks lanes_zero

/-- **The digest's bits.** -/
theorem keccak_eq (bytes : Octets) :
    keccak 1024 (bitsOf bytes ++ [false, true]) 512 =
      (ofState (stateOf (absorbed bytes))).take 512 := by
  have hlength : (ofState (stateOf (absorbed bytes))).length = 1600 := ofState_length _
  have hone : ∀ S : BitString, S.length = 1600 →
      squeeze (keccakP 64 24) 576 512 513 [] S = S.take 512 := by
    intro S hS
    rw [squeeze, List.nil_append, if_pos (by rw [List.length_take, hS]; decide), List.take_take]
    rfl
  rw [(absorbed_spec bytes).2] at hlength ⊢
  rw [← hone _ hlength, bitsOf_pad]
  rfl

/-! ## The hexadecimal text -/

/-- A byte is written as two digits, with a zero in front where one would do. There are 256
cases. -/
theorem byte_hex : ∀ m : Fin 256,
    padStart 2 '0' (Nat.toDigits 16 m) = [Text.hexDigit (m / 16), Text.hexDigit (m % 16)] := by
  decide +kernel

/-- The lowest byte of a lane. -/
theorem lowByte_eq (v : ℤ) :
    (Int.land v 0xff).toNat = Nat.ofBits fun j : Fin 8 => v.testBit j := by
  have hmask : (0xff : ℤ) = mask 8 := rfl
  have hbit : ∀ k, (Int.land v 0xff).testBit k = (v.testBit k && decide (k < 8)) := by
    intro k
    rw [hmask, Int.testBit_land, testBit_mask]
  obtain ⟨m, hm, -⟩ := (hmask ▸ isWord_mask.and v : IsWord 8 (Int.land v 0xff)).exists_nat
  rw [hm] at hbit ⊢
  apply Nat.eq_of_testBit_eq
  intro k
  have hk : m.testBit k = (v.testBit k && decide (k < 8)) := hbit k
  rw [Int.toNat_natCast, hk]
  by_cases hlow : k < 8
  · rw [Nat.testBit_ofBits_lt _ _ hlow, decide_eq_true hlow, Bool.and_true]
  · rw [Nat.testBit_ofBits_ge _ _ (Nat.not_lt.mp hlow), decide_eq_false hlow, Bool.and_false]

/-- Byte `b` of a lane. -/
def byteOf (lane : ℤ) (b : ℕ) : UInt8 :=
  UInt8.ofNat (Nat.ofBits fun j : Fin 8 => lane.testBit (8 * b + j))

/-- So the bytes of a lane are written one after the other, the lowest first. -/
theorem hexBytes_eq (count : ℕ) (lane : ℤ) :
    hexBytes count lane = Text.hexLower ((List.range count).map (byteOf lane)) := by
  induction count generalizing lane with
  | zero => rfl
  | succ count ih =>
      have hlow : Nat.ofBits (fun j : Fin 8 => lane.testBit j) < 256 := Nat.ofBits_lt_two_pow _
      have hfirst : (byteOf lane 0).toNat = Nat.ofBits fun j : Fin 8 => lane.testBit j := by
        simp only [byteOf, Nat.mul_zero, Nat.zero_add]
        exact Nat.mod_eq_of_lt hlow
      have hrest : ∀ b, byteOf (lane >>> (8 : ℕ)) b = byteOf lane (b + 1) := by
        intro b
        have hindex : ∀ j : Fin 8, 8 + (8 * b + (j : ℕ)) = 8 * (b + 1) + j := fun j => by omega
        simp only [byteOf, testBit_shiftRight, hindex]
      have hcons : ∀ x xs, Text.hexLower (x :: xs) =
          [Text.hexDigit (x.toNat / 16), Text.hexDigit (x.toNat % 16)] ++ Text.hexLower xs :=
        fun _ _ => rfl
      rw [hexBytes, ih, List.range_succ_eq_map, List.map_cons, List.map_map, hcons, hfirst,
        lowByte_eq, byte_hex ⟨_, hlow⟩, List.map_congr_left fun b _ => hrest b]
      rfl

/-- Eight times eight is sixty-four, in order. -/
theorem range_pairs {α : Type} (g : ℕ → ℕ → α) :
    ((List.range 8).flatMap fun i => (List.range 8).map (g i)) =
      (List.range 64).map fun k => g (k / 8) (k % 8) := rfl

/-- The bytes of the digest, in the lanes. -/
theorem sha3_512_eq (bytes : Octets) :
    Keccak.sha3_512 bytes =
      (List.range 8).flatMap fun i => (List.range 8).map (byteOf ((absorbed bytes).getD i 0)) := by
  have hlength : ((ofState (stateOf (absorbed bytes))).take 512).length = 512 := by
    rw [List.length_take, ofState_length]
    decide
  have hbytes : 512 / 8 = 64 := by decide
  rw [Keccak.sha3_512, keccak_eq, bytesOf, hlength, range_pairs, hbytes]
  refine List.map_congr_left fun k hk => ?_
  have hlt := List.mem_range.mp hk
  refine congrArg (fun f => UInt8.ofNat (Nat.ofBits f)) (funext fun j => ?_)
  have hj := j.isLt
  have hlane : (8 * k + j) / 64 = k / 8 := by omega
  have hbit : (8 * k + j) % 64 = 8 * (k % 8) + j := by omega
  rw [← hlane, ← hbit, ← getD_ofState_stateOf _ (by omega)]
  simp only [List.getD_eq_getElem?_getD, List.getElem?_take, if_pos (show 8 * k + j < 512 by omega)]

/-- **The panel's digest is SHA3-512.** -/
theorem sha3_512_hex_spec (bytes : Octets) :
    sha3_512_hex bytes = Text.hexLower (Keccak.sha3_512 bytes) := by
  rw [sha3_512_eq, Text.hexLower, List.flatMap_assoc]
  have hlanes : sha3_512_hex bytes =
      (List.range 8).flatMap fun i => hexBytes 8 ((absorbed bytes).getD i 0) := rfl
  simp only [hlanes, hexBytes_eq]
  rfl

end BreezePanel
