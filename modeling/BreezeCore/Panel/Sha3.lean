import BreezeCore.Lib.Loops
import BreezeCore.Lib.Text
import BreezeCore.Lib.Words

/-!
# SHA3-512, because the browser does not have it

The panel's own Keccak.  Lanes are integers of any size, as `BigInt` is; an array is a list,
and a loop over it a fold.
-/

namespace BreezePanel

open Bytes Text

def MASK64 : ℤ := (1 : ℤ) <<< (64 : ℕ) - 1

/-- Keccak-f[1600] round constants. -/
def RC : List ℤ :=
  [0x0000000000000001, 0x0000000000008082, 0x800000000000808a, 0x8000000080008000,
   0x000000000000808b, 0x0000000080000001, 0x8000000080008081, 0x8000000000008009,
   0x000000000000008a, 0x0000000000000088, 0x0000000080008009, 0x000000008000000a,
   0x000000008000808b, 0x800000000000008b, 0x8000000000008089, 0x8000000000008003,
   0x8000000000008002, 0x8000000000000080, 0x000000000000800a, 0x800000008000000a,
   0x8000000080008081, 0x8000000000008080, 0x0000000080000001, 0x8000000080008008]

/-- Rotation offsets: rows are x, columns are y. -/
def R_TABLE : List (List ℕ) :=
  [[0, 36, 3, 41, 18],
   [1, 44, 10, 45, 2],
   [62, 6, 43, 15, 61],
   [28, 55, 25, 21, 56],
   [27, 20, 39, 8, 14]]

/-- The offsets in lane order. -/
def ROT : List ℕ :=
  (List.range 5).foldl
    (fun ROT x =>
      (List.range 5).foldl (fun ROT y => ROT.set (x + 5 * y) ((R_TABLE.getD x []).getD y 0)) ROT)
    (List.replicate 25 0)

def rotl (v : ℤ) (n : ℕ) : ℤ :=
  if n = 0 then v else Int.land (Int.lor (v <<< n) (v >>> (64 - n))) MASK64

/-! ## The permutation -/

def theta (A : List ℤ) : List ℤ :=
  let C := (List.range 5).map fun x =>
    Int.xor (Int.xor (Int.xor (Int.xor (A.getD x 0) (A.getD (x + 5) 0)) (A.getD (x + 10) 0))
      (A.getD (x + 15) 0)) (A.getD (x + 20) 0)
  (List.range 5).foldl
    (fun A x =>
      let D := Int.xor (C.getD ((x + 4) % 5) 0) (rotl (C.getD ((x + 1) % 5) 0) 1)
      [0, 5, 10, 15, 20].foldl (fun A y => A.modify (x + y) fun lane => Int.xor lane D) A)
    A

/-- ρ and π together: (x,y) -> (y, 2x+3y). -/
def rhoPi (A : List ℤ) : List ℤ :=
  (List.range 5).foldl
    (fun B x =>
      (List.range 5).foldl
        (fun B y => B.set (y + 5 * ((2 * x + 3 * y) % 5))
          (rotl (A.getD (x + 5 * y) 0) (ROT.getD (x + 5 * y) 0)))
        B)
    (List.replicate 25 0)

def chi (B A : List ℤ) : List ℤ :=
  [0, 5, 10, 15, 20].foldl
    (fun A y =>
      (List.range 5).foldl
        (fun A x => A.set (x + y) (Int.xor (B.getD (x + y) 0)
          (Int.land (Int.land (Int.lnot (B.getD ((x + 1) % 5 + y) 0)) (B.getD ((x + 2) % 5 + y) 0))
            MASK64)))
        A)
    A

def iota (round : ℕ) (A : List ℤ) : List ℤ := A.modify 0 fun lane => Int.xor lane (RC.getD round 0)

def keccakF (A : List ℤ) : List ℤ :=
  (List.range 24).foldl
    (fun A round =>
      let A := theta A
      let B := rhoPi A
      iota round (chi B A))
    A

/-! ## The digest -/

def RATE : ℕ := 72

/-- SHA-3 domain separation 0x06, zeros, high bit of the last rate byte. -/
def pad (bytes : Octets) : Octets :=
  let length := (bytes.length + 1 + (RATE - 1)) / RATE * RATE
  let padded := bytes ++ List.replicate (length - bytes.length) 0
  let padded := padded.set bytes.length 0x06
  padded.modify (padded.length - 1) fun byte => byte ||| 0x80

/-- A lane of the block at `off`, little-endian. -/
def laneAt (padded : Octets) (off i : ℕ) : ℤ :=
  [7, 6, 5, 4, 3, 2, 1, 0].foldl
    (fun lane b => Int.lor (lane <<< (8 : ℕ)) (padded.getD (off + i * 8 + b) 0).toNat) 0

/-- Absorb the block at `off`. -/
def absorb (padded : Octets) (A : List ℤ) (off : ℕ) : List ℤ :=
  keccakF ((List.range (RATE / 8)).foldl
    (fun A i => A.modify i fun lane => Int.xor lane (laneAt padded off i)) A)

def padStart (length : ℕ) (fill : Char) (text : Str) : Str :=
  List.replicate (length - text.length) fill ++ text

/-- The lowest `count` bytes of a lane, in hexadecimal. -/
def hexBytes : (count : ℕ) → (lane : ℤ) → Str
  | 0, _ => []
  | count + 1, lane =>
      padStart 2 '0' (Nat.toDigits 16 (Int.land lane 0xff).toNat) ++
        hexBytes count (lane >>> (8 : ℕ))

/-- SHA3-512 of a byte array, as a lowercase hex string. -/
def sha3_512_hex (bytes : Octets) : Str :=
  let padded := pad bytes
  let A := (List.range' 0 (padded.length / RATE) RATE).foldl (absorb padded) (List.replicate 25 0)
  (List.range 8).flatMap fun i => hexBytes 8 (A.getD i 0)

end BreezePanel
