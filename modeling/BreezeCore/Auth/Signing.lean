import Mathlib.Data.Rat.Floor
import Mathlib.Logic.Equiv.Basic
import BreezeCore.Lib.Grid
import BreezeCore.Lib.Text

/-!
# Signed requests

A request is signed over a canonical string of its method, path, timestamp,
nonce and body digest.  The digests, the curve, base64, upper-casing and the rounding of
doubles come from other crates and the standard library; they are the fields of `Crypto`.
-/

namespace BreezeAuth

open Bytes Text

/-- What the crates `sha2`, `sha3`, `base64` and `ed25519_dalek`, the
upper-casing of characters and the arithmetic of doubles provide. -/
structure Crypto where
  sha256 : Octets → Octets
  sha3_512 : Octets → Octets
  /-- `URL_SAFE_NO_PAD.encode`. -/
  b64url : Octets → Str
  /-- `STANDARD_NO_PAD.decode`. -/
  b64 : Str → Option Octets
  /-- `VerifyingKey::from_bytes` accepts the bytes. -/
  keyIsValid : Arr 32 → Bool
  /-- `verify_strict` on a key, a message and a signature. -/
  verifyStrict : Arr 32 → Octets → Arr 64 → Bool
  /-- `char::to_uppercase`. -/
  upper : Char → Str
  /-- The double that is nearest to a number. -/
  toF64 : ℚ → ℚ

def CANONICAL_PREFIX : Str := "breeze-auth-v2".toList

variable (C : Crypto)

/-- Decode base64 in either alphabet, with or without padding. -/
def b64Decode (value : Str) : Option Octets :=
  let trimmed := (value.reverse.dropWhile (· = '=')).reverse
  C.b64 (trimmed.map fun c => if c = '-' then '+' else if c = '_' then '/' else c)

/-- Hex SHA3-512 of the request body. -/
def sha3Hex (data : Octets) : Str := hexLower (C.sha3_512 data)

/-- Assemble the exact bytes that get signed. -/
def buildCanonical (method path timestamp nonce : Str) (body : Octets) : Octets :=
  toUtf8 (CANONICAL_PREFIX ++ '\n' :: method.flatMap C.upper ++ '\n' :: path ++ '\n' :: timestamp ++
    '\n' :: nonce ++ '\n' :: sha3Hex C body)

/-- Bytes as an array, when there are exactly that many. -/
def tryInto (n : Nat) (bytes : Octets) : Option (Arr n) :=
  if h : bytes.length = n then some ⟨bytes, h⟩ else none

def parsePublicKey (publicKeyB64 : Str) : Option (Arr 32) := do
  let raw ← b64Decode C publicKeyB64
  let bytes ← tryInto 32 raw
  if C.keyIsValid bytes then some bytes else none

/-- Whether a base64 string is a usable Ed25519 public key. -/
def publicKeyIsValid (publicKeyB64 : Str) : Bool := (parsePublicKey C publicKeyB64).isSome

/-- Verify a signature over `canonical`.  Any malformed input is a rejection. -/
def verifySignature (publicKeyB64 : Str) (canonical : Octets) (signatureB64 : Str) : Bool :=
  match parsePublicKey C publicKeyB64 with
  | none => false
  | some key =>
      match (b64Decode C signatureB64).bind (tryInto 64) with
      | none => false
      | some signature => C.verifyStrict key canonical signature

/-! ## One signer

The crates on the inputs of one device: a key pair, a request it signed, the
code of its pairing and a bearer secret with their digests. -/

def signerKey : Octets :=
  [234, 74, 108, 99, 226, 156, 82, 10, 190, 245, 80, 123, 19, 46, 197, 249, 149, 71, 118, 174,
   190, 190, 123, 146, 66, 30, 234, 105, 20, 70, 210, 44]

def signerKeyText : Str := "6kpsY+KcUgq+9VB7Ey7F+ZVHdq6+vnuSQh7qaRRG0iw".toList

/-- The signature of `GET /api/units`, stamped 1787488556 with `nonce-1`. -/
def signerSignature : Octets :=
  [62, 185, 209, 114, 140, 67, 9, 148, 197, 96, 119, 192, 144, 31, 97, 44, 89, 2, 195, 237, 4, 23,
   98, 209, 233, 59, 41, 4, 243, 164, 33, 232, 40, 181, 248, 75, 221, 77, 150, 79, 193, 184, 203,
   34, 187, 11, 225, 123, 227, 227, 245, 120, 92, 67, 216, 76, 56, 102, 48, 218, 42, 91, 53, 13]

def signerSignatureText : Str :=
  "PrnRcoxDCZTFYHfAkB9hLFkCw+0EF2LR6TspBPOkIegotfhL3U2WT8G4yyK7C+F74+P1eFxD2Ew4ZjDaKls1DQ".toList

/-- SHA3-512 of an empty body. -/
def emptyDigest : Octets :=
  [166, 159, 115, 204, 162, 58, 154, 197, 200, 181, 103, 220, 24, 90, 117, 110, 151, 201, 130, 22,
   79, 226, 88, 89, 224, 209, 220, 193, 71, 92, 128, 166, 21, 178, 18, 58, 241, 245, 249, 76, 17,
   227, 233, 64, 44, 58, 197, 88, 245, 0, 25, 157, 149, 182, 211, 227, 1, 117, 133, 134, 40, 29,
   205, 38]

def signerSecretBytes : Octets := List.replicate 32 7

def signerSecret : Str := "BwcHBwcHBwcHBwcHBwcHBwcHBwcHBwcHBwcHBwcHBwc".toList

/-- SHA-256 of the secret. -/
def signerSecretDigest : Octets :=
  [220, 75, 248, 12, 119, 71, 61, 19, 15, 160, 222, 134, 186, 64, 24, 254, 152, 187, 33, 64, 5,
   230, 165, 137, 29, 18, 186, 145, 68, 111, 158, 129]

def signerSession : Str := "BwcHBwcHBwcHBwcHBwcHBwcH".toList

/-- The code of the signer's pairing, as it is hashed. -/
def signerCode : Str := "A4DQOBYH".toList

/-- SHA-256 of the code. -/
def signerCodeDigest : Octets :=
  [35, 117, 244, 128, 184, 231, 224, 27, 132, 240, 248, 172, 64, 129, 14, 175, 87, 213, 108, 70,
   108, 99, 221, 220, 220, 82, 83, 129, 101, 38, 223, 178]

/-- The message the signature is of. -/
def signerMessage : Octets :=
  toUtf8 ("breeze-auth-v2\nGET\n/api/units\n1787488556\nnonce-1\n".toList ++ hexLower emptyDigest)

/-- The crates, on these inputs.  Exchanging a text with its digest keeps the hash
injective.  From 2004 to 2038 the doubles are the multiples of 2⁻²² seconds. -/
def oneSigner : Crypto where
  sha256 := (Equiv.swap (toUtf8 signerCode) signerCodeDigest).trans
    (Equiv.swap (toUtf8 signerSecret) signerSecretDigest)
  sha3_512 := fun _ => emptyDigest
  b64url := fun bytes => if bytes = signerSecretBytes then signerSecret else signerSession
  b64 := fun text =>
    if text = signerKeyText then some signerKey
    else if text = signerSignatureText then some signerSignature
    else none
  keyIsValid := fun key => key.1 = signerKey
  verifyStrict := fun key message signature =>
    key.1 = signerKey ∧ message = signerMessage ∧ signature.1 = signerSignature
  upper := fun c => [c.toUpper]
  toF64 := Grid.nearestTick (2 ^ 22)

end BreezeAuth
