import BreezeCore.Auth.Signing
import BreezeCore.Lib.Decimal
import BreezeCore.Panel.Fips202

/-!
# Auth v2 in the browser

The panel signs every request over a canonical text of its own making, with a digest of its
own.

* `panel_canonical` — that text is the one the server checks the signature of.
-/

namespace BreezePanel

open Bytes Text BreezeAuth

/-- What the browser's own cryptography provides, and upper-casing. -/
structure Browser where
  /-- `crypto.subtle.sign` with the private key. -/
  sign : Octets → Octets
  b64u : Octets → Str
  upper : Char → Str

/-- The five headers of a signed request, without the version. -/
structure SignedHeaders where
  keyId : Str
  timestamp : Str
  nonce : Str
  signature : Str
  deriving DecidableEq, Repr

/-- The text that is signed. -/
def canonical (upper : Char → Str) (method path ts nonce : Str) (body : Option Str) : Octets :=
  toUtf8 (List.intercalate "\n".toList
    ["breeze-auth-v2".toList, method.flatMap upper, path, ts, nonce,
      sha3_512_hex (toUtf8 (body.getD []))])

/-- The stamp of a request at a time in milliseconds. -/
def stamp (now clockOffsetSeconds : ℤ) : ℤ := now / 1000 + clockOffsetSeconds

/-- Build the headers for one request, at a time and with random bytes for the nonce. -/
def signRequestHeaders (browser : Browser) (keyId method path : Str) (body : Option Str)
    (clockOffsetSeconds now : ℤ) (nonceBytes : Octets) : SignedHeaders :=
  let ts := showInt (stamp now clockOffsetSeconds)
  let nonce := browser.b64u nonceBytes
  { keyId := keyId
    timestamp := ts
    nonce := nonce
    signature := browser.b64u (browser.sign (canonical browser.upper method path ts nonce body)) }

variable (C : Crypto)

theorem canonical_eq (hsha3 : ∀ data, C.sha3_512 data = Keccak.sha3_512 data)
    (method path ts nonce : Str) (body : Option Str) :
    canonical C.upper method path ts nonce body =
      buildCanonical C method path ts nonce (toUtf8 (body.getD [])) := by
  have hdigest : sha3Hex C (toUtf8 (body.getD [])) = sha3_512_hex (toUtf8 (body.getD [])) := by
    rw [sha3_512_hex_spec, sha3Hex, hsha3]
  unfold canonical buildCanonical
  rw [hdigest]
  generalize sha3_512_hex (toUtf8 (body.getD [])) = digest
  have hlead : "breeze-auth-v2".toList = CANONICAL_PREFIX := rfl
  have hline : "\n".toList = ['\n'] := rfl
  rw [hlead, hline]
  generalize CANONICAL_PREFIX = lead
  refine congrArg toUtf8 ?_
  simp only [List.intercalate, List.intersperse, List.flatten_cons, List.flatten_nil,
    List.append_nil, List.nil_append, List.append_assoc, List.cons_append]

/-- **The panel and the server sign the same text**, where the server's crate computes
SHA3-512. -/
theorem panel_canonical (hsha3 : ∀ data, C.sha3_512 data = Keccak.sha3_512 data) :
    (∀ bytes, sha3_512_hex bytes = hexLower (Keccak.sha3_512 bytes)) ∧
      ∀ (method path ts nonce : Str) (body : Option Str),
        canonical C.upper method path ts nonce body =
          buildCanonical C method path ts nonce (toUtf8 (body.getD [])) :=
  ⟨sha3_512_hex_spec, canonical_eq C hsha3⟩

/-- The crates, with a digest that is what the standard says. -/
def withSha3 : Crypto := { oneSigner with sha3_512 := Keccak.sha3_512 }

/-- The request for the list of units, with its method in small letters. -/
theorem panel_canonical_units :
    canonical withSha3.upper "get".toList "/api/units".toList "1787488556".toList
        "nonce-1".toList none =
      buildCanonical withSha3 "get".toList "/api/units".toList "1787488556".toList
        "nonce-1".toList [] :=
  (panel_canonical withSha3 fun _ => rfl).2 _ _ _ _ none

end BreezePanel
