import Mathlib.Data.Rat.Floor
import BreezeCore.Auth.Nonce
import BreezeCore.Auth.Signing
import BreezeCore.Store.Devices

/-!
# Deciding whether a request may proceed

A client that announces version 2 is held to the signature scheme, anything else
is treated as a legacy bearer; that dispatch, rather than "try both", is what
stops a downgrade.  `verifyV1_allow` and `verifyV2_allow` say what each of the
two has established when it answers yes.
-/

namespace BreezeAuth

open Bytes Text BreezeStore

/-- The stable reason codes. -/
inductive Reason where
  | noCredential
  | unknownKey
  | expired
  | badSignature
  | badApiKey
  | clockSkew
  | replay
  | incompleteSignature
  deriving DecidableEq, Repr

def Reason.code : Reason → String
  | .noCredential => "no_credential"
  | .unknownKey => "unknown_key"
  | .expired => "expired"
  | .badSignature => "bad_signature"
  | .badApiKey => "bad_api_key"
  | .clockSkew => "clock_skew"
  | .replay => "replay"
  | .incompleteSignature => "incomplete_signature"

/-- Whether a client should try again rather than assume its credential is
finished. -/
def Reason.isRetryable : Reason → Bool
  | .clockSkew | .replay | .incompleteSignature => true
  | _ => false

/-- Extra fields a `clock_skew` rejection carries so a client can self-heal. -/
structure SkewInfo where
  serverTime : ℚ
  clientTime : Str
  maxSkewSeconds : Nat
  deriving DecidableEq, Repr

/-- A refusal, ready to become an HTTP response. -/
structure Rejection where
  status : Nat
  reason : Reason
  detail : String
  skew : Option SkewInfo := none
  deriving DecidableEq, Repr

def Rejection.unauthorized (reason : Reason) (detail : String) : Rejection :=
  { status := 401, reason := reason, detail := detail }

def Rejection.withSkew (r : Rejection) (skew : SkewInfo) : Rejection := { r with skew := some skew }

/-- The `detail` object of a refusal's body. -/
structure RejectionDetail where
  error : String
  detail : String
  retryable : Bool
  serverTime : Option ℚ
  clientTime : Option Str
  maxSkewSeconds : Option Nat
  deriving DecidableEq, Repr

def Rejection.body (r : Rejection) : RejectionDetail where
  error := r.reason.code
  detail := r.detail
  retryable := r.reason.isRetryable
  serverTime := r.skew.map SkewInfo.serverTime
  clientTime := r.skew.map SkewInfo.clientTime
  maxSkewSeconds := r.skew.map SkewInfo.maxSkewSeconds

/-- The 426 a device below the floor gets. -/
structure UpgradeRequiredDetail where
  error : String
  minAuthVersion : UInt8
  detail : String
  deriving DecidableEq, Repr

def upgradeRequiredBody (minAuthVersion : UInt8) : UpgradeRequiredDetail where
  error := "auth_upgrade_required"
  minAuthVersion := minAuthVersion
  detail := "This version of the app uses an outdated, less secure " ++
    "connection. Please update Breeze to continue controlling your units."

/-- What a request presents. -/
structure Presented where
  apiKey : Option Str := none
  /-- The bearer token, already stripped of its `Bearer ` prefix. -/
  bearer : Option Str := none
  authVersion : Option Str := none
  keyId : Option Str := none
  timestamp : Option Str := none
  nonce : Option Str := none
  signature : Option Str := none
  method : Str := []
  /-- Path including the query string, because that is what clients sign. -/
  path : Str := []
  body : Octets := []
  deriving DecidableEq, Repr

/-- Parse an `Authorization` header value into a bearer token. -/
def bearerFromHeader (header : Str) : Option Str := do
  let (scheme, token) ← splitOnce ' ' header
  if toAsciiLowercase scheme = "bearer".toList then
    let token := trim token
    if token = [] then none else some token
  else none

/-- Outcome of a successful check. -/
structure Authenticated where
  tokenId : Str
  authVersion : UInt8
  deriving DecidableEq, Repr

/-- Either proceed, refuse, or tell the client to update. -/
inductive Decision where
  | allow (who : Authenticated)
  | reject (r : Rejection)
  | upgradeRequired (minAuthVersion : UInt8)
  deriving DecidableEq, Repr

/-- The floor under the schemes this server accepts. -/
structure Verifier where
  minAuthVersion : UInt8

/-- The API key check; its constant time is not modelled. -/
def Verifier.verifyApiKey (_v : Verifier) (presented expected : Option Str) : Option Rejection :=
  let presented := presented.getD []
  let expected := expected.getD []
  if presented = expected ∧ expected ≠ [] then none
  else some (.unauthorized (if presented = [] then .noCredential else .badApiKey)
    "missing or invalid X-API-Key header")

variable (C : Crypto)

/-- Hex SHA-256 of a secret, for comparison against a stored `token_hash`. -/
def hashSecret (secret : Str) : Str := hexLower (C.sha256 (toUtf8 secret))

theorem hashSecret_injective {C : Crypto} (h : Function.Injective C.sha256) :
    Function.Injective (hashSecret C) :=
  hexLower_injective.comp (h.comp toUtf8_injective)

/-- The last record whose token hash matches.  Every record is compared, without
an early exit. -/
def lastMatch (candidate : Str) : List DeviceRecord → Option DeviceRecord → Option DeviceRecord
  | [], found => found
  | record :: records, found =>
      lastMatch candidate records (if record.tokenHash = some candidate then some record else found)

/-- Find the unexpired record whose token hash matches. -/
def findBySecret (doc : DevicesDoc) (secret : Str) (now : ℚ) : Option DeviceRecord :=
  match lastMatch (hashSecret C secret) doc.devices none with
  | none => none
  | some record => if record.Unexpired now then some record else none

/-- Find the unexpired v2 record with this key id. -/
def findByKeyId (doc : DevicesDoc) (keyId : Str) (now : ℚ) : Option DeviceRecord :=
  match doc.devices.find? fun r => r.tokenId = keyId ∧ r.authVersion = 2 with
  | none => none
  | some record => if record.Unexpired now then some record else none

/-- `x.round()`: half away from zero. -/
def round (x : ℚ) : Int := if 0 ≤ x then ⌊x + 1 / 2⌋ else ⌈x - 1 / 2⌉

def Verifier.verifyV1 (v : Verifier) (doc : DevicesDoc) (p : Presented) (now : ℚ) : Decision :=
  let token := p.bearer.getD []
  match (if token = [] then none else findBySecret C doc token now) with
  | none =>
      .reject (.unauthorized (if token = [] then .noCredential else .unknownKey)
        "missing, invalid, or expired device token — enroll this device to get one")
  | some record =>
      if record.authVersion < v.minAuthVersion then .upgradeRequired v.minAuthVersion
      else .allow ⟨record.tokenId, record.authVersion⟩

/-- What a rejection outside the window tells the client. -/
def clockSkew (nonces : NonceCache) (timestamp : Str) (now : ℚ) : Rejection :=
  (Rejection.unauthorized .clockSkew
    "request timestamp outside the allowed window — check the device clock").withSkew
      { serverTime := C.toF64 ((round (C.toF64 (now * 1000)) : ℚ) / 1000)
        clientTime := timestamp
        maxSkewSeconds := nonces.skewSeconds }

/-- The signature scheme, once its four headers are there: the record, its
version, the clock, the signature, and only then the nonce. -/
def Verifier.verifySigned (v : Verifier) (doc : DevicesDoc) (p : Presented)
    (keyId timestamp nonce signature : Str) (nonces : NonceCache) (now : ℚ) :
    Decision × NonceCache :=
  match findByKeyId doc keyId now with
  | none =>
      (.reject (.unauthorized .unknownKey "unknown, expired, or non-v2 device key"), nonces)
  | some record =>
      if record.authVersion < v.minAuthVersion then (.upgradeRequired v.minAuthVersion, nonces)
      else if ¬ nonces.timestampInWindow C.toF64 timestamp now then
        (.reject (clockSkew C nonces timestamp now), nonces)
      else if ¬ verifySignature C (record.publicKey.getD [])
          (buildCanonical C p.method p.path timestamp nonce p.body) signature then
        (.reject (.unauthorized .badSignature "bad request signature"), nonces)
      else
        -- Signature before nonce: a forged request must not spend a nonce.
        match nonces.checkAndStore C.toF64 nonce now with
        | (false, nonces) =>
            (.reject (.unauthorized .replay
              "replayed request (nonce already used) — retry with a fresh nonce"), nonces)
        | (true, nonces) => (.allow ⟨record.tokenId, record.authVersion⟩, nonces)

def incomplete : Decision :=
  .reject (.unauthorized .incompleteSignature "incomplete signature headers")

def Verifier.verifyV2 (v : Verifier) (doc : DevicesDoc) (p : Presented) (nonces : NonceCache)
    (now : ℚ) : Decision × NonceCache :=
  match p.keyId, p.timestamp, p.nonce, p.signature with
  | some keyId, some timestamp, some nonce, some signature =>
      if keyId = [] ∨ timestamp = [] ∨ nonce = [] ∨ signature = [] then (incomplete, nonces)
      else v.verifySigned C doc p keyId timestamp nonce signature nonces now
  | _, _, _, _ => (incomplete, nonces)

/-- Verify the per-device credential. -/
def Verifier.verifyDevice (v : Verifier) (doc : DevicesDoc) (p : Presented) (nonces : NonceCache)
    (now : ℚ) : Decision × NonceCache :=
  if p.authVersion = some "2".toList then v.verifyV2 C doc p nonces now
  else (v.verifyV1 C doc p now, nonces)

/-! ## What an answer rests on -/

private theorem lastMatch_mem {candidate : Str} {record : DeviceRecord} :
    ∀ (records : List DeviceRecord) (found : Option DeviceRecord),
      lastMatch candidate records found = some record →
        found = some record ∨ (record ∈ records ∧ record.tokenHash = some candidate) := by
  intro records
  induction records with
  | nil => intro found h; exact Or.inl h
  | cons r records ih =>
      intro found h
      rcases ih _ h with hfound | ⟨hmem, hhash⟩
      · split at hfound
        next hhash =>
          obtain rfl := Option.some.inj hfound
          exact Or.inr ⟨List.mem_cons_self, hhash⟩
        next => exact Or.inl hfound
      · exact Or.inr ⟨List.mem_cons_of_mem _ hmem, hhash⟩

/-- A record found by a secret carries the hash of that secret, and has not
expired. -/
theorem findBySecret_some {doc : DevicesDoc} {secret : Str} {now : ℚ} {record : DeviceRecord}
    (h : findBySecret C doc secret now = some record) :
    record ∈ doc.devices ∧ record.tokenHash = some (hashSecret C secret) ∧
      record.Unexpired now := by
  unfold findBySecret at h
  split at h
  next => cases h
  next found hfound =>
    split at h
    next hunexpired =>
      obtain rfl := Option.some.inj h
      rcases lastMatch_mem doc.devices none hfound with hnone | ⟨hmem, hhash⟩
      · cases hnone
      · exact ⟨hmem, hhash, hunexpired⟩
    next => cases h

/-- A record found by a key id has that id and version 2, and has not expired. -/
theorem findByKeyId_some {doc : DevicesDoc} {keyId : Str} {now : ℚ} {record : DeviceRecord}
    (h : findByKeyId doc keyId now = some record) :
    record ∈ doc.devices ∧ record.tokenId = keyId ∧ record.authVersion = 2 ∧
      record.Unexpired now := by
  unfold findByKeyId at h
  split at h
  next => cases h
  next found hfound =>
    split at h
    next hunexpired =>
      obtain rfl := Option.some.inj h
      have hboth : found.tokenId = keyId ∧ found.authVersion = 2 := by
        simpa using List.find?_some hfound
      exact ⟨List.mem_of_find?_eq_some hfound, hboth.1, hboth.2, hunexpired⟩
    next => cases h

/-- A record found by a key id is the first with that id and version 2. -/
theorem findByKeyId_find {doc : DevicesDoc} {keyId : Str} {now : ℚ} {record : DeviceRecord}
    (h : findByKeyId doc keyId now = some record) :
    (doc.devices.find? fun r => r.tokenId = keyId ∧ r.authVersion = 2) = some record := by
  unfold findByKeyId at h
  split at h
  next => cases h
  next found hfound =>
    split at h
    next => exact hfound.trans h
    next => cases h

/-- It is found again as long as it has not expired. -/
theorem findByKeyId_later {doc : DevicesDoc} {keyId : Str} {now later : ℚ} {record : DeviceRecord}
    (h : findByKeyId doc keyId now = some record) (hlater : record.Unexpired later) :
    findByKeyId doc keyId later = some record := by
  unfold findByKeyId
  rw [findByKeyId_find h]
  exact if_pos hlater

/-- **A bearer is let in** on a record that carries the hash of the token. The record is one of
the document's, has not expired, and its version is not below the floor. -/
theorem Verifier.verifyV1_allow {v : Verifier} {doc : DevicesDoc} {p : Presented} {now : ℚ}
    {who : Authenticated} (h : v.verifyV1 C doc p now = .allow who) :
    ∃ record token, record ∈ doc.devices ∧ p.bearer = some token ∧ token ≠ [] ∧
      record.tokenHash = some (hashSecret C token) ∧ record.Unexpired now ∧
      v.minAuthVersion ≤ record.authVersion ∧ who = ⟨record.tokenId, record.authVersion⟩ := by
  unfold verifyV1 at h
  dsimp only at h
  split at h
  next => cases h
  next record hfind =>
    split at h
    next => cases h
    next hversion =>
      split at hfind
      next => cases hfind
      next htoken =>
        obtain ⟨hmem, hhash, hunexpired⟩ := findBySecret_some C hfind
        obtain ⟨token, hbearer⟩ : ∃ token, p.bearer = some token := by
          cases hbearer : p.bearer with
          | none => rw [hbearer] at htoken; exact absurd rfl htoken
          | some token => exact ⟨token, rfl⟩
        rw [hbearer, Option.getD_some] at htoken hhash
        refine ⟨record, token, hmem, hbearer, htoken, hhash, hunexpired, ?_, ?_⟩
        · exact UInt8.not_lt.mp hversion
        · injection h with h
          exact h.symm

/-- The tests a signed request passes before its nonce is looked at. -/
structure Signed (v : Verifier) (doc : DevicesDoc) (p : Presented)
    (keyId timestamp nonce signature : Str) (nonces : NonceCache) (now : ℚ)
    (record : DeviceRecord) : Prop where
  found : findByKeyId doc keyId now = some record
  version : v.minAuthVersion ≤ record.authVersion
  inWindow : nonces.timestampInWindow C.toF64 timestamp now = true
  signature : verifySignature C (record.publicKey.getD [])
    (buildCanonical C p.method p.path timestamp nonce p.body) signature = true

/-- **The signature scheme, in one line.**  A request that passes its tests gets
what the nonce cache answers; any other leaves the cache alone and is not let
in. -/
theorem Verifier.verifySigned_cases (v : Verifier) (doc : DevicesDoc) (p : Presented)
    (keyId timestamp nonce signature : Str) (nonces : NonceCache) (now : ℚ) :
    (∃ record, Signed C v doc p keyId timestamp nonce signature nonces now record ∧
      (v.verifySigned C doc p keyId timestamp nonce signature nonces now).2 =
        (nonces.checkAndStore C.toF64 nonce now).2 ∧
      ((nonces.checkAndStore C.toF64 nonce now).1 = true →
        (v.verifySigned C doc p keyId timestamp nonce signature nonces now).1 =
          .allow ⟨record.tokenId, record.authVersion⟩) ∧
      ((nonces.checkAndStore C.toF64 nonce now).1 = false → ∀ who,
        (v.verifySigned C doc p keyId timestamp nonce signature nonces now).1 ≠ .allow who)) ∨
    ((∀ record, ¬ Signed C v doc p keyId timestamp nonce signature nonces now record) ∧
      (v.verifySigned C doc p keyId timestamp nonce signature nonces now).2 = nonces ∧
      ∀ who, (v.verifySigned C doc p keyId timestamp nonce signature nonces now).1 ≠
        .allow who) := by
  unfold verifySigned
  cases hfind : findByKeyId doc keyId now with
  | none =>
      refine Or.inr ⟨?_, rfl, nofun⟩
      intro record hsigned
      rw [hsigned.found] at hfind
      cases hfind
  | some record =>
      have hother : ∀ record', findByKeyId doc keyId now = some record' → record' = record := by
        intro record' h
        rw [hfind] at h
        exact (Option.some.inj h).symm
      dsimp only
      by_cases hversion : record.authVersion < v.minAuthVersion
      · rw [if_pos hversion]
        refine Or.inr ⟨?_, rfl, nofun⟩
        intro record' hsigned
        obtain rfl := hother record' hsigned.found
        exact UInt8.not_lt.mpr hsigned.version hversion
      · rw [if_neg hversion]
        by_cases hwindow : nonces.timestampInWindow C.toF64 timestamp now = true
        · rw [if_neg (not_not_intro hwindow)]
          by_cases hsig : verifySignature C (record.publicKey.getD [])
              (buildCanonical C p.method p.path timestamp nonce p.body) signature = true
          · rw [if_neg (not_not_intro hsig)]
            refine Or.inl ⟨record, ⟨hfind, UInt8.not_lt.mp hversion, hwindow, hsig⟩, ?_, ?_, ?_⟩
            · split
              next heq => rw [heq]
              next heq => rw [heq]
            · intro hfresh
              split
              next heq => rw [heq] at hfresh; cases hfresh
              next => rfl
            · intro hused who
              split
              next => nofun
              next heq => rw [heq] at hused; cases hused
          · rw [if_pos hsig]
            refine Or.inr ⟨?_, rfl, nofun⟩
            intro record' hsigned
            obtain rfl := hother record' hsigned.found
            exact hsig hsigned.signature
        · rw [if_pos hwindow]
          refine Or.inr ⟨?_, rfl, nofun⟩
          intro record' hsigned
          exact hwindow hsigned.inWindow

/-- The headers a signed request carries, none of them empty. -/
structure Headers (p : Presented) (keyId timestamp nonce signature : Str) : Prop where
  hasKeyId : p.keyId = some keyId
  hasTimestamp : p.timestamp = some timestamp
  hasNonce : p.nonce = some nonce
  hasSignature : p.signature = some signature
  nonempty : ¬ (keyId = [] ∨ timestamp = [] ∨ nonce = [] ∨ signature = [])

/-- Version 2 is the signature scheme on complete headers, and nothing on
others. -/
theorem Verifier.verifyV2_cases (v : Verifier) (doc : DevicesDoc) (p : Presented)
    (nonces : NonceCache) (now : ℚ) :
    (∃ keyId timestamp nonce signature, Headers p keyId timestamp nonce signature ∧
      v.verifyV2 C doc p nonces now =
        v.verifySigned C doc p keyId timestamp nonce signature nonces now) ∨
    ((∀ keyId timestamp nonce signature, ¬ Headers p keyId timestamp nonce signature) ∧
      v.verifyV2 C doc p nonces now = (incomplete, nonces)) := by
  unfold verifyV2
  split
  next keyId timestamp nonce signature hkey hts hnonce hsig =>
    by_cases hempty : keyId = [] ∨ timestamp = [] ∨ nonce = [] ∨ signature = []
    · refine Or.inr ⟨?_, if_pos hempty⟩
      intro keyId' timestamp' nonce' signature' h
      have hk := Option.some.inj (hkey.symm.trans h.hasKeyId)
      have ht := Option.some.inj (hts.symm.trans h.hasTimestamp)
      have hn := Option.some.inj (hnonce.symm.trans h.hasNonce)
      have hs := Option.some.inj (hsig.symm.trans h.hasSignature)
      subst hk ht hn hs
      exact h.nonempty hempty
    · exact Or.inl ⟨keyId, timestamp, nonce, signature, ⟨hkey, hts, hnonce, hsig, hempty⟩,
        if_neg hempty⟩
  next hmissing =>
    refine Or.inr ⟨?_, rfl⟩
    intro keyId timestamp nonce signature h
    exact hmissing _ _ _ _ h.hasKeyId h.hasTimestamp h.hasNonce h.hasSignature

/-- **A signed request is let in** on a record of version 2 whose own key
verified it, inside the window, with a nonce that is not remembered. -/
theorem Verifier.verifyV2_allow {v : Verifier} {doc : DevicesDoc} {p : Presented}
    {nonces : NonceCache} {now : ℚ} {who : Authenticated}
    (h : (v.verifyV2 C doc p nonces now).1 = .allow who) :
    ∃ keyId timestamp nonce signature record, Headers p keyId timestamp nonce signature ∧
      Signed C v doc p keyId timestamp nonce signature nonces now record ∧
      nonces.Unused nonce now ∧ who = ⟨record.tokenId, record.authVersion⟩ ∧
      (v.verifyV2 C doc p nonces now).2 = (nonces.checkAndStore C.toF64 nonce now).2 := by
  rcases v.verifyV2_cases C doc p nonces now with
    ⟨keyId, timestamp, nonce, signature, hheaders, hverify⟩ | ⟨-, hverify⟩
  · rw [hverify] at h ⊢
    rcases v.verifySigned_cases C doc p keyId timestamp nonce signature nonces now with
      ⟨record, hsigned, hcache, hyes, hno⟩ | ⟨-, -, hno⟩
    · cases hfresh : (nonces.checkAndStore C.toF64 nonce now).1 with
      | false => exact absurd h (hno hfresh who)
      | true =>
          refine ⟨keyId, timestamp, nonce, signature, record, hheaders, hsigned,
            (nonces.checkAndStore_iff C.toF64 nonce now).mp hfresh, ?_, hcache⟩
          rw [hyes hfresh] at h
          injection h with h
          exact h.symm
    · exact absurd h (hno who)
  · rw [hverify] at h
    cases h

end BreezeAuth
