import BreezeCore.Auth.Verify

/-!
# Device pairing

A client opens a session and gets a short code; an admin approves the code,
which mints the device's record; the client polls and collects the result once.
Version 1 mints a bearer token, version 2 stores only the public key.

Random bytes are drawn by the caller: a draw is an argument, `none` when the
system has no entropy.  The order in which a hash map is walked is one too.
-/

namespace BreezeAuth

open Bytes Text BreezeStore

/-- A code is good for a minute. -/
def CODE_TTL_SECONDS : Nat := 60

/-- A token is good for ten years. -/
def TOKEN_TTL_DAYS : Int := 3650

/-- Outcomes of a poll, spelled as the clients expect. -/
def PENDING : String := "pending"
/-- What a poll is told once the token is there. -/
def APPROVED : String := "approved"
/-- The status of a session that nobody knows. -/
def UNKNOWN : String := "unknown"

/-- A pairing in progress. -/
structure Session where
  codeHash : Str
  label : Str
  expiresAt : ℚ
  authVersion : UInt8
  publicKey : Option Str
  approved : Bool := false
  /-- The one-time bearer, v1 only. -/
  token : Option Str := none
  record : Option DeviceRecord := none
  deriving DecidableEq, Repr

/-- What a client gets back from `poll`. -/
structure PollOutcome where
  status : String
  /-- Present exactly once, and only for v1. -/
  deviceToken : Option Str := none
  record : Option DeviceRecord := none
  deriving DecidableEq, Repr

/-- Why a pairing cannot be started. -/
inductive EnrollError where
  | badPublicKey
  | noEntropy
  deriving DecidableEq, Repr

/-- The text of it. -/
def EnrollError.message : EnrollError → String
  | .badPublicKey => "public_key is not a valid Ed25519 key"
  | .noEntropy => "no entropy available to mint a credential"

/-- Random bytes of the requested number, or a failure. -/
abbrev Draw (n : Nat) := Option (Arr n)

/-- One byte, drawn again and again. -/
def sameByte (n : Nat) (b : UInt8) : Draw n :=
  some ⟨List.replicate n b, List.length_replicate⟩

/-- The letters and digits a code is made of. -/
def ALPHABET : Str := "ABCDEFGHIJKLMNOPQRSTUVWXYZ234567".toList

/-- A short code a person can read aloud: base32, upper case, `XXXX-XXXX`. -/
def newPairingCode (raw : Arr 5) : Str :=
  let n := raw.1.foldl (fun n b => n * 256 + b.toNat) 0
  let chars := (List.range 8).map fun i => ALPHABET.getD (n / 2 ^ (35 - i * 5) % 32) 'A'
  chars.take 4 ++ '-' :: chars.drop 4

variable (C : Crypto)

/-- Canonicalise a human-entered code: upper case, no spaces or hyphens. -/
def normalizeCode (code : Str) : Str :=
  (code.filter fun c => ! isWhitespace c && c != '-').flatMap C.upper

/-- A public key was sent, and it is one. -/
def usableKey (publicKey : Option Str) : Bool :=
  match publicKey with
  | some k => publicKeyIsValid C k
  | none => false

/-- The pending sessions by their id. -/
structure EnrollmentService where
  sessions : List (Str × Session) := []
  codeTtl : Nat := CODE_TTL_SECONDS
  tokenTtlDays : Int := TOKEN_TTL_DAYS
  deriving DecidableEq, Repr

/-- The order in which a hash map happens to be walked. -/
structure Walk where
  order : List (Str × Session) → List (Str × Session)
  perm : ∀ sessions, (order sessions).Perm sessions

/-- The sessions in the order in which they are stored. -/
def Walk.inOrder : Walk :=
  ⟨id, fun _ => List.Perm.refl _⟩

namespace EnrollmentService

/-- Drop sessions past their expiry. -/
def sweep (service : EnrollmentService) (now : ℚ) : EnrollmentService :=
  { service with sessions := service.sessions.filter fun s => now ≤ s.2.expiresAt }

/-- Store a session, in place of one with its id. -/
def insert (service : EnrollmentService) (id : Str) (session : Session) : EnrollmentService :=
  { service with sessions := (id, session) :: service.sessions.filter fun s => s.1 ≠ id }

/-- The session of an id. -/
def get (service : EnrollmentService) (id : Str) : Option Session :=
  (service.sessions.find? fun s => s.1 = id).map Prod.snd

/-- Forget a session. -/
def remove (service : EnrollmentService) (id : Str) : EnrollmentService :=
  { service with sessions := service.sessions.filter fun s => s.1 ≠ id }

/-- Open a pending session: its id, its code and how long the code is good for. Sessions that have
run out go first; a key that cannot be used, or a draw that fails, opens nothing. -/
def start (service : EnrollmentService) (label : Str) (authVersion : UInt8)
    (publicKey : Option Str) (idDraw : Draw 18) (codeDraw : Draw 5) (now : ℚ) :
    Except EnrollError (Str × Str × Nat) × EnrollmentService :=
  if authVersion = 2 ∧ ¬ usableKey C publicKey then (.error .badPublicKey, service)
  else
    let service := service.sweep now
    match idDraw, codeDraw with
    | none, _ => (.error .noEntropy, service)
    | some _, none => (.error .noEntropy, service)
    | some rawId, some rawCode =>
        let sessionId := C.b64url rawId.1
        let userCode := newPairingCode rawCode
        let label := trim label
        let session : Session :=
          { codeHash := hashSecret C (normalizeCode C userCode)
            label := if label = [] then "unnamed device".toList else label
            expiresAt := now + service.codeTtl
            authVersion := authVersion
            publicKey := publicKey }
        (.ok (sessionId, userCode, service.codeTtl), service.insert sessionId session)

/-- The last unapproved session, in walking order, whose code has this hash. -/
def matched (target : Str) : List (Str × Session) → Option Str → Option Str
  | [], found => found
  | (id, session) :: rest, found =>
      matched target rest
        (if ¬ session.approved ∧ session.codeHash = target then some id else found)

/-- When a credential minted now runs out. -/
def tokenExpiry (service : EnrollmentService) (now : ℚ) : Option ℚ :=
  if service.tokenTtlDays ≤ 0 then none else some (now + service.tokenTtlDays * 86400)

/-- The record and the bearer token an approval mints, if it can draw them. For version 2 the
public key of the session goes into the record, and there is no token. -/
def mint (session : Session) (tokenId : Str) (expiresAt : Option ℚ) (secretDraw : Draw 32)
    (now : ℚ) : Option (DeviceRecord × Option Str) :=
  if session.authVersion = 2 then
    -- Nothing secret is minted: the device already holds its private key.
    some ({ tokenId := tokenId, label := session.label, authVersion := 2, tokenHash := none
            publicKey := session.publicKey, createdAt := now, expiresAt := expiresAt
            lastUsed := none }, none)
  else
    secretDraw.map fun raw =>
      let token := C.b64url raw.1
      ({ tokenId := tokenId, label := session.label, authVersion := 1
         tokenHash := some (hashSecret C token), publicKey := none, createdAt := now
         expiresAt := expiresAt, lastUsed := none }, some token)

/-- Approve a pending session by its code, producing the device's record. The table is walked in
an order of its own, and the session that matched last in it is the one; where a draw fails
nothing is approved. -/
def approve (service : EnrollmentService) (userCode : Str) (walk : Walk) (idDraw : Draw 8)
    (secretDraw : Draw 32) (now : ℚ) : Option DeviceRecord × EnrollmentService :=
  let service := service.sweep now
  let target := hashSecret C (normalizeCode C userCode)
  match matched target (walk.order service.sessions) none with
  | none => (none, service)
  | some id =>
      match idDraw, service.get id with
      | some rawId, some session =>
          match mint C session (hexLower rawId.1) (service.tokenExpiry now) secretDraw now with
          | none => (none, service)
          | some (record, token) =>
              let session :=
                { session with approved := true, token := token, record := some record }
              (some record, service.insert id session)
      | _, _ => (none, service)

/-- Check a session, delivering the credential exactly once. -/
def poll (service : EnrollmentService) (sessionId : Str) (now : ℚ) :
    PollOutcome × EnrollmentService :=
  let service := service.sweep now
  match service.get sessionId with
  | none => ({ status := UNKNOWN }, service)
  | some session =>
      if ¬ session.approved then ({ status := PENDING }, service)
      else
        ({ status := APPROVED, deviceToken := session.token, record := session.record },
          service.remove sessionId)

/-! ## What pairing mints -/

/-- Every session that is to become a version 2 device has a usable key. -/
def KeysUsable (service : EnrollmentService) : Prop :=
  ∀ entry ∈ service.sessions, entry.2.authVersion = 2 → usableKey C entry.2.publicKey = true

variable {C}

/-- Forgetting sessions leaves usable keys. -/
theorem KeysUsable.sweep {service : EnrollmentService} (h : service.KeysUsable C) (now : ℚ) :
    (service.sweep now).KeysUsable C := by
  intro entry hentry
  exact h entry (List.mem_filter.mp hentry).1

/-- Forgetting a session leaves only sessions whose keys are usable. -/
theorem KeysUsable.remove {service : EnrollmentService} (h : service.KeysUsable C) (id : Str) :
    (service.remove id).KeysUsable C := by
  intro entry hentry
  exact h entry (List.mem_filter.mp hentry).1

/-- Storing one does when its own key is usable, if it has to have one. -/
theorem KeysUsable.insert {service : EnrollmentService} (h : service.KeysUsable C) (id : Str)
    {session : Session}
    (hsession : session.authVersion = 2 → usableKey C session.publicKey = true) :
    (service.insert id session).KeysUsable C := by
  intro entry hentry
  rcases List.mem_cons.mp hentry with rfl | hentry
  · exact hsession
  · exact h entry (List.mem_filter.mp hentry).1

/-- A session that is found has a usable key, if it has to have one. -/
theorem KeysUsable.get {service : EnrollmentService} (h : service.KeysUsable C) {id : Str}
    {session : Session} (hget : service.get id = some session) :
    session.authVersion = 2 → usableKey C session.publicKey = true := by
  obtain ⟨entry, hentry, rfl⟩ := Option.map_eq_some_iff.mp hget
  exact h entry (List.mem_of_find?_eq_some hentry)

/-- Starting refuses a key that is not usable. -/
theorem KeysUsable.start {service : EnrollmentService} (h : service.KeysUsable C) (label : Str)
    (authVersion : UInt8) (publicKey : Option Str) (idDraw : Draw 18) (codeDraw : Draw 5)
    (now : ℚ) :
    (service.start C label authVersion publicKey idDraw codeDraw now).2.KeysUsable C := by
  unfold EnrollmentService.start
  split
  next => exact h
  next hkey =>
    cases idDraw with
    | none => exact h.sweep now
    | some rawId =>
        cases codeDraw with
        | none => exact h.sweep now
        | some rawCode =>
            apply (h.sweep now).insert _
            intro hversion
            by_contra hunusable
            exact hkey ⟨hversion, hunusable⟩

/-- Polling stores none. -/
theorem KeysUsable.poll {service : EnrollmentService} (h : service.KeysUsable C) (sessionId : Str)
    (now : ℚ) : (service.poll sessionId now).2.KeysUsable C := by
  unfold EnrollmentService.poll
  dsimp only
  split
  next => exact h.sweep now
  next session _ =>
    split
    next => exact h.sweep now
    next => exact (h.sweep now).remove sessionId

/-- An approval finds nothing to approve, or mints a record for one session. -/
theorem approve_cases (service : EnrollmentService) (userCode : Str) (walk : Walk)
    (idDraw : Draw 8) (secretDraw : Draw 32) (now : ℚ) :
    service.approve C userCode walk idDraw secretDraw now = (none, service.sweep now) ∨
    ∃ rawId id session record token, idDraw = some rawId ∧
      (service.sweep now).get id = some session ∧
      mint C session (hexLower rawId.1) (service.tokenExpiry now) secretDraw now =
        some (record, token) ∧
      service.approve C userCode walk idDraw secretDraw now =
        (some record, (service.sweep now).insert id
          { session with approved := true, token := token, record := some record }) := by
  unfold approve
  dsimp only
  split
  next => exact Or.inl rfl
  next id _ =>
    cases idDraw with
    | none => exact Or.inl rfl
    | some rawId =>
        cases hget : (service.sweep now).get id with
        | none => exact Or.inl rfl
        | some session =>
            dsimp only
            split
            next => exact Or.inl rfl
            next record token hmint =>
              exact Or.inr ⟨rawId, id, session, record, token, rfl, hget, hmint, rfl⟩

/-- **What is minted**: a version 2 record with the session's key and neither token nor
token hash, or a version 1 record with the hash of a secret just drawn, the token. -/
theorem mint_some {session : Session} {tokenId : Str} {expiresAt : Option ℚ}
    {secretDraw : Draw 32} {now : ℚ} {record : DeviceRecord} {token : Option Str}
    (h : mint C session tokenId expiresAt secretDraw now = some (record, token)) :
    record.tokenId = tokenId ∧
      ((session.authVersion = 2 ∧ token = none ∧ record.tokenHash = none ∧
          record.authVersion = 2 ∧ record.publicKey = session.publicKey) ∨
        (session.authVersion ≠ 2 ∧ record.authVersion = 1 ∧ ∃ raw, secretDraw = some raw ∧
          token = some (C.b64url raw.1) ∧
          record.tokenHash = some (hashSecret C (C.b64url raw.1)))) := by
  unfold mint at h
  split at h
  next hversion =>
    obtain ⟨rfl, rfl⟩ := Prod.mk.inj (Option.some.inj h)
    exact ⟨rfl, Or.inl ⟨hversion, rfl, rfl, rfl, rfl⟩⟩
  next hversion =>
    obtain ⟨raw, hraw, hrecord⟩ := Option.map_eq_some_iff.mp h
    obtain ⟨rfl, rfl⟩ := Prod.mk.inj hrecord
    exact ⟨rfl, Or.inr ⟨hversion, rfl, raw, hraw, rfl, rfl⟩⟩

/-- Approving keeps the session's key. -/
theorem KeysUsable.approve {service : EnrollmentService} (h : service.KeysUsable C)
    (userCode : Str) (walk : Walk) (idDraw : Draw 8) (secretDraw : Draw 32) (now : ℚ) :
    (service.approve C userCode walk idDraw secretDraw now).2.KeysUsable C := by
  rcases service.approve_cases userCode walk idDraw secretDraw now with
    heq | ⟨rawId, id, session, record, token, -, hget, -, heq⟩
  · rw [heq]
    exact h.sweep now
  · rw [heq]
    have hsession := (h.sweep now).get hget
    exact (h.sweep now).insert id hsession

/-! ## The records of the sessions -/

/-- A session is approved with this record. -/
def Recorded (service : EnrollmentService) (record : DeviceRecord) : Prop :=
  ∃ s ∈ service.sessions, s.2.record = some record

variable {service : EnrollmentService} {record : DeviceRecord}

/-- What is recorded after forgetting was recorded before. -/
theorem Recorded.of_sweep {now : ℚ} (h : (service.sweep now).Recorded record) :
    service.Recorded record := by
  obtain ⟨s, hs, hrecord⟩ := h
  exact ⟨s, (List.mem_filter.mp hs).1, hrecord⟩

/-- A record that is held once a session is forgotten was held before. -/
theorem Recorded.of_remove {id : Str} (h : (service.remove id).Recorded record) :
    service.Recorded record := by
  obtain ⟨s, hs, hrecord⟩ := h
  exact ⟨s, (List.mem_filter.mp hs).1, hrecord⟩

/-- What is recorded after storing is in the session that was stored, or was recorded. -/
theorem Recorded.of_insert {id : Str} {session : Session}
    (h : (service.insert id session).Recorded record) :
    session.record = some record ∨ service.Recorded record := by
  obtain ⟨s, hs, hrecord⟩ := h
  rcases List.mem_cons.mp hs with rfl | hs
  · exact Or.inl hrecord
  · exact Or.inr ⟨s, (List.mem_filter.mp hs).1, hrecord⟩

/-- The record of a session that is found is recorded. -/
theorem Recorded.of_get {id : Str} {session : Session} (hget : service.get id = some session)
    (hrecord : session.record = some record) : service.Recorded record := by
  obtain ⟨s, hs, rfl⟩ := Option.map_eq_some_iff.mp hget
  exact ⟨s, List.mem_of_find?_eq_some hs, hrecord⟩

/-- A new session has no record. -/
theorem Recorded.of_start {label : Str} {authVersion : UInt8} {publicKey : Option Str}
    {idDraw : Draw 18} {codeDraw : Draw 5} {now : ℚ}
    (h : (service.start C label authVersion publicKey idDraw codeDraw now).2.Recorded record) :
    service.Recorded record := by
  unfold EnrollmentService.start at h
  split at h
  next => exact h
  next =>
    dsimp only at h
    split at h
    next => exact h.of_sweep
    next => exact h.of_sweep
    next =>
      rcases h.of_insert with hnew | hold
      · cases hnew
      · exact hold.of_sweep

/-- An approval gives one session the record it answers with. -/
theorem Recorded.of_approve {userCode : Str} {walk : Walk} {idDraw : Draw 8}
    {secretDraw : Draw 32} {now : ℚ}
    (h : (service.approve C userCode walk idDraw secretDraw now).2.Recorded record) :
    (service.approve C userCode walk idDraw secretDraw now).1 = some record ∨
      service.Recorded record := by
  rcases service.approve_cases userCode walk idDraw secretDraw now with
    heq | ⟨rawId, id, session, minted, token, -, hget, -, heq⟩
  · rw [heq] at h
    exact Or.inr h.of_sweep
  · rw [heq] at h ⊢
    rcases h.of_insert with hnew | hold
    · exact Or.inl hnew
    · exact Or.inr hold.of_sweep

/-- Polling records nothing. -/
theorem Recorded.of_poll {sessionId : Str} {now : ℚ}
    (h : (service.poll sessionId now).2.Recorded record) : service.Recorded record := by
  unfold EnrollmentService.poll at h
  dsimp only at h
  split at h
  next => exact h.of_sweep
  next =>
    split at h
    next => exact h.of_sweep
    next => exact h.of_remove.of_sweep

/-- A poll hands over the record of the session it names. -/
theorem poll_record {sessionId : Str} {now : ℚ}
    (h : (service.poll sessionId now).1.record = some record) :
    ∃ session, (service.sweep now).get sessionId = some session ∧ session.approved = true ∧
      session.record = some record := by
  unfold EnrollmentService.poll at h
  dsimp only at h
  split at h
  next => cases h
  next session hget =>
    split at h
    next => cases h
    next happroved => exact ⟨session, hget, not_not.mp happroved, h⟩

end EnrollmentService

end BreezeAuth
