import BreezeCore.Auth.Verify

/-!
# Whom a bearer token finds

The scan over the records has no early exit, keeps the last match and looks at its expiry
only afterwards; the version it does not look at.  So it is the last record with the hash
that decides, whatever stands before it (`verifyDevice_bearer`).

`bearer_contract_iff` says of which documents that is what was promised: an answer for an
unexpired record of version 1 whenever there is one, and a refusal otherwise.
-/

namespace BreezeAuth

open Bytes Text BreezeStore

variable (C : Crypto)

/-- The records that carry the hash of a secret, in the order of the document. -/
def holders (doc : DevicesDoc) (secret : Str) : List DeviceRecord :=
  doc.devices.filter fun r => r.tokenHash = some (hashSecret C secret)

/-- A record that the secret is meant to find. -/
structure BearerRecord (doc : DevicesDoc) (secret : Str) (now : ℚ) (r : DeviceRecord) : Prop where
  holds : r ∈ holders C doc secret
  version : r.authVersion = 1
  unexpired : r.Unexpired now

/-- What a record that was found is answered. -/
def Verifier.answer (v : Verifier) (r : DeviceRecord) : Decision :=
  if r.authVersion < v.minAuthVersion then .upgradeRequired v.minAuthVersion
  else .allow ⟨r.tokenId, r.authVersion⟩

/-- What a token is answered that finds no record. -/
def unknownBearer : Decision :=
  .reject (.unauthorized .unknownKey
    "missing, invalid, or expired device token — enroll this device to get one")

/-- A device was found: the request is not refused. -/
def Decision.Finds (d : Decision) : Prop := ∀ r, d ≠ .reject r

/-- What the bearer check promises: it finds a device exactly when there is one to be found,
and answers for such a one. -/
structure BearerContract (v : Verifier) (doc : DevicesDoc) (p : Presented) (nonces : NonceCache)
    (secret : Str) (now : ℚ) : Prop where
  finds : (v.verifyDevice C doc p nonces now).1.Finds ↔ ∃ r, BearerRecord C doc secret now r
  answers : (v.verifyDevice C doc p nonces now).1.Finds →
    ∃ r, BearerRecord C doc secret now r ∧ (v.verifyDevice C doc p nonces now).1 = v.answer r

/-- The last record with the hash is a right one to go by.  It is of version 1, or expired
with nothing behind it that has not; a record of another version does no harm only where both
it and a record of version 1 that is there would be told to update. -/
def LastDecides (v : Verifier) (doc : DevicesDoc) (secret : Str) (now : ℚ) : Prop :=
  match (holders C doc secret).getLast? with
  | none => True
  | some r =>
      if r.Unexpired now then
        r.authVersion = 1 ∨ (r.authVersion < v.minAuthVersion ∧ 1 < v.minAuthVersion ∧
          ∃ r', BearerRecord C doc secret now r')
      else ¬ ∃ r', BearerRecord C doc secret now r'

variable {C}

/-- The scan keeps the last match. -/
theorem lastMatch_eq_getLast? (candidate : Str) (records : List DeviceRecord)
    (found : Option DeviceRecord) : lastMatch candidate records found =
      (records.filter fun r => r.tokenHash = some candidate).getLast?.or found := by
  induction records generalizing found with
  | nil => rfl
  | cons r records ih =>
      rw [lastMatch, ih]
      by_cases hhash : r.tokenHash = some candidate
      · rw [if_pos hhash, List.filter_cons_of_pos (by simpa using hhash), List.getLast?_cons]
        cases (records.filter fun r => r.tokenHash = some candidate).getLast? <;> rfl
      · rw [if_neg hhash, List.filter_cons_of_neg (by simpa using hhash)]

theorem answer_finds (v : Verifier) (r : DeviceRecord) : (v.answer r).Finds := by
  intro refusal
  unfold Verifier.answer
  split <;> nofun

/-- Answers for records that differ in their version are the same only if both are too
old. -/
theorem answer_eq_of_ne {v : Verifier} {r r' : DeviceRecord} (hne : r.authVersion ≠ r'.authVersion)
    (h : v.answer r = v.answer r') :
    r.authVersion < v.minAuthVersion ∧ r'.authVersion < v.minAuthVersion := by
  unfold Verifier.answer at h
  split at h
  next hold =>
    split at h
    next hold' => exact ⟨hold, hold'⟩
    next => cases h
  next =>
    split at h
    next => cases h
    next =>
      injection h with h
      injection h with _ hversion
      exact absurd hversion hne

section Bearer

variable {v : Verifier} {doc : DevicesDoc} {p : Presented} {nonces : NonceCache} {secret : Str}
  {now : ℚ}

/-- **The last record with the hash decides.** The scan goes on to the end of the list and keeps
what matched last, and only then is the expiry looked at. -/
theorem verifyDevice_bearer (hscheme : p.authVersion ≠ some "2".toList)
    (hbearer : p.bearer = some secret) (hsecret : secret ≠ []) :
    (v.verifyDevice C doc p nonces now).1 =
      match (holders C doc secret).getLast? with
      | none => unknownBearer
      | some r => if r.Unexpired now then v.answer r else unknownBearer := by
  have hscan : lastMatch (hashSecret C secret) doc.devices none =
      (holders C doc secret).getLast? := by
    rw [lastMatch_eq_getLast?, Option.or_none]
    rfl
  rw [Verifier.verifyDevice, if_neg hscheme, Verifier.verifyV1]
  dsimp only
  rw [hbearer, Option.getD_some, if_neg hsecret, if_neg hsecret, findBySecret, hscan]
  cases (holders C doc secret).getLast? with
  | none => rfl
  | some r =>
      dsimp only
      by_cases hunexpired : r.Unexpired now
      · rw [if_pos hunexpired, if_pos hunexpired]
        rfl
      · rw [if_neg hunexpired, if_neg hunexpired]
        rfl

/-- A refusal is right when there is no record to be found. -/
theorem bearerContract_of_refused {refusal : Rejection}
    (hrefused : (v.verifyDevice C doc p nonces now).1 = .reject refusal) :
    BearerContract C v doc p nonces secret now ↔ ¬ ∃ r, BearerRecord C doc secret now r := by
  have hfinds : ¬ (v.verifyDevice C doc p nonces now).1.Finds := fun h => h _ hrefused
  constructor
  · intro h hany
    exact hfinds (h.finds.mpr hany)
  · intro hnobody
    exact ⟨iff_of_false hfinds hnobody, fun h => absurd h hfinds⟩

/-- **The bearer check keeps its contract exactly where the last record with the hash is a
right one to go by.** -/
theorem bearer_contract_iff (hscheme : p.authVersion ≠ some "2".toList)
    (hbearer : p.bearer = some secret) (hsecret : secret ≠ []) :
    BearerContract C v doc p nonces secret now ↔ LastDecides C v doc secret now := by
  have hdecision := @verifyDevice_bearer C v doc p nonces secret now hscheme hbearer hsecret
  unfold LastDecides
  cases hlast : (holders C doc secret).getLast? with
  | none =>
      rw [hlast] at hdecision
      refine iff_of_true ((bearerContract_of_refused hdecision).mpr ?_) trivial
      rintro ⟨r, hr⟩
      have hmem := hr.holds
      rw [List.getLast?_eq_none_iff.mp hlast] at hmem
      cases hmem
  | some r =>
      rw [hlast] at hdecision
      dsimp only at hdecision ⊢
      by_cases hunexpired : r.Unexpired now
      · rw [if_pos hunexpired] at hdecision ⊢
        have hfinds : (v.verifyDevice C doc p nonces now).1.Finds := by
          rw [hdecision]
          exact answer_finds v r
        constructor
        · intro h
          obtain ⟨r', hr', hanswer⟩ := h.answers hfinds
          by_cases hversion : r.authVersion = 1
          · exact .inl hversion
          · have hne : r.authVersion ≠ r'.authVersion := by rwa [hr'.version]
            obtain ⟨hold, hold'⟩ := answer_eq_of_ne hne (hdecision.symm.trans hanswer)
            rw [hr'.version] at hold'
            exact .inr ⟨hold, hold', r', hr'⟩
        · rintro (hversion | ⟨hold, hone, r', hr'⟩)
          · have hr : BearerRecord C doc secret now r :=
              ⟨List.mem_of_getLast? hlast, hversion, hunexpired⟩
            exact ⟨iff_of_true hfinds ⟨r, hr⟩, fun _ => ⟨r, hr, hdecision⟩⟩
          · refine ⟨iff_of_true hfinds ⟨r', hr'⟩, fun _ => ⟨r', hr', ?_⟩⟩
            rw [hdecision, Verifier.answer, Verifier.answer, hr'.version, if_pos hold, if_pos hone]
      · rw [if_neg hunexpired] at hdecision ⊢
        exact bearerContract_of_refused hdecision

/-- A record with the hash of a secret. -/
private def bearerRecord (authVersion : UInt8) (expiresAt : Option ℚ) : DeviceRecord where
  tokenId := "tok_tablet".toList
  label := "Tablet".toList
  authVersion := authVersion
  tokenHash := some (hashSecret oneSigner signerSecret)
  publicKey := none
  createdAt := 0
  expiresAt := expiresAt
  lastUsed := none

private theorem bearerRecord_hash (authVersion : UInt8) (expiresAt : Option ℚ) :
    (bearerRecord authVersion expiresAt).tokenHash = some (hashSecret oneSigner signerSecret) := rfl

private theorem signerSecret_ne_nil : signerSecret ≠ [] := by decide +kernel

/-- An expired record in front of one that has not expired. -/
theorem bearer_contract_renewed :
    BearerContract oneSigner ⟨1⟩ ⟨[bearerRecord 1 (some 5), bearerRecord 1 none]⟩
        { bearer := some signerSecret } ⟨60, []⟩ signerSecret 10 ↔
      LastDecides oneSigner ⟨1⟩ ⟨[bearerRecord 1 (some 5), bearerRecord 1 none]⟩ signerSecret 10 :=
  bearer_contract_iff nofun rfl signerSecret_ne_nil

/-- An expired record hides the one in front of it, and a record of version 2 is found. In both
cases the decision is read off `verifyDevice_bearer`, which looks at the last record only. -/
theorem bearer_hidden_by_expired :
    ¬ BearerContract oneSigner ⟨1⟩ ⟨[bearerRecord 1 none, bearerRecord 1 (some 5)]⟩
        { bearer := some signerSecret } ⟨60, []⟩ signerSecret 10 ∧
      ¬ BearerContract oneSigner ⟨1⟩ ⟨[bearerRecord 2 none]⟩
        { bearer := some signerSecret } ⟨60, []⟩ signerSecret 10 := by
  have hholders : ∀ rs : List DeviceRecord,
      (∀ r ∈ rs, r.tokenHash = some (hashSecret oneSigner signerSecret)) →
        holders oneSigner ⟨rs⟩ signerSecret = rs := by
    intro rs h
    exact List.filter_eq_self.mpr fun r hr => decide_eq_true (h r hr)
  constructor
  · intro h
    have hrs := hholders [bearerRecord 1 none, bearerRecord 1 (some 5)]
      (List.forall_mem_cons.mpr
        ⟨bearerRecord_hash _ _, List.forall_mem_singleton.mpr (bearerRecord_hash _ _)⟩)
    have hgood : BearerRecord oneSigner ⟨[bearerRecord 1 none, bearerRecord 1 (some 5)]⟩
        signerSecret 10 (bearerRecord 1 none) :=
      ⟨by rw [hrs]; exact List.mem_cons_self, rfl, nofun⟩
    have hdecision := @verifyDevice_bearer oneSigner ⟨1⟩
      ⟨[bearerRecord 1 none, bearerRecord 1 (some 5)]⟩ { bearer := some signerSecret } ⟨60, []⟩
      signerSecret 10 nofun rfl signerSecret_ne_nil
    have hexpired : ¬ (bearerRecord 1 (some 5)).Unexpired 10 :=
      fun h => absurd (h 5 rfl) (by norm_num)
    rw [hrs, List.getLast?_cons_cons, List.getLast?_singleton] at hdecision
    dsimp only at hdecision
    rw [if_neg hexpired] at hdecision
    exact h.finds.mpr ⟨_, hgood⟩ _ hdecision
  · intro h
    have hrs := hholders [bearerRecord 2 none]
      (List.forall_mem_singleton.mpr (bearerRecord_hash _ _))
    have hdecision := @verifyDevice_bearer oneSigner ⟨1⟩ ⟨[bearerRecord 2 none]⟩
      { bearer := some signerSecret } ⟨60, []⟩ signerSecret 10 nofun rfl signerSecret_ne_nil
    have hunexpired : (bearerRecord 2 none).Unexpired 10 := nofun
    rw [hrs, List.getLast?_singleton] at hdecision
    dsimp only at hdecision
    rw [if_pos hunexpired] at hdecision
    have hfinds := answer_finds ⟨1⟩ (bearerRecord 2 none)
    obtain ⟨r, hr⟩ := h.finds.mp (by rw [hdecision]; exact hfinds)
    have hmem := hr.holds
    rw [hrs] at hmem
    obtain rfl := List.mem_singleton.mp hmem
    exact absurd hr.version (by decide)

end Bearer

end BreezeAuth
