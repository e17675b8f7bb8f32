import BreezeCore.Auth.Replay

/-!
# Rejected requests

A rejected request leaves the nonce cache alone, or only drops what has run out: the
nonce of a request is stored after every other test has passed.  What has run out
would be dropped before the next nonce is looked up, so caches that `Agree` from some
time on answer alike from then on.

* `rejected_inert` — without the rejected requests of a run, every other request gets
  the answer it got; and forged requests leave the next answer as it was.
-/

namespace BreezeAuth

open Bytes Text BreezeStore Runs

def Decision.rejected : Decision → Bool
  | .reject _ => true
  | _ => false

/-- The caches are alike once what has run out by then is dropped. -/
def Agree (now : ℚ) (c c' : NonceCache) : Prop := c.sweep now = c'.sweep now

theorem NonceCache.sweep_sweep (c : NonceCache) {earlier now : ℚ} (h : earlier ≤ now) :
    (c.sweep earlier).sweep now = c.sweep now := by
  unfold NonceCache.sweep
  dsimp only
  rw [List.filter_filter]
  refine congrArg (NonceCache.mk c.skewSeconds) (List.filter_congr fun entry _ => ?_)
  rw [Bool.and_eq_left_iff_imp]
  intro hnow
  exact decide_eq_true (h.trans (of_decide_eq_true hnow))

theorem Agree.later {c c' : NonceCache} {earlier now : ℚ} (h : Agree earlier c c')
    (hle : earlier ≤ now) : Agree now c c' := by
  unfold Agree at h ⊢
  rw [← c.sweep_sweep hle, h, c'.sweep_sweep hle]

theorem Agree.skewSeconds {c c' : NonceCache} {now : ℚ} (h : Agree now c c') :
    c.skewSeconds = c'.skewSeconds := by
  have hsweep : c.sweep now = c'.sweep now := h
  have hsame : (c.sweep now).skewSeconds = (c'.sweep now).skewSeconds := by rw [hsweep]
  exact hsame

theorem Agree.checkAndStore {c c' : NonceCache} {now : ℚ} (h : Agree now c c') (toF64 : ℚ → ℚ)
    (nonce : Str) : c.checkAndStore toF64 nonce now = c'.checkAndStore toF64 nonce now := by
  unfold NonceCache.checkAndStore
  rw [show c.sweep now = c'.sweep now from h]

variable (C : Crypto) (v : Verifier) (doc : DevicesDoc)

theorem Agree.verifySigned {c c' : NonceCache} {now : ℚ} (h : Agree now c c') (p : Presented)
    (keyId timestamp nonce signature : Str) :
    (v.verifySigned C doc p keyId timestamp nonce signature c now).1 =
        (v.verifySigned C doc p keyId timestamp nonce signature c' now).1 ∧
      Agree now (v.verifySigned C doc p keyId timestamp nonce signature c now).2
        (v.verifySigned C doc p keyId timestamp nonce signature c' now).2 := by
  have hwindow : c.timestampInWindow C.toF64 timestamp now =
      c'.timestampInWindow C.toF64 timestamp now :=
    NonceCache.timestampInWindow_congr h.skewSeconds
  have hskew : clockSkew C c timestamp now = clockSkew C c' timestamp now := by
    unfold clockSkew
    rw [h.skewSeconds]
  unfold Verifier.verifySigned
  rw [hwindow, hskew, h.checkAndStore C.toF64 nonce]
  cases findByKeyId doc keyId now with
  | none => exact ⟨rfl, h⟩
  | some record =>
      dsimp only
      split
      next => exact ⟨rfl, h⟩
      next =>
        split
        next => exact ⟨rfl, h⟩
        next =>
          split
          next => exact ⟨rfl, h⟩
          next => exact ⟨rfl, rfl⟩

/-- **One call** is answered alike by caches that agree, and they go on to agree. -/
theorem Agree.verifyCall {c c' : NonceCache} {call : Call} (h : Agree call.now c c') :
    (verifyCall C v doc c call).1 = (verifyCall C v doc c' call).1 ∧
      Agree call.now (verifyCall C v doc c call).2 (verifyCall C v doc c' call).2 := by
  unfold BreezeAuth.verifyCall Verifier.verifyDevice
  split
  next =>
    unfold Verifier.verifyV2
    split
    next =>
      split
      next => exact ⟨rfl, h⟩
      next => exact h.verifySigned C v doc _ _ _ _ _
    next => exact ⟨rfl, h⟩
  next => exact ⟨rfl, h⟩

theorem NonceCache.checkAndStore_refused {c : NonceCache} {toF64 : ℚ → ℚ} {nonce : Str}
    {now : ℚ} (h : (c.checkAndStore toF64 nonce now).1 = false) :
    (c.checkAndStore toF64 nonce now).2 = c.sweep now := by
  unfold NonceCache.checkAndStore at h ⊢
  dsimp only at h ⊢
  split at h
  next hany => rw [if_pos hany]
  next => cases h

/-- **A rejected call** drops what has run out, at most. Only the path through a good signature
touches the cache at all, and where that path ends in a refusal the nonce was not stored. -/
theorem agree_of_rejected {c : NonceCache} {call : Call}
    (h : (verifyCall C v doc c call).1.rejected = true) :
    Agree call.now (verifyCall C v doc c call).2 c := by
  unfold verifyCall Verifier.verifyDevice at h ⊢
  split at h
  next hversion =>
    rw [if_pos hversion]
    rcases v.verifyV2_cases C doc call.presented c call.now with
      ⟨keyId, timestamp, nonce, signature, -, hverify⟩ | ⟨-, hverify⟩
    · rw [hverify] at h ⊢
      rcases v.verifySigned_cases C doc call.presented keyId timestamp nonce signature c
        call.now with ⟨record, -, hcache, hyes, -⟩ | ⟨-, hcache, -⟩
      · cases hfresh : (c.checkAndStore C.toF64 nonce call.now).1 with
        | true =>
            rw [hyes hfresh] at h
            cases h
        | false =>
            rw [hcache, NonceCache.checkAndStore_refused hfresh]
            exact c.sweep_sweep (le_refl _)
      · rw [hcache]
        rfl
    · rw [hverify]
      rfl
  next hversion =>
    rw [if_neg hversion]
    rfl

/-- What is to come is later, and by then the caches agree. -/
def AgreeFrom (c c' : NonceCache) (calls : List Call) : Prop :=
  Clock calls ∧ ∀ call ∈ calls, Agree call.now c c'

theorem AgreeFrom.next {c c' : NonceCache} {call : Call} {calls : List Call}
    (hclock : Clock (call :: calls)) (h : Agree call.now c c') : AgreeFrom c c' calls := by
  obtain ⟨hfirst, hrest⟩ := List.pairwise_cons.mp hclock
  exact ⟨hrest, fun later hlater => h.later (hfirst later hlater)⟩

/-- No key of the devices verifies what the call presents as its signature. -/
def Forged (call : Call) : Prop :=
  ∀ keyId timestamp nonce signature, Headers call.presented keyId timestamp nonce signature →
    ∀ record ∈ doc.devices, verifySignature C (record.publicKey.getD [])
      (buildCanonical C call.presented.method call.presented.path timestamp nonce
        call.presented.body) signature = false

/-- A forged request leaves the cache as it is. -/
theorem Forged.cache {call : Call} (h : Forged C doc call) (c : NonceCache) :
    (verifyCall C v doc c call).2 = c := by
  unfold verifyCall Verifier.verifyDevice
  split
  next =>
    rcases v.verifyV2_cases C doc call.presented c call.now with
      ⟨keyId, timestamp, nonce, signature, hheaders, hverify⟩ | ⟨-, hverify⟩
    · rw [hverify]
      rcases v.verifySigned_cases C doc call.presented keyId timestamp nonce signature c
        call.now with ⟨record, hsigned, -⟩ | ⟨-, hcache, -⟩
      · have hmem := (findByKeyId_some hsigned.found).1
        have hverified := hsigned.signature
        rw [h keyId timestamp nonce signature hheaders record hmem] at hverified
        cases hverified
      · exact hcache
    · rw [hverify]
  next => rfl

/-- The cache after some calls. -/
def cacheAfter (nonces : NonceCache) (calls : List Call) : NonceCache :=
  calls.foldl (fun c call => (verifyCall C v doc c call).2) nonces

theorem cacheAfter_forged {nonces : NonceCache} {calls : List Call}
    (h : ∀ call ∈ calls, Forged C doc call) : cacheAfter C v doc nonces calls = nonces := by
  unfold cacheAfter
  induction calls with
  | nil => rfl
  | cons call calls ih =>
      rw [List.foldl_cons, (h call List.mem_cons_self).cache C v doc nonces]
      exact ih fun other hother => h other (List.mem_cons_of_mem _ hother)

/-- **Rejected requests are inert.**  On a clock that does not run backwards, taking out
the requests that were rejected changes no other answer.  And whoever has no key of a
device spends no nonce: after forged requests, any request is answered as before. -/
theorem rejected_inert (nonces : NonceCache) (calls : List Call) (hclock : Clock calls) :
    (trace (verifyCall C v doc) nonces
        (((trace (verifyCall C v doc) nonces calls).filter fun e => ! e.output.rejected).map
          Entry.input)).map Entry.output =
      ((trace (verifyCall C v doc) nonces calls).filter fun e => ! e.output.rejected).map
        Entry.output ∧
    ∀ forged : List Call, (∀ other ∈ forged, Forged C doc other) → ∀ call,
      verifyCall C v doc (cacheAfter C v doc nonces forged) call =
        verifyCall C v doc nonces call := by
  constructor
  · refine @trace_dropped _ _ _ _ AgreeFrom _ ?_ ?_ calls nonces nonces ?_
    · rintro c c' call calls ⟨hclock, hagree⟩
      obtain ⟨hanswer, hnext⟩ := (hagree call List.mem_cons_self).verifyCall C v doc
      exact ⟨hanswer.symm, AgreeFrom.next hclock hnext⟩
    · rintro c c' call calls ⟨hclock, hagree⟩ hrejected
      have hdropped := agree_of_rejected C v doc hrejected
      exact AgreeFrom.next hclock (hdropped.trans (hagree call List.mem_cons_self))
    · exact ⟨hclock, fun _ _ => rfl⟩
  · intro forged hforged call
    rw [cacheAfter_forged C v doc hforged]

/-- The signer's request, for another path, as it was signed, and again, and a bearer
nobody has. -/
def signerCalls : List Call :=
  [{ signerCall 1787488550 with
      presented := { (signerCall 1787488550).presented with path := "/api/auth".toList } },
   signerCall 1787488556, signerCall 1787488557,
   { now := 1787488558, presented := { bearer := some "guess".toList } }]

/-- The answers to a device's calls are the same without the calls that were rejected. -/
theorem rejected_inert_signer :
    (trace (verifyCall oneSigner ⟨1⟩ signerDoc) { skewSeconds := 60 }
        (((trace (verifyCall oneSigner ⟨1⟩ signerDoc) { skewSeconds := 60 } signerCalls).filter
          fun e => ! e.output.rejected).map Entry.input)).map Entry.output =
      ((trace (verifyCall oneSigner ⟨1⟩ signerDoc) { skewSeconds := 60 } signerCalls).filter
        fun e => ! e.output.rejected).map Entry.output :=
  (rejected_inert oneSigner ⟨1⟩ signerDoc { skewSeconds := 60 } signerCalls (by
    unfold Clock
    decide +kernel)).1

example : (trace (verifyCall oneSigner ⟨1⟩ signerDoc) { skewSeconds := 60 } signerCalls).map
    (fun e => e.output.rejected) = [true, false, true, true] := by decide +kernel

end BreezeAuth
