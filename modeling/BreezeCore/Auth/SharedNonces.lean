import BreezeCore.Auth.Replay

/-!
# One nonce cache for all devices

The devices share the cache of nonces, and a nonce is remembered without the device
that used it.  `verifyCall_gate` says what a call has to do with the cache at all:
it is answered the same whatever is remembered, or it is correctly signed and in its
window, and only the memory of its nonce decides.

* `Unmoved` — without the accepted requests of one device, the requests of the others
  are decided as before;
* `nonces_shared` — so they are as long as no nonce of that device comes back from
  another one within the skew; and a replay is answered exactly when an accepted request
  at most a skew before carried the nonce.
-/

namespace BreezeAuth

open Bytes Text BreezeStore Runs

/-! ## The cache -/

/-- Forgetting what is out of date makes no nonce unused that is not so later. -/
theorem NonceCache.unused_sweep (c : NonceCache) (nonce : Str) {now later : ℚ} (h : now ≤ later) :
    (c.sweep now).Unused nonce later ↔ c.Unused nonce later := by
  constructor
  · intro hswept entry hmem hnonce
    by_cases hkept : now ≤ entry.2
    · exact hswept entry (List.mem_filter.mpr ⟨hmem, decide_eq_true hkept⟩) hnonce
    · exact (not_le.mp hkept).trans_le h
  · intro hunused entry hmem hnonce
    exact hunused entry (List.mem_filter.mp hmem).1 hnonce

/-- **What a nonce does to the others.**  Storing it makes no other one used, and this
one for no longer than a skew. -/
theorem NonceCache.unused_checkAndStore (c : NonceCache) (toF64 : ℚ → ℚ) (nonce other : Str)
    {now later : ℚ} (h : now ≤ later) :
    (c.checkAndStore toF64 nonce now).2.Unused other later ↔
      c.Unused other later ∧
        ((c.checkAndStore toF64 nonce now).1 = true → nonce = other →
          rememberedUntil toF64 c.skewSeconds now < later) := by
  rw [← c.unused_sweep other h]
  unfold checkAndStore
  dsimp only
  split
  next => exact ⟨fun hunused => ⟨hunused, fun hfresh => by cases hfresh⟩, fun hboth => hboth.1⟩
  next =>
    unfold Unused
    rw [List.forall_mem_cons]
    exact ⟨fun hboth => ⟨hboth.2, fun _ => hboth.1⟩, fun hboth => ⟨hboth.2 rfl, hboth.1⟩⟩

/-! ## What a call has to do with it -/

/-- The answer to a request that passed every test before its nonce. -/
def answer (keyId : Str) (fresh : Bool) : Decision :=
  if fresh then .allow ⟨keyId, 2⟩
  else .reject (.unauthorized .replay
    "replayed request (nonce already used) — retry with a fresh nonce")

/-- The answer to a request that passes is whether its nonce is fresh. -/
theorem answer_allowed {keyId : Str} {fresh : Bool} :
    (answer keyId fresh).Allowed ↔ fresh = true := by
  cases fresh with
  | true => exact iff_of_true ⟨_, rfl⟩ rfl
  | false =>
      refine iff_of_false ?_ (by decide)
      rintro ⟨who, h⟩
      cases h

/-- The answer for a key tells whether the nonce was fresh. -/
theorem answer_inj {keyId : Str} {fresh fresh' : Bool} :
    answer keyId fresh = answer keyId fresh' ↔ fresh = fresh' := by
  refine ⟨fun h => ?_, fun h => h ▸ rfl⟩
  rw [Bool.eq_iff_iff, ← @answer_allowed keyId, ← @answer_allowed keyId, h]

variable (C : Crypto) (v : Verifier) (doc : DevicesDoc)

/-- The call is correctly signed in the name of a device and in its window, on this
nonce. -/
def Passing (skew : Nat) (keyId nonce : Str) (call : Call) : Prop :=
  call.presented.authVersion = some "2".toList ∧ ∃ timestamp signature record,
    Headers call.presented keyId timestamp nonce signature ∧
      Signed C v doc call.presented keyId timestamp nonce signature { skewSeconds := skew }
        call.now record

/-- A request is signed by one device, with one nonce. -/
theorem Passing.unique {skew : Nat} {keyId nonce keyId' nonce' : Str} {call : Call}
    (h : Passing C v doc skew keyId nonce call) (h' : Passing C v doc skew keyId' nonce' call) :
    keyId' = keyId ∧ nonce' = nonce := by
  obtain ⟨-, timestamp, signature, record, hheaders, -⟩ := h
  obtain ⟨-, timestamp', signature', record', hheaders', -⟩ := h'
  exact ⟨Option.some.inj (hheaders'.hasKeyId.symm.trans hheaders.hasKeyId),
    Option.some.inj (hheaders'.hasNonce.symm.trans hheaders.hasNonce)⟩

/-- The tests before the nonce do not look at what is remembered. Either a record passes all of
them and the cache alone decides, or none does and the answer is the same for every cache. -/
theorem verifySigned_gate (skew : Nat) (p : Presented) (keyId timestamp nonce signature : Str)
    (now : ℚ) :
    (∃ record, Signed C v doc p keyId timestamp nonce signature { skewSeconds := skew } now record ∧
      ∀ seen, v.verifySigned C doc p keyId timestamp nonce signature ⟨skew, seen⟩ now =
        (answer keyId (NonceCache.checkAndStore ⟨skew, seen⟩ C.toF64 nonce now).1,
          (NonceCache.checkAndStore ⟨skew, seen⟩ C.toF64 nonce now).2)) ∨
    ((∀ record,
        ¬ Signed C v doc p keyId timestamp nonce signature { skewSeconds := skew } now record) ∧
      ∃ decision, ∀ seen, v.verifySigned C doc p keyId timestamp nonce signature ⟨skew, seen⟩ now =
        (decision, ⟨skew, seen⟩)) := by
  unfold Verifier.verifySigned
  cases hfind : findByKeyId doc keyId now with
  | none =>
      refine .inr ⟨fun record hsigned => ?_, _, fun _ => rfl⟩
      rw [hsigned.found] at hfind
      cases hfind
  | some record =>
      have hsame : ∀ {record'}, Signed C v doc p keyId timestamp nonce signature
          { skewSeconds := skew } now record' → record' = record :=
        fun hsigned => Option.some.inj (hsigned.found.symm.trans hfind)
      dsimp only
      by_cases hversion : record.authVersion < v.minAuthVersion
      · refine .inr ⟨fun record' hsigned => ?_, .upgradeRequired v.minAuthVersion, fun _ => ?_⟩
        · obtain rfl := hsame hsigned
          exact UInt8.not_lt.mpr hsigned.version hversion
        · rw [if_pos hversion]
      by_cases hwindow :
          NonceCache.timestampInWindow { skewSeconds := skew } C.toF64 timestamp now = true
      · by_cases hsig : verifySignature C (record.publicKey.getD [])
            (buildCanonical C p.method p.path timestamp nonce p.body) signature = true
        · refine .inl ⟨record, ⟨hfind, UInt8.not_lt.mp hversion, hwindow, hsig⟩, fun seen => ?_⟩
          have hwindow' : NonceCache.timestampInWindow ⟨skew, seen⟩ C.toF64 timestamp now = true :=
            hwindow
          obtain ⟨-, hid, hv2, -⟩ := findByKeyId_some hfind
          rw [if_neg hversion, if_neg (not_not_intro hwindow'), if_neg (not_not_intro hsig), hid,
            hv2]
          rcases NonceCache.checkAndStore ⟨skew, seen⟩ C.toF64 nonce now with ⟨fresh, nonces⟩
          cases fresh <;> rfl
        · refine .inr ⟨fun record' hsigned => ?_,
            .reject (.unauthorized .badSignature "bad request signature"), fun seen => ?_⟩
          · obtain rfl := hsame hsigned
            exact hsig hsigned.signature
          · have hwindow' :
                NonceCache.timestampInWindow ⟨skew, seen⟩ C.toF64 timestamp now = true := hwindow
            rw [if_neg hversion, if_neg (not_not_intro hwindow'), if_pos hsig]
      · refine .inr ⟨fun record' hsigned => hwindow hsigned.inWindow,
          .reject (clockSkew C { skewSeconds := skew } timestamp now), fun seen => ?_⟩
        have hwindow' : ¬ NonceCache.timestampInWindow ⟨skew, seen⟩ C.toF64 timestamp now = true :=
          hwindow
        rw [if_neg hversion, if_pos hwindow']
        rfl

/-- **One call and the cache.**  It spends the nonce it is correctly signed on, and is
answered by whether that was remembered; or the cache does not matter to it, nor it
to the cache. -/
theorem verifyCall_gate (skew : Nat) (call : Call) :
    (∃ keyId nonce, Passing C v doc skew keyId nonce call ∧
      ∀ c : NonceCache, c.skewSeconds = skew → verifyCall C v doc c call =
        (answer keyId (c.checkAndStore C.toF64 nonce call.now).1,
          (c.checkAndStore C.toF64 nonce call.now).2)) ∨
    ((∀ keyId nonce, ¬ Passing C v doc skew keyId nonce call) ∧
      ∃ decision, ∀ c : NonceCache, c.skewSeconds = skew →
        verifyCall C v doc c call = (decision, c)) := by
  unfold verifyCall Verifier.verifyDevice
  by_cases hversion : call.presented.authVersion = some "2".toList
  · by_cases hheaders : ∃ keyId timestamp nonce signature,
        Headers call.presented keyId timestamp nonce signature
    · obtain ⟨keyId, timestamp, nonce, signature, hheaders⟩ := hheaders
      have hverify : ∀ c : NonceCache, v.verifyV2 C doc call.presented c call.now =
          v.verifySigned C doc call.presented keyId timestamp nonce signature c call.now := by
        intro c
        unfold Verifier.verifyV2
        rw [hheaders.hasKeyId, hheaders.hasTimestamp, hheaders.hasNonce, hheaders.hasSignature]
        exact if_neg hheaders.nonempty
      rcases verifySigned_gate C v doc skew call.presented keyId timestamp nonce signature
        call.now with ⟨record, hsigned, hanswer⟩ | ⟨hno, decision, hanswer⟩
      · refine .inl ⟨keyId, nonce, ⟨hversion, timestamp, signature, record, hheaders, hsigned⟩, ?_⟩
        rintro ⟨_, seen⟩ rfl
        rw [if_pos hversion, hverify]
        exact hanswer seen
      · refine .inr ⟨?_, decision, ?_⟩
        · rintro keyId' nonce' ⟨-, timestamp', signature', record, hheaders', hsigned⟩
          obtain rfl := Option.some.inj (hheaders.hasKeyId.symm.trans hheaders'.hasKeyId)
          obtain rfl := Option.some.inj (hheaders.hasTimestamp.symm.trans hheaders'.hasTimestamp)
          obtain rfl := Option.some.inj (hheaders.hasNonce.symm.trans hheaders'.hasNonce)
          obtain rfl := Option.some.inj (hheaders.hasSignature.symm.trans hheaders'.hasSignature)
          exact hno record hsigned
        · rintro ⟨_, seen⟩ rfl
          rw [if_pos hversion, hverify]
          exact hanswer seen
    · refine .inr ⟨?_, incomplete, ?_⟩
      · rintro keyId nonce ⟨-, timestamp, signature, record, hheaders', -⟩
        exact hheaders ⟨keyId, timestamp, nonce, signature, hheaders'⟩
      · intro c _
        rw [if_pos hversion]
        rcases v.verifyV2_cases C doc call.presented c call.now with
          ⟨keyId, timestamp, nonce, signature, hsome, -⟩ | ⟨-, hverify⟩
        · exact absurd ⟨keyId, timestamp, nonce, signature, hsome⟩ hheaders
        · exact hverify
  · refine .inr ⟨fun keyId nonce h => hversion h.1, v.verifyV1 C doc call.presented call.now, ?_⟩
    intro c _
    rw [if_neg hversion]

/-- What a correctly signed request gets. -/
theorem verifyCall_of_passing {skew : Nat} {keyId nonce : Str} {call : Call}
    (h : Passing C v doc skew keyId nonce call) {c : NonceCache} (hskew : c.skewSeconds = skew) :
    verifyCall C v doc c call =
      (answer keyId (c.checkAndStore C.toF64 nonce call.now).1,
        (c.checkAndStore C.toF64 nonce call.now).2) := by
  rcases verifyCall_gate C v doc skew call with
    ⟨keyId', nonce', hpassing, hverify⟩ | ⟨hno, -⟩
  · obtain ⟨rfl, rfl⟩ := hpassing.unique C v doc h
    exact hverify c hskew
  · exact absurd h (hno keyId nonce)

/-! ## Without one device -/

/-- The call is signed in the name of this device. -/
def Call.InName (call : Call) (device : Str) : Prop :=
  call.presented.authVersion = some "2".toList ∧ call.presented.keyId = some device

/-- The device is let in. -/
def Decision.accepts (device : Str) : Decision → Bool
  | .allow who => who.tokenId = device
  | _ => false

/-- Without the accepted requests of a device, the requests that are not signed in its name
are decided as they were. -/
def Unmoved (skew : Nat) (calls : List Call) (device : Str) : Prop :=
  let kept := (trace (verifyCall C v doc) { skewSeconds := skew } calls).filter fun e =>
    ! e.output.accepts device
  List.Forall₂
    (fun e e' => e'.input = e.input ∧ (¬ e.input.InName device → e'.output = e.output)) kept
    (trace (verifyCall C v doc) { skewSeconds := skew } (kept.map Entry.input))

/-- No nonce that a device passed with comes back from another one within the skew. -/
def Apart (skew : Nat) (device : Str) (calls : List Call) : Prop :=
  calls.Pairwise fun first second => ∀ keyId nonce, keyId ≠ device →
    Passing C v doc skew device nonce first → Passing C v doc skew keyId nonce second →
    rememberedUntil C.toF64 skew first.now < second.now

/-- The caches remember the same of the nonces of the other devices, as far as they are
still to come. -/
structure Alike (skew : Nat) (device : Str) (c c' : NonceCache) (calls : List Call) : Prop where
  skew_left : c.skewSeconds = skew
  skew_right : c'.skewSeconds = skew
  clock : Clock calls
  apart : Apart C v doc skew device calls
  unused : ∀ call ∈ calls, ∀ keyId nonce, keyId ≠ device →
    Passing C v doc skew keyId nonce call → (c.Unused nonce call.now ↔ c'.Unused nonce call.now)

variable {C v doc}

/-- A call that passes is in the name of the device whose key it was signed with. -/
theorem Passing.inName {skew : Nat} {keyId nonce : Str} {call : Call}
    (h : Passing C v doc skew keyId nonce call) : call.InName keyId := by
  obtain ⟨hversion, timestamp, signature, record, hheaders, -⟩ := h
  exact ⟨hversion, hheaders.hasKeyId⟩

/-- Either cache may be the one with more in it. -/
theorem Alike.symm {skew : Nat} {device : Str} {c c' : NonceCache} {calls : List Call}
    (h : Alike C v doc skew device c c' calls) : Alike C v doc skew device c' c calls where
  skew_left := h.skew_right
  skew_right := h.skew_left
  clock := h.clock
  apart := h.apart
  unused := fun call hcall keyId nonce hother hpassing =>
    (h.unused call hcall keyId nonce hother hpassing).symm

/-- What is so for all the requests is so for those behind the first. -/
theorem Alike.tail {skew : Nat} {device : Str} {c c' : NonceCache} {call : Call}
    {calls : List Call} (h : Alike C v doc skew device c c' (call :: calls)) :
    Alike C v doc skew device c c' calls where
  skew_left := h.skew_left
  skew_right := h.skew_right
  clock := (List.pairwise_cons.mp h.clock).2
  apart := (List.pairwise_cons.mp h.apart).2
  unused := fun later hlater => h.unused later (List.mem_cons_of_mem _ hlater)

/-- A nonce the device spends is not one of the others' to come. -/
theorem Alike.spend {skew : Nat} {device nonce : Str} {c c' : NonceCache} {call : Call}
    {calls : List Call} (hclock : Clock (call :: calls))
    (hapart : Apart C v doc skew device (call :: calls))
    (hpassing : Passing C v doc skew device nonce call)
    (h : Alike C v doc skew device c c' calls) :
    Alike C v doc skew device (c.checkAndStore C.toF64 nonce call.now).2 c' calls where
  skew_left := (c.skewSeconds_checkAndStore C.toF64 nonce call.now).trans h.skew_left
  skew_right := h.skew_right
  clock := h.clock
  apart := h.apart
  unused := by
    intro later hlater keyId other hother hpassing'
    rw [c.unused_checkAndStore C.toF64 nonce other ((List.pairwise_cons.mp hclock).1 later hlater),
      h.unused later hlater keyId other hother hpassing']
    refine and_iff_left fun _ heq => ?_
    subst heq
    rw [h.skew_left]
    exact (List.pairwise_cons.mp hapart).1 later hlater keyId nonce hother hpassing hpassing'

/-- A nonce of another device is spent in both, or in neither. The two caches differ in nonces of
the device alone, and those are not passed by others in the time they are remembered. -/
theorem Alike.spend_both {skew : Nat} {device keyId nonce : Str} {c c' : NonceCache} {call : Call}
    {calls : List Call} (h : Alike C v doc skew device c c' (call :: calls))
    (hother : keyId ≠ device) (hpassing : Passing C v doc skew keyId nonce call) :
    (c.checkAndStore C.toF64 nonce call.now).1 = (c'.checkAndStore C.toF64 nonce call.now).1 ∧
      Alike C v doc skew device (c.checkAndStore C.toF64 nonce call.now).2
        (c'.checkAndStore C.toF64 nonce call.now).2 calls := by
  have hsame : (c.checkAndStore C.toF64 nonce call.now).1 =
      (c'.checkAndStore C.toF64 nonce call.now).1 := by
    rw [Bool.eq_iff_iff, c.checkAndStore_iff, c'.checkAndStore_iff]
    exact h.unused call List.mem_cons_self keyId nonce hother hpassing
  refine ⟨hsame, ?_⟩
  constructor
  · exact (c.skewSeconds_checkAndStore C.toF64 nonce call.now).trans h.skew_left
  · exact (c'.skewSeconds_checkAndStore C.toF64 nonce call.now).trans h.skew_right
  · exact h.tail.clock
  · exact h.tail.apart
  · intro later hlater keyId' other hother' hpassing'
    have hle := (List.pairwise_cons.mp h.clock).1 later hlater
    rw [c.unused_checkAndStore C.toF64 nonce other hle,
      c'.unused_checkAndStore C.toF64 nonce other hle, hsame, h.skew_left, h.skew_right,
      h.tail.unused later hlater keyId' other hother' hpassing']

variable (C v doc)

/-- **One device apart.**  Where its nonces stay its own, its accepted requests are of no
consequence to the others. -/
theorem unmoved_of_apart (skew : Nat) {calls : List Call} (hclock : Clock calls) {device : Str}
    (hapart : Apart C v doc skew device calls) : Unmoved C v doc skew calls device := by
  refine @trace_without _ _ _ _ (Alike C v doc skew device) (Decision.accepts device)
    (fun call d d' => ¬ call.InName device → d' = d) ?_ ?_ calls _ _
    ⟨rfl, rfl, hclock, hapart, fun _ _ _ _ _ _ => Iff.rfl⟩
  · intro c c' call rest h _
    rcases verifyCall_gate C v doc skew call with
      ⟨keyId, nonce, hpassing, hverify⟩ | ⟨-, decision, hverify⟩
    · rw [hverify c h.skew_left, hverify c' h.skew_right]
      by_cases hdevice : keyId = device
      · subst hdevice
        refine ⟨fun hname => absurd hpassing.inName hname, ?_⟩
        have hleft := h.tail.spend h.clock h.apart hpassing
        exact (hleft.symm.spend h.clock h.apart hpassing).symm
      · obtain ⟨hsame, hnext⟩ := h.spend_both hdevice hpassing
        exact ⟨fun _ => by rw [hsame], hnext⟩
    · rw [hverify c h.skew_left, hverify c' h.skew_right]
      exact ⟨fun _ => rfl, h.tail⟩
  · intro c c' call rest h haccepted
    rcases verifyCall_gate C v doc skew call with
      ⟨keyId, nonce, hpassing, hverify⟩ | ⟨-, decision, hverify⟩
    · rw [hverify c h.skew_left] at haccepted ⊢
      have hdevice : keyId = device := by
        cases hfresh : (c.checkAndStore C.toF64 nonce call.now).1 with
        | true =>
            rw [hfresh] at haccepted
            exact of_decide_eq_true haccepted
        | false =>
            rw [hfresh] at haccepted
            cases haccepted
      subst hdevice
      exact h.tail.spend h.clock h.apart hpassing
    · rw [hverify c h.skew_left]
      exact h.tail

/-- What being unmoved says of two requests, the first of them accepted. -/
theorem Unmoved.second {skew : Nat} {first second : Call} {device : Str}
    (h : Unmoved C v doc skew [first, second] device)
    (hfirst : (verifyCall C v doc { skewSeconds := skew } first).1.accepts device = true)
    (hsecond : (verifyCall C v doc (verifyCall C v doc { skewSeconds := skew } first).2
      second).1.accepts device = false)
    (hother : ¬ second.InName device) :
    (verifyCall C v doc { skewSeconds := skew } second).1 =
      (verifyCall C v doc (verifyCall C v doc { skewSeconds := skew } first).2 second).1 := by
  unfold Unmoved at h
  dsimp only [trace, entry] at h
  rw [List.filter_cons_of_neg (by dsimp only; rw [hfirst]; decide),
    List.filter_cons_of_pos (by dsimp only; rw [hsecond]; decide), List.filter_nil, List.map_cons,
    List.map_nil] at h
  dsimp only [trace, entry] at h
  obtain ⟨⟨-, hsame⟩, -⟩ := List.forall₂_cons.mp h
  exact hsame hother

/-! ## What is a replay -/

/-- The cache remembers of what was accepted what is still within the skew. -/
structure Recorded (skew : Nat) (past : List (Entry NonceCache Call Decision)) (c : NonceCache)
    (calls : List Call) : Prop where
  skew_eq : c.skewSeconds = skew
  clock : Clock calls
  unused : ∀ call ∈ calls, ∀ nonce, c.Unused nonce call.now ↔
    ∀ e ∈ past, ∀ keyId, Passing C v doc skew keyId nonce e.input → e.output.Allowed →
      rememberedUntil C.toF64 skew e.input.now < call.now

/-- What the cache remembers is what was accepted, and for how long. A call that passes the gate
adds its own nonce when that was free; any other call leaves the unused ones as they were. -/
theorem recorded_step (skew : Nat) (past : List (Entry NonceCache Call Decision)) (c : NonceCache)
    (call : Call) (calls : List Call) (h : Recorded C v doc skew past c (call :: calls)) :
    Recorded C v doc skew (past ++ [entry (verifyCall C v doc) c call])
      (verifyCall C v doc c call).2 calls := by
  obtain ⟨hfirst, hclock⟩ := List.pairwise_cons.mp h.clock
  constructor
  · exact (verifyCall_skewSeconds C v doc c call).trans h.skew_eq
  · exact hclock
  · intro later hlater nonce
    have hold := h.unused later (List.mem_cons_of_mem _ hlater) nonce
    rw [List.forall_mem_append, List.forall_mem_singleton]
    rcases verifyCall_gate C v doc skew call with
      ⟨keyId, spent, hpassing, hverify⟩ | ⟨hno, decision, hverify⟩
    · have hcall := hverify c h.skew_eq
      rw [hcall, c.unused_checkAndStore C.toF64 spent nonce (hfirst later hlater), hold, h.skew_eq]
      refine and_congr_right fun _ => ?_
      constructor
      · intro hnew other hpassing' hallowed
        obtain ⟨-, rfl⟩ := hpassing.unique C v doc hpassing'
        have hallowed' : (verifyCall C v doc c call).1.Allowed := hallowed
        rw [hcall, answer_allowed] at hallowed'
        exact hnew hallowed' rfl
      · intro hnew hfresh heq
        subst heq
        refine hnew keyId hpassing ?_
        have hallowed : (verifyCall C v doc c call).1.Allowed := by
          rw [hcall]
          exact answer_allowed.mpr hfresh
        exact hallowed
    · rw [hverify c h.skew_eq, hold]
      exact (and_iff_left fun keyId hpassing _ => absurd hpassing (hno keyId nonce)).symm

/-- **Shared nonces.**  Without the accepted requests of a device, the requests of the others
are decided as they were, as long as none of them brings a nonce that the device passed
with a skew before or less.  And a correctly signed request in its window is
answered as a replay exactly when a request accepted a skew before or less, of
whichever device, had its nonce. -/
theorem nonces_shared (v : Verifier) (doc : DevicesDoc) (skew : Nat) (calls : List Call)
    (hclock : Clock calls) :
    (∀ device, Apart C v doc skew device calls → Unmoved C v doc skew calls device) ∧
    ∀ pre e post,
      trace (verifyCall C v doc) { skewSeconds := skew } calls = pre ++ e :: post →
      ∀ keyId nonce, Passing C v doc skew keyId nonce e.input →
        (e.output = answer keyId false ↔
          ∃ e' ∈ pre, ∃ other, Passing C v doc skew other nonce e'.input ∧ e'.output.Allowed ∧
            e.input.now ≤ rememberedUntil C.toF64 skew e'.input.now) := by
  refine ⟨fun device hapart => unmoved_of_apart C v doc skew hclock hapart, ?_⟩
  intro pre e post hrun keyId nonce hpassing
  have hstart : Recorded C v doc skew [] { skewSeconds := skew } calls := by
    refine ⟨rfl, hclock, fun call _ nonce => iff_of_true ?_ ?_⟩
    · exact fun entry hmem => absurd hmem List.not_mem_nil
    · exact fun entry hmem => absurd hmem List.not_mem_nil
  obtain ⟨hentry, rest, hrecorded⟩ :=
    history_trace (recorded_step C v doc skew) calls _ [] hstart pre e post hrun
  have houtput : e.output = answer keyId (e.before.checkAndStore C.toF64 nonce e.input.now).1 := by
    have houtput' : e.output = (verifyCall C v doc e.before e.input).1 := by
      rw [hentry]
      rfl
    rw [houtput', verifyCall_of_passing C v doc hpassing hrecorded.skew_eq]
  have hunused := hrecorded.unused e.input List.mem_cons_self nonce
  rw [List.nil_append] at hunused
  rw [houtput, answer_inj, Bool.eq_false_iff, ne_eq, e.before.checkAndStore_iff, hunused]
  constructor
  · intro hsome
    by_contra hnone
    refine hsome fun e' he' other hpassing' hallowed => ?_
    by_contra hlate
    exact hnone ⟨e', he', other, hpassing', hallowed, not_lt.mp hlate⟩
  · rintro ⟨e', he', other, hpassing', hallowed, hle⟩ hall
    exact absurd (hall e' he' other hpassing' hallowed) (not_lt.mpr hle)

/-! ## Two signers -/

/-- The key of a second device. -/
def tabletKey : Octets :=
  [19, 152, 246, 44, 109, 26, 69, 124, 81, 186, 106, 75, 95, 61, 189, 47, 105, 252, 169, 50, 22,
   33, 141, 200, 153, 126, 65, 107, 209, 125, 147, 202]

/-- The key of a second device. -/
def tabletKeyText : Str := "E5j2LG0aRXxRumpLXz29L2n8qTIWIY3ImX5Ba9F9k8o".toList

/-- Its signature of the request that the first one signed. -/
def tabletSignature : Octets :=
  [63, 174, 69, 118, 208, 27, 134, 66, 152, 197, 189, 86, 95, 1, 215, 17, 162, 220, 203, 52, 87,
   68, 214, 54, 179, 127, 141, 72, 225, 122, 41, 75, 69, 147, 200, 8, 50, 202, 75, 100, 78, 141,
   69, 70, 215, 37, 222, 224, 146, 125, 89, 230, 32, 71, 100, 94, 26, 239, 152, 90, 38, 9, 33, 14]

/-- Its signature of the same request. -/
def tabletSignatureText : Str :=
  "P65FdtAbhkKYxb1WXwHXEaLcyzRXRNY2s3+NSOF6KUtFk8gIMspLZE6NRUbXJd7gkn1Z5iBHZF4a75haJgkhDg".toList

/-- The crates, on the requests of both. -/
def twoSigners : Crypto where
  sha256 := oneSigner.sha256
  sha3_512 := oneSigner.sha3_512
  b64url := oneSigner.b64url
  b64 := fun text =>
    if text = tabletKeyText then some tabletKey
    else if text = tabletSignatureText then some tabletSignature
    else oneSigner.b64 text
  keyIsValid := fun key => key.1 = tabletKey || oneSigner.keyIsValid key
  verifyStrict := fun key message signature =>
    (key.1 = tabletKey ∧ message = signerMessage ∧ signature.1 = tabletSignature) ||
      oneSigner.verifyStrict key message signature
  upper := oneSigner.upper
  toF64 := oneSigner.toF64

/-- A document with both devices. -/
def bothDoc : DevicesDoc :=
  { devices := signerDoc.devices ++ [
      { tokenId := "tablet".toList, label := "tablet".toList, authVersion := 2, tokenHash := none
        publicKey := some tabletKeyText, createdAt := 1787480000, expiresAt := none
        lastUsed := none }] }

/-- The same request from the second device, on the same nonce. -/
def tabletCall (now : ℚ) : Call where
  now := now
  presented :=
    { (signerCall now).presented with
      keyId := some "tablet".toList, signature := some tabletSignatureText }

/-- Two requests, one after the other. -/
theorem clock_pair {first second : Call} (h : first.now ≤ second.now) : Clock [first, second] := by
  refine List.pairwise_cons.mpr ⟨?_, List.pairwise_singleton _ _⟩
  intro later hlater
  obtain rfl := List.mem_singleton.mp hlater
  exact h

/-- The first device's request passes, its nonce apart. -/
theorem signer_passing :
    Passing twoSigners ⟨1⟩ bothDoc 60 "signer".toList "nonce-1".toList
      (signerCall 1787488556) := by
  refine ⟨rfl, "1787488556".toList, signerSignatureText, _,
    ⟨rfl, rfl, rfl, rfl, by decide⟩, ⟨rfl, by decide, ?_, ?_⟩⟩
  · decide +kernel
  · decide +kernel

/-- The second device's call passes as well. -/
theorem tablet_passing :
    Passing twoSigners ⟨1⟩ bothDoc 60 "tablet".toList "nonce-1".toList
      (tabletCall 1787488557) := by
  refine ⟨rfl, "1787488556".toList, tabletSignatureText, _,
    ⟨rfl, rfl, rfl, rfl, by decide⟩, ⟨rfl, by decide, ?_, ?_⟩⟩
  · decide +kernel
  · decide +kernel

/-- The second device's request comes when the first one's nonce is still remembered. -/
theorem nonces_shared_later :
    Unmoved twoSigners ⟨1⟩ bothDoc 60 [signerCall 1787488496, tabletCall 1787488557]
      "signer".toList := by
  refine (nonces_shared twoSigners ⟨1⟩ bothDoc 60 _ (clock_pair (by decide +kernel))).1 _ ?_
  refine List.pairwise_cons.mpr ⟨?_, List.pairwise_singleton _ _⟩
  intro later hlater keyId nonce _ _ _
  obtain rfl := List.mem_singleton.mp hlater
  decide +kernel

/-- A second after the first device, the second one is refused as a replay; without the
first request it is let in. -/
theorem nonce_of_another_device :
    ¬ ∀ calls device, Clock calls → Unmoved twoSigners ⟨1⟩ bothDoc 60 calls device := by
  intro h
  have hunmoved := h [signerCall 1787488556, tabletCall 1787488557] "signer".toList
    (clock_pair (by decide +kernel))
  have hsigner := verifyCall_of_passing twoSigners ⟨1⟩ bothDoc signer_passing
    (show NonceCache.skewSeconds { skewSeconds := 60 } = 60 from rfl)
  have hfirst : (verifyCall twoSigners ⟨1⟩ bothDoc { skewSeconds := 60 }
      (signerCall 1787488556)).1.accepts "signer".toList = true := by
    rw [hsigner]
    decide +kernel
  have hsecond : (verifyCall twoSigners ⟨1⟩ bothDoc
      (verifyCall twoSigners ⟨1⟩ bothDoc { skewSeconds := 60 } (signerCall 1787488556)).2
      (tabletCall 1787488557)).1 = answer "tablet".toList false := by
    rw [hsigner, verifyCall_of_passing twoSigners ⟨1⟩ bothDoc tablet_passing (by decide +kernel)]
    decide +kernel
  have halone : (verifyCall twoSigners ⟨1⟩ bothDoc { skewSeconds := 60 }
      (tabletCall 1787488557)).1 = answer "tablet".toList true := by
    rw [verifyCall_of_passing twoSigners ⟨1⟩ bothDoc tablet_passing rfl]
    decide +kernel
  have hsame := hunmoved.second twoSigners ⟨1⟩ bothDoc hfirst (by rw [hsecond]; decide) (by
    rintro ⟨-, hname⟩
    exact absurd hname (by decide))
  rw [halone, hsecond] at hsame
  cases answer_inj.mp hsame

end BreezeAuth
