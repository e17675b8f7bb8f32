import Mathlib.Tactic.Linarith
import BreezeCore.Lib.Runs
import BreezeCore.Auth.Verify

/-!
# Replayed requests

One nonce cache answers call after call, on a clock that does not run
backwards.  A nonce is forgotten a skew after its first use; a timestamp is
accepted until a skew after itself.  A request stamped ahead of the clock is
therefore still acceptable when its nonce is forgotten.

* `not_replayed` — a request that was let in, and was not such a one, is not
  let in again;
* `replayed_of_ahead` — one that was can be let in a second time;
* `ahead_iff` — such a one is stamped after the clock, where the doubles are the
  multiples of a tick;
* `replay_safe_iff` — all three, over whole runs.
-/

namespace BreezeAuth

open Bytes Text BreezeStore Runs

/-- One call of `verify_device`: what was presented, and when. -/
structure Call where
  presented : Presented
  now : ℚ
  deriving DecidableEq, Repr

def Decision.Allowed (d : Decision) : Prop := ∃ who, d = .allow who

/-- Two presentations of the same signed request. -/
structure SameSigned (p q : Presented) : Prop where
  version : p.authVersion = some "2".toList
  version_eq : q.authVersion = p.authVersion
  keyId : q.keyId = p.keyId
  timestamp : q.timestamp = p.timestamp
  nonce : q.nonce = p.nonce
  signature : q.signature = p.signature
  method : q.method = p.method
  path : q.path = p.path
  body : q.body = p.body

/-- The clock readings never decrease. -/
def Clock (calls : List Call) : Prop := calls.Pairwise fun a b => a.now ≤ b.now

variable (C : Crypto) (v : Verifier) (doc : DevicesDoc)

/-- The clock readings are doubles. -/
def Readings (calls : List Call) : Prop := ∀ call ∈ calls, C.toF64 call.now = call.now

/-- One call against the cache. -/
def verifyCall (nonces : NonceCache) (call : Call) : Decision × NonceCache :=
  v.verifyDevice C doc call.presented nonces call.now

/-- No signed request is let in twice. -/
def NoReplay (run : List (Entry NonceCache Call Decision)) : Prop :=
  run.Pairwise fun first second =>
    SameSigned first.input.presented second.input.presented →
      first.output.Allowed → ¬ second.output.Allowed

/-- The call passes every test of the signature scheme, with a nonce that is not
remembered. -/
structure Fresh (nonces : NonceCache) (call : Call) (timestamp nonce : Str)
    (record : DeviceRecord) : Prop where
  version : call.presented.authVersion = some "2".toList
  unused : nonces.Unused nonce call.now
  signed : ∃ keyId signature, Headers call.presented keyId timestamp nonce signature ∧
    Signed C v doc call.presented keyId timestamp nonce signature nonces call.now record

/-- The call is so far ahead of the clock that there is a reading, past the time until
which its nonce is remembered, at which its timestamp is still in the window and its
record has not expired. -/
def Ahead (nonces : NonceCache) (call : Call) : Prop :=
  ∃ timestamp nonce record later, Fresh C v doc nonces call timestamp nonce record ∧
    C.toF64 later = later ∧ call.now ≤ later ∧
    rememberedUntil C.toF64 nonces.skewSeconds call.now < later ∧
    nonces.timestampInWindow C.toF64 timestamp later = true ∧ record.Unexpired later

/-- The call is fresh, its timestamp is after the clock, and its record does not expire
while its nonce is remembered. -/
def StampedAhead (nonces : NonceCache) (call : Call) : Prop :=
  ∃ timestamp nonce record ts, Fresh C v doc nonces call timestamp nonce record ∧
    parseFiniteF64 C.toF64 timestamp = some ts ∧ call.now < ts ∧
    ∀ e, record.expiresAt = some e → call.now + nonces.skewSeconds < e

/-- Doubles as they are from 2004 to 2038, in seconds since the epoch: the multiples of
2⁻²², and the clock, the skew and the expiry of the records are well within those years. -/
structure OnGrid (nonces : NonceCache) (call : Call) : Prop where
  rounds : Grid.Rounds C.toF64 (2 ^ 22) (2 ^ 30) (2 ^ 31)
  reading : C.toF64 call.now = call.now
  after : 2 ^ 30 + nonces.skewSeconds + 1 ≤ call.now
  before : call.now + 2 * nonces.skewSeconds + 1 ≤ 2 ^ 31
  expiry : ∀ record ∈ doc.devices, ∀ e, record.expiresAt = some e → C.toF64 e = e

/-! ## One call -/

/-- A call leaves the cache alone or spends one nonce on it. -/
theorem verifyCall_cache (nonces : NonceCache) (call : Call) :
    (verifyCall C v doc nonces call).2 = nonces ∨
      ∃ nonce, (verifyCall C v doc nonces call).2 =
        (nonces.checkAndStore C.toF64 nonce call.now).2 := by
  unfold verifyCall Verifier.verifyDevice
  split
  next =>
    rcases v.verifyV2_cases C doc call.presented nonces call.now with
      ⟨keyId, timestamp, nonce, signature, -, hverify⟩ | ⟨-, hverify⟩
    · rw [hverify]
      rcases v.verifySigned_cases C doc call.presented keyId timestamp nonce signature nonces
        call.now with ⟨_, _, hcache, _⟩ | ⟨_, hcache, _⟩
      · exact Or.inr ⟨nonce, hcache⟩
      · exact Or.inl hcache
    · rw [hverify]
      exact Or.inl rfl
  next => exact Or.inl rfl

theorem verifyCall_skewSeconds (nonces : NonceCache) (call : Call) :
    (verifyCall C v doc nonces call).2.skewSeconds = nonces.skewSeconds := by
  rcases verifyCall_cache C v doc nonces call with h | ⟨nonce, h⟩
  · rw [h]
  · rw [h, NonceCache.skewSeconds_checkAndStore]

theorem skewSeconds_of_trace {nonces : NonceCache} {call : Call} {calls : List Call}
    {e : Entry NonceCache Call Decision}
    (he : e ∈ trace (verifyCall C v doc) (verifyCall C v doc nonces call).2 calls) :
    e.before.skewSeconds = nonces.skewSeconds := by
  obtain ⟨-, -, hskew⟩ := @forall_trace _ _ _ _ (fun s _ => s.skewSeconds = nonces.skewSeconds)
    (fun s i _ h => (verifyCall_skewSeconds C v doc s i).trans h) calls _
    (verifyCall_skewSeconds C v doc nonces call) e he
  exact hskew

/-- A signed request that is let in was fresh, and spends its nonce. -/
theorem verifyCall_allowed {nonces : NonceCache} {call : Call}
    (hversion : call.presented.authVersion = some "2".toList)
    (h : (verifyCall C v doc nonces call).1.Allowed) :
    ∃ timestamp nonce record, Fresh C v doc nonces call timestamp nonce record ∧
      (verifyCall C v doc nonces call).2 = (nonces.checkAndStore C.toF64 nonce call.now).2 := by
  obtain ⟨who, hwho⟩ := h
  unfold verifyCall Verifier.verifyDevice at hwho ⊢
  rw [if_pos hversion] at hwho ⊢
  obtain ⟨keyId, timestamp, nonce, signature, record, hheaders, hsigned, hunused, -, hcache⟩ :=
    Verifier.verifyV2_allow C hwho
  exact ⟨timestamp, nonce, record, ⟨hversion, hunused, keyId, signature, hheaders, hsigned⟩, hcache⟩

/-- A fresh request is let in. -/
theorem allowed_of_fresh {nonces : NonceCache} {call : Call} {timestamp nonce : Str}
    {record : DeviceRecord} (h : Fresh C v doc nonces call timestamp nonce record) :
    (verifyCall C v doc nonces call).1.Allowed := by
  obtain ⟨keyId, signature, hheaders, hsigned⟩ := h.signed
  have hfresh := (nonces.checkAndStore_iff C.toF64 nonce call.now).mpr h.unused
  unfold verifyCall Verifier.verifyDevice
  rw [if_pos h.version]
  rcases v.verifyV2_cases C doc call.presented nonces call.now with
    ⟨keyId', timestamp', nonce', signature', hheaders', hverify⟩ | ⟨hnone, -⟩
  · obtain rfl := Option.some.inj (hheaders.hasKeyId.symm.trans hheaders'.hasKeyId)
    obtain rfl := Option.some.inj (hheaders.hasTimestamp.symm.trans hheaders'.hasTimestamp)
    obtain rfl := Option.some.inj (hheaders.hasNonce.symm.trans hheaders'.hasNonce)
    obtain rfl := Option.some.inj (hheaders.hasSignature.symm.trans hheaders'.hasSignature)
    rw [hverify]
    rcases v.verifySigned_cases C doc call.presented keyId timestamp nonce signature nonces
      call.now with ⟨record', -, -, hyes, -⟩ | ⟨hno, -, -⟩
    · exact ⟨_, hyes hfresh⟩
    · exact absurd hsigned (hno record)
  · exact absurd hheaders (hnone keyId timestamp nonce signature)

/-- What fresh says of the clock: the stamp is in the window, and the record has not
expired. -/
theorem Fresh.inTime {nonces : NonceCache} {call : Call} {timestamp nonce : Str}
    {record : DeviceRecord} (h : Fresh C v doc nonces call timestamp nonce record) :
    record ∈ doc.devices ∧ record.Unexpired call.now ∧
      nonces.timestampInWindow C.toF64 timestamp call.now = true := by
  obtain ⟨keyId, signature, hheaders, hsigned⟩ := h.signed
  obtain ⟨hmem, -, -, hunexpired⟩ := findByKeyId_some hsigned.found
  exact ⟨hmem, hunexpired, hsigned.inWindow⟩

/-! ## Remembered nonces -/

/-- The nonce is remembered until `horizon`, or the clock is already past it. -/
def Held (nonce : Str) (horizon : ℚ) (nonces : NonceCache) (calls : List Call) : Prop :=
  Clock calls ∧ ((nonce, horizon) ∈ nonces.seen ∨ ∀ call ∈ calls, horizon < call.now)

/-- Calls do not make the cache forget a nonce before its time. A sweep drops only what the clock
has passed, and from then on the clock stays past it. -/
theorem held_step {nonce : Str} {horizon : ℚ} (nonces : NonceCache) (call : Call)
    (calls : List Call) (h : Held nonce horizon nonces (call :: calls)) :
    Held nonce horizon (verifyCall C v doc nonces call).2 calls := by
  obtain ⟨hclock, hheld⟩ := h
  obtain ⟨hfirst, hclock⟩ := List.pairwise_cons.mp hclock
  refine ⟨hclock, ?_⟩
  rcases hheld with hmem | hpast
  · by_cases hlater : call.now ≤ horizon
    · left
      rcases verifyCall_cache C v doc nonces call with hcache | ⟨spent, hcache⟩
      · rw [hcache]
        exact hmem
      · rw [hcache]
        exact NonceCache.mem_checkAndStore spent hmem hlater
    · right
      intro later hlater'
      exact lt_of_lt_of_le (not_le.mp hlater) (hfirst later hlater')
  · right
    intro later hlater
    exact hpast later (List.mem_cons_of_mem _ hlater)

/-- A request on a held nonce is let in only after its time. -/
theorem horizon_lt_of_fresh {nonces : NonceCache} {call : Call} {calls : List Call}
    {timestamp nonce : Str} {record : DeviceRecord} {horizon : ℚ}
    (hheld : Held nonce horizon nonces (call :: calls))
    (h : Fresh C v doc nonces call timestamp nonce record) : horizon < call.now := by
  rcases hheld.2 with hmem | hpast
  · exact h.unused _ hmem rfl
  · exact hpast call List.mem_cons_self

/-! ## Two calls -/

/-- The same request, fresh twice, has the same stamp, nonce and record. -/
theorem SameSigned.fresh_eq {first second : Call} {nonces nonces' : NonceCache}
    {timestamp nonce timestamp' nonce' : Str} {record record' : DeviceRecord}
    (hsame : SameSigned first.presented second.presented)
    (h : Fresh C v doc nonces first timestamp nonce record)
    (h' : Fresh C v doc nonces' second timestamp' nonce' record') :
    timestamp' = timestamp ∧ nonce' = nonce ∧ record' = record := by
  obtain ⟨keyId, signature, hheaders, hsigned⟩ := h.signed
  obtain ⟨keyId', signature', hheaders', hsigned'⟩ := h'.signed
  have hkey : keyId' = keyId := Option.some.inj
    (hheaders'.hasKeyId.symm.trans (hsame.keyId.trans hheaders.hasKeyId))
  have hts : timestamp' = timestamp := Option.some.inj
    (hheaders'.hasTimestamp.symm.trans (hsame.timestamp.trans hheaders.hasTimestamp))
  have hnonce : nonce' = nonce := Option.some.inj
    (hheaders'.hasNonce.symm.trans (hsame.nonce.trans hheaders.hasNonce))
  subst hkey
  have hfound := findByKeyId_find hsigned.found
  have hfound' := findByKeyId_find hsigned'.found
  exact ⟨hts, hnonce, Option.some.inj (hfound'.symm.trans hfound)⟩

/-- **No replay.**  A request that was let in, and was not ahead of the clock, is
not let in again while the clock does not run backwards. -/
theorem not_replayed {nonces : NonceCache} {call : Call} {calls : List Call}
    (hclock : Clock (call :: calls)) (hreadings : Readings C calls)
    (hahead : ¬ Ahead C v doc nonces call)
    (hallowed : (verifyCall C v doc nonces call).1.Allowed) :
    ∀ e ∈ trace (verifyCall C v doc) (verifyCall C v doc nonces call).2 calls,
      SameSigned call.presented e.input.presented → ¬ e.output.Allowed := by
  intro e he hsame hagain
  obtain ⟨timestamp, nonce, record, hfresh, hcache⟩ :=
    verifyCall_allowed C v doc hsame.version hallowed
  have hstored := (nonces.checkAndStore_iff C.toF64 nonce call.now).mpr hfresh.unused
  obtain ⟨hfirst, hrest⟩ := List.pairwise_cons.mp hclock
  -- The nonce is held for a skew from now, and the skew never changes.
  have hinit : Held nonce (rememberedUntil C.toF64 nonces.skewSeconds call.now)
      (verifyCall C v doc nonces call).2 calls := by
    refine ⟨hrest, Or.inl ?_⟩
    rw [hcache, NonceCache.checkAndStore_seen hstored]
    exact List.mem_cons_self
  obtain ⟨hentry, rest, hheld⟩ := forall_trace (held_step C v doc) calls _ hinit e he
  have hskew := skewSeconds_of_trace C v doc he
  have hinput := input_mem_of_trace he
  have houtput : e.output = (verifyCall C v doc e.before e.input).1 := by
    rw [hentry]
    rfl
  rw [houtput] at hagain
  obtain ⟨timestamp', nonce', record', hfresh', -⟩ :=
    verifyCall_allowed C v doc (hsame.version_eq.trans hsame.version) hagain
  obtain ⟨rfl, rfl, rfl⟩ := hsame.fresh_eq C v doc hfresh hfresh'
  have hpast := horizon_lt_of_fresh C v doc hheld hfresh'
  obtain ⟨-, hunexpired, hwindow⟩ := hfresh'.inTime
  rw [NonceCache.timestampInWindow_congr hskew] at hwindow
  exact hahead ⟨timestamp', nonce', record', e.input.now, hfresh, hreadings _ hinput,
    hfirst _ hinput, hpast, hwindow, hunexpired⟩

/-- **Replay.**  A request that is let in ahead of the clock is let in again,
later and with nothing in between. -/
theorem replayed_of_ahead {nonces : NonceCache} {call : Call} (h : Ahead C v doc nonces call) :
    ∃ later, C.toF64 later = later ∧ call.now ≤ later ∧
      (verifyCall C v doc (verifyCall C v doc nonces call).2
        ⟨call.presented, later⟩).1.Allowed := by
  obtain ⟨timestamp, nonce, record, later, hfresh, hreading, hlater, hforgotten, hwindow,
    hunexpired⟩ := h
  obtain ⟨keyId, signature, hheaders, hsigned⟩ := hfresh.signed
  refine ⟨later, hreading, hlater, ?_⟩
  obtain ⟨timestamp', nonce', record', hfresh', hcache⟩ :=
    verifyCall_allowed C v doc hfresh.version (allowed_of_fresh C v doc hfresh)
  obtain ⟨keyId', signature', hheaders', -⟩ := hfresh'.signed
  obtain rfl := Option.some.inj (hheaders.hasNonce.symm.trans hheaders'.hasNonce)
  have hseen := NonceCache.checkAndStore_seen
    ((nonces.checkAndStore_iff C.toF64 nonce call.now).mpr hfresh.unused)
  have hsigned' : Signed C v doc call.presented keyId timestamp nonce signature
      (verifyCall C v doc nonces call).2 later record := by
    refine ⟨findByKeyId_later hsigned.found hunexpired, hsigned.version, ?_, hsigned.signature⟩
    rw [NonceCache.timestampInWindow_congr (verifyCall_skewSeconds C v doc nonces call)]
    exact hwindow
  refine allowed_of_fresh C v doc
    ⟨hfresh.version, ?_, keyId, signature, hheaders, hsigned'⟩
  · -- Every entry with this nonce is the one just stored.
    intro entry hentry hnonce
    rw [hcache, hseen] at hentry
    rcases List.mem_cons.mp hentry with rfl | hold
    · exact hforgotten
    · obtain ⟨hmem, hkept⟩ := List.mem_filter.mp hold
      have hused := hfresh.unused entry hmem hnonce
      exact absurd (of_decide_eq_true hkept) (not_le.mpr hused)

/-! ## Ahead of the clock -/

section

variable {C v doc}
variable {nonces : NonceCache} {call : Call} {timestamp : Str} {ts : ℚ}

theorem OnGrid.skew_add_one_le (h : OnGrid C doc nonces call) :
    (nonces.skewSeconds : ℚ) + 1 ≤ 2 ^ 31 := by
  have hskew : (0 : ℚ) ≤ nonces.skewSeconds := Nat.cast_nonneg _
  linarith [h.after, h.before]

/-- The window, on multiples of a tick. -/
theorem OnGrid.window_iff (h : OnGrid C doc nonces call)
    (hparse : parseFiniteF64 C.toF64 timestamp = some ts) {now : ℚ}
    (hts : Grid.Tick (2 ^ 22) ts) (hnow : Grid.Tick (2 ^ 22) now) :
    nonces.timestampInWindow C.toF64 timestamp now = true ↔ |now - ts| ≤ nonces.skewSeconds := by
  have hskew : C.toF64 nonces.skewSeconds = nonces.skewSeconds :=
    h.rounds.natCast (by linarith [h.skew_add_one_le])
  unfold NonceCache.timestampInWindow
  rw [hparse]
  dsimp only
  rw [decide_eq_true_iff, hskew]
  exact h.rounds.abs_le_iff (hnow.sub hts) h.skew_add_one_le

theorem OnGrid.tick (h : OnGrid C doc nonces call) {x : ℚ} (hx : C.toF64 x = x)
    (hlow : call.now ≤ x) : Grid.Tick (2 ^ 22) x := by
  have hskew : (0 : ℚ) ≤ nonces.skewSeconds := Nat.cast_nonneg _
  rw [← hx]
  exact h.rounds.grid x (by rw [hx]; linarith [h.after])

/-- A stamp in the window is a multiple of a tick. Were it below the grid's floor the difference
to the clock would be more than one second past the window, and rounding keeps that order. -/
theorem OnGrid.tick_stamp (h : OnGrid C doc nonces call)
    (hparse : parseFiniteF64 C.toF64 timestamp = some ts)
    (hwindow : nonces.timestampInWindow C.toF64 timestamp call.now = true) :
    Grid.Tick (2 ^ 22) ts := by
  obtain ⟨x, rfl⟩ := parseFiniteF64_rounded hparse
  refine h.rounds.grid x ?_
  by_contra hlow
  -- one second too old is too old, however it is rounded
  have hskew : C.toF64 nonces.skewSeconds = nonces.skewSeconds :=
    h.rounds.natCast (by linarith [h.skew_add_one_le])
  have hnext : C.toF64 ((nonces.skewSeconds + 1 : ℕ) : ℚ) = (nonces.skewSeconds + 1 : ℕ) :=
    h.rounds.natCast (by push_cast; exact h.skew_add_one_le)
  have hold : ((nonces.skewSeconds + 1 : ℕ) : ℚ) ≤ call.now - C.toF64 x := by
    push_cast
    linarith [h.after, not_le.mp hlow]
  have hrounded := h.rounds.mono hold
  unfold NonceCache.timestampInWindow at hwindow
  rw [hparse] at hwindow
  have hclose := (abs_le.mp (of_decide_eq_true hwindow)).2
  rw [hskew] at hclose
  rw [hnext] at hrounded
  push_cast at hrounded
  linarith

/-- **Which requests are ahead of the clock**: the ones stamped after it whose record
outlives the memory of their nonce. -/
theorem ahead_iff (h : OnGrid C doc nonces call) :
    Ahead C v doc nonces call ↔ StampedAhead C v doc nonces call := by
  have hskew : (0 : ℚ) ≤ nonces.skewSeconds := Nat.cast_nonneg _
  have hnow := h.tick h.reading le_rfl
  have hadded : Grid.Tick (2 ^ 22) (nonces.skewSeconds : ℚ) :=
    Grid.tick_natCast h.rounds.pos nonces.skewSeconds
  have hhorizon : rememberedUntil C.toF64 nonces.skewSeconds call.now =
      call.now + nonces.skewSeconds := by
    unfold rememberedUntil
    rw [h.rounds.natCast (by linarith [h.skew_add_one_le])]
    refine h.rounds.exact _ (hnow.add hadded) ?_
    rw [abs_of_nonneg (by linarith [h.after])]
    linarith [h.before]
  constructor
  · rintro ⟨timestamp, nonce, record, later, hfresh, hreading, hlater, hforgotten, hwindow,
      hunexpired⟩
    obtain ⟨-, -, hfirst⟩ := hfresh.inTime
    obtain ⟨ts, hparse⟩ := NonceCache.parsed_of_inWindow hfirst
    have hts := h.tick_stamp hparse hfirst
    have hclose := (h.window_iff hparse hts (h.tick hreading hlater)).mp hwindow
    rw [hhorizon] at hforgotten
    refine ⟨timestamp, nonce, record, ts, hfresh, hparse, ?_, ?_⟩
    · linarith [(abs_le.mp hclose).2]
    · intro e he
      exact lt_of_lt_of_le hforgotten (hunexpired e he)
  · rintro ⟨timestamp, nonce, record, ts, hfresh, hparse, hahead, hexpires⟩
    obtain ⟨hmem, -, hfirst⟩ := hfresh.inTime
    have hts := h.tick_stamp hparse hfirst
    have hclose := (abs_le.mp ((h.window_iff hparse hts hnow).mp hfirst)).1
    have hlast : C.toF64 (ts + nonces.skewSeconds) = ts + nonces.skewSeconds := by
      refine h.rounds.exact _ (hts.add hadded) ?_
      rw [abs_of_nonneg (by linarith [h.after])]
      linarith [h.before]
    -- The last moment at which both the stamp and the record still hold.
    obtain ⟨later, hreading, hforgotten, hstamp, hunexpired⟩ : ∃ later,
        C.toF64 later = later ∧ call.now + nonces.skewSeconds < later ∧
        later ≤ ts + nonces.skewSeconds ∧ record.Unexpired later := by
      cases hexpiry : record.expiresAt with
      | none =>
          refine ⟨ts + nonces.skewSeconds, hlast, by linarith, le_refl _, ?_⟩
          intro e he
          rw [hexpiry] at he
          cases he
      | some expiry =>
          refine ⟨min (ts + nonces.skewSeconds) expiry, ?_,
            lt_min (by linarith) (hexpires expiry hexpiry), min_le_left _ _, ?_⟩
          · rcases min_choice (ts + nonces.skewSeconds) expiry with hmin | hmin
            · rw [hmin, hlast]
            · rw [hmin, h.expiry record hmem expiry hexpiry]
          · intro e he
            obtain rfl := Option.some.inj (hexpiry.symm.trans he)
            exact min_le_right _ _
    have hlater : call.now ≤ later := by linarith
    refine ⟨timestamp, nonce, record, later, hfresh, hreading, hlater, ?_, ?_, hunexpired⟩
    · rw [hhorizon]
      exact hforgotten
    · refine (h.window_iff hparse hts (h.tick hreading hlater)).mpr (abs_le.mpr ⟨?_, ?_⟩)
      · linarith
      · linarith

end

/-! ## Whole runs -/

/-- A run in which no call is ahead of the clock replays nothing. -/
theorem noReplay_of_not_ahead (nonces : NonceCache) (calls : List Call) (hclock : Clock calls)
    (hreadings : Readings C calls)
    (hahead : ∀ e ∈ trace (verifyCall C v doc) nonces calls, ¬ Ahead C v doc e.before e.input) :
    NoReplay (trace (verifyCall C v doc) nonces calls) := by
  refine @pairwise_trace _ _ _ _ (fun s is => (Clock is ∧ Readings C is) ∧
    ∀ e ∈ trace (verifyCall C v doc) s is, ¬ Ahead C v doc e.before e.input) _ ?_ ?_
    calls nonces ⟨⟨hclock, hreadings⟩, hahead⟩
  · intro s i is h
    exact ⟨⟨(List.pairwise_cons.mp h.1.1).2, fun call hcall => h.1.2 call (.tail _ hcall)⟩,
      fun e he => h.2 e (List.mem_cons_of_mem _ he)⟩
  · intro s i is h e he hsame hallowed
    exact not_replayed C v doc h.1.1 (fun call hcall => h.1.2 call (.tail _ hcall))
      (h.2 _ List.mem_cons_self) hallowed e he hsame

/-- A request let in with this call is not let in again, whatever is called
next. -/
def Spent (nonces : NonceCache) (call : Call) : Prop :=
  ∀ calls, Clock (call :: calls) → Readings C calls →
    ∀ e ∈ trace (verifyCall C v doc) (verifyCall C v doc nonces call).2 calls,
      SameSigned call.presented e.input.presented → ¬ e.output.Allowed

/-- **When signed requests are safe from replay.**  A run in which no call is
ahead of the clock lets no signed request in twice; a signed request that is let
in is spent exactly when it was not ahead of the clock; and ahead is what is
stamped after the clock, with the doubles of these years. -/
theorem replay_safe_iff (C : Crypto) (v : Verifier) (doc : DevicesDoc) :
    (∀ (nonces : NonceCache) (calls : List Call), Clock calls → Readings C calls →
      (∀ e ∈ trace (verifyCall C v doc) nonces calls, ¬ Ahead C v doc e.before e.input) →
      NoReplay (trace (verifyCall C v doc) nonces calls)) ∧
    (∀ (nonces : NonceCache) (call : Call), call.presented.authVersion = some "2".toList →
      (verifyCall C v doc nonces call).1.Allowed →
      (Spent C v doc nonces call ↔ ¬ Ahead C v doc nonces call)) ∧
    (∀ (nonces : NonceCache) (call : Call), OnGrid C doc nonces call →
      (Ahead C v doc nonces call ↔ StampedAhead C v doc nonces call)) := by
  refine ⟨noReplay_of_not_ahead C v doc, ?_, fun _ _ => ahead_iff⟩
  intro nonces call hversion hallowed
  constructor
  · intro hspent hahead
    obtain ⟨later, hreading, hlater, hagain⟩ := replayed_of_ahead C v doc hahead
    have hclock : Clock [call, ⟨call.presented, later⟩] :=
      List.pairwise_cons.mpr ⟨by simpa using hlater, List.pairwise_singleton _ _⟩
    have hreadings : Readings C [⟨call.presented, later⟩] := by
      intro again hmem
      obtain rfl := List.mem_singleton.mp hmem
      exact hreading
    exact hspent _ hclock hreadings _ List.mem_cons_self
      ⟨hversion, rfl, rfl, rfl, rfl, rfl, rfl, rfl, rfl⟩ hagain
  · intro hahead calls hclock hreadings
    exact not_replayed C v doc hclock hreadings hahead hallowed

/-- A document with the one signer enrolled. -/
def signerDoc : DevicesDoc :=
  { devices := [
      { tokenId := "signer".toList, label := "phone".toList, authVersion := 2, tokenHash := none
        publicKey := some signerKeyText, createdAt := 1787480000, expiresAt := none
        lastUsed := none }] }

/-- The request it signed, at a time of the server's clock. -/
def signerCall (now : ℚ) : Call where
  now := now
  presented :=
    { authVersion := some "2".toList, keyId := some "signer".toList
      timestamp := some "1787488556".toList, nonce := some "nonce-1".toList
      signature := some signerSignatureText, method := "get".toList, path := "/api/units".toList }

/-- The calls of this year are on the grid, with a skew of a minute. -/
theorem signer_onGrid {nonces : NonceCache} {call : Call} (hskew : nonces.skewSeconds = 60)
    (hreading : oneSigner.toF64 call.now = call.now) (hafter : 2 ^ 30 + 61 ≤ call.now)
    (hbefore : call.now + 121 ≤ 2 ^ 31) : OnGrid oneSigner signerDoc nonces call where
  rounds := Grid.rounds_nearestTick (by decide) _ _
  reading := hreading
  after := by
    rw [hskew]
    push_cast
    linarith
  before := by
    rw [hskew]
    push_cast
    linarith
  expiry := by
    intro record hrecord e he
    obtain rfl := List.mem_singleton.mp hrecord
    cases he

/-- A request in the second it is stamped, and the same one again when its nonce is forgotten. -/
theorem replay_safe_on_time :
    NoReplay (trace (verifyCall oneSigner ⟨1⟩ signerDoc) { skewSeconds := 60 }
      [signerCall 1787488556, signerCall 1787488617]) := by
  obtain ⟨hsafe, -, hstamped⟩ := replay_safe_iff oneSigner ⟨1⟩ signerDoc
  have hparse : parseFiniteF64 oneSigner.toF64 "1787488556".toList = some 1787488556 := by
    decide +kernel
  -- neither of the two is stamped after the clock
  have hontime {nonces : NonceCache} {now : ℚ} (hskew : nonces.skewSeconds = 60)
      (hreading : oneSigner.toF64 now = now) (hnow : 1787488556 ≤ now)
      (hbefore : now ≤ 1787488617) :
      ¬ Ahead oneSigner ⟨1⟩ signerDoc nonces (signerCall now) := by
    rw [hstamped _ _ (signer_onGrid hskew hreading (show 2 ^ 30 + 61 ≤ now by linarith)
      (show now + 121 ≤ 2 ^ 31 by linarith))]
    rintro ⟨timestamp, nonce, record, ts, hfresh, hts, hahead, -⟩
    obtain ⟨keyId, signature, hheaders, -⟩ := hfresh.signed
    obtain rfl := Option.some.inj hheaders.hasTimestamp
    obtain rfl := Option.some.inj (hparse.symm.trans hts)
    exact absurd hnow (not_le.mpr hahead)
  refine hsafe _ _ ?_ ?_ ?_
  · refine List.pairwise_cons.mpr ⟨?_, List.pairwise_singleton _ _⟩
    intro call hcall
    obtain rfl := List.mem_singleton.mp hcall
    decide +kernel
  · intro call hcall
    rcases List.mem_cons.mp hcall with rfl | hcall
    · decide +kernel
    · obtain rfl := List.mem_singleton.mp hcall
      decide +kernel
  · intro e he
    rcases List.mem_cons.mp he with rfl | he
    · exact hontime rfl (by decide +kernel) (by decide +kernel) (by decide +kernel)
    · have hskew := skewSeconds_of_trace oneSigner ⟨1⟩ signerDoc he
      rw [List.mem_singleton.mp (input_mem_of_trace he)]
      exact hontime hskew (by decide +kernel) (by decide +kernel) (by decide +kernel)

/-- A minute ahead of the clock, the request is let in, and let in again as soon
as its nonce is forgotten. -/
theorem replayed_ahead_of_clock :
    Clock [signerCall 1787488496, signerCall 1787488557] ∧
      Readings oneSigner [signerCall 1787488496, signerCall 1787488557] ∧
      ¬ NoReplay (trace (verifyCall oneSigner ⟨1⟩ signerDoc) { skewSeconds := 60 }
        [signerCall 1787488496, signerCall 1787488557]) := by
  have hlet : (trace (verifyCall oneSigner ⟨1⟩ signerDoc) { skewSeconds := 60 }
      [signerCall 1787488496, signerCall 1787488557]).map (fun e => e.output) =
        [.allow ⟨"signer".toList, 2⟩, .allow ⟨"signer".toList, 2⟩] := by
    decide +kernel
  refine ⟨?_, ?_, ?_⟩
  · refine List.pairwise_cons.mpr ⟨?_, List.pairwise_singleton _ _⟩
    intro call hcall
    obtain rfl := List.mem_singleton.mp hcall
    decide +kernel
  · intro call hcall
    rcases List.mem_cons.mp hcall with rfl | hcall
    · decide +kernel
    · obtain rfl := List.mem_singleton.mp hcall
      decide +kernel
  · intro hnone
    injection hlet with hfirst hrest
    injection hrest with hsecond
    refine (List.pairwise_cons.mp hnone).1 _ List.mem_cons_self ?_ ⟨_, hfirst⟩ ⟨_, hsecond⟩
    exact ⟨rfl, rfl, rfl, rfl, rfl, rfl, rfl, rfl, rfl⟩

end BreezeAuth
