import Mathlib.Tactic.NormNum
import BreezeCore.Auth.Verify
import BreezeCore.Panel.Signer

/-!
# A browser whose clock is wrong

A request stamped outside the window is answered with the server's own time.  The panel
learns from it how far its clock is off, to the second, and repeats the request.

* `clock_skew_heals` — the repeated request and all later ones are inside the window, as long
  as the ways of the answer and of the request are two seconds shorter than it.
-/

namespace BreezePanel

open Bytes Text BreezeAuth BreezeStore

/-- `Math.round`: half a unit goes up. -/
def mathRound (x : ℚ) : ℤ := ⌊x + 1 / 2⌋

/-- `Date.now()`: the milliseconds of a clock that is off by `error` seconds. -/
def dateNow (error time : ℚ) : ℤ := ⌊(time + error) * 1000⌋

/-- What the panel reads of an answer; `detail` is there when the body is JSON and its detail
an object. -/
structure Response where
  status : Nat
  detail : Option RejectionDetail
  deriving DecidableEq, Repr

/-- A rejection as the panel gets it. -/
def Response.ofRejection (r : Rejection) : Response := ⟨r.status, some r.body⟩

/-- The offset after a detail that is retryable.  The panel calculates with doubles as the
server does. -/
def learn (toF64 : ℚ → ℚ) (clockOffsetSeconds : ℤ) (detail : RejectionDetail) (now : ℤ) : ℤ :=
  match detail.serverTime with
  | some serverTime =>
      if detail.error = "clock_skew" then mathRound (toF64 (serverTime - toF64 ((now : ℚ) / 1000)))
      else clockOffsetSeconds
  | none => clockOffsetSeconds

/-- One `fetch`, with the panel's clock when it is signed and when its answer is read. -/
structure Exchange where
  signedAt : ℤ
  nonceBytes : Octets
  response : Response
  readAt : ℤ
  deriving DecidableEq, Repr

section Sending

variable (toF64 : ℚ → ℚ) (browser : Browser) (keyId method path : Str) (body : Option Str)

/-- A signed request, with the headers of every `fetch` and the offset that is left. Only an
answer of 401 that says so is tried again, once, with the offset learned from it. -/
def sendWithRetry (mayRetry : Bool) (clockOffsetSeconds : ℤ) :
    List Exchange → List SignedHeaders × ℤ
  | [] => ([], clockOffsetSeconds)
  | exchange :: exchanges =>
      let headers := signRequestHeaders browser keyId method path body clockOffsetSeconds
        exchange.signedAt exchange.nonceBytes
      if exchange.response.status ≠ 401 ∨ mayRetry = false then ([headers], clockOffsetSeconds)
      else
        match exchange.response.detail with
        | none => ([headers], clockOffsetSeconds)
        | some detail =>
            if detail.retryable = false then ([headers], clockOffsetSeconds)
            else
              let (sent, offset) := sendWithRetry false
                (learn toF64 clockOffsetSeconds detail exchange.readAt) exchanges
              (headers :: sent, offset)

/-- The `fetch` after the retry is never made. -/
theorem sendWithRetry_last (clockOffsetSeconds : ℤ) (exchange : Exchange)
    (exchanges : List Exchange) :
    sendWithRetry toF64 browser keyId method path body false clockOffsetSeconds
        (exchange :: exchanges) =
      ([signRequestHeaders browser keyId method path body clockOffsetSeconds exchange.signedAt
        exchange.nonceBytes], clockOffsetSeconds) := by
  unfold sendWithRetry
  dsimp only
  rw [if_pos (Or.inr rfl)]

/-- A detail that is retryable is learned from, and the request repeated once. -/
theorem sendWithRetry_retried {clockOffsetSeconds : ℤ} {first retry : Exchange}
    {detail : RejectionDetail} (hresponse : first.response = ⟨401, some detail⟩)
    (hretryable : detail.retryable = true) :
    sendWithRetry toF64 browser keyId method path body true clockOffsetSeconds [first, retry] =
      ([signRequestHeaders browser keyId method path body clockOffsetSeconds first.signedAt
          first.nonceBytes,
        signRequestHeaders browser keyId method path body
          (learn toF64 clockOffsetSeconds detail first.readAt) retry.signedAt retry.nonceBytes],
        learn toF64 clockOffsetSeconds detail first.readAt) := by
  unfold sendWithRetry
  dsimp only
  rw [hresponse]
  dsimp only
  rw [if_neg (by decide), if_neg (by rw [hretryable]; decide), sendWithRetry_last]

end Sending

/-! ## The rejection -/

section Rejected

variable (C : Crypto) {v : Verifier} {doc : DevicesDoc} {nonces : NonceCache} {now : ℚ}

/-- A signed request that is rejected for its clock is answered with the server's time, and was
outside the window. -/
theorem verifySigned_clockSkew {p : Presented} {keyId timestamp nonce signature : Str}
    {r : Rejection} (hreason : r.reason = .clockSkew)
    (h : (v.verifySigned C doc p keyId timestamp nonce signature nonces now).1 = .reject r) :
    r = clockSkew C nonces timestamp now ∧
      nonces.timestampInWindow C.toF64 timestamp now = false := by
  have hother {other : Rejection} (hrefused : Decision.reject other = .reject r)
      (hne : other.reason ≠ .clockSkew) : False := by
    obtain rfl := Decision.reject.inj hrefused
    exact hne hreason
  unfold Verifier.verifySigned at h
  cases hfind : findByKeyId doc keyId now with
  | none =>
      rw [hfind] at h
      exact (hother h (by decide)).elim
  | some record =>
      rw [hfind] at h
      dsimp only at h
      split at h
      next => cases h
      next =>
        split at h
        next hwindow =>
          exact ⟨(Decision.reject.inj h).symm, Bool.not_eq_true _ ▸ hwindow⟩
        next =>
          split at h
          next => exact (hother h (by decide)).elim
          next =>
            split at h
            next => exact (hother h (by decide)).elim
            next => cases h

/-- **A `clock_skew` rejection** tells the time of the server, and answers a stamp outside the
window. -/
theorem verifyDevice_clockSkew {p : Presented} {r : Rejection} (hreason : r.reason = .clockSkew)
    (h : (v.verifyDevice C doc p nonces now).1 = .reject r) :
    ∃ timestamp, p.timestamp = some timestamp ∧ r = clockSkew C nonces timestamp now ∧
      nonces.timestampInWindow C.toF64 timestamp now = false := by
  have hother {other : Rejection} (hrefused : Decision.reject other = .reject r)
      (hne : other.reason ≠ .clockSkew) : False := by
    obtain rfl := Decision.reject.inj hrefused
    exact hne hreason
  unfold Verifier.verifyDevice at h
  split at h
  next =>
    unfold Verifier.verifyV2 at h
    split at h
    next htimestamp _ _ =>
      split at h
      next => exact (hother h (by decide)).elim
      next => exact ⟨_, htimestamp, verifySigned_clockSkew C hreason h⟩
    next => exact (hother h (by decide)).elim
  next =>
    unfold Verifier.verifyV1 at h
    dsimp only at h
    split at h
    next =>
      refine (hother h ?_).elim
      split
      next => decide
      next => decide
    next =>
      split at h
      next => cases h
      next => cases h

end Rejected

/-! ## The offset and the stamps -/

/-- When the server rejects a request, the answer is read, another request is signed and the
server checks its stamp.  The server's clock counts seconds since the epoch in 64 bits. -/
structure Delays (W : Nat) (rejectedAt readAt signedAt checkedAt : ℚ) : Prop where
  epoch : 0 ≤ rejectedAt
  back : rejectedAt ≤ readAt
  next : readAt ≤ signedAt
  there : signedAt ≤ checkedAt
  range : checkedAt < 2 ^ 64
  together : (readAt - rejectedAt) + (checkedAt - signedAt) ≤ W - 2

/-- Doubles as they are up to a limit of 2⁵⁰: they keep the order and the sign, whole
numbers are doubles, and no other is rounded by more than one sixteenth. -/
structure Accurate (toF64 : ℚ → ℚ) (limit : ℚ) : Prop where
  mono : Monotone toF64
  neg : ∀ n : ℕ, toF64 (-(n : ℚ)) = -toF64 n
  whole : ∀ n : ℤ, |(n : ℚ)| ≤ limit → toF64 n = n
  near : ∀ x, |x| ≤ limit → |toF64 x - x| ≤ 1 / 16

/-- A distance that is no more than a whole number is none rounded. -/
theorem Accurate.abs_toF64_le {toF64 : ℚ → ℚ} {limit x : ℚ} (h : Accurate toF64 limit) {n : ℕ}
    (hx : |x| ≤ n) : |toF64 x| ≤ toF64 n := by
  obtain ⟨hlow, hhigh⟩ := abs_le.mp hx
  refine abs_le.mpr ⟨?_, h.mono hhigh⟩
  rw [← h.neg n]
  exact h.mono hlow

/-- The server's time is rounded by half a second at most. -/
theorem abs_round_sub_le (x : ℚ) : |(BreezeAuth.round x : ℚ) - x| ≤ 1 / 2 := by
  unfold BreezeAuth.round
  rw [abs_le]
  split
  next =>
    have hlow := Int.lt_floor_add_one (x + 1 / 2)
    have hhigh := Int.floor_le (x + 1 / 2)
    constructor <;> linarith
  next =>
    have hlow := Int.le_ceil (x - 1 / 2)
    have hhigh := Int.ceil_lt_add_one (x - 1 / 2)
    constructor <;> linarith

/-- The panel's clock is what it is off, cut to milliseconds. -/
theorem dateNow_bounds (error time : ℚ) :
    time + error - 1 / 1000 < (dateNow error time : ℚ) / 1000 ∧
      (dateNow error time : ℚ) / 1000 ≤ time + error := by
  have hlow := Int.lt_floor_add_one ((time + error) * 1000)
  have hhigh := Int.floor_le ((time + error) * 1000)
  unfold dateNow
  constructor <;> linarith

/-- `Math.round` is off by half of one at most. -/
theorem mathRound_bounds (x : ℚ) : x - 1 / 2 < mathRound x ∧ mathRound x ≤ x + 1 / 2 := by
  have hlow := Int.lt_floor_add_one (x + 1 / 2)
  have hhigh := Int.floor_le (x + 1 / 2)
  unfold mathRound
  constructor <;> linarith

/-- The stamp drops the milliseconds of the clock. -/
theorem stamp_bounds (now offset : ℤ) :
    (now : ℚ) / 1000 + offset - 999 / 1000 ≤ stamp now offset ∧
      (stamp now offset : ℚ) ≤ (now : ℚ) / 1000 + offset := by
  have hdiv : now = 1000 * (now / 1000) + now % 1000 := (Int.mul_ediv_add_emod now 1000).symm
  have hlow : (0 : ℚ) ≤ ((now % 1000 : ℤ) : ℚ) := by
    exact_mod_cast Int.emod_nonneg now (by decide)
  have hhigh : ((now % 1000 : ℤ) : ℚ) ≤ 999 := by
    have hlt := Int.emod_lt_of_pos now (show (0 : ℤ) < 1000 by decide)
    exact_mod_cast (by omega : now % 1000 ≤ 999)
  have hcast : (now : ℚ) = 1000 * ((now / 1000 : ℤ) : ℚ) + ((now % 1000 : ℤ) : ℚ) := by
    exact_mod_cast congrArg (Int.cast : ℤ → ℚ) hdiv
  unfold stamp
  push_cast
  constructor <;> linarith

/-- The time of the server, as its answer has it. -/
theorem Accurate.serverTime_bounds {toF64 : ℚ → ℚ} {limit now : ℚ} (h : Accurate toF64 limit)
    (hnow : 0 ≤ now) (hlimit : 1000 * now + 1 ≤ limit) :
    |toF64 ((BreezeAuth.round (toF64 (now * 1000)) : ℚ) / 1000) - now| ≤ 1 / 15 := by
  have hmillis := h.near (now * 1000) (by rw [abs_of_nonneg (by linarith)]; linarith)
  have hround := abs_round_sub_le (toF64 (now * 1000))
  rw [abs_le] at hmillis hround
  have hseconds := h.near ((BreezeAuth.round (toF64 (now * 1000)) : ℚ) / 1000)
    (abs_le.mpr ⟨by linarith, by linarith⟩)
  rw [abs_le] at hseconds ⊢
  constructor <;> linarith

/-- The offset learned at one time from a rejection of another. -/
def learnedOffset (toF64 : ℚ → ℚ) (error rejectedAt readAt : ℚ) : ℤ :=
  mathRound (toF64 (toF64 ((BreezeAuth.round (toF64 (rejectedAt * 1000)) : ℚ) / 1000) -
    toF64 ((dateNow error readAt : ℚ) / 1000)))

/-- What is learned from such a rejection. -/
theorem learn_clockSkew (C : Crypto) (offset : ℤ) (nonces : NonceCache) (timestamp : Str)
    (error rejectedAt readAt : ℚ) :
    learn C.toF64 offset (clockSkew C nonces timestamp rejectedAt).body (dateNow error readAt) =
      learnedOffset C.toF64 error rejectedAt readAt := rfl

/-- What is learned is the difference of the clocks, to seven tenths of a second. -/
theorem Accurate.learnedOffset_bounds {toF64 : ℚ → ℚ} {limit error rejectedAt readAt : ℚ}
    (h : Accurate toF64 limit) (hepoch : 0 ≤ rejectedAt) (hback : rejectedAt ≤ readAt)
    (hlimit : 1000 * readAt + |error| + 3 ≤ limit) :
    rejectedAt - (dateNow error readAt : ℚ) / 1000 - 7 / 10 ≤
        learnedOffset toF64 error rejectedAt readAt ∧
      (learnedOffset toF64 error rejectedAt readAt : ℚ) ≤
        rejectedAt - (dateNow error readAt : ℚ) / 1000 + 7 / 10 := by
  have herrorLow := neg_abs_le error
  have herrorHigh := le_abs_self error
  have hserver := h.serverTime_bounds hepoch (by linarith [abs_nonneg error])
  obtain ⟨hreadLow, hreadHigh⟩ := dateNow_bounds error readAt
  have hread := h.near ((dateNow error readAt : ℚ) / 1000)
    (abs_le.mpr ⟨by linarith, by linarith⟩)
  rw [abs_le] at hserver hread
  have hoffset := h.near (toF64 ((BreezeAuth.round (toF64 (rejectedAt * 1000)) : ℚ) / 1000) -
    toF64 ((dateNow error readAt : ℚ) / 1000)) (abs_le.mpr ⟨by linarith, by linarith⟩)
  rw [abs_le] at hoffset
  obtain ⟨hroundLow, hroundHigh⟩ := mathRound_bounds
    (toF64 (toF64 ((BreezeAuth.round (toF64 (rejectedAt * 1000)) : ℚ) / 1000) -
      toF64 ((dateNow error readAt : ℚ) / 1000)))
  rw [← learnedOffset] at hroundLow hroundHigh
  constructor <;> linarith

/-- **A stamp with the learned offset** is early by the delays and seven tenths and one
second at most, and late by seven tenths at most; what is left is the milliseconds. -/
theorem Accurate.stamp_error {toF64 : ℚ → ℚ} {limit error rejectedAt readAt : ℚ}
    (h : Accurate toF64 limit) (hepoch : 0 ≤ rejectedAt) (hback : rejectedAt ≤ readAt)
    (hlimit : 1000 * readAt + |error| + 3 ≤ limit) (signedAt checkedAt : ℚ) :
    checkedAt - ((readAt - rejectedAt) + (checkedAt - signedAt)) - 17 / 10 ≤
        stamp (dateNow error signedAt) (learnedOffset toF64 error rejectedAt readAt) ∧
      (stamp (dateNow error signedAt) (learnedOffset toF64 error rejectedAt readAt) : ℚ) ≤
        checkedAt - ((readAt - rejectedAt) + (checkedAt - signedAt)) + 701 / 1000 := by
  obtain ⟨hreadLow, hreadHigh⟩ := dateNow_bounds error readAt
  obtain ⟨hsignedLow, hsignedHigh⟩ := dateNow_bounds error signedAt
  obtain ⟨hoffsetLow, hoffsetHigh⟩ := h.learnedOffset_bounds hepoch hback hlimit
  obtain ⟨hstampLow, hstampHigh⟩ := stamp_bounds (dateNow error signedAt)
    (learnedOffset toF64 error rejectedAt readAt)
  constructor
  · linarith
  · linarith

/-- A double holds any time of the server. -/
private theorem two_pow_lt_f64Bound : ((2 ^ 64 + 2 : Nat) : ℚ) < f64Bound :=
  Nat.cast_lt.mpr (by decide +kernel)

/-- A whole number of seconds within the window is a stamp in the window. -/
theorem Accurate.timestampInWindow_showInt {toF64 : ℚ → ℚ} {limit : ℚ} (h : Accurate toF64 limit)
    {nonces : NonceCache} {i : ℤ} {now : ℚ} (hnow : 0 ≤ now ∧ now < 2 ^ 64)
    (hlimit : now + 2 ≤ limit) (hbelow : -2 ≤ (i : ℚ)) (habove : (i : ℚ) ≤ now + 2)
    (hwindow : |now - i| ≤ nonces.skewSeconds) :
    nonces.timestampInWindow toF64 (showInt i) now = true := by
  have hsize : |(i : ℚ)| ≤ now + 2 := abs_le.mpr ⟨by linarith, habove⟩
  have hfinite : |(i : ℚ)| < f64Bound := by
    refine lt_of_le_of_lt (hsize.trans ?_) two_pow_lt_f64Bound
    push_cast
    linarith [hnow.2]
  unfold NonceCache.timestampInWindow
  rw [parseFiniteF64_showInt hfinite, h.whole i (hsize.trans hlimit)]
  exact decide_eq_true (h.abs_toF64_le hwindow)

/-- **A request signed with the learned offset** is inside the window. -/
theorem signed_inWindow {toF64 : ℚ → ℚ} {nonces : NonceCache}
    {error rejectedAt readAt signedAt checkedAt : ℚ}
    (hdelays : Delays nonces.skewSeconds rejectedAt readAt signedAt checkedAt)
    (hdoubles : Accurate toF64 (1000 * checkedAt + |error| + 3)) :
    nonces.timestampInWindow toF64
      (showInt (stamp (dateNow error signedAt) (learnedOffset toF64 error rejectedAt readAt)))
      checkedAt = true := by
  obtain ⟨hepoch, hback, hnext, hthere, hrange, htogether⟩ := hdelays
  have herror := abs_nonneg error
  obtain ⟨hlow, hhigh⟩ :=
    hdoubles.stamp_error hepoch hback (by linarith) signedAt checkedAt
  refine hdoubles.timestampInWindow_showInt ⟨by linarith, hrange⟩ (by linarith) ?_ ?_
    (abs_le.mpr ⟨?_, ?_⟩)
  · linarith
  · linarith
  · linarith
  · linarith

/-! ## One retry is enough -/

/-- **Clock self-healing converges in one retry**: the retry of a request rejected for its
clock is inside the window, and so is every later request signed with the learned offset. -/
theorem clock_skew_heals (C : Crypto) (v : Verifier) (doc : DevicesDoc) (p : Presented)
    (nonces : NonceCache) (browser : Browser) (keyId method path : Str) (body : Option Str)
    (offset : ℤ) (error rejectedAt readAt : ℚ) (r : Rejection) (first : Exchange)
    (hreject : (v.verifyDevice C doc p nonces rejectedAt).1 = .reject r)
    (hreason : r.reason = .clockSkew) (hresponse : first.response = .ofRejection r)
    (hread : first.readAt = dateNow error readAt) :
    ∃ learned : ℤ,
      (∀ (retry : Exchange) (signedAt checkedAt : ℚ),
        Delays nonces.skewSeconds rejectedAt readAt signedAt checkedAt →
        Accurate C.toF64 (1000 * checkedAt + |error| + 3) →
        retry.signedAt = dateNow error signedAt →
        ∃ headers again : SignedHeaders,
          sendWithRetry C.toF64 browser keyId method path body true offset [first, retry] =
            ([headers, again], learned) ∧
          ∀ later : NonceCache, later.skewSeconds = nonces.skewSeconds →
            later.timestampInWindow C.toF64 again.timestamp checkedAt = true) ∧
      ∀ (method path : Str) (body : Option Str) (nonceBytes : Octets) (signedAt checkedAt : ℚ),
        Delays nonces.skewSeconds rejectedAt readAt signedAt checkedAt →
        Accurate C.toF64 (1000 * checkedAt + |error| + 3) →
        ∀ later : NonceCache, later.skewSeconds = nonces.skewSeconds →
          later.timestampInWindow C.toF64 (signRequestHeaders browser keyId method path body
            learned (dateNow error signedAt) nonceBytes).timestamp checkedAt = true := by
  obtain ⟨timestamp, -, rfl, -⟩ := verifyDevice_clockSkew C hreason hreject
  refine ⟨learnedOffset C.toF64 error rejectedAt readAt, ?_, ?_⟩
  · intro retry signedAt checkedAt hdelays hdoubles hsigned
    have hlearned : learn C.toF64 offset (clockSkew C nonces timestamp rejectedAt).body
        first.readAt = learnedOffset C.toF64 error rejectedAt readAt := by
      rw [hread, learn_clockSkew]
    have hsent := @sendWithRetry_retried C.toF64 browser keyId method path body offset first retry
      _ hresponse rfl
    rw [hlearned, hsigned] at hsent
    refine ⟨_, _, hsent, fun later hskew => ?_⟩
    exact signed_inWindow (hskew ▸ hdelays) hdoubles
  · intro method path body nonceBytes signedAt checkedAt hdelays hdoubles later hskew
    exact signed_inWindow (hskew ▸ hdelays) hdoubles

/-- A phone whose clock stopped soon after the epoch. -/
def stoppedPhone : DevicesDoc :=
  ⟨[{ tokenId := "phone".toList, label := "phone".toList, authVersion := 2, tokenHash := none
      publicKey := some signerKeyText, createdAt := 0, expiresAt := none, lastUsed := none }]⟩

/-- A request of a panel whose clock stands at a thousand seconds. -/
def stoppedRequest : Presented where
  authVersion := some "2".toList
  keyId := some "phone".toList
  timestamp := some "1000".toList
  nonce := some "first".toList
  signature := some signerSignatureText

/-- A browser that has one signature. -/
def stoppedBrowser : Browser where
  sign := fun _ => signerSignature
  b64u := oneSigner.b64url
  upper := oneSigner.upper

/-- The exchange that comes of it. -/
def stoppedFirst : Exchange where
  signedAt := 1000000
  nonceBytes := []
  response := .ofRejection (clockSkew oneSigner { skewSeconds := 30 } "1000".toList 1787488556)
  readAt := 1001250

/-- The rounding below is as good as doubles are. -/
theorem signer_accurate (limit : ℚ) : Accurate oneSigner.toF64 limit where
  mono := Grid.nearestTick_mono (by decide)
  neg := by
    intro n
    have htick : Grid.Tick (2 ^ 22) (n : ℚ) := Grid.tick_natCast (by decide) n
    show Grid.nearestTick (2 ^ 22) (-(n : ℚ)) = -Grid.nearestTick (2 ^ 22) (n : ℚ)
    rw [Grid.nearestTick_tick (by decide) htick.neg, Grid.nearestTick_tick (by decide) htick]
  whole := fun n _ => Grid.nearestTick_tick (by decide) (Grid.tick_intCast (by decide) n)
  near := fun x _ => (Grid.abs_nearestTick_sub_le (by decide) x).trans (by norm_num)

/-- The retry is in the window, and so is what comes after it. -/
theorem clock_skew_heals_stopped :
    ∃ (learned : ℤ) (headers again : SignedHeaders),
      sendWithRetry oneSigner.toF64 stoppedBrowser "phone".toList "GET".toList
          "/api/units".toList none true 0 [stoppedFirst, ⟨1001250, [], ⟨200, none⟩, 1002000⟩] =
        ([headers, again], learned) ∧
        ({ skewSeconds := 30 } : NonceCache).timestampInWindow oneSigner.toF64 again.timestamp
          1787488558 = true := by
  obtain ⟨learned, hretry, -⟩ := clock_skew_heals oneSigner ⟨1⟩ stoppedPhone stoppedRequest
    { skewSeconds := 30 } stoppedBrowser "phone".toList "GET".toList "/api/units".toList none 0
    (-1787487556) 1787488556 (1787488557 + 1 / 4) _ stoppedFirst (by decide +kernel) rfl rfl
    (by decide +kernel)
  obtain ⟨headers, again, hsent, hwindow⟩ := hretry ⟨1001250, [], ⟨200, none⟩, 1002000⟩
    (1787488557 + 1 / 4) 1787488558 (by constructor <;> norm_num) (signer_accurate _)
    (by decide +kernel)
  exact ⟨learned, headers, again, hsent, hwindow _ rfl⟩

end BreezePanel
