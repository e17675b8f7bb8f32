import BreezeCore.Lib.Text

/-!
# The timestamp window and the nonces already used

A timestamp is accepted within the skew of the clock, either way.  A nonce is
accepted once, and remembered until the skew has passed since its first use.
The two windows are not the same one: the first is centred on the stamp.

Times are doubles.  `toF64` takes what a calculation comes to, or a text says, to the
nearest one.
-/

namespace BreezeAuth

open Text

/-- The nonces seen, each with the time after which it can be forgotten. -/
structure NonceCache where
  skewSeconds : Nat
  seen : List (Str × ℚ) := []
  deriving DecidableEq, Repr

/-- Whether a client's timestamp is close enough to ours. -/
def NonceCache.timestampInWindow (c : NonceCache) (toF64 : ℚ → ℚ) (timestamp : Str) (now : ℚ) :
    Bool :=
  match parseFiniteF64 toF64 timestamp with
  | some ts => |toF64 (now - ts)| ≤ toF64 c.skewSeconds
  | none => false

/-- The window depends on the skew alone. -/
theorem NonceCache.timestampInWindow_congr {c c' : NonceCache} {toF64 : ℚ → ℚ} {timestamp : Str}
    {now : ℚ} (h : c.skewSeconds = c'.skewSeconds) :
    c.timestampInWindow toF64 timestamp now = c'.timestampInWindow toF64 timestamp now := by
  unfold timestampInWindow
  rw [h]

/-- A stamp in the window is a number. -/
theorem NonceCache.parsed_of_inWindow {c : NonceCache} {toF64 : ℚ → ℚ} {timestamp : Str} {now : ℚ}
    (h : c.timestampInWindow toF64 timestamp now = true) :
    ∃ ts, parseFiniteF64 toF64 timestamp = some ts := by
  unfold timestampInWindow at h
  split at h
  next ts hparse => exact ⟨ts, hparse⟩
  next => cases h

def NonceCache.sweep (c : NonceCache) (now : ℚ) : NonceCache :=
  { c with seen := c.seen.filter fun entry => now ≤ entry.2 }

/-- The time after which a nonce that is used now can be forgotten. -/
def rememberedUntil (toF64 : ℚ → ℚ) (skewSeconds : Nat) (now : ℚ) : ℚ :=
  toF64 (now + toF64 skewSeconds)

/-- Accept a nonce once. -/
def NonceCache.checkAndStore (c : NonceCache) (toF64 : ℚ → ℚ) (nonce : Str) (now : ℚ) :
    Bool × NonceCache :=
  let c := c.sweep now
  if c.seen.any fun entry => entry.1 = nonce then (false, c)
  else (true, { c with seen := (nonce, rememberedUntil toF64 c.skewSeconds now) :: c.seen })

/-- The nonce is not among those still remembered at `now`. -/
def NonceCache.Unused (c : NonceCache) (nonce : Str) (now : ℚ) : Prop :=
  ∀ entry ∈ c.seen, entry.1 = nonce → entry.2 < now

@[simp] theorem NonceCache.skewSeconds_checkAndStore (c : NonceCache) (toF64 : ℚ → ℚ) (nonce : Str)
    (now : ℚ) :
    (c.checkAndStore toF64 nonce now).2.skewSeconds = c.skewSeconds := by
  unfold checkAndStore
  dsimp only
  split <;> rfl

/-- **A nonce is accepted exactly when it is not remembered.** What has run out is dropped first,
so that only entries that still hold are in the way. -/
theorem NonceCache.checkAndStore_iff (c : NonceCache) (toF64 : ℚ → ℚ) (nonce : Str)
    (now : ℚ) :
    (c.checkAndStore toF64 nonce now).1 = true ↔ c.Unused nonce now := by
  unfold checkAndStore sweep Unused
  dsimp only
  by_cases hany : (c.seen.filter fun entry => now ≤ entry.2).any fun entry => entry.1 = nonce
  · rw [if_pos hany]
    simp only [Bool.false_eq_true, false_iff, not_forall]
    obtain ⟨entry, hentry, hnonce⟩ := List.any_eq_true.mp hany
    obtain ⟨hmem, hlater⟩ := List.mem_filter.mp hentry
    exact ⟨entry, hmem, by simpa using hnonce, by simpa using hlater⟩
  · rw [if_neg hany]
    simp only [true_iff]
    intro entry hmem hnonce
    by_contra hlater
    refine hany (List.any_eq_true.mpr ⟨entry, List.mem_filter.mpr ⟨hmem, ?_⟩, ?_⟩)
    · simpa using hlater
    · simpa using hnonce

/-- What is remembered after an accepted nonce: the nonce itself, until the skew
has passed, and nothing else that was not remembered before. -/
theorem NonceCache.checkAndStore_seen {c : NonceCache} {toF64 : ℚ → ℚ} {nonce : Str} {now : ℚ}
    (h : (c.checkAndStore toF64 nonce now).1 = true) :
    (c.checkAndStore toF64 nonce now).2.seen =
      (nonce, rememberedUntil toF64 c.skewSeconds now) ::
        c.seen.filter fun entry => now ≤ entry.2 := by
  unfold checkAndStore sweep at h ⊢
  dsimp only at h ⊢
  split at h
  next => cases h
  next hany => rw [if_neg hany]

/-- An entry stays until its time has passed. -/
theorem NonceCache.mem_checkAndStore {c : NonceCache} {toF64 : ℚ → ℚ} {entry : Str × ℚ}
    (nonce : Str) {now : ℚ}
    (hmem : entry ∈ c.seen) (hlater : now ≤ entry.2) :
    entry ∈ (c.checkAndStore toF64 nonce now).2.seen := by
  have hkept : entry ∈ c.seen.filter fun entry => now ≤ entry.2 :=
    List.mem_filter.mpr ⟨hmem, by simpa using hlater⟩
  unfold checkAndStore sweep
  dsimp only
  split
  next => exact hkept
  next => exact List.mem_cons_of_mem _ hkept

end BreezeAuth
