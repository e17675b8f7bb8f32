import Mathlib.Data.Int.Order.Basic
import Mathlib.Data.List.GetD
import Mathlib.Data.List.NodupEquivFin
import Mathlib.Tactic.Common

/-!
# Around a circle

Positions on a circle of length `N` are the integers from `0` up to `N`.  `ahead` is the way
from one to another going forward, `past` the same with a whole turn in place of no way at
all.

Positions in order, one after the other and from the last back to the first, cut the circle
into arcs.  `Covers` says that an arc starts at or before `x` and ends after it; some arc always
does (`Dial.exists_covers`), and one with two ends starts at the latest position and ends at the
next (`Covers.latest`, `Covers.next`).  An arc from a position to itself goes all the way round
and covers everything, and `first_covers_iff` says when the first arc to cover `x` is one of
these.
-/

namespace Circle

/-- The way forward from `a` to `x`. -/
def ahead (N a x : ℤ) : ℤ := if a ≤ x then x - a else x - a + N

/-- The way forward from `a` to the next time `x` comes. -/
def past (N a x : ℤ) : ℤ := if a < x then x - a else x - a + N

variable {N a x : ℤ}

theorem emod_eq_ahead (ha : 0 ≤ a ∧ a < N) (hx : 0 ≤ x ∧ x < N) : (x - a) % N = ahead N a x := by
  unfold ahead
  split
  next => exact Int.emod_eq_of_lt (by omega) (by omega)
  next =>
    rw [← Int.add_emod_right]
    exact Int.emod_eq_of_lt (by omega) (by omega)

theorem emod_eq_past (ha : 0 ≤ a ∧ a < N) (hx : 0 ≤ x ∧ x < N) :
    (if (x - a) % N = 0 then N else (x - a) % N) = past N a x := by
  rw [emod_eq_ahead ha hx]
  unfold ahead past
  split <;> split <;> split <;> omega

theorem ahead_nonneg (ha : 0 ≤ a ∧ a < N) (hx : 0 ≤ x ∧ x < N) : 0 ≤ ahead N a x := by
  unfold ahead
  split <;> omega

theorem past_pos (ha : 0 ≤ a ∧ a < N) (hx : 0 ≤ x ∧ x < N) : 0 < past N a x := by
  unfold past
  split <;> omega

theorem ahead_eq_zero (ha : 0 ≤ a ∧ a < N) (hx : 0 ≤ x ∧ x < N) : ahead N a x = 0 ↔ a = x := by
  unfold ahead
  split <;> omega

/-- Only the position itself is as far back from `x` as it is ahead. -/
theorem eq_of_ahead_of_past {b : ℤ} (ha : 0 ≤ a ∧ a < N) (hb : 0 ≤ b ∧ b < N)
    (hlatest : ahead N a x ≤ ahead N b x) (hnext : past N x a ≤ past N x b) : b = a := by
  unfold ahead at hlatest
  unfold past at hnext
  split at hlatest <;> split at hlatest <;> split at hnext <;> split at hnext <;> omega

/-- Positions in order. -/
structure Dial (N : ℤ) (t : ℕ → ℤ) (n : ℕ) : Prop where
  pos : 0 < n
  mono : ∀ i j, i ≤ j → j < n → t i ≤ t j
  range : ∀ i, i < n → 0 ≤ t i ∧ t i < N

/-- The position after the `i`-th. -/
def next (n i : ℕ) : ℕ := if i + 1 < n then i + 1 else 0

theorem next_eq_mod {n i : ℕ} (h : i < n) : (i + 1) % n = next n i := by
  unfold next
  split
  next hlt => exact Nat.mod_eq_of_lt hlt
  next hge =>
    have hn : i + 1 = n := by omega
    rw [hn, Nat.mod_self]

/-- The arc from the `i`-th position to the next one covers `x`. -/
def Covers (N : ℤ) (t : ℕ → ℤ) (n : ℕ) (x : ℤ) (i : ℕ) : Prop :=
  ahead N (t i) x < past N (t i) (t (next n i))

instance (N : ℤ) (t : ℕ → ℤ) (n : ℕ) (x : ℤ) (i : ℕ) : Decidable (Covers N t n x i) :=
  inferInstanceAs (Decidable (_ < _))

/-- A position that comes twice. -/
def Repeats (t : ℕ → ℤ) (n : ℕ) (d : ℤ) : Prop := ∃ i, i + 1 < n ∧ t i = d ∧ t (i + 1) = d

variable {t : ℕ → ℤ} {n i : ℕ}

/-- Between the first position and a later one, `x` is between two that follow each other. -/
theorem exists_step {k : ℕ} (hfirst : t 0 ≤ x) (hlast : x < t k) :
    ∃ j < k, t j ≤ x ∧ x < t (j + 1) := by
  induction k with
  | zero => omega
  | succ k ih =>
      by_cases hk : x < t k
      · obtain ⟨j, hj, hstep⟩ := ih hk
        exact ⟨j, by omega, hstep⟩
      · exact ⟨k, by omega, not_lt.mp hk, hlast⟩

theorem covers_step (hi : i + 1 < n) (hlow : t i ≤ x) (hhigh : x < t (i + 1)) :
    Covers N t n x i := by
  unfold Covers ahead past next
  rw [if_pos hi, if_pos hlow, if_pos (by omega)]
  omega

/-- **Some arc covers** every position of the circle. -/
theorem Dial.exists_covers (h : Dial N t n) (hx : 0 ≤ x ∧ x < N) : ∃ i < n, Covers N t n x i := by
  have hpos := h.pos
  have hwrap : next n (n - 1) = 0 := if_neg (by omega)
  have hends := h.mono 0 (n - 1) (by omega) (by omega)
  obtain ⟨hzero, -⟩ := h.range 0 hpos
  by_cases hinside : t 0 ≤ x ∧ x < t (n - 1)
  · obtain ⟨j, hj, hlow, hhigh⟩ := exists_step hinside.1 hinside.2
    exact ⟨j, by omega, covers_step (by omega) hlow hhigh⟩
  · refine ⟨n - 1, by omega, ?_⟩
    unfold Covers ahead past
    rw [hwrap]
    split <;> split <;> omega

/-- An arc all the way round covers everything. -/
theorem covers_repeat (h : Dial N t n) (hx : 0 ≤ x ∧ x < N) (hi : i < n)
    (heq : t i = t (next n i)) : Covers N t n x i := by
  have hrange := h.range i hi
  unfold Covers ahead past
  rw [← heq]
  split <;> split <;> omega

section Arc

variable (h : Dial N t n) (hx : 0 ≤ x ∧ x < N) (hi : i < n) (hcovers : Covers N t n x i)

include h hx hi hcovers

/-- **The arc is the way to `x`** and the way on. -/
theorem Covers.past_eq :
    past N (t i) (t (next n i)) = ahead N (t i) x + past N x (t (next n i)) := by
  have hnext : next n i < n := by
    unfold next
    split <;> omega
  have hrange := h.range i hi
  have hrange' := h.range _ hnext
  unfold Covers ahead past at hcovers
  unfold ahead past
  split at hcovers <;> split at hcovers <;> split <;> omega

/-- An arc with two ends contains no position but its own. The positions are in order, and the
last arc goes through zero, so that the two kinds of arc are taken apart. -/
private theorem Covers.clear (hne : t i ≠ t (next n i)) {j : ℕ} (hj : j < n) :
    ahead N (t i) x ≤ ahead N (t j) x ∧ past N x (t (next n i)) ≤ past N x (t j) := by
  have hzero := h.range 0 h.pos
  have hrange := h.range i hi
  have hrangej := h.range j hj
  have hfirst := h.mono 0 j (by omega) hj
  unfold Covers at hcovers
  by_cases hlast : i + 1 < n
  · have hnext : next n i = i + 1 := if_pos hlast
    have hrange' := h.range (i + 1) hlast
    have hstep := h.mono i (i + 1) (by omega) hlast
    rw [hnext] at hne hcovers ⊢
    have hinside : t i ≤ x ∧ x < t (i + 1) := by
      unfold ahead past at hcovers
      split at hcovers <;> split at hcovers <;> omega
    unfold ahead past
    rcases Nat.lt_or_ge i j with hafter | hbefore
    · have hle := h.mono (i + 1) j hafter hj
      split <;> split <;> split <;> split <;> omega
    · have hle := h.mono j i hbefore hi
      split <;> split <;> split <;> split <;> omega
  · have hnext : next n i = 0 := if_neg hlast
    have hle := h.mono j i (by omega) hi
    rw [hnext] at hne hcovers ⊢
    unfold ahead past at hcovers ⊢
    split at hcovers <;> split at hcovers <;> split <;> split <;> split <;> split <;> omega

/-- **It starts at the latest position** at or before `x`. -/
theorem Covers.latest (hne : t i ≠ t (next n i)) {j : ℕ} (hj : j < n) :
    ahead N (t i) x ≤ ahead N (t j) x := (hcovers.clear h hx hi hne hj).1

/-- **It ends at the first position** after it. -/
theorem Covers.next (hne : t i ≠ t (next n i)) {j : ℕ} (hj : j < n) :
    past N x (t (next n i)) ≤ past N x (t j) := (hcovers.clear h hx hi hne hj).2

/-- **When the first arc that covers `x` goes all the way round.**  Not all positions being
the same, it does so away from its own position exactly when one that comes twice is passed
before `x` is reached, or `x` comes before all of them and there is one. -/
theorem first_covers_iff (hfirst : ∀ j < i, ¬ Covers N t n x j) (hmany : ∃ j < n, t j ≠ t 0) :
    (t i = t (next n i) ∧ t i ≠ x) ↔ ∃ d, Repeats t n d ∧ (d < x ∨ x < t 0) := by
  constructor
  · rintro ⟨heq, hne⟩
    by_cases hlast : i + 1 < n
    · rw [show next n i = i + 1 from if_pos hlast] at heq
      refine ⟨t i, ⟨i, hlast, rfl, heq.symm⟩, ?_⟩
      by_contra hneither
      obtain ⟨j, hj, hlow, hhigh⟩ := exists_step (k := i) (x := x) (t := t) (by omega) (by omega)
      exact hfirst j hj (covers_step (by omega) hlow hhigh)
    · rw [show next n i = 0 from if_neg hlast] at heq
      obtain ⟨j, hj, hother⟩ := hmany
      have hlow := h.mono 0 j (by omega) hj
      have hhigh := h.mono j i (by omega) hi
      omega
  · rintro ⟨d, ⟨k, hk, hd, hd'⟩, hwhere⟩
    have hturn : Covers N t n x k := by
      apply covers_repeat h hx (by omega)
      rw [show next n k = k + 1 from if_pos hk, hd, hd']
    have hik : i ≤ k := by
      by_contra hlt
      exact hfirst k (by omega) hturn
    have hle := h.mono i k hik (by omega)
    have hzero := h.mono 0 i (by omega) hi
    refine ⟨?_, by omega⟩
    by_contra hne
    have hnext : next n i = i + 1 := if_pos (by omega)
    have hrange := h.range i hi
    have hrange' := h.range (i + 1) (by omega)
    have hstep := h.mono i (i + 1) (by omega) (by omega)
    rw [hnext] at hne
    -- an arc with two ends lies before the position that comes twice
    have hlt : i + 1 ≤ k := by
      rcases Nat.lt_or_ge i k with hlt | hge
      · exact hlt
      · obtain rfl : i = k := by omega
        exact absurd (hd.trans hd'.symm) hne
    have hle' := h.mono (i + 1) k hlt (by omega)
    unfold Covers ahead past at hcovers
    rw [hnext] at hcovers
    split at hcovers <;> split at hcovers <;> omega

end Arc

/-! ## Positions in a list -/

/-- The positions of a list, one after the other. -/
def nth (l : List ℤ) (i : ℕ) : ℤ := l.getD i 0

variable {l : List ℤ}

theorem nth_eq {i : ℕ} (h : i < l.length) : nth l i = l[i] := List.getD_eq_getElem _ _ h

/-- A sorted list of positions is a dial. -/
theorem dial_of_sorted (hne : l ≠ []) (hsorted : l.Pairwise (· ≤ ·))
    (hrange : ∀ a ∈ l, 0 ≤ a ∧ a < N) : Dial N (nth l) l.length := by
  refine ⟨List.length_pos_iff.mpr hne, ?_, ?_⟩
  · intro i j hij hj
    rw [nth_eq (by omega), nth_eq hj]
    rcases Nat.lt_or_eq_of_le hij with hlt | rfl
    · exact List.pairwise_iff_getElem.mp hsorted i j (by omega) hj hlt
    · exact le_rfl
  · intro i hi
    rw [nth_eq hi]
    exact hrange _ (List.getElem_mem hi)

/-- A position comes twice when it is listed twice. In a sorted list two equal entries have only
equal ones in between, so that two neighbours are equal as well. -/
theorem repeats_iff_two_le_count (hsorted : l.Pairwise (· ≤ ·)) {d : ℤ} :
    Repeats (nth l) l.length d ↔ 2 ≤ l.count d := by
  rw [← List.duplicate_iff_two_le_count, List.duplicate_iff_exists_distinct_get]
  constructor
  · rintro ⟨i, hi, hd, hd'⟩
    rw [nth_eq (by omega)] at hd
    rw [nth_eq hi] at hd'
    exact ⟨⟨i, by omega⟩, ⟨i + 1, hi⟩, Nat.lt_succ_self i, hd.symm, hd'.symm⟩
  · rintro ⟨⟨i, hi⟩, ⟨j, hj⟩, hlt, hd, hd'⟩
    have hij : i < j := hlt
    simp only [List.get_eq_getElem] at hd hd'
    have hnext : i + 1 < l.length := by omega
    -- what stands between two that are the same is the same
    have hlow : l[i] ≤ l[i + 1] :=
      List.pairwise_iff_getElem.mp hsorted i (i + 1) hi hnext (Nat.lt_succ_self i)
    have hhigh : l[i + 1] ≤ l[j] := by
      rcases Nat.lt_or_eq_of_le hij with hafter | hsame
      · exact List.pairwise_iff_getElem.mp hsorted (i + 1) j hnext hj hafter
      · exact le_of_eq (by congr)
    refine ⟨i, hnext, ?_, ?_⟩
    · rw [nth_eq hi]
      exact hd.symm
    · rw [nth_eq hnext]
      omega

end Circle
