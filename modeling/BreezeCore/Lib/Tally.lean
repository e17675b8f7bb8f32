import Mathlib.Algebra.BigOperators.Group.List.Basic
import Mathlib.Algebra.GroupWithZero.Nat
import Mathlib.Logic.Function.Basic

/-!
# Tallies

Items have keys, keys have values, and a value weighs something.  The tally of a
list is the weight of all of it.  What it does when the value of one key changes
is all a proof about counters needs: `tally_update` for a key that occurs once,
`tally_update_of_notMem` for one that does not occur.
-/

namespace Tally

variable {α K V : Type} (key : α → K) (weight : V → Nat)

/-- The weight of all items. -/
def tally (value : K → V) (items : List α) : Nat :=
  (items.map fun a => weight (value (key a))).sum

variable {key weight} {value : K → V} {items : List α}

/-- Nothing is tallied exactly when nothing weighs anything. -/
theorem tally_eq_zero :
    tally key weight value items = 0 ↔ ∀ a ∈ items, weight (value (key a)) = 0 := by
  induction items with
  | nil => exact iff_of_true rfl nofun
  | cons a items ih =>
      have hcons : tally key weight value (a :: items) =
          weight (value (key a)) + tally key weight value items := List.sum_cons
      rw [hcons, Nat.add_eq_zero_iff, ih, List.forall_mem_cons]

/-- Items that weigh one each are counted. -/
theorem tally_eq_length (h : ∀ a ∈ items, weight (value (key a)) = 1) :
    tally key weight value items = items.length := by
  induction items with
  | nil => rfl
  | cons a items ih =>
      obtain ⟨ha, hrest⟩ := List.forall_mem_cons.mp h
      have hcons : tally key weight value (a :: items) =
          weight (value (key a)) + tally key weight value items := List.sum_cons
      rw [hcons, ha, ih hrest, List.length_cons, Nat.add_comm]

variable [DecidableEq K]

/-- A change that keeps the weight keeps the tally. -/
theorem tally_update_of_eq {k : K} {v : V} (h : weight v = weight (value k)) :
    tally key weight (Function.update value k v) items = tally key weight value items := by
  unfold tally
  congr 1
  apply List.map_congr_left
  intro a _
  by_cases ha : key a = k
  · rw [ha, Function.update_self, h]
  · rw [Function.update_of_ne ha]

/-- A key that no item has does not count. -/
theorem tally_update_of_notMem {k : K} (v : V) (h : k ∉ items.map key) :
    tally key weight (Function.update value k v) items = tally key weight value items := by
  unfold tally
  congr 1
  apply List.map_congr_left
  intro a ha
  have hne : key a ≠ k := by
    rintro rfl
    exact h (List.mem_map_of_mem ha)
  rw [Function.update_of_ne hne]

variable (weight value) in
/-- A key that one item has counts once. -/
theorem tally_update {k : K} (v : V) (hnodup : (items.map key).Nodup) (h : k ∈ items.map key) :
    tally key weight (Function.update value k v) items + weight (value k) =
      tally key weight value items + weight v := by
  induction items with
  | nil => cases h
  | cons a items ih =>
      rw [List.map_cons, List.nodup_cons] at hnodup
      have hcons : ∀ value : K → V, tally key weight value (a :: items) =
          weight (value (key a)) + tally key weight value items := fun _ => List.sum_cons
      rw [hcons, hcons]
      rcases List.mem_cons.mp h with rfl | hrest
      · rw [tally_update_of_notMem v hnodup.1, Function.update_self]
        omega
      · have hne : key a ≠ k := by
          rintro rfl
          exact hnodup.1 hrest
        have hih := ih hnodup.2 hrest
        rw [Function.update_of_ne hne]
        omega

end Tally
