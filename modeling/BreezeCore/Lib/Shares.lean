import Mathlib.Data.List.Nodup
import Mathlib.Data.List.Perm.Basic
import Mathlib.Data.List.Range

/-!
# Work shared out

A list is shared out among numbered workers, each taking the elements of its own class.  The
shares together are the list (`shares_perm`), and what one worker takes out of its share is
what the shares together lose (`flatMap_set_perm`).
-/

namespace Shares

variable {α β : Type*}

/-- One number of a range is picked out once. -/
theorem flatMap_range_single {n k : ℕ} (h : k < n) (x : α) :
    ((List.range n).flatMap fun l => if k = l then [x] else []) = [x] := by
  induction n with
  | zero => exact absurd h (Nat.not_lt_zero k)
  | succ n ih =>
      rw [List.range_succ, List.flatMap_append, List.flatMap_singleton]
      by_cases hlast : k = n
      · subst hlast
        have hnone : ((List.range k).flatMap fun l => if k = l then [x] else []) = [] := by
          rw [List.flatMap_eq_nil_iff]
          intro l hl
          rw [if_neg (Ne.symm (List.mem_range.mp hl).ne)]
        rw [hnone, if_pos rfl, List.nil_append]
      · rw [ih (by omega), if_neg hlast, List.append_nil]

/-- **Nothing is lost and nothing is shared twice.** -/
theorem shares_perm {f : α → ℕ} {n : ℕ} {xs : List α} (h : ∀ x ∈ xs, f x < n) :
    ((List.range n).flatMap fun k => xs.filter fun x => f x = k).Perm xs := by
  induction xs with
  | nil => simp
  | cons x xs ih =>
      rw [List.forall_mem_cons] at h
      have hcons : ∀ k, ((x :: xs).filter fun x => f x = k) =
          (if f x = k then [x] else []) ++ xs.filter fun x => f x = k := by
        intro k
        by_cases hk : f x = k
        · rw [List.filter_cons_of_pos (by simpa using hk), if_pos hk, List.singleton_append]
        · rw [List.filter_cons_of_neg (by simpa using hk), if_neg hk, List.nil_append]
      simp only [hcons]
      refine (List.flatMap_append_perm _ _ _).symm.trans ?_
      rw [flatMap_range_single h.1, List.singleton_append]
      exact (ih h.2).cons x

theorem flatMap_set_perm {f : β → List α} {workers : List β} {i : ℕ} {x y : β} {taken : List α}
    (hx : workers[i]? = some x) (h : (f x).Perm (taken ++ f y)) :
    (workers.flatMap f).Perm (taken ++ (workers.set i y).flatMap f) := by
  induction workers generalizing i with
  | nil => cases hx
  | cons z workers ih =>
      cases i with
      | zero =>
          obtain rfl := Option.some.inj hx
          rw [List.set_cons_zero, List.flatMap_cons, List.flatMap_cons, ← List.append_assoc]
          exact h.append_right _
      | succ i =>
          rw [List.set_cons_succ, List.flatMap_cons, List.flatMap_cons]
          refine ((ih hx).append_left (f z)).trans ?_
          rw [← List.append_assoc, ← List.append_assoc]
          exact List.perm_append_comm.append_right _

end Shares
