import Mathlib.Data.List.Basic

/-!
# Lists in pieces

What splitting at fewer separators and then at more makes of a list, and when two ways of
answering piece by piece answer alike.
-/

namespace Groups

variable {α β : Type} {p q : α → Bool}

theorem modifyHead_append {xs ys : List β} {f : β → β} (h : xs ≠ []) :
    (xs ++ ys).modifyHead f = xs.modifyHead f ++ ys := by
  cases xs with
  | nil => exact absurd rfl h
  | cons x xs => rfl

/-- **Split at some separators and then at all of them**: the pieces are the same. -/
theorem splitOnP_refine (h : ∀ x, q x = true → p x = true) (xs : List α) :
    xs.splitOnP p = (xs.splitOnP q).flatMap fun piece => piece.splitOnP p := by
  induction xs with
  | nil => rfl
  | cons x xs ih =>
      rw [List.splitOnP_cons_eq_if_modifyHead, List.splitOnP_cons_eq_if_modifyHead]
      by_cases hq : q x = true
      · rw [if_pos (h x hq), if_pos hq, ih]
        rfl
      · rw [if_neg hq]
        obtain ⟨piece, pieces, heq⟩ := List.exists_cons_of_ne_nil (List.splitOnP_ne_nil q xs)
        rw [heq] at ih ⊢
        rw [List.flatMap_cons] at ih
        rw [List.modifyHead_cons, List.flatMap_cons, ih, List.splitOnP_cons_eq_if_modifyHead]
        by_cases hp : p x = true
        · rw [if_pos hp, if_pos hp]
          rfl
        · rw [if_neg hp, if_neg hp, modifyHead_append (List.splitOnP_ne_nil p piece)]

/-- What is found in a list is found in its pieces, where the separators give nothing. -/
theorem filterMap_splitOnP {f : α → Option β} (h : ∀ x, p x = true → f x = none) (xs : List α) :
    (xs.splitOnP p).flatMap (List.filterMap f) = xs.filterMap f := by
  induction xs with
  | nil => rfl
  | cons x xs ih =>
      rw [List.splitOnP_cons_eq_if_modifyHead, List.filterMap_cons]
      by_cases hp : p x = true
      · rw [if_pos hp, h x hp, ← ih]
        rfl
      · rw [if_neg hp]
        obtain ⟨piece, pieces, heq⟩ := List.exists_cons_of_ne_nil (List.splitOnP_ne_nil p xs)
        rw [heq, List.flatMap_cons] at ih
        rw [heq, List.modifyHead_cons, List.flatMap_cons, List.filterMap_cons, ← ih]
        cases f x with
        | none => rfl
        | some y => rfl

theorem dropLast_flatMap_splitOnP {pieces : List (List α)} {last : List α} :
    ((pieces ++ [last]).flatMap fun piece => piece.splitOnP p).dropLast =
      (pieces.flatMap fun piece => piece.splitOnP p) ++ (last.splitOnP p).dropLast := by
  rw [List.flatMap_append, List.flatMap_singleton,
    List.dropLast_append_of_ne_nil (List.splitOnP_ne_nil p last)]

/-- **Answers piece by piece.**  Where no piece is answered with more by the first than by the
second, the answers are the same exactly when they are so for each piece. -/
theorem flatMap_eq_append_iff {f g : α → List β} {rest : List β} {xs : List α}
    (h : ∀ x ∈ xs, (f x).length ≤ (g x).length) :
    xs.flatMap f = xs.flatMap g ++ rest ↔ (∀ x ∈ xs, f x = g x) ∧ rest = [] := by
  have hle {ys : List α} (hys : ∀ x ∈ ys, (f x).length ≤ (g x).length) :
      (ys.flatMap f).length ≤ (ys.flatMap g).length := by
    induction ys with
    | nil => exact Nat.le_refl _
    | cons y ys ih =>
        rw [List.flatMap_cons, List.flatMap_cons, List.length_append, List.length_append]
        exact Nat.add_le_add (hys y List.mem_cons_self)
          (ih fun x hx => hys x (List.mem_cons_of_mem _ hx))
  induction xs with
  | nil => simp [eq_comm]
  | cons x xs ih =>
      have hx := h x List.mem_cons_self
      have hxs : ∀ y ∈ xs, (f y).length ≤ (g y).length := fun y hy =>
        h y (List.mem_cons_of_mem _ hy)
      rw [List.flatMap_cons, List.flatMap_cons, List.append_assoc, List.forall_mem_cons, and_assoc]
      refine Iff.trans ?_ (and_congr_right fun _ => ih hxs)
      constructor
      · intro heq
        have hlen := congrArg List.length heq
        simp only [List.length_append] at hlen
        have hrest := hle hxs
        exact List.append_inj heq (by omega)
      · rintro ⟨hfirst, hrest⟩
        rw [hfirst, hrest]

end Groups
