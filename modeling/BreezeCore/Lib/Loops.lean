import Mathlib.Data.List.Nodup
import Mathlib.Data.List.ProdSigma

/-!
# Loops that update an array

A loop that updates each entry of an array at most once leaves in every entry what its own
round made of it (`getD_updates`).
-/

namespace Loops

variable {ι κ α : Type}

/-- An array that is filled entry by entry. -/
theorem getD_map_range {f : ℕ → α} {n i : ℕ} {d : α} (hi : i < n) :
    ((List.range n).map f).getD i d = f i := by
  simp [List.getD_eq_getElem?_getD, hi]

/-- Two loops, one in the other, are a loop over the pairs. -/
theorem foldl_nested (f : α → ι → κ → α) (xs : List ι) (ys : List κ) (a : α) :
    xs.foldl (fun a x => ys.foldl (fun a y => f a x y) a) a =
      (xs ×ˢ ys).foldl (fun a p => f a p.1 p.2) a := by
  induction xs generalizing a with
  | nil => rfl
  | cons x rest ih =>
      rw [List.product_cons, List.foldl_append, List.foldl_map, ← ih]
      rfl

/-- Each round updates the entry at its key. -/
def updates (key : ι → ℕ) (g : ι → α → α) (rounds : List ι) (xs : List α) : List α :=
  rounds.foldl (fun xs k => xs.modify (key k) (g k)) xs

theorem foldl_modify (key : ι → κ → ℕ) (g : ι → κ → α → α) (xs : List ι) (ys : List κ)
    (entries : List α) :
    xs.foldl (fun entries x => ys.foldl (fun entries y => entries.modify (key x y) (g x y)) entries)
        entries =
      updates (fun p => key p.1 p.2) (fun p => g p.1 p.2) (xs ×ˢ ys) entries :=
  foldl_nested (fun entries x y => entries.modify (key x y) (g x y)) xs ys entries

theorem set_eq_modify (entries : List α) (i : ℕ) (a : α) :
    entries.set i a = entries.modify i fun _ => a := by
  apply List.ext_getElem?
  intro j
  rw [List.getElem?_set, List.getElem?_modify]
  grind

theorem modify_append (xs ys : List α) (i : ℕ) (f : α → α) :
    (xs ++ ys).modify (xs.length + i) f = xs ++ ys.modify i f := by
  induction xs with
  | nil => simp
  | cons x rest ih =>
      rw [List.length_cons, Nat.add_right_comm, List.cons_append, List.modify_succ_cons, ih]
      rfl

theorem foldl_set (key : ι → κ → ℕ) (value : ι → κ → α) (xs : List ι) (ys : List κ)
    (entries : List α) :
    xs.foldl
        (fun entries x => ys.foldl (fun entries y => entries.set (key x y) (value x y)) entries)
        entries =
      updates (fun p => key p.1 p.2) (fun p _ => value p.1 p.2) (xs ×ˢ ys) entries := by
  simp only [set_eq_modify]
  exact foldl_modify key (fun x y _ => value x y) xs ys entries

variable {key : ι → ℕ} {g : ι → α → α} {rounds : List ι} {xs : List α}

@[simp] theorem updates_nil : updates key g [] xs = xs := rfl

@[simp] theorem updates_cons (k : ι) :
    updates key g (k :: rounds) xs = updates key g rounds (xs.modify (key k) (g k)) := rfl

@[simp] theorem updates_length : (updates key g rounds xs).length = xs.length := by
  induction rounds generalizing xs with
  | nil => rfl
  | cons k rest ih => rw [updates_cons, ih, List.length_modify]

/-- An entry that no round updates stays. -/
theorem getD_updates_other {i : ℕ} {d : α} (h : i ∉ rounds.map key) :
    (updates key g rounds xs).getD i d = xs.getD i d := by
  induction rounds generalizing xs with
  | nil => rfl
  | cons k rest ih =>
      have hk : key k ≠ i := fun heq => h (heq ▸ List.mem_cons_self)
      rw [updates_cons, ih fun hmem => h (List.mem_cons_of_mem _ hmem)]
      simp [List.getD_eq_getElem?_getD, hk]

/-- **An entry that one round updates.** -/
theorem getD_updates {k : ι} {d : α} (hnodup : (rounds.map key).Nodup) (hk : k ∈ rounds)
    (hlt : key k < xs.length) :
    (updates key g rounds xs).getD (key k) d = g k (xs.getD (key k) d) := by
  induction rounds generalizing xs with
  | nil => cases hk
  | cons first rest ih =>
      obtain ⟨hfresh, hnodup⟩ := List.nodup_cons.mp hnodup
      rw [updates_cons]
      rcases List.mem_cons.mp hk with rfl | hrest
      · rw [getD_updates_other hfresh]
        simp [List.getD_eq_getElem?_getD, hlt]
      · have hne : key first ≠ key k := fun heq => hfresh (heq ▸ List.mem_map_of_mem hrest)
        rw [ih hnodup hrest (by rwa [List.length_modify])]
        simp [List.getD_eq_getElem?_getD, hne]

end Loops
