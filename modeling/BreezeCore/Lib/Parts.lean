import Mathlib.Data.List.Basic

/-!
# States that are filled in part by part

A state is built by applying inputs one after the other, each of which has a key.
A part of the state that only inputs with one key touch (`Part`) depends on these
inputs alone, so where two lists of inputs have no key in common, a part of the state
they build together is the same as that part of one of the states they build apart;
and a merge that keeps what is not initial recovers it (`Part.foldl_merge`).
-/

namespace Parts

variable {S I K T : Type}

/-- A part of a state that only inputs with the key `owner` touch, and that a merge
takes from whichever side is not as it was at first. -/
structure Part (T : Type) (step : S → I → S) (key : I → K) (merge : S → S → S) (init : S) where
  view : S → T
  next : T → I → T
  owner : K
  view_step : ∀ s i, view (step s i) = next (view s) i
  next_other : ∀ t i, key i ≠ owner → next t i = t
  merge_left : ∀ s t, view s = view init → view (merge s t) = view t
  merge_right : ∀ s t, view t = view init → view (merge s t) = view s

variable {step : S → I → S} {key : I → K} {merge : S → S → S} {init : S}

namespace Part

variable (p : Part T step key merge init)

/-- A part is built from itself. -/
theorem view_foldl (is : List I) :
    ∀ s : S, p.view (is.foldl step s) = is.foldl p.next (p.view s) := by
  induction is with
  | nil => intro s; rfl
  | cons i is ih =>
      intro s
      rw [List.foldl_cons, List.foldl_cons, ih, p.view_step]

/-- Inputs with other keys leave a part alone. -/
theorem view_foldl_other {is : List I} (h : ∀ i ∈ is, key i ≠ p.owner) (s : S) :
    p.view (is.foldl step s) = p.view s := by
  induction is generalizing s with
  | nil => rfl
  | cons i is ih =>
      rw [List.foldl_cons, ih fun j hj => h j (List.mem_cons_of_mem _ hj), p.view_step]
      exact p.next_other _ _ (h i List.mem_cons_self)

/-- **Merging** what two lists of inputs without a common key build is building from
both lists. -/
theorem foldl_merge {is js : List I} (h : ∀ i ∈ is, ∀ j ∈ js, key i ≠ key j) :
    p.view (merge (is.foldl step init) (js.foldl step init)) =
      p.view ((is ++ js).foldl step init) := by
  rw [List.foldl_append]
  by_cases howner : ∃ i ∈ is, key i = p.owner
  · obtain ⟨i, hi, hkey⟩ := howner
    have hother : ∀ j ∈ js, key j ≠ p.owner := by
      intro j hj hj'
      exact h i hi j hj (hkey.trans hj'.symm)
    rw [p.merge_right _ _ (p.view_foldl_other hother init), p.view_foldl_other hother]
  · have hother : ∀ i ∈ is, key i ≠ p.owner := fun i hi hkey => howner ⟨i, hi, hkey⟩
    have hinit := p.view_foldl_other hother init
    rw [p.merge_left _ _ hinit, p.view_foldl, p.view_foldl, hinit]

end Part

end Parts
