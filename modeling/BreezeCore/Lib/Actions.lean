import Mathlib.Data.List.Basic

/-!
# Programs that act on a state

An action reads and changes a state, and ends with a value or with an error; what it
changed before an error stays changed.  `Meets P x Q E` says of an action `x` that is
started where `P` holds: it ends with a value where `Q` holds, or with an error where `E`
holds.  There is one rule for each way in which actions are put together.
-/

namespace Actions

variable {S ε α β : Type}

/-- What depends on a state, changes it, and may stop with an error. -/
def Action (S ε α : Type) : Type := S → Except ε α × S

instance : Monad (Action S ε) where
  pure a := fun s => (.ok a, s)
  bind x f := fun s =>
    match x s with
    | (.ok a, s) => f a s
    | (.error e, s) => (.error e, s)

/-- Stop. -/
def raise (e : ε) : Action S ε α := fun s => (.error e, s)

/-- The state as it is. -/
def get : Action S ε S := fun s => (.ok s, s)

/-- Change the state. -/
def modify (f : S → S) : Action S ε Unit := fun s => (.ok (), f s)

/-- Preconditions and postconditions, one for each way an action can end. -/
def Meets (P : S → Prop) (x : Action S ε α) (Q : α → S → Prop) (E : S → Prop) : Prop :=
  ∀ s, P s → match x s with
    | (.ok a, s') => Q a s'
    | (.error _, s') => E s'

variable {P P' : S → Prop} {Q Q' : α → S → Prop} {E : S → Prop}

/-- What a triple promises of a result. -/
theorem Meets.ok {x : Action S ε α} (h : Meets P x Q E) {s s' : S} {a : α} (hs : P s)
    (hx : x s = (.ok a, s')) : Q a s' := by
  have hend := h s hs
  rw [hx] at hend
  exact hend

/-- What a triple promises of an error. -/
theorem Meets.error {x : Action S ε α} (h : Meets P x Q E) {s s' : S} {e : ε} (hs : P s)
    (hx : x s = (.error e, s')) : E s' := by
  have hend := h s hs
  rw [hx] at hend
  exact hend

/-! ## Running a sequence -/

/-- A result changes nothing. -/
@[simp] theorem pure_run (a : α) (s : S) : (pure a : Action S ε α) s = (.ok a, s) := rfl

/-- Stopping with an error leaves the state alone. -/
@[simp] theorem raise_run (e : ε) (s : S) : (raise e : Action S ε α) s = (.error e, s) := rfl

/-- Looking at the state leaves it alone. -/
@[simp] theorem get_run (s : S) : (get : Action S ε S) s = (.ok s, s) := rfl

/-- A change gives no result. -/
@[simp] theorem modify_run (f : S → S) (s : S) :
    (modify f : Action S ε Unit) s = (.ok (), f s) := rfl

/-- A sequence goes on from what its first part did. -/
theorem bind_ok {x : Action S ε α} {f : α → Action S ε β} {s s' : S} {a : α}
    (h : x s = (.ok a, s')) : (x >>= f) s = f a s' := by
  dsimp only [bind]
  rw [h]

/-- It ends where its first part ends with an error. -/
theorem bind_error {x : Action S ε α} {f : α → Action S ε β} {s s' : S} {e : ε}
    (h : x s = (.error e, s')) : (x >>= f) s = (.error e, s') := by
  dsimp only [bind]
  rw [h]

/-! ## The rules -/

/-- The rule of a result. -/
theorem Meets.pure {a : α} (h : ∀ s, P s → Q a s) : Meets P (pure a : Action S ε α) Q E :=
  fun s hs => h s hs

/-- The rule of stopping. -/
theorem Meets.raise {e : ε} (h : ∀ s, P s → E s) : Meets P (raise e : Action S ε α) Q E :=
  fun s hs => h s hs

/-- The rule of looking: the state is as it was, and is known. -/
theorem Meets.get : Meets P (get : Action S ε S) (fun a s => a = s ∧ P s) E :=
  fun _ hs => ⟨rfl, hs⟩

/-- The rule of a change. -/
theorem Meets.modify {f : S → S} {R : Unit → S → Prop} (h : ∀ s, P s → R () (f s)) :
    Meets P (modify f : Action S ε Unit) R E :=
  fun s hs => h s hs

/-- **Sequences.** -/
theorem Meets.bind {x : Action S ε α} {f : α → Action S ε β} {R : β → S → Prop}
    (hx : Meets P x Q E) (hf : ∀ a, Meets (Q a) (f a) R E) : Meets P (x >>= f) R E := by
  intro s hs
  cases hend : x s with
  | mk result s' =>
      cases result with
      | ok a =>
          rw [bind_ok hend]
          exact hf a s' (hx.ok hs hend)
      | error e =>
          rw [bind_error hend]
          exact hx.error hs hend

/-- **Consequence.** -/
theorem Meets.weaken {x : Action S ε α} (h : Meets P' x Q' E) (hP : ∀ s, P s → P' s)
    (hQ : ∀ a s, Q' a s → Q a s) : Meets P x Q E := by
  intro s hs
  have hend := h s (hP s hs)
  split at hend
  next => exact hQ _ _ hend
  next => exact hend

/-- Less may be promised of errors. -/
theorem Meets.weaken_error {E' : S → Prop} {x : Action S ε α} (h : Meets P x Q E')
    (hE : ∀ s, E' s → E s) : Meets P x Q E := by
  intro s hs
  have hend := h s hs
  split at hend
  next => exact hend
  next => exact hE _ hend

/-- **Loops.**  What each round makes of the elements still to come, the loop makes of them
all. -/
theorem Meets.forM {γ : Type} {Inv : List γ → S → Prop} {f : γ → Action S ε PUnit}
    (h : ∀ x rest, Meets (Inv (x :: rest)) (f x) (fun _ => Inv rest) E) :
    ∀ xs : List γ, Meets (Inv xs) (xs.forM f) (fun _ => Inv []) E := by
  intro xs
  induction xs with
  | nil => exact Meets.pure fun _ hs => hs
  | cons x rest ih => exact Meets.bind (h x rest) fun _ => ih

end Actions
