import Mathlib.Data.List.Basic

/-!
# Calls that return, report an error or panic

A call in a language with checked slices ends in one of three ways: with a
value, with an error it reports to its caller, or with a panic.  `Exec` keeps
the three apart, so that "never panics" is a statement about a definition and
not a property of how it was written down.

The checked operations below (`index`, `slice`, `sub`, ...) panic exactly when
an index, a range or a difference is out of bounds.  `Returns` says that a call
does not panic, and the rules `returns_*` follow the shape of the program:
one for each checked operation and one for sequencing.
-/

namespace Fallible

/-- How a call ends without a value: it reports an error, or it panics. -/
inductive Fault (ε : Type) where
  | error (e : ε)
  | panic
  deriving DecidableEq, Repr

/-- A call that returns an `α`, reports an `ε`, or panics. -/
abbrev Exec (ε α : Type) := Except (Fault ε) α

variable {ε ε' α β : Type}

/-- Report an error. -/
def fail (e : ε) : Exec ε α := .error (.error e)

/-- Panic. -/
def crash : Exec ε α := .error .panic

/-- Results can be compared, so that a run on a fixed input can be decided. -/
instance decidableEqExcept {δ : Type} [DecidableEq δ] [DecidableEq α] : DecidableEq (Except δ α)
  | .ok a, .ok b => decidable_of_iff (a = b) (by simp)
  | .error a, .error b => decidable_of_iff (a = b) (by simp)
  | .ok _, .error _ => isFalse nofun
  | .error _, .ok _ => isFalse nofun

/-- The call does not panic. -/
def Returns : Exec ε α → Prop
  | .error .panic => False
  | _ => True

instance : DecidablePred (Returns (ε := ε) (α := α)) := fun x =>
  match x with
  | .ok _ => isTrue trivial
  | .error (.error _) => isTrue trivial
  | .error .panic => isFalse id

/-- A result is one. -/
@[simp] theorem returns_ok (a : α) : Returns (.ok a : Exec ε α) := trivial

/-- However it is written. -/
@[simp] theorem returns_pure (a : α) : Returns (pure a : Exec ε α) := trivial

/-- An error is no panic. -/
@[simp] theorem returns_fail (e : ε) : Returns (fail e : Exec ε α) := trivial

/-- A panic is. -/
@[simp] theorem not_returns_crash : ¬ Returns (crash : Exec ε α) := id

/-- Sequencing: the second call only has to return on the values the first
one can produce. -/
theorem returns_bind {x : Exec ε α} {f : α → Exec ε β} (hx : Returns x)
    (hf : ∀ a, x = .ok a → Returns (f a)) : Returns (x >>= f) := by
  match x, hx with
  | .ok a, _ => exact hf a rfl
  | .error (.error _), _ => trivial

/-- After a result the next step is taken. -/
@[simp] theorem ok_bind (a : α) (f : α → Exec ε β) : (.ok a : Exec ε α) >>= f = f a := rfl

/-- After an error none is. -/
@[simp] theorem fail_bind (e : ε) (f : α → Exec ε β) :
    (fail e : Exec ε α) >>= f = fail e := rfl

/-- Nothing is done after a panic. -/
@[simp] theorem crash_bind (f : α → Exec ε β) : (crash : Exec ε α) >>= f = crash := rfl

/-- A sequence that produces a value produced one at each of its steps. -/
theorem bind_eq_ok {x : Exec ε α} {f : α → Exec ε β} {b : β} (h : x >>= f = .ok b) :
    ∃ a, x = .ok a ∧ f a = .ok b := by
  match x, h with
  | .ok a, h => exact ⟨a, rfl, h⟩

/-- An error of one layer reported as an error of the next. -/
def mapFail (f : ε → ε') : Exec ε α → Exec ε' α
  | .ok a => .ok a
  | .error (.error e) => fail (f e)
  | .error .panic => crash

/-- A result has no error to rename. -/
@[simp] theorem mapFail_ok (f : ε → ε') (a : α) : mapFail f (.ok a) = .ok a := rfl

/-- Renaming errors makes and catches no panic. -/
@[simp] theorem returns_mapFail (f : ε → ε') (x : Exec ε α) :
    Returns (mapFail f x) ↔ Returns x := by
  match x with
  | .ok _ => exact Iff.rfl
  | .error (.error _) => exact Iff.rfl
  | .error .panic => exact Iff.rfl

/-- A relabelled error leaves the values alone. -/
theorem mapFail_eq_ok {f : ε → ε'} {x : Exec ε α} {a : α} (h : mapFail f x = .ok a) :
    x = .ok a := by
  match x, h with
  | .ok _, h => exact congrArg _ (Except.ok.inj h)

/-- A loop that keeps something of the items that pass a test has kept it of those. -/
theorem foldlM_filter_map {f : List β → α → Exec ε (List β)} {test : α → Bool} {g : α → β}
    {items : List α}
    (h : ∀ kept, ∀ item ∈ items, f kept item = .ok (if test item then kept ++ [g item] else kept))
    (kept : List β) : items.foldlM f kept = .ok (kept ++ (items.filter test).map g) := by
  induction items generalizing kept with
  | nil => rw [List.filter_nil, List.map_nil, List.append_nil]; rfl
  | cons item rest ih =>
      have hrest := fun kept item hitem => h kept item (List.mem_cons_of_mem _ hitem)
      rw [List.foldlM_cons, h kept item List.mem_cons_self, ok_bind, ih hrest]
      cases htest : test item with
      | true =>
          rw [List.filter_cons_of_pos htest, List.map_cons, if_pos rfl, List.append_assoc]
          rfl
      | false =>
          rw [List.filter_cons_of_neg (by simp [htest])]
          rfl

/-! ## Checked operations -/

/-- Take the value of an optional one, panicking when there is none. -/
def expect : Option α → Exec ε α
  | some a => .ok a
  | none => crash

/-- `xs[i]`. -/
def index (xs : List α) (i : Nat) : Exec ε α := expect xs[i]?

/-- `xs[a..b]`. -/
def slice (xs : List α) (a b : Nat) : Exec ε (List α) :=
  if a ≤ b ∧ b ≤ xs.length then .ok ((xs.take b).drop a) else crash

/-- `xs[..b]`. -/
def sliceTo (xs : List α) (b : Nat) : Exec ε (List α) := slice xs 0 b

/-- `xs[a..]`. -/
def sliceFrom (xs : List α) (a : Nat) : Exec ε (List α) := slice xs a xs.length

/-- `xs.split_at(a)`. -/
def splitAt (xs : List α) (a : Nat) : Exec ε (List α × List α) := do
  let front ← sliceTo xs a
  let back ← sliceFrom xs a
  pure (front, back)

/-- `a - b` on unsigned numbers. -/
def sub (a b : Nat) : Exec ε Nat := if b ≤ a then .ok (a - b) else crash

/-- `xs.get(a..b)`: no value, rather than a panic, when the range is bad. -/
def getRange? (xs : List α) (a b : Nat) : Option (List α) :=
  if a ≤ b ∧ b ≤ xs.length then some ((xs.take b).drop a) else none

/-- What is there can be expected. -/
@[simp] theorem expect_some (a : α) : (expect (some a) : Exec ε α) = .ok a := rfl

/-- An index within the list is read. -/
theorem index_eq {xs : List α} {i : Nat} (h : i < xs.length) :
    (index xs i : Exec ε α) = .ok xs[i] := by
  simp [index, List.getElem?_eq_getElem h]

/-- An index returns where it is in the list, and only there. -/
@[simp] theorem returns_index {xs : List α} {i : Nat} :
    Returns (index xs i : Exec ε α) ↔ i < xs.length := by
  by_cases h : i < xs.length
  · simp [index_eq h, h]
  · have hnone : xs[i]? = none := List.getElem?_eq_none (by omega)
    simp only [index, hnone, h, iff_false]
    exact not_returns_crash

/-- A slice within the list is taken. -/
theorem slice_eq {xs : List α} {a b : Nat} (hab : a ≤ b) (hb : b ≤ xs.length) :
    (slice xs a b : Exec ε (List α)) = .ok ((xs.take b).drop a) := by
  simp [slice, hab, hb]

/-- A slice returns where its bounds are in order and in the list, and only there. -/
@[simp] theorem returns_slice {xs : List α} {a b : Nat} :
    Returns (slice xs a b : Exec ε (List α)) ↔ a ≤ b ∧ b ≤ xs.length := by
  unfold slice
  split <;> simp_all

/-- A slice from the front, up to a bound that is in the list. -/
theorem sliceTo_eq {xs : List α} {b : Nat} (hb : b ≤ xs.length) :
    (sliceTo xs b : Exec ε (List α)) = .ok (xs.take b) := by
  simp [sliceTo, slice_eq (Nat.zero_le b) hb]

/-- A slice from a bound that is in the list to the end. -/
theorem sliceFrom_eq {xs : List α} {a : Nat} (ha : a ≤ xs.length) :
    (sliceFrom xs a : Exec ε (List α)) = .ok (xs.drop a) := by
  simp [sliceFrom, slice_eq ha (Nat.le_refl _)]

/-- Both halves at a place within the list. -/
theorem splitAt_eq {xs : List α} {a : Nat} (ha : a ≤ xs.length) :
    (splitAt xs a : Exec ε (List α × List α)) = .ok (xs.take a, xs.drop a) := by
  simp [splitAt, sliceTo_eq ha, sliceFrom_eq ha, pure, Except.pure]

/-- A subtraction that stays at or above zero. -/
theorem sub_eq {a b : Nat} (h : b ≤ a) : (sub a b : Exec ε Nat) = .ok (a - b) := by
  simp [sub, h]

end Fallible
