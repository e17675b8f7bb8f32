import Mathlib

/-!
# The first of each key

Values come one after the other, and of those with the same key the first is kept: in a map,
which is a list in the order of the keys, or in a list in the order they came.

* `mem_collect`, `mem_firsts` — what is kept is what came first of its key;
* `first_iff_mem` — which is what came, where a key has one value only;
* `ascending_collect`, `firsts_keys` — and nothing is kept twice.
-/

namespace Keyed

variable {κ α : Type}

section

variable [DecidableEq κ] (key : α → κ)

/-- The value came, and before any other of its key. -/
def First (xs : List α) (x : α) : Prop := xs.find? (fun y => key y = key x) = some x

/-- Kept at the end, unless there is one of its key. -/
def pushNew (x : α) (ys : List α) : List α :=
  if ys.any fun y => key y = key x then ys else ys ++ [x]

/-- Of each key the first, in the order in which they come. -/
def firsts (xs : List α) : List α := xs.foldl (fun ys x => pushNew key x ys) []

end

section

variable [LinearOrder κ] (key : α → κ)

/-- `entry(key).or_insert(x)`. -/
def orInsert (x : α) : List α → List α
  | [] => [x]
  | y :: ys =>
      if key x < key y then x :: y :: ys
      else if key x = key y then y :: ys
      else y :: orInsert x ys

/-- Of each key the first, in the order of the keys. -/
def collect (xs : List α) : List α := xs.foldl (fun ys x => orInsert key x ys) []

/-- In the order of the keys, each once. -/
def Ascending (xs : List α) : Prop := xs.Pairwise fun x y => key x < key y

end

/-! ## Coming first -/

section

variable [DecidableEq κ] {key : α → κ} {xs ys : List α} {x y : α}

/-- The first of its key is one of the list. -/
theorem First.mem (h : First key xs x) : x ∈ xs := List.mem_of_find?_eq_some h

/-- One value comes first of a key. -/
theorem exists_first (key : α → κ) (hx : x ∈ xs) : ∃ y, First key xs y ∧ key y = key x := by
  have hsome : (xs.find? fun y => key y = key x).isSome = true :=
    List.find?_isSome.mpr ⟨x, hx, decide_eq_true rfl⟩
  obtain ⟨y, hy⟩ := Option.isSome_iff_exists.mp hsome
  have hkey : key y = key x := by simpa using List.find?_some hy
  refine ⟨y, ?_, hkey⟩
  unfold First
  rw [hkey]
  exact hy

/-- Where it stands. -/
theorem first_iff : First key xs x ↔
    ∃ before after, xs = before ++ x :: after ∧ ∀ y ∈ before, key y ≠ key x := by
  unfold First
  rw [List.find?_eq_some_iff_append]
  simp only [decide_true, true_and, Bool.not_eq_true', decide_eq_false_iff_not]

/-- Where it stands, when some of what comes is passed over. -/
theorem first_filterMap {β : Type} {f : β → Option α} {bs : List β} :
    First key (bs.filterMap f) x ↔ ∃ before b after, bs = before ++ b :: after ∧ f b = some x ∧
      ∀ b' ∈ before, ∀ y, f b' = some y → key y ≠ key x := by
  rw [first_iff]
  constructor
  · rintro ⟨before, after, heq, hbefore⟩
    obtain ⟨bs₁, bs₂, rfl, hbs₁, hbs₂⟩ := List.filterMap_eq_append_iff.mp heq
    obtain ⟨skipped, b, rest, rfl, hskipped, hb, -⟩ := List.filterMap_eq_cons_iff.mp hbs₂
    refine ⟨bs₁ ++ skipped, b, rest, by simp, hb, fun b' hb' y hy => ?_⟩
    rcases List.mem_append.mp hb' with hb' | hb'
    · exact hbefore y (hbs₁ ▸ List.mem_filterMap.mpr ⟨b', hb', hy⟩)
    · rw [hskipped b' hb'] at hy
      cases hy
  · rintro ⟨before, b, after, rfl, hb, hbefore⟩
    refine ⟨before.filterMap f, after.filterMap f, ?_, fun y hy => ?_⟩
    · rw [List.filterMap_append, List.filterMap_cons_some hb]
    · obtain ⟨b', hb', hy⟩ := List.mem_filterMap.mp hy
      exact hbefore b' hb' y hy

/-- One more at the end is the first of its key if there was none. Whatever was the first of a key
stays it. -/
theorem first_concat : First key (xs ++ [y]) x ↔
    First key xs x ∨ (x = y ∧ ∀ z ∈ xs, key z ≠ key y) := by
  unfold First
  rw [List.find?_append]
  cases hfind : xs.find? fun z => key z = key x with
  | some z =>
      have hkey : key z = key x := by simpa using List.find?_some hfind
      rw [Option.some_or]
      refine ⟨.inl, fun h => h.resolve_right ?_⟩
      rintro ⟨rfl, hnew⟩
      exact hnew z (List.mem_of_find?_eq_some hfind) hkey
  | none =>
      have hnew : ∀ z ∈ xs, key z ≠ key x := fun z hz heq =>
        List.find?_eq_none.mp hfind z hz (decide_eq_true heq)
      rw [Option.none_or, List.find?_singleton]
      constructor
      · intro h
        split at h
        next =>
          obtain rfl := Option.some.inj h
          exact .inr ⟨rfl, hnew⟩
        next => cases h
      · rintro (h | ⟨rfl, -⟩)
        · cases h
        · exact if_pos (decide_eq_true rfl)

/-- Where a key has one value only, coming is coming first. -/
theorem first_iff_mem (h : ∀ y ∈ xs, key y = key x → y = x) : First key xs x ↔ x ∈ xs := by
  refine ⟨First.mem, fun hx => ?_⟩
  obtain ⟨y, hy, hkey⟩ := exists_first key hx
  exact h y hy.mem hkey ▸ hy

/-! ## In the order they came -/

/-- One more is put behind the others, if its key is new. -/
theorem firsts_concat : firsts key (xs ++ [x]) = pushNew key x (firsts key xs) := by
  unfold firsts
  rw [List.foldl_append]
  rfl

/-- Where some of what comes is passed over. -/
theorem firsts_filterMap_concat {β : Type} (f : β → Option α) (bs : List β) (b : β) :
    firsts key ((bs ++ [b]).filterMap f) =
      (f b).elim (firsts key (bs.filterMap f)) (pushNew key · (firsts key (bs.filterMap f))) := by
  rw [List.filterMap_append]
  cases hb : f b with
  | none => rw [List.filterMap_cons_none hb, List.filterMap_nil, List.append_nil, Option.elim_none]
  | some x =>
      rw [List.filterMap_cons_some hb, List.filterMap_nil, firsts_concat, Option.elim_some]

/-- What is there afterwards was there, or is the new one. -/
theorem mem_pushNew : y ∈ pushNew key x ys ↔ y ∈ ys ∨ (y = x ∧ ∀ z ∈ ys, key z ≠ key x) := by
  unfold pushNew
  split
  next hany =>
    obtain ⟨z, hz, hkey⟩ := List.any_eq_true.mp hany
    refine ⟨.inl, fun h => h.resolve_right fun hnew => ?_⟩
    exact hnew.2 z hz (of_decide_eq_true hkey)
  next hany =>
    have hnew : ∀ z ∈ ys, key z ≠ key x := fun z hz heq =>
      hany (List.any_eq_true.mpr ⟨z, hz, decide_eq_true heq⟩)
    rw [List.mem_append, List.mem_singleton]
    exact or_congr_right ⟨fun h => ⟨h, hnew⟩, And.left⟩

/-- A list with the values that came first has every key that came. -/
theorem keys_of_firsts (h : ∀ y, y ∈ ys ↔ First key xs y) (k : κ) :
    (∀ z ∈ ys, key z ≠ k) ↔ ∀ z ∈ xs, key z ≠ k := by
  constructor
  · intro hys z hz
    obtain ⟨y, hy, hkey⟩ := exists_first key hz
    rw [← hkey]
    exact hys y ((h y).mpr hy)
  · exact fun hxs z hz => hxs z ((h z).mp hz).mem

/-- **What is kept** in a list. -/
theorem mem_firsts : y ∈ firsts key xs ↔ First key xs y := by
  induction xs using List.reverseRecOn generalizing y with
  | nil => exact ⟨nofun, nofun⟩
  | append_singleton xs x ih =>
      rw [firsts_concat, mem_pushNew, first_concat, ih, keys_of_firsts fun z => ih]

/-- No key stands twice. -/
theorem firsts_keys (xs : List α) : ((firsts key xs).map key).Nodup := by
  induction xs using List.reverseRecOn with
  | nil => exact List.nodup_nil
  | append_singleton xs x ih =>
      rw [firsts_concat]
      unfold pushNew
      split
      next => exact ih
      next hany =>
        rw [List.map_append, List.map_singleton, List.nodup_append]
        refine ⟨ih, List.pairwise_singleton _ _, fun k hk k' hk' heq => hany ?_⟩
        obtain ⟨y, hy, rfl⟩ := List.mem_map.mp hk
        rw [List.mem_singleton.mp hk'] at heq
        exact List.any_eq_true.mpr ⟨y, hy, decide_eq_true heq⟩

end

/-! ## In the order of the keys -/

section

variable [LinearOrder κ] {key : α → κ} {xs ys : List α} {x y : α}

/-- One more is put where its key belongs, if it is new. -/
theorem collect_concat : collect key (xs ++ [x]) = orInsert key x (collect key xs) := by
  unfold collect
  rw [List.foldl_append]
  rfl

/-- One more at the end, where some of what comes is nothing. -/
theorem collect_filterMap_concat {β : Type} (f : β → Option α) (bs : List β) (b : β) :
    collect key ((bs ++ [b]).filterMap f) =
      (f b).elim (collect key (bs.filterMap f))
        (orInsert key · (collect key (bs.filterMap f))) := by
  rw [List.filterMap_append]
  cases hb : f b with
  | none => rw [List.filterMap_cons_none hb, List.filterMap_nil, List.append_nil, Option.elim_none]
  | some x =>
      rw [List.filterMap_cons_some hb, List.filterMap_nil, collect_concat, Option.elim_some]

/-- What is there afterwards was there, or is the new one. -/
theorem mem_orInsert (h : Ascending key ys) :
    y ∈ orInsert key x ys ↔ y ∈ ys ∨ (y = x ∧ ∀ z ∈ ys, key z ≠ key x) := by
  induction ys with
  | nil => simp [orInsert]
  | cons head tail ih =>
      obtain ⟨hhead, htail⟩ := List.pairwise_cons.mp h
      rw [orInsert]
      split_ifs with hlt heq
      · have hnew : ∀ z ∈ head :: tail, key z ≠ key x := by
          refine List.forall_mem_cons.mpr ⟨ne_of_gt hlt, fun z hz => ?_⟩
          exact ne_of_gt (lt_trans hlt (hhead z hz))
        rw [List.mem_cons, or_comm]
        exact or_congr_right ⟨fun h => ⟨h, hnew⟩, And.left⟩
      · refine ⟨.inl, fun h => h.resolve_right fun hnew => ?_⟩
        exact hnew.2 head List.mem_cons_self heq.symm
      · rw [List.mem_cons, ih htail, List.mem_cons, or_assoc, List.forall_mem_cons]
        have hne : key head ≠ key x := Ne.symm heq
        simp only [hne, ne_eq, not_false_eq_true, true_and]

/-- Putting one in where it is missing keeps the order of the keys. -/
theorem ascending_orInsert (h : Ascending key ys) : Ascending key (orInsert key x ys) := by
  induction ys with
  | nil => exact List.pairwise_singleton _ x
  | cons head tail ih =>
      obtain ⟨hhead, htail⟩ := List.pairwise_cons.mp h
      rw [orInsert]
      split_ifs with hlt heq
      · refine List.pairwise_cons.mpr ⟨List.forall_mem_cons.mpr ⟨hlt, fun z hz => ?_⟩, h⟩
        exact lt_trans hlt (hhead z hz)
      · exact h
      · refine List.pairwise_cons.mpr ⟨fun z hz => ?_, ih htail⟩
        rcases (mem_orInsert htail).mp hz with hz | ⟨rfl, -⟩
        · exact hhead z hz
        · exact lt_of_le_of_ne (not_lt.mp hlt) (Ne.symm heq)

/-- What is collected is in the order of the keys. -/
theorem ascending_collect (xs : List α) : Ascending key (collect key xs) := by
  induction xs using List.reverseRecOn with
  | nil => exact List.Pairwise.nil
  | append_singleton xs x ih =>
      rw [collect_concat]
      exact ascending_orInsert ih

/-- **What is kept** in a map. -/
theorem mem_collect : y ∈ collect key xs ↔ First key xs y := by
  induction xs using List.reverseRecOn generalizing y with
  | nil => exact ⟨nofun, nofun⟩
  | append_singleton xs x ih =>
      rw [collect_concat, mem_orInsert (ascending_collect xs), first_concat, ih,
        keys_of_firsts fun z => ih]

end

end Keyed
