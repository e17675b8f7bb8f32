import Mathlib.Data.List.Nodup
import BreezeCore.Lib.Runs

/-!
# Values sent under keys

Batches of keyed values come in, one after the other.  A value is sent when its key is
not claimed, and claims it; a claimed key is passed over, whatever value stands under
it.  So it is the keys that are dealt with once each, and `once_iff` says when the
values are: exactly when in every batch each value stands under the right number of
unclaimed keys, none if it came before and one if it did not.
-/

namespace Claims

variable {K A : Type} [DecidableEq K]

/-- What is sent of a batch. -/
def fresh (claimed : List K) : List (K × A) → List A
  | [] => []
  | (k, a) :: rest => if k ∈ claimed then fresh claimed rest else a :: fresh (k :: claimed) rest

/-- The keys of some batches. -/
def keys (batches : List (List (K × A))) : List K := batches.flatten.map Prod.fst

/-- The values of some batches. -/
def values (batches : List (List (K × A))) : List A := batches.flatten.map Prod.snd

/-- What is sent of one batch after the other, from the keys claimed at first. -/
def sentFrom (claimed : List K) : List (List (K × A)) → List A
  | [] => []
  | batch :: batches =>
      fresh claimed batch ++ sentFrom (claimed ++ batch.map Prod.fst) batches

/-- All that is sent. -/
def sent (batches : List (List (K × A))) : List A := sentFrom [] batches

/-- Only which keys are claimed counts. -/
theorem fresh_congr {claimed claimed' : List K} (h : ∀ k, k ∈ claimed ↔ k ∈ claimed')
    (batch : List (K × A)) : fresh claimed batch = fresh claimed' batch := by
  induction batch generalizing claimed claimed' with
  | nil => rfl
  | cons x rest ih =>
      obtain ⟨k, a⟩ := x
      unfold fresh
      have hcons : ∀ k', k' ∈ k :: claimed ↔ k' ∈ k :: claimed' := fun k' => by
        simp only [List.mem_cons, h k']
      rw [ih h, ih hcons]
      simp only [h k]

theorem fresh_append (claimed : List K) (batch more : List (K × A)) :
    fresh claimed (batch ++ more) =
      fresh claimed batch ++ fresh (claimed ++ batch.map Prod.fst) more := by
  induction batch generalizing claimed with
  | nil => simp [fresh]
  | cons x rest ih =>
      obtain ⟨k, a⟩ := x
      rw [List.cons_append, fresh, fresh, ih, ih]
      split
      next hk =>
        congr 1
        apply fresh_congr
        intro k'
        simp only [List.mem_append, List.map_cons, List.mem_cons]
        grind
      next =>
        rw [List.cons_append]
        congr 2
        apply fresh_congr
        intro k'
        simp only [List.mem_append, List.map_cons, List.mem_cons]
        grind

/-- What is sent is of the batch. -/
theorem fresh_subset (claimed : List K) (batch : List (K × A)) :
    fresh claimed batch ⊆ batch.map Prod.snd := by
  induction batch generalizing claimed with
  | nil => exact List.Subset.refl _
  | cons x rest ih =>
      obtain ⟨k, a⟩ := x
      unfold fresh
      rw [List.map_cons]
      split
      next => exact List.Subset.trans (ih _) (List.subset_cons_self _ _)
      next => exact List.cons_subset_cons _ (ih _)

theorem sentFrom_append (claimed : List K) (batches more : List (List (K × A))) :
    sentFrom claimed (batches ++ more) =
      sentFrom claimed batches ++ sentFrom (claimed ++ keys batches) more := by
  induction batches generalizing claimed with
  | nil => simp [sentFrom, keys]
  | cons batch batches ih =>
      rw [List.cons_append, sentFrom, sentFrom, ih, keys, keys, List.flatten_cons, List.map_append,
        List.append_assoc, List.append_assoc]

/-- The last batch is sent without what was claimed before. -/
theorem sent_concat (batches : List (List (K × A))) (batch : List (K × A)) :
    sent (batches ++ [batch]) = sent batches ++ fresh (keys batches) batch := by
  unfold sent
  rw [sentFrom_append, List.nil_append, sentFrom, sentFrom, List.append_nil]

theorem sent_subset (batches : List (List (K × A))) : sent batches ⊆ values batches := by
  induction batches using List.reverseRecOn with
  | nil => exact List.Subset.refl _
  | append_singleton batches batch ih =>
      rw [sent_concat, values, List.flatten_append, List.map_append, List.flatten_singleton]
      exact List.append_subset.mpr ⟨List.Subset.trans ih (List.subset_append_left _ _),
        List.Subset.trans (fresh_subset _ _) (List.subset_append_right _ _)⟩

/-- Every value is sent at most once, and by the end of every batch it stands in. -/
structure Once (batches : List (List (K × A))) : Prop where
  nodup : (sent batches).Nodup
  complete : ∀ pre batch post, batches = pre ++ batch :: post →
    ∀ x ∈ batch, x.2 ∈ sent (pre ++ [batch])

variable [DecidableEq A]

/-- The keys of a batch fit its values, after these batches: a value that came before
stands under claimed keys only, and any other under one that is not. -/
def Fits (before : List (List (K × A))) (batch : List (K × A)) : Prop :=
  ∀ x ∈ batch, (fresh (keys before) batch).count x.2 = if x.2 ∈ values before then 0 else 1

instance (before : List (List (K × A))) (batch : List (K × A)) : Decidable (Fits before batch) :=
  inferInstanceAs (Decidable (∀ x ∈ batch, _ = _))

/-- Where keys and values tell the same things apart, it is the values that are not
claimed which are sent, once. -/
theorem count_fresh_of_agree {batch : List (K × A)}
    (h : ∀ x ∈ batch, ∀ y ∈ batch, (x.1 = y.1 ↔ x.2 = y.2)) (claimed : List K) :
    ∀ x ∈ batch, (fresh claimed batch).count x.2 = if x.1 ∈ claimed then 0 else 1 := by
  induction batch generalizing claimed with
  | nil => exact fun x hx => absurd hx List.not_mem_nil
  | cons y rest ih =>
      have hrest := ih fun x hx z hz =>
        h x (List.mem_cons_of_mem _ hx) z (List.mem_cons_of_mem _ hz)
      have hy := fun z hz => h y List.mem_cons_self z (List.mem_cons_of_mem _ hz)
      -- Behind a claimed key its value is not sent again.
      have hagain : ∀ claimed, y.1 ∈ claimed → (fresh claimed rest).count y.2 = 0 := by
        intro claimed hin
        by_cases hlater : ∃ z ∈ rest, z.2 = y.2
        · obtain ⟨z, hz, hvalue⟩ := hlater
          have hkey := (hy z hz).mpr hvalue.symm
          rw [← hvalue, hrest claimed z hz, if_pos (hkey ▸ hin)]
        · refine List.count_eq_zero.mpr fun hmem => hlater ?_
          obtain ⟨z, hz, hvalue⟩ := List.mem_map.mp (fresh_subset _ _ hmem)
          exact ⟨z, hz, hvalue⟩
      intro x hx
      obtain ⟨k, a⟩ := y
      unfold fresh
      rcases List.mem_cons.mp hx with rfl | hx
      · split
        next hin => exact hagain claimed hin
        next => rw [List.count_cons_self, hagain _ List.mem_cons_self]
      · split
        next => exact hrest claimed x hx
        next hout =>
          by_cases hsame : a = x.2
          · have hkey : k = x.1 := (hy x hx).mpr hsame
            have hzero := hagain (k :: claimed) List.mem_cons_self
            dsimp only at hzero
            rw [← hsame, List.count_cons_self, hzero, if_neg (hkey ▸ hout)]
          · have hkey : x.1 ≠ k := fun hk => hsame ((hy x hx).mp hk.symm)
            rw [List.count_cons_of_ne hsame, hrest _ x hx]
            simp [hkey]

/-- Where keys and values tell the same things apart, before and in the batch, the keys fit the
values. -/
theorem fits_of_agree {before : List (List (K × A))} {batch : List (K × A)}
    (h : ∀ x ∈ batch, ∀ y ∈ before.flatten ++ batch, (x.1 = y.1 ↔ x.2 = y.2)) :
    Fits before batch := by
  intro x hx
  rw [count_fresh_of_agree (fun x hx y hy => h x hx y (List.mem_append_right _ hy)) _ x hx]
  have hiff : x.1 ∈ keys before ↔ x.2 ∈ values before := by
    unfold keys values
    rw [List.mem_map, List.mem_map]
    constructor
    · rintro ⟨y, hy, hkey⟩
      exact ⟨y, hy, ((h x hx y (List.mem_append_left _ hy)).mp hkey.symm).symm⟩
    · rintro ⟨y, hy, hvalue⟩
      exact ⟨y, hy, ((h x hx y (List.mem_append_left _ hy)).mpr hvalue.symm).symm⟩
  simp only [hiff]

omit [DecidableEq A] in
/-- Values that are sent once each are sent if they came in. -/
theorem Once.mem_sent_iff {batches : List (List (K × A))} (h : Once batches) (a : A) :
    a ∈ sent batches ↔ a ∈ values batches := by
  refine ⟨fun ha => sent_subset batches ha, fun ha => ?_⟩
  obtain ⟨x, hmem, rfl⟩ := List.mem_map.mp ha
  obtain ⟨batch, hbatch, hx⟩ := List.mem_flatten.mp hmem
  obtain ⟨pre, post, rfl⟩ := List.append_of_mem hbatch
  have hsent := h.complete pre batch post rfl x hx
  rw [sent, List.append_cons, sentFrom_append]
  exact List.mem_append_left _ hsent

omit [DecidableEq A] in
/-- One more batch. -/
theorem once_concat {batches : List (List (K × A))} {batch : List (K × A)} :
    Once (batches ++ [batch]) ↔ Once batches ∧ (sent (batches ++ [batch])).Nodup ∧
      ∀ x ∈ batch, x.2 ∈ sent (batches ++ [batch]) := by
  constructor
  · intro h
    obtain ⟨hold, hlast⟩ := Runs.forall_split_concat.mp h.complete
    have hnodup := h.nodup
    rw [sent_concat] at hnodup
    exact ⟨⟨hnodup.of_append_left, hold⟩, h.nodup, hlast⟩
  · rintro ⟨hold, hnodup, hlast⟩
    exact ⟨hnodup, Runs.forall_split_concat.mpr ⟨hold.complete, hlast⟩⟩

/-- **The last batch** is dealt with once exactly when its keys fit its values. A value that came
before must stand under claimed keys only, and a new one under one key that is not. -/
theorem once_concat_iff_fits {batches : List (List (K × A))} {batch : List (K × A)}
    (h : Once batches) : Once (batches ++ [batch]) ↔ Fits batches batch := by
  have hmem := h.mem_sent_iff
  rw [once_concat, sent_concat]
  constructor
  · rintro ⟨-, hnodup, hcomplete⟩ x hx
    obtain ⟨-, hfresh, hdisjoint⟩ := List.nodup_append'.mp hnodup
    split
    next hbefore => exact List.count_eq_zero.mpr fun hin => hdisjoint ((hmem _).mpr hbefore) hin
    next hbefore =>
      have hin : x.2 ∈ fresh (keys batches) batch :=
        (List.mem_append.mp (hcomplete x hx)).resolve_left fun hs => hbefore ((hmem _).mp hs)
      exact List.count_eq_one_of_mem hfresh hin
  · intro hfits
    -- What is sent of the batch is one of its values, so it is counted.
    have hcount : ∀ a ∈ fresh (keys batches) batch,
        (fresh (keys batches) batch).count a = 1 ∧ a ∉ values batches := by
      intro a ha
      obtain ⟨x, hx, rfl⟩ := List.mem_map.mp (fresh_subset _ _ ha)
      have hone := hfits x hx
      have hpos := List.count_pos_iff.mpr ha
      by_cases hbefore : x.2 ∈ values batches
      · rw [if_pos hbefore] at hone
        omega
      · rw [if_neg hbefore] at hone
        exact ⟨hone, hbefore⟩
    refine ⟨h, List.nodup_append'.mpr ⟨h.nodup, ?_, ?_⟩, ?_⟩
    · rw [List.nodup_iff_count_le_one]
      intro a
      by_cases ha : a ∈ fresh (keys batches) batch
      · exact Nat.le_of_eq (hcount a ha).1
      · rw [List.count_eq_zero_of_not_mem ha]
        exact Nat.zero_le 1
    · intro a hs hf
      exact (hcount a hf).2 ((hmem a).mp hs)
    · intro x hx
      have hone := hfits x hx
      rw [List.mem_append]
      split at hone
      next hbefore => exact Or.inl ((hmem _).mpr hbefore)
      next => exact Or.inr (List.count_pos_iff.mp (by omega))

/-- **Once each.**  Every value is sent once, no later than the batch it first comes in,
exactly when the keys fit the values in every batch. -/
theorem once_iff {batches : List (List (K × A))} :
    Once batches ↔ ∀ pre batch post, batches = pre ++ batch :: post → Fits pre batch := by
  induction batches using List.reverseRecOn with
  | nil => exact iff_of_true ⟨List.nodup_nil, Runs.forall_split_nil⟩ Runs.forall_split_nil
  | append_singleton batches batch ih =>
      rw [Runs.forall_split_concat, ← ih]
      constructor
      · intro h
        have hold := (once_concat.mp h).1
        exact ⟨hold, (once_concat_iff_fits hold).mp h⟩
      · rintro ⟨hold, hfits⟩
        exact (once_concat_iff_fits hold).mpr hfits

end Claims
