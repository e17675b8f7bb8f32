import Mathlib.Data.List.MinMax
import Mathlib.Data.List.Nodup
import Mathlib.Logic.Function.Basic

/-!
# Backups

Entries of a store are written, and an entry that is replaced is first copied to a backup
key.  The changes made are listed, and can be taken back from the newest to the oldest:
what was created is removed, and what was replaced is copied back from its backup, which is
removed.

* `takeBackAll_writeAll` — taking back every change brings back every key that is no backup.
* `takeBackAll_created` — taking back what was only created can be done again.
* `takeBackAll_twice` — taking back anything that was replaced cannot.
-/

namespace Backups

variable {K V : Type} [DecidableEq K]

abbrev Store (K V : Type) := K → Option V

inductive Change (K : Type) where
  | created (key : K)
  | replaced (key : K)
  deriving DecidableEq, Repr

-- where the old entry of each key is kept
variable (backup : K → K)

/-! ## Writing -/

/-- The change that writing a key makes. -/
def change (store : Store K V) (key : K) : Change K :=
  if (store key).isSome then .replaced key else .created key

def write (store : Store K V) (key : K) (value : V) : Store K V :=
  match store key with
  | none => Function.update store key (some value)
  | some old =>
      Function.update (Function.update store (backup key) (some old)) key (some value)

def writeAll (store : Store K V) (writes : List (K × V)) : Store K V :=
  writes.foldl (fun store w => write backup store w.1 w.2) store

/-- The changes that are made, oldest first. -/
def changes : Store K V → List (K × V) → List (Change K)
  | _, [] => []
  | store, w :: rest => change store w.1 :: changes (write backup store w.1 w.2) rest

/-! ## Taking back -/

/-- Take one change back; this fails when the backup is not there. -/
def takeBack (store : Store K V) : Change K → Option (Store K V)
  | .created key => some (Function.update store key none)
  | .replaced key =>
      (store (backup key)).map fun old =>
        Function.update (Function.update store key (some old)) (backup key) none

def takeBackAll (store : Store K V) (cs : List (Change K)) : Option (Store K V) :=
  cs.foldlM (takeBack backup) store

variable {backup} {store store' : Store K V}

@[simp] theorem takeBackAll_nil : takeBackAll backup store [] = some store := rfl

@[simp] theorem takeBackAll_cons (c : Change K) (cs : List (Change K)) :
    takeBackAll backup store (c :: cs) =
      (takeBack backup store c).bind fun store => takeBackAll backup store cs := rfl

theorem takeBackAll_append (cs cs' : List (Change K)) :
    takeBackAll backup store (cs ++ cs') =
      (takeBackAll backup store cs).bind fun store => takeBackAll backup store cs' :=
  List.foldlM_append

/-- Every change is of a key that was written. -/
theorem changes_key {c : Change K} {writes : List (K × V)} (h : c ∈ changes backup store writes) :
    ∃ key ∈ writes.map Prod.fst, c = .created key ∨ c = .replaced key := by
  induction writes generalizing store with
  | nil => cases h
  | cons w rest ih =>
      rcases List.mem_cons.mp h with hfirst | hrest
      · refine ⟨w.1, List.mem_cons_self, ?_⟩
        grind [change]
      · obtain ⟨key, hkey, hc⟩ := ih hrest
        exact ⟨key, List.mem_cons_of_mem _ hkey, hc⟩

theorem write_of_ne {key other : K} {value : V} (hkey : other ≠ key)
    (hbackup : change store key = .replaced key → other ≠ backup key) :
    write backup store key value other = store other := by
  cases hold : store key with
  | none => simp [write, hold, Function.update_of_ne hkey]
  | some old =>
      have hother := hbackup (by simp [change, hold])
      simp [write, hold, Function.update_of_ne hkey, Function.update_of_ne hother]

/-- Writing removes nothing. -/
theorem write_present {key other : K} {value : V} (hthere : store key ≠ none) :
    write backup store other value key ≠ none := by
  cases hold : store other with
  | none =>
      simp only [write, hold, Function.update_apply]
      split
      next => nofun
      next => exact hthere
  | some old =>
      simp only [write, hold, Function.update_apply]
      split
      next => nofun
      split
      next => nofun
      next => exact hthere

/-- An entry that is there is replaced, whatever was written before it. -/
theorem replaced_of_present {key : K} {writes : List (K × V)} (hmem : key ∈ writes.map Prod.fst)
    (hthere : store key ≠ none) : .replaced key ∈ changes backup store writes := by
  induction writes generalizing store with
  | nil => cases hmem
  | cons w rest ih =>
      rcases List.mem_cons.mp hmem with rfl | hrest
      · have hfirst : change store w.1 = .replaced w.1 := by
          simp [change, Option.isSome_iff_ne_none, hthere]
        exact hfirst ▸ List.mem_cons_self
      · exact List.mem_cons_of_mem _ (ih hrest (write_present hthere))

/-- Where none of the keys is there, every one is created. -/
theorem changes_absent {writes : List (K × V)} (hnodup : (writes.map Prod.fst).Nodup)
    (habsent : ∀ key ∈ writes.map Prod.fst, store key = none) :
    changes backup store writes = (writes.map Prod.fst).map .created := by
  induction writes generalizing store with
  | nil => rfl
  | cons w rest ih =>
      obtain ⟨hfresh, hnodup⟩ := List.nodup_cons.mp hnodup
      have hfirst : change store w.1 = .created w.1 := by
        simp [change, habsent w.1 List.mem_cons_self]
      rw [changes, hfirst, ih hnodup]
      · rfl
      · intro key hkey
        have hne : key ≠ w.1 := fun heq => hfresh (heq ▸ hkey)
        have hbackup : change store w.1 = .replaced w.1 → key ≠ backup w.1 := by simp [hfirst]
        rw [write_of_ne hne hbackup]
        exact habsent key (List.mem_cons_of_mem _ hkey)

/-- **One change taken back**, in any store that still has what it needs. A key that was created
is taken out; one that was replaced gets its backup, and the backup goes. -/
theorem takeBack_write {key : K} {value : V} (hbackup : backup key ≠ key)
    (hkept : change store key = .replaced key →
      store' (backup key) = write backup store key value (backup key)) :
    ∃ store'', takeBack backup store' (change store key) = some store'' ∧
      store'' key = store key ∧
      ∀ other, other ≠ key → (change store key = .replaced key → other ≠ backup key) →
        store'' other = store' other := by
  cases hold : store key with
  | none =>
      have hcreated : change store key = .created key := by simp [change, hold]
      refine ⟨Function.update store' key none, by rw [hcreated]; rfl, ?_, ?_⟩
      · exact Function.update_self ..
      · intro other hother _
        exact Function.update_of_ne hother _ _
  | some old =>
      have hreplaced : change store key = .replaced key := by simp [change, hold]
      have hthere : store' (backup key) = some old := by
        rw [hkept hreplaced]
        simp [write, hold, Function.update_of_ne hbackup]
      refine ⟨Function.update (Function.update store' key (some old)) (backup key) none, ?_, ?_, ?_⟩
      · rw [hreplaced]
        simp [takeBack, hthere]
      · rw [Function.update_of_ne hbackup.symm, Function.update_self]
      · intro other hother hfree
        rw [Function.update_of_ne (hfree hreplaced), Function.update_of_ne hother]

/-- **Every change taken back** brings back every key that is no backup of a replaced one. By
induction on the writes, as the last one written is the first one taken back. -/
theorem takeBackAll_writeAll (hinj : Function.Injective backup) (hne : ∀ key, backup key ≠ key)
    {writes : List (K × V)} (hnodup : (writes.map Prod.fst).Nodup) (store : Store K V) :
    ∃ store', takeBackAll backup (writeAll backup store writes)
        (changes backup store writes).reverse = some store' ∧
      ∀ key, (∀ other, .replaced other ∈ changes backup store writes → key ≠ backup other) →
        store' key = store key := by
  induction writes generalizing store with
  | nil => exact ⟨store, rfl, fun _ _ => rfl⟩
  | cons w rest ih =>
      obtain ⟨hfresh, hnodup⟩ := List.nodup_cons.mp hnodup
      obtain ⟨mid, hmid, hback⟩ := ih hnodup (write backup store w.1 w.2)
      -- the newer changes replaced other keys, so they left this one's backup alone
      have hkept : mid (backup w.1) = write backup store w.1 w.2 (backup w.1) := by
        refine hback _ fun other hother heq => hfresh ?_
        obtain ⟨key, hkey, hc⟩ := changes_key hother
        have hother : other = key := by grind
        rw [hinj heq, hother]
        exact hkey
      obtain ⟨last, hlast, hkey, hothers⟩ := takeBack_write (hne w.1) fun _ => hkept
      refine ⟨last, ?_, ?_⟩
      · rw [changes, List.reverse_cons, takeBackAll_append]
        calc (takeBackAll backup (writeAll backup (write backup store w.1 w.2) rest)
                (changes backup (write backup store w.1 w.2) rest).reverse).bind
              (fun store' => takeBackAll backup store' [change store w.1])
            = takeBackAll backup mid [change store w.1] := by rw [hmid]; rfl
          _ = some last := by simp [hlast]
      · intro key hfree
        have hrest : mid key = write backup store w.1 w.2 key :=
          hback key fun other hother => hfree other (List.mem_cons_of_mem _ hother)
        by_cases hw : key = w.1
        · rw [hw, hkey]
        · have hfirst : change store w.1 = .replaced w.1 → key ≠ backup w.1 := fun hreplaced =>
            hfree w.1 (hreplaced ▸ List.mem_cons_self)
          rw [hothers key hw hfirst, hrest]
          exact write_of_ne hw hfirst

/-! ## Taking back again -/

/-- What was only created is removed, as often as one likes. -/
theorem takeBackAll_created (keys : List K) (store : Store K V) :
    takeBackAll backup store (keys.map .created) =
      some fun key => if key ∈ keys then none else store key := by
  induction keys generalizing store with
  | nil => simp
  | cons first rest ih =>
      rw [List.map_cons, takeBackAll_cons, takeBack, Option.bind_some, ih]
      congr 1
      funext key
      grind [Function.update_apply]

/-- A key that no change gives a value stays without one. -/
theorem takeBack_none {c : Change K} {key : K} (hgone : store key = none)
    (hc : c ≠ .replaced key) (h : takeBack backup store c = some store') : store' key = none := by
  cases c with
  | created other =>
      obtain rfl := Option.some_inj.mp h
      grind [Function.update_apply]
  | replaced other =>
      obtain ⟨old, -, rfl⟩ := Option.map_eq_some_iff.mp h
      grind [Function.update_apply]

theorem takeBackAll_none {cs : List (Change K)} {key : K} (hgone : store key = none)
    (hcs : .replaced key ∉ cs) (h : takeBackAll backup store cs = some store') :
    store' key = none := by
  induction cs generalizing store with
  | nil => exact Option.some_inj.mp h ▸ hgone
  | cons c rest ih =>
      obtain ⟨mid, hmid, hrest⟩ := Option.bind_eq_some_iff.mp h
      have hmidgone := takeBack_none hgone (fun hc => hcs (hc ▸ List.mem_cons_self)) hmid
      exact ih hmidgone (fun hmem => hcs (List.mem_cons_of_mem _ hmem)) hrest

/-- What was replaced cannot be taken back once its backup is gone. -/
theorem takeBackAll_stuck {cs : List (Change K)} {key : K} (hgone : store (backup key) = none)
    (hcs : .replaced (backup key) ∉ cs) (hmem : .replaced key ∈ cs) :
    takeBackAll backup store cs = none := by
  induction cs generalizing store with
  | nil => cases hmem
  | cons c rest ih =>
      rw [takeBackAll_cons, Option.bind_eq_none_iff]
      intro mid hmid
      have hmidgone := takeBack_none hgone (fun hc => hcs (hc ▸ List.mem_cons_self)) hmid
      rcases List.mem_cons.mp hmem with rfl | hrest
      · simp [takeBack, hgone] at hmid
      · exact ih hmidgone (fun h => hcs (List.mem_cons_of_mem _ h)) hrest

/-- Taking back what was replaced leaves its backup gone. -/
theorem takeBackAll_gone {cs : List (Change K)} {key : K} (hcs : .replaced (backup key) ∉ cs)
    (hmem : .replaced key ∈ cs) (h : takeBackAll backup store cs = some store') :
    store' (backup key) = none := by
  induction cs generalizing store with
  | nil => cases hmem
  | cons c rest ih =>
      obtain ⟨mid, hmid, hrest⟩ := Option.bind_eq_some_iff.mp h
      have hcs' : .replaced (backup key) ∉ rest := fun h => hcs (List.mem_cons_of_mem _ h)
      rcases List.mem_cons.mp hmem with rfl | hmem'
      · obtain ⟨old, -, rfl⟩ := Option.map_eq_some_iff.mp hmid
        exact takeBackAll_none (Function.update_self ..) hcs' hrest
      · exact ih hcs' hmem' hrest

omit [DecidableEq K] in
/-- Where backups are larger than what they are of, some backup is not itself replaced. -/
theorem exists_backup_free {size : K → ℕ} (hsize : ∀ key, size key < size (backup key))
    {cs : List (Change K)} {first : K} (h : .replaced first ∈ cs) :
    ∃ key, .replaced key ∈ cs ∧ .replaced (backup key) ∉ cs := by
  -- the largest key that is replaced
  let keys := cs.filterMap fun c => match c with
    | .created _ => none
    | .replaced key => some key
  have hkeys : ∀ key, key ∈ keys ↔ .replaced key ∈ cs := by
    intro key
    simp only [keys, List.mem_filterMap]
    grind
  cases hmax : keys.argmax size with
  | none => grind [List.argmax_eq_none]
  | some key =>
      refine ⟨key, (hkeys key).mp (List.argmax_mem hmax), fun hbackup => ?_⟩
      have hle := List.le_of_mem_argmax ((hkeys _).mpr hbackup) hmax
      exact absurd hle (Nat.not_le.mpr (hsize key))

/-- **What was replaced cannot be taken back twice.** -/
theorem takeBackAll_twice {size : K → ℕ} (hsize : ∀ key, size key < size (backup key))
    {cs : List (Change K)} {key : K} (hmem : .replaced key ∈ cs)
    (h : takeBackAll backup store cs = some store') : takeBackAll backup store' cs = none := by
  obtain ⟨key, hkey, hfree⟩ := exists_backup_free hsize hmem
  exact takeBackAll_stuck (takeBackAll_gone hfree hkey h) hfree hkey

end Backups
