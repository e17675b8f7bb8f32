import BreezeCore.Lib.Text

/-!
# JSON values

A document as a tree, and an object as its fields in the order they were put in.  Reading
and printing the text of a document are not here.
-/

namespace JsonValue

open Text

/-- A number as it was written: a natural number, a negative one, or neither. -/
inductive Number where
  | posInt (n : UInt64)
  | negInt (n : Int64)
  | float (bits : UInt64)

inductive Json where
  | null
  | bool (b : Bool)
  | number (n : Number)
  | string (text : Str)
  | array (items : List Json)
  | object (fields : List (Str × Json))

/-- The fields of an object. -/
abbrev Fields := List (Str × Json)

namespace Fields

def get? : Fields → Str → Option Json
  | [], _ => none
  | (k, v) :: rest, key => if k = key then some v else get? rest key

/-- A new value for a field, in the place of the old one or else at the end. -/
def insert : Fields → Str → Json → Fields
  | [], key, value => [(key, value)]
  | (k, v) :: rest, key, value =>
      if k = key then (k, value) :: rest else (k, v) :: insert rest key value

/-- The last field takes the place of the one removed. -/
def remove (fields : Fields) (key : Str) : Fields :=
  match fields.splitAt (fields.findIdx fun f => f.1 = key) with
  | (before, []) => before
  | (before, _ :: after) => before ++ after.getLast?.toList ++ after.dropLast

@[simp] theorem get?_insert (fields : Fields) (key : Str) (value : Json) (k : Str) :
    get? (insert fields key value) k = if key = k then some value else get? fields k := by
  induction fields with
  | nil => rfl
  | cons field rest ih =>
      obtain ⟨k', v⟩ := field
      unfold insert
      by_cases hk : k' = key
      · rw [if_pos hk]
        subst hk
        simp only [get?]
        split <;> rfl
      · rw [if_neg hk]
        simp only [get?, ih]
        by_cases hk' : k' = k
        · have hne : key ≠ k := fun h => hk (hk'.trans h.symm)
          rw [if_pos hk', if_pos hk', if_neg hne]
        · rw [if_neg hk', if_neg hk']

/-- The names of the fields. -/
def keys (fields : Fields) : List Str := fields.map Prod.fst

theorem get?_isSome (fields : Fields) (key : Str) :
    (get? fields key).isSome = decide (key ∈ keys fields) := by
  induction fields with
  | nil => rfl
  | cons field rest ih =>
      obtain ⟨k, v⟩ := field
      unfold get?
      by_cases hk : k = key
      · rw [if_pos hk]
        exact (decide_eq_true (List.mem_cons.mpr (.inl hk.symm))).symm
      · rw [if_neg hk, ih]
        exact decide_eq_decide.mpr ⟨fun h => List.mem_cons_of_mem _ h,
          fun h => (List.mem_cons.mp h).resolve_left (Ne.symm hk)⟩

theorem keys_insert (fields : Fields) (key : Str) (value : Json) :
    keys (insert fields key value) =
      if key ∈ keys fields then keys fields else keys fields ++ [key] := by
  induction fields with
  | nil => rfl
  | cons field rest ih =>
      obtain ⟨k, v⟩ := field
      unfold insert
      by_cases hk : k = key
      · have hmem : key ∈ keys ((k, v) :: rest) := List.mem_cons.mpr (.inl hk.symm)
        rw [if_pos hk, if_pos hmem]
        rfl
      · have ih : (insert rest key value).map Prod.fst =
            if key ∈ rest.map Prod.fst then rest.map Prod.fst else rest.map Prod.fst ++ [key] := ih
        have hmem : key ∈ k :: rest.map Prod.fst ↔ key ∈ rest.map Prod.fst :=
          ⟨fun h => (List.mem_cons.mp h).resolve_left (Ne.symm hk), List.mem_cons_of_mem _⟩
        rw [if_neg hk]
        simp only [keys, List.map_cons, ih, hmem]
        split <;> rfl

end Fields

namespace Json

/-- The field of an object. -/
def get : Json → Str → Option Json
  | .object fields, key => Fields.get? fields key
  | _, _ => none

def asStr : Json → Option Str
  | .string text => some text
  | _ => none

def asArray : Json → Option (List Json)
  | .array items => some items
  | _ => none

def asU64 : Json → Option UInt64
  | .number (.posInt n) => some n
  | _ => none

def asI64 : Json → Option Int
  | .number (.posInt n) => if n.toNat < 2 ^ 63 then some n.toNat else none
  | .number (.negInt n) => some n.toInt
  | _ => none

/-- The text in a field. -/
def strAt (value : Json) (key : String) : Option Str := value.get key.toList >>= asStr

/-- The items in a field. -/
def arrayAt (value : Json) (key : String) : Option (List Json) := value.get key.toList >>= asArray

end Json

end JsonValue
