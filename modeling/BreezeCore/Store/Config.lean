import BreezeCore.Lib.Decimal

/-!
# The configured units

`config.json` lists the units.  A unit is asked for by the text of its id, and one that is
added again keeps its place and the credentials it is not given anew.
-/

namespace BreezeStore

open Text

/-- One air conditioner as the admin configured it. -/
structure UnitConfig where
  name : Str
  ip : Str
  port : Nat := 6444
  id : Int64
  /-- V3 credentials; absent for V1/V2 devices. -/
  token : Option Str := none
  key : Option Str := none
  deriving DecidableEq

/-- `config.json`. -/
structure AppConfig where
  apiKey : Option Str := none
  units : List UnitConfig := []
  deriving DecidableEq

/-- The id as text, which is how it arrives in a URL. -/
def UnitConfig.idText (u : UnitConfig) : Str := showInt u.id.toInt

/-- A unit by its id as a string. -/
def AppConfig.findUnit (config : AppConfig) (unitId : Str) : Option UnitConfig :=
  config.units.find? fun u => u.idText = unitId

/-- The unit found by its id gets another name. -/
def AppConfig.setName (config : AppConfig) (unitId : Str) (name : Str) : AppConfig :=
  { config with
    units := config.units.modify (config.units.findIdx fun u => u.idText = unitId)
      fun u => { u with name := name } }

/-- The entry as it is after the unit was found again.  Credentials are only overwritten
with credentials. -/
def UnitConfig.updated (existing unit : UnitConfig) : UnitConfig :=
  { existing with
    ip := unit.ip
    port := unit.port
    name := unit.name
    token := unit.token.or existing.token
    key := unit.key.or existing.key }

/-- Insert a unit, or update the entry that already has its id, and say whether it was an
insert. -/
def AppConfig.addOrUpdateUnit (config : AppConfig) (unit : UnitConfig) : Bool × AppConfig :=
  if config.units.any fun u => u.id = unit.id then
    (false, { config with
      units := config.units.modify (config.units.findIdx fun u => u.id = unit.id)
        fun existing => existing.updated unit })
  else (true, { config with units := config.units ++ [unit] })

/-- Remove a unit by string id, and say whether anything went. -/
def AppConfig.removeUnit (config : AppConfig) (unitId : Str) : Bool × AppConfig :=
  let kept := config.units.filter fun u => u.idText ≠ unitId
  (kept.length ≠ config.units.length, { config with units := kept })

/-! ## What the operations do -/

theorem UnitConfig.idText_eq_iff {u v : UnitConfig} : u.idText = v.idText ↔ u.id = v.id := by
  unfold idText
  rw [showInt_injective.eq_iff, Int64.toInt_inj]

/-- The entry updated is the first with the id. -/
theorem modify_findIdx {α : Type} {p : α → Bool} {f : α → α} {xs : List α}
    (h : xs.any p = true) : ∃ before x after, xs = before ++ x :: after ∧ p x = true ∧
      (∀ y ∈ before, p y = false) ∧ xs.modify (xs.findIdx p) f = before ++ f x :: after := by
  induction xs with
  | nil => cases h
  | cons x xs ih =>
      by_cases hx : p x = true
      · refine ⟨[], x, xs, rfl, hx, List.forall_mem_nil _, ?_⟩
        rw [List.findIdx_cons, hx]
        rfl
      · have hrest : xs.any p = true := by simpa [hx] using h
        obtain ⟨before, y, after, hxs, hy, hbefore, hmodify⟩ := ih hrest
        have hfalse : p x = false := by simpa using hx
        refine ⟨x :: before, y, after, by rw [hxs, List.cons_append], hy,
          List.forall_mem_cons.mpr ⟨hfalse, hbefore⟩, ?_⟩
        rw [List.findIdx_cons, hfalse]
        exact congrArg (x :: ·) hmodify

/-- A change of the first one that is found can be taken back. -/
theorem modify_findIdx_back {α : Type} {p : α → Bool} {f g : α → α} (hp : ∀ x, p (f x) = p x)
    {xs : List α} {x : α} (hx : xs.find? p = some x) (hback : g (f x) = x) :
    (xs.modify (xs.findIdx p) f).modify ((xs.modify (xs.findIdx p) f).findIdx p) g = xs := by
  induction xs with
  | nil => cases hx
  | cons y ys ih =>
      by_cases hy : p y = true
      · rw [List.find?_cons_of_pos hy] at hx
        obtain rfl := Option.some.inj hx
        rw [List.findIdx_cons, hy, cond_true, List.modify_zero_cons, List.findIdx_cons, hp, hy,
          cond_true, List.modify_zero_cons, hback]
      · have hfalse : p y = false := by simpa using hy
        rw [List.find?_cons_of_neg hy] at hx
        rw [List.findIdx_cons, hfalse, cond_false, List.modify_succ_cons, List.findIdx_cons, hfalse,
          cond_false, List.modify_succ_cons, ih hx]

/-- **An addition** changes one entry of the unit's id, or adds one. -/
theorem AppConfig.addOrUpdateUnit_cases (config : AppConfig) (unit : UnitConfig) :
    (∃ before existing after, config.units = before ++ existing :: after ∧
        existing.id = unit.id ∧ (∀ u ∈ before, u.id ≠ unit.id) ∧
        (config.addOrUpdateUnit unit).2.units = before ++ existing.updated unit :: after) ∨
      (∀ u ∈ config.units, u.id ≠ unit.id) ∧
        (config.addOrUpdateUnit unit).2.units = config.units ++ [unit] := by
  unfold addOrUpdateUnit
  split
  next hany =>
    left
    obtain ⟨before, existing, after, hunits, hid, hbefore, hmodify⟩ :=
      modify_findIdx (f := fun existing => existing.updated unit) hany
    refine ⟨before, existing, after, hunits, of_decide_eq_true hid, ?_, hmodify⟩
    exact fun u hu => of_decide_eq_false (hbefore u hu)
  next hnone =>
    right
    refine ⟨fun u hu hid => hnone ?_, rfl⟩
    exact List.any_eq_true.mpr ⟨u, hu, decide_eq_true hid⟩

/-- A rename that is taken back leaves the document as it was. -/
theorem AppConfig.setName_back {config : AppConfig} {unitId : Str} {found : UnitConfig}
    (hfound : config.findUnit unitId = some found) (name : Str) :
    (config.setName unitId name).setName unitId found.name = config := by
  have hback := modify_findIdx_back (p := fun u : UnitConfig => u.idText = unitId)
    (f := fun u : UnitConfig => { u with name := name })
    (g := fun u : UnitConfig => { u with name := found.name }) (fun _ => rfl) hfound rfl
  unfold setName
  dsimp only
  rw [hback]

/-- Putting the units back after an addition gives the configuration back, as it has changed
nothing else. -/
theorem AppConfig.addOrUpdateUnit_back (config : AppConfig) (unit : UnitConfig) :
    { (config.addOrUpdateUnit unit).2 with units := config.units } = config := by
  unfold addOrUpdateUnit
  split <;> rfl

end BreezeStore
