import BreezeCore.Lib.Ip
import BreezeCore.Lib.Bytes
import Mathlib.Data.List.Nodup
import Mathlib.Logic.Function.Basic

/-!
# The units the manager can drive

The manager has a slot for each unit and, beside them, the ids in configuration order.
`Listed` says that the two agree; every change keeps it, and so does the constructor when
it is given no id twice (`listed_withTiming_iff`).
-/

namespace BreezeDevice

open Text Bytes Net

/-- A unit as configured: identity and credentials, no connection. -/
structure DeviceUnit where
  id : Nat
  name : Str
  ip : IpAddr
  port : Nat
  /-- V3 handshake token. -/
  token : Option Octets
  /-- V3 cloud key. -/
  key : Option (Arr 32)

/-- A unit's identity: what a listing needs. -/
structure UnitInfo where
  id : Nat
  name : Str
  ip : IpAddr

/-- What the manager holds of one unit. -/
structure UnitSlot where
  info : UnitInfo
  config : DeviceUnit

/-- The place of a unit, with nothing done yet. -/
def UnitSlot.new (config : DeviceUnit) : UnitSlot := ⟨⟨config.id, config.name, config.ip⟩, config⟩

/-- The units by id, and the order they are listed in. -/
structure DeviceManager where
  units : Nat → Option UnitSlot := fun _ => none
  /-- Configured order, so listings are stable. -/
  order : List Nat := []

/-- One configuration of the constructor's list. -/
def DeviceManager.insert (m : DeviceManager) (c : DeviceUnit) : DeviceManager where
  order := m.order ++ [c.id]
  units := Function.update m.units c.id (some (UnitSlot.new c))

/-- The manager of a list of units. -/
def DeviceManager.withTiming (configs : List DeviceUnit) : DeviceManager :=
  configs.foldl DeviceManager.insert {}

/-- Add a unit, or replace one whose configuration changed. -/
def DeviceManager.upsert (m : DeviceManager) (config : DeviceUnit) : DeviceManager where
  order := if (m.units config.id).isSome then m.order else m.order ++ [config.id]
  units := Function.update m.units config.id (some (UnitSlot.new config))

/-- Remove a unit entirely. -/
def DeviceManager.remove (m : DeviceManager) (id : Nat) : DeviceManager where
  order := m.order.filter (· ≠ id)
  units := Function.update m.units id none

/-- Rename a unit in place.  The device's own copy of the name changes when nobody is using
the device. -/
def DeviceManager.rename (m : DeviceManager) (id : Nat) (name : Str) (isFree : Bool) :
    DeviceManager :=
  match m.units id with
  | none => m
  | some slot =>
      { m with
        units := Function.update m.units id (some
          { info := { slot.info with name := name }
            config := if isFree then { slot.config with name := name } else slot.config }) }

/-- The list has no duplicates, and the ids of the slots and no others. -/
structure DeviceManager.Listed (m : DeviceManager) : Prop where
  nodup : m.order.Nodup
  listed : ∀ id, id ∈ m.order ↔ (m.units id).isSome = true

/-- Every unit of the list is put behind the others, also one that is there. -/
theorem DeviceManager.foldl_insert_order (m : DeviceManager) (configs : List DeviceUnit) :
    (configs.foldl insert m).order = m.order ++ configs.map DeviceUnit.id := by
  induction configs generalizing m with
  | nil => exact (List.append_nil _).symm
  | cons c configs ih =>
      rw [List.foldl_cons, ih, List.map_cons]
      exact List.append_assoc _ _ _

/-- The manager's order is that of the list it is made from, with its repetitions. -/
@[simp] theorem DeviceManager.withTiming_order (configs : List DeviceUnit) :
    (withTiming configs).order = configs.map DeviceUnit.id := foldl_insert_order {} configs

/-- The units that are there are those of the list. -/
theorem DeviceManager.foldl_insert_units (m : DeviceManager) (configs : List DeviceUnit)
    (id : Nat) : ((configs.foldl insert m).units id).isSome = true ↔
      (m.units id).isSome = true ∨ id ∈ configs.map DeviceUnit.id := by
  induction configs generalizing m with
  | nil => simp
  | cons c configs ih =>
      rw [List.foldl_cons, ih, List.map_cons, List.mem_cons]
      have hinsert : (m.insert c).units = Function.update m.units c.id (some (UnitSlot.new c)) :=
        rfl
      rw [hinsert]
      by_cases hid : id = c.id
      · subst hid
        simp
      · simp [hid]

/-- **The constructor** keeps list and slots in agreement exactly when no id comes twice. -/
theorem DeviceManager.listed_withTiming_iff (configs : List DeviceUnit) :
    (withTiming configs).Listed ↔ (configs.map DeviceUnit.id).Nodup := by
  constructor
  · intro h
    have hnodup := h.nodup
    rw [withTiming_order] at hnodup
    exact hnodup
  · intro h
    refine ⟨by rw [withTiming_order]; exact h, ?_⟩
    intro id
    rw [withTiming_order, withTiming, foldl_insert_units]
    simp

/-- Adding a unit keeps the list in step. A unit that is new goes to the end of the order, and one
that is there keeps its place and gets a fresh slot. -/
theorem DeviceManager.Listed.upsert {m : DeviceManager} (h : m.Listed) (config : DeviceUnit) :
    (m.upsert config).Listed := by
  unfold DeviceManager.upsert
  refine ⟨?_, ?_⟩
  · dsimp only
    split
    next => exact h.nodup
    next hnew =>
      refine List.nodup_append'.mpr ⟨h.nodup, List.nodup_singleton _, ?_⟩
      intro id hid hsame
      obtain rfl := List.mem_singleton.mp hsame
      exact hnew ((h.listed config.id).mp hid)
  · intro id
    dsimp only
    by_cases hid : id = config.id
    · subst hid
      rw [Function.update_self]
      split
      next hold => exact iff_of_true ((h.listed config.id).mpr hold) rfl
      next => exact iff_of_true (List.mem_append_right _ List.mem_cons_self) rfl
    · rw [Function.update_of_ne hid, ← h.listed id]
      split
      next => exact Iff.rfl
      next => simp [hid]

/-- Adding a unit lists it, and lists no other one that was not listed. -/
theorem DeviceManager.mem_upsert {m : DeviceManager} (h : m.Listed) (config : DeviceUnit)
    (id : Nat) : id ∈ (m.upsert config).order ↔ id = config.id ∨ id ∈ m.order := by
  unfold DeviceManager.upsert
  dsimp only
  split
  next hold =>
    refine ⟨Or.inr, ?_⟩
    rintro (rfl | hmem)
    · exact (h.listed config.id).mpr hold
    · exact hmem
  next => rw [List.mem_append, List.mem_singleton, or_comm]

/-- Removing a unit keeps the list in step. -/
theorem DeviceManager.Listed.remove {m : DeviceManager} (h : m.Listed) (id : Nat) :
    (m.remove id).Listed := by
  unfold DeviceManager.remove
  refine ⟨h.nodup.filter _, ?_⟩
  intro other
  dsimp only
  rw [List.mem_filter, h.listed, decide_eq_true_iff]
  by_cases hid : other = id
  · subst hid
    simp
  · simp [hid]

/-- Which is not listed then. -/
theorem DeviceManager.mem_remove {m : DeviceManager} {id other : Nat} :
    other ∈ (m.remove id).order ↔ other ∈ m.order ∧ other ≠ id := by
  unfold DeviceManager.remove
  rw [List.mem_filter, decide_eq_true_iff]

/-- A name is no part of what is listed. -/
theorem DeviceManager.rename_order (m : DeviceManager) (id : Nat) (name : Str) (isFree : Bool) :
    (m.rename id name isFree).order = m.order := by
  unfold rename
  split <;> rfl

/-- A name is not what it is listed by. -/
theorem DeviceManager.Listed.rename {m : DeviceManager} (h : m.Listed) (id : Nat) (name : Str)
    (isFree : Bool) : (m.rename id name isFree).Listed := by
  refine ⟨by rw [rename_order]; exact h.nodup, ?_⟩
  intro other
  rw [rename_order, h.listed]
  unfold DeviceManager.rename
  split
  next => rfl
  next slot hslot =>
    dsimp only
    by_cases hid : other = id
    · subst hid
      simp [hslot]
    · rw [Function.update_of_ne hid]

end BreezeDevice
