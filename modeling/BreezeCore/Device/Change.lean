import Mathlib.Data.List.Induction
import BreezeCore.Proto.Command

/-!
# Partial changes

The fields a control request sets.  Folding a later request into an earlier one
is `Change.merge`, and writing the result into a full setpoint is
`Change.applyTo`; `mergeAll_eq` says that after any number of requests each field
has the value of the last one that sets it.
-/

namespace BreezeDevice

open Ac

/-- The fields a control request sets.  Absent means "leave it as it is". -/
structure Change where
  powerOn : Option Bool := none
  mode : Option Mode := none
  targetTemperature : Option ℚ := none
  fanSpeed : Option FanSpeed := none
  swingMode : Option SwingMode := none
  eco : Option Bool := none
  turbo : Option Bool := none
  /-- Whether the unit chirps.  Absent means silent. -/
  beep : Option Bool := none
  deriving DecidableEq, Repr

/-- The later value if there is one. -/
def take {α : Type} (slot later : Option α) : Option α := later <|> slot

/-- Fold a later request into this one.  Whatever the later one sets wins. -/
def Change.merge (self later : Change) : Change where
  powerOn := take self.powerOn later.powerOn
  mode := take self.mode later.mode
  targetTemperature := take self.targetTemperature later.targetTemperature
  fanSpeed := take self.fanSpeed later.fanSpeed
  swingMode := take self.swingMode later.swingMode
  eco := take self.eco later.eco
  turbo := take self.turbo later.turbo
  beep := take self.beep later.beep

/-- Write the fields this change sets into a full setpoint. -/
def Change.applyTo (c : Change) (s : Setpoint) : Setpoint :=
  { s with
    powerOn := c.powerOn.getD s.powerOn
    mode := c.mode.getD s.mode
    targetTemperature := c.targetTemperature.getD s.targetTemperature
    fanSpeed := c.fanSpeed.getD s.fanSpeed
    swingMode := c.swingMode.getD s.swingMode
    eco := c.eco.getD s.eco
    turbo := c.turbo.getD s.turbo
    beep := c.beep.getD false }

/-- Several requests folded together, in order. -/
def mergeAll (changes : List Change) : Change := changes.foldl Change.merge {}

/-- The value of the last change that sets a field. -/
def latest {α : Type} (field : Change → Option α) (changes : List Change) : Option α :=
  (changes.filterMap field).getLast?

theorem mergeAll_append (changes : List Change) (later : Change) :
    mergeAll (changes ++ [later]) = (mergeAll changes).merge later :=
  List.foldl_append

private theorem latest_append {α : Type} (field : Change → Option α) (changes : List Change)
    (later : Change) :
    latest field (changes ++ [later]) = take (latest field changes) (field later) := by
  unfold latest take
  rw [List.filterMap_append, List.getLast?_append]
  cases hlater : field later with
  | none => simp [hlater]
  | some value => simp [hlater]

/-- **Later wins, field by field.** -/
theorem mergeAll_eq (changes : List Change) :
    mergeAll changes =
      { powerOn := latest Change.powerOn changes
        mode := latest Change.mode changes
        targetTemperature := latest Change.targetTemperature changes
        fanSpeed := latest Change.fanSpeed changes
        swingMode := latest Change.swingMode changes
        eco := latest Change.eco changes
        turbo := latest Change.turbo changes
        beep := latest Change.beep changes } := by
  induction changes using List.reverseRecOn with
  | nil => rfl
  | append_singleton changes later ih =>
      rw [mergeAll_append, ih]
      simp only [Change.merge, latest_append]

end BreezeDevice
