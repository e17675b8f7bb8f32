import BreezeCore.Device.Manager

/-!
# Merging is composition

Laying two merged changes over a setpoint writes the settings that laying one
and then the other would, so `Change.merge` is associative and the change that
sets nothing is its identity.  A batch is then a `Folding` of its requests, and
whatever its shape, the command sent for it holds the settings of the requests
applied one after the other.  The chirp alone is not a setting of the unit: it
follows the last request that mentions it.
-/

namespace BreezeDevice

open Ac

/-! ## One field -/

/-- Nothing is taken from nothing. -/
theorem take_none {α : Type} (slot : Option α) : take slot none = slot := by
  simp [take]

/-- What is there is taken. -/
theorem none_take {α : Type} (later : Option α) : take none later = later := by
  simp [take]

/-- The last that is there counts, however they are put together. -/
theorem take_assoc {α : Type} (a b c : Option α) : take (take a b) c = take a (take b c) := by
  cases c with
  | none => rw [take_none, take_none]
  | some value => rfl

/-- Taking the later value is writing both, the later one last. -/
theorem take_getD {α : Type} (slot later : Option α) (value : α) :
    (take slot later).getD value = later.getD (slot.getD value) := by
  cases later with
  | none => rw [take_none, Option.getD_none]
  | some value => rfl

/-! ## All of them -/

/-- So changes can be merged in any grouping. -/
theorem Change.merge_assoc (a b c : Change) : (a.merge b).merge c = a.merge (b.merge c) := by
  simp only [Change.merge, take_assoc]

/-- A change that asks for nothing, behind. -/
theorem Change.merge_empty (a : Change) : a.merge {} = a := by
  simp only [Change.merge, take_none]

/-- The empty change in front of another one makes no difference. -/
theorem Change.empty_merge (a : Change) : Change.merge {} a = a := by
  simp only [Change.merge, none_take]

/-- Every setting of a setpoint, the chirp left out. -/
def quiet (s : Setpoint) : Setpoint := { s with beep := false }

/-- The settings a change writes depend on the settings alone. -/
theorem Change.applyTo_congr {s t : Setpoint} (h : quiet s = quiet t) (c : Change) :
    c.applyTo s = c.applyTo t := by
  simp only [quiet, Setpoint.mk.injEq] at h
  simp only [Change.applyTo, Setpoint.mk.injEq]
  simp [h]

/-- It changes nothing but the beep. -/
theorem Change.applyTo_empty (s : Setpoint) : quiet (Change.applyTo {} s) = quiet s := rfl

/-- The two hand-written lists of fields agree: none is forgotten in either. -/
theorem Change.applyTo_merge (a b : Change) (s : Setpoint) :
    quiet ((a.merge b).applyTo s) = quiet (b.applyTo (a.applyTo s)) := by
  simp only [quiet, Change.applyTo, Change.merge, take_getD]

/-! ## Any number of requests -/

/-- The changes of a batch laid over a setpoint, one after the other. -/
def applyInOrder (changes : List Change) (s : Setpoint) : Setpoint :=
  changes.foldl (fun s c => c.applyTo s) s

/-- Applying the merged change is applying all of them in order, but for the beep. -/
theorem mergeAll_applyTo (changes : List Change) (s : Setpoint) :
    quiet ((mergeAll changes).applyTo s) = quiet (applyInOrder changes s) := by
  induction changes using List.reverseRecOn with
  | nil => exact Change.applyTo_empty s
  | append_singleton changes later ih =>
      calc quiet ((mergeAll (changes ++ [later])).applyTo s)
          = quiet (later.applyTo ((mergeAll changes).applyTo s)) := by
            rw [mergeAll_append, Change.applyTo_merge]
        _ = quiet (later.applyTo (applyInOrder changes s)) := by rw [Change.applyTo_congr ih]
        _ = quiet (applyInOrder (changes ++ [later]) s) := by
            rw [applyInOrder, applyInOrder, List.foldl_append]; rfl

/-- Two lists of changes merge to the merge of both. -/
theorem mergeAll_concat (first second : List Change) :
    mergeAll (first ++ second) = (mergeAll first).merge (mergeAll second) := by
  induction second using List.reverseRecOn with
  | nil => rw [List.append_nil]; exact (Change.merge_empty _).symm
  | append_singleton second later ih =>
      rw [← List.append_assoc, mergeAll_append, mergeAll_append, ih, Change.merge_assoc]

/-- One way to fold the requests of a batch together. -/
inductive Folding where
  | nothing
  | one (request : Change)
  | both (earlier later : Folding)

/-- The requests it folds, in order of arrival. -/
def Folding.requests : Folding → List Change
  | .nothing => []
  | .one request => [request]
  | .both earlier later => earlier.requests ++ later.requests

/-- The change it folds them into. -/
def Folding.merged : Folding → Change
  | .nothing => {}
  | .one request => request
  | .both earlier later => earlier.merged.merge later.merged

/-- How a batch was folded leaves no trace. -/
theorem Folding.merged_eq (f : Folding) : f.merged = mergeAll f.requests := by
  induction f with
  | nothing => rfl
  | one request => exact (Change.empty_merge request).symm
  | both earlier later ihEarlier ihLater =>
      rw [Folding.merged, Folding.requests, ihEarlier, ihLater, mergeAll_concat]

/-- The beep is what the last change asked for. -/
theorem mergeAll_beep (changes : List Change) (s : Setpoint) :
    ((mergeAll changes).applyTo s).beep = (latest Change.beep changes).getD false := by
  rw [mergeAll_eq]
  rfl

/-- The setpoint holds the settings of a batch applied in order to `base`, and its
chirp. -/
def Carries (requests : List Change) (base : State) (s : Setpoint) : Prop :=
  quiet s = quiet (applyInOrder requests (.fromState base)) ∧
    s.beep = (latest Change.beep requests).getD false

/-- However the requests are folded together, what is sent carries all of them. -/
theorem Folding.carries (f : Folding) (base : State) :
    Carries f.requests base (f.merged.applyTo (.fromState base)) := by
  rw [f.merged_eq]
  exact ⟨mergeAll_applyTo f.requests _, mergeAll_beep f.requests _⟩

/-- Whatever becomes of the command, all that is written for a batch besides state
queries carries the batch. -/
theorem sendChange_carries (f : Folding) (d : Device) (merged now : Nat) :
    ∃ written, (sendChange d f.merged merged now).2.sent = d.sent ++ written ∧
      ∀ bytes ∈ written, (∃ id, bytes = getState id .indoor) ∨
        ∃ base id s, BaseOf d now base ∧ Carries f.requests base s ∧ bytes = setState id s := by
  obtain ⟨written, hsent, reads, readId, controls, hwritten, hcontrols⟩ :=
    sendChange_wrote d f.merged merged now
  refine ⟨written, hsent, ?_⟩
  intro bytes hbytes
  rw [hwritten, List.mem_append] at hbytes
  rcases hbytes with hread | hcontrol
  · exact Or.inl ⟨readId, List.eq_of_mem_replicate hread⟩
  · rcases hcontrols with ⟨-, hnone⟩ | ⟨base, copies, id, hbase, hcopies⟩
    · rw [hnone] at hcontrol
      exact absurd hcontrol List.not_mem_nil
    · rw [hcopies] at hcontrol
      exact Or.inr ⟨base, id, _, hbase, f.carries base, List.eq_of_mem_replicate hcontrol⟩

/-- **Merging changes is composition.**  On every setting, a merged change is its
parts applied in order; merging is associative with the empty change as identity;
and whatever way a batch was folded, the command sent for it holds the settings of
its requests applied one after the other to the base.  The chirp is what the last
request to mention it says, and silence when none does. -/
theorem merge_composes :
    (∀ (s : Setpoint) (a b : Change),
      quiet ((a.merge b).applyTo s) = quiet (b.applyTo (a.applyTo s))) ∧
    (∀ a b c : Change, (a.merge b).merge c = a.merge (b.merge c)) ∧
    (∀ a : Change, a.merge {} = a ∧ Change.merge {} a = a) ∧
    (∀ s : Setpoint, quiet (Change.applyTo {} s) = quiet s) ∧
    (∀ (f : Folding) (s : Setpoint),
      quiet (f.merged.applyTo s) = quiet (applyInOrder f.requests s) ∧
      (f.merged.applyTo s).beep = (latest Change.beep f.requests).getD false) ∧
    (∀ f g : Folding, f.requests = g.requests → f.merged = g.merged) ∧
    ∀ (f : Folding) (d : Device) (merged now : Nat),
      (∀ o, (sendChange d f.merged merged now).1 = .ok o →
        Carries f.requests o.base o.sent) ∧
      ∃ written, (sendChange d f.merged merged now).2.sent = d.sent ++ written ∧
        ∀ bytes ∈ written, (∃ id, bytes = getState id .indoor) ∨
          ∃ base id s, BaseOf d now base ∧ Carries f.requests base s ∧
            bytes = setState id s := by
  refine ⟨fun s a b => a.applyTo_merge b s, Change.merge_assoc,
    fun a => ⟨a.merge_empty, a.empty_merge⟩, Change.applyTo_empty, ?_, ?_, ?_⟩
  · intro f s
    rw [f.merged_eq]
    exact ⟨mergeAll_applyTo f.requests s, mergeAll_beep f.requests s⟩
  · intro f g h
    rw [f.merged_eq, g.merged_eq, h]
  · intro f d merged now
    refine ⟨?_, sendChange_carries f d merged now⟩
    intro o hsend
    rw [(sendChange_built hsend).1.sent]
    exact f.carries o.base

end BreezeDevice
