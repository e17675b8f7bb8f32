import BreezeCore.Lib.Bytes

/-!
# Programs that change files

A program over a file system is a sequence of operations, each of which is done,
fails, or is cut short because the process stops.  What happens to them is given
beforehand, as a list of fates; a list that runs out stops the process.  Renaming
is atomic, and writing is not: when it fails or stops, any number of bytes may have
arrived.

`performAll_cases` says how a sequence of operations ends.
-/

namespace Files

open Bytes

variable {P E F α β : Type}

/-- Files by their path, with their permission bits, and the directories made. -/
structure Disk (P : Type) where
  content : P → Option Octets
  mode : P → Option Nat
  directories : List P

inductive Op (P : Type) where
  | createDirAll (dir : P)
  | write (path : P) (data : Octets)
  | setMode (path : P) (bits : Nat)
  | rename (source target : P)
  deriving DecidableEq, Repr

/-- What happens to an operation.  Of a write, `written` says how many bytes arrived,
`none` when the file was not even opened. -/
inductive Fate (E : Type) where
  | done
  | failed (e : E) (written : Option Nat)
  | stopped (written : Option Nat)
  deriving DecidableEq, Repr

/-- Why a program did not get to its end. -/
inductive Halt (F : Type) where
  | failed (e : F)
  | stopped
  deriving DecidableEq, Repr

/-- A file system and what is to happen on it. -/
structure World (P E : Type) where
  disk : Disk P
  fates : List (Fate E)

/-- A program over a file system, with the errors it reports. -/
def FileM (P E F α : Type) := World P E → Except (Halt F) α × World P E

instance : Monad (FileM P E F) where
  pure a := fun world => (.ok a, world)
  bind m f := fun world =>
    match m world with
    | (.ok a, world) => f a world
    | (.error halt, world) => (.error halt, world)

/-- Report an error without doing anything. -/
def raise (e : F) : FileM P E F α := fun world => (.error (.failed e), world)

/-- A program goes on from what its first part did. -/
theorem bind_ok {m : FileM P E F α} {f : α → FileM P E F β} {world world' : World P E} {a : α}
    (h : m world = (.ok a, world')) : (m >>= f) world = f a world' := by
  dsimp only [bind]
  rw [h]

/-- It ends where its first part ends. -/
theorem bind_error {m : FileM P E F α} {f : α → FileM P E F β} {world world' : World P E}
    {halt : Halt F} (h : m world = (.error halt, world')) :
    (m >>= f) world = (.error halt, world') := by
  dsimp only [bind]
  rw [h]

section Operations

variable [DecidableEq P]

def Disk.put (disk : Disk P) (path : P) (data : Option Octets) : Disk P :=
  { disk with content := fun p => if p = path then data else disk.content p }

@[simp] theorem Disk.put_content_self (disk : Disk P) (path : P) (data : Option Octets) :
    (disk.put path data).content path = data := if_pos rfl

theorem Disk.put_content_of_ne (disk : Disk P) {path p : P} (data : Option Octets) (h : p ≠ path) :
    (disk.put path data).content p = disk.content p := if_neg h

/-- What an operation does. -/
def Op.apply (disk : Disk P) : Op P → Disk P
  | .createDirAll dir => { disk with directories := dir :: disk.directories }
  | .write path data => disk.put path (some data)
  | .setMode path bits =>
      { disk with mode := fun p => if p = path then some bits else disk.mode p }
  | .rename source target =>
      if source = target then disk
      else
        let moved := (disk.put target (disk.content source)).put source none
        { moved with mode := fun p => if p = target then disk.mode source else disk.mode p }

/-- What it does when it is cut short. -/
def Op.cut (disk : Disk P) (written : Option Nat) : Op P → Disk P
  | .write path data =>
      match written with
      | none => disk
      | some n => disk.put path (some (data.take n))
  | _ => disk

/-- A renamed file is where it was renamed to. -/
theorem rename_content (disk : Disk P) (source target : P) :
    ((Op.rename source target).apply disk).content target = disk.content source := by
  unfold Op.apply
  dsimp only
  split
  next hsame => rw [hsame]
  next hother =>
    exact (Disk.put_content_of_ne _ none (Ne.symm hother)).trans (Disk.put_content_self _ _ _)

/-- Perform an operation, reporting its failure. -/
def perform (report : E → F) (op : Op P) : FileM P E F Unit := fun world =>
  match world.fates with
  | [] => (.error .stopped, world)
  | .done :: fates => (.ok (), { disk := op.apply world.disk, fates := fates })
  | .failed e written :: fates =>
      (.error (.failed (report e)), { disk := op.cut world.disk written, fates := fates })
  | .stopped written :: fates =>
      (.error .stopped, { disk := op.cut world.disk written, fates := fates })

/-- Perform operations one after the other, each with its report. -/
def performAll : List ((E → F) × Op P) → FileM P E F Unit
  | [] => pure ()
  | (report, op) :: steps => do
      perform report op
      performAll steps

/-- The first operation that is not done, and its fate. -/
def firstHalt : List ((E → F) × Op P) → List (Fate E) → Option (Op P × Fate E)
  | [], _ => none
  | step :: _, [] => some (step.2, .stopped none)
  | _ :: steps, .done :: fates => firstHalt steps fates
  | step :: _, .failed e written :: _ => some (step.2, .failed e written)
  | step :: _, .stopped written :: _ => some (step.2, .stopped written)

theorem performAll_single (report : E → F) (op : Op P) :
    performAll [(report, op)] = perform report op := by
  funext world
  have hsingle : performAll [(report, op)] = (perform report op >>= fun _ => pure ()) := rfl
  rw [hsingle]
  cases hend : perform report op world with
  | mk result world' =>
      cases result with
      | ok => exact bind_ok hend
      | error halt => exact bind_error hend

/-- **One operation.**  It is done, and the others follow; or it fails or is cut
short, and nothing follows. -/
theorem performAll_cases (report : E → F) (op : Op P) (steps : List ((E → F) × Op P))
    (world : World P E) :
    (∃ fates, firstHalt ((report, op) :: steps) world.fates = firstHalt steps fates ∧
      performAll ((report, op) :: steps) world =
        performAll steps { disk := op.apply world.disk, fates := fates }) ∨
    (∃ e written fates, firstHalt ((report, op) :: steps) world.fates =
        some (op, .failed e written) ∧
      performAll ((report, op) :: steps) world =
        (.error (.failed (report e)), { disk := op.cut world.disk written, fates := fates })) ∨
    ∃ written fates, firstHalt ((report, op) :: steps) world.fates =
        some (op, .stopped written) ∧
      performAll ((report, op) :: steps) world =
        (.error .stopped, { disk := op.cut world.disk written, fates := fates }) := by
  obtain ⟨disk, fates⟩ := world
  cases fates with
  | nil =>
      refine Or.inr (Or.inr ⟨none, [], rfl, ?_⟩)
      cases op <;> rfl
  | cons fate fates =>
      cases fate with
      | done => exact Or.inl ⟨fates, rfl, rfl⟩
      | failed e written => exact Or.inr (Or.inl ⟨e, written, fates, rfl, rfl⟩)
      | stopped written => exact Or.inr (Or.inr ⟨written, fates, rfl, rfl⟩)

end Operations

end Files
