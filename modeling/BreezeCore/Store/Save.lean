import BreezeCore.Lib.Files
import BreezeCore.Lib.Text
import Mathlib.Data.List.TakeDrop

/-!
# Saving a store file

`save` writes a temporary file beside the store file and renames it into place.
After the rename it sets the permission bits once more, and a failure there is
reported although the new document is in place.

* `save_truthful_iff` — a save is all or nothing, and its error means that the old
  document is still there, exactly when it is not halted at one of a few points.
-/

namespace BreezeStore

open Bytes Text Files

/-- Which permissions a store file carries. -/
inductive Mode where
  /-- Owner read and write, group read. -/
  | adminReadable
  /-- Owner only. -/
  | private_
  deriving DecidableEq, Repr

def Mode.bits : Mode → Nat
  | .adminReadable => 0o640
  | .private_ => 0o600

/-- A component of a path. -/
inductive Component where
  | rootDir
  | curDir
  | parentDir
  | normal (name : Str)
  deriving DecidableEq, Repr

abbrev Path := List Component

/-- The path without its final component. -/
def Path.parent (path : Path) : Option Path :=
  match path.getLast? with
  | none | some .rootDir => none
  | some _ => some path.dropLast

/-- The final component, when it is the name of a file. -/
def Path.fileName (path : Path) : Option Str :=
  match path.getLast? with
  | some (.normal name) => some name
  | _ => none

/-- A file name without what follows its last dot.  A dot at the very front does
not count. -/
def fileStem (name : Str) : Str :=
  match (name.reverse.dropWhile (· ≠ '.')).drop 1 with
  | [] => name
  | before => before.reverse

/-- The path with another extension; unchanged when there is no file name. -/
def Path.withExtension (path : Path) (extension : String) : Path :=
  match path.fileName with
  | none => path
  | some name => path.dropLast ++ [.normal (fileStem name ++ '.' :: extension.toList)]

inductive StoreError where
  /-- Something went wrong reaching the file. -/
  | io (path : Path) (source : String)
  /-- The document could not be written as JSON, or read from it. -/
  | parse (path : Path) (source : String)
  deriving DecidableEq, Repr

/-- What happens to the operations on the file system: their errors are texts. -/
abbrev Fates := List (Fate String)

abbrev StoreM (α : Type) := FileM Path String StoreError α

def setMode (path : Path) (mode : Mode) : StoreM Unit :=
  perform (.io path) (.setMode path mode.bits)

/-- Write a store file with the right permissions.  `toJson` is the JSON library. The text is
written to a file beside it, which is then renamed over the old one. -/
def save {T : Type} (toJson : T → Except String Str) (path : Path) (value : T) (mode : Mode) :
    StoreM Unit := do
  match path.parent with
  | some parent => perform (.io parent) (.createDirAll parent)
  | none => pure ()
  match toJson value with
  | .error source => raise (.parse path source)
  | .ok text =>
      let tmp := path.withExtension "tmp"
      perform (.io tmp) (.write tmp (toUtf8 text))
      setMode tmp mode
      perform (.io path) (.rename tmp path)
      setMode path mode

example : Path.withExtension [.rootDir, .normal "devices.json".toList] "tmp" =
    [.rootDir, .normal "devices.tmp".toList] := by decide

/-! ## The operations of a save -/

/-- The directory the file is in is made first. -/
def parentStep (path : Path) : List ((String → StoreError) × Files.Op Path) :=
  match path.parent with
  | some parent => [(.io parent, .createDirAll parent)]
  | none => []

/-- What follows, once the document is text. -/
def saveSteps (path tmp : Path) (data : Octets) (mode : Mode) :
    List ((String → StoreError) × Files.Op Path) :=
  [(.io tmp, .write tmp data), (.io tmp, .setMode tmp mode.bits),
    (.io path, .rename tmp path), (.io path, .setMode path mode.bits)]

/-- The operations of a save. -/
def allSteps (path : Path) (data : Octets) (mode : Mode) :
    List ((String → StoreError) × Files.Op Path) :=
  parentStep path ++ saveSteps path (path.withExtension "tmp") data mode

variable {T : Type} {toJson : T → Except String Str}

/-- A save is its operations, one after the other. Making the directory comes first where there is
one, and setting the mode of the document last. -/
theorem save_ok {path : Path} {value : T} {mode : Mode} {text : Str}
    (h : toJson value = .ok text) :
    save toJson path value mode =
      performAll (allSteps path (toUtf8 text) mode) := by
  have hsteps : performAll (saveSteps path (path.withExtension "tmp") (toUtf8 text) mode) = (do
      perform (.io (path.withExtension "tmp")) (.write (path.withExtension "tmp") (toUtf8 text))
      setMode (path.withExtension "tmp") mode
      perform (.io path) (.rename (path.withExtension "tmp") path)
      performAll [(.io path, .setMode path mode.bits)]) := rfl
  rw [performAll_single] at hsteps
  unfold save allSteps parentStep
  rw [h]
  cases path.parent with
  | none => exact hsteps.symm
  | some parent =>
      have hall : performAll ([(.io parent, .createDirAll parent)] ++
          saveSteps path (path.withExtension "tmp") (toUtf8 text) mode) = (do
            perform (.io parent) (.createDirAll parent)
            performAll (saveSteps path (path.withExtension "tmp") (toUtf8 text) mode)) := rfl
      dsimp only
      rw [hall, hsteps]
      rfl

/-- A document that does not become text is not saved. -/
theorem save_error {path : Path} {value : T} {mode : Mode} {source : String}
    (h : toJson value = .error source) :
    save toJson path value mode = (do
      performAll (parentStep path)
      raise (.parse path source)) := by
  unfold save parentStep
  rw [h]
  cases path.parent with
  | none => rfl
  | some parent =>
      dsimp only
      rw [performAll_single]

/-! ## What a save promises -/

/-- The file at the path before and after a save of some data, if there is data. -/
structure Truthful (path : Path) (data : Option Octets) (before : Disk Path)
    (result : Except (Halt StoreError) Unit × World Path String) : Prop where
  /-- The file is the complete old document or the complete new one. -/
  whole : result.2.disk.content path = before.content path ∨
    (data ≠ none ∧ result.2.disk.content path = data)
  /-- A save that succeeds has stored the new one. -/
  stored : result.1 = .ok () → data ≠ none ∧ result.2.disk.content path = data
  /-- A save that fails has left the old one. -/
  kept : ∀ e, result.1 = .error (.failed e) → result.2.disk.content path = before.content path

/-- The operation that is not done, if there is one, is not one that leaves another
document than the answer says. -/
def Harmless (path : Path) (old : Option Octets) (data : Octets) :
    Option (Files.Op Path × Fate String) → Prop
  | some (.write tmp _, .failed _ (some n)) => tmp = path → old = some (data.take n)
  | some (.write tmp _, .stopped (some n)) =>
      tmp = path → old = some (data.take n) ∨ data.length ≤ n
  | some (.setMode p _, .failed _ _) => p = path → old = some data
  | some (.rename tmp p, .failed _ _) => tmp = p → old = some data
  | _ => True

section

variable {path tmp : Path} {data : Octets} {before : Disk Path} {world : World Path String}

/-- A failure has to leave the old document. -/
theorem truthful_failed {e : StoreError} {fates : Fates} {disk : Disk Path} :
    Truthful path (some data) before (.error (.failed e), { disk := disk, fates := fates }) ↔
      disk.content path = before.content path := by
  constructor
  · intro h
    exact h.kept e rfl
  · intro hold
    exact ⟨Or.inl hold, nofun, fun _ _ => hold⟩

/-- A stop has to leave one of the two. -/
theorem truthful_stopped {fates : Fates} {disk : Disk Path} :
    Truthful path (some data) before (.error .stopped, { disk := disk, fates := fates }) ↔
      disk.content path = before.content path ∨ disk.content path = some data := by
  constructor
  · intro h
    exact h.whole.imp_right And.right
  · intro hwhole
    exact ⟨hwhole.imp_right fun hnew => ⟨nofun, hnew⟩, nofun, nofun⟩

/-- After the rename. -/
theorem setMode_iff (mode : Mode) (hnew : world.disk.content path = some data) :
    Truthful path (some data) before
        (performAll [(StoreError.io path, .setMode path mode.bits)] world) ↔
      Harmless path (before.content path) data
        (firstHalt [(StoreError.io path, .setMode path mode.bits)] world.fates) := by
  rcases performAll_cases (StoreError.io path) (.setMode path mode.bits) [] world with
    ⟨fates, hhalt, hrun⟩ | ⟨e, written, fates, hhalt, hrun⟩ | ⟨written, fates, hhalt, hrun⟩
  · rw [hhalt, hrun]
    exact iff_of_true ⟨Or.inr ⟨nofun, hnew⟩, fun _ => ⟨nofun, hnew⟩, nofun⟩ trivial
  · rw [hhalt, hrun, truthful_failed]
    have hcut : (Op.cut world.disk written (.setMode path mode.bits)).content path = some data :=
      hnew
    rw [hcut]
    exact ⟨fun h _ => h.symm, fun h => (h rfl).symm⟩
  · rw [hhalt, hrun, truthful_stopped]
    exact iff_of_true (Or.inr hnew) trivial

/-- Once the temporary file is written: it may be the store file itself. -/
structure Written (path tmp : Path) (data : Octets) (before disk : Disk Path) : Prop where
  new : disk.content tmp = some data
  old : tmp ≠ path → disk.content path = before.content path

/-- An operation that fails now is harmless when the store file has not changed. -/
theorem Written.kept_iff {disk : Disk Path} (h : Written path tmp data before disk) :
    disk.content path = before.content path ↔ (tmp = path → before.content path = some data) := by
  by_cases hsame : tmp = path
  · subst hsame
    rw [h.new]
    exact ⟨fun heq _ => heq.symm, fun heq => (heq rfl).symm⟩
  · exact iff_of_true (h.old hsame) fun heq => absurd heq hsame

theorem Written.whole {disk : Disk Path} (h : Written path tmp data before disk) :
    disk.content path = before.content path ∨ disk.content path = some data := by
  by_cases hsame : tmp = path
  · subst hsame
    exact Or.inr h.new
  · exact Or.inl (h.old hsame)

/-- The rename puts the new document in place. -/
theorem rename_iff (mode : Mode) (hwritten : Written path tmp data before world.disk) :
    Truthful path (some data) before
        (performAll [(StoreError.io path, .rename tmp path),
          (StoreError.io path, .setMode path mode.bits)] world) ↔
      Harmless path (before.content path) data
        (firstHalt [(StoreError.io path, .rename tmp path),
          (StoreError.io path, .setMode path mode.bits)] world.fates) := by
  rcases performAll_cases (StoreError.io path) (.rename tmp path) _ world with
    ⟨fates, hhalt, hrun⟩ | ⟨e, written, fates, hhalt, hrun⟩ | ⟨written, fates, hhalt, hrun⟩
  · rw [hhalt, hrun]
    exact setMode_iff mode ((rename_content _ _ _).trans hwritten.new)
  · rw [hhalt, hrun, truthful_failed]
    exact hwritten.kept_iff
  · rw [hhalt, hrun, truthful_stopped]
    exact iff_of_true hwritten.whole trivial

/-- Before the rename, with the temporary file written. -/
theorem setModeTmp_iff (mode : Mode) (hwritten : Written path tmp data before world.disk) :
    Truthful path (some data) before
        (performAll ((StoreError.io tmp, .setMode tmp mode.bits) ::
          [(StoreError.io path, .rename tmp path),
            (StoreError.io path, .setMode path mode.bits)]) world) ↔
      Harmless path (before.content path) data
        (firstHalt ((StoreError.io tmp, .setMode tmp mode.bits) ::
          [(StoreError.io path, .rename tmp path),
            (StoreError.io path, .setMode path mode.bits)]) world.fates) := by
  rcases performAll_cases (StoreError.io tmp) (.setMode tmp mode.bits)
      [(StoreError.io path, .rename tmp path), (StoreError.io path, .setMode path mode.bits)]
      world with
    ⟨fates, hhalt, hrun⟩ | ⟨e, written, fates, hhalt, hrun⟩ | ⟨written, fates, hhalt, hrun⟩
  · rw [hhalt, hrun]
    exact rename_iff mode ⟨hwritten.new, hwritten.old⟩
  · rw [hhalt, hrun, truthful_failed]
    exact hwritten.kept_iff
  · rw [hhalt, hrun, truthful_stopped]
    exact iff_of_true hwritten.whole trivial

/-- From the start: only a write to the store file itself can leave a part of a
document. -/
theorem saveSteps_iff (path tmp : Path) (data : Octets) (mode : Mode) (world : World Path String)
    (hbefore : world.disk.content path = before.content path) :
    Truthful path (some data) before (performAll (saveSteps path tmp data mode) world) ↔
      Harmless path (before.content path) data
        (firstHalt (saveSteps path tmp data mode) world.fates) := by
  unfold saveSteps
  rcases performAll_cases (StoreError.io tmp) (.write tmp data) _ world with
    ⟨fates, hhalt, hrun⟩ | ⟨e, written, fates, hhalt, hrun⟩ | ⟨written, fates, hhalt, hrun⟩
  · rw [hhalt, hrun]
    refine setModeTmp_iff mode ⟨Disk.put_content_self _ _ _, ?_⟩
    intro hother
    exact (Disk.put_content_of_ne _ _ (Ne.symm hother)).trans hbefore
  · rw [hhalt, hrun, truthful_failed]
    cases written with
    | none => exact iff_of_true hbefore trivial
    | some n =>
        unfold Op.cut Harmless
        dsimp only
        by_cases hsame : tmp = path
        · rw [hsame, Disk.put_content_self]
          exact ⟨fun h _ => h.symm, fun h => (h rfl).symm⟩
        · rw [Disk.put_content_of_ne _ _ (Ne.symm hsame)]
          exact iff_of_true hbefore fun heq => absurd heq hsame
  · rw [hhalt, hrun, truthful_stopped]
    cases written with
    | none => exact iff_of_true (Or.inl hbefore) trivial
    | some n =>
        unfold Op.cut Harmless
        dsimp only
        by_cases hsame : tmp = path
        · have hcomplete : data.take n = data ↔ data.length ≤ n := List.take_eq_self_iff data
          rw [hsame, Disk.put_content_self, Option.some.injEq, hcomplete]
          exact ⟨fun h _ => h.imp_left Eq.symm, fun h => (h rfl).imp_left Eq.symm⟩
        · rw [Disk.put_content_of_ne _ _ (Ne.symm hsame)]
          exact iff_of_true (Or.inl hbefore) fun heq => absurd heq hsame

end

/-- The directory is made first, and the document is not touched by that. Where making it fails,
nothing else is done. -/
theorem allSteps_iff (path : Path) (data : Octets) (mode : Mode) (world : World Path String) :
    Truthful path (some data) world.disk (performAll (allSteps path data mode) world) ↔
      Harmless path (world.disk.content path) data
        (firstHalt (allSteps path data mode) world.fates) := by
  unfold allSteps parentStep
  cases path.parent with
  | none => exact saveSteps_iff path _ _ mode world rfl
  | some parent =>
      have hcons : [(StoreError.io parent, Files.Op.createDirAll parent)] ++
          saveSteps path (path.withExtension "tmp") data mode =
          (StoreError.io parent, .createDirAll parent) ::
            saveSteps path (path.withExtension "tmp") data mode := rfl
      dsimp only
      rw [hcons]
      rcases performAll_cases (StoreError.io parent) (.createDirAll parent)
          (saveSteps path (path.withExtension "tmp") data mode) world with
        ⟨fates, hhalt, hrun⟩ | ⟨e, written, fates, hhalt, hrun⟩ | ⟨written, fates, hhalt, hrun⟩
      · rw [hhalt, hrun]
        exact saveSteps_iff path _ _ mode _ rfl
      · rw [hhalt, hrun]
        exact iff_of_true (truthful_failed.mpr rfl) trivial
      · rw [hhalt, hrun]
        exact iff_of_true (truthful_stopped.mpr (Or.inl rfl)) trivial

/-- **All or nothing.**  A save leaves the complete old or the complete new document,
and says truthfully which, exactly when it is not halted where that does harm: an
operation that fails after the rename, or, when the temporary file is the store file
itself, after any of the document was written. -/
theorem save_truthful_iff (path : Path) (value : T) (mode : Mode) (world : World Path String) :
    Truthful path ((toJson value).toOption.map toUtf8) world.disk
        (save toJson path value mode world) ↔
      ∀ text, toJson value = .ok text →
        Harmless path (world.disk.content path) (toUtf8 text)
          (firstHalt (allSteps path (toUtf8 text) mode) world.fates) := by
  cases htext : toJson value with
  | error source =>
      refine iff_of_true ?_ (fun text h => by cases h)
      rw [save_error htext]
      unfold parentStep
      cases path.parent with
      | none => exact ⟨Or.inl rfl, nofun, fun _ _ => rfl⟩
      | some parent =>
          rcases performAll_cases (StoreError.io parent) (.createDirAll parent) [] world with
            ⟨fates, -, hrun⟩ | ⟨e, written, fates, -, hrun⟩ | ⟨written, fates, -, hrun⟩
          · rw [bind_ok (a := ()) hrun]
            exact ⟨Or.inl rfl, nofun, fun _ _ => rfl⟩
          · rw [bind_error hrun]
            exact ⟨Or.inl rfl, nofun, fun _ _ => rfl⟩
          · rw [bind_error hrun]
            exact ⟨Or.inl rfl, nofun, fun _ _ => rfl⟩
  | ok text =>
      rw [save_ok htext]
      constructor
      · intro h text' heq
        obtain rfl := Except.ok.inj heq
        exact (allSteps_iff path (toUtf8 text) mode world).mp h
      · intro h
        exact (allSteps_iff path (toUtf8 text) mode world).mpr (h text rfl)

/-! ## What callers see -/

/-- What came of a save: its answer, with the error in words, and whether the new
document is on the disk. -/
structure Saved where
  result : Except String Unit
  replaced : Bool
  stored : result = .ok () → replaced = true

def Saved.done : Saved := ⟨.ok (), true, fun _ => rfl⟩

/-- A save that fails before the file is replaced. -/
def Saved.diskFull : Saved := ⟨.error "disk full", false, nofun⟩

/-- The document on the disk after a save. -/
def Saved.onDisk {D : Type} (saved : Saved) (old new : D) : D := if saved.replaced then new else old

/-! ## The last step -/

def devicesJson : Path := [.rootDir, .normal "devices.json".toList]

/-- A file system with a store file, on which everything works but setting the
permission bits of the store file. -/
def lastStepFails : World Path String where
  disk := ⟨fun p => if p = devicesJson then some [0x7b, 0x7d] else none, fun _ => none, []⟩
  fates := [.done, .done, .done, .done, .failed "Operation not permitted" none]

/-- The error of a save that has already replaced the file. -/
theorem replaced_and_failed :
    ¬ Truthful devicesJson (some [0x5b, 0x5d]) lastStepFails.disk
      (save (T := Str) .ok devicesJson "[]".toList .private_ lastStepFails) := by
  intro h
  have herror : (save (T := Str) .ok devicesJson "[]".toList .private_ lastStepFails).1 =
      .error (.failed (.io devicesJson "Operation not permitted")) := by decide +kernel
  have hnew : (save (T := Str) .ok devicesJson "[]".toList .private_ lastStepFails).2.disk.content
      devicesJson = some [0x5b, 0x5d] := by decide +kernel
  have hold := h.kept _ herror
  rw [hnew] at hold
  revert hold
  decide

end BreezeStore
