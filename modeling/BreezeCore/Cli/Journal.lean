import BreezeCore.Cli.ProxyConf
import BreezeCore.Lib.Actions

/-!
# The wizard's journal

`breeze-core proxy` keeps a journal of what it changed while it runs, saves it as the
last thing it does, and plays it backwards with `--undo`.

What the machine does with a file operation, a command or a question is listed in
advance; a list that runs out brings success, and no more input.  `standing` and
`exchanges` are bookkeeping: the changes made and not taken back, and everything the
machine was asked to do, with what it did.
-/

namespace BreezeCli

open Text Net Actions

/-- One change made, kept so it can be played backwards. -/
inductive Step where
  | created (path : String)
  | replaced (path backup : String)
  /-- A command whose effect another command reverses. -/
  | ran (command undo : List String)
  deriving DecidableEq, Repr

/-- What was changed, for undoing it. -/
structure Journal where
  server : Option Kind := none
  domain : String := ""
  steps : List Step := []
  deriving DecidableEq, Repr

/-- The package manager. -/
inductive Pm where
  | apt
  | dnf
  | pacman
  | apk
  | zypper
  deriving DecidableEq, Repr

/-- What is on the machine. -/
structure Disk where
  files : String → Option String
  isDir : String → Bool := fun _ => false
  onPath : String → Bool := fun _ => false

/-- One file is written, or removed. -/
def Disk.put (disk : Disk) (path : String) (content : Option String) : Disk :=
  { disk with files := fun p => if p = path then content else disk.files p }

/-- How a file operation goes.  A failure may leave some text in the file being written. -/
inductive IoFate where
  | done
  | failed (e : String) (left : Option String)
  deriving DecidableEq, Repr

/-- What becomes of a command. -/
inductive CommandFate where
  | notStarted (e : String)
  | exited (success : Bool) (status : String)
  deriving DecidableEq, Repr

/-- What a question gets from the terminal. -/
inductive Typed where
  | line (text : Str)
  | eof
  | failed (e : String)
  deriving DecidableEq, Repr

/-- The file operations. -/
inductive FileOp where
  | write
  /-- Create a directory, with those it is in. -/
  | makeDir
  | remove
  deriving DecidableEq, Repr

/-- What the machine was asked to do, and what it did. -/
inductive Exchange where
  | file (op : FileOp) (path : String) (fate : IoFate)
  | ran (command : List String) (fate : CommandFate)
  | typed (typed : Typed)
  deriving DecidableEq, Repr

/-- The machine: its files and settings, and what will become of everything it is asked to do. The
fates of its operations, commands and questions are lists that are used up in order. -/
structure Host where
  disk : Disk
  isRoot : Bool := true
  /-- Where Breeze Core keeps its own settings. -/
  configDir : String := "/etc/breeze-core"
  /-- The journal file, as it reads. -/
  saved : Option (Except String Journal) := none
  answers : List Typed := []
  commands : List CommandFate := []
  io : List IoFate := []
  /-- The web servers that are installed. -/
  installed : Kind → Bool := fun _ => false
  /-- What the package manager and certbot do to the disk. -/
  packages : Disk → Disk := id
  certbot : Disk → Disk := id
  /-- What the name resolves to, each time it is asked. -/
  lookups : List (List IpAddr) := []
  publicIp : Option IpAddr := none
  dryRun : Bool := false
  /-- What this run has changed, as it knows. -/
  journal : Journal := {}
  pm : Option Pm := none
  standing : List Step := []
  exchanges : List Exchange := []

/-- What the command does: it changes the machine, and may stop with an error. -/
abbrev Wizard (α : Type) := Action Host String α

variable {α : Type}

/-- Stop with an error. -/
def stop (e : String) : Wizard α := raise e

/-- The machine did something it was asked to do. -/
def Host.tell (x : Exchange) (host : Host) : Host :=
  { host with exchanges := host.exchanges ++ [x] }

/-- The fate of the next file operation is used up. -/
def Host.spend (host : Host) (op : FileOp) (path : String) : Host :=
  { host with io := host.io.tail }.tell (.file op path (host.io.headD .done))

/-- The next file operation has the next fate of its list; one that is not listed is done. -/
def nextIo (op : FileOp) (path : String) : Wizard IoFate := fun host =>
  (.ok (host.io.headD .done), host.spend op path)

/-- How a command ends when nothing else is said. -/
def succeeds : CommandFate := .exited true "exit status: 0"

/-- The fate of the next command is used up. -/
def Host.spendCommand (host : Host) (command : List String) : Host :=
  { host with commands := host.commands.tail }.tell (.ran command (host.commands.headD succeeds))

/-- The next command has the next fate of its own; one that is not listed succeeds. -/
def nextCommand (command : List String) : Wizard CommandFate := fun host =>
  (.ok (host.commands.headD succeeds), host.spendCommand command)

/-- One file is changed, and nothing else. -/
def Host.put (host : Host) (path : String) (content : Option String) : Host :=
  { host with disk := host.disk.put path content }

/-- A change was made. -/
def Host.stand (step : Step) (host : Host) : Host :=
  { host with standing := host.standing ++ [step] }

/-- A change was taken back. -/
def Host.settle (step : Step) (host : Host) : Host :=
  { host with standing := host.standing.erase step }

/-- Keep a change in the journal. -/
def Host.record (step : Step) (host : Host) : Host :=
  { host with journal := { host.journal with steps := host.journal.steps ++ [step] } }

/-! ## File operations and commands -/

/-- Write a file, and note it when anything was written. -/
def put (path text : String) (note : Host → Host) (report : String → String) : Wizard Unit := do
  match ← nextIo .write path with
  | .done => modify fun host => note (host.put path (some text))
  | .failed e none => stop (report e)
  | .failed e (some left) => do
      modify fun host => note (host.put path (some left))
      stop (report e)

/-- The error of a file that is not there. -/
def NOT_FOUND : String := "No such file or directory (os error 2)"

/-- A file is put elsewhere too, unless there is none. -/
def copy (source target : String) (note : Host → Host) (report : String → String) :
    Wizard Unit := do
  let host ← get
  match host.disk.files source with
  | none => stop (report NOT_FOUND)
  | some text => put target text note report

/-- Remove a file.  One that is not there is removed already. -/
def remove (path : String) (report : String → String) : Wizard Unit := do
  match ← nextIo .remove path with
  | .done => modify fun host => host.put path none
  | .failed e _ => stop (report e)

/-- The directory a file is in. -/
def parent (path : String) : String :=
  match path.toList.reverse.dropWhile (· ≠ '/') with
  | [] => ""
  | [_] => "/"
  | _ :: front => String.ofList front.reverse

/-- `create_dir_all`, for the directory of a file. -/
def createParent (path : String) : Wizard Unit := do
  match ← nextIo .makeDir (parent path) with
  | .done => pure ()
  | .failed e _ => stop ("cannot create " ++ parent path ++ ": " ++ e)

/-- What a file is copied to before it is replaced. -/
def backupOf (path : String) : String := path ++ ".before-breeze-proxy"

/-- Where the copy of a file is kept. -/
theorem backupOf_toList (path : String) :
    (backupOf path).toList = path.toList ++ ".before-breeze-proxy".toList :=
  String.toList_append

/-- The name is longer. -/
theorem length_backupOf (path : String) : path.length < (backupOf path).length := by
  rw [← String.length_toList, ← String.length_toList, backupOf_toList, List.length_append]
  have hmark : ".before-breeze-proxy".toList.length = 20 := by decide
  omega

/-- The backup of a file is another file. -/
theorem backupOf_ne (path : String) : backupOf path ≠ path := by
  intro h
  have hlength := length_backupOf path
  rw [h] at hlength
  exact lt_irrefl _ hlength

/-- Write a file, backing up whatever it replaces, and record it. A new file is recorded in front
of the write, and one that is replaced behind its copy. -/
def writeFile (path text : String) : Wizard Unit := do
  let host ← get
  let cannotWrite := fun e => "cannot write " ++ path ++ ": " ++ e
  if host.dryRun then pure ()
  else if (host.disk.files path).isSome then do
    let step := Step.replaced path (backupOf path)
    copy path (backupOf path) (Host.stand step) fun e => "cannot back up " ++ path ++ ": " ++ e
    modify (Host.record step)
    createParent path
    put path text id cannotWrite
  else do
    let step := Step.created path
    modify (Host.record step)
    createParent path
    put path text (Host.stand step) cannotWrite

/-- Run a command.  Returns whether it succeeded; when it is required, a failure is an
error. -/
def runCmd (command : List String) (required : Bool) : Wizard Bool := do
  let host ← get
  if host.dryRun then pure true
  else
    match ← nextCommand command with
    | .notStarted e => stop ("cannot run " ++ command.headD "" ++ ": " ++ e)
    | .exited success status =>
        if !success && required then
          stop ("`" ++ " ".intercalate command ++ "` failed (" ++ status ++ ")")
        else pure success

/-! ## The journal -/

/-- Where the journal is kept. -/
def Host.journalPath (host : Host) : String := host.configDir ++ "/proxy-undo.json"

/-- Write the journal, unless there is nothing in it or nothing was really done. -/
def saveJournal : Wizard Unit := do
  let host ← get
  if host.dryRun || host.journal.steps.isEmpty then pure ()
  else
    match ← nextIo .write host.journalPath with
    | .done => modify fun host => { host with saved := some (.ok host.journal) }
    | .failed e none => stop ("cannot write " ++ host.journalPath ++ ": " ++ e)
    | .failed e (some left) => do
        modify fun host => { host with saved := some (.error left) }
        stop ("cannot write " ++ host.journalPath ++ ": " ++ e)

/-- Take one step back. A file that was replaced gets its copy back, and then the copy is removed;
a command has another one that undoes it. -/
def reverse (step : Step) : Wizard Unit := do
  let host ← get
  match step with
  | .created path =>
      if host.dryRun then pure ()
      else do
        remove path fun e => "cannot remove " ++ path ++ ": " ++ e
        modify (Host.settle step)
  | .replaced path backup =>
      if host.dryRun then pure ()
      else do
        copy backup path id fun e => "cannot restore " ++ path ++ ": " ++ e
        remove backup id
        modify (Host.settle step)
  | .ran _ undo => do
      if ← runCmd undo false then modify (Host.settle step)
      else pure ()

/-- Take back the changes of a run that stopped partway, in reverse. -/
def rollback : Wizard Unit := do
  let host ← get
  modify fun host => { host with journal := { host.journal with steps := [] } }
  host.journal.steps.reverse.forM reverse

end BreezeCli
