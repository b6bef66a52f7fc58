import SchemaDiagram.Command.Help
import SchemaDiagram.Files.Basic
import SchemaDiagram.Files.Tree
import SchemaDiagram.Schema.Print
import SchemaDiagram.Schema.Json
import SchemaDiagram.Diagram.Inference
import SchemaDiagram.Diagram.Json
import SchemaDiagram.Edit.Relate
import SchemaDiagram.Json.Print

namespace SchemaDiagram

/-- Why a task ends early. -/
inductive Failure
  | refused (error : Error)
  | unreadable (path : Text) (error : FileError)
  | unwritable (path : Text) (error : FileError)
  | notCreated (path : Text) (error : FileError)
  deriving DecidableEq

def Failure.message : Failure → Text
  | .refused error => error.message
  | .unreadable path error => txt "Failed to read " ++ path ++ txt ": " ++ error.message
  | .unwritable path error => txt "Failed to write " ++ path ++ txt ": " ++ error.message
  | .notCreated path error => txt "Failed to create " ++ path ++ txt ": " ++ error.message

/-- What a task does with files. -/
structure FileAccess (m : Type → Type) where
  read : Text → m (Except FileError Text)
  write : Text → Text → m (Except FileError Unit)
  createPath : Text → m (Except FileError Unit)

/-- Files in a tree. Reading changes nothing, nor does writing where it fails. -/
def FileTree.access : FileAccess (StateM FileTree) where
  read path := fun tree => (tree.read path, tree)
  write path content := fun tree =>
    match tree.write path content with
    | .ok written => (.ok (), written)
    | .error e => (.error e, tree)
  createPath path := fun tree => tree.createPath path

/-- What a run leaves: its exit code, what it prints, and its error line. -/
structure Outcome where
  exitCode : Nat
  printed : Text := []
  error : Option Text := none
  deriving DecidableEq

def Failure.outcome : Failure → Outcome
  | .refused .brokenCharacter => { exitCode := 101 }
  | failure => { exitCode := 1, error := some (txt "Error: " ++ failure.message) }

section Tasks

variable {m : Type → Type} [Monad m] (files : FileAccess m)

def readSchema (path : Text) : ExceptT Failure m Text := do
  match ← files.read path with
  | .ok content => return content
  | .error e => throw (.unreadable path e)

def writeOutput (path content : Text) : ExceptT Failure m Unit := do
  match ← files.write path content with
  | .ok () => return ()
  | .error e => throw (.unwritable path e)

/-- Writes a result to its file, or else leaves it to be printed. -/
def emit (path : Option Text) (content : Text) : ExceptT Failure m Text :=
  match path with
  | some path => do
    writeOutput files path content
    return []
  | none => return content

def writeFiles (directory : Text) : List SchemaFile → ExceptT Failure m Unit
  | [] => return ()
  | f :: later => do
    writeOutput files (joinPath directory f.name) f.content
    writeFiles directory later

/-- Splits a schema into the files of a directory. Nothing is written unless every name is plain. -/
def runSplit (input directory : Text) : ExceptT Failure m Unit := do
  let parts := splitFiles (← readSchema files input)
  match checkNames parts with
  | .error e => throw (.refused e)
  | .ok () =>
    match ← files.createPath directory with
    | .error e => throw (.notCreated directory e)
    | .ok () => writeFiles files directory parts

/-- Carries out a task and gives what is to be printed. -/
def runTask (output : Option Text) : Task → ExceptT Failure m Text
  | .parse input => do
    let document := Document.parse (← readSchema files input)
    emit files output (document.toJson.print .pretty)
  | .diagram input => do
    let diagram := Diagram.ofDocument (Document.parse (← readSchema files input))
    emit files output (diagram.toJson.print .pretty)
  | .format input => do emit files output (formatSchema (← readSchema files input))
  | .relate input source target request inPlace => do
    let schema ← readSchema files input
    match (Connection.ofEndpoints source target).bind (addRelation schema · request) with
    | .error e => throw (.refused e)
    | .ok related => emit files (if inPlace then some input else output) related
  | .split input directory => do
    runSplit files input directory
    return []

def versionLine : Text := programName ++ txt " 0.1.0\n"

/-- Runs the program with the arguments of a command line. -/
def runCommand (arguments : List Text) : m Outcome := do
  match Invocation.ofArguments arguments with
  | none => return { exitCode := 2 }
  | some (.help subject) => return { exitCode := 0, printed := subject.page }
  | some .version => return { exitCode := 0, printed := versionLine }
  | some (.run task output) =>
    match ← (runTask files output task).run with
    | .ok printed => return { exitCode := 0, printed }
    | .error failure => return failure.outcome

end Tasks

end SchemaDiagram
