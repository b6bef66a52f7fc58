import SchemaDiagram.Command.Run

namespace SchemaDiagram

def FileError.ofIO (e : IO.Error) : FileError :=
  match e with
  | .noFileOrDirectory .. => .notFound
  | .alreadyExists .. => .alreadyExists
  | .inappropriateType .. => .isDirectory
  | .unsupportedOperation .. => .isDirectory
  | e => .other e.toString.toList

/-- Carries out an access to a file and keeps its error. -/
def tryAccess (action : IO α) : IO (Except FileError α) := do
  match ← action.toBaseIO with
  | .ok a => return .ok a
  | .error e => return .error (.ofIO e)

/-- The files of the machine. -/
def machineFiles : FileAccess IO where
  read path := do
    match ← tryAccess (IO.FS.readBinFile (String.ofList path)) with
    | .error e => return .error e
    | .ok bytes =>
      match String.fromUTF8? bytes with
      | some content => return .ok content.toList
      | none => return .error .notText
  write path content := tryAccess (IO.FS.writeFile (String.ofList path) (String.ofList content))
  createPath path := tryAccess (IO.FS.createDirAll (String.ofList path))

end SchemaDiagram

def main (arguments : List String) : IO UInt32 := do
  let outcome ← SchemaDiagram.runCommand SchemaDiagram.machineFiles (arguments.map String.toList)
  IO.print (String.ofList outcome.printed)
  match outcome.error with
  | some line => IO.eprintln (String.ofList line)
  | none => pure ()
  return outcome.exitCode.toUInt32
