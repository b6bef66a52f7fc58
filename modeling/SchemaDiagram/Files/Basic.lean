import SchemaDiagram.Source.Outline
import SchemaDiagram.Files.Path
import SchemaDiagram.Error

namespace SchemaDiagram

open Text

/-- A file of a schema that is spread over several. -/
structure SchemaFile where
  name : Text
  content : Text
  deriving DecidableEq

def defaultFileName : Text := txt "schema.prisma"

def isNewlineChar (c : Char) : Bool := c = '\n' || c = '\r'

/-- A file under its separator, with one newline at its end if it is not empty. -/
def SchemaFile.render (f : SchemaFile) : Text :=
  let content := dropEndWhile isNewlineChar f.content
  separatorLine f.name ++ txt "\n" ++ (if content.isEmpty then [] else content ++ txt "\n")

/-- Joins files into one text. A single file needs no separator. -/
def mergeFiles : List SchemaFile → Text
  | [only] => only.content
  | files => files.flatMap SchemaFile.render

/-- The file that ends with some content. Without a name it is the default file, unless it is blank. -/
def closeFile (name : Option Text) (content : Text) : List SchemaFile :=
  match name with
  | some name => [⟨name, content⟩]
  | none => if (trim content).isEmpty then [] else [⟨defaultFileName, content⟩]

def splitLines (name : Option Text) (content : Text) : List Text → List SchemaFile
  | [] => closeFile name content
  | line :: later =>
    match separatorName line with
    | some next => closeFile name content ++ splitLines (some next) [] later
    | none => splitLines name (content ++ line) later

/-- Splits a text at its separators. What stands before the first is the default file. -/
def splitFiles (t : Text) : List SchemaFile := splitLines none [] (lines t)

/-- Refuses files that would not lie in the directory they are written to. -/
def checkNames (files : List SchemaFile) : Except Error Unit :=
  match files.find? (fun f => !isPlainFileName f.name) with
  | some f => .error (.unsafeFileName f.name)
  | none => .ok ()

/-- The last name that a separator announces up to some offset. -/
def fileAt (stop offset : Nat) (current : Option Text) : List Text → Option Text
  | [] => current
  | line :: later =>
    if stop < offset then current
    else fileAt stop (offset + byteSize line) ((separatorName line).or current) later

/-- The file that declares a model. -/
def fileOfModel (t model : Text) : Option Text :=
  (findModel model t).map fun d => (fileAt d.start 0 none (lines t)).getD defaultFileName

end SchemaDiagram
