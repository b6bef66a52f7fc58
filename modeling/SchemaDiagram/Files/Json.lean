import SchemaDiagram.Files.Basic
import SchemaDiagram.Json.Decode
import SchemaDiagram.Json.Print
import SchemaDiagram.Json.Read

namespace SchemaDiagram

open Json

def SchemaFile.ofJson? (j : Json) : Option SchemaFile := do
  let p ← parts? ["name", "content"] j
  return { name := ← p.required 0 asText?, content := ← p.required 1 asText? }

def SchemaFile.toJson (f : SchemaFile) : Json := record [("name", text f.name), ("content", text f.content)]

/-- Joins files that are given as a JSON text into one schema text. -/
def mergeFilesJson (files : Text) : Except Error Text :=
  match (Json.read files).bind (asList? SchemaFile.ofJson?) with
  | some files => .ok (mergeFiles files)
  | none => .error .malformedJson

/-- The files of a schema text as a JSON text. -/
def splitFilesJson (t : Text) : Text := (Json.array ((splitFiles t).map SchemaFile.toJson)).print .compact

end SchemaDiagram
