import SchemaDiagram.Schema.Line
import SchemaDiagram.Schema.Setting
import SchemaDiagram.Source.Outline

namespace SchemaDiagram

open Text

/-- A line that begins with `@` holds attributes of the model. -/
def isAttributeLine (line : Text) : Bool := line.head? = some '@'

def bodyLines (body : Text) : List Text := (lines body).map trim

/-- Reads the body of a model. Lines that are no fields are passed over, and of two fields with one name
the first counts. -/
def Model.ofBody (name body : Text) : Model where
  name := name
  fields := keepFirst Field.name
    (((bodyLines body).filter (fun line => !isAttributeLine line)).filterMap parseField)
  attributes := ((bodyLines body).filter isAttributeLine).flatMap extractAttributes

/-- The value on a line of an enumeration. -/
def enumValue? (line : Text) : Option Text :=
  if line = txt "\x7d" || isAttributeLine line then none
  else firstWord? (dropEndWhile (· = ',') line)

def Enumeration.ofBody (name body : Text) : Enumeration where
  name := name
  values := (bodyLines body).filterMap enumValue?

namespace Document

/-- Gathers what the declarations of a text without comments say. Of two declarations of one name the
first counts, and of several settings blocks the first. -/
def ofDeclarations (t : Text) (declarations : List Declaration) : Document :=
  let of (keyword : Keyword) := declarations.filter (·.keyword = keyword)
  { datasource := (of .datasource).head?.map fun d => .ofBody (d.body t)
    generator := (of .generator).head?.map fun d => .ofBody (d.body t)
    models := keepFirst Model.name ((of .model).map fun d => .ofBody d.name (d.body t))
    enums := keepFirst Enumeration.name ((of .enum).map fun d => .ofBody d.name (d.body t)) }

/-- Reads a schema text. Every text has a reading: what is not recognized is passed over. -/
def parse (t : Text) : Document := ofDeclarations (strip t) (outline (strip t))

end Document

end SchemaDiagram
