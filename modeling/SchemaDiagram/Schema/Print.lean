import SchemaDiagram.Schema.Parse

namespace SchemaDiagram

open Text

/-- The width of a column: the bytes of its longest cell. -/
def columnWidth (cells : List Text) : Nat := (cells.map byteSize).foldl max 0

/-- A field on a line of its own. -/
def Field.render (f : Field) : Text := joinWith (txt " ") (f.name :: f.label :: f.attributes)

/-- Calls such as `env("URL")` stay as they are, other values get quotes. -/
def quoteValue (value : Text) : Text :=
  if value.contains '(' then value else txt "\"" ++ value ++ txt "\""

def printSettings (header : Text) (settings : List (Text × Text)) : Text :=
  let width := columnWidth (settings.map (·.1))
  header ++ txt " \x7b\n" ++
    settings.flatMap (fun (key, value) => txt "  " ++ padTo width key ++ txt " = " ++ value ++ txt "\n") ++
    txt "\x7d\n"

def Datasource.print (d : Datasource) : Text :=
  printSettings (txt "datasource db")
    ((txt "provider", quoteValue d.provider) :: (d.url.map fun url => (txt "url", quoteValue url)).toList)

def Generator.print (g : Generator) : Text :=
  printSettings (txt "generator client")
    ((txt "provider", quoteValue g.provider) ::
      (g.output.map fun output => (txt "output", quoteValue output)).toList)

/-- A field as a row of a table with a column for the names and one for the types. -/
def Field.row (nameWidth labelWidth : Nat) (f : Field) : Text :=
  trimEnd (txt "  " ++ padTo nameWidth f.name ++ txt " " ++ padTo labelWidth f.label ++
    f.attributes.flatMap (txt " " ++ ·)) ++ txt "\n"

def Model.print (m : Model) : Text :=
  let nameWidth := columnWidth (m.fields.map (·.name))
  let labelWidth := columnWidth (m.fields.map (·.label))
  let gap := if m.fields.isEmpty || m.attributes.isEmpty then [] else txt "\n"
  txt "model " ++ m.name ++ txt " \x7b\n" ++ m.fields.flatMap (Field.row nameWidth labelWidth) ++ gap ++
    m.attributes.flatMap (fun a => txt "  " ++ a ++ txt "\n") ++ txt "\x7d\n"

def Enumeration.print (e : Enumeration) : Text :=
  let values := e.values.flatMap fun value => txt "  " ++ value ++ txt "\n"
  txt "enum " ++ e.name ++ txt " \x7b\n" ++ values ++ txt "\x7d\n"

/-- The canonical text of a document: the datasource, the generator, the models and the enumerations,
with a blank line between two blocks. -/
def Document.print (d : Document) : Text :=
  joinWith (txt "\n")
    ((d.datasource.map Datasource.print).toList ++ (d.generator.map Generator.print).toList ++
      d.models.map Model.print ++ d.enums.map Enumeration.print)

/-- Brings a schema text into canonical form. Comments are lost. -/
def formatSchema (t : Text) : Text := (Document.parse t).print

end SchemaDiagram
