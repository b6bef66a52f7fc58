import SchemaDiagram.Schema.Relation

namespace SchemaDiagram

open Text

def laterLines : Text → List Text
  | [] => []
  | c :: cs => if c = '\n' then cs :: laterLines cs else laterLines cs

/-- What remains of a text from the start of each of its lines on. -/
def fromEachLine (t : Text) : List Text := t :: laterLines t

/-- The first value behind `key =` at the start of a line that `read` accepts. -/
def setting? (key : Text) (read : Text → Option Text) (body : Text) : Option Text :=
  (fromEachLine body).findSome? fun t => do
    let rest ← key.isPrefixOf? (t.dropWhile isBlank)
    match rest.dropWhile isBlank with
    | '=' :: value => read value
    | _ => none

def stringValue? (value : Text) : Option Text := quotedContent? (value.dropWhile isBlank)

/-- A value is the rest of its line. White space counts as a value only where there is nothing else. -/
def lineValue? (value : Text) : Option Text :=
  match value.dropWhile isBlank with
  | [] => (value.reverse.find? (· ≠ '\n')).map ([·])
  | shown => some (trimEnd (shown.takeWhile (· ≠ '\n')))

/-- Takes off a pair of quotes. -/
def unquote (value : Text) : Text :=
  match value with
  | '"' :: rest => ((txt "\"").isSuffixOf? rest).getD value
  | _ => value

def defaultDatasourceProvider : Text := txt "postgresql"

def defaultGeneratorProvider : Text := txt "prisma-client-js"

def Datasource.ofBody (body : Text) : Datasource where
  provider := (setting? (txt "provider") stringValue? body).getD defaultDatasourceProvider
  url := (setting? (txt "url") lineValue? body).map unquote

def Generator.ofBody (body : Text) : Generator where
  provider := (setting? (txt "provider") stringValue? body).getD defaultGeneratorProvider
  output := (setting? (txt "output") lineValue? body).map unquote

end SchemaDiagram
