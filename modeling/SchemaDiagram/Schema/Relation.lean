import SchemaDiagram.Schema.Basic
import SchemaDiagram.Text.Word

namespace SchemaDiagram

open Text

/-- The content of the string that a text begins with, up to the next quote. -/
def quotedContent? : Text → Option Text
  | '"' :: t => if t.contains '"' then some (t.takeWhile (· ≠ '"')) else none
  | _ => none

/-- What follows `key` and `mark`, where white space may stand around the mark. -/
def afterKey? (key : Text) (mark : Char) (t : Text) : Option Text := do
  let rest ← key.isPrefixOf? t
  match rest.dropWhile isBlank with
  | c :: value => if c = mark then some (value.dropWhile isBlank) else none
  | [] => none

/-- A name argument that stands behind a parenthesis or a comma. -/
def laterName? : Text → Option Text
  | [] => none
  | c :: cs =>
    let here :=
      if c = '(' ∨ c = ',' then (afterKey? (txt "name") ':' (cs.dropWhile isBlank)).bind quotedContent?
      else none
    here.or (laterName? cs)

/-- The name among the arguments of a relation: a string in front, with or without its key, or else the
first argument `name` behind a comma. -/
def relationName? (args : Text) : Option Text :=
  let front := args.dropWhile isBlank
  (((afterKey? (txt "name") ':' front).bind quotedContent?).or (quotedContent? front)).or (laterName? args)

/-- The text in brackets behind the first `key:` that begins a word. -/
def bracketArgument? (key : Text) (insideWord : Bool) : Text → Option Text
  | [] => none
  | c :: cs =>
    let here :=
      if insideWord then none
      else match afterKey? key ':' (c :: cs) with
        | some ('[' :: t) => if t.contains ']' then some (t.takeWhile (· ≠ ']')) else none
        | _ => none
    here.or (bracketArgument? key (isWordChar c) cs)

/-- The arguments of an attribute `@relation(…)`, without the parentheses. -/
def relationArguments (tag : Text) : Text :=
  match (txt "@relation").isPrefixOf? tag with
  | none => []
  | some rest =>
    match trim rest with
    | '(' :: inner => ((txt ")").isSuffixOf? inner).getD inner
    | _ => []

/-- What an attribute `@relation` says. -/
def Relation.ofAttribute (tag : Text) : Relation :=
  let args := relationArguments tag
  { name := relationName? args
    fields := (bracketArgument? (txt "fields") false args).map commaList
    references := (bracketArgument? (txt "references") false args).map commaList }

end SchemaDiagram
