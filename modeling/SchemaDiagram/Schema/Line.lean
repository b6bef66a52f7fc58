import SchemaDiagram.Schema.Attribute
import SchemaDiagram.Schema.Relation
import SchemaDiagram.Text.Case

namespace SchemaDiagram

open Text

/-- The built-in types, which never name a model. -/
def scalarTypes : List Text :=
  ["String", "Boolean", "Int", "BigInt", "Float", "Decimal", "DateTime", "Json", "Bytes"].map txt

/-- A type that is not built in is taken for a model if it is a list or has a capital. -/
def namesModel (type : Text) (isList : Bool) : Bool :=
  !scalarTypes.contains type && !(txt "Unsupported").isPrefixOf type &&
    (isList || type.head?.any isUppercase)

/-- The relation of a field with these attributes and this type. -/
def relationOf (attributes : List Text) (type : Text) (isList : Bool) : Option Relation :=
  match attributes.find? ((txt "@relation").isPrefixOf ·) with
  | some tag => some (Relation.ofAttribute tag)
  | none => if namesModel type isList then some {} else none

/-- Splits off a parenthesised part without nesting. -/
def splitGroup (t : Text) : Text × Text :=
  match t with
  | '(' :: _ =>
    match t.dropWhile (· ≠ ')') with
    | ')' :: rest => (t.takeWhile (· ≠ ')') ++ [')'], rest)
    | _ => ([], t)
  | _ => ([], t)

/-- Splits off a mark if a text begins with it. -/
def splitMark (mark t : Text) : Bool × Text :=
  match mark.isPrefixOf? t with
  | some rest => (true, rest)
  | none => (false, t)

/-- Reads a field: a name, a type with its marks, and attributes to the end of the line. -/
def parseField (line : Text) : Option Field :=
  let name := line.takeWhile isWordChar
  let gap := line.dropWhile isWordChar
  let typed := gap.dropWhile isBlank
  let base := typed.takeWhile isWordChar
  let (arguments, marked) := splitGroup (typed.dropWhile isWordChar)
  let (isList, unlisted) := splitMark (txt "[]") marked
  let (isOptional, rest) := splitMark (txt "?") unlisted
  let tail := rest.dropWhile isBlank
  if name.isEmpty || !gap.head?.any isBlank || base.isEmpty || tail.contains '\n' then none
  else
    let type := base ++ arguments
    let attributes := extractAttributes tail
    some { name, type, isList, isOptional, attributes, relation := relationOf attributes type isList }

end SchemaDiagram
