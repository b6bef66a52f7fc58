import SchemaDiagram.Text.Basic

namespace SchemaDiagram

/-- Why an operation is refused. -/
inductive Error
  | malformedJson
  | unknownCardinality (given : Text)
  | unknownMode (given : Text)
  | unknownOrder (given : Text)
  | invalidConnection (endpoint : Text)
  | unsafeFileName (name : Text)
  /-- A cut would fall inside of a character of several bytes. -/
  | brokenCharacter
  deriving DecidableEq

def Error.message : Error → Text
  | .malformedJson => txt "JSON error"
  | .unknownCardinality given =>
    txt "Unknown cardinality: " ++ given ++ txt " (expected 1-1, 1-M or M-M)"
  | .unknownMode given =>
    txt "Unknown relation mode: " ++ given ++ txt " (expected implicit or explicit)"
  | .unknownOrder given => txt "Unknown junction order: " ++ given ++ txt " (expected AonB or BonA)"
  | .invalidConnection endpoint =>
    txt "Invalid connection endpoint: " ++ endpoint ++ txt " (expected Entity.field)"
  | .unsafeFileName name =>
    txt "Unsafe schema file name: " ++ name ++ txt " (expected a plain file name)"
  | .brokenCharacter => txt "Cut inside of a character"

end SchemaDiagram
