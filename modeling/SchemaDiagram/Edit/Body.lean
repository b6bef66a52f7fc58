import SchemaDiagram.Source.Outline
import SchemaDiagram.Error

namespace SchemaDiagram

open Text

/-- The field that is never rewritten. -/
def protectedField : Text := txt "id"

def defaultIndent : Text := txt "  "

/-- The offsets of the body of the first declaration of a model, if it is closed. -/
def modelBody? (t model : Text) : Option (Nat × Nat) := do
  let declaration ← findModel model t
  let close ← declaration.close
  return (declaration.brace + 1, close)

/-- Whether a line without comments and strings declares a field. -/
def declares (field line : Text) : Bool :=
  match field.isPrefixOf? (trimStart line) with
  | some rest => rest.head?.any isBlank
  | none => false

def isLineEnd (c : Char) : Bool := c = '\n' || c = '\r'

/-- The offsets of the first of some lines that declares a field, without its line end. -/
def fieldLineFrom (field : Text) (offset : Nat) : List Text → Option (Nat × Nat)
  | [] => none
  | line :: later =>
    if declares field line then some (offset, offset + byteSize (dropEndWhile isLineEnd line))
    else fieldLineFrom field (offset + byteSize line) later

/-- The offsets of the line that declares a field in a model. The text behind the opening brace counts as
a line, and so does the text before the closing one. -/
def fieldLine? (t model field : Text) : Option (Nat × Nat) := do
  let (start, close) ← modelBody? t model
  fieldLineFrom field start (lines (slice start close (mask t)))

def hasField (t model field : Text) : Bool := (fieldLine? t model field).isSome

/-- Puts a line behind the last field of a model, indented like the line before. A text without the model
stays as it is. -/
def insertField (t model line : Text) : Text :=
  match modelBody? t model with
  | none => t
  | some (start, close) =>
    let contentEnd := start + byteSize (trimEnd (slice start close (mask t)))
    let before := lastLine (takeBytes contentEnd t)
    let startsInBody := start < contentEnd ∧ start + byteSize before ≤ contentEnd
    let inserted := (if startsInBody then indent before else defaultIndent) ++ line ++ txt "\n"
    let gap := slice contentEnd close t
    if gap.contains '\n' then
      let point := contentEnd + byteSize (gap.takeWhile (· ≠ '\n')) + 1
      takeBytes point t ++ inserted ++ dropBytes point t
    else trimEnd (takeBytes close t) ++ txt "\n" ++ inserted ++ dropBytes close t

def beginsComment (t : Text) : Bool := (txt "//").isPrefixOf t || (txt "/*").isPrefixOf t

/-- The comment that ends a line, which `shown` gives without comments. The line is searched byte by byte,
so that no longer character may stand before the comment. -/
def trailingComment : Text → Text → Except Error (Option Text)
  | [], _ => .ok none
  | c :: cs, shown =>
    if beginsComment (c :: cs) && shown.head? = some ' ' then .ok (some (trimEnd (c :: cs)))
    else if c.utf8Size = 1 then trailingComment cs shown.tail
    else .error .brokenCharacter

/-- Replaces the line of a field, but keeps its indentation and the comment that ends it. -/
def replaceField (t model field line : Text) : Except Error Text :=
  if field = protectedField then .ok t
  else
    match fieldLine? t model field with
    | none => .ok t
    | some (start, stop) => do
      let current := slice start stop t
      let after := dropBytes stop t
      let bare := trimEnd (dropEndWhile (· = '}') (trimEnd line))
      let comment ← trailingComment current (slice start stop (strip t))
      let kept := match comment with
        | some comment => if occurs (txt "//") bare then [] else txt " " ++ comment
        | none => []
      let lineBreak := if after.head? = some '}' then txt "\n" else []
      return takeBytes start t ++ indent current ++ bare ++ kept ++ lineBreak ++ after

/-- Replaces the line of a field if there is one, or else adds it. -/
def upsertField (t model field line : Text) : Except Error Text :=
  if field = protectedField then .ok t
  else if hasField t model field then replaceField t model field line
  else .ok (insertField t model line)

/-- Puts a model behind the end of a text. -/
def appendModel (t name : Text) (fields attributes : List Text) : Text :=
  let before := trimEnd t
  let entry (line : Text) := defaultIndent ++ line ++ txt "\n"
  before ++ (if before.isEmpty then [] else txt "\n\n") ++ txt "model " ++ name ++ txt " \x7b\n" ++
    fields.flatMap entry ++ (if attributes.isEmpty then [] else txt "\n" ++ attributes.flatMap entry) ++
    txt "\x7d\n"

end SchemaDiagram
