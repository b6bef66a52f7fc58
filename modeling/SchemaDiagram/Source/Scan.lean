import SchemaDiagram.Text.Basic

namespace SchemaDiagram

open Text

/-- The name on a line `// === name ===`, which opens the part of a merged schema that belongs to the
file of that name. Spaces and tabs around the name are padding, unless there is nothing else. -/
def separatorName (line : Text) : Option Text := do
  let marked ← (txt "//").isPrefixOf? (trim line)
  let opened ← (txt "===").isPrefixOf? (marked.dropWhile isPad)
  let inner ← (txt "===").isSuffixOf? opened
  if inner.contains '\n' then none
  else
    match dropEndWhile isPad (inner.dropWhile isPad) with
    | [] => inner.getLast?.map ([·])
    | name => some name

def separatorLine (name : Text) : Text := txt "// === " ++ name ++ txt " ==="

/-- What a character of a schema text belongs to. The quotes of a string are code, what they enclose
is literal. A separator is a line comment that names a file. -/
inductive Role
  | code | literal | comment | separator
  deriving DecidableEq

/-- What the scanner is inside of. -/
inductive ScanState
  | code | string | escape | lineComment (role : Role) | commentOpening | blockComment | commentClosing
  deriving DecidableEq

/-- The role of the line comment that begins with `c` and goes on with `rest`: one that stands alone on
its line and has the form of a separator is a separator. -/
def lineCommentRole (lineBlank : Bool) (c : Char) (rest : Text) : Role :=
  if lineBlank && (separatorName (c :: rest.takeWhile (· ≠ '\n'))).isSome then .separator else .comment

/-- One step of the scanner, with what follows the character in view. A string and a line comment end
with their line at the latest. -/
def ScanState.step : ScanState → Bool → Char → Text → Role × ScanState
  | .code, lineBlank, c, rest =>
    if c = '"' then (.code, .string)
    else if c = '/' then
      match rest with
      | '/' :: _ =>
        let role := lineCommentRole lineBlank c rest
        (role, .lineComment role)
      | '*' :: _ => (.comment, .commentOpening)
      | _ => (.code, .code)
    else (.code, .code)
  | .string, _, c, _ =>
    if c = '"' ∨ c = '\n' then (.code, .code)
    else (.literal, if c = '\\' then .escape else .string)
  | .escape, _, c, _ => if c = '\n' then (.code, .code) else (.literal, .string)
  | .lineComment role, _, c, _ => if c = '\n' then (.code, .code) else (role, .lineComment role)
  | .commentOpening, _, _, _ => (.comment, .blockComment)
  | .blockComment, _, c, rest =>
    (.comment, if c = '*' ∧ rest.head? = some '/' then .commentClosing else .blockComment)
  | .commentClosing, _, _, _ => (.comment, .code)

/-- Whether the line is still blank once `c` has been read. -/
def lineBlankAfter (lineBlank : Bool) (c : Char) : Bool :=
  c = '\n' || (lineBlank && isBlank c)

def scanFrom (state : ScanState) (lineBlank : Bool) : Text → List (Char × Role)
  | [] => []
  | c :: cs =>
    let (role, next) := state.step lineBlank c cs
    (c, role) :: scanFrom next (lineBlankAfter lineBlank c) cs

/-- The characters of a schema text with their roles. -/
def scan (t : Text) : List (Char × Role) := scanFrom .code true t

/-- A character where only some roles are kept: the others turn into as many spaces as the character
has bytes. Newlines always stay. -/
def showOnly (keep : Role → Bool) (item : Char × Role) : Text :=
  if keep item.2 || item.1 = '\n' then [item.1] else List.replicate item.1.utf8Size ' '

/-- Blanks the comments, all but the separators. -/
def strip (t : Text) : Text := (scan t).flatMap (showOnly (· ≠ .comment))

/-- Blanks all that is not code: comments, separators and what strings enclose. -/
def mask (t : Text) : Text := (scan t).flatMap (showOnly (· = .code))

end SchemaDiagram
