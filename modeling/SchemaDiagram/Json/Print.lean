import SchemaDiagram.Json.Basic

namespace SchemaDiagram

def natDigits (n : Nat) : Text := Nat.toDigits 10 n

/-- A number without a fraction, which is all that is ever printed. -/
def Number.print (n : Number) : Text :=
  (if n.negative then txt "-" else []) ++ natDigits n.significand ++
    (if n.exponent = 0 then [] else
      txt "e" ++ (if n.exponent < 0 then txt "-" else []) ++ natDigits n.exponent.natAbs)

namespace Json

def hexDigits (width n : Nat) : Text :=
  let digits := Nat.toDigits 16 n
  List.replicate (width - digits.length) '0' ++ digits

/-- A character inside of a string: quotes, backslashes and control characters are escaped. -/
def escapeChar (c : Char) : Text :=
  if c = '"' then txt "\\\""
  else if c = '\\' then txt "\\\\"
  else if c = '\x08' then txt "\\b"
  else if c = '\x0c' then txt "\\f"
  else if c = '\n' then txt "\\n"
  else if c = '\r' then txt "\\r"
  else if c = '\t' then txt "\\t"
  else if c.val < 0x20 then txt "\\u" ++ hexDigits 4 c.toNat
  else [c]

def printText (t : Text) : Text := txt "\"" ++ t.flatMap escapeChar ++ txt "\""

/-- How the parts of an array or object are set apart: what opens a part at a depth. -/
structure Style where
  lineBreak : Nat → Text
  afterColon : Text

/-- All on one line, without spaces. -/
def Style.compact : Style := ⟨fun _ => [], []⟩

/-- A line for each part, indented by two spaces per level. -/
def Style.pretty : Style := ⟨fun depth => '\n' :: List.replicate (2 * depth) ' ', txt " "⟩

mutual

/-- Prints a value at some depth. -/
def printAt (style : Style) (depth : Nat) : Json → Text
  | .null => txt "null"
  | .bool b => if b then txt "true" else txt "false"
  | .number n => n.print
  | .string s => printText (s.getD [])
  | .array [] => txt "[]"
  | .array (item :: items) =>
    txt "[" ++ style.lineBreak (depth + 1) ++ printAt style (depth + 1) item ++
      printItems style (depth + 1) items ++ style.lineBreak depth ++ txt "]"
  | .object [] => txt "\x7b\x7d"
  | .object ((key, value) :: members) =>
    txt "\x7b" ++ style.lineBreak (depth + 1) ++ printText (key.getD []) ++ txt ":" ++ style.afterColon ++
      printAt style (depth + 1) value ++ printMembers style (depth + 1) members ++
      style.lineBreak depth ++ txt "\x7d"

def printItems (style : Style) (depth : Nat) : List Json → Text
  | [] => []
  | item :: items =>
    txt "," ++ style.lineBreak depth ++ printAt style depth item ++ printItems style depth items

def printMembers (style : Style) (depth : Nat) : List (Option Text × Json) → Text
  | [] => []
  | (key, value) :: members =>
    txt "," ++ style.lineBreak depth ++ printText (key.getD []) ++ txt ":" ++ style.afterColon ++
      printAt style depth value ++ printMembers style depth members

end

def print (style : Style) (value : Json) : Text := printAt style 0 value

end Json

end SchemaDiagram
