import SchemaDiagram.Json.Basic

namespace SchemaDiagram.Json

inductive Token
  | braceOpen | braceClose | bracketOpen | bracketClose | colon | comma
  | null | bool (value : Bool) | number (value : Number) | string (value : Option Text)

def isSpace (c : Char) : Bool := c = ' ' || c = '\t' || c = '\n' || c = '\r'

def hexDigit? (c : Char) : Option Nat :=
  if c.isDigit then some (c.toNat - '0'.toNat)
  else if 'a' ≤ c ∧ c ≤ 'f' then some (c.toNat - 'a'.toNat + 10)
  else if 'A' ≤ c ∧ c ≤ 'F' then some (c.toNat - 'A'.toNat + 10)
  else none

def hexValue? (digits : List Char) : Option Nat :=
  digits.foldlM (fun n c => (hexDigit? c).map (16 * n + ·)) 0

def shortEscape? (c : Char) : Option Char :=
  match c with
  | '"' | '\\' | '/' => some c
  | 'b' => some '\x08'
  | 'f' => some '\x0c'
  | 'n' => some '\n'
  | 'r' => some '\r'
  | 't' => some '\t'
  | _ => none

/-- The parts of a string up to its closing quote: characters, and the units named by `\u` escapes.
With them comes the number of characters read. -/
def stringParts : Text → Option (List (Char ⊕ Nat) × Nat)
  | '"' :: _ => some ([], 1)
  | '\\' :: 'u' :: a :: b :: c :: d :: rest => do
    let unit ← hexValue? [a, b, c, d]
    let (parts, count) ← stringParts rest
    return (.inr unit :: parts, count + 6)
  | '\\' :: c :: rest => do
    let plain ← shortEscape? c
    let (parts, count) ← stringParts rest
    return (.inl plain :: parts, count + 2)
  | c :: rest => do
    if c.val < 0x20 then none
    let (parts, count) ← stringParts rest
    return (.inl c :: parts, count + 1)
  | [] => none

/-- The text of the parts of a string. Two units may make up one character. -/
def textOfParts : List (Char ⊕ Nat) → Option Text
  | [] => some []
  | .inl c :: rest => (textOfParts rest).map (c :: ·)
  | .inr high :: .inr low :: rest =>
    if 0xD800 ≤ high ∧ high < 0xDC00 then
      if 0xDC00 ≤ low ∧ low < 0xE000 then
        (textOfParts rest).map (Char.ofNat (0x10000 + (high - 0xD800) * 0x400 + (low - 0xDC00)) :: ·)
      else none
    else if 0xDC00 ≤ high ∧ high < 0xE000 then none
    else (textOfParts (.inr low :: rest)).map (Char.ofNat high :: ·)
  | .inr unit :: rest =>
    if 0xD800 ≤ unit ∧ unit < 0xE000 then none else (textOfParts rest).map (Char.ofNat unit :: ·)

def natOfDigits (digits : Text) : Nat := digits.foldl (fun n c => 10 * n + Number.digitValue c) 0

/-- The digits behind a point, if there is one. -/
def fraction? (t : Text) : Option (Text × Text) :=
  match t with
  | '.' :: rest =>
    if rest.head?.any Char.isDigit then some (rest.takeWhile Char.isDigit, rest.dropWhile Char.isDigit)
    else none
  | _ => some ([], t)

def exponentSign (t : Text) : Bool × Text :=
  match t with
  | '-' :: rest => (true, rest)
  | '+' :: rest => (false, rest)
  | _ => (false, t)

/-- The exponent, zero if there is none. -/
def exponent? (t : Text) : Option (Int × Text) :=
  match t with
  | c :: rest =>
    if c = 'e' ∨ c = 'E' then
      let (negative, digits) := exponentSign rest
      if digits.head?.any Char.isDigit then
        let size : Int := natOfDigits (digits.takeWhile Char.isDigit)
        some (if negative then -size else size, digits.dropWhile Char.isDigit)
      else none
    else some (0, t)
  | [] => some (0, t)

/-- The number that a text begins with, and how many characters it takes. -/
def number? (t : Text) : Option (Number × Nat) := do
  let negative := t.head? = some '-'
  let unsigned := if negative then t.tail else t
  let whole := unsigned.takeWhile Char.isDigit
  if whole.isEmpty || (whole.head? = some '0' && 1 < whole.length) then none
  let afterWhole := unsigned.dropWhile Char.isDigit
  let (digits, afterFraction) ← fraction? afterWhole
  let (power, rest) ← exponent? afterFraction
  let integral := rest.length = afterWhole.length
  return (.ofDigits negative whole digits power integral, t.length - rest.length)

/-- The token that a text begins with, and how many characters it takes. -/
def token? (c : Char) (rest : Text) : Option (Token × Nat) :=
  match c with
  | '{' => some (.braceOpen, 1)
  | '}' => some (.braceClose, 1)
  | '[' => some (.bracketOpen, 1)
  | ']' => some (.bracketClose, 1)
  | ':' => some (.colon, 1)
  | ',' => some (.comma, 1)
  | '"' => (stringParts rest).map fun (parts, count) => (.string (textOfParts parts), count + 1)
  | _ =>
    if (txt "null").isPrefixOf (c :: rest) then some (.null, 4)
    else if (txt "true").isPrefixOf (c :: rest) then some (.bool true, 4)
    else if (txt "false").isPrefixOf (c :: rest) then some (.bool false, 5)
    else (number? (c :: rest)).map fun (n, count) => (.number n, count)

/-- The tokens of a text behind its first `skip` characters. -/
def tokensFrom (skip : Nat) : Text → Option (List Token)
  | [] => some []
  | c :: cs =>
    match skip with
    | skip + 1 => tokensFrom skip cs
    | 0 =>
      if isSpace c then tokensFrom 0 cs
      else do
        let (token, count) ← token? c cs
        let later ← tokensFrom (count - 1) cs
        return token :: later

/-- A value that is not complete yet, with what has been read of it, last part first. -/
inductive Frame
  | array (items : List Json)
  | object (members : List (Option Text × Json)) (key : Option Text)

/-- What a reader has or waits for, inside of its open frames. -/
inductive Phase
  | value
  | firstItem
  | firstKey (members : List (Option Text × Json))
  | key (members : List (Option Text × Json))
  | colon (members : List (Option Text × Json)) (key : Option Text)
  | complete (value : Json)

abbrev ReaderState := List Frame × Phase

/-- Starts or finishes a value with a token. -/
def beginValue (frames : List Frame) : Token → Option ReaderState
  | .braceOpen => some (frames, .firstKey [])
  | .bracketOpen => some (frames, .firstItem)
  | .null => some (frames, .complete .null)
  | .bool b => some (frames, .complete (.bool b))
  | .number n => some (frames, .complete (.number n))
  | .string s => some (frames, .complete (.string s))
  | _ => none

/-- Joins a complete value to the frame around it. -/
def endValue (value : Json) : List Frame → Token → Option ReaderState
  | .array items :: frames, .comma => some (.array (value :: items) :: frames, .value)
  | .array items :: frames, .bracketClose => some (frames, .complete (.array (value :: items).reverse))
  | .object members key :: frames, .comma => some (frames, .key ((key, value) :: members))
  | .object members key :: frames, .braceClose =>
    some (frames, .complete (.object ((key, value) :: members).reverse))
  | _, _ => none

def readStep : ReaderState → Token → Option ReaderState
  | (frames, .value), token => beginValue frames token
  | (frames, .firstItem), .bracketClose => some (frames, .complete (.array []))
  | (frames, .firstItem), token => beginValue (.array [] :: frames) token
  | (frames, .firstKey _), .braceClose => some (frames, .complete (.object []))
  | (frames, .firstKey members), .string key => some (frames, .colon members key)
  | (frames, .key members), .string key => some (frames, .colon members key)
  | (frames, .colon members key), .colon => some (.object members key :: frames, .value)
  | (frames, .complete value), token => endValue value frames token
  | _, _ => none

/-- Reads a JSON text: one value with nothing but white space around it. -/
def read (t : Text) : Option Json := do
  let tokens ← tokensFrom 0 t
  match ← tokens.foldlM readStep ([], .value) with
  | ([], .complete value) => return value
  | _ => none

end SchemaDiagram.Json
