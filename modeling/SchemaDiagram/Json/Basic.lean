import SchemaDiagram.Text.Basic

namespace SchemaDiagram

/-- A number `±significand · 10 ^ exponent`. It is integral if neither a fraction nor an exponent is
written. -/
structure Number where
  negative : Bool
  significand : Nat
  exponent : Int
  integral : Bool
  deriving DecidableEq

/-- A JSON value. Objects keep their members in the order and number in which they are written. A string
or key is `none` if an escape in it names one half of a character only, so that it stands for no text. -/
inductive Json
  | null
  | bool (value : Bool)
  | number (value : Number)
  | string (value : Option Text)
  | array (items : List Json)
  | object (members : List (Option Text × Json))

namespace Number

def ofInt (n : Int) : Number where
  negative := n < 0
  significand := n.natAbs
  exponent := 0
  integral := true

/-- Significands lie below this bound, so that they fit into 64 bits. -/
def significandBound : Nat := 1 <<< 64

def digitValue (c : Char) : Nat := c.toNat - '0'.toNat

/-- Appends digits to a significand as long as they fit, and counts those that do. -/
def appendDigits (significand : Nat) : List Char → Nat × Nat
  | [] => (significand, 0)
  | c :: later =>
    let next := 10 * significand + digitValue c
    if next < significandBound then
      let (last, count) := appendDigits next later
      (last, count + 1)
    else (significand, 0)

/-- A number from its digits before and behind the point and its power of ten. Digits that do not fit
into the significand count as zeros. -/
def ofDigits (negative : Bool) (whole fraction : List Char) (power : Int) (integral : Bool) : Number :=
  let (front, kept) := appendDigits 0 whole
  let (significand, behind) := appendDigits front fraction
  { negative, significand, exponent := power + (whole.length - kept : Nat) - behind, integral }

/-- The largest power of ten that is a double. -/
def largestPower : Nat := 308

def powerOfTen (k : Nat) : Float := Float.ofScientific 1 false k

/-- Divides by a power of ten, in several steps where that power is no double. -/
def divideByPower (x : Float) (k : Nat) : Float :=
  if largestPower < k then
    if x == 0 then x else divideByPower (x / powerOfTen largestPower) (k - largestPower)
  else x / powerOfTen k
termination_by k
decreasing_by simp only [largestPower] at *; omega

/-- The double of a number, unless that is too large for one. It is the quotient or product of the doubles
of the significand and of the power of ten, which need not be the nearest double. Zero keeps its sign. -/
def toFloat? (n : Number) : Option Float :=
  let x := n.significand.toUInt64.toFloat
  let signed (x : Float) : Float := if n.negative then -x else x
  if n.exponent < 0 then some (signed (divideByPower x n.exponent.natAbs))
  else if largestPower < n.exponent.natAbs then if n.significand = 0 then some (signed 0) else none
  else
    let product := x * powerOfTen n.exponent.natAbs
    if product.isInf then none else some (signed product)

end Number

namespace Json

def text (t : Text) : Json := .string (some t)

def nat (n : Nat) : Json := .number (.ofInt n)

def texts (l : List Text) : Json := .array (l.map text)

/-- An object without the members that are absent. -/
def record (members : List (String × Option Json)) : Json :=
  .object (members.filterMap fun (key, value) => value.map ((some (txt key)), ·))

def ofOption (f : α → Json) : Option α → Json
  | some a => f a
  | none => .null

end Json

end SchemaDiagram
