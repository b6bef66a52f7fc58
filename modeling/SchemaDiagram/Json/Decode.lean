import SchemaDiagram.Json.Basic

namespace SchemaDiagram.Json

def asText? : Json → Option Text
  | .string s => s
  | _ => none

def asBool? : Json → Option Bool
  | .bool b => some b
  | _ => none

def asFloat? : Json → Option Float
  | .number n => n.toFloat?
  | _ => none

def asList? (item : Json → Option α) : Json → Option (List α)
  | .array items => items.mapM item
  | _ => none

/-- The value of `null` is nothing. -/
def asOption? (value : Json → Option α) : Json → Option (Option α)
  | .null => some none
  | j => (value j).map some

/-- A constant of a closed set is given by its name, or by an object with that name and `null`. -/
def asConstant? (constants : List (Text × α)) : Json → Option α
  | .string (some name) => (constants.find? (·.1 = name)).map (·.2)
  | .object [(some name, .null)] => (constants.find? (·.1 = name)).map (·.2)
  | _ => none

/-- The member of a name. It is an error to have two. -/
def member? (members : List (Option Text × Json)) (name : Text) : Option (Option Json) :=
  match members.filter (·.1 = some name) with
  | [] => some none
  | [(_, value)] => some (some value)
  | _ => none

/-- The parts of a record, absent or present, in the order of its fields. -/
structure Parts where
  byPosition : Bool
  values : List (Option Json)

/-- A record is an object, where other members do not matter, or an array of its fields in their order,
where the last may be left out. -/
def parts? (fields : List String) : Json → Option Parts
  | .object members =>
    if members.all (·.1.isSome) then
      (fields.mapM fun name => member? members (txt name)).map (⟨false, ·⟩)
    else none
  | .array items => if items.length ≤ fields.length then some ⟨true, items.map some⟩ else none
  | _ => none

namespace Parts

def part (p : Parts) (i : Nat) : Option Json := (p.values[i]?).join

/-- A field that has to be there. -/
def required (p : Parts) (i : Nat) (value : Json → Option α) : Option α := (p.part i).bind value

/-- A field that has a default. -/
def withDefault (p : Parts) (i : Nat) (default : α) (value : Json → Option α) : Option α :=
  match p.part i with
  | some j => value j
  | none => some default

/-- A field that may be missing or null, but only missing by name. -/
def nullable (p : Parts) (i : Nat) (value : Json → Option α) : Option (Option α) :=
  match p.part i with
  | some j => asOption? value j
  | none => if p.byPosition then none else some none

/-- A field that may be missing or null. -/
def optional (p : Parts) (i : Nat) (value : Json → Option α) : Option (Option α) :=
  p.withDefault i none (asOption? value)

end Parts

mutual

/-- Whether every string in a value stands for a text and every number for a double, and arrays and
objects are nested less than `depth` deep. -/
def isReadable (depth : Nat) : Json → Bool
  | .number n => n.toFloat?.isSome
  | .string s => s.isSome
  | .array items => 1 < depth && areReadable (depth - 1) items
  | .object members => 1 < depth && areReadableMembers (depth - 1) members
  | _ => true

def areReadable (depth : Nat) : List Json → Bool
  | [] => true
  | item :: items => isReadable depth item && areReadable depth items

def areReadableMembers (depth : Nat) : List (Option Text × Json) → Bool
  | [] => true
  | (key, value) :: members => key.isSome && isReadable depth value && areReadableMembers depth members

end

end SchemaDiagram.Json
