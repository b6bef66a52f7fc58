import SchemaDiagram.Text.Basic

namespace SchemaDiagram

open Text

/-- Where a reader of a parenthesised group is with regard to strings. -/
inductive Quoting
  | outside | inside | escaped
  deriving DecidableEq

/-- What remains of a group of parentheses, up to and with the one that closes it. Inside of it `depth`
further groups are open. Parentheses in strings do not count. -/
def groupRest (quoting : Quoting) (depth : Nat) : Text → Text
  | [] => []
  | c :: cs => c ::
    match quoting with
    | .escaped => groupRest .inside depth cs
    | .inside =>
      if c = '\\' then groupRest .escaped depth cs
      else if c = '"' then groupRest .outside depth cs
      else groupRest .inside depth cs
    | .outside =>
      if c = '"' then groupRest .inside depth cs
      else if c = '(' then groupRest .outside (depth + 1) cs
      else if c = ')' then
        match depth with
        | 0 => []
        | depth + 1 => groupRest .outside depth cs
      else groupRest .outside depth cs

/-- The group of parentheses that a text begins with, if it begins with one. -/
def group : Text → Text
  | '(' :: cs => '(' :: groupRest .outside 0 cs
  | _ => []

def isAttributeNameChar (c : Char) : Bool := c.isAlphanum || c = '_' || c = '.'

/-- The attribute that a text begins with: its `@` signs, its name and its arguments. -/
def attributeToken (t : Text) : Text :=
  let signs := t.takeWhile (· = '@')
  let name := (t.drop signs.length).takeWhile isAttributeNameChar
  signs ++ name ++ group (t.drop (signs.length + name.length))

/-- The attributes of a text behind its first `skip` characters. -/
def attributesFrom (skip : Nat) : Text → List Text
  | [] => []
  | c :: cs =>
    match skip with
    | skip + 1 => attributesFrom skip cs
    | 0 =>
      if c = '@' then
        let token := attributeToken (c :: cs)
        let later := attributesFrom (token.length - 1) cs
        if 1 < byteSize (trim token) then trim token :: later else later
      else attributesFrom 0 cs

/-- The attributes of a text as they are written, without what stands between them. -/
def extractAttributes (t : Text) : List Text := attributesFrom 0 t

end SchemaDiagram
