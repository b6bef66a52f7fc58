import SchemaDiagram.Source.Scan
import SchemaDiagram.Text.Word

namespace SchemaDiagram

open Text

inductive Keyword
  | datasource | generator | model | enum
  deriving DecidableEq

namespace Keyword

def name : Keyword → Text
  | .datasource => txt "datasource"
  | .generator => txt "generator"
  | .model => txt "model"
  | .enum => txt "enum"

def all : List Keyword := [.datasource, .generator, .model, .enum]

def ofName? (t : Text) : Option Keyword := all.find? (·.name = t)

/-- The keyword that a text begins with, and what follows it. -/
def read? (t : Text) : Option (Keyword × Text) :=
  all.findSome? fun keyword => (keyword.name.isPrefixOf? t).map (keyword, ·)

end Keyword

/-- The head of a declaration: the offset of its line and of its opening brace. -/
structure Header where
  keyword : Keyword
  name : Text
  start : Nat
  brace : Nat

/-- The header that a line begins with: a keyword, a name and an opening brace, which may stand on a
later line. -/
def Header.read? (start : Nat) (line : Text) : Option Header := do
  let (keyword, rest) ← Keyword.read? (line.dropWhile isPad)
  let named := rest.dropWhile isPad
  let name := named.takeWhile isWordChar
  let opening := (named.dropWhile isWordChar).dropWhile isBlank
  if rest.head?.any isPad && !name.isEmpty && opening.head? = some '{' then
    some { keyword, name, start, brace := start + (byteSize line - byteSize opening) }
  else none

def headersFrom (atLineStart : Bool) (offset : Nat) : Text → List Header
  | [] => []
  | c :: cs =>
    let later := headersFrom (c = '\n') (offset + c.utf8Size) cs
    match if atLineStart then Header.read? offset (c :: cs) else none with
    | some header => header :: later
    | none => later

/-- All headers of a text, those inside of other declarations too. -/
def headers (t : Text) : List Header := headersFrom true 0 t

/-- The offset of the brace that brings the depth back to zero. -/
def closingFrom (depth offset : Nat) : Text → Option Nat
  | [] => none
  | c :: cs =>
    if c = '{' then closingFrom (depth + 1) (offset + 1) cs
    else if c = '}' then
      match depth with
      | 0 => none
      | 1 => some offset
      | inner + 1 => closingFrom inner (offset + 1) cs
    else closingFrom depth (offset + c.utf8Size) cs

/-- The offset of the brace that closes the one at `brace`, in a text without comments and strings. -/
def blockEnd (t : Text) (brace : Nat) : Option Nat :=
  let rest := dropBytes brace t
  closingFrom 0 (byteSize t - byteSize rest) rest

/-- A block `keyword name { … }`. Its body goes from the opening brace to `stop`, which is the closing
brace, or where the next header begins if the block is not closed. -/
structure Declaration where
  keyword : Keyword
  name : Text
  start : Nat
  brace : Nat
  close : Option Nat
  stop : Nat
  deriving DecidableEq

def Declaration.body (d : Declaration) (t : Text) : Text := slice (d.brace + 1) d.stop t

/-- Headers that begin before `resume` are inside of a block that is already taken. -/
def declarationsFrom (t : Text) (resume : Nat) : List Header → List Declaration
  | [] => []
  | h :: later =>
    if h.start < resume then declarationsFrom t resume later
    else
      let close := blockEnd t h.brace
      let next := (later.head?.map (·.start)).getD (byteSize t)
      { keyword := h.keyword, name := h.name, start := h.start, brace := h.brace, close,
        stop := close.getD next } ::
      declarationsFrom t ((close.getD h.brace) + 1) later

/-- The declarations of a schema text. Braces and keywords in comments and strings do not count. -/
def outline (t : Text) : List Declaration :=
  declarationsFrom (mask t) 0 (headers (mask t))

def findDeclaration (keyword : Keyword) (name : Text) (t : Text) : Option Declaration :=
  (outline t).find? fun d => d.keyword = keyword && d.name = name

/-- The first declaration of a model. -/
def findModel (name : Text) (t : Text) : Option Declaration := findDeclaration .model name t

end SchemaDiagram
