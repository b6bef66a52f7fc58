import SchemaDiagram.Text.Case

namespace SchemaDiagram

/-- The case of the letters that a word has shown so far. -/
inductive LetterCase
  | none | lower | upper
  deriving DecidableEq

def LetterCase.after (case : LetterCase) (c : Char) : LetterCase :=
  if isLowercase c then .lower else if isUppercase c then .upper else case

/-- Splits a run of letters and digits into words: before a capital behind a small letter, and before the
last capital of several that a small letter follows. `word` is what has been read of a word. -/
def splitCase (case : LetterCase) (word : Text) : Text → List Text
  | [] => []
  | [c] => [word ++ [c]]
  | c :: d :: rest =>
    if case.after c = .lower ∧ isUppercase d then (word ++ [c]) :: splitCase .none [] (d :: rest)
    else if case = .upper ∧ isUppercase c ∧ isLowercase d then word :: splitCase .none [c] (d :: rest)
    else splitCase (case.after c) (word ++ [c]) (d :: rest)

/-- The words of a name in any casing. -/
def nameWords (name : Text) : List Text :=
  (name.splitOnP fun c => !isAlphanumeric c).flatMap (splitCase .none [])

def lowerCamel (name : Text) : Text :=
  match nameWords name with
  | [] => []
  | word :: words => lowerWord word ++ words.flatMap capitalizeWord

def upperCamel (name : Text) : Text := (nameWords name).flatMap capitalizeWord

end SchemaDiagram
