namespace SchemaDiagram

/-- The white space of a text: the characters with the Unicode property White_Space. -/
def isBlank (c : Char) : Bool :=
  c = ' ' || (9 ≤ c.val && c.val ≤ 13) || c.val = 0x85 || c.val = 0xA0 || c.val = 0x1680 ||
    (0x2000 ≤ c.val && c.val ≤ 0x200A) || c.val = 0x2028 || c.val = 0x2029 || c.val = 0x202F ||
    c.val = 0x205F || c.val = 0x3000

/-- The white space that indents a line and pads its columns: space and tab. -/
def isPad (c : Char) : Bool :=
  c = ' ' || c = '\t'

theorem isBlank_of_isPad {c : Char} (pad : isPad c) : isBlank c := by
  simp only [isPad, Bool.or_eq_true, decide_eq_true_eq] at pad
  rcases pad with rfl | rfl <;> decide

/-- A text is its characters. Offsets into a text count the bytes of its UTF-8 form. -/
abbrev Text := List Char

namespace Text

def byteSize : Text → Nat
  | [] => 0
  | c :: cs => c.utf8Size + byteSize cs

/-- The longest beginning that takes at most `n` bytes. -/
def takeBytes : Nat → Text → Text
  | _, [] => []
  | n, c :: cs => if c.utf8Size ≤ n then c :: takeBytes (n - c.utf8Size) cs else []

/-- What `takeBytes n` leaves. -/
def dropBytes : Nat → Text → Text
  | _, [] => []
  | n, c :: cs => if c.utf8Size ≤ n then dropBytes (n - c.utf8Size) cs else c :: cs

/-- The part between two offsets. -/
def slice (start stop : Nat) (t : Text) : Text :=
  takeBytes (stop - start) (dropBytes start t)

/-- An offset that falls between two characters. -/
def IsBoundary (t : Text) (n : Nat) : Prop :=
  ∃ before after, t = before ++ after ∧ byteSize before = n

@[simp] theorem byteSize_nil : byteSize [] = 0 := rfl

@[simp] theorem byteSize_cons (c : Char) (t : Text) : byteSize (c :: t) = c.utf8Size + byteSize t := rfl

@[simp] theorem byteSize_append (a b : Text) : byteSize (a ++ b) = byteSize a + byteSize b := by
  induction a with
  | nil => simp
  | cons c a ih => simp only [List.cons_append, byteSize_cons, ih]; omega

@[simp] theorem takeBytes_append_dropBytes (n : Nat) (t : Text) : takeBytes n t ++ dropBytes n t = t := by
  induction t generalizing n with
  | nil => rfl
  | cons c t ih =>
    simp only [takeBytes, dropBytes]
    split
    · simp [ih]
    · rfl

theorem dropBytes_zero (t : Text) : dropBytes 0 t = t := by
  cases t with
  | nil => rfl
  | cons c t =>
    have positive := c.utf8Size_pos
    rw [dropBytes, if_neg (by omega)]

theorem takeBytes_zero (t : Text) : takeBytes 0 t = [] := by
  cases t with
  | nil => rfl
  | cons c t =>
    have positive := c.utf8Size_pos
    rw [takeBytes, if_neg (by omega)]

theorem takeBytes_byteSize_append (a b : Text) : takeBytes (byteSize a) (a ++ b) = a := by
  induction a with
  | nil => exact takeBytes_zero b
  | cons c a ih =>
    simp only [List.cons_append, takeBytes, byteSize_cons]
    rw [if_pos (by omega), Nat.add_sub_cancel_left, ih]

theorem dropBytes_byteSize_append (a b : Text) : dropBytes (byteSize a) (a ++ b) = b := by
  induction a with
  | nil => exact dropBytes_zero b
  | cons c a ih =>
    simp only [List.cons_append, dropBytes, byteSize_cons]
    rw [if_pos (by omega), Nat.add_sub_cancel_left, ih]

/-- Cutting at two boundaries gives exactly the text between them. -/
theorem slice_append (a b c : Text) : slice (byteSize a) (byteSize a + byteSize b) (a ++ b ++ c) = b := by
  rw [slice, List.append_assoc, dropBytes_byteSize_append, Nat.add_sub_cancel_left,
    takeBytes_byteSize_append]

/-- Removes the characters of a class from the end. -/
def dropEndWhile (p : Char → Bool) (t : Text) : Text :=
  (t.reverse.dropWhile p).reverse

def trimStart (t : Text) : Text := t.dropWhile isBlank

def trimEnd (t : Text) : Text := dropEndWhile isBlank t

def trim (t : Text) : Text := trimEnd (trimStart t)

/-- The spaces and tabs that a text opens with. -/
def indent (t : Text) : Text := t.takeWhile isPad

/-- The lines of a text, each with the newline that ends it. -/
def lines : Text → List Text
  | [] => []
  | c :: cs =>
    if c = '\n' then [c] :: lines cs
    else match lines cs with
      | [] => [[c]]
      | line :: rest => (c :: line) :: rest

theorem flatten_lines (t : Text) : (lines t).flatten = t := by
  induction t with
  | nil => rfl
  | cons c t ih =>
    rw [lines]
    split
    · simp [ih]
    · split <;> rename_i found <;> rw [found] at ih <;> simp_all

/-- What stands after the last newline. -/
def lastLine (t : Text) : Text := (t.reverse.takeWhile (· ≠ '\n')).reverse

/-- The first run of characters that are not blank. -/
def firstWord? (t : Text) : Option Text :=
  match (trimStart t).takeWhile (fun c => !isBlank c) with
  | [] => none
  | word => some word

/-- Whether `part` occurs in a text. -/
def occurs (part : Text) : Text → Bool
  | [] => part.isEmpty
  | c :: cs => part.isPrefixOf (c :: cs) || occurs part cs

/-- The pieces between the commas, trimmed, without the empty ones. -/
def commaList (t : Text) : List Text :=
  ((t.splitOn ',').map trim).filter (fun piece => !piece.isEmpty)

end Text

/-- A literal text. -/
def txt (s : String) : Text := s.toList

def joinWith (separator : Text) (parts : List Text) : Text := (parts.intersperse separator).flatten

/-- Fills a cell up to a width with spaces. -/
def padTo (width : Nat) (t : Text) : Text := t ++ List.replicate (width - t.length) ' '

end SchemaDiagram
