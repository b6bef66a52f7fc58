import SchemaDiagram.Proofs.Spans
import SchemaDiagram.Source.Outline

namespace SchemaDiagram

open Text

theorem Keyword.read?_eq_some_iff {t rest : Text} {keyword : Keyword} :
    Keyword.read? t = some (keyword, rest) ↔ t = keyword.name ++ rest := by
  constructor
  · intro read
    obtain ⟨found, -, here⟩ := List.exists_of_findSome?_eq_some read
    obtain ⟨later, before, same⟩ := Option.map_eq_some_iff.mp here
    cases same
    exact isPrefixOf?_eq_some_iff.mp before
  · rintro rfl
    cases keyword <;> rfl

theorem Keyword.stops_name (keyword : Keyword) {p : Char → Bool} (noLetter : ∀ c, c.isAlpha → p c = false)
    (t : Text) : Stops p (keyword.name ++ t) := by
  cases keyword <;> exact stops_cons (noLetter _ (by decide))

/-- The text of a header before its brace: indentation, keyword, gap, name and white space. -/
def IsHead (keyword : Keyword) (name lead : Text) : Prop :=
  ∃ indent gap blanks, lead = indent ++ keyword.name ++ gap ++ name ++ blanks ∧
    (∀ c ∈ indent, isPad c) ∧ gap ≠ [] ∧ (∀ c ∈ gap, isPad c) ∧
    name ≠ [] ∧ (∀ c ∈ name, isWordChar c) ∧ ∀ c ∈ blanks, isBlank c

theorem isPad_eq_false_of_isWordChar {c : Char} (word : isWordChar c) : isPad c = false := by
  by_contra pad
  have blank := isBlank_of_isPad (c := c) (by simpa using pad)
  simp [isBlank_eq_false_of_isWordChar word] at blank

theorem isPad_eq_false_of_isAlpha {c : Char} (letter : c.isAlpha) : isPad c = false :=
  isPad_eq_false_of_isWordChar (isWordChar_of_isAlphanum (by simp [Char.isAlphanum, letter]))

theorem Header.read?_form {start : Nat} {line : Text} {h : Header} (read : Header.read? start line = some h) :
    ∃ lead rest, line = lead ++ '{' :: rest ∧ IsHead h.keyword h.name lead ∧
      h.start = start ∧ h.brace = start + byteSize lead := by
  simp only [Header.read?, Option.bind_eq_bind, Option.bind_eq_some_iff] at read
  obtain ⟨⟨keyword, rest⟩, atKeyword, read⟩ := read
  have afterIndent := Keyword.read?_eq_some_iff.mp atKeyword
  split at read
  case isFalse => cases read
  case isTrue formed =>
    simp only [Bool.and_eq_true, Bool.not_eq_true', decide_eq_true_eq] at formed
    obtain ⟨⟨padded, named⟩, atBrace⟩ := formed
    obtain ⟨tail, opening⟩ := List.head?_eq_some_iff.mp atBrace
    have whole : line = line.takeWhile isPad ++ keyword.name ++ rest.takeWhile isPad ++
        (rest.dropWhile isPad).takeWhile isWordChar ++
        ((rest.dropWhile isPad).dropWhile isWordChar).takeWhile isBlank ++ '{' :: tail := by
      rw [← opening]
      simp only [List.append_assoc, List.takeWhile_append_dropWhile]
      rw [← afterIndent, List.takeWhile_append_dropWhile]
    refine ⟨_, tail, whole, ?_⟩
    cases read
    refine ⟨⟨_, _, _, rfl, fun _ => List.mem_takeWhile_imp, ?_, fun _ => List.mem_takeWhile_imp, ?_,
      fun _ => List.mem_takeWhile_imp, fun _ => List.mem_takeWhile_imp⟩, rfl, ?_⟩
    · rcases rest with _ | ⟨c, rest⟩
      · simp at padded
      · rw [List.takeWhile_cons_of_pos (by simpa using padded)]
        simp
    · simpa using named
    · have size := congrArg byteSize whole
      rw [byteSize_append] at size
      simp only [opening]
      omega

theorem IsHead.read?_append {keyword : Keyword} {name lead : Text} (head : IsHead keyword name lead)
    (start : Nat) (rest : Text) :
    Header.read? start (lead ++ '{' :: rest) =
      some { keyword, name, start, brace := start + byteSize lead } := by
  obtain ⟨indent, gap, blanks, rfl, inIndent, gapped, inGap, named, inName, inBlanks⟩ := head
  have indented : (indent ++ (keyword.name ++ (gap ++ (name ++ (blanks ++ '{' :: rest))))).dropWhile isPad =
      keyword.name ++ (gap ++ (name ++ (blanks ++ '{' :: rest))) :=
    dropWhile_append_stops inIndent (keyword.stops_name (fun _ => isPad_eq_false_of_isAlpha) _)
  have nameStops : Stops isPad (name ++ (blanks ++ '{' :: rest)) := by
    obtain ⟨c, tail, rfl⟩ := List.exists_cons_of_ne_nil named
    exact stops_cons (isPad_eq_false_of_isWordChar (inName c List.mem_cons_self))
  have blankStops : Stops isWordChar (blanks ++ '{' :: rest) := by
    rcases blanks with _ | ⟨d, blanks⟩
    · exact stops_cons (by decide)
    · exact stops_cons (isWordChar_eq_false_of_isBlank (inBlanks d List.mem_cons_self))
  have braceStops : Stops isBlank ('{' :: rest) := stops_cons (by decide)
  obtain ⟨pad, gap, rfl⟩ := List.exists_cons_of_ne_nil gapped
  have padded : isPad pad := inGap pad List.mem_cons_self
  simp only [Header.read?, List.append_assoc, indented, Option.bind_eq_bind,
    Keyword.read?_eq_some_iff.mpr rfl, Option.bind_some, dropWhile_append_stops inGap nameStops,
    takeWhile_append_stops inName blankStops, dropWhile_append_stops inName blankStops,
    dropWhile_append_stops inBlanks braceStops]
  have size : byteSize (indent ++ (keyword.name ++ (pad :: gap ++ (name ++ (blanks ++ '{' :: rest))))) -
      byteSize ('{' :: rest) = byteSize (indent ++ (keyword.name ++ (pad :: gap ++ (name ++ blanks)))) := by
    simp only [byteSize_append]
    omega
  rw [size]
  simp [padded, named]

/-- A header is read exactly where a line has its form up to the brace. -/
theorem Header.read?_eq_some_iff {start : Nat} {line : Text} {h : Header} :
    Header.read? start line = some h ↔
      ∃ lead rest, line = lead ++ '{' :: rest ∧ IsHead h.keyword h.name lead ∧
        h.start = start ∧ h.brace = start + byteSize lead := by
  refine ⟨Header.read?_form, ?_⟩
  rintro ⟨lead, rest, rfl, head, rfl, atBrace⟩
  rw [head.read?_append, ← atBrace]

/-- Only the white space in front of the brace may hold a newline, and no part holds a brace. -/
theorem IsHead.parts {keyword : Keyword} {name lead : Text} (head : IsHead keyword name lead) :
    ∃ words blanks, lead = words ++ blanks ∧ (∀ c ∈ words, c ≠ '\n' ∧ c ≠ '{' ∧ c ≠ '}') ∧
      ∀ c ∈ blanks, isBlank c := by
  obtain ⟨indent, gap, blanks, rfl, inIndent, -, inGap, -, inName, inBlanks⟩ := head
  refine ⟨_, blanks, rfl, ?_, inBlanks⟩
  have ofPad (c : Char) (pad : isPad c) : c ≠ '\n' ∧ c ≠ '{' ∧ c ≠ '}' := by
    refine ⟨?_, ?_, ?_⟩ <;> rintro rfl <;> revert pad <;> decide
  have ofWord (c : Char) (word : isWordChar c) : c ≠ '\n' ∧ c ≠ '{' ∧ c ≠ '}' := by
    refine ⟨?_, ?_, ?_⟩ <;> rintro rfl <;> revert word <;> decide
  have ofKeyword : ∀ c ∈ keyword.name, c ≠ '\n' ∧ c ≠ '{' ∧ c ≠ '}' := by
    cases keyword <;> decide
  intro c member
  simp only [List.mem_append] at member
  rcases member with ((inside | inside) | inside) | inside
  · exact ofPad c (inIndent c inside)
  · exact ofKeyword c inside
  · exact ofPad c (inGap c inside)
  · exact ofWord c (inName c inside)

theorem IsHead.no_brace {keyword : Keyword} {name lead : Text} (head : IsHead keyword name lead) :
    ∀ c ∈ lead, c ≠ '{' ∧ c ≠ '}' := by
  obtain ⟨words, blanks, rfl, inWords, inBlanks⟩ := head.parts
  intro c member
  rcases List.mem_append.mp member with inside | inside
  · exact (inWords c inside).2
  · have blank := inBlanks c inside
    refine ⟨?_, ?_⟩ <;> rintro rfl <;> revert blank <;> decide

theorem IsHead.byteSize_pos {keyword : Keyword} {name lead : Text} (head : IsHead keyword name lead) :
    0 < byteSize lead := by
  obtain ⟨indent, gap, blanks, rfl, -⟩ := head
  have letters : 0 < byteSize keyword.name := by cases keyword <;> decide
  simp only [byteSize_append]
  omega

/-- Behind white space a header begins with a letter. -/
theorem IsHead.dropWhile_isBlank {keyword : Keyword} {name lead : Text} (head : IsHead keyword name lead)
    (rest : Text) : ∃ later, (lead ++ rest).dropWhile isBlank = keyword.name ++ later := by
  obtain ⟨indent, gap, blanks, rfl, inIndent, -⟩ := head
  refine ⟨gap ++ (name ++ (blanks ++ rest)), ?_⟩
  simp only [List.append_assoc]
  refine dropWhile_append_stops (fun c inside => isBlank_of_isPad (inIndent c inside))
    (keyword.stops_name (fun c letter => ?_) _)
  exact isBlank_eq_false_of_isWordChar (isWordChar_of_isAlphanum (by simp [Char.isAlphanum, letter]))

/-- No header begins between the start of a header and its brace. -/
theorem Header.read?_brace_lt {start : Nat} {before line : Text} {h next : Header}
    (read : Header.read? start (before ++ '\n' :: line) = some h)
    (later : Header.read? (start + byteSize before + 1) line = some next) : h.brace < next.start := by
  obtain ⟨lead, rest, whole, head, -, atBrace⟩ := Header.read?_eq_some_iff.mp read
  obtain ⟨lead', rest', rfl, head', atStart, -⟩ := Header.read?_eq_some_iff.mp later
  rcases List.append_eq_append_iff.mp whole with ⟨part, leadEq, restEq⟩ | ⟨part, beforeEq, restEq⟩
  · -- the newline stands before the brace, so only white space is between the two
    rcases part with _ | ⟨c, part⟩
    · cases restEq
    obtain rfl : '\n' = c := (List.cons_eq_cons.mp restEq).1
    have lineEq : lead' ++ '{' :: rest' = part ++ '{' :: rest := (List.cons_eq_cons.mp restEq).2
    obtain ⟨words, blanks, split, inWords, inBlanks⟩ := head.parts
    have inPart : ∀ c ∈ part, isBlank c := by
      rw [split] at leadEq
      rcases List.append_eq_append_iff.mp leadEq with ⟨x, -, blanksEq⟩ | ⟨x, wordsEq, partEq⟩
      · intro c member
        exact inBlanks c (by simp [blanksEq, member])
      · rcases x with _ | ⟨d, x⟩
        · have blanksEq : '\n' :: part = blanks := partEq
          intro c member
          exact inBlanks c (blanksEq ▸ List.mem_cons_of_mem _ member)
        · obtain ⟨rfl, -⟩ := List.cons_eq_cons.mp partEq
          exact absurd rfl (inWords '\n' (by simp [wordsEq])).1
    obtain ⟨letters, dropped⟩ := head'.dropWhile_isBlank ('{' :: rest')
    rw [lineEq, dropWhile_append_stops inPart (stops_cons (by decide))] at dropped
    generalize next.keyword = keyword at dropped
    cases keyword <;> cases dropped
  · have size : byteSize before = byteSize lead + byteSize part := by rw [beforeEq, byteSize_append]
    omega

end SchemaDiagram
