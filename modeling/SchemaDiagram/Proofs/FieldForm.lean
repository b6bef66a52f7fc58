import SchemaDiagram.Proofs.Words
import SchemaDiagram.Schema.Line

namespace SchemaDiagram

open Text

/-- A type as a field names it: a word, which may have arguments. -/
def IsTypeName (type : Text) : Prop :=
  ∃ base arguments, type = base ++ arguments ∧ IsWord base ∧
    (arguments = [] ∨ ∃ inner, arguments = '(' :: inner ++ [')'] ∧ ')' ∉ inner)

theorem splitGroup_of_head {t : Text} (noGroup : t.head? ≠ some '(') : splitGroup t = ([], t) := by
  unfold splitGroup
  split
  · exact absurd rfl noGroup
  · rfl

theorem splitGroup_append {inner : Text} (noClose : ')' ∉ inner) (rest : Text) :
    splitGroup ('(' :: inner ++ [')'] ++ rest) = ('(' :: inner ++ [')'], rest) := by
  have inside : ∀ c ∈ '(' :: inner, decide (c ≠ ')') = true := by
    intro c member
    rcases List.mem_cons.mp member with rfl | later
    · rfl
    · simpa using fun close : c = ')' => noClose (close ▸ later)
  have stops : Stops (fun c => decide (c ≠ ')')) (')' :: rest) := stops_cons rfl
  have taken := takeWhile_append_stops inside stops
  have dropped := dropWhile_append_stops inside stops
  have whole : '(' :: inner ++ [')'] ++ rest = '(' :: (inner ++ ')' :: rest) := by simp
  rw [whole, splitGroup, ← List.cons_append, dropped, taken]
  rfl

theorem splitGroup_form (t : Text) :
    (splitGroup t).1 ++ (splitGroup t).2 = t ∧
      ((splitGroup t).1 = [] ∨ ∃ inner, (splitGroup t).1 = '(' :: inner ++ [')'] ∧ ')' ∉ inner) := by
  by_cases opens : t.head? = some '('
  · obtain ⟨t, rfl⟩ := List.head?_eq_some_iff.mp opens
    by_cases closes : ')' ∈ t
    · obtain ⟨inner, rest, rfl, noClose⟩ := List.eq_append_cons_of_mem closes
      have split := splitGroup_append noClose rest
      simp only [List.cons_append, List.append_assoc, List.nil_append] at split
      rw [split]
      exact ⟨by simp, Or.inr ⟨inner, rfl, noClose⟩⟩
    · have unclosed : ('(' :: t).dropWhile (· ≠ ')') = [] := by
        simpa using fun c member (close : c = ')') => closes (close ▸ member)
      rw [splitGroup, unclosed]
      exact ⟨rfl, Or.inl rfl⟩
  · rw [splitGroup_of_head opens]
    exact ⟨rfl, Or.inl rfl⟩

theorem splitMark_append (mark rest : Text) : splitMark mark (mark ++ rest) = (true, rest) := by
  rw [splitMark, isPrefixOf?_eq_some_iff.mpr rfl]

theorem splitMark_of_head {c : Char} {mark t : Text} (noMark : t.head? ≠ some c) :
    splitMark (c :: mark) t = (false, t) := by
  unfold splitMark
  split
  · rename_i rest found
    rw [isPrefixOf?_eq_some_iff.mp found] at noMark
    exact absurd rfl noMark
  · rfl

theorem splitMark_if {c : Char} {mark rest : Text} (present : Bool) (noMark : rest.head? ≠ some c) :
    splitMark (c :: mark) ((if present then c :: mark else []) ++ rest) = (present, rest) := by
  cases present with
  | false => exact splitMark_of_head noMark
  | true => exact splitMark_append _ _

theorem splitMark_isSuffix (mark t : Text) : (splitMark mark t).2 <:+ t := by
  unfold splitMark
  split
  · rename_i rest found
    exact ⟨mark, (isPrefixOf?_eq_some_iff.mp found).symm⟩
  · exact List.suffix_rfl

theorem Follows.mark {marks : List Char} {rest : Text} (follows : Follows marks rest) (c : Char) (mark : Text)
    (present : Bool) : Follows (c :: marks) ((if present then c :: mark else []) ++ rest) := by
  cases present with
  | false => exact follows.mono fun d member => List.mem_cons_of_mem c member
  | true => exact Follows.cons List.mem_cons_self

/-- A field is read from its name, its label and what stands behind. -/
theorem parseField_append (f : Field) {gap rest : Text} (named : IsWord f.name) (typed : IsTypeName f.type)
    (gapped : gap ≠ []) (inGap : ∀ c ∈ gap, isBlank c) (parted : Follows [] rest) (inLine : '\n' ∉ rest) :
    parseField (f.name ++ gap ++ f.label ++ rest) = some
      { f with
        attributes := extractAttributes (rest.dropWhile isBlank)
        relation := relationOf (extractAttributes (rest.dropWhile isBlank)) f.type f.isList } := by
  obtain ⟨base, arguments, atType, word, form⟩ := typed
  obtain ⟨optional, atOptional⟩ : ∃ t, t = (if f.isOptional then txt "?" else []) ++ rest := ⟨_, rfl⟩
  obtain ⟨list, atList⟩ : ∃ t, t = (if f.isList then txt "[]" else []) ++ optional := ⟨_, rfl⟩
  have whole : f.name ++ gap ++ f.label ++ rest = f.name ++ (gap ++ (base ++ (arguments ++ list))) := by
    simp [Field.label, typeLabel, atType, atOptional, atList]
  -- behind each part stands the sign of a later one, white space or nothing
  have atMark : Follows ['?'] optional := atOptional ▸ parted.mark '?' [] f.isOptional
  have atBrackets : Follows ['[', '?'] list := atList ▸ atMark.mark '[' [']'] f.isList
  have behindBase : Follows ['(', '[', '?'] (arguments ++ list) := by
    rcases form with rfl | ⟨inner, rfl, -⟩
    · exact atBrackets.mono (by simp)
    · exact Follows.cons (by decide)
  have splitArguments : splitGroup (arguments ++ list) = (arguments, list) := by
    rcases form with rfl | ⟨inner, rfl, noClose⟩
    · exact splitGroup_of_head (atBrackets.head?_ne (by decide) (by decide))
    · exact splitGroup_append noClose _
  have splitList : splitMark (txt "[]") list = (f.isList, optional) :=
    atList ▸ splitMark_if f.isList (atMark.head?_ne (by decide) (by decide))
  have splitOptional : splitMark (txt "?") optional = (f.isOptional, rest) :=
    atOptional ▸ splitMark_if f.isOptional (parted.head?_ne (by simp) (by decide))
  obtain ⟨blank, more, atGap⟩ := List.exists_cons_of_ne_nil gapped
  have firstBlank : isBlank blank := inGap blank (by simp [atGap])
  have nameStops (t : Text) : Stops isWordChar (gap ++ t) := by
    rw [atGap]
    exact stops_cons (isWordChar_eq_false_of_isBlank firstBlank)
  have parts (t : Text) : (gap ++ t).head?.any isBlank = true := by
    rw [atGap]
    simpa using firstBlank
  have baseStops : Stops isWordChar (arguments ++ list) := behindBase.stops_isWordChar (by decide)
  have noNewline : (rest.dropWhile isBlank).contains '\n' = false := by
    simpa using fun member => inLine (List.dropWhile_sublist isBlank |>.mem member)
  have isNamed : f.name.isEmpty = false := by simpa using named.1
  have isBased : base.isEmpty = false := by simpa using word.1
  rw [whole, parseField]
  simp only [takeWhile_append_stops named.2 (nameStops _), dropWhile_append_stops named.2 (nameStops _),
    dropWhile_append_stops inGap (word.stops_isBlank _), takeWhile_append_stops word.2 baseStops,
    dropWhile_append_stops word.2 baseStops, splitArguments, splitList, splitOptional, noNewline, isNamed,
    isBased, parts, ← atType]
  rfl

/-- A field was read from a name, a type and what stands behind. -/
theorem parseField_form {line : Text} {f : Field} (read : parseField line = some f) :
    IsWord f.name ∧ IsTypeName f.type ∧
      (∃ gap rest, line = f.name ++ (gap ++ (f.type ++ rest)) ∧ ∀ c ∈ gap, isBlank c) ∧
      ∃ tail, '\n' ∉ tail ∧ f.attributes = extractAttributes tail := by
  simp only [parseField] at read
  split at read
  case isTrue => cases read
  case isFalse formed =>
    simp only [Bool.or_eq_true, not_or, Bool.not_eq_true, List.isEmpty_eq_false_iff] at formed
    obtain ⟨⟨⟨named, -⟩, based⟩, oneLine⟩ := formed
    cases read
    obtain ⟨marked, atMarked⟩ :
        ∃ marked, marked = ((line.dropWhile isWordChar).dropWhile isBlank).dropWhile isWordChar := ⟨_, rfl⟩
    rw [← atMarked] at oneLine ⊢
    obtain ⟨group, form⟩ := splitGroup_form marked
    refine ⟨⟨named, fun _ => List.mem_takeWhile_imp⟩,
      ⟨_, _, rfl, ⟨based, fun _ => List.mem_takeWhile_imp⟩, form⟩,
      ⟨(line.dropWhile isWordChar).takeWhile isBlank, (splitGroup marked).2, ?_,
        fun _ => List.mem_takeWhile_imp⟩,
      _, by simpa using oneLine, rfl⟩
    rw [List.append_assoc, group, atMarked, List.takeWhile_append_dropWhile, List.takeWhile_append_dropWhile,
      List.takeWhile_append_dropWhile]

end SchemaDiagram
