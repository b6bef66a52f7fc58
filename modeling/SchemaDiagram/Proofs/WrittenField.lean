import SchemaDiagram.Proofs.AttributeTokens
import SchemaDiagram.Proofs.CodeLines
import SchemaDiagram.Proofs.FieldRow

namespace SchemaDiagram

open Text

/-- A text of ASCII letters, digits and underscores. It may be empty. -/
def IsPlainName (t : Text) : Prop := ∀ c ∈ t, isAscii c ∧ isWordChar c

/-- A field that can be written on a line of a plain text. If it has a name, it can be read again. -/
structure Field.IsWritable (f : Field) : Prop where
  name : IsPlainName f.name
  typed : IsTypeName f.type
  type : IsCode f.type
  tokens : AreTokens f.attributes
  attributes : ∀ a ∈ f.attributes, IsCode a
  relation : f.relation = relationOf f.attributes f.type f.isList

theorem isSafeChar_of_isWordChar {c : Char} (ascii : isAscii c) (letter : isWordChar c) : isSafeChar c := by
  have other : ∀ d ∈ ['"', '\n', '{', '}', '/'], isWordChar d = false := by decide
  have safe : c ∉ ['"', '\n', '{', '}', '/'] := fun member => by simp [other c member] at letter
  simpa [isSafeChar, ascii] using safe

theorem IsPlainName.isCode {t : Text} (plain : IsPlainName t) : IsCode t :=
  isCode_of_safe fun c member => isSafeChar_of_isWordChar (plain c member).1 (plain c member).2

theorem IsPlainName.append {s t : Text} (first : IsPlainName s) (second : IsPlainName t) : IsPlainName (s ++ t) :=
  fun c member => (List.mem_append.mp member).elim (first c) (second c)

theorem IsPlainName.isWord {t : Text} (plain : IsPlainName t) (nonempty : t ≠ []) : IsWord t :=
  ⟨nonempty, fun c member => (plain c member).2⟩

theorem joinWith_cons (separator part : Text) (parts : List Text) :
    joinWith separator (part :: parts) = part ++ parts.flatMap (separator ++ ·) := by
  induction parts generalizing part with
  | nil => simp [joinWith]
  | cons next parts ih =>
    rw [List.flatMap_cons, List.append_assoc, ← ih next]
    simp [joinWith]

namespace Field

variable {f : Field}

theorem render_eq (f : Field) :
    f.render = f.name ++ ' ' :: (f.label ++ f.attributes.flatMap (txt " " ++ ·)) := by
  rw [render, joinWith_cons, List.flatMap_cons]
  simp [txt]

theorem isCode_marks (f : Field) : IsCode f.marks := by
  refine isCode_of_safe fun c member => ?_
  rcases mem_marks member with rfl | rfl | rfl <;> decide

theorem IsWritable.label (writable : f.IsWritable) : IsCode f.label ∧ f.label ≠ [] ∧ Stops isBlank f.label.reverse := by
  obtain ⟨nonempty, ends⟩ := writable.typed.ends
  have noStar : f.marks.head? ≠ some '/' ∧ f.marks.head? ≠ some '*' := by
    constructor <;> exact fun head => by rcases mem_marks (List.mem_of_head? head) with same | same | same <;> cases same
  rw [label_eq]
  refine ⟨writable.type.append (isCode_marks f) fun _ => noStar, by simp [nonempty], ?_⟩
  by_cases noMarks : f.marks = []
  · rwa [noMarks, List.append_nil]
  · refine stops_reverse_append noMarks (stops_reverse_of_forall fun c member => ?_)
    rcases mem_marks member with rfl | rfl | rfl <;> rfl

/-- What stands behind the label. -/
theorem IsWritable.tail (writable : f.IsWritable) :
    IsCode (f.attributes.flatMap (txt " " ++ ·)) ∧ Follows [] (f.attributes.flatMap (txt " " ++ ·)) ∧
      Stops isBlank (f.attributes.flatMap (txt " " ++ ·)).reverse := by
  have tokens (a : Text) (member : a ∈ f.attributes) : IsCode a ∧ IsToken a :=
    ⟨writable.attributes a member, writable.tokens.isToken member⟩
  generalize f.attributes = attributes at tokens
  induction attributes with
  | nil => exact ⟨isCode_of_safe (by simp), (fun c head => by cases head), stops_nil _⟩
  | cons a later ih =>
    obtain ⟨⟨code, isToken⟩, rest⟩ := List.forall_mem_cons.mp tokens
    obtain ⟨codeLater, follows, ends⟩ := ih rest
    have split : (a :: later).flatMap (txt " " ++ ·) = [] ++ ' ' :: (a ++ later.flatMap (txt " " ++ ·)) := by
      simp [txt]
    have apart : a.getLast? = some '/' → (later.flatMap (txt " " ++ ·)).head? ≠ some '/' ∧
        (later.flatMap (txt " " ++ ·)).head? ≠ some '*' :=
      fun _ => ⟨follows.head?_ne (by simp) (by decide), follows.head?_ne (by simp) (by decide)⟩
    rw [split]
    refine ⟨(isCode_of_safe (by simp)).append_safe (by decide) (by decide) (code.append codeLater apart), ?_, ?_⟩
    · intro c head
      obtain rfl : ' ' = c := Option.some.inj head
      exact Or.inr (by decide)
    · obtain ⟨c, more, rfl⟩ := isToken.signed
      rw [List.nil_append, ← List.singleton_append, ← List.append_assoc]
      by_cases none : later.flatMap (txt " " ++ ·) = []
      · rw [none, List.append_nil]
        exact stops_reverse_append (by simp) isToken.ends
      · exact stops_reverse_append none ends

/-- A writable field gives a line. -/
theorem IsWritable.isFieldLine (writable : f.IsWritable) : IsFieldLine f.render := by
  obtain ⟨labelCode, nonempty, labelEnds⟩ := writable.label
  obtain ⟨tailCode, follows, tailEnds⟩ := writable.tail
  have apart : f.label.getLast? = some '/' → (f.attributes.flatMap (txt " " ++ ·)).head? ≠ some '/' ∧
      (f.attributes.flatMap (txt " " ++ ·)).head? ≠ some '*' :=
    fun _ => ⟨follows.head?_ne (by simp) (by decide), follows.head?_ne (by simp) (by decide)⟩
  rw [render_eq]
  refine ⟨writable.name.isCode.append_safe (by decide) (by decide) (labelCode.append tailCode apart), by simp, ?_⟩
  rw [← List.singleton_append, ← List.append_assoc, ← List.append_assoc]
  by_cases none : f.attributes.flatMap (txt " " ++ ·) = []
  · rw [none, List.append_nil]
    exact stops_reverse_append nonempty labelEnds
  · exact stops_reverse_append none tailEnds

theorem IsWritable.trim_render (writable : f.IsWritable) (named : f.name ≠ []) : trim f.render = f.render := by
  refine trim_eq_self ?_ writable.isFieldLine.ends
  rw [render_eq]
  exact (writable.name.isWord named).stops_isBlank _

/-- The line of a field with a name gives the field back. -/
theorem IsWritable.read (writable : f.IsWritable) (named : f.name ≠ []) : lineField? f.render = some f := by
  have word := writable.name.isWord named
  obtain ⟨tailCode, follows, -⟩ := writable.tail
  have gapped : [' '] ≠ [] := by simp
  have parsed := parseField_append f word writable.typed gapped (by decide) follows tailCode.inLine
  rw [extractAttributes_dropWhile, writable.tokens.extractAttributes, ← writable.relation] at parsed
  have whole : f.render = f.name ++ [' '] ++ f.label ++ f.attributes.flatMap (txt " " ++ ·) := by
    simp [render_eq]
  have noSign : isAttributeLine f.render = false := by
    obtain ⟨c, more, atName⟩ := List.exists_cons_of_ne_nil named
    have letter := word.2 c (by simp [atName])
    have other : c ≠ '@' := by
      rintro rfl
      exact absurd letter (by decide)
    simpa [isAttributeLine, render_eq, atName] using other
  rw [lineField?, noSign, if_neg (by decide), whole, parsed]

theorem parseField_of_gap {base gap : Text} (word : IsWord base) (stops : Stops isWordChar gap)
    (none : gap.head?.any isBlank = false ∨ Stops isWordChar (gap.dropWhile isBlank)) :
    parseField (base ++ gap) = .none := by
  simp only [parseField, takeWhile_append_stops word.2 stops, dropWhile_append_stops word.2 stops]
  rcases none with noGap | noType
  · simp [noGap]
  · have empty : (gap.dropWhile isBlank).takeWhile isWordChar = [] := by
      simpa using takeWhile_append_stops (a := []) (by simp) noType
    simp [empty]

/-- The line of a field without a name gives none: its type would be the name, and has no type behind it. -/
theorem IsWritable.silent (writable : f.IsWritable) (noName : f.name = []) :
    lineField? (trim f.render) = none := by
  obtain ⟨base, arguments, atType, word, form⟩ := writable.typed
  have trimmed : trim f.render = base ++ (arguments ++ (f.marks ++ f.attributes.flatMap (txt " " ++ ·))) := by
    have begins : Stops isBlank (base ++ (arguments ++ (f.marks ++ f.attributes.flatMap (txt " " ++ ·)))) :=
      word.stops_isBlank _
    have whole : f.render = [' '] ++ (base ++ (arguments ++ (f.marks ++ f.attributes.flatMap (txt " " ++ ·)))) := by
      simp [render_eq, noName, label_eq, atType]
    have ends := writable.isFieldLine.ends
    rw [whole] at ends ⊢
    rw [trim, trimStart, dropWhile_append_stops (by decide) begins]
    refine dropEndWhile_eq_self fun c head => ends c ?_
    obtain ⟨more, atEnd⟩ := List.head?_eq_some_iff.mp head
    rw [List.reverse_append, atEnd]
    rfl
  have noSign : isAttributeLine (trim f.render) = false := by
    obtain ⟨c, more, atBase⟩ := List.exists_cons_of_ne_nil word.1
    have letter := word.2 c (by simp [atBase])
    have other : c ≠ '@' := by
      rintro rfl
      exact absurd letter (by decide)
    simpa [trimmed, isAttributeLine, atBase] using other
  have atTail : f.attributes.flatMap (txt " " ++ ·) = [] ∨
      ∃ more, f.attributes.flatMap (txt " " ++ ·) = ' ' :: '@' :: more := by
    rcases atAttributes : f.attributes with _ | ⟨a, later⟩
    · exact Or.inl rfl
    · obtain ⟨c, more, rfl⟩ := (writable.tokens.isToken (a := a) (by simp [atAttributes])).signed
      exact Or.inr ⟨c :: more ++ later.flatMap (txt " " ++ ·), by simp [txt]⟩
  rw [lineField?, noSign, if_neg (by decide), trimmed]
  -- behind the word stands a sign, or else nothing that could be a type
  rcases form with rfl | ⟨inner, rfl, -⟩
  · rw [List.nil_append]
    rcases atMarks : f.marks with _ | ⟨c, marks⟩
    · rcases atTail with empty | ⟨more, signed⟩
      · rw [empty]
        exact parseField_of_gap word (stops_nil _) (Or.inr (stops_nil _))
      · rw [signed]
        exact parseField_of_gap word (stops_cons (by decide)) (Or.inr (stops_cons (by decide)))
    · have mark := mem_marks (f := f) (c := c) (by simp [atMarks])
      refine parseField_of_gap word (stops_cons ?_) (Or.inl ?_) <;> rcases mark with rfl | rfl | rfl <;> rfl
  · exact parseField_of_gap word (stops_cons (by decide)) (Or.inl rfl)

end Field

/-- The parts of a field are parts of its line. -/
theorem parseField_infix {line : Text} {f : Field} (read : parseField line = some f) :
    f.name <:+: line ∧ f.type <:+: line ∧ (∀ a ∈ f.attributes, a <:+: line) ∧ AreTokens f.attributes ∧
      f.relation = relationOf f.attributes f.type f.isList := by
  obtain ⟨-, -, ⟨gap, rest, whole, -⟩, -⟩ := parseField_form read
  refine ⟨⟨[], _, whole.symm⟩, ⟨f.name ++ gap, rest, by simp [whole]⟩, ?_⟩
  have groupSuffix (t : Text) : (splitGroup t).2 <:+ t := ⟨_, (splitGroup_form t).1⟩
  simp only [parseField] at read
  split at read
  · cases read
  · cases read
    refine ⟨fun a member => (mem_attributesFrom member).2.trans ?_, areTokens_extractAttributes _, rfl⟩
    exact ((List.dropWhile_suffix _).trans <| (splitMark_isSuffix _ _).trans <| (splitMark_isSuffix _ _).trans <|
      (groupSuffix _).trans <| (List.dropWhile_suffix _).trans <| (List.dropWhile_suffix _).trans <|
      List.dropWhile_suffix _).isInfix

/-- The fields of a plain text can be written. -/
theorem IsBodyRow.isWritable {r : Text} (plain : IsBodyRow r) {f : Field} (read : rowField? r = some f) :
    f.IsWritable := by
  have code : IsCode (rowLine r) := plain.isCode.of_infix (trim_isInfix _)
  have parsed : parseField (rowLine r) = some f := by
    rw [rowField?, lineField?] at read
    split at read
    · cases read
    · exact read
  obtain ⟨word, typed, -⟩ := parseField_form parsed
  obtain ⟨name, type, attributes, tokens, relation⟩ := parseField_infix parsed
  exact ⟨fun c member => ⟨code.ascii c (name.subset member), word.2 c member⟩, typed, code.of_infix type, tokens,
    fun a member => code.of_infix (attributes a member), relation⟩

end SchemaDiagram
