import SchemaDiagram.Proofs.AttributeForm
import SchemaDiagram.Proofs.BodyRows
import SchemaDiagram.Proofs.FieldForm

namespace SchemaDiagram

open Text

/-- A field with a name and a type that a line can hold. -/
structure Field.IsFormed (f : Field) : Prop where
  named : IsWord f.name
  typed : IsTypeName f.type
  oneLine : '\n' ∉ f.type
  free : CommentFree .outside f.type

theorem IsTypeName.ends {type : Text} (typed : IsTypeName type) : type ≠ [] ∧ Stops isBlank type.reverse := by
  obtain ⟨base, arguments, rfl, word, rfl | ⟨inner, rfl, -⟩⟩ := typed
  · rw [List.append_nil]
    exact ⟨word.1, word.ends⟩
  · refine ⟨by simp, stops_reverse_append (by simp) ?_⟩
    rw [List.reverse_append]
    exact stops_cons (by decide)

namespace Field

/-- The marks behind the type. -/
def marks (f : Field) : Text := (if f.isList then txt "[]" else []) ++ (if f.isOptional then txt "?" else [])

theorem label_eq (f : Field) : f.label = f.type ++ f.marks := by
  simp [label, typeLabel, marks]

theorem mem_marks {f : Field} {c : Char} (member : c ∈ f.marks) : c = '[' ∨ c = ']' ∨ c = '?' := by
  rcases List.mem_append.mp member with inList | inOptional
  · split at inList
    · have either : c = '[' ∨ c = ']' := by simpa [txt] using inList
      exact either.imp id Or.inl
    · cases inList
  · split at inOptional
    · exact Or.inr (Or.inr (by simpa [txt] using inOptional))
    · cases inOptional

variable {f : Field}

theorem IsFormed.label_ends (formed : f.IsFormed) : f.label ≠ [] ∧ Stops isBlank f.label.reverse := by
  obtain ⟨nonempty, ends⟩ := formed.typed.ends
  rw [label_eq]
  refine ⟨by simp [nonempty], ?_⟩
  by_cases noMarks : f.marks = []
  · rwa [noMarks, List.append_nil]
  · refine stops_reverse_append noMarks (stops_reverse_of_forall fun c member => ?_)
    rcases mem_marks member with rfl | rfl | rfl <;> rfl

/-- A row in its parts. Only what stands behind the label can lose white space at the end. -/
theorem IsFormed.row_eq (formed : f.IsFormed) (nameWidth labelWidth : Nat) :
    ∃ gap tail, f.row nameWidth labelWidth = txt "  " ++ (f.name ++ gap ++ f.label) ++ tail ++ ['\n'] ∧
      gap ≠ [] ∧ (∀ c ∈ gap, c = ' ') ∧
      tail = trimEnd (List.replicate (labelWidth - f.label.length) ' ' ++
        f.attributes.flatMap (txt " " ++ ·)) := by
  refine ⟨List.replicate (nameWidth - f.name.length) ' ' ++ txt " ", _, ?_, by simp [txt], ?_, rfl⟩
  · obtain ⟨nonempty, ends⟩ := formed.label_ends
    have whole : txt "  " ++ padTo nameWidth f.name ++ txt " " ++ padTo labelWidth f.label ++
        f.attributes.flatMap (txt " " ++ ·) =
          txt "  " ++ (f.name ++ (List.replicate (nameWidth - f.name.length) ' ' ++ txt " ") ++ f.label) ++
            (List.replicate (labelWidth - f.label.length) ' ' ++ f.attributes.flatMap (txt " " ++ ·)) := by
      simp [padTo]
    have stops : Stops isBlank (txt "  " ++
        (f.name ++ (List.replicate (nameWidth - f.name.length) ' ' ++ txt " ") ++ f.label)).reverse := by
      rw [← List.append_assoc]
      exact stops_reverse_append nonempty ends
    rw [row, whole, trimEnd, dropEndWhile_append stops]
    rfl
  · intro c member
    rcases List.mem_append.mp member with pad | space
    · exact List.eq_of_mem_replicate pad
    · simpa [txt] using space

theorem tail_follows (f : Field) (width : Nat) :
    Follows [] (trimEnd (List.replicate width ' ' ++ f.attributes.flatMap (txt " " ++ ·))) := by
  refine Follows.of_isPrefix ?_ (dropEndWhile_isPrefix isBlank _)
  intro c head
  have space : c = ' ' := by
    rcases width with _ | width
    · rcases atAttributes : f.attributes with _ | ⟨a, attributes⟩
      · simp [atAttributes] at head
      · simpa [atAttributes, txt, eq_comm] using head
    · simpa [List.replicate_succ, eq_comm] using head
  exact Or.inr (by rw [space]; decide)

/-- Up to its label a row is free of comments. -/
theorem IsFormed.lead_commentFree (formed : f.IsFormed) {gap : Text} (inGap : ∀ c ∈ gap, c = ' ') :
    CommentFree .outside (txt "  " ++ (f.name ++ gap ++ f.label)) ∧
      '\n' ∉ txt "  " ++ (f.name ++ gap ++ f.label) := by
  have noWhere {c : Char} (other : isWordChar c = false) (noSpace : c ≠ ' ') :
      c ∉ txt "  " ++ f.name ++ gap := by
    intro member
    rcases List.mem_append.mp member with member | inside
    · rcases List.mem_append.mp member with inside | inside
      · exact noSpace (by simpa [txt] using inside)
      · exact formed.named.not_mem other inside
    · exact noSpace (inGap c inside)
  have noMark {c : Char} (other : c ≠ '[' ∧ c ≠ ']' ∧ c ≠ '?') : c ∉ f.marks := by
    intro member
    rcases mem_marks member with rfl | rfl | rfl <;> simp at other
  have whole : txt "  " ++ (f.name ++ gap ++ f.label) = txt "  " ++ f.name ++ gap ++ (f.type ++ f.marks) := by
    rw [label_eq]
    simp
  have apart : IsApart f.marks := by
    refine ⟨fun head => ?_, fun head => ?_⟩
    · exact noMark (c := '/') (by decide) (List.mem_of_head? head)
    · exact noMark (c := '*') (by decide) (List.mem_of_head? head)
  have typeApart : IsApart (f.type ++ f.marks) := by
    obtain ⟨base, arguments, atType, word, -⟩ := formed.typed
    obtain ⟨c, more, atBase⟩ := List.exists_cons_of_ne_nil word.1
    have letter := word.2 c (by simp [atBase])
    rw [atType, atBase]
    refine ⟨?_, ?_⟩ <;> rintro head <;> obtain rfl := Option.some.inj head <;> revert letter <;> decide
  rw [whole]
  constructor
  · refine commentFree_append (commentFree_of_not_mem (noWhere (by decide) (by decide))) ?_ typeApart
    rw [after_of_not_mem (noWhere (by decide) (by decide))]
    exact commentFree_append formed.free (commentFree_of_not_mem (noMark (by decide))) apart
  · intro member
    rcases List.mem_append.mp member with inside | inside
    · exact noWhere (by decide) (by decide) inside
    · rcases List.mem_append.mp inside with inside | inside
      · exact formed.oneLine inside
      · exact noMark (by decide) inside

/-- A line that begins as the row of a field is read as that field, up to its attributes. -/
theorem IsFormed.parse_line (formed : f.IsFormed) {gap v : Text} (gapped : gap ≠ [])
    (inGap : ∀ c ∈ gap, c = ' ') (parted : Follows [] v) (inLine : '\n' ∉ v) :
    let line := trim (txt "  " ++ (f.name ++ gap ++ f.label) ++ v ++ ['\n'])
    isAttributeLine line = false ∧ parseField line = some
      { f with
        attributes := extractAttributes (trimEnd v)
        relation := relationOf (extractAttributes (trimEnd v)) f.type f.isList } := by
  have line : trim (txt "  " ++ (f.name ++ gap ++ f.label) ++ v ++ ['\n']) =
      f.name ++ gap ++ f.label ++ trimEnd v := by
    obtain ⟨nonempty, ends⟩ := formed.label_ends
    have spaces : ∀ c ∈ txt "  ", isBlank c := by decide
    have front : trimStart (txt "  " ++ (f.name ++ gap ++ f.label) ++ v ++ ['\n']) =
        f.name ++ gap ++ f.label ++ (v ++ ['\n']) := by
      have begins := formed.named.stops_isBlank (gap ++ (f.label ++ (v ++ ['\n'])))
      have dropped := dropWhile_append_stops spaces begins
      simpa [trimStart] using dropped
    rw [trim, front, trimEnd, dropEndWhile_append (stops_reverse_append nonempty ends), trimEnd,
      dropEndWhile_append_of_forall v (by decide)]
  have before : trimEnd v <+: v := dropEndWhile_isPrefix isBlank v
  have blanks : ∀ c ∈ gap, isBlank c := by
    intro c member
    rw [inGap c member]
    decide
  rw [line]
  constructor
  · obtain ⟨c, more, atName⟩ := List.exists_cons_of_ne_nil formed.named.1
    have noSign : c ≠ '@' := by
      rintro rfl
      exact absurd (formed.named.2 '@' (by simp [atName])) (by decide)
    simpa [isAttributeLine, atName] using noSign
  · have read := parseField_append f formed.named formed.typed gapped blanks (parted.of_isPrefix before)
      (fun member => inLine (before.subset member))
    simpa only [extractAttributes_dropWhile] using read

end Field

end SchemaDiagram
