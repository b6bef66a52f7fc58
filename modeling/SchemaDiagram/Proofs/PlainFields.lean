import SchemaDiagram.Proofs.WrittenField

namespace SchemaDiagram

open Text

section

variable {t : Text} (plain : IsPlainText t)

include plain

theorem IsPlainText.bodyRow {d : Declaration} (member : d ∈ outline t) : ∀ r ∈ rows (d.body t), IsBodyRow r := by
  have shown := plain.only.body_mask member
  intro r inRows
  obtain ⟨inLine, inside⟩ := mem_rows inRows
  have row : blankFrom false r <:+: d.body (mask t) := by
    have listed : blankFrom false r ∈ rows (d.body (mask t)) := by
      rw [shown, rows_blankFrom]
      exact List.mem_map_of_mem inRows
    exact (mem_rows listed).2
  have noBrace := plain.noBrace d member
  exact ⟨plain.only.of_infix (inside.trans (plain.only.body_infix d)), inLine,
    fun brace => noBrace.1 (row.subset brace), fun brace => noBrace.2 (row.subset brace)⟩

/-- The declarations of a plain text have ASCII names. -/
theorem IsPlainText.plainName {d : Declaration} (member : d ∈ outline t) : IsWord d.name ∧ IsPlainName d.name := by
  obtain ⟨word, -⟩ := mem_sections (List.mem_map_of_mem member)
  refine ⟨word, fun c inName => ⟨plain.only.asciiMask c ?_, word.2 c inName⟩⟩
  obtain ⟨earlier, h, later, split, rfl⟩ := mem_declarationsFrom member
  obtain ⟨before, line, masked, read, -⟩ := mem_headersFrom (h := h) (t := mask t) (by
    rw [show headersFrom true 0 (mask t) = headers (mask t) from rfl, split]
    simp)
  obtain ⟨lead, rest, rfl, ⟨indent, gap, blanks, rfl, -⟩, -⟩ := Header.read?_eq_some_iff.mp read
  have inHeader : c ∈ h.name := inName
  rw [masked]
  simp [inHeader]

/-- What is read of a model in a plain text can be written. -/
theorem IsPlainText.model? {model : Text} {m : Model} (found : (Document.parse t).model? model = some m) :
    m.name = model ∧ IsWord model ∧ IsPlainName model ∧ ∀ f ∈ m.fields, f.IsWritable := by
  rw [plain.only.model?_eq] at found
  obtain ⟨p, atPart, rfl⟩ := Option.map_eq_some_iff.mp found
  obtain ⟨d, member, offset, rfl⟩ := mem_partsFrom (List.mem_of_find?_eq_some atPart)
  obtain ⟨word, ascii⟩ := plain.plainName member
  have named : d.name = model := by
    have both := List.find?_some atPart
    exact of_decide_eq_true (Bool.and_eq_true_iff.mp both).2
  rw [← named]
  refine ⟨rfl, word, ascii, fun f inFields => ?_⟩
  obtain ⟨r, inRows, read⟩ := List.mem_filterMap.mp (mem_keepFirst inFields)
  exact (plain.bodyRow member r inRows).isWritable read

end

end SchemaDiagram
