import SchemaDiagram.Proofs.RelationRun

namespace SchemaDiagram

open Text

/-- Entries on lines of their own are the rows of a text, in front of the rows of the rest. -/
theorem rows_entries {entries : List Text} (code : ∀ line ∈ entries, IsCode line) (rest : Text) :
    rows ((entries.flatMap fun line => defaultIndent ++ line ++ txt "\n") ++ rest) =
      entries.map (defaultIndent ++ ·) ++ rows rest := by
  induction entries with
  | nil => rfl
  | cons line entries ih =>
    obtain ⟨here, later⟩ := List.forall_mem_cons.mp code
    have row : IsCode (defaultIndent ++ line) := here.indented (by decide)
    have newline (u : Text) : txt "\n" ++ u = '\n' :: u := rfl
    rw [List.flatMap_cons, List.append_assoc, List.append_assoc, newline, rows_cons row.inLine, ih later]
    rfl

theorem shownLines_indented {entries : List Text} (lines : ∀ line ∈ entries, IsFieldLine line) :
    shownLines (entries.map (defaultIndent ++ ·)) = entries.map trim := by
  induction entries with
  | nil => rfl
  | cons line entries ih =>
    obtain ⟨here, later⟩ := List.forall_mem_cons.mp lines
    rw [List.map_cons, ← List.singleton_append, shownLines_append, ih later,
      shownLines_singleton (rowLine_indented here.code (by decide)) here.trim_ne_nil]
    rfl

/-- A written model shows the lines that were written. -/
theorem shownLines_modelBody {fields attributes : List Text} (lines : ∀ line ∈ fields, IsFieldLine line)
    (attributeLines : ∀ line ∈ attributes, IsFieldLine line) :
    shownLines (rows (modelBody fields attributes)) = fields.map trim ++ attributes.map trim := by
  have code {entries : List Text} (lines : ∀ line ∈ entries, IsFieldLine line) : ∀ line ∈ entries, IsCode line :=
    fun line member => (lines line member).code
  have first (t : Text) : rows ('\n' :: t) = [[]] ++ rows t := rows_cons (r := []) (by simp) t
  have empty : shownLines [[]] = [] := rfl
  have tail : shownLines (rows (if attributes.isEmpty then [] else
      txt "\n" ++ attributes.flatMap fun line => defaultIndent ++ line ++ txt "\n")) = attributes.map trim := by
    split
    · rename_i none
      rw [List.isEmpty_iff.mp none]
      rfl
    · have all := rows_entries (code attributeLines) []
      rw [List.append_nil, rows_row (r := []) (by simp)] at all
      have newline (u : Text) : txt "\n" ++ u = '\n' :: u := rfl
      rw [newline, first, all, shownLines_append, shownLines_append, empty, List.nil_append, List.append_nil,
        shownLines_indented attributeLines]
  rw [modelBody, List.cons_append, first, rows_entries (code lines), shownLines_append, shownLines_append, tail, empty,
    List.nil_append, shownLines_indented lines]

/-- The line of a field begins with its name, or else with its type. -/
theorem Field.IsWritable.signless {f : Field} (writable : f.IsWritable) : isAttributeLine (trim f.render) = false := by
  have begins {w rest : Text} (word : IsWord w) : isAttributeLine (trim (w ++ rest)) = false := by
    obtain ⟨c, more, rfl⟩ := List.exists_cons_of_ne_nil word.1
    have letter := word.2 c List.mem_cons_self
    have other : c ≠ '@' := by
      rintro rfl
      exact absurd letter (by decide)
    have stays : trimStart (c :: more ++ rest) = c :: more ++ rest := dropWhile_eq_self (word.stops_isBlank rest)
    refine decide_eq_false fun sign => ?_
    obtain ⟨tail, found⟩ := List.head?_eq_some_iff.mp sign
    obtain ⟨back, whole, -⟩ := dropEndWhile_split isBlank (c :: more ++ rest)
    rw [trim, stays, trimEnd] at found
    rw [found] at whole
    exact other (List.cons_eq_cons.mp whole).1
  by_cases named : f.name = []
  · obtain ⟨base, arguments, type, word, -⟩ := writable.typed
    have blank (u : Text) : trim (' ' :: u) = trim u := rfl
    rw [render_eq, named, List.nil_append, blank, label_eq, type, List.append_assoc, List.append_assoc]
    exact begins word
  · rw [render_eq]
    exact begins (writable.name.isWord named)

theorem Field.IsWritable.lineField?_trim {f : Field} (writable : f.IsWritable) :
    lineField? (trim f.render) = if f.name.isEmpty then none else some f := by
  by_cases named : f.name = []
  · rw [writable.silent named, if_pos (List.isEmpty_iff.mpr named)]
  · rw [writable.trim_render named, writable.read named, if_neg (by simpa using named)]

section

variable {a : Text} (code : IsCode a) (token : IsToken a)

include code token

theorem IsToken.isFieldLine : IsFieldLine a := by
  obtain ⟨c, more, rfl⟩ := token.signed
  exact ⟨code, by simp, token.ends⟩

omit code in
/-- An attribute alone on its line is all that the line says. -/
theorem IsToken.read : trim a = a ∧ lineField? a = none ∧ lineAttributes a = [a] := by
  have read := (AreTokens.last token).extractAttributes
  obtain ⟨c, more, rfl⟩ := token.signed
  have signed : isAttributeLine ('@' :: c :: more) = true := rfl
  have bare : extractAttributes ('@' :: c :: more) = extractAttributes (' ' :: '@' :: c :: more) :=
    extractAttributes_dropWhile (' ' :: '@' :: c :: more)
  refine ⟨trim_eq_self (stops_cons (by decide)) token.ends, if_pos signed, ?_⟩
  rw [lineAttributes, if_pos signed, bare]
  simpa [txt] using read

end

/-- From a written model its fields are read, but for those without a name, and of two fields of one name the first. -/
theorem Model.ofRows_modelBody (name : Text) {fields : List Field} {attributes : List Text}
    (writable : ∀ f ∈ fields, f.IsWritable) (tokens : ∀ a ∈ attributes, IsCode a ∧ IsToken a) :
    Model.ofRows name (rows (modelBody (fields.map Field.render) attributes)) =
      { name, fields := keepFirst Field.name (fields.filter fun f => !f.name.isEmpty), attributes } := by
  have lines : ∀ line ∈ fields.map Field.render, IsFieldLine line := by
    intro line member
    obtain ⟨f, inside, rfl⟩ := List.mem_map.mp member
    exact (writable f inside).isFieldLine
  have shown := shownLines_modelBody lines fun a member => IsToken.isFieldLine (tokens a member).1 (tokens a member).2
  have trimmed : attributes.map trim = attributes :=
    (List.map_congr_left fun a member => (tokens a member).2.read.1).trans (List.map_id _)
  have fieldsRead : (fields.map fun f => trim f.render).filterMap lineField? = fields.filter fun f => !f.name.isEmpty := by
    rw [List.filterMap_map, ← List.filterMap_eq_filter]
    refine List.filterMap_congr fun f member => ?_
    rw [Function.comp, (writable f member).lineField?_trim]
    cases named : f.name.isEmpty <;> simp [Option.guard, named]
  have noFields : attributes.filterMap lineField? = [] :=
    List.filterMap_eq_nil_iff.mpr fun a member => (tokens a member).2.read.2.1
  have noAttributes : (fields.map fun f => trim f.render).flatMap lineAttributes = [] := by
    refine List.flatMap_eq_nil_iff.mpr fun line member => ?_
    obtain ⟨f, inside, rfl⟩ := List.mem_map.mp member
    rw [lineAttributes, (writable f inside).signless]
    rfl
  have attributesRead : attributes.flatMap lineAttributes = attributes := by
    have each : attributes.flatMap lineAttributes = attributes.flatMap fun a => [a] :=
      List.flatMap_congr fun a member => (tokens a member).2.read.2.2
    rw [each, List.flatMap_singleton']
  rw [trimmed, List.map_map] at shown
  rw [Model.ofRows_eq, shown, List.filterMap_append, List.flatMap_append]
  have composed : (trim ∘ Field.render) = fun f => trim f.render := rfl
  rw [composed, fieldsRead, noFields, noAttributes, attributesRead, List.append_nil, List.nil_append]

/-- A new junction has the fields of its two sides, but for those without a name and those that have the name of an
earlier one. -/
theorem IsPlainText.model?_addJunction {t : Text} (plain : IsPlainText t) {c : Connection} {order : JunctionOrder}
    (hasSource : (Document.parse t).hasModel c.sourceModel) (hasTarget : (Document.parse t).hasModel c.targetModel)
    (new : (Document.parse t).hasModel (junctionName c order) = false) :
    (Document.parse (addJunction t (Document.parse t) c order)).model? (junctionName c order) =
      some ⟨junctionName c order,
        keepFirst Field.name ((junctionFields (Document.parse t) c order).filter fun f => !f.name.isEmpty),
        [junctionTag (Document.parse t) c order]⟩ := by
  obtain ⟨word, plainName⟩ := plain.junctionName_isPlainName hasSource hasTarget order
  obtain ⟨fields, attributes⟩ := plain.junction_isSound hasSource hasTarget order
  have body := plain.junction_isPlainBody hasSource hasTarget order
  rw [plain.addJunction_new hasSource new, plain.model?_withModel word plainName body new,
    Model.ofRows_modelBody _ fields attributes]

end SchemaDiagram
