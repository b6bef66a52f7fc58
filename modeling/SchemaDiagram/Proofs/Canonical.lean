import Mathlib.Data.List.Basic
import SchemaDiagram.Proofs.PlainRow

namespace SchemaDiagram

open Text

/-- A field whose relation is what its attributes and its type say. -/
structure Field.IsCanonical (f : Field) : Prop where
  name : IsWord f.name
  type : IsWord f.type
  attributes : ∀ a ∈ f.attributes, IsAttribute a
  relation : f.relation = relationOf f.attributes f.type f.isList

structure Model.IsCanonical (m : Model) : Prop where
  name : IsWord m.name
  fields : ∀ f ∈ m.fields, f.IsCanonical
  distinct : (m.fields.map Field.name).Nodup
  attributes : ∀ a ∈ m.attributes, IsAttribute a

structure Enumeration.IsCanonical (e : Enumeration) : Prop where
  name : IsWord e.name
  values : ∀ value ∈ e.values, IsWord value

/-- A document of words, of attributes that are one token each, and of settings in quotes. -/
structure Document.IsCanonical (d : Document) : Prop where
  datasource : ∀ ds, d.datasource = some ds →
    IsPlainValue ds.provider ∧ ∀ url, ds.url = some url → IsPlainValue url
  generator : ∀ g, d.generator = some g →
    IsPlainValue g.provider ∧ ∀ output, g.output = some output → IsPlainValue output
  models : ∀ m ∈ d.models, m.IsCanonical
  enums : ∀ e ∈ d.enums, e.IsCanonical
  distinctModels : (d.models.map Model.name).Nodup
  distinctEnums : (d.enums.map Enumeration.name).Nodup

namespace Field

variable {f : Field}

theorem IsCanonical.isFormed (canonical : f.IsCanonical) : f.IsFormed :=
  ⟨canonical.name, ⟨f.type, [], by simp, canonical.type, Or.inl rfl⟩, canonical.type.not_mem (by decide),
    commentFree_of_not_mem (canonical.type.not_mem (by decide))⟩

/-- What stands behind the label is nothing or else all attributes. -/
theorem IsCanonical.tail (canonical : f.IsCanonical) (width : Nat) {tail : Text}
    (atTail : tail = trimEnd (List.replicate width ' ' ++ f.attributes.flatMap (txt " " ++ ·))) :
    IsPlain tail ∧ IsApart tail ∧ extractAttributes (trimEnd tail) = f.attributes := by
  have pads : ∀ c ∈ List.replicate width ' ', isBlank c := fun c => isBlank_of_mem_spaces
  rcases List.eq_nil_or_concat f.attributes with noAttributes | ⟨front, last, atEnd⟩
  · have empty : tail = [] := by
      rw [atTail, noAttributes, List.flatMap_nil, List.append_nil]
      exact dropEndWhile_eq_nil_iff.mpr pads
    rw [empty, noAttributes]
    exact ⟨isPlain_spaces (by simp), ⟨by decide, by decide⟩, rfl⟩
  · have ends : Stops isBlank (List.replicate width ' ' ++ f.attributes.flatMap (txt " " ++ ·)).reverse := by
      have lastAttribute := canonical.attributes last (by simp [atEnd])
      obtain ⟨⟨c, more, atStart⟩, ends⟩ := lastAttribute.ends
      have split : List.replicate width ' ' ++ f.attributes.flatMap (txt " " ++ ·) =
          List.replicate width ' ' ++ front.flatMap (txt " " ++ ·) ++ txt " " ++ last := by simp [atEnd]
      rw [split]
      exact stops_reverse_append (by simp [atStart]) ends
    have whole : tail = List.replicate width ' ' ++ f.attributes.flatMap (txt " " ++ ·) :=
      atTail.trans (dropEndWhile_eq_self ends)
    obtain ⟨plain, apart⟩ := isPlain_flatMap canonical.attributes
    refine ⟨?_, ?_, ?_⟩
    · rw [whole]
      exact (isPlain_spaces fun c member => List.eq_of_mem_replicate member).append plain apart
    · rw [whole]
      cases width with
      | zero => exact apart
      | succ width => exact isApart_cons (by decide) (by decide) _
    · rw [whole, trimEnd, dropEndWhile_eq_self ends, ← extractAttributes_dropWhile,
        List.dropWhile_append_of_pos pads, extractAttributes_dropWhile,
        extractAttributes_flatMap canonical.attributes]

/-- The row of a canonical field is read as that field. -/
theorem IsCanonical.row (canonical : f.IsCanonical) (nameWidth labelWidth : Nat) :
    IsPlainRow (f.row nameWidth labelWidth) ∧
      isAttributeLine (trim (strip (f.row nameWidth labelWidth))) = false ∧
      parseField (trim (strip (f.row nameWidth labelWidth))) = some f := by
  obtain ⟨gap, tail, whole, gapped, inGap, atTail⟩ := canonical.isFormed.row_eq nameWidth labelWidth
  obtain ⟨tailPlain, tailApart, attributes⟩ := canonical.tail _ atTail
  have leadPlain : IsPlain (txt "  " ++ (f.name ++ gap ++ f.label)) := by
    refine isPlain_of_chars fun c member => ?_
    rw [label_eq, List.mem_append, List.mem_append, List.mem_append, List.mem_append] at member
    rcases member with space | (letter | space) | letter | mark
    · revert c
      decide
    · exact canonical.name.plainChars c letter
    · rw [inGap c space]
      decide
    · exact canonical.type.plainChars c letter
    · rcases mem_marks mark with rfl | rfl | rfl <;> decide
  have plain : IsPlainRow (f.row nameWidth labelWidth) := by
    rw [whole]
    exact (leadPlain.append tailPlain tailApart).row
  rw [plain.strip, whole]
  refine ⟨whole ▸ plain, ?_⟩
  have follows : Follows [] tail := atTail ▸ f.tail_follows _
  obtain ⟨noAttributeLine, read⟩ := canonical.isFormed.parse_line gapped inGap follows tailPlain.oneLine
  rw [attributes, ← canonical.relation] at read
  exact ⟨noAttributeLine, read⟩

end Field

theorem Model.IsCanonical.ofBody {m : Model} (canonical : m.IsCanonical) :
    (∀ row ∈ m.block.rows, IsPlainRow row) ∧ Model.ofBody m.name m.block.section.body = m := by
  have fieldRows : ∀ f ∈ m.fields, IsPlainRow (m.fieldRow f) ∧
      isAttributeLine (trim (strip (m.fieldRow f))) = false ∧
      parseField (trim (strip (m.fieldRow f))) = some f :=
    fun f member => (canonical.fields f member).row _ _
  have attributeRows : ∀ a ∈ m.attributes, IsPlainRow (entryRow a) ∧ trim (strip (entryRow a)) = a := by
    intro a member
    have isAttribute := canonical.attributes a member
    obtain ⟨⟨c, more, rfl⟩, ends⟩ := isAttribute.ends
    exact isAttribute.isPlain.entryRow (isApart_cons (by decide) (by decide) _) (stops_cons (by decide)) ends
  have plain : ∀ row ∈ m.block.rows, IsPlainRow row := by
    intro row member
    simp only [block, List.mem_append, List.mem_map] at member
    rcases member with (⟨f, inModel, rfl⟩ | inGap) | ⟨a, inModel, rfl⟩
    · exact (fieldRows f inModel).1
    · split at inGap
      · cases inGap
      · rw [List.mem_singleton.mp inGap]
        exact (isPlain_spaces (t := []) (by simp)).row
    · exact (attributeRows a inModel).1
  refine ⟨plain, ?_⟩
  have attributeLines : ∀ a ∈ m.attributes, isAttributeLine (trim (strip (entryRow a))) = true := by
    intro a member
    obtain ⟨⟨c, more, rfl⟩, -⟩ := (canonical.attributes a member).ends
    rw [(attributeRows _ member).2]
    rfl
  rw [Model.ofBody_rows (fun row member => (plain row member).isRow)
    (fun f member => (fieldRows f member).2.1) attributeLines]
  have fields : (m.fields.filterMap fun f => parseField (trim (strip (m.fieldRow f)))) = m.fields :=
    (List.filterMap_congr fun f member => (fieldRows f member).2.2).trans List.filterMap_some
  have attributes : (m.attributes.flatMap fun a => extractAttributes (trim (strip (entryRow a)))) =
      m.attributes := by
    have one : ∀ a ∈ m.attributes, extractAttributes (trim (strip (entryRow a))) = [a] := by
      intro a member
      have last : Follows [] [] := fun c head => by cases head
      have alone := (canonical.attributes a member).attributesFrom_append last
      rw [List.append_nil] at alone
      rw [(attributeRows a member).2]
      exact alone
    rw [List.flatMap_def, List.map_congr_left one, ← List.flatMap_def, List.flatMap_singleton']
  rw [fields, attributes, keepFirst_of_nodup canonical.distinct]

theorem IsWord.enumValue? {value : Text} (word : IsWord value) : enumValue? value = some value := by
  have noBrace : value ≠ txt "\x7d" := fun same => word.not_mem (c := '}') (by decide) (by simp [same, txt])
  have noSign : isAttributeLine value = false := by
    rw [isAttributeLine, decide_eq_false_iff_not]
    exact fun head => word.not_mem (by decide) (List.mem_of_mem_head? head)
  have noComma : dropEndWhile (fun c => decide (c = ',')) value = value := by
    refine dropEndWhile_eq_self (stops_reverse_of_forall fun c member => decide_eq_false ?_)
    rintro rfl
    exact word.not_mem (by decide) member
  have begins : Stops isBlank value := by simpa using word.stops_isBlank []
  refine (enumValue?_eq_some_iff begins).mpr ⟨noBrace, noSign, word.1, ?_⟩
  rw [noComma, List.takeWhile_eq_self_iff]
  exact fun c member => by rw [word.visible c member]; rfl

theorem Enumeration.IsCanonical.ofBody {e : Enumeration} (canonical : e.IsCanonical) :
    (∀ row ∈ e.block.rows, IsPlainRow row) ∧ Enumeration.ofBody e.name e.block.section.body = e := by
  have valueRows : ∀ value ∈ e.values, IsPlainRow (entryRow value) ∧
      enumValue? (trim (strip (entryRow value))) = some value := by
    intro value member
    have word := canonical.values value member
    have begins : Stops isBlank value := by simpa using word.stops_isBlank []
    have apart : IsApart value :=
      ⟨fun head => word.not_mem (by decide) (List.mem_of_mem_head? head),
        fun head => word.not_mem (by decide) (List.mem_of_mem_head? head)⟩
    obtain ⟨plain, line⟩ := (isPlain_of_chars word.plainChars).entryRow apart begins word.ends
    refine ⟨plain, ?_⟩
    rw [line]
    exact word.enumValue?
  have plain : ∀ row ∈ e.block.rows, IsPlainRow row := by
    intro row member
    obtain ⟨value, inValues, rfl⟩ := List.mem_map.mp member
    exact (valueRows value inValues).1
  refine ⟨plain, ?_⟩
  rw [Enumeration.ofBody_rows fun row member => (plain row member).isRow,
    List.filterMap_congr fun value member => (valueRows value member).2, List.filterMap_some]

theorem Datasource.ofBody_plain {ds : Datasource} (plainProvider : IsPlainValue ds.provider)
    (plainUrl : ∀ url, ds.url = some url → IsPlainValue url) :
    (∀ row ∈ ds.block.rows, IsPlainRow row) ∧ Datasource.ofBody ds.block.section.body = ds := by
  have word : IsWord (txt "url") := (by decide : txt "url" ≠ [] ∧ ∀ c ∈ txt "url", isWordChar c)
  obtain ⟨plain, provider, url⟩ := settingsBlock_read .datasource (txt "db") word (by decide)
    plainProvider plainUrl
  refine ⟨plain, ?_⟩
  have block : ds.block = settingsBlock .datasource (txt "db")
    ((txt "provider", quoteValue ds.provider) ::
      (ds.url.map fun v => (txt "url", quoteValue v)).toList) := rfl
  rw [block, Datasource.ofBody, provider, url]
  rfl

theorem Generator.ofBody_plain {g : Generator} (plainProvider : IsPlainValue g.provider)
    (plainOutput : ∀ output, g.output = some output → IsPlainValue output) :
    (∀ row ∈ g.block.rows, IsPlainRow row) ∧ Generator.ofBody g.block.section.body = g := by
  have word : IsWord (txt "output") := (by decide : txt "output" ≠ [] ∧ ∀ c ∈ txt "output", isWordChar c)
  obtain ⟨plain, provider, output⟩ := settingsBlock_read .generator (txt "client") word (by decide)
    plainProvider plainOutput
  refine ⟨plain, ?_⟩
  have block : g.block = settingsBlock .generator (txt "client")
    ((txt "provider", quoteValue g.provider) ::
      (g.output.map fun v => (txt "output", quoteValue v)).toList) := rfl
  rw [block, Generator.ofBody, provider, output]
  rfl

/-- Reading undoes printing: a canonical document comes back as it was. -/
theorem Document.parse_print {d : Document} (canonical : d.IsCanonical) : Document.parse d.print = d := by
  have plain : ∀ b ∈ d.blocks, ∀ row ∈ b.rows, IsPlainRow row := by
    intro b member
    simp only [blocks, List.mem_append, List.mem_map, Option.mem_toList] at member
    rcases member with ((⟨ds, found, rfl⟩ | ⟨g, found, rfl⟩) | ⟨m, inModels, rfl⟩) | ⟨e, inEnums, rfl⟩
    · exact (Datasource.ofBody_plain (canonical.datasource ds found).1 (canonical.datasource ds found).2).1
    · exact (Generator.ofBody_plain (canonical.generator g found).1 (canonical.generator g found).2).1
    · exact (canonical.models m inModels).ofBody.1
    · exact (canonical.enums e inEnums).ofBody.1
  have datasource : (d.datasource.map fun ds => Datasource.ofBody ds.block.section.body) = d.datasource := by
    cases found : d.datasource with
    | none => rfl
    | some ds =>
      obtain ⟨provider, url⟩ := canonical.datasource ds found
      exact congrArg some (Datasource.ofBody_plain provider url).2
  have generator : (d.generator.map fun g => Generator.ofBody g.block.section.body) = d.generator := by
    cases found : d.generator with
    | none => rfl
    | some g =>
      obtain ⟨provider, output⟩ := canonical.generator g found
      exact congrArg some (Generator.ofBody_plain provider output).2
  have models : (d.models.map fun m => Model.ofBody m.name m.block.section.body) = d.models.map id :=
    List.map_congr_left fun m member => (canonical.models m member).ofBody.2
  have enums : (d.enums.map fun e => Enumeration.ofBody e.name e.block.section.body) = d.enums.map id :=
    List.map_congr_left fun e member => (canonical.enums e member).ofBody.2
  rw [Document.parse_print_blocks (fun m member => (canonical.models m member).name)
    (fun e member => (canonical.enums e member).name) fun b member => isContained_of_plain (plain b member),
    datasource, generator, models, enums, List.map_id, List.map_id,
    keepFirst_of_nodup canonical.distinctModels, keepFirst_of_nodup canonical.distinctEnums]

/-- A document whose strings hold braces, parentheses, the sign of a comment and escapes. -/
def trickyDocument : Document where
  datasource := some { provider := txt "sqlite", url := some (txt "file:///dev.db") }
  generator := some { provider := txt "client", output := some (txt "C:\\out\\") }
  models :=
    [{ name := txt "User"
       fields :=
        [{ name := txt "id", type := txt "Int", isList := false, isOptional := false,
           attributes := [txt "@id"], relation := none },
         { name := txt "note", type := txt "String", isList := false, isOptional := true,
           attributes := [txt "@default(\"\x7b//(\\\"\")", txt "@db.Text"], relation := none },
         { name := txt "posts", type := txt "Post", isList := true, isOptional := false, attributes := [],
           relation := some {} }]
       attributes := [txt "@@index([id])"] },
     { name := txt "Post", fields := [], attributes := [txt "@@map(\"\x7d\")"] }]
  enums := [{ name := txt "Role", values := [txt "USER", txt "ADMIN"] }]

def trickyAttributes : List Text :=
  [txt "@id", txt "@default(\"\x7b//(\\\"\")", txt "@db.Text", txt "@@index([id])", txt "@@map(\"\x7d\")"]

theorem isAttribute_of_mem_trickyAttributes : ∀ a ∈ trickyAttributes, IsAttribute a := by
  intro a member
  simp only [trickyAttributes, List.mem_cons, List.not_mem_nil, or_false] at member
  rcases member with rfl | rfl | rfl | rfl | rfl
  · exact ⟨⟨txt "@", txt "id", [], by decide, Or.inl rfl, by decide, by decide, Or.inl rfl⟩, by decide,
      by decide, by decide, by decide⟩
  · exact ⟨⟨txt "@", txt "default", txt "(\"\x7b//(\\\"\")", by decide, Or.inl rfl, by decide, by decide,
      Or.inr ⟨txt "\"\x7b//(\\\"\"", by decide, by decide⟩⟩, by decide, by decide, by decide, by decide⟩
  · exact ⟨⟨txt "@", txt "db.Text", [], by decide, Or.inl rfl, by decide, by decide, Or.inl rfl⟩, by decide,
      by decide, by decide, by decide⟩
  · exact ⟨⟨txt "@@", txt "index", txt "([id])", by decide, Or.inr rfl, by decide, by decide,
      Or.inr ⟨txt "[id]", by decide, by decide⟩⟩, by decide, by decide, by decide, by decide⟩
  · exact ⟨⟨txt "@@", txt "map", txt "(\"\x7d\")", by decide, Or.inr rfl, by decide, by decide,
      Or.inr ⟨txt "\"\x7d\"", by decide, by decide⟩⟩, by decide, by decide, by decide, by decide⟩

theorem trickyDocument_isCanonical : trickyDocument.IsCanonical := by
  have word (t : Text) (letters : t ≠ [] ∧ ∀ c ∈ t, isWordChar c) : IsWord t := letters
  have known {all : List Text} (listed : ∀ a ∈ all, a ∈ trickyAttributes) : ∀ a ∈ all, IsAttribute a :=
    fun a member => isAttribute_of_mem_trickyAttributes a (listed a member)
  refine ⟨?_, ?_, ?_, ?_, by decide, by decide⟩
  · rintro ds ⟨⟩
    refine ⟨⟨by decide, by decide, by decide⟩, ?_⟩
    rintro url ⟨⟩
    exact ⟨by decide, by decide, by decide⟩
  · rintro g ⟨⟩
    refine ⟨⟨by decide, by decide, by decide⟩, ?_⟩
    rintro output ⟨⟩
    exact ⟨by decide, by decide, by decide⟩
  · intro m member
    simp only [trickyDocument, List.mem_cons, List.not_mem_nil, or_false] at member
    rcases member with rfl | rfl
    · refine ⟨word _ (by decide), ?_, by decide, known (by decide)⟩
      intro f member
      simp only [List.mem_cons, List.not_mem_nil, or_false] at member
      rcases member with rfl | rfl | rfl
      · exact ⟨word _ (by decide), word _ (by decide), known (by decide), by decide⟩
      · exact ⟨word _ (by decide), word _ (by decide), known (by decide), by decide⟩
      · exact ⟨word _ (by decide), word _ (by decide), known (by decide), by decide⟩
    · exact ⟨word _ (by decide), by simp, by decide, known (by decide)⟩
  · intro e member
    obtain rfl := List.mem_singleton.mp member
    exact ⟨word _ (by decide), fun value member => word value (by revert value; decide)⟩

theorem parse_print_trickyDocument :
    trickyDocument.IsCanonical ∧ Document.parse trickyDocument.print = trickyDocument :=
  ⟨trickyDocument_isCanonical, Document.parse_print trickyDocument_isCanonical⟩

end SchemaDiagram
