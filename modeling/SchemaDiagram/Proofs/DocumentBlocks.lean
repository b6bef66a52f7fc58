import SchemaDiagram.Proofs.FieldRow
import SchemaDiagram.Proofs.SettingRow

namespace SchemaDiagram

open Text

/-- A value or an attribute on a row of its own. -/
def entryRow (entry : Text) : Text := txt "  " ++ entry ++ txt "\n"

theorem trim_entryRow (entry : Text) : trim (entryRow entry) = trim entry :=
  trim_append (by decide) entry (by decide)

def settingsBlock (keyword : Keyword) (name : Text) (settings : List (Text × Text)) : Block where
  keyword := keyword
  name := name
  rows := settings.map fun setting => settingRow (columnWidth (settings.map (·.1))) setting.1 setting.2

def Datasource.block (d : Datasource) : Block :=
  settingsBlock .datasource (txt "db")
    ((txt "provider", quoteValue d.provider) :: (d.url.map fun url => (txt "url", quoteValue url)).toList)

def Generator.block (g : Generator) : Block :=
  settingsBlock .generator (txt "client")
    ((txt "provider", quoteValue g.provider) ::
      (g.output.map fun output => (txt "output", quoteValue output)).toList)

def Model.fieldRow (m : Model) (f : Field) : Text :=
  f.row (columnWidth (m.fields.map (·.name))) (columnWidth (m.fields.map (·.label)))

def Model.block (m : Model) : Block where
  keyword := .model
  name := m.name
  rows := m.fields.map m.fieldRow ++
    (if m.fields.isEmpty || m.attributes.isEmpty then [] else [txt "\n"]) ++ m.attributes.map entryRow

def Enumeration.block (e : Enumeration) : Block where
  keyword := .enum
  name := e.name
  rows := e.values.map entryRow

def Document.blocks (d : Document) : List Block :=
  d.datasource.toList.map Datasource.block ++ d.generator.toList.map Generator.block ++
    d.models.map Model.block ++ d.enums.map Enumeration.block

theorem print_settingsBlock (keyword : Keyword) (name : Text) (settings : List (Text × Text)) :
    printSettings (keyword.name ++ txt " " ++ name) settings =
      (settingsBlock keyword name settings).print := by
  simp [printSettings, Block.print, settingsBlock, settingRow, List.flatMap]

theorem Datasource.print_block (d : Datasource) : d.print = d.block.print :=
  print_settingsBlock .datasource (txt "db") _

theorem Generator.print_block (g : Generator) : g.print = g.block.print :=
  print_settingsBlock .generator (txt "client") _

theorem Model.print_block (m : Model) : m.print = m.block.print := by
  have fields : m.fields.flatMap
      (Field.row (columnWidth (m.fields.map (·.name))) (columnWidth (m.fields.map (·.label)))) =
      (m.fields.map m.fieldRow).flatten := List.flatMap_def
  have gap : (if m.fields.isEmpty || m.attributes.isEmpty then [] else txt "\n") =
      (if m.fields.isEmpty || m.attributes.isEmpty then [] else [txt "\n"]).flatten := by
    split <;> rfl
  simp only [Model.print, Block.print, Model.block, List.flatten_append, gap, fields, List.append_assoc]
  rfl

theorem Enumeration.print_block (e : Enumeration) : e.print = e.block.print := by
  simp only [Enumeration.print, Block.print, Enumeration.block, List.append_assoc]
  rfl

theorem Document.print_blocks (d : Document) : d.print = joinWith (txt "\n") (d.blocks.map Block.print) := by
  simp only [Document.print, blocks, List.map_append, List.map_map, Function.comp_def,
    ← Datasource.print_block, ← Generator.print_block, ← Model.print_block, ← Enumeration.print_block]
  cases d.datasource <;> cases d.generator <;> rfl

theorem filter_section {α : Type} {keyword : Keyword} (block : α → Block)
    (same : ∀ a, (block a).keyword = keyword) (all : List α) (wanted : Keyword) :
    ((all.map block).map Block.section).filter (·.keyword = wanted) =
      if keyword = wanted then all.map fun a => (block a).section else [] := by
  rw [List.map_map, List.filter_map]
  split
  · rename_i equal
    have kept : all.filter ((fun s : Section => decide (s.keyword = wanted)) ∘ Block.section ∘ block) = all :=
      List.filter_eq_self.mpr fun a _ => decide_eq_true ((same a).trans equal)
    rw [kept]
    rfl
  · rename_i other
    have dropped : all.filter ((fun s : Section => decide (s.keyword = wanted)) ∘ Block.section ∘ block) =
        [] :=
      List.filter_eq_nil_iff.mpr fun a _ => by simpa [Block.section, same a] using other
    rw [dropped]
    rfl

/-- What the blocks of a document say, each read on its own. -/
theorem Document.ofSections_blocks (d : Document) :
    Document.ofSections (d.blocks.map Block.section) =
      { datasource := d.datasource.map fun ds => .ofBody ds.block.section.body
        generator := d.generator.map fun g => .ofBody g.block.section.body
        models := keepFirst Model.name (d.models.map fun m => .ofBody m.name m.block.section.body)
        enums := keepFirst Enumeration.name (d.enums.map fun e => .ofBody e.name e.block.section.body) } := by
  have only (wanted : Keyword) : (d.blocks.map Block.section).filter (·.keyword = wanted) =
      (if Keyword.datasource = wanted then d.datasource.toList.map fun ds => ds.block.section else []) ++
      (if Keyword.generator = wanted then d.generator.toList.map fun g => g.block.section else []) ++
      (if Keyword.model = wanted then d.models.map fun m => m.block.section else []) ++
      (if Keyword.enum = wanted then d.enums.map fun e => e.block.section else []) := by
    simp only [blocks, List.map_append, List.filter_append]
    rw [filter_section Datasource.block fun _ => rfl, filter_section Generator.block fun _ => rfl,
      filter_section Model.block fun _ => rfl, filter_section Enumeration.block fun _ => rfl]
  have modelName (m : Model) : m.block.section.name = m.name := rfl
  have enumName (e : Enumeration) : e.block.section.name = e.name := rfl
  simp only [Document.ofSections, only]
  cases d.datasource <;> cases d.generator <;> simp [Function.comp_def, modelName, enumName]

/-- A printed document is read block by block. -/
theorem Document.parse_print_blocks {d : Document} (models : ∀ m ∈ d.models, IsWord m.name)
    (enums : ∀ e ∈ d.enums, IsWord e.name) (contained : ∀ b ∈ d.blocks, b.IsContained) :
    Document.parse d.print =
      { datasource := d.datasource.map fun ds => .ofBody ds.block.section.body
        generator := d.generator.map fun g => .ofBody g.block.section.body
        models := keepFirst Model.name (d.models.map fun m => .ofBody m.name m.block.section.body)
        enums := keepFirst Enumeration.name (d.enums.map fun e => .ofBody e.name e.block.section.body) } := by
  have named : ∀ b ∈ d.blocks, IsWord b.name := by
    intro b member
    simp only [blocks, List.mem_append, List.mem_map] at member
    rcases member with ((⟨ds, -, rfl⟩ | ⟨g, -, rfl⟩) | ⟨m, inModels, rfl⟩) | ⟨e, inEnums, rfl⟩
    · exact (by decide : txt "db" ≠ [] ∧ ∀ c ∈ txt "db", isWordChar c)
    · exact (by decide : txt "client" ≠ [] ∧ ∀ c ∈ txt "client", isWordChar c)
    · exact models m inModels
    · exact enums e inEnums
  rw [Document.parse_eq_ofSections, Document.print_blocks, sections_joinWith named contained,
    Document.ofSections_blocks]

/-- Of the lines of a model the empty ones say nothing. -/
theorem filter_bodyLines (fieldLines gap attributeLines : List Text)
    (inFields : ∀ line ∈ fieldLines, isAttributeLine line = false) (inGap : ∀ line ∈ gap, line = [])
    (inAttributes : ∀ line ∈ attributeLines, isAttributeLine line = true) :
    (([] :: (fieldLines ++ gap ++ attributeLines)).filter (fun line => !isAttributeLine line)).filterMap
        parseField = fieldLines.filterMap parseField ∧
      ([] :: (fieldLines ++ gap ++ attributeLines)).filter isAttributeLine = attributeLines := by
  have gapUnread : (gap.filter fun line => !isAttributeLine line).filterMap parseField = [] := by
    refine List.filterMap_eq_nil_iff.mpr fun line member => ?_
    rw [inGap line (List.mem_filter.mp member).1]
    rfl
  have gapDropped : gap.filter isAttributeLine = [] := by
    refine List.filter_eq_nil_iff.mpr fun line member => ?_
    rw [inGap line member]
    decide
  have fieldsKept : fieldLines.filter (fun line => !isAttributeLine line) = fieldLines :=
    List.filter_eq_self.mpr fun line member => by rw [inFields line member]; rfl
  have fieldsDropped : fieldLines.filter isAttributeLine = [] :=
    List.filter_eq_nil_iff.mpr fun line member => by simp [inFields line member]
  have attributesDropped : attributeLines.filter (fun line => !isAttributeLine line) = [] :=
    List.filter_eq_nil_iff.mpr fun line member => by simp [inAttributes line member]
  have first : isAttributeLine [] = false := rfl
  constructor
  · rw [List.filter_cons_of_pos (by rw [first]; rfl), List.filterMap_cons_none rfl, List.filter_append,
      List.filter_append, fieldsKept, attributesDropped, List.append_nil, List.filterMap_append, gapUnread,
      List.append_nil]
  · rw [List.filter_cons_of_neg (by simp [first]), List.filter_append, List.filter_append, fieldsDropped,
      gapDropped, List.filter_eq_self.mpr inAttributes]
    rfl

/-- The body of a printed model is read row by row. -/
theorem Model.ofBody_rows {m : Model} (isRow : ∀ row ∈ m.block.rows, IsRow row)
    (fieldLines : ∀ f ∈ m.fields, isAttributeLine (trim (strip (m.fieldRow f))) = false)
    (attributeLines : ∀ a ∈ m.attributes, isAttributeLine (trim (strip (entryRow a))) = true) :
    Model.ofBody m.name m.block.section.body =
      { name := m.name
        fields := keepFirst Field.name (m.fields.filterMap fun f => parseField (trim (strip (m.fieldRow f))))
        attributes := m.attributes.flatMap fun a => extractAttributes (trim (strip (entryRow a))) } := by
  obtain ⟨gap, atGap, noGap⟩ : ∃ gap,
      m.block.rows = m.fields.map m.fieldRow ++ gap ++ m.attributes.map entryRow ∧
      ∀ row ∈ gap, trim (strip row) = [] := by
    refine ⟨_, rfl, ?_⟩
    intro row member
    split at member
    · cases member
    · rw [List.mem_singleton.mp member]
      rfl
  have body : m.block.section.body = '\n' :: strip m.block.rows.flatten := rfl
  have lines : bodyLines m.block.section.body = [] ::
      ((m.fields.map m.fieldRow).map (fun row => trim (strip row)) ++ gap.map (fun row => trim (strip row)) ++
        (m.attributes.map entryRow).map fun row => trim (strip row)) := by
    rw [body, bodyLines_rows isRow, atGap, List.map_append, List.map_append]
  obtain ⟨fields, attributes⟩ := filter_bodyLines ((m.fields.map m.fieldRow).map fun row => trim (strip row))
    (gap.map fun row => trim (strip row)) ((m.attributes.map entryRow).map fun row => trim (strip row))
    (by simpa using fieldLines) (by simpa using noGap) (by simpa using attributeLines)
  rw [Model.ofBody, lines, fields, attributes]
  simp [List.filterMap_map, List.flatMap_map, Function.comp_def]

theorem Enumeration.ofBody_rows {e : Enumeration} (isRow : ∀ row ∈ e.block.rows, IsRow row) :
    Enumeration.ofBody e.name e.block.section.body =
      { name := e.name
        values := e.values.filterMap fun value => enumValue? (trim (strip (entryRow value))) } := by
  have body : e.block.section.body = '\n' :: strip e.block.rows.flatten := rfl
  rw [Enumeration.ofBody, body, bodyLines_rows isRow, List.filterMap_cons_none rfl]
  simp only [Enumeration.block, List.map_map, List.filterMap_map, Function.comp_def]

/-- A line without white space in front gives its first run of visible characters. -/
theorem firstWord?_eq_some_iff {t v : Text} (trimmed : Stops isBlank t) :
    firstWord? t = some v ↔ v ≠ [] ∧ t.takeWhile (fun c => !isBlank c) = v := by
  rw [firstWord?, trimStart, dropWhile_eq_self trimmed]
  cases taken : t.takeWhile fun c => !isBlank c with
  | nil => simp [eq_comm]
  | cons c word =>
    simp only [Option.some.injEq]
    exact ⟨fun same => ⟨by simp [← same], same⟩, fun same => same.2⟩

theorem enumValue?_eq_some_iff {line v : Text} (trimmed : Stops isBlank line) :
    enumValue? line = some v ↔ line ≠ txt "\x7d" ∧ isAttributeLine line = false ∧ v ≠ [] ∧
      (dropEndWhile (· = ',') line).takeWhile (fun c => !isBlank c) = v := by
  have kept : Stops isBlank (dropEndWhile (· = ',') line) :=
    trimmed.of_isPrefix (dropEndWhile_isPrefix _ line)
  rw [enumValue?, ← firstWord?_eq_some_iff kept]
  by_cases brace : line = txt "\x7d"
  · simp [brace]
  · cases isAttributeLine line <;> simp [brace]

theorem keepFirst_of_nodup {α : Type} {name : α → Text} {all : List α} (distinct : (all.map name).Nodup) :
    keepFirst name all = all := by
  induction all with
  | nil => rfl
  | cons a all ih =>
    rw [List.map_cons, List.nodup_cons] at distinct
    rw [keepFirst, ih distinct.2]
    congr 1
    refine List.filter_eq_self.mpr fun b member => decide_eq_true ?_
    intro same
    exact distinct.1 (same ▸ List.mem_map_of_mem member)

end SchemaDiagram
