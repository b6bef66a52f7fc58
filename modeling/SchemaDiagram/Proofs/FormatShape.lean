import SchemaDiagram.Proofs.ParsedForm
import SchemaDiagram.Proofs.PlainRow
import SchemaDiagram.Proofs.ScanBlanks

namespace SchemaDiagram

open Text

def Field.shape (f : Field) : Field := { f with attributes := [], relation := none }

def Model.shape (m : Model) : Model := { m with fields := m.fields.map Field.shape, attributes := [] }

/-- What formatting is to keep of a document: the models without their attributes, and the enumerations. -/
def Document.shape (d : Document) : Document := { models := d.models.map Model.shape, enums := d.enums }

/-- A value that stands for itself on a line: it is no closing brace, has no comma at its end, and holds
no comment. -/
def IsLoneValue (v : Text) : Prop := v ≠ txt "\x7d" ∧ v.getLast? ≠ some ',' ∧ strip v = v

/-- Blanking leaves white space where it was. -/
theorem Follows.shown {t : Text} (follows : Follows [] t) (keep : Role → Bool) (state : ScanState)
    (lineBlank : Bool) : Follows [] ((scanFrom state lineBlank t).flatMap (showOnly keep)) := by
  rcases t with _ | ⟨d, t⟩
  · exact fun c head => by cases head
  · intro c head
    rw [scanFrom_cons, List.flatMap_cons] at head
    obtain ⟨later, same | space⟩ := showOnly_head keep (d, (state.step lineBlank d t).1)
    · rw [same] at head
      obtain rfl : d = c := Option.some.inj head
      exact follows d rfl
    · rw [space] at head
      obtain rfl : ' ' = c := Option.some.inj head
      exact Or.inr (by decide)

theorem Field.IsRead.tail_oneLine {f : Field} (read : f.IsRead) (width : Nat) :
    '\n' ∉ trimEnd (List.replicate width ' ' ++ f.attributes.flatMap (txt " " ++ ·)) := by
  intro member
  have inside := (dropEndWhile_isPrefix isBlank _).subset member
  rcases List.mem_append.mp inside with pad | inAttributes
  · exact absurd (List.eq_of_mem_replicate pad) (by decide)
  · obtain ⟨a, inField, inside⟩ := List.mem_flatMap.mp inAttributes
    rcases List.mem_append.mp inside with space | inAttribute
    · exact absurd space (by decide)
    · exact read.attributes a inField inAttribute

/-- A row of a field that was read gives the same name, type and marks, whatever its attributes become. -/
theorem Field.IsRead.reread {f : Field} (read : f.IsRead) (nameWidth labelWidth : Nat) :
    (∃ u, f.row nameWidth labelWidth = u ++ ['\n'] ∧ '\n' ∉ u) ∧
      isAttributeLine (trim (strip (f.row nameWidth labelWidth))) = false ∧
      ∃ f', parseField (trim (strip (f.row nameWidth labelWidth))) = some f' ∧ f'.shape = f.shape := by
  obtain ⟨gap, tail, whole, gapped, inGap, atTail⟩ := read.formed.row_eq nameWidth labelWidth
  obtain ⟨free, leadLine⟩ := read.formed.lead_commentFree inGap
  have tailLine : '\n' ∉ tail := atTail ▸ read.tail_oneLine _
  have follows : Follows [] tail := atTail ▸ f.tail_follows _
  have behind : Follows [] (tail ++ ['\n']) := follows.append_newline
  have apart : IsApart (tail ++ ['\n']) :=
    ⟨behind.head?_ne (by simp) (by decide), behind.head?_ne (by simp) (by decide)⟩
  obtain ⟨state, lineBlank, bare⟩ := strip_append_commentFree free leadLine apart
  obtain ⟨v, shown, inLine⟩ := showOnly_oneLine (· ≠ .comment) state lineBlank tailLine
  have parted : Follows [] v :=
    (behind.shown _ state lineBlank).of_isPrefix (shown ▸ List.prefix_append v ['\n'])
  obtain ⟨noAttribute, parsed⟩ := read.formed.parse_line gapped inGap parted inLine
  rw [whole]
  refine ⟨⟨_, rfl, ?_⟩, ?_⟩
  · simp only [List.mem_append, not_or] at leadLine ⊢
    exact ⟨leadLine, tailLine⟩
  · rw [List.append_assoc, bare, shown, ← List.append_assoc]
    exact ⟨noAttribute, _, parsed, rfl⟩

theorem strip_entryRow (entry : Text) : strip (entryRow entry) = entryRow (strip entry) := by
  obtain ⟨role, items⟩ := scanFrom_concat_newline .code true entry
  have whole : entryRow entry = ' ' :: ' ' :: (entry ++ ['\n']) := rfl
  rw [whole, strip, scan, scanFrom_cons, ScanState.step_code_plain (by decide) (by decide), scanFrom_cons,
    ScanState.step_code_plain (by decide) (by decide), lineBlankAfter_space, lineBlankAfter_space, items]
  simp only [List.flatMap_cons, List.flatMap_append, List.flatMap_nil, showOnly_newline]
  rfl

/-- The sign of an attribute is no part of a comment. -/
theorem attributeRow_line {a : Text} (sign : a.head? = some '@') :
    isAttributeLine (trim (strip (entryRow a))) = true := by
  obtain ⟨more, rfl⟩ := List.head?_eq_some_iff.mp sign
  obtain ⟨rest, bare⟩ : ∃ rest, strip ('@' :: more) = '@' :: rest := by
    rw [strip, scan, scanFrom_cons, ScanState.step_code_plain (by decide) (by decide)]
    exact ⟨_, rfl⟩
  rw [strip_entryRow, trim_entryRow, bare, trim_cons (by decide)]
  rfl

theorem map_filterMap_of_forall {α β γ : Type} {read : α → Option β} {f : α → γ} {g : β → γ} {all : List α}
    (each : ∀ a ∈ all, ∃ b, read a = some b ∧ g b = f a) : (all.filterMap read).map g = all.map f := by
  induction all with
  | nil => rfl
  | cons a all ih =>
    obtain ⟨b, found, same⟩ := each a List.mem_cons_self
    rw [List.filterMap_cons_some found, List.map_cons, List.map_cons, same,
      ih fun a' member => each a' (List.mem_cons_of_mem _ member)]

/-- A model that was read keeps its shape if no row of it leaves a comment open. -/
theorem Model.IsRead.shape_ofBody {m : Model} (read : m.IsRead) (tidy : ∀ row ∈ m.block.rows, Tidy row) :
    (Model.ofBody m.name m.block.section.body).shape = m.shape := by
  have fieldRows (f : Field) (member : f ∈ m.fields) := (read.fields f member).reread
    (columnWidth (m.fields.map (·.name))) (columnWidth (m.fields.map (·.label)))
  have oneLine : ∀ row ∈ m.block.rows, ∃ u, row = u ++ ['\n'] ∧ '\n' ∉ u := by
    intro row member
    simp only [block, List.mem_append, List.mem_map] at member
    rcases member with (⟨f, inModel, rfl⟩ | inGap) | ⟨a, inModel, rfl⟩
    · exact (fieldRows f inModel).1
    · split at inGap
      · cases inGap
      · rw [List.mem_singleton.mp inGap]
        exact ⟨[], rfl, by simp⟩
    · exact ⟨txt "  " ++ a, rfl, by simpa [txt] using (read.attributes a inModel).2⟩
  rw [Model.ofBody_rows (fun row member => ⟨oneLine row member, tidy row member⟩)
    (fun f member => (fieldRows f member).2.1) fun a member => attributeRow_line (read.attributes a member).1]
  have names : (m.fields.filterMap fun f => parseField (trim (strip (m.fieldRow f)))).map Field.name =
      m.fields.map Field.name := by
    refine map_filterMap_of_forall fun f member => ?_
    obtain ⟨f', parsed, same⟩ := (fieldRows f member).2.2
    have name : f'.shape.name = f.shape.name := congrArg Field.name same
    exact ⟨f', parsed, name⟩
  have shapes : (m.fields.filterMap fun f => parseField (trim (strip (m.fieldRow f)))).map Field.shape =
      m.fields.map Field.shape := map_filterMap_of_forall fun f member => (fieldRows f member).2.2
  rw [keepFirst_of_nodup (names ▸ read.distinct), Model.shape, shapes]
  rfl

/-- If a value comes back from its line, it was all of it. -/
theorem isLoneValue_of_enumValue? {v : Text} (read : enumValue? (trim (strip v)) = some v) :
    IsLoneValue v := by
  obtain ⟨noBrace, -, -, taken⟩ := (enumValue?_eq_some_iff (stops_trim _)).mp read
  have before := List.takeWhile_prefix (l := dropEndWhile (· = ',') (trim (strip v))) fun c => !isBlank c
  rw [taken] at before
  have size := byteSize_trim_le (strip v)
  rw [byteSize_strip] at size
  -- the line has no more bytes than the value, so nothing of it was lost
  have line : v = trim (strip v) := eq_of_isPrefix_of_byteSize_le (before.trans (dropEndWhile_isPrefix _ _)) size
  have whole : trim (strip v) = strip v := trim_eq_self_of_byteSize (by rw [← line, byteSize_strip])
  rw [← line] at noBrace before whole
  refine ⟨noBrace, ?_, whole.symm⟩
  have kept : v = dropEndWhile (· = ',') v :=
    List.IsPrefix.eq_of_length_le before (dropEndWhile_isPrefix _ v).length_le
  intro comma
  have ends := stops_dropEndWhile (· = ',') v
  rw [← kept] at ends
  exact absurd (ends ',' (by rw [List.head?_reverse]; exact comma)) (by decide)

theorem IsLoneValue.enumValue? {v : Text} (lone : IsLoneValue v) (nonempty : v ≠ [])
    (visible : ∀ c ∈ v, isBlank c = false) (noSign : v.head? ≠ some '@') :
    enumValue? (trim (strip v)) = some v := by
  obtain ⟨noBrace, noComma, bare⟩ := lone
  have begins : Stops isBlank v := fun c head => visible c (List.mem_of_mem_head? head)
  have kept : dropEndWhile (· = ',') v = v := by
    refine dropEndWhile_eq_self fun c head => decide_eq_false ?_
    rintro rfl
    exact noComma (List.head?_reverse ▸ head)
  have taken : v.takeWhile (fun c => !isBlank c) = v :=
    List.takeWhile_eq_self_iff.mpr fun c member => by rw [visible c member]; rfl
  rw [bare, trim_eq_self begins (stops_reverse_of_forall visible), enumValue?_eq_some_iff begins, kept]
  exact ⟨noBrace, decide_eq_false noSign, nonempty, taken⟩

theorem filterMap_eq_self_iff {α : Type} {read : α → Option α} {all : List α} :
    all.filterMap read = all ↔ ∀ a ∈ all, read a = some a := by
  induction all with
  | nil => simp
  | cons a all ih =>
    rw [List.forall_mem_cons, ← ih]
    cases found : read a with
    | none =>
      rw [List.filterMap_cons_none found]
      refine ⟨fun same => ?_, fun ⟨here, _⟩ => by cases here⟩
      have length := List.length_filterMap_le read all
      rw [same, List.length_cons] at length
      omega
    | some b =>
      rw [List.filterMap_cons_some found, List.cons_eq_cons, Option.some.injEq]

/-- An enumeration that was read comes back exactly if each of its values does. -/
theorem Enumeration.IsRead.ofBody_iff {e : Enumeration} (read : e.IsRead)
    (tidy : ∀ row ∈ e.block.rows, Tidy row) :
    Enumeration.ofBody e.name e.block.section.body = e ↔ ∀ v ∈ e.values, IsLoneValue v := by
  have isRow : ∀ row ∈ e.block.rows, IsRow row := by
    intro row member
    refine ⟨?_, tidy row member⟩
    obtain ⟨v, inValues, rfl⟩ := List.mem_map.mp member
    obtain ⟨-, visible, -⟩ := read.values v inValues
    have inLine : '\n' ∉ v := fun newline => absurd (visible '\n' newline) (by decide)
    exact ⟨txt "  " ++ v, rfl, by simpa [txt] using inLine⟩
  rw [Enumeration.ofBody_rows isRow]
  have values : (e.values.filterMap fun v => enumValue? (trim (strip (entryRow v)))) = e.values ↔
      ∀ v ∈ e.values, IsLoneValue v := by
    rw [filterMap_eq_self_iff]
    refine forall₂_congr fun v member => ?_
    obtain ⟨nonempty, visible, noSign⟩ := read.values v member
    rw [strip_entryRow, trim_entryRow]
    exact ⟨isLoneValue_of_enumValue?, fun lone => lone.enumValue? nonempty visible noSign⟩
  rw [← values]
  exact ⟨fun same => congrArg Enumeration.values same, fun same => by rw [same]⟩

theorem map_eq_self_iff {α : Type} {f : α → α} {all : List α} : all.map f = all ↔ ∀ a ∈ all, f a = a := by
  rw [← List.map_inj_left, List.map_id']

/-- Formatting a text keeps the models and the enumerations exactly if every value of an enumeration stands
for itself, as long as no printed row leaves a comment open and in each printed block the braces pair up. -/
theorem formatSchema_shape_iff {t : Text} (contained : ∀ b ∈ (Document.parse t).blocks, b.IsContained) :
    (Document.parse (formatSchema t)).shape = (Document.parse t).shape ↔
      ∀ e ∈ (Document.parse t).enums, ∀ v ∈ e.values, IsLoneValue v := by
  have read := Document.parse_isRead t
  rw [formatSchema]
  generalize Document.parse t = d at contained read
  rw [Document.parse_print_blocks (fun m member => (read.models m member).name)
    (fun e member => (read.enums e member).name) contained]
  have modelTidy : ∀ m ∈ d.models, ∀ row ∈ m.block.rows, Tidy row := fun m member =>
    (contained m.block (by simp [Document.blocks]; exact Or.inr (Or.inr (Or.inl ⟨m, member, rfl⟩)))).tidy
  have enumTidy : ∀ e ∈ d.enums, ∀ row ∈ e.block.rows, Tidy row := fun e member =>
    (contained e.block (by simp [Document.blocks]; exact Or.inr (Or.inr (Or.inr ⟨e, member, rfl⟩)))).tidy
  have modelNames : (d.models.map fun m => Model.ofBody m.name m.block.section.body).map Model.name =
      d.models.map Model.name := by
    rw [List.map_map]
    rfl
  have enumNames :
      (d.enums.map fun e => Enumeration.ofBody e.name e.block.section.body).map Enumeration.name =
        d.enums.map Enumeration.name := by
    rw [List.map_map]
    rfl
  have models : (d.models.map fun m => Model.ofBody m.name m.block.section.body).map Model.shape =
      d.models.map Model.shape := by
    rw [List.map_map]
    exact List.map_congr_left fun m member => (read.models m member).shape_ofBody (modelTidy m member)
  have enums : (d.enums.map fun e => Enumeration.ofBody e.name e.block.section.body) = d.enums ↔
      ∀ e ∈ d.enums, ∀ v ∈ e.values, IsLoneValue v := by
    rw [map_eq_self_iff]
    exact forall₂_congr fun e member => (read.enums e member).ofBody_iff (enumTidy e member)
  rw [keepFirst_of_nodup (modelNames ▸ read.distinctModels),
    keepFirst_of_nodup (enumNames ▸ read.distinctEnums), ← enums]
  simp only [Document.shape, models, Document.mk.injEq, true_and]

/-- A schema with a comment, an opening brace in a string and an enumeration on lines of its own. -/
def commentedSchema : Text :=
  txt "enum Role \x7b\n  USER\n  ADMIN // all\n\x7d\nmodel User \x7b\n  id Int @id\n" ++
    txt "  role Role? @default(\"\x7b\")\n  @@map(\"users\")\n\x7d\n"

theorem isContained_commentedSchema : ∀ b ∈ (Document.parse commentedSchema).blocks, b.IsContained := by
  obtain ⟨entries, atEntries⟩ : ∃ entries, entries =
      [txt "  id   Int   @id", txt "  role Role? @default(\"\x7b\")", [], txt "  @@map(\"users\")",
        txt "  USER", txt "  ADMIN"] := ⟨_, rfl⟩
  have rows : (Document.parse commentedSchema).blocks.flatMap Block.rows = entries.map (· ++ ['\n']) := by
    rw [atEntries]
    decide +kernel
  refine isContained_of_entries rows ?_
  rw [atEntries]
  decide +kernel

theorem formatSchema_shape_commentedSchema :
    (∀ b ∈ (Document.parse commentedSchema).blocks, b.IsContained) ∧
      (Document.parse (formatSchema commentedSchema)).shape = (Document.parse commentedSchema).shape := by
  refine ⟨isContained_commentedSchema, (formatSchema_shape_iff isContained_commentedSchema).mpr ?_⟩
  have lone : ∀ e ∈ (Document.parse commentedSchema).enums, ∀ v ∈ e.values,
      v ≠ txt "\x7d" ∧ v.getLast? ≠ some ',' ∧ strip v = v := by decide +kernel
  exact lone

/-- Of two values on one line the first is read with its comma, and loses it on a line of its own. -/
theorem formatSchema_shape_oneLine :
    (Document.parse (formatSchema (txt "enum Role \x7b USER, ADMIN \x7d"))).shape ≠
      (Document.parse (txt "enum Role \x7b USER, ADMIN \x7d")).shape := by
  intro same
  have enums : (Document.parse (formatSchema (txt "enum Role \x7b USER, ADMIN \x7d"))).enums =
      (Document.parse (txt "enum Role \x7b USER, ADMIN \x7d")).enums := congrArg Document.enums same
  revert enums
  decide +kernel

end SchemaDiagram
