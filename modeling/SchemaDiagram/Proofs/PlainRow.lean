import SchemaDiagram.Proofs.DocumentBlocks

namespace SchemaDiagram

open Text

/-- A row that is free of comments and has no brace outside of strings. -/
def IsPlainRow (row : Text) : Prop :=
  ∃ u, row = u ++ ['\n'] ∧ CommentFree .outside u ∧ '\n' ∉ u ∧ '{' ∉ unquoted u ∧ '}' ∉ unquoted u

theorem IsPlainRow.isRow {row : Text} (plain : IsPlainRow row) : IsRow row := by
  obtain ⟨u, rfl, free, inLine, -⟩ := plain
  exact isRow_of_commentFree free inLine

theorem IsPlainRow.strip {row : Text} (plain : IsPlainRow row) : strip row = row := by
  obtain ⟨u, rfl, free, inLine, -⟩ := plain
  exact strip_row free inLine

theorem IsPlainRow.no_brace {row : Text} (plain : IsPlainRow row) : '{' ∉ mask row ∧ '}' ∉ mask row := by
  obtain ⟨u, rfl, free, inLine, noOpening, noClosing⟩ := plain
  constructor
  · intro member
    exact (mem_mask_row free inLine (by decide) member).elim noOpening (by decide)
  · intro member
    exact (mem_mask_row free inLine (by decide) member).elim noClosing (by decide)

/-- A block of plain rows is contained: there is nothing to close. -/
theorem isContained_of_plain {b : Block} (plain : ∀ row ∈ b.rows, IsPlainRow row) : b.IsContained := by
  have tidy : ∀ row ∈ b.rows, Tidy row := fun row member => (plain row member).isRow.tidy
  have noBrace {c : Char} (inRows : ∀ row ∈ b.rows, c ∉ mask row) : c ∉ mask b.rows.flatten := by
    rw [mask_flatten tidy]
    intro member
    obtain ⟨masked, inMasked, here⟩ := List.mem_flatten.mp member
    obtain ⟨row, inBlock, rfl⟩ := List.mem_map.mp inMasked
    exact inRows row inBlock here
  have noOpening := noBrace fun row member => (plain row member).no_brace.1
  have noClosing := noBrace fun row member => (plain row member).no_brace.2
  refine ⟨tidy, isBracketed_of_staysOpen (by decide) ?_ ?_⟩
  · intro part before
    have none : part.count '}' = 0 := List.count_eq_zero.mpr fun member => noClosing (before.subset member)
    omega
  · rw [List.count_eq_zero.mpr noOpening, List.count_eq_zero.mpr noClosing]

/-- Blocks are contained if outside of strings no row of them has a brace or the sign of a comment. -/
theorem isContained_of_entries {blocks : List Block} {entries : List Text}
    (rows : blocks.flatMap Block.rows = entries.map (· ++ ['\n']))
    (plain : ∀ u ∈ entries, ¬txt "//" <:+: unquoted u ∧ ¬txt "/*" <:+: unquoted u ∧ '\n' ∉ u ∧ '{' ∉ unquoted u ∧ '}' ∉ unquoted u) :
    ∀ b ∈ blocks, b.IsContained := by
  intro b member
  refine isContained_of_plain fun row inBlock => ?_
  have inRows : row ∈ entries.map (· ++ ['\n']) := rows ▸ List.mem_flatMap.mpr ⟨b, member, inBlock⟩
  obtain ⟨u, inEntries, rfl⟩ := List.mem_map.mp inRows
  obtain ⟨noLine, noBlock, inLine, braces⟩ := plain u inEntries
  exact ⟨u, rfl, commentFree_of_unquoted noLine noBlock, inLine, braces⟩

/-- A part of a row that is free of comments, closes its strings and has no brace outside of them. -/
structure IsPlain (u : Text) : Prop where
  free : CommentFree .outside u
  closed : Quoting.after .outside u = .outside
  oneLine : '\n' ∉ u
  noOpening : '{' ∉ unquoted u
  noClosing : '}' ∉ unquoted u

theorem IsPlain.append {a b : Text} (plain : IsPlain a) (later : IsPlain b) (apart : IsApart b) :
    IsPlain (a ++ b) := by
  have split : unquoted (a ++ b) = unquoted a ++ unquoted b := by
    rw [unquoted, unquotedFrom_append, plain.closed]
    rfl
  refine ⟨commentFree_append plain.free (by rw [plain.closed]; exact later.free) apart, ?_, ?_, ?_, ?_⟩
  · rw [Quoting.after_append, plain.closed, later.closed]
  · simp [plain.oneLine, later.oneLine]
  · simp [split, plain.noOpening, later.noOpening]
  · simp [split, plain.noClosing, later.noClosing]

theorem isPlain_of_chars {u : Text} (chars : ∀ c ∈ u, c ∉ ['/', '"', '\n', '{', '}']) : IsPlain u := by
  have noWhere {c : Char} (special : c ∈ ['/', '"', '\n', '{', '}']) : c ∉ u :=
    fun member => chars c member special
  exact ⟨commentFree_of_not_mem (noWhere (by decide)), after_of_not_mem (noWhere (by decide)),
    noWhere (by decide), fun member => noWhere (by decide) (mem_of_mem_unquotedFrom member),
    fun member => noWhere (by decide) (mem_of_mem_unquotedFrom member)⟩

theorem IsWord.plainChars {t : Text} (word : IsWord t) : ∀ c ∈ t, c ∉ ['/', '"', '\n', '{', '}'] := by
  intro c member special
  have other : ∀ c ∈ ['/', '"', '\n', '{', '}'], isWordChar c = false := by decide
  exact word.not_mem (other c special) member

theorem isPlain_spaces {t : Text} (spaces : ∀ c ∈ t, c = ' ') : IsPlain t :=
  isPlain_of_chars fun c member => by rw [spaces c member]; decide

theorem IsAttribute.isPlain {a : Text} (isAttribute : IsAttribute a) : IsPlain a :=
  ⟨commentFree_of_unquoted isAttribute.noComment.1 isAttribute.noComment.2, isAttribute.closed,
    isAttribute.oneLine, isAttribute.noBrace.1, isAttribute.noBrace.2⟩

theorem IsPlain.row {u : Text} (plain : IsPlain u) : IsPlainRow (u ++ ['\n']) :=
  ⟨u, rfl, plain.free, plain.oneLine, plain.noOpening, plain.noClosing⟩

theorem isPlain_flatMap {attributes : List Text} (all : ∀ a ∈ attributes, IsAttribute a) :
    IsPlain (attributes.flatMap (txt " " ++ ·)) ∧ IsApart (attributes.flatMap (txt " " ++ ·)) := by
  induction attributes with
  | nil => exact ⟨isPlain_spaces (by simp), by decide, by decide⟩
  | cons a attributes ih =>
    obtain ⟨plain, apart⟩ := ih fun a' member => all a' (List.mem_cons_of_mem _ member)
    have here := all a List.mem_cons_self
    obtain ⟨⟨c, more, atStart⟩, -⟩ := here.ends
    have signed : IsApart a := by
      rw [atStart]
      exact isApart_cons (by decide) (by decide) _
    rw [List.flatMap_cons]
    exact ⟨((isPlain_spaces (by decide)).append here.isPlain signed).append plain apart,
      isApart_cons (by decide) (by decide) _⟩

/-- An entry on a row of its own is read as it is, if it is plain and does not end in white space. -/
theorem IsPlain.entryRow {entry : Text} (plain : IsPlain entry) (apart : IsApart entry)
    (begins : Stops isBlank entry) (ends : Stops isBlank entry.reverse) :
    IsPlainRow (entryRow entry) ∧ trim (strip (SchemaDiagram.entryRow entry)) = entry := by
  have row : IsPlainRow (SchemaDiagram.entryRow entry) :=
    ((isPlain_spaces (t := txt "  ") (by decide)).append plain apart).row
  refine ⟨row, ?_⟩
  rw [row.strip, trim_entryRow, trim_eq_self begins ends]

/-- A settings block of plain values reads as what it was printed from. -/
theorem settingsBlock_plain {keyword : Keyword} {name : Text} {settings : List (Text × Text)}
    (plain : ∀ setting ∈ settings,
      IsWord setting.1 ∧ ∃ value, IsPlainValue value ∧ setting.2 = quoteValue value) :
    ∀ row ∈ (settingsBlock keyword name settings).rows, IsPlainRow row := by
  intro row member
  obtain ⟨setting, inSettings, rfl⟩ := List.mem_map.mp member
  obtain ⟨word, value, plainValue, atValue⟩ := plain setting inSettings
  obtain ⟨u, whole, free, inLine, shown⟩ := settingRow_quoted word plainValue
    (columnWidth (settings.map (·.1)))
  have noBrace {c : Char} (other : isWordChar c = false) (noSign : c ∉ [' ', '=', '"']) : c ∉ unquoted u := by
    intro member
    rcases shown c member with letter | sign
    · simp [other] at letter
    · exact noSign sign
  rw [atValue]
  exact ⟨u, whole, free, inLine, noBrace (by decide) (by decide), noBrace (by decide) (by decide)⟩

theorem strip_flatten_plain {rows : List Text} (plain : ∀ row ∈ rows, IsPlainRow row) :
    strip rows.flatten = rows.flatten := by
  have same : ∀ row ∈ rows, strip row = id row := fun row member => (plain row member).strip
  rw [strip_flatten fun row member => (plain row member).isRow.tidy, List.map_congr_left same, List.map_id]

theorem isWord_provider : IsWord (txt "provider") :=
  (by decide : txt "provider" ≠ [] ∧ ∀ c ∈ txt "provider", isWordChar c)

/-- A provider and perhaps one more setting are both read from their rows. -/
theorem setting?_rows (width : Nat) {key provider : Text} {value : Option Text} (word : IsWord key)
    (differ : (txt "provider").head? ≠ key.head?) (plainProvider : IsPlainValue provider)
    (plainValue : ∀ v, value = some v → IsPlainValue v) :
    let rows := settingRow width (txt "provider") (quoteValue provider) ::
      (value.map fun v => settingRow width key (quoteValue v)).toList
    setting? (txt "provider") stringValue? ('\n' :: rows.flatten) = some provider ∧
      (setting? key lineValue? ('\n' :: rows.flatten)).map unquote = value := by
  intro rows
  obtain ⟨rest, atRest⟩ : ∃ rest,
      rest = (value.map fun v => settingRow width key (quoteValue v)).toList.flatten := ⟨_, rfl⟩
  have whole : rows.flatten = settingRow width (txt "provider") (quoteValue provider) ++ rest := by
    rw [atRest]
    rfl
  have oneLine {v : Text} (plain : IsPlainValue v) : '\n' ∉ quoteValue v := by
    simp [quoteValue_plain plain, plain.oneLine]
  rw [setting?_newline, setting?_newline, whole]
  constructor
  · rw [setting?_row_append isWord_provider (oneLine plainProvider), stringValue?_quoted plainProvider]
    rfl
  · rw [setting?_other_append isWord_provider differ word.1 (oneLine plainProvider), atRest]
    cases value with
    | none =>
      have nothing : setting? key lineValue? [] = none := setting?_nil word.1
      exact congrArg (Option.map unquote) nothing
    | some v =>
      have one : ((some v).map fun v => settingRow width key (quoteValue v)).toList.flatten =
          settingRow width key (quoteValue v) ++ [] := by simp
      rw [one, setting?_row_append word (oneLine (plainValue v rfl)), lineValue?_quoted (plainValue v rfl)]
      exact congrArg some (unquote_quoted v)

theorem settingsBlock_rows (keyword : Keyword) (name key provider : Text) (value : Option Text) :
    ∃ width, (settingsBlock keyword name
        ((txt "provider", provider) :: (value.map fun v => (key, quoteValue v)).toList)).rows =
      settingRow width (txt "provider") provider :: (value.map fun v => settingRow width key (quoteValue v)).toList := by
  cases value with
  | none => exact ⟨columnWidth [txt "provider"], rfl⟩
  | some v => exact ⟨columnWidth [txt "provider", key], rfl⟩

/-- A settings block with a provider and perhaps one more setting gives both back. -/
theorem settingsBlock_read (keyword : Keyword) (name : Text) {key provider : Text} {value : Option Text}
    (word : IsWord key) (differ : (txt "provider").head? ≠ key.head?)
    (plainProvider : IsPlainValue provider) (plainValue : ∀ v, value = some v → IsPlainValue v) :
    let block := settingsBlock keyword name
      ((txt "provider", quoteValue provider) :: (value.map fun v => (key, quoteValue v)).toList)
    (∀ row ∈ block.rows, IsPlainRow row) ∧
      setting? (txt "provider") stringValue? block.section.body = some provider ∧
      (setting? key lineValue? block.section.body).map unquote = value := by
  intro block
  have plain : ∀ row ∈ block.rows, IsPlainRow row := by
    refine settingsBlock_plain fun setting member => ?_
    rcases List.mem_cons.mp member with rfl | later
    · exact ⟨isWord_provider, provider, plainProvider, rfl⟩
    · obtain ⟨v, found, rfl⟩ : ∃ v, value = some v ∧ (key, quoteValue v) = setting := by simpa using later
      exact ⟨word, v, plainValue v found, rfl⟩
  refine ⟨plain, ?_⟩
  obtain ⟨width, rows⟩ : ∃ width, block.rows = _ := settingsBlock_rows keyword name key (quoteValue provider) value
  have body : block.section.body = '\n' :: block.rows.flatten :=
    congrArg ('\n' :: ·) (strip_flatten_plain plain)
  rw [body, rows]
  exact setting?_rows width word differ plainProvider plainValue

end SchemaDiagram
