import SchemaDiagram.Proofs.RowReplace

namespace SchemaDiagram

open Text

section

variable {field line r : Text} {rs : List Text}

/-- A new line stands behind the last row that shows something. -/
theorem insertRow_split (line : Text) (nonempty : rs ≠ []) :
    ∃ front r back pads, rs = front ++ r :: back ∧ (∀ s ∈ back, isBareRow s) ∧ (∀ c ∈ pads, isPad c) ∧
      insertRow line rs =
        front ++ if back.isEmpty then [trimEnd r, pads ++ line, []] else r :: (pads ++ line) :: back := by
  have walk (atBrace : Bool) (rs : List Text) (nonempty : rs ≠ []) :
      ∃ front r back pads, rs = front ++ r :: back ∧ (∀ s ∈ back, isBareRow s) ∧ (∀ c ∈ pads, isPad c) ∧
        insertRowFrom atBrace line rs =
          front ++ if back.isEmpty then [trimEnd r, pads ++ line, []] else r :: (pads ++ line) :: back := by
    induction rs generalizing atBrace with
    | nil => exact absurd rfl nonempty
    | cons r later ih =>
      have pads : ∀ c ∈ if atBrace then defaultIndent else indent r, isPad c := by
        split
        · decide
        · exact fun c => List.mem_takeWhile_imp
      rw [insertRowFrom]
      by_cases last : later.isEmpty
      · obtain rfl := List.isEmpty_iff.mp last
        exact ⟨[], r, [], _, rfl, by simp, pads, rfl⟩
      rw [if_neg last]
      by_cases bare : later.all isBareRow
      · rw [if_pos bare]
        refine ⟨[], r, later, _, rfl, List.all_eq_true.mp bare, pads, ?_⟩
        rw [if_neg last]
        rfl
      · obtain ⟨front, s, back, pads, whole, bareBack, isPads, inserted⟩ := ih false (by simpa using last)
        rw [if_neg bare]
        exact ⟨r :: front, s, back, pads, by rw [whole]; rfl, bareBack, isPads, by rw [inserted]; rfl⟩
  exact walk true rs nonempty

/-- A replaced line stands in the first row that declares the field. -/
theorem replaceRow_split (line : Text) (has : hasRow field rs) :
    ∃ front r back, rs = front ++ r :: back ∧ (∀ s ∈ front, declaresRow field false s = false) ∧
      declaresRow field back.isEmpty r ∧
      replaceRow field line rs =
        front ++ rewriteRow line r :: if back.isEmpty && (lineEnds r).isEmpty then [[]] else back := by
  induction rs with
  | nil => cases has
  | cons r later ih =>
    rw [replaceRow]
    by_cases here : declaresRow field later.isEmpty r
    · rw [if_pos here]
      exact ⟨[], r, later, rfl, by simp, here, rfl⟩
    · rw [hasRow, Bool.eq_false_iff.mpr here, Bool.false_or] at has
      have more : later.isEmpty = false := by
        rcases later with _ | ⟨s, later⟩
        · cases has
        · rfl
      obtain ⟨front, s, back, whole, earlier, declared, replaced⟩ := ih has
      rw [if_neg here, replaced]
      refine ⟨r :: front, s, back, by rw [whole]; rfl, List.forall_mem_cons.mpr ⟨?_, earlier⟩, declared, rfl⟩
      rwa [more, Bool.not_eq_true] at here

theorem IsFieldLine.trim_ne_nil (fieldLine : IsFieldLine line) : trim line ≠ [] := by
  intro empty
  obtain ⟨c, atEnd⟩ := Option.isSome_iff_exists.mp (List.getLast?_isSome.mpr fieldLine.nonempty)
  have visible := fieldLine.ends c (by rw [List.head?_reverse, atEnd])
  rw [trim_eq_nil_iff.mp empty c (List.mem_of_getLast? atEnd)] at visible
  cases visible

theorem isBodyRows_append {front : List Text} (some : rs ≠ []) :
    IsBodyRows (front ++ rs) ↔ (∀ r ∈ front, IsBodyRow r) ∧ IsBodyRows rs := by
  induction front with
  | nil => simp
  | cons r front ih =>
    rw [List.cons_append, isBodyRows_cons (by simp [some]), ih, List.forall_mem_cons, and_assoc]

theorem isBodyRow_nil : IsBodyRow [] := (isCode_of_safe (by simp)).isBodyRow

theorem isBodyRows_singleton : IsBodyRows [r] ↔ IsBodyRow r ∧ commentAfter false r = false :=
  ⟨fun plain => ⟨plain.row r (by simp), plain.ends r rfl⟩,
    fun ⟨row, ends⟩ => ⟨by simpa using row, by simp, by simpa using ends⟩⟩

theorem isCode_pads {pads : Text} (isPads : ∀ c ∈ pads, isPad c) : IsCode pads := by
  refine isCode_of_safe fun c member => ?_
  have cases : c = ' ' ∨ c = '\t' := by simpa [isPad] using isPads c member
  rcases cases with rfl | rfl <;> decide

theorem IsCode.indented {pads : Text} (code : IsCode line) (isPads : ∀ c ∈ pads, isPad c) :
    IsCode (pads ++ line) := by
  refine (isCode_pads isPads).append code fun last => ?_
  cases isPads '/' (List.mem_of_getLast? last)

/-- A row that ends outside of comments is code. -/
theorem IsBodyRow.isCode_of_ends (plain : IsBodyRow r) (ends : commentAfter false r = false) : IsCode r := by
  have code := plain.isCode
  rwa [blankFrom_eq_self plain.inLine ends] at code

/-- A comment in a row begins with its sign and goes on to the end. -/
theorem comment_split (inLine : '\n' ∉ r) (comment : commentAfter false r = true) :
    ∃ front more, r = front ++ commentOf r ∧ commentOf r = '/' :: '/' :: more := by
  induction r with
  | nil => cases comment
  | cons c r ih =>
    obtain ⟨noNewline, later⟩ := List.ne_and_not_mem_of_not_mem_cons inLine
    rw [commentAfter, if_neg noNewline.symm, Bool.false_or] at comment
    rw [commentOf]
    cases opens : opensComment c r with
    | true =>
      obtain ⟨rfl, head⟩ : c = '/' ∧ r.head? = some '/' := by simpa [opensComment] using opens
      obtain ⟨more, rfl⟩ := List.head?_eq_some_iff.mp head
      exact ⟨[], more, rfl, rfl⟩
    | false =>
      rw [opens] at comment
      obtain ⟨front, more, whole, sign⟩ := ih later comment
      refine ⟨c :: front, more, ?_, sign⟩
      rw [if_neg (by decide), List.cons_append, ← whole]

/-- What stays behind a line that is put into a row: nothing that shows. -/
theorem rowEnd_cases (inLine : '\n' ∉ r) :
    (commentAfter false r = true ∧ ∃ more, rowEnd r = ' ' :: '/' :: '/' :: more ∧ '/' :: '/' :: more <:+: r) ∨
      commentAfter false r = false ∧ ∀ c ∈ rowEnd r, c = '\r' := by
  cases comment : commentAfter false r with
  | true =>
    obtain ⟨front, more, whole, sign⟩ := comment_split inLine comment
    have trimmed : trimEnd ('/' :: '/' :: more) = '/' :: '/' :: trimEnd more :=
      dropEndWhile_append (a := ['/', '/']) (stops_cons (by decide)) more
    refine Or.inl ⟨rfl, trimEnd more, by rw [rowEnd, if_pos comment, sign, trimmed], ?_⟩
    rw [← trimmed, ← sign]
    exact (dropEndWhile_isPrefix isBlank _).isInfix.trans ⟨front, [], by rw [List.append_nil, ← whole]⟩
  | false =>
    refine Or.inr ⟨rfl, fun c member => ?_⟩
    rw [rowEnd, comment, if_neg (by decide)] at member
    have either : c = '\n' ∨ c = '\r' := by simpa [isLineEnd] using mem_lineEnds member
    refine either.resolve_left fun newline => inLine ?_
    rw [← dropEndWhile_append_lineEnds r, ← newline]
    exact List.mem_append_right _ member

/-- A rewritten row shows the line that was put into it. -/
theorem rewriteRow_plain (plain : IsBodyRow r) (code : IsCode line) :
    IsBodyRow (rewriteRow line r) ∧ commentAfter false (rewriteRow line r) = commentAfter false r ∧
      rowLine (rewriteRow line r) = trim line := by
  have isPads : ∀ c ∈ indent r, isPad c := fun c => List.mem_takeWhile_imp
  have front : IsCode (indent r ++ line) := code.indented isPads
  have blankPads : ∀ c ∈ indent r, isBlank c := fun c member => isBlank_of_isPad (isPads c member)
  rcases rowEnd_cases plain.inLine with ⟨comment, more, atEnd, inside⟩ | ⟨comment, atEnd⟩
  · have apart : MeetApart (indent r ++ line) (' ' :: '/' :: '/' :: more) := meetApart_of_head (by decide)
    have only : OnlyLineComments ('/' :: '/' :: more) := plain.only.of_infix inside
    have inLine : '\n' ∉ '/' :: '/' :: more := fun member => plain.inLine (inside.subset member)
    have space : ∀ c ∈ [' '], isBlank c := by decide
    have blanks : ∀ c ∈ blankFrom false (' ' :: '/' :: '/' :: more), isBlank c :=
      blankFrom_separator space fun member => inLine (by simp [member])
    have shown : blankFrom false (rewriteRow line r) =
        indent r ++ line ++ blankFrom false (' ' :: '/' :: '/' :: more) := by
      rw [rewriteRow, atEnd, blankFrom_append apart, front.commentAfter, front.blankFrom]
    refine ⟨⟨?_, ?_, ?_⟩, ?_, ?_⟩
    · rw [rewriteRow, atEnd]
      exact front.only.append (only.cons (by decide) (by decide) (by simp)) (by simp)
    · rw [rewriteRow, atEnd]
      simp only [List.mem_append, List.mem_cons, not_or] at inLine ⊢
      exact ⟨by simpa using front.inLine, by decide, inLine⟩
    · rw [shown]
      have noBrace {c : Char} (other : c ∉ indent r ++ line) (visible : isBlank c = false) :
          c ∉ indent r ++ line ++ blankFrom false (' ' :: '/' :: '/' :: more) := by
        intro member
        rcases List.mem_append.mp member with inFront | inBack
        · exact other inFront
        · simp [blanks c inBack] at visible
      exact ⟨noBrace front.noBrace.1 (by decide), noBrace front.noBrace.2 (by decide)⟩
    · rw [rewriteRow, atEnd, commentAfter_append apart, front.commentAfter, comment]
      exact commentAfter_comment fun member => inLine (by simp [member])
    · rw [rowLine, shown]
      exact trim_append blankPads line blanks
  · have code : IsCode (rewriteRow line r) := by
      refine front.append (isCode_of_safe fun c member => ?_) fun _ => ?_
      · rw [atEnd c member]
        decide
      · constructor <;> exact fun head => absurd (atEnd _ (List.mem_of_head? head)) (by decide)
    refine ⟨code.isBodyRow, by rw [code.commentAfter, comment], ?_⟩
    rw [rowLine, code.blankFrom]
    refine trim_append blankPads line fun c member => ?_
    rw [atEnd c member]
    decide

theorem rowLine_indented {pads : Text} (code : IsCode line) (isPads : ∀ c ∈ pads, isPad c) :
    rowLine (pads ++ line) = trim line := by
  rw [rowLine, (code.indented isPads).blankFrom]
  have around := trim_append (fun c member => isBlank_of_isPad (isPads c member)) line (List.forall_mem_nil _)
  rwa [List.append_nil] at around

theorem IsBodyRows.insertRow (plain : IsBodyRows rs) (code : IsCode line) : IsBodyRows (insertRow line rs) := by
  obtain ⟨front, r, back, pads, rfl, -, isPads, inserted⟩ := insertRow_split line plain.nonempty
  obtain ⟨before, here⟩ := (isBodyRows_append (by simp)).mp plain
  have new := (code.indented isPads).isBodyRow
  rw [inserted]
  refine (isBodyRows_append (by split <;> simp)).mpr ⟨before, ?_⟩
  by_cases last : back = []
  · subst last
    obtain ⟨row, ends⟩ := isBodyRows_singleton.mp here
    have trimmed : IsBodyRow (trimEnd r) :=
      (IsCode.of_infix (row.isCode_of_ends ends) (dropEndWhile_isPrefix isBlank r).isInfix).isBodyRow
    rw [List.isEmpty_nil, if_pos rfl]
    exact (isBodyRows_cons (by simp)).mpr ⟨trimmed, (isBodyRows_cons (by simp)).mpr ⟨new,
      isBodyRows_singleton.mpr ⟨isBodyRow_nil, rfl⟩⟩⟩
  · obtain ⟨row, later⟩ := (isBodyRows_cons last).mp here
    rw [if_neg (by simpa using last)]
    exact (isBodyRows_cons (by simp)).mpr ⟨row, (isBodyRows_cons last).mpr ⟨new, later⟩⟩

theorem IsBodyRows.replaceRow (plain : IsBodyRows rs) (code : IsCode line) (has : hasRow field rs) :
    IsBodyRows (replaceRow field line rs) := by
  obtain ⟨front, r, back, rfl, -, -, replaced⟩ := replaceRow_split line has
  obtain ⟨before, here⟩ := (isBodyRows_append (by simp)).mp plain
  rw [replaced]
  refine (isBodyRows_append (by simp)).mpr ⟨before, ?_⟩
  by_cases last : back = []
  · subst last
    obtain ⟨row, ends⟩ := isBodyRows_singleton.mp here
    obtain ⟨rewritten, same, -⟩ := rewriteRow_plain row code
    cases ended : (lineEnds r).isEmpty with
    | true =>
      exact (isBodyRows_cons (by simp)).mpr ⟨rewritten, isBodyRows_singleton.mpr ⟨isBodyRow_nil, rfl⟩⟩
    | false => exact isBodyRows_singleton.mpr ⟨rewritten, same.trans ends⟩
  · obtain ⟨row, later⟩ := (isBodyRows_cons last).mp here
    have more : back.isEmpty = false := by simpa using last
    rw [more, Bool.false_and, if_neg (by decide)]
    exact (isBodyRows_cons last).mpr ⟨(rewriteRow_plain row code).1, later⟩

theorem IsBodyRows.upsertRow (plain : IsBodyRows rs) (code : IsCode line) :
    IsBodyRows (upsertRow field line rs) := by
  rw [SchemaDiagram.upsertRow]
  split
  · rename_i has
    exact plain.replaceRow code has
  · exact plain.insertRow code

end

end SchemaDiagram
