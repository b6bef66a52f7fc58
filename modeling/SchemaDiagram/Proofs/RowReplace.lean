import SchemaDiagram.Proofs.CodeLines
import SchemaDiagram.Proofs.RowInsert

namespace SchemaDiagram

open Text

/-- Whether a row declares a field. The last row has no newline behind it. -/
def declaresRow (field : Text) (isLast : Bool) (r : Text) : Bool :=
  declares field (blankFrom false r ++ if isLast then [] else ['\n'])

def hasRow (field : Text) : List Text → Bool
  | [] => false
  | r :: later => declaresRow field later.isEmpty r || hasRow field later

/-- The comment in a row. -/
def commentOf : Text → Text
  | [] => []
  | c :: cs => if opensComment c cs then c :: cs else commentOf cs

/-- The carriage returns at the end of a row. -/
def lineEnds (r : Text) : Text := (r.reverse.takeWhile isLineEnd).reverse

/-- What stays of a row behind the line that is put into it. -/
def rowEnd (r : Text) : Text := if commentAfter false r then ' ' :: trimEnd (commentOf r) else lineEnds r

def rewriteRow (line r : Text) : Text := indent r ++ line ++ rowEnd r

/-- Replaces the first row that declares a field. The last row gets a newline if nothing else parts it from
the closing brace. -/
def replaceRow (field line : Text) : List Text → List Text
  | [] => []
  | r :: later =>
    if declaresRow field later.isEmpty r then
      rewriteRow line r :: (if later.isEmpty && (lineEnds r).isEmpty then [[]] else later)
    else r :: replaceRow field line later

def upsertRow (field line : Text) (rs : List Text) : List Text :=
  if hasRow field rs then replaceRow field line rs else insertRow line rs

/-- Replaces what stands at some place in a text, which `shown` gives without its comments. -/
def replaceAt (t shown line : Text) : Option (Nat × Nat) → Except Error Text
  | none => .ok t
  | some (start, stop) => do
    let current := slice start stop t
    let after := dropBytes stop t
    let bare := trimEnd (dropEndWhile (· = '}') (trimEnd line))
    let comment ← trailingComment current (slice start stop shown)
    let kept := match comment with
      | some comment => if occurs (txt "//") bare then [] else txt " " ++ comment
      | none => []
    let lineBreak := if after.head? = some '}' then txt "\n" else []
    return takeBytes start t ++ indent current ++ bare ++ kept ++ lineBreak ++ after

theorem replaceField_eq_replaceAt {field : Text} (other : field ≠ protectedField) (t model line : Text) :
    replaceField t model field line = replaceAt t (strip t) line (fieldLine? t model field) := by
  rw [replaceField, if_neg other]
  cases fieldLine? t model field <;> rfl

section

variable {r line : Text}

theorem IsFieldLine.bare (fieldLine : IsFieldLine line) :
    trimEnd (dropEndWhile (· = '}') (trimEnd line)) = line := by
  have noBrace : Stops (fun c => decide (c = '}')) line.reverse :=
    stops_reverse_of_forall fun c member => by
      simpa using fun (same : c = '}') => fieldLine.code.noBrace.2 (same ▸ member)
  have trimmed : trimEnd line = line := dropEndWhile_eq_self fieldLine.ends
  rw [trimmed, dropEndWhile_eq_self noBrace, trimmed]

theorem occurs_comment (inLine : '\n' ∉ r) (noComment : commentAfter false r = false) :
    occurs (txt "//") r = false := by
  induction r with
  | nil => rfl
  | cons c r ih =>
    obtain ⟨noNewline, later⟩ := List.ne_and_not_mem_of_not_mem_cons inLine
    rw [commentAfter, if_neg noNewline.symm, Bool.false_or] at noComment
    cases opens : opensComment c r with
    | true =>
      rw [opens, commentAfter_comment later] at noComment
      cases noComment
    | false =>
      rw [opens] at noComment
      have apart : (txt "//").isPrefixOf (c :: r) = false := by
        refine Bool.eq_false_iff.mpr fun found => ?_
        have both := (isPrefixOf_pair '/' '/' c r).mp found
        simp [opensComment, both] at opens
      rw [occurs, apart, ih later noComment]
      rfl

/-- The comment that ends a row is found. -/
theorem trailingComment_row (only : OnlyLineComments r) (inLine : '\n' ∉ r) :
    trailingComment r (blankFrom false r) =
      .ok (if commentAfter false r then some (trimEnd (commentOf r)) else none) := by
  induction r with
  | nil => rfl
  | cons c r ih =>
    obtain ⟨noNewline, later⟩ := List.ne_and_not_mem_of_not_mem_cons inLine
    have size := utf8Size_of_isAscii (only.ascii c List.mem_cons_self)
    rw [trailingComment, commentAfter, if_neg noNewline.symm, Bool.false_or, blankFrom,
      if_neg noNewline.symm, Bool.false_or, commentOf]
    cases opens : opensComment c r with
    | true =>
      obtain ⟨rfl, head⟩ : c = '/' ∧ r.head? = some '/' := by simpa [opensComment] using opens
      obtain ⟨more, rfl⟩ := List.head?_eq_some_iff.mp head
      rw [commentAfter_comment later]
      rfl
    | false =>
      have apart : beginsComment (c :: r) = false := by
        refine Bool.eq_false_iff.mpr fun found => ?_
        rcases Bool.or_eq_true_iff.mp found with line | block
        · have both := (isPrefixOf_pair '/' '/' c r).mp line
          simp [opensComment, both] at opens
        · obtain ⟨slash, star⟩ := (isPrefixOf_pair '/' '*' c r).mp block
          obtain ⟨more, rfl⟩ := List.head?_eq_some_iff.mp star
          exact (List.isChain_cons_cons.mp only.noBlock).1 ⟨slash, rfl⟩
      rw [apart, Bool.false_and, if_neg (by decide), if_pos size, if_neg (by decide), List.tail_cons,
        ih only.tail later]
      rfl

/-- A comment leaves a space at the end of its row. -/
theorem blankFrom_ends (inLine : '\n' ∉ r) (comment : commentAfter false r = true) :
    (blankFrom false r).getLast? = some ' ' := by
  have inComment (u : Text) (oneLine : '\n' ∉ u) (some : u ≠ []) : (blankFrom true u).getLast? = .some ' ' := by
    induction u with
    | nil => exact absurd rfl some
    | cons c u ih =>
      obtain ⟨noNewline, later⟩ := List.ne_and_not_mem_of_not_mem_cons oneLine
      rw [blankFrom, if_neg noNewline.symm, Bool.true_or, if_pos rfl]
      rcases u with _ | ⟨d, u⟩
      · rfl
      · rw [List.getLast?_cons, ih later (by simp)]
        rfl
  induction r with
  | nil => cases comment
  | cons c r ih =>
    obtain ⟨noNewline, later⟩ := List.ne_and_not_mem_of_not_mem_cons inLine
    rw [commentAfter, if_neg noNewline.symm, Bool.false_or] at comment
    rw [blankFrom, if_neg noNewline.symm, Bool.false_or]
    cases opens : opensComment c r with
    | true =>
      have some : r ≠ [] := by
        rintro rfl
        simp [opensComment] at opens
      rw [if_pos rfl, List.getLast?_cons, inComment r later some]
      rfl
    | false =>
      rw [opens] at comment
      rw [if_neg (by decide), List.getLast?_cons, ih later comment]
      rfl

theorem dropEndWhile_append_lineEnds (t : Text) : dropEndWhile isLineEnd t ++ lineEnds t = t := by
  rw [dropEndWhile, lineEnds, ← List.reverse_append, List.takeWhile_append_dropWhile, List.reverse_reverse]

theorem mem_lineEnds {t : Text} {c : Char} (member : c ∈ lineEnds t) : isLineEnd c :=
  List.mem_takeWhile_imp (List.mem_reverse.mp member)

/-- Of a row up to its carriage returns all is shown, or else it ends with a comment. -/
theorem shown_row (inLine : '\n' ∉ r) :
    (commentAfter false r = true ∧ dropEndWhile isLineEnd (blankFrom false r) = blankFrom false r) ∨
      (commentAfter false r = false ∧ blankFrom false r = r ∧
        commentAfter false (dropEndWhile isLineEnd r) = false) := by
  cases comment : commentAfter false r with
  | true =>
    refine Or.inl ⟨rfl, dropEndWhile_eq_self fun c head => ?_⟩
    rw [List.head?_reverse, blankFrom_ends inLine comment] at head
    rw [← Option.some.inj head]
    rfl
  | false =>
    refine Or.inr ⟨rfl, blankFrom_eq_self inLine comment, ?_⟩
    have apart : MeetApart (dropEndWhile isLineEnd r) (lineEnds r) := by
      intro _ head
      have lineEnd := mem_lineEnds (List.mem_of_head? head)
      simp [isLineEnd] at lineEnd
    have whole : commentAfter false (dropEndWhile isLineEnd r ++ lineEnds r) =
        commentAfter (commentAfter false (dropEndWhile isLineEnd r)) (lineEnds r) := commentAfter_append apart
    rw [dropEndWhile_append_lineEnds, comment] at whole
    cases inside : commentAfter false (dropEndWhile isLineEnd r) with
    | false => rfl
    | true =>
      rw [inside, commentAfter_comment] at whole
      · cases whole
      · intro member
        refine inLine ?_
        rw [← dropEndWhile_append_lineEnds r]
        exact List.mem_append_right _ member

theorem indent_dropEndWhile (r : Text) : indent (dropEndWhile isLineEnd r) = indent r := by
  conv => rhs; rw [← dropEndWhile_append_lineEnds r]
  rw [indent, indent, List.takeWhile_append]
  split
  · rename_i whole
    have none : (lineEnds r).takeWhile isPad = [] := by
      cases ends : lineEnds r with
      | nil => rfl
      | cons c rest =>
        have lineEnd := mem_lineEnds (t := r) (c := c) (by rw [ends]; simp)
        have other : isPad c = false := by
          have cases : c = '\n' ∨ c = '\r' := by simpa [isLineEnd] using lineEnd
          rcases cases with rfl | rfl <;> decide
        rw [List.takeWhile_cons_of_neg (by simp [other])]
    rw [none, List.append_nil, (List.takeWhile_prefix isPad).eq_of_length whole]
  · rfl

theorem cut_of_ascii {a b c : Text} (ascii : ∀ x ∈ a ++ (b ++ c), isAscii x) :
    takeBytes a.length (a ++ (b ++ c)) = a ∧ slice a.length (a.length + b.length) (a ++ (b ++ c)) = b ∧
      dropBytes (a.length + b.length) (a ++ (b ++ c)) = c := by
  refine ⟨?_, ?_, ?_⟩
  · rw [takeBytes_of_ascii ascii, List.take_left]
  · rw [slice_of_ascii ascii, List.drop_left, Nat.add_sub_cancel_left, List.take_left]
  · rw [dropBytes_of_ascii ascii, ← List.drop_drop, List.drop_left, List.drop_left]

/-- The replaced line at its place. -/
theorem replaceAt_row {front tail shownFront shownTail : Text} (fieldLine : IsFieldLine line)
    (ascii : ∀ c ∈ front ++ (r ++ tail), isAscii c)
    (asciiShown : ∀ c ∈ shownFront ++ (blankFrom false r ++ shownTail), isAscii c)
    (size : shownFront.length = front.length) (only : OnlyLineComments r) (inLine : '\n' ∉ r)
    (next : tail.head? = some '\n' ∨ tail.head? = some '}' ∧ commentAfter false r = false) :
    replaceAt (front ++ (r ++ tail)) (shownFront ++ (blankFrom false r ++ shownTail)) line
        (some (front.length, front.length + byteSize (dropEndWhile isLineEnd (blankFrom false r)))) =
      .ok (front ++ (rewriteRow line r ++
        ((if tail.head? = some '}' ∧ lineEnds r = [] then ['\n'] else []) ++ tail))) := by
  have asciiRow : ∀ c ∈ r, isAscii c := fun c member => ascii c (by simp [member])
  rcases shown_row inLine with ⟨comment, whole⟩ | ⟨noComment, whole, before⟩
  · have atNewline : tail.head? = some '\n' := next.resolve_right fun both => by simp [comment] at both
    obtain ⟨taken, current, after⟩ := cut_of_ascii ascii
    obtain ⟨-, shown, -⟩ := cut_of_ascii asciiShown
    rw [size, length_blankFrom] at shown
    rw [whole, byteSize_blankFrom asciiRow, byteSize_of_ascii asciiRow]
    simp only [replaceAt, taken, current, after, shown, trailingComment_row only inLine, comment, if_true,
      fieldLine.bare, occurs_comment fieldLine.code.inLine fieldLine.code.commentAfter, atNewline, rewriteRow, rowEnd]
    simp [txt, Except.bind, pure, Except.pure, bind]
  · have parts := dropEndWhile_append_lineEnds r
    have onlyCurrent : OnlyLineComments (dropEndWhile isLineEnd r) :=
      only.of_infix (dropEndWhile_isPrefix isLineEnd r).isInfix
    have oneLine : '\n' ∉ dropEndWhile isLineEnd r :=
      fun member => inLine ((dropEndWhile_isPrefix isLineEnd r).subset member)
    have trailing := trailingComment_row onlyCurrent oneLine
    rw [blankFrom_eq_self oneLine before, before, if_neg (by decide)] at trailing
    rw [whole] at asciiShown ⊢
    have regroup (rest : Text) : r ++ rest = dropEndWhile isLineEnd r ++ (lineEnds r ++ rest) := by
      rw [← List.append_assoc, parts]
    rw [regroup] at ascii asciiShown
    obtain ⟨taken, current, after⟩ := cut_of_ascii ascii
    obtain ⟨-, shown, -⟩ := cut_of_ascii asciiShown
    rw [size] at shown
    rw [regroup, regroup, byteSize_of_ascii onlyCurrent.ascii]
    have lineBreak : (lineEnds r ++ tail).head? = some '}' ↔ tail.head? = some '}' ∧ lineEnds r = [] := by
      cases ends : lineEnds r with
      | nil => simp
      | cons c rest =>
        have lineEnd := mem_lineEnds (t := r) (c := c) (by rw [ends]; simp)
        have other : c ≠ '}' := by
          rintro rfl
          simp [isLineEnd] at lineEnd
        simp [other]
    simp only [replaceAt, taken, current, after, shown, trailing, fieldLine.bare, lineBreak, rewriteRow, rowEnd,
      noComment, indent_dropEndWhile]
    by_cases broken : tail.head? = some '}' ∧ lineEnds r = []
    · simp [broken, txt, Except.bind, pure, Except.pure, bind]
    · simp [broken, Except.bind, pure, Except.pure, bind]

theorem declares_blank {field t : Text} (blanks : ∀ c ∈ t, isBlank c) : declares field t = false := by
  have empty : trimStart t = [] := List.dropWhile_eq_nil_iff.mpr blanks
  rw [declares, empty]
  split
  · rename_i rest found
    obtain ⟨-, rfl⟩ := List.append_eq_nil_iff.mp (isPrefixOf?_eq_some_iff.mp found).symm
    rfl
  · rfl

theorem declaresRow_bare {field : Text} {isLast : Bool} (bare : isBareRow r) :
    declaresRow field isLast r = false := by
  refine declares_blank fun c member => ?_
  rcases List.mem_append.mp member with inside | atEnd
  · exact isBareRow_iff.mp bare c inside
  · cases isLast with
    | true => cases atEnd
    | false =>
      rw [List.mem_singleton.mp atEnd]
      decide

/-- The second row is the first one without its comment, unless it shows nothing. -/
def ShowsRow (r shown : Text) : Prop :=
  shown.length = r.length ∧ (isBareRow r = false → shown = blankFrom false r)

theorem ShowsRow.of_declares {field shown : Text} {isLast : Bool} (shows : ShowsRow r shown)
    (here : declaresRow field isLast r = true) : shown = blankFrom false r := by
  refine shows.2 (Bool.eq_false_iff.mpr fun bare => ?_)
  rw [declaresRow_bare bare] at here
  cases here

/-- Replacing a line in the last row. -/
theorem replaceAt_lastRow {field front back shown shownFront shownBack : Text} (fieldLine : IsFieldLine line)
    (shows : ShowsRow r shown) (plain : IsBodyRow r) (ends : commentAfter false r = false)
    (size : shownFront.length = front.length) (ascii : ∀ c ∈ front ++ (r ++ '}' :: back), isAscii c)
    (asciiShown : ∀ c ∈ shownFront ++ (shown ++ shownBack), isAscii c) :
    replaceAt (front ++ (r ++ '}' :: back)) (shownFront ++ (shown ++ shownBack)) line
        (fieldLineFrom field front.length (lines (blankFrom false r))) =
      .ok (front ++ (joinRows (replaceRow field line [r]) ++ '}' :: back)) := by
  have code : blankFrom false r = r := blankFrom_eq_self plain.inLine ends
  have declared : declaresRow field true r = declares field r := by
    rw [declaresRow, code, if_pos rfl, List.append_nil]
  have looked : fieldLineFrom field front.length (lines r) =
      if declaresRow field true r then
        some (front.length, front.length + byteSize (dropEndWhile isLineEnd (blankFrom false r))) else none := by
    rw [declared, code]
    rcases lines_oneLine plain.inLine with none | one
    · have empty := flatten_lines r
      rw [none, List.flatten_nil] at empty
      subst empty
      rw [if_neg (by rw [declares_blank (List.forall_mem_nil _)]; decide)]
      rfl
    · rw [one]
      rfl
  rw [show lines (blankFrom false r) = lines r by rw [code], looked, replaceRow,
    List.isEmpty_nil]
  by_cases here : declaresRow field true r = true
  · rw [shows.of_declares here] at asciiShown ⊢
    rw [if_pos here, if_pos here, replaceAt_row fieldLine ascii asciiShown size plain.only plain.inLine
      (Or.inr ⟨rfl, ends⟩)]
    cases lineEnds r <;> simp [joinRows_cons, joinRows_singleton]
  · rw [if_neg here, if_neg here, replaceRow, joinRows_singleton]
    rfl

/-- Replacing a line of a body is replacing a row. -/
theorem replaceAt_rows (field back shownBack : Text) (fieldLine : IsFieldLine line) {rs shown : List Text}
    (shows : List.Forall₂ ShowsRow rs shown) (plain : IsBodyRows rs) {front shownFront : Text}
    (size : shownFront.length = front.length) (ascii : ∀ c ∈ front ++ (joinRows rs ++ '}' :: back), isAscii c)
    (asciiShown : ∀ c ∈ shownFront ++ (joinRows shown ++ shownBack), isAscii c) :
    replaceAt (front ++ (joinRows rs ++ '}' :: back)) (shownFront ++ (joinRows shown ++ shownBack)) line
        (fieldLineFrom field front.length (lines (blankFrom false (joinRows rs)))) =
      .ok (front ++ (joinRows (replaceRow field line rs) ++ '}' :: back)) := by
  induction shows generalizing front shownFront with
  | nil => exact absurd rfl plain.nonempty
  | @cons r s rs ss here later ih =>
    have plainRow := plain.row r List.mem_cons_self
    by_cases more : rs = []
    · subst more
      cases later
      simp only [joinRows_singleton] at ascii asciiShown ⊢
      exact replaceAt_lastRow fieldLine here plainRow (plain.ends r rfl) size ascii asciiShown
    · have moreShown : ss ≠ [] := by
        rintro rfl
        cases later
        exact more rfl
      have noneLeft : rs.isEmpty = false := by simpa using more
      have oneLine : '\n' ∉ blankFrom false r := not_newline_blankFrom plainRow.inLine
      rw [joinRows_cons more, blankFrom_append_newline, lines_append_newline oneLine, fieldLineFrom, replaceRow,
        noneLeft]
      rw [joinRows_cons more] at ascii
      rw [joinRows_cons moreShown] at asciiShown ⊢
      have declared : declaresRow field false r = declares field (blankFrom false r ++ ['\n']) := rfl
      rw [← declared]
      by_cases found : declaresRow field false r = true
      · rw [if_pos found, if_pos found, dropEndWhile_append_of_forall _ (by decide), Bool.false_and,
          if_neg (by decide), joinRows_cons more]
        rw [here.of_declares found] at asciiShown ⊢
        simp only [List.append_assoc, List.cons_append] at ascii asciiShown ⊢
        rw [replaceAt_row fieldLine ascii asciiShown size plainRow.only plainRow.inLine (Or.inl rfl)]
        simp
      · have offset : front.length + byteSize (blankFrom false r ++ ['\n']) = (front ++ r ++ ['\n']).length := by
          rw [byteSize_append, byteSize_blankFrom plainRow.only.ascii, byteSize_of_ascii plainRow.only.ascii]
          simp only [List.length_append]
          rfl
        have some : replaceRow field line rs ≠ [] := by
          obtain ⟨x, xs, rfl⟩ := List.exists_cons_of_ne_nil more
          rw [replaceRow]
          split <;> simp
        have longer : (shownFront ++ s ++ ['\n']).length = (front ++ r ++ ['\n']).length := by simp [size, here.1]
        have rest := ih (isBodyRows_cons more |>.mp plain).2 longer (by simpa using ascii) (by simpa using asciiShown)
        rw [if_neg found, if_neg found, offset, joinRows_cons some]
        simpa using rest

end

theorem forall₂_showsRow {rs shown : List Text} (same : rs.map (blankFrom false) = shown.map (blankFrom false))
    (forms : ∀ s ∈ shown, blankFrom false s = s ∨ rowLine s = []) : List.Forall₂ ShowsRow rs shown := by
  induction rs generalizing shown with
  | nil =>
    obtain rfl := List.map_eq_nil_iff.mp same.symm
    exact List.Forall₂.nil
  | cons r rs ih =>
    rcases shown with _ | ⟨s, ss⟩
    · cases same
    · obtain ⟨here, later⟩ := List.cons_eq_cons.mp same
      obtain ⟨form, forms⟩ := List.forall_mem_cons.mp forms
      refine List.Forall₂.cons ⟨?_, fun visible => ?_⟩ (ih later forms)
      · have length (u : Text) : (blankFrom false u).length = u.length := length_blankFrom
        rw [← length s, ← here, length]
      · rcases form with kept | empty
        · rw [here, kept]
        · rw [rowLine, ← here] at empty
          simp [isBareRow, rowLine, empty] at visible

theorem isSome_fieldLineFrom (field : Text) (offset : Nat) (body : Text) :
    (fieldLineFrom field offset (lines (blankFrom false body))).isSome = hasRow field (rows body) := by
  induction body using rows_induction generalizing offset with
  | oneRow r inLine =>
    rw [rows_row inLine, hasRow, hasRow, Bool.or_false, List.isEmpty_nil, declaresRow, if_pos rfl, List.append_nil]
    have oneLine : '\n' ∉ blankFrom false r := not_newline_blankFrom inLine
    rcases lines_oneLine oneLine with none | one
    · have empty := flatten_lines (blankFrom false r)
      rw [none, List.flatten_nil] at empty
      rw [none, ← empty, declares_blank (List.forall_mem_nil _)]
      rfl
    · rw [one, fieldLineFrom]
      by_cases here : declares field (blankFrom false r) = true
      · rw [if_pos here, here]
        rfl
      · rw [if_neg here, Bool.eq_false_iff.mpr here]
        rfl
  | moreRows r t inLine ih =>
    have more : (rows t).isEmpty = false := by simpa using rows_ne_nil t
    have declared : declaresRow field false r = declares field (blankFrom false r ++ ['\n']) := rfl
    rw [rows_cons inLine, hasRow, more, blankFrom_append_newline,
      lines_append_newline (not_newline_blankFrom inLine), fieldLineFrom, ← declared]
    by_cases here : declaresRow field false r = true
    · rw [if_pos here, here]
      rfl
    · rw [if_neg here, ih, Bool.eq_false_iff.mpr here, Bool.false_or]

section

variable {t : Text} (plain : IsPlainText t) (model field : Text)

include plain

theorem IsPlainText.hasField_eq : hasField t model field = (modelRows? t model).any (hasRow field) := by
  cases found : SchemaDiagram.modelBody? t model with
  | none => simp [hasField, fieldLine?, modelRows?, found]
  | some offsets =>
    obtain ⟨start, close⟩ := offsets
    obtain ⟨earlier, d, later, lead, body, back, at', -, -, -, rfl, rfl⟩ := plain.modelBody? found
    obtain ⟨-, sliced, -⟩ := at'.slices plain.ascii
    have masked := at'.slice_mask plain.only
    have looked := isSome_fieldLineFrom field (lead.length + 1) body
    simpa [hasField, fieldLine?, modelRows?, found, sliced, masked] using looked

/-- Without its comments the text shows the same rows, but for what shows nothing. -/
theorem ClosedAt.showsRows {earlier later : List Declaration} {d : Declaration} {lead body back : Text}
    (at' : ClosedAt t earlier d later lead body back) :
    List.Forall₂ ShowsRow (rows body) (rows (slice (lead.length + 1) (lead.length + 1 + body.length) (strip t))) := by
  have member : d ∈ outline t := by simp [at'.split]
  have memberStripped : d ∈ outline (strip t) := by rwa [outline_strip]
  have stripped := plain.only.stripped
  have bodyStripped : d.body (strip t) = slice (lead.length + 1) (lead.length + 1 + body.length) (strip t) := by
    rw [Declaration.body, at'.brace, at'.stop]
  obtain ⟨-, after, free⟩ := mem_sections (List.mem_map_of_mem member)
  rw [← bodyStripped]
  refine forall₂_showsRow ?_ fun s inside => ?_
  · rw [← rows_blankFrom, ← rows_blankFrom, ← stripped.body_mask memberStripped, mask_strip,
      at'.mask_body plain.only]
  · exact (free.row_cases (stripped.of_infix (stripped.body_infix d)) inside).imp id fun nothing => nothing.2.2

/-- Replacing a field is replacing a row. -/
theorem IsPlainText.replaceField_eq {line : Text} (fieldLine : IsFieldLine line)
    (other : field ≠ protectedField) :
    replaceField t model field line = .ok (SchemaDiagram.editModel t model (replaceRow field line)) := by
  rw [replaceField_eq_replaceAt other]
  cases found : SchemaDiagram.modelBody? t model with
  | none => simp [fieldLine?, SchemaDiagram.editModel, found, replaceAt]
  | some offsets =>
    obtain ⟨start, close⟩ := offsets
    obtain ⟨earlier, d, later, lead, body, back, at', -, -, -, rfl, rfl⟩ := plain.modelBody? found
    obtain ⟨taken, sliced, dropped⟩ := at'.slices plain.ascii
    have masked := at'.slice_mask plain.only
    have front : lead.length + 1 = (lead ++ ['{']).length := by simp
    have whole : t = lead ++ ['{'] ++ (body ++ '}' :: back) := by simp [at'.cut.whole]
    have shows := ClosedAt.showsRows plain at'
    have asciiShown := plain.only.stripped.ascii
    have size : (strip t).length = t.length := by
      rw [← byteSize_of_ascii asciiShown, byteSize_strip, byteSize_of_ascii plain.ascii]
    have frontSize : ((strip t).take (lead.length + 1)).length = (lead ++ ['{']).length := by
      rw [List.length_take, size, ← front, Nat.min_eq_left]
      rw [whole]
      simp
    have shown : strip t = (strip t).take (lead.length + 1) ++
        (joinRows (rows (slice (lead.length + 1) (lead.length + 1 + body.length) (strip t))) ++
          (strip t).drop (lead.length + 1 + body.length)) := by
      rw [joinRows_rows, slice_of_ascii asciiShown, Nat.add_sub_cancel_left,
        ← List.drop_drop (i := body.length), List.take_append_drop, List.take_append_drop]
    have plainRows := isBodyRows_rows.mpr (at'.isPlainBody plain)
    have bodyRows : joinRows (rows body) = body := joinRows_rows body
    have replaced := replaceAt_rows field back ((strip t).drop (lead.length + 1 + body.length)) fieldLine shows
      plainRows frontSize
      (by rw [bodyRows, ← whole]; exact plain.ascii) (by rw [← shown]; exact asciiShown)
    rw [← shown, bodyRows, ← whole, ← front] at replaced
    simp only [fieldLine?, found, SchemaDiagram.editModel, taken, sliced, dropped, masked, Option.bind_eq_bind,
      Option.bind_some]
    rw [replaced]
    simp

theorem IsPlainText.upsertField_eq {line : Text} (fieldLine : IsFieldLine line)
    (other : field ≠ protectedField) :
    upsertField t model field line = .ok (SchemaDiagram.editModel t model (upsertRow field line)) := by
  rw [upsertField, if_neg other, plain.hasField_eq]
  split
  · rename_i has
    rw [plain.replaceField_eq model field fieldLine other]
    refine congrArg Except.ok (editModel_congr fun rs found => ?_)
    rw [upsertRow, if_pos]
    simpa [found] using has
  · rename_i hasNot
    rw [plain.insertField_eq]
    refine congrArg Except.ok (editModel_congr fun rs found => ?_)
    rw [upsertRow, if_neg]
    simpa [found] using hasNot

end

end SchemaDiagram
