import SchemaDiagram.Proofs.BodyFields
import SchemaDiagram.Proofs.CodeItems
import SchemaDiagram.Proofs.DocumentUnion

namespace SchemaDiagram

open Text

/-- A model with one more field behind the others. -/
def Model.addField (m : Model) (f : Field) : Model := { m with fields := m.fields ++ [f] }

/-- The scanned characters between two offsets. -/
def scanSlice (start stop : Nat) (t : Text) : List (Char × Role) :=
  ((scan t).take (takeBytes stop t).length).drop (takeBytes start t).length

/-- Whether the line of the last code of a model ends inside of a comment. -/
def endsInComment (t model : Text) : Bool :=
  match modelBody? t model with
  | none => false
  | some (start, close) =>
    (scanSlice (start + byteSize (trimEnd (slice start close (mask t)))) close t).find? (·.1 = '\n') = some ('\n', .comment)

theorem scanSlice_eq {t : Text} {front items back : List (Char × Role)} (scanned : scan t = front ++ (items ++ back)) :
    scanSlice (byteSize (written front)) (byteSize (written front) + byteSize (written items)) t = items := by
  have whole : t = written front ++ (written items ++ written back) := by
    rw [← written_append, ← written_append, ← scanned, scan, written_scanFrom]
  have atStart : (takeBytes (byteSize (written front)) t).length = front.length := by
    conv => lhs; rw [whole]
    rw [takeBytes_byteSize_append, written, List.length_map]
  have atStop : (takeBytes (byteSize (written front) + byteSize (written items)) t).length =
      (front ++ items).length := by
    conv => lhs; rw [whole]
    rw [← byteSize_append, ← List.append_assoc, takeBytes_byteSize_append, ← written_append, written, List.length_map]
  rw [scanSlice, atStart, atStop, scanned, ← List.append_assoc, List.take_left, List.drop_left]

/-- Where the code of a body ends. -/
theorem exists_code_end (items : List (Char × Role)) :
    ∃ front gap, items = front ++ gap ∧ masked front = trimEnd (masked items) ∧ (∀ c ∈ masked gap, isBlank c) ∧
      Stops isBlank (written front).reverse := by
  obtain ⟨blanks, split, blank⟩ := dropEndWhile_split isBlank (masked items)
  change masked items = trimEnd (masked items) ++ blanks at split
  rcases List.eq_nil_or_concat (trimEnd (masked items)) with none | ⟨before, c, ends⟩
  · rw [none, List.nil_append] at split
    exact ⟨[], items, rfl, none.symm, split ▸ blank, stops_nil _⟩
  · rw [List.concat_eq_append] at ends
    have visible : isBlank c = false := by
      refine stops_dropEndWhile isBlank (masked items) c ?_
      rw [show dropEndWhile isBlank (masked items) = trimEnd (masked items) from rfl, ends]
      simp
    have noBlank {d : Char} (white : isBlank d) : c ≠ d := by
      rintro rfl
      rw [visible] at white
      cases white
    rw [ends, List.append_assoc, List.singleton_append] at split
    obtain ⟨earlier, later, rfl, rfl, rfl⟩ := code_split (noBlank (by decide)) (noBlank (by decide)) split
    refine ⟨earlier ++ [(c, .code)], later, by simp, ?_, blank, ?_⟩
    · rw [ends, masked_append]
      rfl
    · rw [written_append]
      exact stops_reverse_append (by simp) (stops_cons visible)

section

variable {t model line : Text} {d : Declaration} {front shown gap back : List (Char × Role)}

/-- A line is put behind the next line break behind the last code, or else at the end of the body. -/
theorem insertField_of_modelBody? (line : Text) {start close n : Nat} (bounds : modelBody? t model = some (start, close))
    (contentEnd : start + byteSize (trimEnd (slice start close (mask t))) = n) :
    ∃ lead, (∀ c ∈ lead, isPad c) ∧
      insertField t model line =
        if (slice n close t).contains '\n' then
          takeBytes (n + byteSize ((slice n close t).takeWhile (· ≠ '\n')) + 1) t ++ (lead ++ line ++ ['\n']) ++
            dropBytes (n + byteSize ((slice n close t).takeWhile (· ≠ '\n')) + 1) t
        else trimEnd (takeBytes close t) ++ '\n' :: (lead ++ line ++ ['\n']) ++ dropBytes close t := by
  refine ⟨if start < n ∧ start + byteSize (lastLine (takeBytes n t)) ≤ n then indent (lastLine (takeBytes n t))
    else defaultIndent, ?_, ?_⟩
  · intro c member
    split at member
    · exact List.mem_takeWhile_imp member
    · have spaces : ∀ c ∈ defaultIndent, isPad c := by decide
      exact spaces c member
  · simp only [insertField, bounds, contentEnd]
    simp [txt]

section

variable (at' : BodyAt t d front (shown ++ gap) back) (found : findModel model t = some d)
  (codeEnd : masked shown = trimEnd (masked (shown ++ gap)))

include at' found codeEnd

/-- The places that the edit reads off the text: the end of the code and the closing brace. -/
theorem BodyAt.contentEnd :
    ∃ start close, modelBody? t model = some (start, close) ∧
      start + byteSize (trimEnd (slice start close (mask t))) = byteSize (written (front ++ ('{', .code) :: shown)) ∧
      close = byteSize (written (front ++ ('{', .code) :: shown)) + byteSize (written gap) := by
  have inMask := at'.slice_shown (· = .code)
  change slice _ _ (mask t) = masked (shown ++ gap) at inMask
  have size : byteSize (written (front ++ ('{', .code) :: shown)) =
      byteSize (written front) + 1 + byteSize (written shown) := by
    rw [written_append, byteSize_append, Nat.add_assoc]
    rfl
  refine ⟨_, _, at'.modelBody?_eq found, ?_, ?_⟩
  · rw [inMask, ← codeEnd, byteSize_masked, size]
  · rw [written_append, byteSize_append, size, ← Nat.add_assoc]

theorem BodyAt.endsInComment_eq :
    endsInComment t model = decide (gap.find? (·.1 = '\n') = some ('\n', .comment)) := by
  have scanned : scan t = (front ++ ('{', .code) :: shown) ++ (gap ++ ('}', .code) :: back) := by
    rw [at'.scanned]
    simp
  obtain ⟨start, close, bounds, contentEnd, rfl⟩ := at'.contentEnd found codeEnd
  simp only [endsInComment, bounds, contentEnd, scanSlice_eq scanned]

/-- The text with a line put into it. -/
theorem BodyAt.insertField_eq (line : Text) (ends : Stops isBlank (written shown).reverse) :
    ∃ lead, (∀ c ∈ lead, isPad c) ∧
      (∀ u v, written gap = u ++ '\n' :: v → '\n' ∉ u →
        insertField t model line = written (front ++ ('{', .code) :: shown) ++ u ++
          '\n' :: (lead ++ line ++ '\n' :: (v ++ '}' :: written back))) ∧
      ('\n' ∉ written gap →
        insertField t model line = written (front ++ ('{', .code) :: shown) ++ trimEnd (written gap) ++
          '\n' :: (lead ++ line ++ '\n' :: '}' :: written back)) := by
  obtain ⟨start, close, bounds, contentEnd, rfl⟩ := at'.contentEnd found codeEnd
  obtain ⟨opened, atOpening⟩ : ∃ opened, opened = written (front ++ ('{', .code) :: shown) := ⟨_, rfl⟩
  have whole : t = opened ++ (written gap ++ '}' :: written back) := by
    rw [at'.whole, atOpening]
    simp
  rw [← atOpening] at bounds contentEnd ⊢
  have inGap : slice (byteSize opened) (byteSize opened + byteSize (written gap)) t = written gap := by
    conv => lhs; rw [whole, ← List.append_assoc]
    exact slice_append _ _ _
  obtain ⟨lead, pads, inserted⟩ := insertField_of_modelBody? line bounds contentEnd
  rw [inGap] at inserted
  refine ⟨lead, pads, fun u v split inLine => ?_, fun inLine => ?_⟩
  · have behind : t = opened ++ u ++ ['\n'] ++ (v ++ '}' :: written back) := by
      rw [whole, split]
      simp
    have point : byteSize opened + byteSize u + 1 = byteSize (opened ++ u ++ ['\n']) := by
      simp only [byteSize_append]
      rfl
    have begins : (written gap).takeWhile (· ≠ '\n') = u := by
      rw [split]
      refine takeWhile_append_stops (fun c member => ?_) (stops_cons (by simp))
      simpa using fun (same : c = '\n') => inLine (same ▸ member)
    rw [inserted, if_pos (by simp [split]), begins, point]
    conv => lhs; rw [behind]
    rw [takeBytes_byteSize_append, dropBytes_byteSize_append]
    simp
  · have atClose : t = opened ++ written gap ++ '}' :: written back := by
      rw [whole]
      simp
    have stops : Stops isBlank opened.reverse := by
      rw [atOpening, written_append, written_cons, List.append_cons]
      by_cases none : written shown = []
      · rw [none, List.append_nil]
        exact stops_reverse_append (by simp) (stops_cons (by decide))
      · exact stops_reverse_append none ends
    rw [inserted, if_neg (by simpa using inLine), ← byteSize_append]
    conv => lhs; rw [atClose]
    rw [takeBytes_byteSize_append, dropBytes_byteSize_append, trimEnd, dropEndWhile_append stops]
    simp [trimEnd]

end

theorem keepFirst_concat_new {all : List Field} {g : Field} (fresh : all.find? (·.name = g.name) = none) :
    keepFirst Field.name (all ++ [g]) = keepFirst Field.name all ++ [g] := by
  rw [keepFirst_append]
  simpa [keepFirst] using fresh

/-- Where no code is shown in front of the closing brace, there can be anything without braces. -/
theorem IsBlockBody.exchange_gap {shown gap gap' : List (Char × Role)} (block : IsBlockBody (masked (shown ++ gap)))
    (blank : ∀ c ∈ masked gap, isBlank c) (noBrace : '{' ∉ masked gap' ∧ '}' ∉ masked gap') :
    IsBlockBody (masked (shown ++ gap')) := by
  rw [masked_append, ← List.append_nil (masked gap)] at block
  rw [masked_append, ← List.append_nil (masked gap')]
  exact block.exchange (paired_of_blank blank) noBrace

theorem shown_comment {keep : Role → Bool} (noComment : keep .comment = false) (u : Text) :
    ∀ c ∈ (u.map (·, Role.comment)).flatMap (showOnly keep), isBlank c := by
  intro c member
  obtain ⟨item, inside, shown⟩ := List.mem_flatMap.mp member
  obtain ⟨d, -, rfl⟩ := List.mem_map.mp inside
  exact isBlank_of_lost noComment shown

theorem not_mem_indented {lead line : Text} (pads : ∀ c ∈ lead, isPad c) (inLine : '\n' ∉ line) : '\n' ∉ lead ++ line := by
  intro member
  rcases List.mem_append.mp member with inLead | inside
  · exact absurd (pads _ inLead) (by decide)
  · exact inLine inside

/-- A line between the rows of a body adds its field to the model, if it stands behind all of them. -/
theorem BodyAt.parse_insert (at' : BodyAt t d front (shown ++ gap) back) (found : findModel model t = some d)
    (blank : ∀ c ∈ masked gap, isBlank c) {t' lead : Text} {g : Field} {above below : List (Char × Role)} {role : Role}
    (pads : ∀ c ∈ lead, isPad c) (plain : IsPlainLine line) (read : parseField line = some g)
    (fresh : ∀ m, (Document.parse t).model? model = some m → m.field? g.name = none)
    (scanned' : scan t' = front ++ ('{', .code) ::
      (shown ++ (above ++ ('\n', role) :: (asCode (lead ++ line) ++ ('\n', .code) :: below)) ++ ('}', .code) :: back))
    (blankAbove : ∀ c ∈ masked above, isBlank c) (blankBelow : ∀ c ∈ masked below, isBlank c)
    (rest : bodyFields (stripped (shown ++ gap)) = bodyFields (stripped (shown ++ above)) ∧
      bodyAttributes (stripped (shown ++ gap)) = bodyAttributes (stripped (shown ++ above)))
    (quiet : bodyFields (stripped below) = [] ∧ bodyAttributes (stripped below) = []) :
    Document.parse t' = (Document.parse t).changeModel model (·.addField g) := by
  have white : ∀ c ∈ lead, isBlank c := fun c member => isBlank_of_isPad (pads c member)
  have oneLine : '\n' ∉ lead ++ line := not_mem_indented pads plain.inLine
  have block' : IsBlockBody (masked (shown ++ (above ++ ('\n', role) :: (asCode (lead ++ line) ++ ('\n', .code) :: below)))) := by
    refine at'.block.exchange_gap blank ?_
    simp only [masked_append, masked_newline, masked_asCode, List.mem_append, List.mem_cons, not_or]
    obtain ⟨aboveOpening, aboveClosing⟩ := noBrace_of_blank blankAbove
    obtain ⟨belowOpening, belowClosing⟩ := noBrace_of_blank blankBelow
    obtain ⟨leadOpening, leadClosing⟩ := noBrace_of_blank white
    exact ⟨⟨aboveOpening, by decide, ⟨leadOpening, plain.noBrace.1⟩, by decide, belowOpening⟩,
      ⟨aboveClosing, by decide, ⟨leadClosing, plain.noBrace.2⟩, by decide, belowClosing⟩⟩
  refine at'.parse_change found (by simpa using scanned') block' ?_
  obtain ⟨before, -⟩ := at'.parse_exchange found at'.scanned at'.block
  have new := fresh _ before
  rw [Model.ofBody_eq_bodyFields, Model.field?, find?_keepFirst, rest.1] at new
  obtain ⟨isField, noAttribute⟩ := parseField_row read plain.inLine white
  have body : stripped (shown ++ (above ++ ('\n', role) :: (asCode (lead ++ line) ++ ('\n', .code) :: below))) =
      stripped (shown ++ above) ++ '\n' :: (lead ++ line ++ '\n' :: stripped below) := by
    simp [stripped_append]
  rw [body, Model.ofBody_eq_bodyFields, Model.ofBody_eq_bodyFields, bodyFields_append_newline,
    bodyFields_append_newline, bodyAttributes_append_newline, bodyAttributes_append_newline, bodyFields_row oneLine,
    bodyAttributes_row oneLine, isField, noAttribute, quiet.1, quiet.2, rest.1, rest.2]
  simp only [Option.toList_some, List.append_nil, keepFirst_concat_new new]
  rfl

end

section

variable {t line lead : Text} {earlier later : List (Char × Role)} (plain : IsPlainLine line) (begins : IsApart line)
  (blank : ∀ c ∈ lead, isBlank c)

include begins blank

include plain in
/-- A new line in front of a line that begins in code. -/
theorem scan_insert_code {role : Role} (scanned : scan t = earlier ++ ('\n', role) :: later) (inCode : role ≠ .comment) :
    scan (written earlier ++ '\n' :: (lead ++ line ++ '\n' :: written later)) =
      earlier ++ ('\n', role) :: (asCode (lead ++ line) ++ ('\n', .code) :: later) := by
  obtain ⟨atLater, recut⟩ := scanFrom_cut_newline (ScanState.fits_code t) scanned
  rw [lineStartState, if_neg inCode] at atLater recut
  have apart : IsApart ('\n' :: written later) := isApart_cons (by decide) (by decide) _
  rw [scan, recut, plain.scanFrom_line blank begins apart, scanFrom_newline, ← atLater]

/-- A new line in front of a line that begins in a comment. -/
theorem scan_insert_comment (noEnd : ¬ txt "*/" <:+: line) (scanned : scan t = earlier ++ ('\n', .comment) :: later) :
    scan (written earlier ++ '\n' :: (lead ++ line ++ '\n' :: written later)) =
      earlier ++ ('\n', .comment) :: ((lead ++ line ++ ['\n']).map (·, .comment) ++ later) := by
  obtain ⟨atLater, recut⟩ := scanFrom_cut_newline (ScanState.fits_code t) scanned
  rw [lineStartState, if_pos rfl] at atLater recut
  have noEndLead : ¬ txt "*/" <:+: lead := fun sign =>
    not_mem_of_blank blank (show isBlank '*' = false by decide) (sign.subset (by decide))
  have inLine : (line ++ '\n' :: written later).head? ≠ some '/' := by
    cases line with
    | nil => simp
    | cons c line => exact begins.1
  rw [scan, recut, List.append_assoc, scanFrom_blockComment noEndLead inLine, scanFrom_blockComment noEnd (by simp)]
  have step (lineBlank : Bool) : scanFrom .blockComment lineBlank ('\n' :: written later) =
      ('\n', .comment) :: scanFrom .blockComment true (written later) := rfl
  rw [step, ← atLater]
  simp

include plain in
/-- A new line in front of a closing brace. -/
theorem scan_insert_end {gap back : List (Char × Role)} (scanned : scan t = earlier ++ (gap ++ ('}', .code) :: back))
    (white : ∀ c ∈ written gap, isBlank c ∧ c ≠ '\n') :
    scan (written earlier ++ '\n' :: (lead ++ line ++ '\n' :: '}' :: written back)) =
      earlier ++ ('\n', .code) :: (asCode (lead ++ line) ++ ('\n', .code) :: ('}', .code) :: back) := by
  obtain ⟨here, fits, atGap, -, recut⟩ := scanFrom_cut (ScanState.fits_code t) scanned
  obtain rfl : here = .code := fits.eq_code atGap white (by decide) (by decide)
  have apartGap : IsApart (written (gap ++ ('}', .code) :: back)) := by
    rcases gap with _ | ⟨item, gap⟩
    · exact isApart_cons (by decide) (by decide) _
    · have blank := (white item.1 (by simp)).1
      constructor <;> intro head <;> rw [Option.some.inj head] at blank <;> cases blank
  have apart (v : Text) : IsApart ('\n' :: v) := isApart_cons (by decide) (by decide) v
  have brace := (scanFrom_behind (ScanState.fits_code t) (scanned.trans (List.append_assoc earlier gap _).symm)
    (by decide) (by decide) (by decide) (by decide)).1
  have closing : scanFrom .code true ('}' :: written back) = ('}', .code) :: back := by
    rw [scanFrom_cons, ScanState.step_code_plain (by decide) (by decide)]
    exact congrArg (_ :: ·) brace.symm
  rw [scan, recut _ apartGap (apart _) (fun role inComment => by cases inComment), scanFrom_newline,
    plain.scanFrom_line blank begins (apart _), scanFrom_newline, closing]

end

section

variable {t model line lead : Text} {d : Declaration} {g : Field} {front shown back : List (Char × Role)}

/-- One more line of a comment between the last code and the closing brace says nothing. -/
theorem BodyAt.parse_insert_commented {above below : List (Char × Role)}
    (at' : BodyAt t d front (shown ++ (above ++ ('\n', .comment) :: below)) back) (found : findModel model t = some d)
    (blankAbove : ∀ c ∈ masked above, isBlank c) (blankBelow : ∀ c ∈ masked below, isBlank c) {t' : Text}
    (scanned' : scan t' = front ++ ('{', .code) :: (shown ++ (above ++ ('\n', .comment) ::
      (line.map (·, .comment) ++ ('\n', .comment) :: below)) ++ ('}', .code) :: back)) :
    Document.parse t' = Document.parse t := by
  obtain ⟨commented, atLine⟩ : ∃ commented, commented = line.map (·, Role.comment) := ⟨_, rfl⟩
  have blankMask : ∀ c ∈ masked commented, isBlank c := atLine ▸ shown_comment rfl line
  have blankStrip : ∀ c ∈ stripped commented, isBlank c := atLine ▸ shown_comment rfl line
  rw [← atLine] at scanned'
  have blank : ∀ c ∈ masked (above ++ ('\n', .comment) :: below), isBlank c := by
    simp only [masked_append, masked_newline, List.mem_append, List.mem_cons, or_imp, forall_and, forall_eq]
    exact ⟨blankAbove, by decide, blankBelow⟩
  have blank' : ∀ c ∈ masked (above ++ ('\n', .comment) :: (commented ++ ('\n', .comment) :: below)), isBlank c := by
    simp only [masked_append, masked_newline, List.mem_append, List.mem_cons, or_imp, forall_and, forall_eq]
    exact ⟨blankAbove, by decide, blankMask, by decide, blankBelow⟩
  have block' := at'.block.exchange_gap blank (noBrace_of_blank blank')
  have before : stripped (shown ++ (above ++ ('\n', .comment) :: below)) =
      stripped (shown ++ above) ++ '\n' :: stripped below := by simp [stripped_append]
  have after : stripped (shown ++ (above ++ ('\n', .comment) :: (commented ++ ('\n', .comment) :: below))) =
      stripped (shown ++ above) ++ '\n' :: (stripped commented ++ '\n' :: stripped below) := by
    simp [stripped_append]
  have bare := body_blank blankStrip
  have same : Model.ofBody model (stripped (shown ++ (above ++ ('\n', .comment) :: below))) =
      Model.ofBody model (stripped (shown ++ (above ++ ('\n', .comment) :: (commented ++ ('\n', .comment) :: below)))) := by
    rw [before, after, Model.ofBody_eq_bodyFields, Model.ofBody_eq_bodyFields]
    simp only [bodyFields_append_newline, bodyAttributes_append_newline, bare.1, bare.2, List.nil_append]
  have unchanged : Document.parse t' = (Document.parse t).changeModel model id :=
    at'.parse_change found scanned' block' same
  rw [unchanged, Document.changeModel_id]

/-- A line is put behind the next line break, which ends the line of the last code or a comment in front of the brace. -/
theorem BodyAt.parse_insert_break {above below : List (Char × Role)} {role : Role}
    (at' : BodyAt t d front (shown ++ (above ++ ('\n', role) :: below)) back) (found : findModel model t = some d)
    (blank : ∀ c ∈ masked (above ++ ('\n', role) :: below), isBlank c) (pads : ∀ c ∈ lead, isPad c)
    (begins : IsApart line) (plain : IsPlainLine line) (read : parseField line = some g)
    (fresh : ∀ m, (Document.parse t).model? model = some m → m.field? g.name = none) {t' : Text}
    (text : t' = written (front ++ ('{', .code) :: shown) ++ written above ++
      '\n' :: (lead ++ line ++ '\n' :: (written below ++ '}' :: written back))) :
    (role ≠ .comment → Document.parse t' = (Document.parse t).changeModel model (·.addField g)) ∧
      (role = .comment → ¬ txt "*/" <:+: line → Document.parse t' = Document.parse t) := by
  have white : ∀ c ∈ lead, isBlank c := fun c member => isBlank_of_isPad (pads c member)
  have scanned : scan t = front ++ ('{', .code) :: (shown ++ above) ++ ('\n', role) :: (below ++ ('}', .code) :: back) := by
    rw [at'.scanned]
    simp
  have text' : t' = written (front ++ ('{', .code) :: (shown ++ above)) ++
      '\n' :: (lead ++ line ++ '\n' :: written (below ++ ('}', .code) :: back)) := by
    rw [text]
    simp
  rw [masked_append, masked_newline] at blank
  have blankAbove : ∀ c ∈ masked above, isBlank c := fun c member => blank c (List.mem_append_left _ member)
  have blankBelow : ∀ c ∈ masked below, isBlank c :=
    fun c member => blank c (List.mem_append_right _ (List.mem_cons_of_mem _ member))
  constructor
  · intro inCode
    have atBelow := (scanFrom_cut_newline (ScanState.fits_code t) scanned).1
    have quiet := body_quiet ((quiet_of_masked atBelow.symm blankBelow).1 (settled_lineStartState role))
    have before : stripped (shown ++ (above ++ ('\n', role) :: below)) =
        stripped (shown ++ above) ++ '\n' :: stripped below := by simp [stripped_append]
    have scanned' : scan t' = front ++ ('{', .code) :: (shown ++ (above ++ ('\n', role) ::
        (asCode (lead ++ line) ++ ('\n', .code) :: below)) ++ ('}', .code) :: back) := by
      rw [text', scan_insert_code plain begins white scanned inCode]
      simp
    refine at'.parse_insert found (by rwa [masked_append, masked_newline]) pads plain read fresh scanned' blankAbove
      blankBelow ?_ quiet
    rw [before, bodyFields_append_newline, bodyAttributes_append_newline, quiet.1, quiet.2, List.append_nil, List.append_nil]
    exact ⟨rfl, rfl⟩
  · rintro rfl noEnd
    have scanned' : scan t' = front ++ ('{', .code) :: (shown ++ (above ++ ('\n', .comment) ::
        ((lead ++ line).map (·, .comment) ++ ('\n', .comment) :: below)) ++ ('}', .code) :: back) := by
      rw [text', scan_insert_comment begins white noEnd scanned]
      simp
    exact at'.parse_insert_commented found blankAbove blankBelow scanned'

/-- A body that ends in the line of its last code gets a line break in front of the new line. -/
theorem BodyAt.parse_insert_end {gap : List (Char × Role)} (at' : BodyAt t d front (shown ++ gap) back)
    (found : findModel model t = some d) (blank : ∀ c ∈ masked gap, isBlank c) (pads : ∀ c ∈ lead, isPad c)
    (begins : IsApart line) (plain : IsPlainLine line) (read : parseField line = some g)
    (fresh : ∀ m, (Document.parse t).model? model = some m → m.field? g.name = none) (inLine : '\n' ∉ written gap)
    {t' : Text} (text : t' = written (front ++ ('{', .code) :: shown) ++ trimEnd (written gap) ++
      '\n' :: (lead ++ line ++ '\n' :: '}' :: written back)) :
    Document.parse t' = (Document.parse t).changeModel model (·.addField g) := by
  obtain ⟨blanks, split, white⟩ := dropEndWhile_split isBlank (written gap)
  obtain ⟨above, ends, rfl, atEnd, rfl⟩ := List.map_eq_append_iff.mp split
  change written above = trimEnd (written (above ++ ends)) at atEnd
  change ∀ c ∈ written ends, isBlank c at white
  rw [← atEnd] at text
  have oneLine : '\n' ∉ written ends := by
    intro member
    refine inLine ?_
    rw [written_append]
    exact List.mem_append_right _ member
  have scanned : scan t = front ++ ('{', .code) :: (shown ++ above) ++ (ends ++ ('}', .code) :: back) := by
    rw [at'.scanned]
    simp
  have inserted := scan_insert_end plain begins (fun c member => isBlank_of_isPad (pads c member)) scanned
    fun c member => ⟨white c member, fun same => oneLine (same ▸ member)⟩
  have scanned' : scan t' = front ++ ('{', .code) :: (shown ++ (above ++ ('\n', .code) ::
      (asCode (lead ++ line) ++ ('\n', .code) :: [])) ++ ('}', .code) :: back) := by
    rw [text]
    simpa using inserted
  have blankAbove : ∀ c ∈ masked above, isBlank c := by
    intro c member
    refine blank c ?_
    rw [masked_append]
    exact List.mem_append_left _ member
  refine at'.parse_insert found blank pads plain read fresh scanned' blankAbove (List.forall_mem_nil _) ?_
    (body_blank (List.forall_mem_nil _))
  rw [← List.append_assoc, stripped_append]
  exact body_append_blanks (shown_blank white) (newline_not_mem_stripped oneLine) _

end

/-- Inserting a field adds exactly that field, wherever the text has comments. Only where the line of the last code
ends inside of a comment, the new line becomes part of that comment and nothing is added. -/
theorem parse_insertField {t model line : Text} {d : Declaration} {g : Field} (found : findModel model t = some d)
    (closed : d.close.isSome) (plain : IsPlainLine line) (read : parseField line = some g)
    (fresh : ∀ m, (Document.parse t).model? model = some m → m.field? g.name = none) :
    (endsInComment t model = false →
        Document.parse (insertField t model line) = (Document.parse t).changeModel model (·.addField g)) ∧
      (endsInComment t model = true → ¬ txt "*/" <:+: line →
        Document.parse (insertField t model line) = Document.parse t) := by
  obtain ⟨front, body, back, at'⟩ := Declaration.bodyAt (List.mem_of_find?_eq_some found) closed
  obtain ⟨shown, gap, rfl, codeEnd, blank, ends⟩ := exists_code_end body
  obtain ⟨lead, pads, atBreak, atEnd⟩ := at'.insertField_eq found codeEnd line ends
  have begins := isApart_of_parseField read
  rw [at'.endsInComment_eq found codeEnd]
  by_cases newline : '\n' ∈ written gap
  · obtain ⟨above, role, below, rfl, inLine⟩ := exists_newline newline
    have first : (above ++ ('\n', role) :: below).find? (·.1 = '\n') = some ('\n', role) := by
      rw [List.find?_append, List.find?_eq_none.mpr, Option.none_or]
      · rfl
      · intro item member same
        exact inLine (List.mem_map.mpr ⟨item, member, by simpa using same⟩)
    have text := atBreak (written above) (written below) (by simp) inLine
    obtain ⟨live, hidden⟩ := at'.parse_insert_break found blank pads begins plain read fresh text
    rw [first]
    simpa using And.intro live hidden
  · have noBreak : gap.find? (·.1 = '\n') = none := by
      refine List.find?_eq_none.mpr fun item member same => ?_
      exact newline (List.mem_map.mpr ⟨item, member, by simpa using same⟩)
    have added := at'.parse_insert_end found blank pads begins plain read fresh newline (atEnd newline)
    rw [noBreak]
    simpa using added

def remarkedSchema : Text :=
  txt "// Posts\nmodel Post \x7b\n  id Int @id /* key */ // first\n  /* more\n     to come */\n\x7d\n"

theorem parse_insertField_remarkedSchema :
    ∃ d g, findModel (txt "Post") remarkedSchema = some d ∧ d.close.isSome ∧ IsPlainLine (txt "title String?") ∧
      parseField (txt "title String?") = some g ∧
      (∀ m, (Document.parse remarkedSchema).model? (txt "Post") = some m → m.field? g.name = none) ∧
      endsInComment remarkedSchema (txt "Post") = false ∧
      Document.parse (insertField remarkedSchema (txt "Post") (txt "title String?")) =
        (Document.parse remarkedSchema).changeModel (txt "Post") (·.addField g) := by
  have found : findModel (txt "Post") remarkedSchema = some ⟨.model, txt "Post", 9, 20, some 80, 80⟩ := by decide +kernel
  have plain : IsPlainLine (txt "title String?") := ⟨by decide, by decide, by decide, by decide, by decide⟩
  have read : parseField (txt "title String?") = some ⟨txt "title", txt "String", false, true, [], none⟩ := by decide +kernel
  have fresh : ∀ m, (Document.parse remarkedSchema).model? (txt "Post") = some m → m.field? (txt "title") = none := by
    intro m isModel
    have whole : (Document.parse remarkedSchema).model? (txt "Post") =
        some ⟨txt "Post", [⟨txt "id", txt "Int", false, false, [txt "@id"], none⟩], []⟩ := by decide +kernel
    obtain rfl := Option.some.inj (isModel.symm.trans whole)
    decide +kernel
  have live : endsInComment remarkedSchema (txt "Post") = false := by decide +kernel
  exact ⟨_, _, found, rfl, plain, read, fresh, live, (parse_insertField found rfl plain read fresh).1 live⟩

def splitRemarkSchema : Text := txt "model A \x7b\n  id Int @id /* first\n  second */\n\x7d\n"

/-- A line that is put behind the last line break of a comment's first line is part of the comment. -/
theorem insertField_lost_splitRemarkSchema :
    ¬ ∀ (t model line : Text) (d : Declaration) (g : Field), findModel model t = some d → d.close.isSome →
      IsPlainLine line → ¬ txt "*/" <:+: line → parseField line = some g →
      (∀ m, (Document.parse t).model? model = some m → m.field? g.name = none) →
      Document.parse (insertField t model line) = (Document.parse t).changeModel model (·.addField g) := by
  intro all
  have whole : (Document.parse splitRemarkSchema).model? (txt "A") =
      some ⟨txt "A", [⟨txt "id", txt "Int", false, false, [txt "@id"], none⟩], []⟩ := by decide +kernel
  have added := all splitRemarkSchema (txt "A") (txt "b Int") ⟨.model, txt "A", 0, 8, some 44, 44⟩
    ⟨txt "b", txt "Int", false, false, [], none⟩ (by decide +kernel) rfl
    ⟨by decide, by decide, by decide, by decide, by decide⟩ (by decide) (by decide +kernel) (by
      intro m isModel
      obtain rfl := Option.some.inj (isModel.symm.trans whole)
      decide +kernel)
  revert added
  decide +kernel

end SchemaDiagram
