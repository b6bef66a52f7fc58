import SchemaDiagram.Proofs.FieldEdits

namespace SchemaDiagram

open Text

section

variable {r line : Text}

theorem indent_append {pads rest : Text} (isPads : ∀ c ∈ pads, isPad c) (stops : Stops isPad rest) :
    indent (pads ++ rest) = pads := takeWhile_append_stops isPads stops

theorem commentOf_append {front more : Text} (code : IsCode (front ++ [' '])) :
    commentOf (front ++ ' ' :: '/' :: '/' :: more) = '/' :: '/' :: more := by
  induction front with
  | nil => rfl
  | cons c front ih =>
    have noComment : opensComment c (front ++ ' ' :: '/' :: '/' :: more) = false := by
      refine Bool.eq_false_iff.mpr fun opens => code.noComment ?_
      obtain ⟨rfl, head⟩ : c = '/' ∧ (front ++ ' ' :: '/' :: '/' :: more).head? = some '/' := by
        simpa [opensComment] using opens
      rcases front with _ | ⟨d, front⟩
      · cases head
      · obtain rfl : d = '/' := Option.some.inj head
        exact ⟨[], front ++ [' '], rfl⟩
    rw [List.cons_append, commentOf, noComment, if_neg (by decide)]
    exact ih (code.of_infix (List.suffix_cons c _).isInfix)

theorem trimEnd_trimEnd (t : Text) : trimEnd (trimEnd t) = trimEnd t :=
  dropEndWhile_eq_self (stops_dropEndWhile isBlank t)

theorem IsFieldLine.stops_isLineEnd (fieldLine : IsFieldLine line) : Stops isLineEnd line.reverse := by
  intro c head
  have visible := fieldLine.ends c head
  refine Bool.eq_false_iff.mpr fun lineEnd => ?_
  have either : c = '\n' ∨ c = '\r' := by simpa [isLineEnd] using lineEnd
  rcases either with rfl | rfl <;> exact absurd visible (by decide)

theorem lineEnds_append {front ends : Text} (stops : Stops isLineEnd front.reverse) (inside : ∀ c ∈ ends, isLineEnd c) :
    lineEnds (front ++ ends) = ends := by
  have all : ∀ c ∈ ends.reverse, isLineEnd c := fun c member => inside c (List.mem_reverse.mp member)
  rw [lineEnds, List.reverse_append, takeWhile_append_stops all stops, List.reverse_reverse]

/-- A row written anew keeps its indentation and what stands behind the line. -/
theorem rewriteRow_keeps (plain : IsBodyRow r) (fieldLine : IsFieldLine line) (stops : Stops isPad line) :
    indent (rewriteRow line r) = indent r ∧ rowEnd (rewriteRow line r) = rowEnd r ∧
      (commentAfter false r = false → lineEnds (rewriteRow line r) = lineEnds r) := by
  have isPads : ∀ c ∈ indent r, isPad c := fun c => List.mem_takeWhile_imp
  have front : IsCode (indent r ++ line) := fieldLine.code.indented isPads
  obtain ⟨-, same, -⟩ := rewriteRow_plain plain fieldLine.code
  have ends (noComment : commentAfter false r = false) : lineEnds (rewriteRow line r) = lineEnds r := by
    have atEnd : rowEnd r = lineEnds r := by rw [rowEnd, noComment, if_neg (by decide)]
    rw [rewriteRow, atEnd]
    exact lineEnds_append (stops_reverse_append fieldLine.nonempty fieldLine.stops_isLineEnd) fun c => mem_lineEnds
  refine ⟨?_, ?_, ends⟩
  · have nonempty : Stops isPad (line ++ rowEnd r) := by
      obtain ⟨c, more, rfl⟩ := List.exists_cons_of_ne_nil fieldLine.nonempty
      exact stops_cons (stops c rfl)
    rw [rewriteRow, List.append_assoc, indent_append isPads nonempty]
  · rcases rowEnd_cases plain.inLine with ⟨comment, more, atEnd, -⟩ | ⟨noComment, -⟩
    · have old : rowEnd r = ' ' :: trimEnd (commentOf r) := by rw [rowEnd, if_pos comment]
      have trimmed : trimEnd (commentOf r) = '/' :: '/' :: more := (List.cons_eq_cons.mp (old.symm.trans atEnd)).2
      have whole : rewriteRow line r = indent r ++ line ++ ' ' :: '/' :: '/' :: more := by rw [rewriteRow, atEnd]
      have code : IsCode (indent r ++ line ++ [' ']) :=
        front.append_safe (by decide) (by decide) (isCode_of_safe (by simp))
      have there : commentOf (rewriteRow line r) = '/' :: '/' :: more := by rw [whole, commentOf_append code]
      rw [rowEnd, same, if_pos comment, there, old, ← trimmed, trimEnd_trimEnd]
    · rw [rowEnd, same, noComment, if_neg (by decide), ends noComment, rowEnd, noComment, if_neg (by decide)]

/-- Of two lines that are put into a row one behind the other, the second stays. -/
theorem rewriteRow_rewriteRow (plain : IsBodyRow r) (fieldLine : IsFieldLine line) (stops : Stops isPad line)
    (next : Text) : rewriteRow next (rewriteRow line r) = rewriteRow next r := by
  obtain ⟨sameIndent, sameEnd, -⟩ := rewriteRow_keeps plain fieldLine stops
  rw [rewriteRow, sameIndent, sameEnd, rewriteRow]

end

/-- Two places in a list are the same, or one is in front of the other. -/
theorem places_cases {α : Type} {front back front' back' : List α} {a a' : α}
    (same : front ++ a :: back = front' ++ a' :: back') :
    (front = front' ∧ a = a' ∧ back = back') ∨
      (∃ mid, front' = front ++ a :: mid ∧ back = mid ++ a' :: back') ∨
        ∃ mid, front = front' ++ a' :: mid ∧ back' = mid ++ a :: back := by
  rcases List.append_eq_append_iff.mp same with ⟨more, frontEq, rest⟩ | ⟨more, frontEq, rest⟩
  · rcases more with _ | ⟨b, more⟩
    · obtain ⟨rfl, rfl⟩ := List.cons_eq_cons.mp rest
      exact Or.inl ⟨by simpa using frontEq.symm, rfl, rfl⟩
    · obtain ⟨rfl, backEq⟩ := List.cons_eq_cons.mp rest
      exact Or.inr (Or.inl ⟨more, frontEq, backEq⟩)
  · rcases more with _ | ⟨b, more⟩
    · obtain ⟨rfl, rfl⟩ := List.cons_eq_cons.mp rest
      exact Or.inl ⟨by simpa using frontEq, rfl, rfl⟩
    · obtain ⟨rfl, backEq⟩ := List.cons_eq_cons.mp rest
      exact Or.inr (Or.inr ⟨more, frontEq, backEq⟩)

section

variable {field line r : Text} {front back rs : List Text}

theorem replaceRow_eq (line : Text) (earlier : ∀ s ∈ front, declaresRow field false s = false)
    (declared : declaresRow field back.isEmpty r) :
    replaceRow field line (front ++ r :: back) =
      front ++ rewriteRow line r :: if back.isEmpty && (lineEnds r).isEmpty then [[]] else back := by
  induction front with
  | nil => rw [List.nil_append, replaceRow, if_pos declared, List.nil_append]
  | cons s front ih =>
    obtain ⟨here, later⟩ := List.forall_mem_cons.mp earlier
    have more : (front ++ r :: back).isEmpty = false := by simp
    rw [List.cons_append, replaceRow, more, here, if_neg (by decide), ih later, List.cons_append]

/-- A row that the line of its field is written in already, and that does not share its line with the brace. -/
structure SettledAt (field line : Text) (rs front : List Text) (r : Text) (back : List Text) : Prop where
  split : rs = front ++ r :: back
  earlier : ∀ s ∈ front, declaresRow field false s = false
  declared : declaresRow field back.isEmpty r
  same : rewriteRow line r = r
  parted : back = [] → lineEnds r ≠ []

/-- The line of a field stands in its row. -/
def Settled (field line : Text) (rs : List Text) : Prop := ∃ front r back, SettledAt field line rs front r back

theorem Settled.stays (settled : Settled field line rs) : upsertRow field line rs = rs := by
  obtain ⟨front, r, back, rfl, earlier, declared, same, parted⟩ := settled
  have has : hasRow field (front ++ r :: back) := hasRow_iff.mpr ⟨front, r, back, rfl, declared⟩
  have more : (back.isEmpty && (lineEnds r).isEmpty) = false := by
    rcases back with _ | ⟨s, back⟩
    · simpa using parted rfl
    · rfl
  rw [upsertRow, if_pos has, replaceRow_eq line earlier declared, same, more, if_neg (by decide)]

end

section

variable {f : Field} (writable : f.IsWritable) (named : f.name ≠ [])

include writable named

theorem Field.IsWritable.stops_isPad : Stops isPad f.render := by
  have visible := (writable.name.isWord named).stops_isBlank (' ' :: (f.label ++ f.attributes.flatMap (txt " " ++ ·)))
  rw [Field.render_eq]
  intro c head
  refine Bool.eq_false_iff.mpr fun pad => ?_
  have blank := isBlank_of_isPad pad
  rw [visible c head] at blank
  cases blank

theorem firstWord?_render : firstWord? f.render = some f.name := by
  rw [Field.render_eq]
  exact firstWord?_word_append (writable.name.isWord named) fun c head => Or.inr (Option.some.inj head ▸ rfl)

variable {r : Text} (shown : rowLine r = f.render)

include shown

theorem declaresRow_render (isLast : Bool) : declaresRow f.name isLast r := by
  have word := writable.name.isWord named
  refine (declaresRow_iff word).mpr ⟨by rw [shown, firstWord?_render writable named], ?_⟩
  rintro ⟨-, bare⟩
  have alone : rowLine r = f.name := by
    rw [rowLine, trim, bare]
    exact dropEndWhile_eq_self word.ends
  have size := congrArg List.length (shown.symm.trans alone)
  rw [Field.render_eq, List.length_append, List.length_cons] at size
  omega

theorem declaresRow_render_other {key : Text} (word : IsWord key) (differ : key ≠ f.name) (isLast : Bool) :
    declaresRow key isLast r = false := by
  refine Bool.eq_false_iff.mpr fun declared => differ ?_
  have first := ((declaresRow_iff word).mp declared).1
  rw [shown, firstWord?_render writable named] at first
  exact (Option.some.inj first).symm

end

/-- No name of a field stands alone in front of the closing brace. -/
def EndsApart (field : Text) (rs : List Text) : Prop := ∀ r ∈ rs.getLast?, trimStart r ≠ field

instance (field : Text) (rs : List Text) : Decidable (EndsApart field rs) :=
  inferInstanceAs (Decidable (∀ r ∈ rs.getLast?, trimStart r ≠ field))

/-- A last row that does not declare a field does not do so without the white space at its end. -/
theorem declaresRow_trimEnd {field : Text} (word : IsWord field) {front : List Text} {r : Text}
    (plain : IsBodyRows (front ++ [r])) (apart : EndsApart field (front ++ [r]))
    (undeclared : declaresRow field true r = false) : declaresRow field false (trimEnd r) = false := by
  have code : IsCode r := (plain.row r (by simp)).isCode_of_ends (plain.ends r (by simp))
  refine Bool.eq_false_iff.mpr fun declared => ?_
  have first := ((declaresRow_iff word).mp declared).1
  rw [rowLine_trimEnd code] at first
  refine Bool.eq_false_iff.mp undeclared ((declaresRow_iff word).mpr ⟨first, ?_⟩)
  rw [code.blankFrom]
  exact fun both => apart r (by simp) both.2

section

variable {f : Field} (writable : f.IsWritable) (named : f.name ≠ []) {rs : List Text} (plain : IsBodyRows rs)

include writable named

theorem rewriteRow_indented {pads : Text} (isPads : ∀ c ∈ pads, isPad c) :
    rewriteRow f.render (pads ++ f.render) = pads ++ f.render := by
  have fieldLine := writable.isFieldLine
  have code : IsCode (pads ++ f.render) := fieldLine.code.indented isPads
  have ends : lineEnds (pads ++ f.render ++ []) = [] :=
    lineEnds_append (stops_reverse_append fieldLine.nonempty fieldLine.stops_isLineEnd) (List.forall_mem_nil _)
  rw [List.append_nil] at ends
  rw [rewriteRow, indent_append isPads (writable.stops_isPad named), rowEnd, code.commentAfter, if_neg (by decide), ends,
    List.append_nil]

include plain

theorem settled_replaceRow (has : hasRow f.name rs) : Settled f.name f.render (replaceRow f.name f.render rs) := by
  have fieldLine := writable.isFieldLine
  have stops := writable.stops_isPad named
  obtain ⟨front, r, back, rfl, earlier, declared, replaced⟩ := replaceRow_split f.render has
  have plainRow := plain.row r (by simp)
  have shown : rowLine (rewriteRow f.render r) = f.render :=
    (rewriteRow_plain plainRow fieldLine.code).2.2.trans (writable.trim_render named)
  refine ⟨front, _, _, replaced, earlier, declaresRow_render writable named shown _,
    rewriteRow_rewriteRow plainRow fieldLine stops _, fun alone => ?_⟩
  split at alone
  · cases alone
  · rename_i parted
    subst alone
    rw [(rewriteRow_keeps plainRow fieldLine stops).2.2 (plain.ends r (by simp))]
    simpa using parted

theorem settled_insertRow (hasNot : ¬ hasRow f.name rs) (apart : EndsApart f.name rs) :
    Settled f.name f.render (insertRow f.render rs) := by
  have fieldLine := writable.isFieldLine
  have undeclared {front back : List Text} {s : Text} (split : rs = front ++ s :: back) :
      declaresRow f.name back.isEmpty s = false :=
    Bool.eq_false_iff.mpr fun declared => hasNot (hasRow_iff.mpr ⟨front, s, back, split, declared⟩)
  obtain ⟨front, r, back, pads, whole, bare, isPads, inserted⟩ := insertRow_split f.render plain.nonempty
  have shown : rowLine (pads ++ f.render) = f.render :=
    (rowLine_indented fieldLine.code isPads).trans (writable.trim_render named)
  have before : ∀ s ∈ front, declaresRow f.name false s = false := by
    intro s member
    obtain ⟨a, b, rfl⟩ := List.append_of_mem member
    have split : rs = a ++ s :: (b ++ r :: back) := by simp [whole]
    have here := undeclared split
    rwa [show (b ++ r :: back).isEmpty = false by simp] at here
  have here := undeclared whole
  have same := rewriteRow_indented writable named isPads
  rcases back with _ | ⟨s, back⟩
  · have trimmed := declaresRow_trimEnd (writable.name.isWord named) (whole ▸ plain) (whole ▸ apart) here
    refine ⟨front ++ [trimEnd r], pads ++ f.render, [[]], by simp [inserted], ?_,
      declaresRow_render writable named shown _, same, by simp⟩
    exact List.forall_mem_append.mpr ⟨before, List.forall_mem_singleton.mpr trimmed⟩
  · refine ⟨front ++ [r], pads ++ f.render, s :: back, by simp [inserted], ?_,
      declaresRow_render writable named shown _, same, by simp⟩
    exact List.forall_mem_append.mpr ⟨before, List.forall_mem_singleton.mpr here⟩

/-- A field that is put into some rows is there in its form, unless its name stands alone before the brace. -/
theorem settled_upsertRow (apart : EndsApart f.name rs) : Settled f.name f.render (upsertRow f.name f.render rs) := by
  rw [upsertRow]
  split
  · rename_i has
    exact settled_replaceRow writable named plain has
  · rename_i hasNot
    exact settled_insertRow writable named plain hasNot apart

omit named plain in
/-- A settled row that ends with the white space in front of the brace. -/
theorem trimEnd_settled {r : Text} (same : rewriteRow f.render r = r) (noComment : commentAfter false r = false) :
    trimEnd r = indent r ++ f.render := by
  have fieldLine := writable.isFieldLine
  have blanks : ∀ c ∈ lineEnds r, isBlank c := by
    intro c member
    have either : c = '\n' ∨ c = '\r' := by simpa [isLineEnd] using mem_lineEnds member
    rcases either with rfl | rfl <;> rfl
  have whole : r = indent r ++ f.render ++ lineEnds r := by
    conv => lhs; rw [← same]
    rw [rewriteRow, rowEnd, noComment, if_neg (by decide)]
  rw [trimEnd]
  conv => lhs; rw [whole]
  rw [dropEndWhile_append_of_forall _ blanks]
  exact dropEndWhile_eq_self (stops_reverse_append fieldLine.nonempty fieldLine.ends)

/-- A settled field stays so when a row is put in behind all others. -/
theorem Settled.inserted (settled : Settled f.name f.render rs) (line : Text) :
    Settled f.name f.render (insertRow line rs) := by
  have word := writable.name.isWord named
  obtain ⟨front, r, back, pads, whole, bare, isPads, inserted⟩ := insertRow_split line plain.nonempty
  obtain ⟨front', r', back', split, earlier, declared, same, parted⟩ := settled
  have shows : ¬isBareRow r' := by
    intro hidden
    have first := ((declaresRow_iff word).mp declared).1
    rw [List.isEmpty_iff.mp hidden] at first
    cases first
  rw [inserted]
  rcases places_cases (whole.symm.trans split) with ⟨rfl, rfl, rfl⟩ | ⟨mid, -, backEq⟩ | ⟨mid, frontEq, backEq⟩
  · rcases back with _ | ⟨s, back⟩
    · have noComment : commentAfter false r = false := plain.ends r (by simp [whole])
      have code : IsCode r := (plain.row r (by simp [whole])).isCode_of_ends noComment
      have first := ((declaresRow_iff word).mp declared).1
      have isPads : ∀ c ∈ indent r, isPad c := fun c => List.mem_takeWhile_imp
      refine ⟨front, trimEnd r, [pads ++ line, []], rfl, earlier, ?_, ?_, by simp⟩
      · refine (declaresRow_iff word).mpr ⟨by rw [rowLine_trimEnd code, first], by simp⟩
      · rw [trimEnd_settled writable same noComment]
        exact rewriteRow_indented writable named isPads
    · exact ⟨front, r, (pads ++ line) :: s :: back, rfl, earlier, declared, same, by simp⟩
  · exact absurd (bare r' (by simp [backEq])) shows
  · rw [backEq, show (mid ++ r :: back).isEmpty = false by simp] at declared
    obtain ⟨new, atNew⟩ : ∃ new, new = mid ++ if back.isEmpty then [trimEnd r, pads ++ line, []]
      else r :: (pads ++ line) :: back := ⟨_, rfl⟩
    have some : new ≠ [] := by
      rw [atNew]
      split <;> simp
    refine ⟨front', r', new, by rw [frontEq, atNew]; simp, earlier, ?_, same, fun none => absurd none some⟩
    rwa [List.isEmpty_eq_false_iff.mpr some]

/-- A settled field stays so when another field is put into its rows. -/
theorem Settled.upserted (settled : Settled f.name f.render rs) {g : Field} (writableOther : g.IsWritable)
    (namedOther : g.name ≠ []) (differ : f.name ≠ g.name) :
    Settled f.name f.render (upsertRow g.name g.render rs) := by
  have word := writable.name.isWord named
  have wordOther := writableOther.name.isWord namedOther
  rw [upsertRow]
  split
  · rename_i has
    obtain ⟨front, r, back, whole, -, declares, replaced⟩ := replaceRow_split g.render has
    obtain ⟨front', r', back', split, earlier, declared, same, parted⟩ := settled
    have shown : rowLine (rewriteRow g.render r) = g.render :=
      (rewriteRow_plain (plain.row r (by simp [whole])) writableOther.isFieldLine.code).2.2.trans
        (writableOther.trim_render namedOther)
    rw [replaced]
    rcases places_cases (whole.symm.trans split) with ⟨rfl, rfl, rfl⟩ | ⟨mid, frontEq, backEq⟩ | ⟨mid, frontEq, backEq⟩
    · have first := ((declaresRow_iff word).mp declared).1
      rw [((declaresRow_iff wordOther).mp declares).1] at first
      exact absurd (Option.some.inj first).symm differ
    · have more : (back.isEmpty && (lineEnds r).isEmpty) = false := by rw [backEq]; simp
      rw [more, if_neg (by decide), backEq]
      refine ⟨front ++ rewriteRow g.render r :: mid, r', back', by simp, ?_, declared, same, parted⟩
      rw [frontEq] at earlier
      obtain ⟨before, after⟩ := List.forall_mem_append.mp earlier
      exact List.forall_mem_append.mpr ⟨before, List.forall_mem_cons.mpr
        ⟨declaresRow_render_other writableOther namedOther shown word differ false, (List.forall_mem_cons.mp after).2⟩⟩
    · rw [backEq, show (mid ++ r :: back).isEmpty = false by simp] at declared
      obtain ⟨new, atNew⟩ : ∃ new, new = mid ++ rewriteRow g.render r ::
        if back.isEmpty && (lineEnds r).isEmpty then [[]] else back := ⟨_, rfl⟩
      have some : new ≠ [] := by simp [atNew]
      refine ⟨front', r', new, by rw [frontEq, atNew]; simp, earlier, ?_, same, fun none => absurd none some⟩
      rwa [List.isEmpty_eq_false_iff.mpr some]
  · exact settled.inserted writable named plain g.render

omit writable in
/-- A settled field comes back in its form if another one of its name takes its place for a while. -/
theorem Settled.returns (settled : Settled f.name f.render rs) {g : Field} (writableOther : g.IsWritable)
    (same : g.name = f.name) :
    upsertRow f.name f.render (upsertRow g.name g.render rs) = rs := by
  obtain ⟨front, r, back, rfl, earlier, declared, stays, parted⟩ := settled
  have namedOther : g.name ≠ [] := same ▸ named
  have plainRow := plain.row r (by simp)
  have otherLine := writableOther.isFieldLine
  have stops := writableOther.stops_isPad namedOther
  have shown : rowLine (rewriteRow g.render r) = g.render :=
    (rewriteRow_plain plainRow otherLine.code).2.2.trans (writableOther.trim_render namedOther)
  have has : hasRow f.name (front ++ r :: back) := hasRow_iff.mpr ⟨front, r, back, rfl, declared⟩
  have tail : (back.isEmpty && (lineEnds r).isEmpty) = false ∧
      (back.isEmpty && (lineEnds (rewriteRow g.render r)).isEmpty) = false := by
    rcases back with _ | ⟨s, back⟩
    · rw [(rewriteRow_keeps plainRow otherLine stops).2.2 (plain.ends r (by simp))]
      simpa using parted rfl
    · exact ⟨rfl, rfl⟩
  have declares : declaresRow f.name back.isEmpty (rewriteRow g.render r) :=
    same ▸ declaresRow_render writableOther namedOther shown back.isEmpty
  have has' : hasRow f.name (front ++ rewriteRow g.render r :: back) :=
    hasRow_iff.mpr ⟨front, _, back, rfl, declares⟩
  have once : upsertRow f.name g.render (front ++ r :: back) = front ++ rewriteRow g.render r :: back := by
    rw [upsertRow, if_pos has, replaceRow_eq _ earlier declared, tail.1, if_neg (by decide)]
  rw [same, once, upsertRow, if_pos has', replaceRow_eq _ earlier declares, tail.2, if_neg (by decide),
    rewriteRow_rewriteRow plainRow otherLine stops, stays]

end

/-- An edit puts no name alone in front of the closing brace. -/
theorem EndsApart.apply {key : Text} (word : IsWord key) {e : FieldEdit} (writable : e.field.IsWritable)
    (named : e.field.name ≠ []) {rs : List Text} (nonempty : rs ≠ []) (apart : EndsApart key rs) :
    EndsApart key (e.apply rs) := by
  have none : trimStart [] ≠ key := fun same => word.1 same.symm
  have inserted : EndsApart key (insertRow e.field.render rs) := by
    obtain ⟨front, r, back, pads, rfl, -, -, inserted⟩ := insertRow_split e.field.render nonempty
    intro s last
    rw [inserted] at last
    rcases back with _ | ⟨b, back⟩
    · have atEnd : [] = s := by simpa using last
      exact atEnd ▸ none
    · exact apart s (by simpa using last)
  unfold FieldEdit.apply
  split
  · exact inserted
  split
  · exact apart
  rw [upsertRow]
  split
  · rename_i has
    obtain ⟨front, r, back, rfl, -, -, replaced⟩ := replaceRow_split e.field.render has
    intro s last
    rw [replaced] at last
    rcases back with _ | ⟨b, back⟩
    · split at last
      · have atEnd : [] = s := by simpa using last
        exact atEnd ▸ none
      · have atEnd : rewriteRow e.field.render r = s := by simpa using last
        have pads : ∀ c ∈ indent r, isBlank c := fun c member => isBlank_of_isPad (List.mem_takeWhile_imp member)
        have begins : Stops isBlank (e.field.render ++ rowEnd r) := by
          rw [Field.render_eq, List.append_assoc]
          exact (writable.name.isWord named).stops_isBlank _
        rw [← atEnd, rewriteRow, List.append_assoc, trimStart, List.dropWhile_append_of_pos pads,
          dropWhile_eq_self begins]
        intro same
        have space : ' ' ∈ key := by
          rw [← same, Field.render_eq]
          simp
        exact absurd (word.2 ' ' space) (by decide)
    · exact apart s (by simpa using last)
  · exact inserted

end SchemaDiagram
