import SchemaDiagram.Proofs.BodyFields
import SchemaDiagram.Proofs.CodeItems

namespace SchemaDiagram

open Text

/-- What is scanned of two texts that differ in the white space at the end of one line. -/
theorem scan_lineBlanks {gap : Text} (blank : ∀ c ∈ gap, isBlank c) (u v : Text) :
    ∃ front items later role role',
      scan (u ++ '\n' :: v) = front ++ ('\n', role) :: later ∧
        scan (u ++ (gap ++ '\n' :: v)) = front ++ (items ++ ('\n', role') :: later) ∧
          written front = u ∧ written items = gap := by
  have newline : ∀ c ∈ ['\n'], isBlank c := by decide
  have ending : ∀ c ∈ gap ++ ['\n'], isBlank c := by
    rw [List.forall_mem_append]
    exact ⟨blank, newline⟩
  obtain ⟨items, split, chars⟩ := scanFrom_append_blanks blank .code true u
  obtain ⟨role, first⟩ := scanFrom_concat_newline .code true u
  obtain ⟨role', first'⟩ := scanFrom_concat_newline .code true (u ++ gap)
  have same : scanEnd .code true (u ++ gap ++ ['\n']) = scanEnd .code true (u ++ ['\n']) := by
    have either := (scanEnd_append_blanks_iff ending u).trans (scanEnd_append_blanks_iff newline u).symm
    rw [← List.append_assoc] at either
    rcases scanEnd_concat_newline .code true u with code | comment
    · rcases scanEnd_concat_newline .code true (u ++ gap) with code' | comment'
      · rw [code, code']
      · rw [either.mp comment'] at code
        cases code
    · rw [comment, either.mpr comment]
  refine ⟨scan u, items, scanFrom (scanEnd .code true (u ++ ['\n'])) true v, role, role', ?_, ?_,
    written_scanFrom _ _ _, chars⟩
  · rw [scan, scanFrom_append_newline, first, List.append_assoc]
    rfl
  · rw [← List.append_assoc, scan, scanFrom_append_newline, first', split, same, List.append_assoc, List.append_assoc]
    rfl

/-- An element that does not stand behind the first of two joined lists stands in it. -/
theorem append_split {α : Type} {a b front rest : List α} {c : α} (whole : a ++ b = front ++ c :: rest)
    (before : ¬ a <+: front) : ∃ v, a = front ++ c :: v ∧ rest = v ++ b := by
  rcases List.append_eq_append_iff.mp whole with ⟨q, rfl, -⟩ | ⟨q, rfl, restEq⟩
  · exact absurd (List.prefix_append a q) before
  · rcases q with _ | ⟨d, v⟩
    · rw [List.append_nil] at before
      exact absurd List.prefix_rfl before
    · obtain ⟨rfl, rfl⟩ := List.cons_eq_cons.mp restEq
      exact ⟨v, rfl, rfl⟩

theorem byteSize_le_of_prefix {a t : Text} (part : a <+: t) : byteSize a ≤ byteSize t := by
  obtain ⟨rest, rfl⟩ := part
  rw [byteSize_append]
  exact Nat.le_add_right _ _

/-- A cut that ends anywhere behind some text begins with it. -/
theorem slice_append_takeBytes (a b c : Text) (n : Nat) :
    slice (byteSize a) (byteSize a + (byteSize b + n)) (a ++ (b ++ c)) = b ++ takeBytes n c := by
  rw [slice, dropBytes_byteSize_append, Nat.add_sub_cancel_left, takeBytes_append]

theorem takeBytes_newline (n : Nat) (t : Text) :
    takeBytes n ('\n' :: t) = [] ∨ ∃ z, takeBytes n ('\n' :: t) = '\n' :: z := by
  rw [takeBytes]
  split
  · exact Or.inr ⟨_, rfl⟩
  · exact Or.inl rfl

/-- What is visible on a line stands in front of the white space at its end. -/
theorem split_before_newline {words u gap part rest : Text} {c : Char} (visible : isBlank c = false)
    (inLine : '\n' ∉ words) (blank : ∀ d ∈ gap, isBlank d) (whole : u ++ (gap ++ '\n' :: part) = words ++ c :: rest) :
    ∃ z, u = words ++ c :: z ∧ rest = z ++ (gap ++ '\n' :: part) := by
  have other : '\n' ≠ c := by
    rintro rfl
    cases visible
  have notInGap : c ∉ gap := fun member => by simp [blank c member] at visible
  rcases List.append_eq_append_iff.mp whole with ⟨q, wordsEq, restEq⟩ | ⟨q, uEq, restEq⟩
  · rcases List.append_eq_append_iff.mp restEq with ⟨r, qEq, newlineEq⟩ | ⟨r, gapEq, visibleEq⟩
    · rcases r with _ | ⟨d, r⟩
      · exact absurd (List.cons_eq_cons.mp newlineEq).1 other
      · obtain ⟨rfl, -⟩ := List.cons_eq_cons.mp newlineEq
        exact absurd (by simp [wordsEq, qEq]) inLine
    · rcases r with _ | ⟨d, r⟩
      · exact absurd (List.cons_eq_cons.mp visibleEq).1 other.symm
      · obtain ⟨rfl, -⟩ := List.cons_eq_cons.mp visibleEq
        exact absurd (by simp [gapEq]) notInGap
  · rcases q with _ | ⟨d, q⟩
    · rcases gap with _ | ⟨d, gap⟩
      · exact absurd (List.cons_eq_cons.mp restEq).1 other.symm
      · obtain ⟨rfl, -⟩ := List.cons_eq_cons.mp restEq
        exact absurd List.mem_cons_self notInGap
    · obtain ⟨rfl, behind⟩ := List.cons_eq_cons.mp restEq
      exact ⟨q, uEq, behind⟩

/-- A head is some words on one line and white space behind them, whatever it is. -/
theorem IsHead.words {keyword : Keyword} {name lead : Text} (head : IsHead keyword name lead) :
    ∃ words c blanks, lead = words ++ c :: blanks ∧ '\n' ∉ words ∧ isBlank c = false ∧ (∀ d ∈ blanks, isBlank d) ∧
      ∀ blanks', (∀ d ∈ blanks', isBlank d) → IsHead keyword name (words ++ c :: blanks') := by
  obtain ⟨indent, gap, blanks, rfl, inIndent, some, inGap, named, inName, inBlanks⟩ := head
  obtain ⟨front, c, rfl⟩ := (List.eq_nil_or_concat' name).resolve_left named
  have inKeyword : '\n' ∉ keyword.name := by cases keyword <;> decide
  have inFront : '\n' ∉ front := fun member => absurd (inName '\n' (List.mem_append_left _ member)) (by decide)
  have notPad {pads : Text} (inside : ∀ d ∈ pads, isPad d) : '\n' ∉ pads :=
    fun member => absurd (inside '\n' member) (by decide)
  refine ⟨indent ++ keyword.name ++ gap ++ front, c, blanks, by simp, ?_, ?_, inBlanks, fun blanks' inside => ?_⟩
  · simp only [List.mem_append, not_or]
    exact ⟨⟨⟨notPad inIndent, inKeyword⟩, notPad inGap⟩, inFront⟩
  · exact isBlank_eq_false_of_isWordChar (inName c (by simp))
  · exact ⟨indent, gap, blanks', by simp, inIndent, some, inGap, named, inName, inside⟩

/-- The white space at the end of a line is no part of a head that goes on behind the line. -/
theorem IsHead.exchange_blanks {keyword : Keyword} {name u gap gap' part : Text} (blank : ∀ c ∈ gap, isBlank c)
    (blank' : ∀ c ∈ gap', isBlank c) (head : IsHead keyword name (u ++ (gap ++ '\n' :: part))) :
    u ≠ [] ∧ IsHead keyword name (u ++ (gap' ++ '\n' :: part)) := by
  obtain ⟨words, c, blanks, whole, inLine, visible, inBlanks, rebuild⟩ := head.words
  obtain ⟨z, rfl, rfl⟩ := split_before_newline visible inLine blank whole
  simp only [List.forall_mem_append] at inBlanks
  refine ⟨by simp, ?_⟩
  rw [List.append_assoc, List.cons_append]
  refine rebuild _ ?_
  simp only [List.forall_mem_append]
  exact ⟨inBlanks.1, blank', inBlanks.2.2⟩

theorem Header.exchange_blanks {start : Nat} {u gap gap' w : Text} {h : Header} (blank : ∀ c ∈ gap, isBlank c)
    (blank' : ∀ c ∈ gap', isBlank c) (read : Header.read? start (u ++ (gap ++ '\n' :: w)) = some h) :
    Header.read? start (u ++ (gap' ++ '\n' :: w)) =
      some (h.move (start + byteSize u) (byteSize gap) (byteSize gap')) := by
  obtain ⟨lead, tail, whole, head, atStart, atBrace⟩ := Header.read?_eq_some_iff.mp read
  have noBrace : '{' ∉ gap := fun member => absurd (blank _ member) (by decide)
  have behind {q : Text} (rest : gap ++ '\n' :: w = q ++ '{' :: tail) :
      ∃ part, q = gap ++ '\n' :: part ∧ w = part ++ '{' :: tail := by
    rcases List.append_eq_append_iff.mp rest with ⟨r, rfl, newline⟩ | ⟨r, rfl, brace⟩
    · rcases r with _ | ⟨d, part⟩
      · cases newline
      · obtain ⟨rfl, rfl⟩ := List.cons_eq_cons.mp newline
        exact ⟨part, rfl, rfl⟩
    · rcases r with _ | ⟨d, r⟩
      · cases brace
      · obtain ⟨rfl, -⟩ := List.cons_eq_cons.mp brace
        exact absurd (by simp) noBrace
  have one : '{'.utf8Size = 1 := rfl
  rcases List.append_eq_append_iff.mp whole with ⟨q, rfl, rest⟩ | ⟨z, rfl, rest⟩
  · obtain ⟨part, rfl, rfl⟩ := behind rest
    obtain ⟨nonempty, moved⟩ := head.exchange_blanks blank blank'
    have positive : 0 < byteSize u := Nat.pos_of_ne_zero fun size => nonempty (eq_nil_of_byteSize size)
    refine Header.read?_eq_some_iff.mpr ⟨_, tail, by simp, moved, ?_, ?_⟩
    · simp only [Header.move]
      rw [moveOffset_front (by omega), atStart]
    · have place : h.brace = start + byteSize u + byteSize gap + byteSize ('\n' :: part) := by
        rw [atBrace, byteSize_append, byteSize_append]
        omega
      simp only [Header.move]
      rw [place, moveOffset_back, byteSize_append, byteSize_append]
      omega
  · rcases z with _ | ⟨d, z⟩
    · obtain ⟨part, nothing, -⟩ := behind (q := []) rest.symm
      simp at nothing
    · obtain ⟨rfl, -⟩ := List.cons_eq_cons.mp rest
      have size : byteSize (lead ++ '{' :: z) = byteSize lead + 1 + byteSize z := by
        rw [byteSize_append, byteSize_cons, one]
        omega
      refine Header.read?_eq_some_iff.mpr ⟨lead, z ++ (gap' ++ '\n' :: w), by simp, head, ?_, ?_⟩
      · simp only [Header.move]
        rw [moveOffset_front (by omega), atStart]
      · simp only [Header.move]
        rw [moveOffset_front (by omega), atBrace]

section

variable {back : Text} (blank : ∀ c ∈ back, isBlank c)

include blank

/-- With white space at the end of a line, the headers that begin on the line are the same, each with its brace where
it stands now. -/
theorem Header.read?_lineBlanks (start : Nat) (u w : Text) :
    Header.read? start (u ++ (back ++ '\n' :: w)) =
      (Header.read? start (u ++ '\n' :: w)).map (·.move (start + byteSize u) 0 (byteSize back)) := by
  have empty : ∀ c ∈ ([] : Text), isBlank c := List.forall_mem_nil _
  cases read : Header.read? start (u ++ '\n' :: w) with
  | some h => exact Header.exchange_blanks empty blank read
  | none =>
    refine Option.eq_none_iff_forall_not_mem.mpr fun h other => ?_
    have without := Header.exchange_blanks blank empty other
    rw [List.nil_append, read] at without
    cases without

theorem headersFrom_blankLine (atLineStart : Bool) (offset : Nat) (w : Text) :
    headersFrom atLineStart offset (back ++ '\n' :: w) =
      (headersFrom true 1 w).map (·.shift (offset + byteSize back)) := by
  have noBrace : '{' ∉ back ++ ['\n'] := by
    have inside : '{' ∉ back := fun member => absurd (blank _ member) (by decide)
    simp [inside]
  have parted : IsParted back '\n' w := EndsBlock.isParted (Or.inl blank) w
  rw [parted.headersFrom_append, headersFrom_eq_nil noBrace, List.nil_append, ← headersFrom_shift]
  rfl

theorem headersFrom_lineBlanks (atLineStart : Bool) (offset : Nat) (u w : Text) :
    headersFrom atLineStart offset (u ++ (back ++ '\n' :: w)) =
      (headersFrom atLineStart offset (u ++ '\n' :: w)).map (·.move (offset + byteSize u) 0 (byteSize back)) := by
  induction u generalizing atLineStart offset with
  | nil =>
    have bare := headersFrom_blankLine (List.forall_mem_nil _) atLineStart offset w
    rw [List.nil_append] at bare
    rw [List.nil_append, List.nil_append, headersFrom_blankLine blank, bare, List.map_map]
    refine List.map_congr_left fun h _ => ?_
    simp only [Function.comp_apply, Header.move, Header.shift, byteSize_nil]
    rw [moveOffset_back, moveOffset_back]
    rfl
  | cons c u ih =>
    have here := Header.read?_lineBlanks blank offset (c :: u) w
    rw [List.cons_append, List.cons_append] at here
    rw [List.cons_append, List.cons_append, headersFrom_cons, headersFrom_cons, here, ih, List.map_append,
      byteSize_cons, Nat.add_assoc]
    congr 1
    cases atLineStart
    · rfl
    · cases Header.read? offset (c :: (u ++ '\n' :: w)) <;> rfl

/-- What is declared moves with the white space that comes to the end of a line. -/
theorem declarationsFrom_lineBlanks (a w : Text) :
    declarationsFrom (a ++ (back ++ '\n' :: w)) 0 (headers (a ++ (back ++ '\n' :: w))) =
      (declarationsFrom (a ++ '\n' :: w) 0 (headers (a ++ '\n' :: w))).map (·.move (byteSize a) 0 (byteSize back)) := by
  have noOpening : '{' ∉ back := fun member => absurd (blank _ member) (by decide)
  have noClosing : '}' ∉ back := fun member => absurd (blank _ member) (by decide)
  have block : IsBlockBody back := isBlockBody_of_no_brace noOpening noClosing
  have empty : IsBlockBody [] := isBlockBody_of_no_brace List.not_mem_nil List.not_mem_nil
  have moved := headersFrom_lineBlanks blank true 0 a w
  rw [Nat.zero_add] at moved
  rw [headers, moved]
  have keeps (n : Nat) : KeepsPlace (byteSize a) 0 n := Nat.lt_or_ge n (byteSize a)
  refine declarationsFrom_move ?_ (fun h _ => keeps h.start) (fun h _ => keeps h.brace) ?_
    fun h _ => by simp only [Nat.not_lt_zero]
  · have size : moveOffset (byteSize a) 0 (byteSize back) (byteSize a + 0 + byteSize ('\n' :: w)) = _ :=
      moveOffset_back (byteSize ('\n' :: w))
    simp only [byteSize_append] at size ⊢
    rw [← Nat.add_assoc, ← size, Nat.add_zero]
  · intro h member
    refine ⟨?_, fun c _ => keeps c⟩
    obtain ⟨front, rest, whole, atBrace⟩ := brace_of_mem_headers member
    by_cases before : h.brace < byteSize a
    · rw [moveOffset_front before]
      obtain ⟨v, split, -⟩ := append_split whole fun part => by
        have size := byteSize_le_of_prefix part
        omega
      exact (blockEnd_move_front empty block split atBrace).1
    · obtain ⟨n, place⟩ := Nat.exists_eq_add_of_le (Nat.not_lt.mp before)
      have behind : blockEnd (a ++ (back ++ '\n' :: w)) (byteSize a + byteSize back + n) =
          (blockEnd (a ++ ([] ++ '\n' :: w)) (byteSize a + 0 + n)).map (moveOffset (byteSize a) 0 (byteSize back)) :=
        (blockEnd_move_back n).1
      have moved : moveOffset (byteSize a) 0 (byteSize back) (byteSize a + n) = byteSize a + byteSize back + n :=
        moveOffset_back n
      rw [place, moved]
      exact behind

end

/-- White space at the end of a row is no part of what it says. -/
theorem rows_lineBlanks {back y : Text} (blank : ∀ c ∈ back, isBlank c) (inLine : '\n' ∉ back)
    (ends : y = [] ∨ ∃ z, y = '\n' :: z) (x : Text) :
    (rows (x ++ (back ++ y))).map trim = (rows (x ++ y)).map trim := by
  have last (r : Text) : trim (r ++ back) = trim r := trim_append (List.forall_mem_nil _) r blank
  have oneRow : (rows (x ++ back)).map trim = (rows x).map trim := by
    induction x using rows_induction with
    | oneRow r oneLine =>
      have longer : '\n' ∉ r ++ back := by simp [oneLine, inLine]
      rw [rows_row longer, rows_row oneLine, List.map_singleton, List.map_singleton, last]
    | moreRows r x oneLine ih =>
      rw [List.append_assoc, List.cons_append, rows_cons oneLine, rows_cons oneLine, List.map_cons, List.map_cons, ih]
  rcases ends with rfl | ⟨z, rfl⟩
  · rwa [List.append_nil, List.append_nil]
  · rw [← List.append_assoc, rows_append_newline, rows_append_newline, List.map_append, List.map_append, oneRow]

/-- The rows of a part of a text that the end of the line lies in. -/
theorem rows_slice_lineBlanks {back : Text} (blank : ∀ c ∈ back, isBlank c) (inLine : '\n' ∉ back) {a b : Text}
    {stop : Nat} (reaches : byteSize a + byteSize b ≤ stop) (c : Text) :
    (rows (slice (byteSize a) (stop + byteSize back) (a ++ (b ++ (back ++ '\n' :: c))))).map trim =
      (rows (slice (byteSize a) stop (a ++ (b ++ '\n' :: c)))).map trim := by
  obtain ⟨n, rfl⟩ := Nat.exists_eq_add_of_le reaches
  have longer : byteSize a + byteSize b + n + byteSize back = byteSize a + (byteSize (b ++ back) + n) := by
    rw [byteSize_append]
    omega
  rw [longer, Nat.add_assoc, slice_append_takeBytes, ← List.append_assoc b, slice_append_takeBytes, List.append_assoc]
  exact rows_lineBlanks blank inLine (takeBytes_newline n c) b

/-- The brace of a declaration is code, and splits what is scanned of the text. -/
theorem Declaration.opened {t : Text} {d : Declaration} (member : d ∈ outline t) :
    ∃ earlier later, scan t = earlier ++ ('{', .code) :: later ∧ byteSize (written earlier) = d.brace := by
  obtain ⟨shown, rest, opened, atBrace⟩ := (Declaration.liesIn member).opens
  obtain ⟨earlier, later, split, rfl, -⟩ := code_split (by decide) (by decide) opened
  exact ⟨earlier, later, split, by rw [← atBrace, byteSize_masked]⟩

section

variable {gap : Text} (blank : ∀ c ∈ gap, isBlank c)

include blank

theorem outline_lineBlanks (u v : Text) :
    outline (u ++ (gap ++ '\n' :: v)) = (outline (u ++ '\n' :: v)).map (·.move (byteSize u) 0 (byteSize gap)) := by
  obtain ⟨front, items, later, role, role', scanned, scanned', rfl, rfl⟩ := scan_lineBlanks blank u v
  have before : mask (written front ++ '\n' :: v) = masked front ++ '\n' :: masked later := by
    rw [mask, scanned, ← masked_newline role, ← masked_append]
    rfl
  have after : mask (written front ++ (written items ++ '\n' :: v)) =
      masked front ++ (masked items ++ '\n' :: masked later) := by
    rw [mask, scanned', ← masked_newline role', ← masked_append, ← masked_append]
    rfl
  have white : ∀ c ∈ masked items, isBlank c := shown_blank blank
  have moved := declarationsFrom_lineBlanks white (masked front) (masked later)
  rw [outline, outline, before, after, ← byteSize_masked front, ← byteSize_masked items]
  exact moved

/-- The body of a declaration in front of which, behind which or inside of which there is more white space at the end
of a line. -/
theorem body_lineBlanks (inLine : '\n' ∉ gap) {u v : Text} {d : Declaration} (member : d ∈ outline (u ++ '\n' :: v)) :
    (rows ((d.move (byteSize u) 0 (byteSize gap)).body (strip (u ++ (gap ++ '\n' :: v))))).map trim =
      (rows (d.body (strip (u ++ '\n' :: v)))).map trim := by
  have lies := Declaration.liesIn member
  obtain ⟨front, items, later, role, role', scanned, scanned', rfl, rfl⟩ := scan_lineBlanks blank u v
  have before : strip (written front ++ '\n' :: v) = stripped front ++ '\n' :: stripped later := by
    rw [strip, scanned, ← stripped_newline role, ← stripped_append]
    rfl
  have after : strip (written front ++ (written items ++ '\n' :: v)) =
      stripped front ++ (stripped items ++ '\n' :: stripped later) := by
    rw [strip, scanned', ← stripped_newline role', ← stripped_append, ← stripped_append]
    rfl
  have inOrder := lies.brace_lt_stop
  by_cases apart : d.stop < byteSize (written front) ∨ byteSize (written front) ≤ d.brace
  · have next : moveOffset (byteSize (written front)) 0 (byteSize (written items)) d.brace + 1 =
        moveOffset (byteSize (written front)) 0 (byteSize (written items)) (d.brace + 1) := by
      simp only [moveOffset]
      split <;> split <;> omega
    have same : slice _ _ (stripped front ++ (stripped items ++ '\n' :: stripped later)) =
        slice (d.brace + 1) d.stop (stripped front ++ ([] ++ '\n' :: stripped later)) :=
      slice_exchange (by omega) (by rw [byteSize_stripped, byteSize_nil]; omega)
    rw [byteSize_stripped, byteSize_stripped, byteSize_nil, ← next, List.nil_append, ← before, ← after] at same
    rw [Declaration.body, Declaration.body, ← same]
    rfl
  · -- the line ends in the body, so that the brace stands in the part of the text that stays in its place
    obtain ⟨inText, inFront⟩ := not_or.mp apart
    obtain ⟨earlier, behind, split, atBrace⟩ := Declaration.opened member
    have notBehind : ¬ front <+: earlier := fun part => by
      obtain ⟨rest, rfl⟩ := part
      rw [written_append, byteSize_append] at atBrace
      omega
    obtain ⟨inside, rfl, -⟩ := append_split (scanned.symm.trans split) notBehind
    have opening : byteSize (stripped earlier ++ ['{']) = d.brace + 1 := by
      rw [byteSize_append, byteSize_stripped, atBrace]
      rfl
    have size : byteSize (written (earlier ++ ('{', .code) :: inside)) = d.brace + 1 + byteSize (stripped inside) := by
      rw [written_append, written_cons, byteSize_append, byteSize_cons, byteSize_stripped, atBrace, ← Nat.add_assoc]
      rfl
    have reaches : byteSize (stripped earlier ++ ['{']) + byteSize (stripped inside) ≤ d.stop := by omega
    have whole (t : Text) : stripped (earlier ++ ('{', .code) :: inside) ++ t =
        stripped earlier ++ ['{'] ++ (stripped inside ++ t) := by
      rw [stripped_append, stripped_cons_kept (by decide)]
      simp
    have white : ∀ c ∈ stripped items, isBlank c := shown_blank blank
    have same := rows_slice_lineBlanks white (newline_not_mem_stripped inLine) reaches (stripped later)
    rw [← whole, ← whole, ← before, ← after, opening, byteSize_stripped items] at same
    have brace : moveOffset (byteSize (written (earlier ++ ('{', .code) :: inside))) 0 (byteSize (written items)) d.brace =
        d.brace := moveOffset_front (Nat.not_le.mp inFront)
    have stop : moveOffset (byteSize (written (earlier ++ ('{', .code) :: inside))) 0 (byteSize (written items)) d.stop =
        d.stop + byteSize (written items) := if_neg inText
    rw [Declaration.body, Declaration.body, ← same]
    simp only [Declaration.move, brace, stop]

end

end SchemaDiagram
