import SchemaDiagram.Proofs.TrailingBlanks

namespace SchemaDiagram

open Text

/-- A text that is read in front of another one as it is read alone: the scanner leaves it in code at the end of a
line, every declaration is closed, and nothing visible stands behind the last closing brace. -/
structure IsSelfContained (a : Text) : Prop where
  tidy : Tidy a
  closed : ∀ d ∈ outline a, d.close.isSome
  ends : EndsBlock (mask a)

/-- A text that begins with the header of a declaration. -/
def BeginsDeclaration (t : Text) : Prop := (outline t).head?.map (·.start) = some 0

instance (t : Text) : Decidable (BeginsDeclaration t) :=
  inferInstanceAs (Decidable ((outline t).head?.map (·.start) = some 0))

/-- How a text can stand in front of another one without a change to what either of them declares: no header reaches
from one to the other, and no brace of the second one closes a declaration of the first. -/
structure Precedes (a rest : Text) : Prop where
  tidy : Tidy a
  parted : EndsBlock (mask a) ∨ BeginsDeclaration rest
  ends : (∀ d ∈ outline a, d.close.isSome) ∨ StaysOpen '{' '}' 1 (mask rest) ∧ BeginsDeclaration rest

theorem IsSelfContained.precedes {a : Text} (contained : IsSelfContained a) (rest : Text) : Precedes a rest :=
  ⟨contained.tidy, Or.inl contained.ends, Or.inl contained.closed⟩

theorem BeginsDeclaration.headers {t : Text} (begins : BeginsDeclaration t) :
    (headers (mask t)).head?.map (·.start) = some 0 := by
  rw [← begins]
  exact (declarationsFrom_head fun h _ => Nat.zero_le h.start).symm

theorem BeginsDeclaration.read? {t : Text} (begins : BeginsDeclaration t) : ∃ h, Header.read? 0 (mask t) = some h := by
  obtain ⟨h, first, atStart⟩ := Option.map_eq_some_iff.mp begins.headers
  obtain ⟨before, line, whole, read, -⟩ := mem_headersFrom (List.mem_of_mem_head? first)
  obtain ⟨-, -, -, -, start, -⟩ := Header.read?_eq_some_iff.mp read
  have nothing : before = [] := eq_nil_of_byteSize (by omega)
  rw [nothing] at whole read
  exact ⟨h, by rw [whole]; exact read⟩

/-- Text behind a closed declaration does not move its end. -/
theorem blockEnd_append_of_closed {t : Text} {h : Header} (member : h ∈ headers t) {close : Nat}
    (closed : blockEnd t h.brace = some close) (rest : Text) : blockEnd (t ++ rest) h.brace = some close := by
  obtain ⟨front, inner, rfl, atBrace⟩ := brace_of_mem_headers member
  rw [atBrace] at closed ⊢
  rcases blockEnd_cases front inner with ⟨-, none⟩ | ⟨part, after, rfl, stays, balance, found⟩
  · rw [none] at closed
    cases closed
  · rw [List.append_assoc, List.cons_append, List.append_assoc, List.cons_append,
      blockEnd_eq_some stays balance front (after ++ rest), ← closed, found]

theorem Declaration.LiesIn.close_lt {t : Text} {d : Declaration} (lies : d.LiesIn t) :
    d.close.getD d.brace < byteSize t := by
  cases close : d.close with
  | none => exact lies.brace_lt_stop.trans_le lies.stop_le_size
  | some c =>
    have inText := (lies.closed c close).2.1.lt_byteSize
    rwa [byteSize_mask] at inText

theorem Declaration.extend_same (d : Declaration) (n : Nat) : d.extend n n = d := by
  rw [extend]
  split
  · rename_i goesOn
    rw [← goesOn.2]
  · rfl

section

variable {a rest : Text} (before : Precedes a rest)

include before

theorem Precedes.headers_append :
    headers (mask (a ++ rest)) = headers (mask a) ++ (headers (mask rest)).map (·.shift (byteSize a)) := by
  rw [before.tidy.mask_append]
  rcases before.tidy.wholeLines with rfl | ⟨u, rfl⟩
  · exact (List.map_id _).symm.trans (List.map_congr_left fun h _ => by simp [Header.shift])
  · have parted : IsParted (mask u) '\n' (mask rest) := by
      rcases before.parted with ends | begins
      · rw [mask_concat_newline] at ends
        exact ((endsBlock_append_blanks (by decide)).mp ends).isParted (mask rest)
      · obtain ⟨h, read⟩ := begins.read?
        exact isParted_of_header read (mask u)
    have size := byteSize_mask (u ++ ['\n'])
    rw [mask_concat_newline] at size ⊢
    rw [parted.headers_append, size]

theorem Precedes.blockEnd_append {d : Declaration} (member : d ∈ outline a) :
    blockEnd (mask a ++ mask rest) d.brace = d.close := by
  obtain ⟨earlier, h, later, split, rfl⟩ := mem_declarationsFrom member
  have inHeaders : h ∈ headers (mask a) := by rw [split]; simp
  rcases before.ends with closed | ⟨paired, -⟩
  · obtain ⟨close, found⟩ := Option.isSome_iff_exists.mp (closed _ member)
    rw [found]
    exact blockEnd_append_of_closed inHeaders found (mask rest)
  · obtain ⟨front, inner, whole, atBrace⟩ := brace_of_mem_headers inHeaders
    have same := SchemaDiagram.blockEnd_append paired whole
    rwa [← atBrace] at same

theorem Precedes.outline_append :
    outline (a ++ rest) = outline a ++ (outline rest).map (·.shift (byteSize a)) := by
  have starts : ∀ h ∈ headers (mask a), h.start < byteSize (mask a) := by
    intro h member
    obtain ⟨-, below, inText⟩ := Header.start_lt_brace member
    omega
  have behind : ∀ d ∈ outline a, ∀ g ∈ (headers (mask rest)).map (·.shift (byteSize a)),
      d.close.getD d.brace < g.start := by
    intro d member g inRest
    obtain ⟨h, -, rfl⟩ := List.mem_map.mp inRest
    exact (Declaration.liesIn member).close_lt.trans_le (Nat.le_add_right _ _)
  have joined := declarationsFrom_append starts (fun d => before.blockEnd_append) behind
    (fun g _ => Nat.zero_le g.start)
  have same : (outline a).map (·.extend (byteSize (mask a))
      ((((headers (mask rest)).map (·.shift (byteSize a))).head?.map (·.start)).getD
        (byteSize (mask a ++ mask rest)))) = outline a := by
    refine (List.map_congr_left fun d member => ?_).trans (List.map_id _)
    rcases before.ends with closed | ⟨-, begins⟩
    · exact Declaration.extend_eq_self (closed d member) _ _
    · -- what is not closed would go on to the first declaration behind it, but there is nothing in between
      obtain ⟨h, first, atStart⟩ := Option.map_eq_some_iff.mp begins.headers
      rw [List.head?_map, first, byteSize_mask]
      simp only [Option.map_some, Option.getD_some, Header.shift, atStart, Nat.add_zero]
      exact d.extend_same _
  have shifted : declarationsFrom (mask a ++ mask rest) 0 ((headers (mask rest)).map (·.shift (byteSize a))) =
      (outline rest).map (·.shift (byteSize a)) := by
    rw [← byteSize_mask a]
    exact declarationsFrom_shift (mask a) (mask rest) fun h _ => by omega
  rw [shifted] at joined
  rw [outline, before.headers_append, before.tidy.mask_append]
  exact joined.trans (congrArg (· ++ _) same)

theorem Precedes.sections_append : sections (a ++ rest) = sections a ++ sections rest := by
  have bare := before.tidy.strip_append rest
  rw [sections, before.outline_append, List.map_append, List.map_map]
  congr 1
  · refine List.map_congr_left fun d member => ?_
    have within : d.stop ≤ byteSize (strip a) := by
      rw [byteSize_strip]
      exact (Declaration.liesIn member).stop_le_size
    rw [Declaration.body, bare, slice_append_of_le within]
    rfl
  · refine List.map_congr_left fun d _ => ?_
    simp only [Function.comp_apply, Declaration.shift, Declaration.body]
    rw [bare, ← byteSize_strip a, Nat.add_assoc, slice_shift]

end

theorem IsSelfContained.outline_append {a : Text} (contained : IsSelfContained a) (rest : Text) :
    outline (a ++ rest) = outline a ++ (outline rest).map (·.shift (byteSize a)) :=
  (contained.precedes rest).outline_append

theorem IsSelfContained.sections_append {a : Text} (contained : IsSelfContained a) (rest : Text) :
    sections (a ++ rest) = sections a ++ sections rest :=
  (contained.precedes rest).sections_append

/-- A line comment goes on to the end of its line. -/
theorem scan_lineComment (role : Role) (lineBlank : Bool) {u : Text} (inLine : '\n' ∉ u) :
    scanFrom (.lineComment role) lineBlank (u ++ ['\n']) = u.map (·, role) ++ [('\n', .code)] ∧
      scanEnd (.lineComment role) lineBlank (u ++ ['\n']) = .code := by
  induction u generalizing lineBlank with
  | nil => exact ⟨rfl, rfl⟩
  | cons c u ih =>
    obtain ⟨other, inLater⟩ := List.ne_and_not_mem_of_not_mem_cons inLine
    obtain ⟨items, state⟩ := ih (lineBlankAfter lineBlank c) inLater
    rw [List.cons_append, scanFrom_cons, scanEnd, ScanState.step_lineComment other.symm, items, state]
    exact ⟨rfl, rfl⟩

section

variable {u : Text} (inLine : '\n' ∉ u)

include inLine

theorem scan_commentLine : ∃ role, role ≠ .code ∧
    scan (txt "//" ++ u ++ ['\n']) = ('/' :: '/' :: u).map (·, role) ++ [('\n', .code)] ∧
      Tidy (txt "//" ++ u ++ ['\n']) := by
  have whole : txt "//" ++ u ++ ['\n'] = '/' :: ('/' :: u ++ ['\n']) := rfl
  obtain ⟨role, atRole⟩ : ∃ role, role = lineCommentRole true '/' ('/' :: u ++ ['\n']) := ⟨_, rfl⟩
  have begins : ScanState.code.step true '/' ('/' :: u ++ ['\n']) = (role, .lineComment role) := by
    rw [atRole]
    rfl
  have inRest : '\n' ∉ '/' :: u := by simpa using inLine
  obtain ⟨items, state⟩ := scan_lineComment role (lineBlankAfter true '/') inRest
  refine ⟨role, ?_, ?_, Or.inr ⟨txt "//" ++ u, rfl⟩, ?_⟩
  · rw [atRole, lineCommentRole]
    split <;> decide
  · rw [whole, scan, scanFrom_cons, begins, items]
    rfl
  · rw [whole, scanEnd, begins]
    exact state

theorem mask_commentLine_blank : ∀ c ∈ mask (txt "//" ++ u ++ ['\n']), isBlank c := by
  obtain ⟨role, other, scanned, -⟩ := scan_commentLine inLine
  intro c member
  rw [mask, scanned] at member
  obtain ⟨item, inItems, shown⟩ := List.mem_flatMap.mp member
  rcases List.mem_append.mp inItems with inComment | atEnd
  · obtain ⟨d, -, rfl⟩ := List.mem_map.mp inComment
    exact isBlank_of_lost (decide_eq_false other) shown
  · rw [List.mem_singleton.mp atEnd, showOnly_newline] at shown
    rw [List.mem_singleton.mp shown]
    decide

/-- A line that is a comment declares nothing, and the scanner is in code behind it. -/
theorem lineComment_isSelfContained :
    IsSelfContained (txt "//" ++ u ++ ['\n']) ∧ outline (txt "//" ++ u ++ ['\n']) = [] := by
  obtain ⟨role, -, -, tidy⟩ := scan_commentLine inLine
  have blank := mask_commentLine_blank inLine
  have noHeader : headers (mask (txt "//" ++ u ++ ['\n'])) = [] := headers_append_blanks blank []
  have nothing : outline (txt "//" ++ u ++ ['\n']) = [] := by
    rw [outline, noHeader]
    rfl
  refine ⟨⟨tidy, ?_, Or.inl blank⟩, nothing⟩
  rw [nothing]
  exact List.forall_mem_nil _

end

end SchemaDiagram
