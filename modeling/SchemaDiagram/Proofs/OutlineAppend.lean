import SchemaDiagram.Proofs.Brackets
import SchemaDiagram.Proofs.HeaderOrder
import SchemaDiagram.Proofs.OutlineGeometry
import SchemaDiagram.Proofs.ScanAppend

namespace SchemaDiagram

open Text

def Header.shift (n : Nat) (h : Header) : Header :=
  { h with start := n + h.start, brace := n + h.brace }

def Declaration.shift (n : Nat) (d : Declaration) : Declaration :=
  { d with start := n + d.start, brace := n + d.brace, close := d.close.map (n + ·), stop := n + d.stop }

theorem Declaration.shift_shift (n m : Nat) (d : Declaration) : (d.shift m).shift n = d.shift (n + m) := by
  simp [Declaration.shift, Nat.add_assoc, Function.comp_def]

theorem Header.read?_shift (n start : Nat) (line : Text) :
    Header.read? (n + start) line = (Header.read? start line).map (·.shift n) := by
  unfold Header.read?
  rcases Keyword.read? (line.dropWhile isPad) with _ | ⟨keyword, rest⟩
  · rfl
  · simp only [Option.bind_eq_bind, Option.bind_some]
    split
    · simp [Header.shift, Nat.add_assoc]
    · rfl

theorem headersFrom_shift (n : Nat) (atLineStart : Bool) (offset : Nat) (t : Text) :
    headersFrom atLineStart (n + offset) t = (headersFrom atLineStart offset t).map (·.shift n) := by
  induction t generalizing atLineStart offset with
  | nil => rfl
  | cons c t ih =>
    rw [headersFrom_cons, headersFrom_cons, Nat.add_assoc, ih, List.map_append, Header.read?_shift]
    cases atLineStart
    · rfl
    · cases Header.read? offset (c :: t) <;> rfl

/-- A header is read up to its brace: what stands behind the brace does not matter. -/
theorem Header.read?_append_eq_some_iff {start : Nat} {t rest : Text} {h : Header} :
    Header.read? start t = some h ↔
      Header.read? start (t ++ rest) = some h ∧ h.brace < start + byteSize t := by
  have brace : '{'.utf8Size = 1 := rfl
  constructor
  · intro read
    obtain ⟨lead, tail, rfl, head, atStart, atBrace⟩ := Header.read?_eq_some_iff.mp read
    refine ⟨Header.read?_eq_some_iff.mpr ⟨lead, tail ++ rest, by simp, head, atStart, atBrace⟩, ?_⟩
    rw [byteSize_append, byteSize_cons]
    omega
  · rintro ⟨read, within⟩
    obtain ⟨lead, tail, whole, head, atStart, atBrace⟩ := Header.read?_eq_some_iff.mp read
    rcases List.append_eq_append_iff.mp whole with ⟨part, leadEq, -⟩ | ⟨part, textEq, tailEq⟩
    · rw [leadEq, byteSize_append] at atBrace
      omega
    · rcases part with _ | ⟨c, part⟩
      · rw [textEq, List.append_nil] at within
        omega
      · obtain ⟨rfl, -⟩ := List.cons_eq_cons.mp tailEq
        exact Header.read?_eq_some_iff.mpr ⟨lead, part, textEq, head, atStart, atBrace⟩

theorem Header.read?_append {start : Nat} {t rest : Text}
    (within : ∀ h, Header.read? start (t ++ rest) = some h → h.brace < start + byteSize t) :
    Header.read? start (t ++ rest) = Header.read? start t := by
  ext h
  constructor
  · exact fun read => read?_append_eq_some_iff.mpr ⟨read, within h read⟩
  · exact fun read => (read?_append_eq_some_iff.mp read).1

/-- No header reaches over a brace. -/
theorem Header.read?_append_brace {c : Char} (brace : c = '{' ∨ c = '}') (start : Nat) (u rest : Text) :
    Header.read? start (u ++ c :: rest) = Header.read? start (u ++ [c]) := by
  rw [List.append_cons]
  refine Header.read?_append fun h read => ?_
  obtain ⟨lead, tail, whole, head, -, atBrace⟩ := Header.read?_eq_some_iff.mp read
  have positive := c.utf8Size_pos
  rw [← List.append_cons] at whole
  rw [byteSize_append, byteSize_cons]
  rcases List.append_eq_append_iff.mp whole with ⟨part, leadEq, tailEq⟩ | ⟨part, textEq, -⟩
  · rcases part with _ | ⟨d, part⟩
    · rw [leadEq, List.append_nil] at atBrace
      omega
    · obtain ⟨rfl, -⟩ := List.cons_eq_cons.mp tailEq
      have other := head.no_brace c (by simp [leadEq])
      exact (brace.elim other.1 other.2).elim
  · rw [textEq, byteSize_append]
    omega

/-- No header reaches over a closing brace. -/
theorem Header.read?_append_closing (start : Nat) (u rest : Text) :
    Header.read? start (u ++ '}' :: rest) = Header.read? start (u ++ ['}']) :=
  Header.read?_append_brace (Or.inr rfl) start u rest

/-- No header begins on a line of white space. -/
theorem Header.read?_blank_line (start : Nat) {u : Text} (blank : ∀ c ∈ u, isBlank c) (rest : Text) :
    Header.read? start (u ++ '\n' :: rest) = none := by
  obtain ⟨c, later, dropped, white⟩ : ∃ c later, (u ++ '\n' :: rest).dropWhile isPad = c :: later ∧ isBlank c := by
    induction u with
    | nil => exact ⟨'\n', rest, rfl, by decide⟩
    | cons c u ih =>
      obtain ⟨here, later⟩ := List.forall_mem_cons.mp blank
      by_cases pad : isPad c
      · rw [List.cons_append, List.dropWhile_cons_of_pos pad]
        exact ih later
      · rw [List.cons_append, List.dropWhile_cons_of_neg pad]
        exact ⟨c, _, rfl, here⟩
  have noKeyword : Keyword.read? (c :: later) = none := by
    refine Option.eq_none_iff_forall_not_mem.mpr fun ⟨keyword, after⟩ found => ?_
    have stops : Stops isBlank (keyword.name ++ after) := keyword.stops_name
      (fun d letter => isBlank_eq_false_of_isWordChar (isWordChar_of_isAlphanum (by simp [Char.isAlphanum, letter]))) after
    rw [← Keyword.read?_eq_some_iff.mp found] at stops
    have visible := stops c rfl
    rw [white] at visible
    cases visible
  rw [Header.read?, dropped, noKeyword]
  rfl

/-- A text that is white space or has a closing brace for its last visible character. -/
def EndsBlock (t : Text) : Prop :=
  (∀ c ∈ t, isBlank c) ∨ ∃ u gap, t = u ++ '}' :: gap ∧ ∀ c ∈ gap, isBlank c

theorem endsBlock_iff {t : Text} : EndsBlock t ↔ trimEnd t = [] ∨ (trimEnd t).getLast? = some '}' := by
  have brace : isBlank '}' = false := by decide
  obtain ⟨back, whole, blank⟩ := dropEndWhile_split isBlank t
  constructor
  · rintro (all | ⟨u, gap, rfl, blanks⟩)
    · exact Or.inl (dropEndWhile_eq_nil_iff.mpr all)
    · have ends : Stops isBlank (u ++ ['}']).reverse := stops_reverse_append (List.cons_ne_nil _ _) (stops_cons brace)
      have kept : trimEnd (u ++ '}' :: gap) = u ++ ['}'] := by
        rw [trimEnd, List.append_cons, dropEndWhile_append_of_forall _ blanks, dropEndWhile_eq_self ends]
      exact Or.inr (by rw [kept, List.getLast?_concat])
  · rintro (empty | last)
    · exact Or.inl (dropEndWhile_eq_nil_iff.mp empty)
    · obtain ⟨u, atEnd⟩ := List.getLast?_eq_some_iff.mp last
      rw [trimEnd] at atEnd
      exact Or.inr ⟨u, back, by rw [whole, atEnd, List.append_assoc, List.singleton_append], blank⟩

instance (t : Text) : Decidable (EndsBlock t) := decidable_of_iff _ endsBlock_iff.symm

theorem EndsBlock.of_suffix {v u : Text} (ends : EndsBlock u) (part : v <:+ u) : EndsBlock v := by
  obtain ⟨w, rfl⟩ := part
  rcases ends with blank | ⟨front, gap, whole, blank⟩
  · exact Or.inl fun c member => blank c (List.mem_append_right w member)
  · rcases List.append_eq_append_iff.mp whole with ⟨part, -, restEq⟩ | ⟨part, -, restEq⟩
    · exact Or.inr ⟨part, gap, restEq, blank⟩
    · rcases part with _ | ⟨c, part⟩
      · exact Or.inr ⟨[], gap, restEq.symm, blank⟩
      · obtain ⟨-, rfl⟩ := List.cons_eq_cons.mp restEq
        exact Or.inl fun c member => blank c (List.mem_append_right part member)

/-- No header of a text reaches over the character behind it. -/
def IsParted (u : Text) (c : Char) (rest : Text) : Prop :=
  ∀ v, v <:+ u → ∀ start, Header.read? start (v ++ c :: rest) = Header.read? start (v ++ [c])

theorem isParted_of_brace {c : Char} (brace : c = '{' ∨ c = '}') (u rest : Text) : IsParted u c rest :=
  fun v _ start => Header.read?_append_brace brace start v rest

/-- No header reaches over the end of a line with which a block ends. -/
theorem EndsBlock.isParted {u : Text} (ends : EndsBlock u) (rest : Text) : IsParted u '\n' rest := by
  intro v part start
  rcases ends.of_suffix part with blank | ⟨w, gap, rfl, -⟩
  · rw [Header.read?_blank_line start blank, Header.read?_blank_line start blank]
  · rw [List.append_assoc, List.append_assoc, List.cons_append, List.cons_append, Header.read?_append_closing,
      Header.read?_append_closing start w (gap ++ ['\n'])]

/-- No header reaches over the end of the line in front of another one. -/
theorem isParted_of_header {rest : Text} {k : Nat} {next : Header} (begins : Header.read? k rest = some next)
    (u : Text) : IsParted u '\n' rest := by
  intro v _ start
  obtain ⟨lead, tail, rfl, head, -, -⟩ := Header.read?_eq_some_iff.mp begins
  have next := head.read?_append (start + byteSize v + 1) tail
  rw [List.append_cons]
  refine Header.read?_append fun h read => ?_
  rw [List.append_assoc, List.singleton_append] at read
  have before := Header.read?_brace_lt read next
  have newline : byteSize ['\n'] = 1 := rfl
  rw [byteSize_append, newline, ← Nat.add_assoc]
  exact before

/-- The headers of a text are those in front of a character that none reaches over, and those behind it. -/
theorem IsParted.headersFrom_append {u rest : Text} {c : Char} (parted : IsParted u c rest) (atLineStart : Bool)
    (offset : Nat) :
    headersFrom atLineStart offset (u ++ c :: rest) =
      headersFrom atLineStart offset (u ++ [c]) ++ headersFrom (c = '\n') (offset + byteSize u + c.utf8Size) rest := by
  induction u generalizing atLineStart offset with
  | nil =>
    have here := parted [] List.suffix_rfl offset
    rw [List.nil_append, List.nil_append] at here ⊢
    rw [headersFrom_cons, headersFrom_cons, here, List.append_assoc]
    rfl
  | cons d u ih =>
    have here := parted (d :: u) List.suffix_rfl offset
    have later : IsParted u c rest := fun v part => parted v (part.trans (List.suffix_cons d u))
    rw [List.cons_append, List.cons_append] at here
    rw [List.cons_append, List.cons_append, headersFrom_cons, here, ih later, ← List.append_assoc, headersFrom_cons,
      byteSize_cons, Nat.add_assoc offset]

theorem IsParted.headers_append {u rest : Text} (parted : IsParted u '\n' rest) :
    headers (u ++ ['\n'] ++ rest) =
      headers (u ++ ['\n']) ++ (headers rest).map (·.shift (byteSize (u ++ ['\n']))) := by
  have split := parted.headersFrom_append true 0
  have size : 0 + byteSize u + '\n'.utf8Size = byteSize (u ++ ['\n']) + 0 := by
    rw [byteSize_append, Nat.zero_add]
    rfl
  rw [size, headersFrom_shift] at split
  rw [headers, List.append_assoc]
  exact split

theorem headers_newline (t : Text) : headers ('\n' :: t) = (headers t).map (·.shift 1) := by
  have none : Header.read? 0 ('\n' :: t) = none := rfl
  rw [headers, headersFrom_cons, none]
  exact headersFrom_shift 1 true 0 t

theorem dropBytes_append (a t : Text) (n : Nat) : dropBytes (byteSize a + n) (a ++ t) = dropBytes n t := by
  induction a with
  | nil => simp
  | cons c a ih =>
    rw [List.cons_append, byteSize_cons, Nat.add_assoc, dropBytes, if_pos (Nat.le_add_right _ _),
      Nat.add_sub_cancel_left, ih]

theorem byteSize_dropBytes_le (n : Nat) (t : Text) : byteSize (dropBytes n t) ≤ byteSize t := by
  have parts := congrArg byteSize (takeBytes_append_dropBytes n t)
  rw [byteSize_append] at parts
  omega

theorem slice_shift (a t : Text) (start stop : Nat) :
    slice (byteSize a + start) (byteSize a + stop) (a ++ t) = slice start stop t := by
  rw [slice, slice, dropBytes_append, Nat.add_sub_add_left]

theorem closingFrom_shift (n depth offset : Nat) (t : Text) :
    closingFrom depth (n + offset) t = (closingFrom depth offset t).map (n + ·) := by
  induction t generalizing depth offset with
  | nil => rfl
  | cons c t ih =>
    simp only [closingFrom, Nat.add_assoc, ih]
    split
    · rfl
    split
    · split <;> rfl
    · rfl

theorem blockEnd_shift (a t : Text) (brace : Nat) :
    blockEnd (a ++ t) (byteSize a + brace) = (blockEnd t brace).map (byteSize a + ·) := by
  have below := byteSize_dropBytes_le brace t
  rw [blockEnd, dropBytes_append, byteSize_append, Nat.add_sub_assoc below, closingFrom_shift]
  rfl

theorem Header.declaration_shift (a t : Text) (h : Header) (later : List Header) :
    (h.shift (byteSize a)).declaration (a ++ t) (later.map (·.shift (byteSize a))) =
      (h.declaration t later).shift (byteSize a) := by
  simp only [Header.declaration, Declaration.shift, Header.shift, blockEnd_shift, byteSize_append]
  cases blockEnd t h.brace with
  | some close => rfl
  | none => cases later <;> rfl

/-- What is declared in a text is declared behind another one too. -/
theorem declarationsFrom_shift (a t : Text) {resume resume' : Nat} {hs : List Header}
    (resumes : ∀ h ∈ hs, byteSize a + h.start < resume ↔ h.start < resume') :
    declarationsFrom (a ++ t) resume (hs.map (·.shift (byteSize a))) =
      (declarationsFrom t resume' hs).map (·.shift (byteSize a)) := by
  induction hs generalizing resume resume' with
  | nil => rfl
  | cons h hs ih =>
    have here : (h.shift (byteSize a)).start < resume ↔ h.start < resume' := resumes h List.mem_cons_self
    rw [List.map_cons, declarationsFrom_cons, declarationsFrom_cons]
    by_cases skipped : h.start < resume'
    · rw [if_pos (here.mpr skipped), if_pos skipped]
      exact ih fun h' member => resumes h' (List.mem_cons_of_mem _ member)
    · rw [if_neg (mt here.mp skipped), if_neg skipped, List.map_cons, Header.declaration_shift]
      congr 1
      apply ih
      intro h' _
      have resume : (blockEnd (a ++ t) (h.shift (byteSize a)).brace).getD (h.shift (byteSize a)).brace =
          byteSize a + (blockEnd t h.brace).getD h.brace := by
        rw [Header.shift, blockEnd_shift]
        cases blockEnd t h.brace <;> rfl
      rw [resume]
      omega

theorem declarationsFrom_skip {t : Text} {resume : Nat} {inner later : List Header}
    (skipped : ∀ h ∈ inner, h.start < resume) :
    declarationsFrom t resume (inner ++ later) = declarationsFrom t resume later := by
  induction inner with
  | nil => rfl
  | cons h inner ih =>
    rw [List.cons_append, declarationsFrom_cons, if_pos (skipped h List.mem_cons_self)]
    exact ih fun h' member => skipped h' (List.mem_cons_of_mem _ member)

/-- A block that is closed at its end is declared in front of whatever follows it. -/
theorem outline_append_closed {a lead inner : Text} {keyword : Keyword} {name : Text} (tidy : Tidy a)
    (masked : mask a = lead ++ '{' :: inner ++ ['}', '\n']) (head : IsHead keyword name lead)
    (block : IsBracketed '{' '}' ('{' :: inner ++ ['}'])) (rest : Text) :
    outline (a ++ rest) =
      { keyword, name, start := 0, brace := byteSize lead, close := some (byteSize lead + 1 + byteSize inner),
        stop := byteSize lead + 1 + byteSize inner } :: (outline rest).map (·.shift (byteSize a)) := by
  obtain ⟨stays, balance⟩ := block.staysOpen (by decide)
  have braces : '{'.utf8Size = 1 ∧ byteSize ['}', '\n'] = 2 := ⟨rfl, rfl⟩
  have size : byteSize (mask a) = byteSize lead + 1 + byteSize inner + 2 := by
    simp only [masked, byteSize_append, byteSize_cons, braces.1, braces.2]
    omega
  let h : Header := { keyword, name, start := 0, brace := byteSize lead }
  have closes : blockEnd (mask a ++ mask rest) h.brace = some (byteSize lead + 1 + byteSize inner) := by
    have text : mask a ++ mask rest = lead ++ '{' :: (inner ++ '}' :: '\n' :: mask rest) := by simp [masked]
    rw [text, blockEnd_eq_some stays balance]
  obtain ⟨more, found, inBlock⟩ : ∃ more, headers (mask a) = h :: more ∧
      ∀ h' ∈ more, h'.start < byteSize lead + 1 + byteSize inner + 1 := by
    obtain ⟨c, tail, atStart⟩ : ∃ c tail, mask a = c :: tail := by
      rw [masked]
      cases lead <;> exact ⟨_, _, rfl⟩
    have read : Header.read? 0 (mask a) = some h :=
      Header.read?_eq_some_iff.mpr ⟨lead, inner ++ ['}', '\n'], by simp [masked], head, rfl, by simp [h]⟩
    refine ⟨headersFrom (c = '\n') (0 + c.utf8Size) tail, ?_, ?_⟩
    · rw [atStart] at read ⊢
      rw [headers, headersFrom_cons, if_pos rfl, read]
      rfl
    · intro h' member
      have inText := Header.start_lt_brace member
      rw [atStart, byteSize_cons] at size
      omega
  have later : headers (mask (a ++ rest)) =
      h :: more ++ (headers (mask rest)).map (·.shift (byteSize (mask a))) := by
    have split : mask a = lead ++ '{' :: inner ++ ['}'] ++ ['\n'] := by simp [masked]
    have ends : EndsBlock (lead ++ '{' :: inner ++ ['}']) := Or.inr ⟨_, [], rfl, List.forall_mem_nil _⟩
    rw [tidy.mask_append, ← found, split, (ends.isParted _).headers_append]
  have shifted : declarationsFrom (mask a ++ mask rest) (byteSize lead + 1 + byteSize inner + 1)
      ((headers (mask rest)).map (·.shift (byteSize (mask a)))) =
        (outline rest).map (·.shift (byteSize (mask a))) :=
    declarationsFrom_shift _ _ fun h' _ => by omega
  rw [outline, later, List.cons_append, declarationsFrom_cons, if_neg (Nat.not_lt_zero _), tidy.mask_append,
    closes, Option.getD_some, declarationsFrom_skip inBlock, shifted, byteSize_mask]
  simp only [Header.declaration, closes]
  rfl

end SchemaDiagram
