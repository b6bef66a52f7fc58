import SchemaDiagram.Proofs.CommentSearch
import SchemaDiagram.Proofs.DeclaredLine

namespace SchemaDiagram

open Text

/-- Whether the scanner is inside of a comment. -/
def ScanState.inComment : ScanState → Bool
  | .lineComment role => role = .comment
  | .commentOpening | .blockComment | .commentClosing => true
  | .code | .string | .escape => false

/-- The part of a scanned line in front of its first comment. -/
def codePart (line : List (Char × Role)) : List (Char × Role) := line.takeWhile (·.2 ≠ .comment)

/-- The part of a scanned line from its first comment on. -/
def commentPart (line : List (Char × Role)) : List (Char × Role) := line.dropWhile (·.2 ≠ .comment)

theorem codePart_append_commentPart (line : List (Char × Role)) : codePart line ++ commentPart line = line :=
  List.takeWhile_append_dropWhile

theorem commentPart_cons_of_ne {item : Char × Role} (other : item.2 ≠ .comment) (line : List (Char × Role)) :
    commentPart (item :: line) = commentPart line :=
  List.dropWhile_cons_of_pos (by simpa using other)

theorem commentPart_comment (c : Char) (line : List (Char × Role)) :
    commentPart ((c, .comment) :: line) = (c, .comment) :: line :=
  List.dropWhile_cons_of_neg (by simp)

/-- The first character from there on belongs to a comment. -/
theorem commentPart_cases (line : List (Char × Role)) :
    commentPart line = [] ∨ ∃ c comments, commentPart line = (c, .comment) :: comments := by
  induction line with
  | nil => exact Or.inl rfl
  | cons item line ih =>
    obtain ⟨c, role⟩ := item
    by_cases comment : role = .comment
    · subst comment
      exact Or.inr ⟨c, line, commentPart_comment c line⟩
    · rwa [commentPart_cons_of_ne comment]

/-- What an edit keeps of a line, behind a space. -/
def keptPart (line : List (Char × Role)) : List (Char × Role) :=
  if commentPart line = [] then [] else (' ', .code) :: commentPart line

/-- A comment begins in code, with a slash and its second sign. -/
theorem ScanState.step_uncommented {state : ScanState} (live : state.inComment = false) (lineBlank : Bool) (c : Char)
    (t : Text) :
    ((state.step lineBlank c t).1 ≠ .comment ∧ (state.step lineBlank c t).2.inComment = false) ∨
      (state = .code ∧ c = '/' ∧ (t.head? = some '/' ∨ t.head? = some '*') ∧ (state.step lineBlank c t).1 = .comment ∧
        code.step false '/' t = state.step lineBlank c t) := by
  cases state with
  | code =>
    by_cases quote : c = '"'
    · exact Or.inl (by simp [step, quote, inComment])
    by_cases plain : c ≠ '/'
    · exact Or.inl (by simp [step_code_plain quote plain, inComment])
    obtain rfl : c = '/' := Decidable.not_not.mp plain
    by_cases line : t.head? = some '/'
    · obtain ⟨more, rfl⟩ := List.head?_eq_some_iff.mp line
      by_cases separator : lineCommentRole lineBlank '/' ('/' :: more) = .separator
      · exact Or.inl (by simp [step, separator, inComment])
      · have isComment : lineCommentRole lineBlank '/' ('/' :: more) = .comment := by
          unfold lineCommentRole at separator ⊢
          split at separator
          · exact absurd rfl separator
          · rename_i noSeparator
            exact if_neg noSeparator
        refine Or.inr ⟨rfl, rfl, Or.inl rfl, by simp [step, isComment], ?_⟩
        simp only [step, isComment]
        rfl
    by_cases block : t.head? = some '*'
    · obtain ⟨more, rfl⟩ := List.head?_eq_some_iff.mp block
      exact Or.inr ⟨rfl, rfl, Or.inr rfl, rfl, rfl⟩
    · exact Or.inl (by simp [step_code_slash line block, inComment])
  | string =>
    simp only [step]
    split
    · exact Or.inl ⟨by decide, rfl⟩
    · refine Or.inl ⟨show Role.literal ≠ .comment by decide, ?_⟩
      split <;> rfl
  | escape =>
    simp only [step]
    split <;> exact Or.inl ⟨by decide, rfl⟩
  | lineComment role =>
    simp only [step]
    split
    · exact Or.inl ⟨by decide, rfl⟩
    · exact Or.inl ⟨by simpa [inComment] using live, live⟩
  | commentOpening | blockComment | commentClosing => cases live

section

variable {state : ScanState} {lineBlank : Bool} {t : Text} {line rest : List (Char × Role)} (live : state.inComment = false)

include live

/-- Behind a part without comments the scanner is in no comment. -/
theorem scanFrom_uncommented (fits : state.Fits t) (items : scanFrom state lineBlank t = line ++ rest)
    (noComment : ∀ item ∈ line, item.2 ≠ .comment) :
    ∃ here : ScanState, here.inComment = false ∧ here.Fits (written rest) ∧
      rest = scanFrom here (blankAfter lineBlank (written line)) (written rest) := by
  induction line generalizing state lineBlank t with
  | nil =>
    obtain rfl : rest = scanFrom state lineBlank t := items.symm
    rw [written_scanFrom]
    exact ⟨state, live, fits, rfl⟩
  | cons item line ih =>
    rcases t with _ | ⟨c, t⟩
    · cases items
    rw [scanFrom_cons, List.cons_append] at items
    obtain ⟨rfl, more⟩ := List.cons_eq_cons.mp items
    obtain ⟨other, later⟩ := List.forall_mem_cons.mp noComment
    rcases ScanState.step_uncommented live lineBlank c t with ⟨-, stays⟩ | ⟨-, -, -, comment, -⟩
    · exact ih stays (fits.step lineBlank) more later
    · exact absurd comment other

/-- A comment is read in the same way wherever it begins. -/
theorem scanFrom_comment {c : Char} (items : scanFrom state lineBlank t = (c, .comment) :: rest) :
    scanFrom .code false t = (c, .comment) :: rest := by
  rcases t with _ | ⟨d, t⟩
  · cases items
  rw [scanFrom_cons] at items
  obtain ⟨atHead, later⟩ := List.cons_eq_cons.mp items
  obtain ⟨rfl, role⟩ := Prod.mk.inj atHead
  rcases ScanState.step_uncommented live lineBlank d t with ⟨other, -⟩ | ⟨rfl, rfl, -, -, same⟩
  · exact absurd role other
  · rw [scanFrom_cons, same, role, ← later]
    simp [lineBlankAfter, isBlank]

/-- The comment that ends a line is found where the first character of a comment stands. -/
theorem trailingComment_items (items : scanFrom state lineBlank t = line ++ rest) (apart : IsApart (written rest))
    (ascii : ∀ c ∈ written line, isAscii c) :
    trailingComment (written line) (stripped line) =
      .ok (if commentPart line = [] then none else some (trimEnd (written (commentPart line)))) := by
  induction line generalizing state lineBlank t with
  | nil => rfl
  | cons item line ih =>
    rcases t with _ | ⟨c, t⟩
    · cases items
    rw [scanFrom_cons, List.cons_append] at items
    obtain ⟨rfl, more⟩ := List.cons_eq_cons.mp items
    obtain ⟨one, later⟩ := List.forall_mem_cons.mp ascii
    rcases ScanState.step_uncommented live lineBlank c t with ⟨other, stays⟩ | ⟨-, rfl, sign, comment, -⟩
    · have apartHere : (beginsComment (c :: written line) && decide (some c = some ' ')) = false := by
        refine Bool.eq_false_iff.mpr fun both => ?_
        obtain ⟨begins, space⟩ := Bool.and_eq_true_iff.mp both
        rw [eq_slash_of_beginsComment begins] at space
        exact absurd space (by decide)
      rw [commentPart_cons_of_ne other, written_cons, stripped_cons_kept other, trailingComment,
        List.head?_cons, apartHere, if_neg Bool.false_ne_true, if_pos (utf8Size_of_isAscii one), List.tail_cons]
      exact ih stays more later
    · have whole : t = written line ++ written rest := by
        rw [← written_append, ← more, written_scanFrom]
      have begins : beginsComment ('/' :: written line) := by
        rcases line with _ | ⟨item, line⟩
        · rw [whole, written_nil, List.nil_append] at sign
          exact absurd sign (not_or.mpr apart)
        · rw [whole, written_cons, List.cons_append, List.head?_cons, Option.some_inj, Option.some_inj] at sign
          rcases sign with slash | star
          · simp [beginsComment, slash, txt]
          · simp [beginsComment, star, txt]
      have space : stripped (('/', Role.comment) :: line) = ' ' :: stripped line := by
        rw [stripped_cons_comment (by decide)]
        rfl
      rw [comment, commentPart_comment, if_neg (by simp), space, written_cons, trailingComment,
        List.head?_cons, begins]
      rfl

end

/-- What is shown at the end of a masked text, and is neither a space nor a newline, is code. -/
theorem asCode_split {items : List (Char × Role)} {u v : Text} (shown : masked items = u ++ v)
    (ends : ∀ c ∈ v, c ≠ ' ' ∧ c ≠ '\n') : ∃ front, items = front ++ asCode v ∧ masked front = u := by
  induction v generalizing items u with
  | nil => exact ⟨items, by simp [asCode], by simpa using shown⟩
  | cons c v ih =>
    obtain ⟨⟨noSpace, inLine⟩, later⟩ := List.forall_mem_cons.mp ends
    obtain ⟨earlier, behind, rfl, rfl, rest⟩ := code_split noSpace inLine shown
    obtain ⟨gap, rfl, none⟩ := ih (u := []) rest.symm later
    have empty : gap = [] := by
      rcases gap with _ | ⟨item, gap⟩
      · rfl
      · have size := byteSize_masked (item :: gap)
        have positive := item.1.utf8Size_pos
        rw [none, written_cons, byteSize_cons, byteSize_nil] at size
        omega
    subst empty
    exact ⟨earlier, by simp [asCode], rfl⟩

/-- A line up to its carriage returns, which are code. -/
theorem exists_line_end {line : List (Char × Role)} (inLine : '\n' ∉ written line) :
    ∃ front returns, line = front ++ asCode returns ∧ masked front = dropEndWhile isLineEnd (masked line) ∧
      ∀ c ∈ returns, c = '\r' := by
  obtain ⟨returns, split, ends⟩ := dropEndWhile_split isLineEnd (masked line)
  have only : ∀ c ∈ returns, c = '\r' := by
    intro c member
    have other : c ≠ '\n' := by
      rintro rfl
      refine newline_not_mem_masked inLine ?_
      rw [split]
      exact List.mem_append_right _ member
    simpa [isLineEnd, other] using ends c member
  obtain ⟨front, whole, shown⟩ := asCode_split split fun c member => by
    rw [only c member]
    decide
  exact ⟨front, returns, whole, shown, only⟩

theorem lineBlankAfter_anew {c : Char} (stops : c = '\n' ∨ isBlank c = false) (a b : Bool) :
    lineBlankAfter a c = lineBlankAfter b c := by
  rcases stops with rfl | visible
  · rfl
  · simp [lineBlankAfter, visible]

theorem blankAfter_visible {u v : Text} {c : Char} (visible : isBlank c = false) (inLine : '\n' ∉ v) (lineBlank : Bool) :
    blankAfter lineBlank (u ++ c :: v) = false := by
  have dark (w : Text) (oneLine : '\n' ∉ w) : blankAfter false w = false := by
    induction w with
    | nil => rfl
    | cons d w ih =>
      obtain ⟨other, later⟩ := List.ne_and_not_mem_of_not_mem_cons oneLine
      rw [blankAfter, List.foldl_cons, show lineBlankAfter false d = false by simp [lineBlankAfter, other.symm]]
      exact ih later
  have here := blankAfter_concat_visible lineBlank u visible
  rw [blankAfter, List.append_cons, List.foldl_append]
  change blankAfter (blankAfter lineBlank (u ++ [c])) v = false
  rw [here, dark v inLine]

/-- The newline behind white space belongs to a comment if and only if the white space does. -/
theorem newline_role {here : ScanState} {lineBlank : Bool} {t : Text} {gap later : List (Char × Role)} {role : Role}
    (fits : here.Fits t) (items : scanFrom here lineBlank t = gap ++ ('\n', role) :: later)
    (blank : ∀ c ∈ written gap, isBlank c ∧ c ≠ '\n') :
    role = if here = .blockComment then .comment else .code := by
  induction gap generalizing here lineBlank t with
  | nil =>
    rcases t with _ | ⟨c, t⟩
    · cases items
    rw [scanFrom_cons] at items
    obtain ⟨rfl, atRole⟩ := Prod.mk.inj (List.cons_eq_cons.mp items).1
    rw [← atRole]
    cases here with
    | code | string | escape | lineComment | blockComment => rfl
    | commentOpening | commentClosing => cases fits
  | cons item gap ih =>
    rcases t with _ | ⟨c, t⟩
    · cases items
    rw [scanFrom_cons, List.cons_append] at items
    obtain ⟨rfl, more⟩ := List.cons_eq_cons.mp items
    obtain ⟨⟨white, inLine⟩, later⟩ := List.forall_mem_cons.mp blank
    have noSign {d : Char} (visible : isBlank d = false) : c ≠ d := by
      rintro rfl
      exact absurd white (by simp [visible])
    have next : (here.step lineBlank c t).2 = .blockComment ↔ here = .blockComment := by
      cases here with
      | code => simp [ScanState.step_code_plain (noSign (by decide)) (noSign (by decide))]
      | string => simp [ScanState.step, inLine, noSign (d := '"') (by decide), noSign (d := '\\') (by decide)]
      | escape => simp [ScanState.step, inLine]
      | lineComment role => simp [ScanState.step, inLine]
      | blockComment => simp [ScanState.step, noSign (d := '*') (by decide)]
      | commentOpening => exact absurd (Option.some.inj fits) (noSign (by decide))
      | commentClosing => exact absurd (Option.some.inj fits) (noSign (by decide))
    rw [ih (fits.step lineBlank) more later, if_congr next rfl rfl]

/-- What stands behind a line of a body: carriage returns, then the next line or the closing brace. -/
structure LineRest (returns : Text) (below back rest : List (Char × Role)) : Prop where
  split : rest = asCode returns ++ (below ++ ('}', .code) :: back)
  returns : ∀ c ∈ returns, c = '\r'
  ends : below = [] ∨ ∃ role later, below = ('\n', role) :: later

/-- The newline that an edit adds if nothing else parts a line from the closing brace. -/
def closingBreak (rest : Text) : Text := if rest.head? = some '}' then ['\n'] else []

theorem closingBreak_blank {rest : Text} {c : Char} (member : c ∈ closingBreak rest) : isBlank c := by
  unfold closingBreak at member
  split at member
  · rw [List.mem_singleton.mp member]
    decide
  · cases member

section

variable {returns : Text} {below back rest : List (Char × Role)} (tail : LineRest returns below back rest)

include tail

theorem LineRest.blanks : ∀ c ∈ returns, isBlank c ∧ c ≠ '\n' := by
  intro c member
  rw [tail.returns c member]
  decide

theorem LineRest.isApart {gap : List (Char × Role)} (blank : ∀ c ∈ written gap, isBlank c) :
    IsApart (written (gap ++ rest)) := by
  have first (c : Char) (head : (written (gap ++ rest)).head? = some c) : isBlank c ∨ c = '}' := by
    rw [tail.split, written_append, written_append, written_asCode, written_append] at head
    rcases atGap : written gap with _ | ⟨d, more⟩
    · rw [atGap, List.nil_append] at head
      rcases returns with _ | ⟨d, more⟩
      · rcases tail.ends with rfl | ⟨role, later, rfl⟩
        · exact Or.inr (Option.some.inj head).symm
        · obtain rfl : '\n' = c := Option.some.inj head
          exact Or.inl (by decide)
      · rw [← Option.some.inj head]
        exact Or.inl (tail.blanks d List.mem_cons_self).1
    · rw [atGap] at head
      rw [← Option.some.inj head]
      exact Or.inl (blank d (by simp [atGap]))
  constructor <;> intro head <;> exact absurd (first _ head) (by decide)

/-- Where the next line or the closing brace begins, the scanner does not care what stands on the line in front. -/
theorem LineRest.scanFrom_anew {behind : List (Char × Role)} (split : rest = asCode returns ++ behind) :
    IsApart (written behind) ∧
      ∀ a b, scanFrom .code a (written behind) = scanFrom .code b (written behind) := by
  obtain ⟨c, role, later, rfl, stops⟩ : ∃ c role later, behind = (c, role) :: later ∧ (c = '\n' ∨ c = '}') := by
    obtain rfl : behind = below ++ ('}', .code) :: back := List.append_cancel_left (split.symm.trans tail.split)
    rcases tail.ends with rfl | ⟨role, later, rfl⟩
    · exact ⟨'}', .code, back, rfl, Or.inr rfl⟩
    · exact ⟨'\n', role, _, rfl, Or.inl rfl⟩
  have plain : c ≠ '"' ∧ c ≠ '/' ∧ c ≠ '*' ∧ (c = '\n' ∨ isBlank c = false) := by
    rcases stops with rfl | rfl <;> decide
  refine ⟨isApart_cons plain.2.1 plain.2.2.1 _, fun a b => ?_⟩
  rw [written_cons, scanFrom_cons, scanFrom_cons, ScanState.step_code_plain plain.1 plain.2.1,
    ScanState.step_code_plain plain.1 plain.2.1, lineBlankAfter_anew plain.2.2.2 a b]

section

variable {here : ScanState} {lineBlank : Bool} {t : Text} {gap : List (Char × Role)} (fits : here.Fits t)
  (items : scanFrom here lineBlank t = gap ++ rest) (blank : ∀ c ∈ written gap, isBlank c ∧ c ≠ '\n')

include fits items blank

/-- If it is not the next line that follows, then the line ends in code. -/
theorem LineRest.newline_or_code :
    (returns = [] ∧ ∃ role later, below = ('\n', role) :: later) ∨ here = .code := by
  have whole : t = written (gap ++ rest) := by rw [← items, written_scanFrom]
  subst whole
  have atCode {c : Char} {later : List (Char × Role)} (noQuote : c ≠ '"') (inLine : c ≠ '\n')
      (next : rest = (c, .code) :: later) : here = .code := by
    subst next
    exact fits.eq_code items.symm blank noQuote inLine
  rcases returns with _ | ⟨c, more⟩
  · rcases tail.ends with rfl | ⟨role, later, rfl⟩
    · exact Or.inr (atCode (by decide) (by decide) tail.split)
    · exact Or.inl ⟨rfl, role, later, rfl⟩
  · obtain rfl : c = '\r' := tail.returns c List.mem_cons_self
    exact Or.inr (atCode (by decide) (by decide) tail.split)

/-- A line comment is cut off where only white space is left of its line. -/
theorem LineRest.endsAlike {role : Role} (inComment : here = .lineComment role) :
    EndsAlike (written (gap ++ rest)) (closingBreak (written rest) ++ written rest) := by
  rcases tail.newline_or_code fits items blank with ⟨rfl, role, later, rfl⟩ | inCode
  · have atRest : written rest = '\n' :: written (later ++ ('}', .code) :: back) := by
      rw [tail.split]
      rfl
    have inGap : ∀ c ∈ written gap, decide (c ≠ '\n') = true := fun c member => decide_eq_true (blank c member).2
    rw [written_append, atRest]
    refine endsAlike_of_blank (fun c member => ?_) (fun c member => ?_)
    · rw [List.takeWhile_append_of_pos inGap, List.takeWhile_cons_of_neg (by simp), List.append_nil] at member
      exact (blank c member).1
    · simp [closingBreak] at member
  · rw [inCode] at inComment
    cases inComment

/-- What stands behind a line is scanned as before if the line ends in the same state, or in code instead of a string. -/
theorem LineRest.scanFrom_break {here' : ScanState}
    (alike : here' = here ∨ here' = .code ∧ here ≠ .blockComment) (lineBlank' : Bool) :
    scanFrom here' lineBlank' (closingBreak (written rest) ++ written rest) =
      asCode (closingBreak (written rest)) ++ rest := by
  -- a newline leaves the scanner in a state that depends on its role alone, and all else that can follow is code
  rcases tail.newline_or_code fits items blank with ⟨rfl, role, later, rfl⟩ | rfl
  · have split := tail.split
    rw [show asCode [] = [] from rfl, List.nil_append, List.cons_append] at split
    have noBreak : closingBreak (written rest) = [] := by
      rw [split]
      exact if_neg (by simp)
    rw [noBreak, split, List.nil_append, written_cons]
    rw [split] at items
    have atRole := newline_role fits items blank
    have atLater := (scanFrom_cut_newline fits items).1
    have apart := tail.isApart fun c member => (blank c member).1
    rw [split, ← items, written_scanFrom] at apart
    have step (rest : Text) : here'.step lineBlank' '\n' rest = (role, lineStartState role) := by
      rw [atRole]
      rcases alike with rfl | ⟨rfl, noBlock⟩
      · cases here' with
        | code | string | escape | lineComment | blockComment => rfl
        | commentOpening => exact absurd fits apart.2
        | commentClosing => exact absurd fits apart.1
      · rw [if_neg noBlock]
        rfl
    rw [scanFrom_cons, step]
    exact congrArg (_ :: ·) atLater.symm
  · obtain rfl : here' = .code := alike.elim id And.left
    obtain ⟨behind, split⟩ : ∃ behind, rest = asCode returns ++ behind := ⟨_, tail.split⟩
    obtain ⟨apart, anew⟩ := tail.scanFrom_anew split
    have atCode {u : Text} (white : ∀ c ∈ u, isBlank c) (lineBlank : Bool) :
        scanFrom .code lineBlank (u ++ returns ++ written behind) =
          asCode (u ++ returns) ++ scanFrom .code true (written behind) := by
      rw [scanFrom_blanks _ apart, anew _ true]
      intro c member
      rcases List.mem_append.mp member with inFront | inReturns
      · exact white c inFront
      · exact (tail.blanks c inReturns).1
    have whole : t = written gap ++ returns ++ written behind := by
      rw [← written_scanFrom .code lineBlank t, items, split]
      simp
    have before := atCode (fun c member => (blank c member).1) lineBlank
    rw [← whole, items, split, ← List.append_assoc] at before
    have atBehind : behind = scanFrom .code true (written behind) :=
      (List.append_inj before (by simp [asCode, written])).2
    have after := atCode (u := closingBreak (written rest)) (fun c member => closingBreak_blank member) lineBlank'
    rw [← atBehind] at after
    simpa [split, asCode_append] using after

end

theorem LineRest.isApart_break : IsApart (closingBreak (written rest) ++ written rest) := by
  have apart : IsApart (written (asCode (closingBreak (written rest)) ++ rest)) := tail.isApart fun c member => by
    rw [written_asCode] at member
    exact closingBreak_blank member
  rwa [written_append, written_asCode] at apart

/-- The comment of a line and what stands behind the line are scanned behind other code as they were. -/
theorem LineRest.scanFrom_kept {lineBlank : Bool} {t : Text} {line : List (Char × Role)} (inLine : '\n' ∉ written line)
    (items : scanFrom .code lineBlank t = line ++ rest) :
    ∃ shown gap, keptPart line = shown ++ gap ∧ (∀ c ∈ written gap, isBlank c) ∧
      written shown = (if commentPart line = [] then [] else ' ' :: trimEnd (written (commentPart line))) ∧
      scanFrom .code false (written shown ++ (closingBreak (written rest) ++ written rest)) =
        shown ++ (asCode (closingBreak (written rest)) ++ rest) := by
  have parts := codePart_append_commentPart line
  have uncommented : ∀ item ∈ codePart line, item.2 ≠ .comment := fun item member => by
    simpa using List.mem_takeWhile_imp member
  rw [← parts, List.append_assoc] at items
  obtain ⟨here, live, fits, atHere⟩ :=
    scanFrom_uncommented (show ScanState.code.inComment = false from rfl) (ScanState.fits_code t) items
      uncommented
  rw [keptPart]
  rcases commentPart_cases line with none | ⟨c, comments, some⟩
  · rw [none, List.nil_append] at atHere fits
    have noBlock : here ≠ .blockComment := by
      rintro rfl
      cases live
    refine ⟨[], [], by simp [none], List.forall_mem_nil _, by simp [none], ?_⟩
    have atRest : rest = [] ++ rest := rfl
    exact tail.scanFrom_break fits (atHere.symm.trans atRest) (List.forall_mem_nil _) (Or.inr ⟨rfl, noBlock⟩) false
  · have atComment : scanFrom .code false (written (commentPart line ++ rest)) = commentPart line ++ rest := by
      rw [some, List.cons_append] at atHere ⊢
      exact scanFrom_comment live atHere.symm
    obtain ⟨blanks, split, white⟩ := dropEndWhile_split isBlank (written (commentPart line))
    obtain ⟨kept, gap, whole, atKept, rfl⟩ := List.map_eq_append_iff.mp split
    change written kept = trimEnd (written (commentPart line)) at atKept
    change ∀ c ∈ written gap, isBlank c at white
    have oneLine : '\n' ∉ written gap := by
      intro member
      refine inLine ?_
      rw [← parts, whole, written_append, written_append]
      exact List.mem_append_right _ (List.mem_append_right _ member)
    have blank : ∀ c ∈ written gap, isBlank c ∧ c ≠ '\n' :=
      fun c member => ⟨white c member, fun same => oneLine (same ▸ member)⟩
    have nonempty : commentPart line ≠ [] := by simp [some]
    rw [if_neg nonempty, if_neg nonempty, ← atKept]
    rw [whole, List.append_assoc] at atComment
    obtain ⟨here', fits', atGap, -, recut⟩ := scanFrom_cut (ScanState.fits_code _) atComment
    refine ⟨(' ', .code) :: kept, gap, by rw [whole, List.cons_append], white, rfl, ?_⟩
    rw [written_cons, List.cons_append, scanFrom_cons, ScanState.step_code_plain (by decide) (by decide),
      show lineBlankAfter false ' ' = false by decide,
      recut _ (tail.isApart white) tail.isApart_break fun role => tail.endsAlike fits' atGap.symm blank,
      tail.scanFrom_break fits' atGap.symm blank (Or.inl rfl)]
    rfl

end

end SchemaDiagram
