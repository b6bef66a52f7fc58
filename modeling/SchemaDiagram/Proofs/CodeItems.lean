import SchemaDiagram.Proofs.BodyExchange
import SchemaDiagram.Proofs.LineTails

namespace SchemaDiagram

open Text

/-- A text that is all code. -/
def asCode (u : Text) : List (Char × Role) := u.map (·, .code)

@[simp] theorem written_asCode (u : Text) : written (asCode u) = u := by
  simp [written, asCode, Function.comp_def]

theorem asCode_append (u v : Text) : asCode (u ++ v) = asCode u ++ asCode v := List.map_append

theorem showOnly_asCode {keep : Role → Bool} (kept : keep .code = true) (u : Text) :
    (asCode u).flatMap (showOnly keep) = u := by
  induction u with
  | nil => rfl
  | cons c u ih =>
    rw [asCode, List.map_cons, List.flatMap_cons, showOnly_kept kept, show u.map (·, Role.code) = asCode u from rfl, ih]
    rfl

@[simp] theorem masked_asCode (u : Text) : masked (asCode u) = u := showOnly_asCode rfl u

@[simp] theorem stripped_asCode (u : Text) : stripped (asCode u) = u := showOnly_asCode rfl u

@[simp] theorem stripped_nil : stripped [] = [] := rfl

@[simp] theorem masked_newline (role : Role) (items : List (Char × Role)) :
    masked (('\n', role) :: items) = '\n' :: masked items := by
  rw [masked, List.flatMap_cons, showOnly_newline]
  rfl

@[simp] theorem stripped_newline (role : Role) (items : List (Char × Role)) :
    stripped (('\n', role) :: items) = '\n' :: stripped items := by
  rw [stripped_cons, showOnly_newline]
  rfl

theorem exists_newline {items : List (Char × Role)} (member : '\n' ∈ written items) :
    ∃ earlier role later, items = earlier ++ ('\n', role) :: later ∧ '\n' ∉ written earlier := by
  obtain ⟨u, v, split, inLine⟩ := List.eq_append_cons_of_mem member
  obtain ⟨earlier, rest, rfl, rfl, more⟩ := List.map_eq_append_iff.mp split
  obtain ⟨⟨c, role⟩, later, rfl, rfl, rfl⟩ := List.map_eq_cons_iff.mp more
  exact ⟨earlier, role, later, rfl, inLine⟩

/-- One line without braces, strings and the signs that open a comment. -/
structure IsPlainLine (line : Text) : Prop where
  inLine : '\n' ∉ line
  noQuote : '"' ∉ line
  noBrace : '{' ∉ line ∧ '}' ∉ line
  noLine : ¬ txt "//" <:+: line
  noBlock : ¬ txt "/*" <:+: line

theorem unquoted_of_not_mem {u : Text} (noQuote : '"' ∉ u) : unquoted u = u := by
  induction u with
  | nil => rfl
  | cons c u ih =>
    obtain ⟨other, later⟩ := List.ne_and_not_mem_of_not_mem_cons noQuote
    have stays : Quoting.next .outside c = .outside := by simp [Quoting.next, other.symm]
    rw [unquoted, unquotedFrom, stays, show Quoting.shows .outside c = true from rfl, if_pos rfl,
      show unquotedFrom .outside u = unquoted u from rfl, ih later]

theorem IsPlainLine.commentFree {line : Text} (plain : IsPlainLine line) : CommentFree .outside line := by
  have whole : unquotedFrom .outside line = line := unquoted_of_not_mem plain.noQuote
  refine commentFree_of_unquoted ?_ ?_
  · rw [whole]
    exact plain.noLine
  · rw [whole]
    exact plain.noBlock

/-- Where neither a string nor a comment begins, the scanner stays in code. -/
theorem ScanState.step_commentFree {c : Char} {u v : Text} (other : c ≠ '"') (free : CommentFree .outside (c :: u))
    (apart : IsApart v) (lineBlank : Bool) : code.step lineBlank c (u ++ v) = (.code, .code) := by
  by_cases slash : c = '/'
  · subst slash
    have noSign : IsApart (u ++ v) := by
      cases u with
      | nil => exact apart
      | cons d u => exact free.1 rfl rfl
    exact step_code_slash noSign.1 noSign.2
  · exact step_code_plain other slash

/-- A text without quotes and comments is code up to its end. -/
theorem scanFrom_code {u v : Text} (noQuote : '"' ∉ u) (free : CommentFree .outside u) (apart : IsApart v)
    (lineBlank : Bool) :
    scanFrom .code lineBlank (u ++ v) = asCode u ++ scanFrom .code (blankAfter lineBlank u) v := by
  induction u generalizing lineBlank with
  | nil => rfl
  | cons c u ih =>
    obtain ⟨other, later⟩ := List.ne_and_not_mem_of_not_mem_cons noQuote
    have stays : Quoting.next .outside c = .outside := by simp [Quoting.next, other.symm]
    have step := ScanState.step_commentFree other.symm free apart lineBlank
    have more := free.2
    rw [stays] at more
    rw [List.cons_append, scanFrom_cons, step, ih later more]
    rfl

theorem scanEnd_code {u : Text} (noQuote : '"' ∉ u) (free : CommentFree .outside u) (lineBlank : Bool) :
    scanEnd .code lineBlank u = .code := by
  induction u generalizing lineBlank with
  | nil => rfl
  | cons c u ih =>
    obtain ⟨other, later⟩ := List.ne_and_not_mem_of_not_mem_cons noQuote
    have stays : Quoting.next .outside c = .outside := by simp [Quoting.next, other.symm]
    have step := ScanState.step_commentFree (v := []) other.symm free ⟨by simp, by simp⟩ lineBlank
    have more := free.2
    rw [stays] at more
    rw [List.append_nil] at step
    rw [scanEnd, step]
    exact ih later more _

theorem scanFrom_blanks {gap v : Text} (blank : ∀ c ∈ gap, isBlank c) (apart : IsApart v) (lineBlank : Bool) :
    scanFrom .code lineBlank (gap ++ v) = asCode gap ++ scanFrom .code (blankAfter lineBlank gap) v :=
  scanFrom_code (not_mem_of_blank blank (by decide)) (commentFree_of_not_mem (not_mem_of_blank blank (by decide))) apart
    lineBlank

theorem scanFrom_newline (lineBlank : Bool) (v : Text) :
    scanFrom .code lineBlank ('\n' :: v) = ('\n', .code) :: scanFrom .code true v := rfl

/-- An indented line is code, and so is what stands behind it. -/
theorem IsPlainLine.scanFrom_line {line lead : Text} (plain : IsPlainLine line) (blank : ∀ c ∈ lead, isBlank c)
    (begins : IsApart line) {v : Text} (apart : IsApart v) (lineBlank : Bool) :
    scanFrom .code lineBlank (lead ++ line ++ v) =
      asCode (lead ++ line) ++ scanFrom .code (blankAfter lineBlank (lead ++ line)) v := by
  have noQuote : '"' ∉ lead := not_mem_of_blank blank (by decide)
  refine scanFrom_code (fun member => (List.mem_append.mp member).elim noQuote plain.noQuote) ?_ apart lineBlank
  refine commentFree_append (commentFree_of_not_mem (not_mem_of_blank blank (by decide))) ?_ begins
  rw [after_of_not_mem noQuote]
  exact plain.commentFree

theorem isApart_of_parseField {line : Text} {g : Field} (read : parseField line = some g) : IsApart line := by
  obtain ⟨c, rest, rfl, letter⟩ := parseField_head read
  constructor <;> intro head <;> rw [Option.some.inj head] at letter <;> exact absurd letter (by decide)

/-- A text without the sign that closes a comment leaves it open. -/
theorem scanFrom_blockComment {u v : Text} (noEnd : ¬ txt "*/" <:+: u) (apart : v.head? ≠ some '/') (lineBlank : Bool) :
    scanFrom .blockComment lineBlank (u ++ v) =
      u.map (·, .comment) ++ scanFrom .blockComment (blankAfter lineBlank u) v := by
  induction u generalizing lineBlank with
  | nil => rfl
  | cons c u ih =>
    have step : ScanState.blockComment.step lineBlank c (u ++ v) = (.comment, .blockComment) := by
      refine Prod.ext rfl (if_neg ?_)
      rintro ⟨rfl, slash⟩
      cases u with
      | nil => exact apart slash
      | cons d u =>
        obtain rfl : d = '/' := Option.some.inj slash
        exact noEnd ⟨[], u, rfl⟩
    rw [List.cons_append, scanFrom_cons, step, ih fun inside => noEnd (inside.trans (List.suffix_cons c u).isInfix)]
    rfl

/-- A scan that is cut behind a visible character of the code. -/
theorem scanFrom_behind {state : ScanState} {lineBlank : Bool} {t : Text} {earlier later : List (Char × Role)} {c : Char}
    (fits : state.Fits t) (items : scanFrom state lineBlank t = earlier ++ (c, .code) :: later)
    (visible : isBlank c = false) (noQuote : c ≠ '"') (noSlash : c ≠ '/') (noStar : c ≠ '*') :
    later = scanFrom .code false (written later) ∧
      ∀ rest, scanFrom state lineBlank (written earlier ++ c :: rest) = earlier ++ (c, .code) :: scanFrom .code false rest := by
  have inLine : c ≠ '\n' := by
    rintro rfl
    cases visible
  obtain ⟨here, fitsHere, atLater, -, recut⟩ := scanFrom_cut fits items
  have dark : lineBlankAfter (blankAfter lineBlank (written earlier)) c = false := by
    simp [lineBlankAfter, inLine, visible]
  have role : Role.code = (here.step _ c _).1 := (Prod.mk.inj (List.cons_eq_cons.mp atLater).1).2
  obtain rfl : here = .code := fitsHere.eq_code_of_role role.symm noQuote inLine
  have after (rest : Text) : scanFrom .code (blankAfter lineBlank (written earlier)) (c :: rest) =
      (c, .code) :: scanFrom .code false rest := by
    rw [scanFrom_cons, ScanState.step_code_plain noQuote noSlash, dark]
  constructor
  · rw [written_cons, after] at atLater
    exact (List.cons_eq_cons.mp atLater).2
  · intro rest
    rw [recut _ (isApart_cons noSlash noStar _) (isApart_cons noSlash noStar rest)
      (fun role inComment => by cases inComment), after]

theorem prefix_append_cases {part u v : Text} (before : part <+: u ++ v) :
    part <+: u ∨ ∃ later, part = u ++ later ∧ later <+: v := by
  obtain ⟨rest, whole⟩ := before
  rcases List.append_eq_append_iff.mp whole with ⟨more, rfl, -⟩ | ⟨later, rfl, atEnd⟩
  · exact Or.inl (List.prefix_append part more)
  · exact Or.inr ⟨later, rfl, rest, atEnd.symm⟩

theorem noBrace_of_blank {u : Text} (blank : ∀ c ∈ u, isBlank c) : '{' ∉ u ∧ '}' ∉ u :=
  ⟨not_mem_of_blank blank (by decide), not_mem_of_blank blank (by decide)⟩

theorem paired_of_blank {u : Text} (blank : ∀ c ∈ u, isBlank c) : u.count '{' = u.count '}' := by
  obtain ⟨opening, closing⟩ := noBrace_of_blank blank
  rw [List.count_eq_zero.mpr opening, List.count_eq_zero.mpr closing]

/-- In the body of a block a part whose braces pair up can be exchanged for a text without braces. -/
theorem IsBlockBody.exchange {a b b' c : Text} (block : IsBlockBody (a ++ (b ++ c)))
    (paired : b.count '{' = b.count '}') (noBrace : '{' ∉ b' ∧ '}' ∉ b') : IsBlockBody (a ++ (b' ++ c)) := by
  have none {u : Text} (part : u <+: b') : u.count '{' = 0 ∧ u.count '}' = 0 :=
    ⟨List.count_eq_zero.mpr fun member => noBrace.1 (part.subset member),
      List.count_eq_zero.mpr fun member => noBrace.2 (part.subset member)⟩
  obtain ⟨opening, closing⟩ := none List.prefix_rfl
  constructor
  · intro part before
    rcases prefix_append_cases before with inFront | ⟨later, rfl, behind⟩
    · exact block.stays part (inFront.trans (List.prefix_append a _))
    · rcases prefix_append_cases behind with inLine | ⟨rest, rfl, atEnd⟩
      · have here := block.stays a (List.prefix_append a _)
        obtain ⟨noOpening, noClosing⟩ := none inLine
        simp only [List.count_append]
        omega
      · have here := block.stays (a ++ (b ++ rest))
          (List.prefix_append_right_inj a |>.mpr (List.prefix_append_right_inj b |>.mpr atEnd))
        simp only [List.count_append] at here ⊢
        omega
  · have balance := block.balance
    simp only [List.count_append] at balance ⊢
    omega

end SchemaDiagram
