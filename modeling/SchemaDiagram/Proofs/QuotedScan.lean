import SchemaDiagram.Proofs.ScanAppend
import SchemaDiagram.Schema.Attribute

namespace SchemaDiagram

open Text

namespace Quoting

def next : Quoting → Char → Quoting
  | .outside, c => if c = '"' then .inside else .outside
  | .inside, c => if c = '\\' then .escaped else if c = '"' then .outside else .inside
  | .escaped, _ => .inside

/-- Whether a character is part of the code here. The quotes of a string are, what they enclose is not. -/
def shows : Quoting → Char → Bool
  | .outside, _ => true
  | .inside, c => c = '"'
  | .escaped, _ => false

def after (quoting : Quoting) (t : Text) : Quoting := t.foldl next quoting

/-- Where the scanner is while a reader of parentheses is here. -/
def state : Quoting → ScanState
  | .outside => .code
  | .inside => .string
  | .escaped => .escape

theorem after_cons (quoting : Quoting) (c : Char) (t : Text) :
    quoting.after (c :: t) = (quoting.next c).after t := rfl

theorem after_append (quoting : Quoting) (a b : Text) : quoting.after (a ++ b) = (quoting.after a).after b :=
  List.foldl_append

end Quoting

/-- What of a text is not inside of strings. -/
def unquotedFrom (quoting : Quoting) : Text → Text
  | [] => []
  | c :: t =>
    if quoting.shows c then c :: unquotedFrom (quoting.next c) t else unquotedFrom (quoting.next c) t

def unquoted (t : Text) : Text := unquotedFrom .outside t

/-- Outside of strings no comment begins. -/
def CommentFree (quoting : Quoting) : Text → Prop
  | [] => True
  | c :: t =>
    (quoting = .outside → c = '/' → t.head? ≠ some '/' ∧ t.head? ≠ some '*') ∧
      CommentFree (quoting.next c) t

/-- A text that does not complete the sign of a comment. -/
def IsApart (t : Text) : Prop := t.head? ≠ some '/' ∧ t.head? ≠ some '*'

theorem isApart_cons {c : Char} (noSlash : c ≠ '/') (noStar : c ≠ '*') (t : Text) : IsApart (c :: t) :=
  ⟨fun head => noSlash (Option.some.inj head), fun head => noStar (Option.some.inj head)⟩

/-- The roles of the characters of a line without comments. -/
def quotedItems (quoting : Quoting) : Text → List (Char × Role)
  | [] => []
  | c :: t => (c, if quoting.shows c then .code else .literal) :: quotedItems (quoting.next c) t

section

variable {quoting : Quoting}

theorem commentFree_append {a b : Text} (free : CommentFree quoting a)
    (later : CommentFree (quoting.after a) b) (apart : IsApart b) : CommentFree quoting (a ++ b) := by
  induction a generalizing quoting with
  | nil => exact later
  | cons c a ih =>
    obtain ⟨here, free⟩ := free
    refine ⟨?_, ih free later⟩
    intro outside slash
    rcases a with _ | ⟨d, a⟩
    · exact apart
    · exact here outside slash

theorem CommentFree.of_append_right {a b : Text} (free : CommentFree quoting (a ++ b)) :
    CommentFree (quoting.after a) b := by
  induction a generalizing quoting with
  | nil => exact free
  | cons c a ih => exact ih free.2

theorem commentFree_of_not_mem {t : Text} (noSlash : '/' ∉ t) : CommentFree quoting t := by
  induction t generalizing quoting with
  | nil => trivial
  | cons c t ih =>
    refine ⟨fun _ slash => absurd (by simp [slash]) noSlash, ih ?_⟩
    exact fun member => noSlash (List.mem_cons_of_mem _ member)

theorem unquotedFrom_append (a b : Text) :
    unquotedFrom quoting (a ++ b) = unquotedFrom quoting a ++ unquotedFrom (quoting.after a) b := by
  induction a generalizing quoting with
  | nil => rfl
  | cons c a ih =>
    rw [List.cons_append, unquotedFrom, unquotedFrom, ih, Quoting.after_cons]
    split <;> rfl

theorem commentFree_of_unquoted {t : Text} (noLine : ¬ txt "//" <:+: unquotedFrom quoting t)
    (noBlock : ¬ txt "/*" <:+: unquotedFrom quoting t) : CommentFree quoting t := by
  induction t generalizing quoting with
  | nil => trivial
  | cons c t ih =>
    have later : unquotedFrom (quoting.next c) t <:+: unquotedFrom quoting (c :: t) := by
      rw [unquotedFrom]
      split
      · exact (List.suffix_cons c _).isInfix
      · exact List.infix_refl _
    refine ⟨?_, ih (fun sign => noLine (sign.trans later)) (fun sign => noBlock (sign.trans later))⟩
    rintro rfl rfl
    -- a sign of a comment would also be one with the strings taken out
    have shown (d : Char) (head : t.head? = some d) :
        ['/', d] <:+: unquotedFrom .outside ('/' :: t) := by
      obtain ⟨t, rfl⟩ := List.head?_eq_some_iff.mp head
      exact ⟨[], _, rfl⟩
    exact ⟨fun head => noLine (shown '/' head), fun head => noBlock (shown '*' head)⟩

/-- In a string every text without quotes is part of the string. -/
theorem commentFree_inside {t : Text} (within : quoting ≠ .outside) (noQuote : '"' ∉ t) :
    CommentFree quoting t ∧ quoting.after t ≠ .outside := by
  induction t generalizing quoting with
  | nil => exact ⟨trivial, within⟩
  | cons c t ih =>
    have noEnd : quoting.next c ≠ .outside := by
      have other : c ≠ '"' := fun quote => noQuote (by simp [quote])
      cases quoting with
      | outside => exact absurd rfl within
      | inside => by_cases escape : c = '\\' <;> simp [Quoting.next, escape, other]
      | escaped => simp [Quoting.next]
    obtain ⟨free, still⟩ := ih noEnd fun member => noQuote (List.mem_cons_of_mem _ member)
    exact ⟨⟨fun outside => absurd outside within, free⟩, still⟩

theorem mem_of_mem_unquotedFrom {t : Text} {c : Char} (member : c ∈ unquotedFrom quoting t) : c ∈ t := by
  induction t generalizing quoting with
  | nil => cases member
  | cons d t ih =>
    rw [unquotedFrom] at member
    split at member
    · rcases List.mem_cons.mp member with rfl | later
      · exact List.mem_cons_self
      · exact List.mem_cons_of_mem _ (ih later)
    · exact List.mem_cons_of_mem _ (ih member)

theorem unquotedFrom_inside {t : Text} (within : quoting ≠ .outside) (noQuote : '"' ∉ t) :
    unquotedFrom quoting t = [] := by
  induction t generalizing quoting with
  | nil => rfl
  | cons c t ih =>
    obtain ⟨other, later⟩ := not_or.mp (mt List.mem_cons.mpr noQuote)
    have hidden : quoting.shows c = false := by
      cases quoting with
      | outside => exact absurd rfl within
      | inside => simpa [Quoting.shows] using Ne.symm other
      | escaped => rfl
    have still : quoting.next c ≠ .outside :=
      (commentFree_inside within (t := [c]) (by simpa using other)).2
    rw [unquotedFrom, hidden, if_neg Bool.false_ne_true, ih still later]

theorem after_of_not_mem {t : Text} (noQuote : '"' ∉ t) : Quoting.after .outside t = .outside := by
  induction t with
  | nil => rfl
  | cons c t ih =>
    have other : c ≠ '"' := fun quote => noQuote (by simp [quote])
    rw [Quoting.after_cons, show Quoting.next .outside c = .outside by simp [Quoting.next, other]]
    exact ih fun member => noQuote (List.mem_cons_of_mem _ member)

/-- Where no comment begins, the scanner does what a reader of strings does. -/
theorem ScanState.step_state {lineBlank : Bool} {c : Char} {t : Text} (inLine : c ≠ '\n')
    (noSign : quoting = .outside → c = '/' → IsApart t) :
    quoting.state.step lineBlank c t =
      (if quoting.shows c then .code else .literal, (quoting.next c).state) := by
  cases quoting with
  | outside =>
    by_cases quote : c = '"'
    · simp [Quoting.state, Quoting.shows, Quoting.next, step, quote]
    have stays : Quoting.next .outside c = .outside := by simp [Quoting.next, quote]
    by_cases slash : c = '/'
    · obtain ⟨noLine, noBlock⟩ := noSign rfl slash
      subst slash
      rw [stays]
      exact step_code_slash noLine noBlock
    · rw [stays]
      exact step_code_plain quote slash
  | inside =>
    by_cases quote : c = '"'
    · simp [Quoting.state, Quoting.shows, Quoting.next, step, quote]
    · by_cases escape : c = '\\' <;>
        simp [Quoting.state, Quoting.shows, Quoting.next, step, quote, inLine, escape]
  | escaped => simp [Quoting.state, Quoting.shows, Quoting.next, step, inLine]

theorem scanFrom_append_commentFree {u rest : Text} (free : CommentFree quoting u) (inLine : '\n' ∉ u)
    (apart : IsApart rest) (lineBlank : Bool) :
    ∃ lineBlank', scanFrom quoting.state lineBlank (u ++ rest) =
        quotedItems quoting u ++ scanFrom (quoting.after u).state lineBlank' rest ∧
      scanEnd quoting.state lineBlank (u ++ rest) = scanEnd (quoting.after u).state lineBlank' rest := by
  induction u generalizing quoting lineBlank with
  | nil => exact ⟨lineBlank, rfl, rfl⟩
  | cons c u ih =>
    obtain ⟨here, free⟩ := free
    obtain ⟨other, later⟩ := not_or.mp (mt List.mem_cons.mpr inLine)
    have step : quoting.state.step lineBlank c (u ++ rest) =
        (if quoting.shows c then .code else .literal, (quoting.next c).state) := by
      refine ScanState.step_state (Ne.symm other) ?_
      intro outside slash
      rcases u with _ | ⟨d, u⟩
      · exact apart
      · exact here outside slash
    obtain ⟨lineBlank', items, ends⟩ := ih free later (lineBlankAfter lineBlank c)
    refine ⟨lineBlank', ?_, ?_⟩
    · rw [List.cons_append, scanFrom_cons, step, items]
      rfl
    · rw [List.cons_append, scanEnd, step, ends]
      rfl

theorem step_state_newline (lineBlank : Bool) (t : Text) :
    quoting.state.step lineBlank '\n' t = (.code, .code) := by
  cases quoting <;> simp [Quoting.state, ScanState.step]

end

/-- A row is a line without comments, and its strings end with it. -/
theorem scan_row {u : Text} (free : CommentFree .outside u) (inLine : '\n' ∉ u) :
    scan (u ++ ['\n']) = quotedItems .outside u ++ [('\n', .code)] ∧ Tidy (u ++ ['\n']) := by
  have apart : IsApart ['\n'] := ⟨by decide, by decide⟩
  obtain ⟨lineBlank, items, ends⟩ := scanFrom_append_commentFree free inLine apart true
  rw [scanFrom_cons, step_state_newline] at items
  rw [scanEnd, step_state_newline] at ends
  exact ⟨items, Or.inr ⟨u, rfl⟩, ends⟩

theorem flatMap_quotedItems (quoting : Quoting) (t : Text) :
    (quotedItems quoting t).flatMap (showOnly (· ≠ .comment)) = t := by
  induction t generalizing quoting with
  | nil => rfl
  | cons c t ih =>
    rw [quotedItems, List.flatMap_cons, ih, showOnly_kept (by split <;> rfl)]
    rfl

theorem strip_append_commentFree {u rest : Text} (free : CommentFree .outside u) (inLine : '\n' ∉ u)
    (apart : IsApart rest) :
    ∃ state lineBlank,
      strip (u ++ rest) = u ++ (scanFrom state lineBlank rest).flatMap (showOnly (· ≠ .comment)) := by
  obtain ⟨lineBlank, items, -⟩ := scanFrom_append_commentFree free inLine apart true
  have whole : scan (u ++ rest) =
      quotedItems .outside u ++ scanFrom (Quoting.after .outside u).state lineBlank rest := items
  refine ⟨(Quoting.after .outside u).state, lineBlank, ?_⟩
  rw [strip, whole, List.flatMap_append, flatMap_quotedItems]

theorem strip_row {u : Text} (free : CommentFree .outside u) (inLine : '\n' ∉ u) :
    strip (u ++ ['\n']) = u ++ ['\n'] := by
  rw [strip, (scan_row free inLine).1, List.flatMap_append, flatMap_quotedItems]
  rfl

/-- Masking a row leaves spaces where its strings are. -/
theorem mem_mask_row {u : Text} (free : CommentFree .outside u) (inLine : '\n' ∉ u) {c : Char}
    (noSpace : c ≠ ' ') (member : c ∈ mask (u ++ ['\n'])) : c ∈ unquoted u ∨ c = '\n' := by
  have shown (quoting : Quoting) (t : Text) (oneLine : '\n' ∉ t)
      (member : c ∈ (quotedItems quoting t).flatMap (showOnly (· = .code))) : c ∈ unquotedFrom quoting t := by
    induction t generalizing quoting with
    | nil => cases member
    | cons d t ih =>
      obtain ⟨other, later⟩ := not_or.mp (mt List.mem_cons.mpr oneLine)
      rw [quotedItems, List.flatMap_cons, List.mem_append] at member
      rw [unquotedFrom]
      by_cases shows : quoting.shows d
      · rw [if_pos shows, showOnly_kept rfl, List.mem_singleton] at member
        rw [if_pos shows, List.mem_cons]
        exact member.imp id (ih (quoting.next d) later)
      · rw [if_neg shows, showOnly_blanked rfl (Ne.symm other)] at member
        rw [if_neg shows]
        rcases member with space | member
        · exact absurd (List.eq_of_mem_replicate space) noSpace
        · exact ih (quoting.next d) later member
  rw [mask, (scan_row free inLine).1, List.flatMap_append, List.mem_append] at member
  rcases member with member | newline
  · exact Or.inl (shown .outside u inLine member)
  · exact Or.inr (by simpa using newline)

/-- A line without quotes and slashes is all code. -/
theorem mask_plain {u : Text} (noQuote : '"' ∉ u) (noSlash : '/' ∉ u) (inLine : '\n' ∉ u) :
    mask (u ++ ['\n']) = u ++ ['\n'] := by
  have kept (t : Text) (noQuote : '"' ∉ t) :
      (quotedItems .outside t).flatMap (showOnly (· = .code)) = t := by
    induction t with
    | nil => rfl
    | cons c t ih =>
      obtain ⟨other, later⟩ := not_or.mp (mt List.mem_cons.mpr noQuote)
      have stays : Quoting.next .outside c = .outside := by simp [Quoting.next, Ne.symm other]
      rw [quotedItems, stays, List.flatMap_cons, ih later, showOnly_kept rfl]
      rfl
  rw [mask, (scan_row (commentFree_of_not_mem noSlash) inLine).1, List.flatMap_append, kept u noQuote]
  rfl

end SchemaDiagram
