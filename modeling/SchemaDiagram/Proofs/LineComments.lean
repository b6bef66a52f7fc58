import SchemaDiagram.Proofs.ScanOffsets
import SchemaDiagram.Proofs.Spans
import Mathlib.Data.List.Chain

namespace SchemaDiagram

open Text

/-- A text of ASCII characters where nothing but line comments is hidden: there are no strings and no block
comments. -/
structure OnlyLineComments (t : Text) : Prop where
  ascii : ∀ c ∈ t, isAscii c
  noString : '"' ∉ t
  noBlock : t.IsChain fun c d => ¬(c = '/' ∧ d = '*')

/-- Whether a line comment begins with `c`. -/
def opensComment (c : Char) (rest : Text) : Bool := c = '/' && rest.head? = some '/'

/-- The text with spaces for its line comments. -/
def blankFrom (inComment : Bool) : Text → Text
  | [] => []
  | c :: cs =>
    if c = '\n' then c :: blankFrom false cs
    else if inComment || opensComment c cs then ' ' :: blankFrom true cs
    else c :: blankFrom false cs

/-- Whether a line comment is still open behind a text. -/
def commentAfter (inComment : Bool) : Text → Bool
  | [] => inComment
  | c :: cs =>
    if c = '\n' then commentAfter false cs else commentAfter (inComment || opensComment c cs) cs

/-- Two texts do not make the sign of a comment where they meet. -/
def MeetApart (a b : Text) : Prop := a.getLast? = some '/' → b.head? ≠ some '/'

theorem utf8Size_of_isAscii {c : Char} (ascii : isAscii c) : c.utf8Size = 1 := by
  have small : c.val < 0x80 := by simpa [isAscii] using ascii
  have bound : c.val.toNat < 128 := by simpa [UInt32.lt_iff_toNat_lt] using small
  exact Char.utf8Size_eq_one_iff.mpr (UInt32.le_iff_toNat_le.mpr (Nat.le_of_lt_succ bound))

section

variable {t u v : Text} {inComment : Bool}

theorem OnlyLineComments.of_infix (only : OnlyLineComments t) (part : u <:+: t) : OnlyLineComments u :=
  ⟨fun c member => only.ascii c (part.subset member), fun member => only.noString (part.subset member),
    only.noBlock.infix part⟩

theorem OnlyLineComments.tail {c : Char} (only : OnlyLineComments (c :: t)) : OnlyLineComments t :=
  only.of_infix (List.suffix_cons c t).isInfix

/-- In code such a text has only two kinds of steps: into a line comment, or on in code. -/
theorem OnlyLineComments.step_code {c : Char} (only : OnlyLineComments (c :: t)) (lineBlank : Bool) :
    ScanState.code.step lineBlank c t =
      if opensComment c t then (lineCommentRole lineBlank c t, .lineComment (lineCommentRole lineBlank c t))
      else (.code, .code) := by
  have noQuote : c ≠ '"' := fun same => only.noString (by simp [same])
  by_cases slash : c = '/'
  · subst slash
    by_cases opens : t.head? = some '/'
    · obtain ⟨more, rfl⟩ := List.head?_eq_some_iff.mp opens
      rfl
    · have star : t.head? ≠ some '*' := fun star => by
        obtain ⟨more, rfl⟩ := List.head?_eq_some_iff.mp star
        exact (List.isChain_cons_cons.mp only.noBlock).1 ⟨rfl, rfl⟩
      rw [ScanState.step_code_slash opens star, if_neg (by simpa [opensComment] using opens)]
  · rw [ScanState.step_code_plain noQuote slash, if_neg (by simp [opensComment, slash])]

theorem lineCommentRole_ne_code (lineBlank : Bool) (c : Char) (t : Text) :
    lineCommentRole lineBlank c t ≠ .code := by
  rw [lineCommentRole]
  split <;> decide

/-- In such a text masking is blanking the line comments, whatever role a comment has. -/
theorem OnlyLineComments.maskFrom (only : OnlyLineComments t) (lineBlank : Bool) :
    (scanFrom .code lineBlank t).flatMap (showOnly (· = .code)) = blankFrom false t ∧
      ∀ role, role ≠ .code →
        (scanFrom (.lineComment role) lineBlank t).flatMap (showOnly (· = .code)) = blankFrom true t := by
  induction t generalizing lineBlank with
  | nil => exact ⟨rfl, fun _ _ => rfl⟩
  | cons c t ih =>
    have size : c.utf8Size = 1 := utf8Size_of_isAscii (only.ascii c List.mem_cons_self)
    obtain ⟨inCode, inLine⟩ := ih only.tail (lineBlankAfter lineBlank c)
    have blanked {role : Role} (other : role ≠ .code) (sameLine : c ≠ '\n') :
        showOnly (· = .code) (c, role) = [' '] := by
      rw [showOnly_blanked (by simpa using other) sameLine, size]
      rfl
    constructor
    · rw [scanFrom_cons, only.step_code, List.flatMap_cons, blankFrom, Bool.false_or]
      by_cases newline : c = '\n'
      · subst newline
        rw [if_neg (by simp [opensComment]), if_pos rfl, showOnly_newline, inCode]
        rfl
      rw [if_neg newline]
      by_cases opens : opensComment c t
      · rw [if_pos opens, if_pos opens, blanked (lineCommentRole_ne_code lineBlank c t) newline,
          inLine _ (lineCommentRole_ne_code lineBlank c t)]
        rfl
      · rw [if_neg opens, if_neg opens, showOnly_kept rfl, inCode]
        rfl
    · intro role other
      rw [scanFrom_cons, List.flatMap_cons, blankFrom]
      by_cases newline : c = '\n'
      · subst newline
        rw [if_pos rfl, showOnly_newline, ← inCode]
        rfl
      · rw [if_neg newline, Bool.true_or, if_pos rfl, ScanState.step_lineComment newline,
          blanked other newline, inLine role other]
        rfl

theorem mask_eq_blankFrom (only : OnlyLineComments t) : mask t = blankFrom false t :=
  (only.maskFrom true).1

theorem opensComment_append {c : Char} (apart : MeetApart (c :: u) v) :
    opensComment c (u ++ v) = opensComment c u := by
  rcases u with _ | ⟨d, u⟩
  · by_cases slash : c = '/'
    · have other := apart (by simp [slash])
      simp [opensComment, other]
    · simp [opensComment, slash]
  · rfl

theorem MeetApart.tail {c d : Char} (apart : MeetApart (c :: d :: u) v) : MeetApart (d :: u) v :=
  fun last => apart (by simpa [List.getLast?_cons_cons] using last)

theorem meetApart_nil : MeetApart [] v := fun last => by cases last

theorem meetApart_of_head {c : Char} (noSlash : c ≠ '/') : MeetApart u (c :: v) :=
  fun _ head => noSlash (Option.some.inj head)

theorem meetApart_nil_right : MeetApart u [] := fun _ head => by cases head

theorem commentAfter_append (apart : MeetApart u v) :
    commentAfter inComment (u ++ v) = commentAfter (commentAfter inComment u) v := by
  induction u generalizing inComment with
  | nil => rfl
  | cons c u ih =>
    have later : MeetApart u v := by
      cases u with
      | nil => exact meetApart_nil
      | cons d u => exact apart.tail
    rw [List.cons_append, commentAfter, commentAfter, opensComment_append apart]
    split
    · exact ih later
    · exact ih later

theorem blankFrom_append (apart : MeetApart u v) :
    blankFrom inComment (u ++ v) = blankFrom inComment u ++ blankFrom (commentAfter inComment u) v := by
  induction u generalizing inComment with
  | nil => rfl
  | cons c u ih =>
    have later : MeetApart u v := by
      cases u with
      | nil => exact meetApart_nil
      | cons d u => exact apart.tail
    rw [List.cons_append, blankFrom, blankFrom, commentAfter, opensComment_append apart]
    split
    · rw [ih later]
      rfl
    · split
      · rename_i comment
        rw [ih later, comment]
        rfl
      · rename_i code
        have none : (inComment || opensComment c u) = false := by simpa using code
        rw [ih later, none]
        rfl

theorem length_blankFrom : (blankFrom inComment t).length = t.length := by
  induction t generalizing inComment with
  | nil => rfl
  | cons c t ih =>
    rw [blankFrom]
    split
    · simp [ih]
    · split <;> simp [ih]

theorem byteSize_of_ascii (ascii : ∀ c ∈ t, isAscii c) : byteSize t = t.length := by
  induction t with
  | nil => rfl
  | cons c t ih =>
    rw [byteSize_cons, utf8Size_of_isAscii (ascii c List.mem_cons_self),
      ih fun d member => ascii d (List.mem_cons_of_mem c member), List.length_cons, Nat.add_comm]

theorem mem_blankFrom {c : Char} (member : c ∈ blankFrom inComment t) : c ∈ t ∨ c = ' ' := by
  induction t generalizing inComment with
  | nil => cases member
  | cons d t ih =>
    have lift {inComment' : Bool} (later : c ∈ blankFrom inComment' t) : c ∈ d :: t ∨ c = ' ' :=
      (ih later).imp (List.mem_cons_of_mem d) id
    rw [blankFrom] at member
    split at member
    · rcases List.mem_cons.mp member with rfl | later
      · exact Or.inl List.mem_cons_self
      · exact lift later
    · split at member
      · rcases List.mem_cons.mp member with rfl | later
        · exact Or.inr rfl
        · exact lift later
      · rcases List.mem_cons.mp member with rfl | later
        · exact Or.inl List.mem_cons_self
        · exact lift later

theorem isAscii_blankFrom (ascii : ∀ c ∈ t, isAscii c) : ∀ c ∈ blankFrom inComment t, isAscii c := by
  intro c member
  rcases mem_blankFrom member with inside | rfl
  · exact ascii c inside
  · decide

theorem byteSize_blankFrom (ascii : ∀ c ∈ t, isAscii c) : byteSize (blankFrom inComment t) = byteSize t := by
  rw [byteSize_of_ascii ascii, byteSize_of_ascii (isAscii_blankFrom ascii), length_blankFrom]

/-- What is visible in the masked text stands outside of comments. -/
theorem commentAfter_of_shown {c : Char} (noSpace : c ≠ ' ') (noSlash : c ≠ '/') (noNewline : c ≠ '\n')
    {before after : Text} (size : before.length = u.length)
    (shown : blankFrom inComment (u ++ c :: v) = before ++ c :: after) :
    commentAfter inComment u = false ∧ before = blankFrom inComment u ∧ after = blankFrom false v := by
  rw [blankFrom_append (meetApart_of_head noSlash)] at shown
  obtain ⟨front, rest⟩ := List.append_inj shown (by rw [length_blankFrom, size])
  have noOpening : opensComment c v = false := by simp [opensComment, noSlash]
  rw [blankFrom, if_neg noNewline, noOpening, Bool.or_false] at rest
  cases after' : commentAfter inComment u with
  | true =>
    rw [after', if_pos rfl] at rest
    exact absurd (List.cons_eq_cons.mp rest).1.symm noSpace
  | false =>
    rw [after', if_neg (by decide)] at rest
    exact ⟨rfl, front.symm, (List.cons_eq_cons.mp rest).2.symm⟩

theorem blankFrom_newline : blankFrom inComment ('\n' :: t) = '\n' :: blankFrom false t := by
  rw [blankFrom, if_pos rfl]

/-- A comment goes on to the end of its line. -/
theorem commentAfter_comment (inLine : '\n' ∉ t) : commentAfter true t = true := by
  induction t with
  | nil => rfl
  | cons c t ih =>
    obtain ⟨noNewline, later⟩ := List.ne_and_not_mem_of_not_mem_cons inLine
    rw [commentAfter, if_neg noNewline.symm]
    exact ih later

theorem blankFrom_eq_self (inLine : '\n' ∉ t) (ends : commentAfter false t = false) : blankFrom false t = t := by
  induction t with
  | nil => rfl
  | cons c t ih =>
    obtain ⟨noNewline, later⟩ := List.ne_and_not_mem_of_not_mem_cons inLine
    rw [commentAfter, if_neg noNewline.symm, Bool.false_or] at ends
    rw [blankFrom, if_neg noNewline.symm, Bool.false_or]
    cases opens : opensComment c t with
    | true =>
      rw [opens, commentAfter_comment later] at ends
      cases ends
    | false =>
      rw [opens] at ends
      rw [if_neg (by decide), ih later ends]

end

end SchemaDiagram
