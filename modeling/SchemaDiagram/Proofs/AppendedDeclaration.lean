import SchemaDiagram.Proofs.PlainText

namespace SchemaDiagram

open Text

/-- White space that no header reaches over: nothing follows it, or it ends a line and what follows does not
open a block. -/
def IsGap (gap rest : Text) : Prop :=
  (∀ c ∈ gap, isBlank c) ∧
    (rest = [] ∨ (∃ w, gap = w ++ ['\n']) ∧ ∀ c, rest.head? = some c → isBlank c = false ∧ c ≠ '{')

theorem IsGap.tail {c : Char} {gap rest : Text} (parted : IsGap (c :: gap) rest) :
    IsGap gap rest ∨ c = '\n' ∧ gap = [] := by
  obtain ⟨blanks, rfl | ⟨⟨w, ends⟩, head⟩⟩ := parted
  · exact Or.inl ⟨fun d member => blanks d (List.mem_cons_of_mem c member), Or.inl rfl⟩
  · rcases w with _ | ⟨d, w⟩
    · obtain ⟨rfl, rfl⟩ := List.cons_eq_cons.mp ends
      exact Or.inr ⟨rfl, rfl⟩
    · obtain ⟨rfl, rfl⟩ := List.cons_eq_cons.mp ends
      exact Or.inl ⟨fun e member => blanks e (List.mem_cons_of_mem c member), Or.inr ⟨⟨w, rfl⟩, head⟩⟩

section

variable {gap rest : Text} (parted : IsGap gap rest)

include parted

theorem Header.read?_append_gap (start : Nat) (u : Text) :
    Header.read? start (u ++ (gap ++ rest)) = Header.read? start u := by
  obtain ⟨blanks, apart⟩ := parted
  cases read : Header.read? start u with
  | some h =>
    obtain ⟨lead, tail, rfl, head, atStart, atBrace⟩ := Header.read?_eq_some_iff.mp read
    exact Header.read?_eq_some_iff.mpr ⟨lead, tail ++ (gap ++ rest), by simp, head, atStart, atBrace⟩
  | none =>
    refine Option.eq_none_iff_forall_not_mem.mpr fun h found => ?_
    obtain ⟨lead, tail, whole, head, atStart, atBrace⟩ := Header.read?_eq_some_iff.mp found
    have noBrace : '{' ∉ gap := fun member => absurd (blanks _ member) (by decide)
    -- The brace is neither in the text nor in the gap, so the head would go on behind the end of a line.
    have behind (part : Text) (leadEq : lead = u ++ part) (restEq : gap ++ rest = part ++ '{' :: tail) : False := by
      rcases List.append_eq_append_iff.mp restEq with ⟨more, partEq, moreEq⟩ | ⟨more, gapEq, moreEq⟩
      · rcases apart with rfl | ⟨⟨w, rfl⟩, opening⟩
        · simp at moreEq
        · rcases more with _ | ⟨c, more⟩
          · rw [moreEq] at opening
            exact (opening '{' rfl).2 rfl
          · have visible : isBlank c = false := (opening c (by rw [moreEq]; rfl)).1
            obtain ⟨words, white, wholeLead, inWords, inWhite⟩ := head.parts
            have atNewline : u ++ w ++ '\n' :: c :: more = words ++ white := by
              rw [← wholeLead, leadEq, partEq]
              simp
            rcases List.append_eq_append_iff.mp atNewline with ⟨q, wordsEq, whiteEq⟩ | ⟨q, -, whiteEq⟩
            · rcases q with _ | ⟨d, q⟩
              · exact absurd (inWhite c (by rw [← List.nil_append white, ← whiteEq]; simp)) (by simp [visible])
              · obtain ⟨rfl, -⟩ := List.cons_eq_cons.mp whiteEq
                exact (inWords '\n' (by simp [wordsEq])).1 rfl
            · exact absurd (inWhite c (by simp [whiteEq])) (by simp [visible])
      · rcases more with _ | ⟨c, more⟩
        · rcases apart with rfl | ⟨-, opening⟩
          · simp at moreEq
          · have atBrace' : rest = '{' :: tail := moreEq.symm
            exact (opening '{' (by rw [atBrace']; rfl)).2 rfl
        · obtain ⟨rfl, -⟩ := List.cons_eq_cons.mp moreEq
          exact noBrace (by simp [gapEq])
    rcases List.append_eq_append_iff.mp whole with ⟨part, leadEq, restEq⟩ | ⟨part, uEq, tailEq⟩
    · exact behind part leadEq restEq
    · rcases part with _ | ⟨c, part⟩
      · exact behind [] (by simpa using uEq.symm) tailEq.symm
      · obtain ⟨rfl, -⟩ := List.cons_eq_cons.mp tailEq
        have inText : Header.read? start u = some h :=
          Header.read?_eq_some_iff.mpr ⟨lead, part, uEq, head, atStart, atBrace⟩
        rw [read] at inText
        cases inText

/-- The headers of a text stay what they are when something is put behind it. -/
theorem headersFrom_append_gap (atLineStart : Bool) (offset : Nat) (u : Text) :
    headersFrom atLineStart offset (u ++ (gap ++ rest)) =
      headersFrom atLineStart offset u ++ headersFrom true (offset + byteSize u + byteSize gap) rest := by
  have unread {gap : Text} (parted : IsGap gap rest) (offset : Nat) :
      Header.read? offset (gap ++ rest) = none := Header.read?_append_gap parted offset []
  induction u generalizing atLineStart offset with
  | nil =>
    rw [List.nil_append, byteSize_nil, Nat.add_zero]
    induction gap generalizing atLineStart offset with
    | nil =>
      obtain ⟨-, rfl | ⟨⟨w, ends⟩, -⟩⟩ := parted
      · rfl
      · simp at ends
    | cons c gap ih =>
      have here := unread parted offset
      rw [List.cons_append] at here ⊢
      rw [headersFrom_cons, here, ite_self, byteSize_cons, ← Nat.add_assoc]
      rcases parted.tail with later | ⟨rfl, rfl⟩
      · exact ih later _ _
      · rfl
  | cons c u ih =>
    have here : Header.read? offset (c :: (u ++ (gap ++ rest))) = Header.read? offset (c :: u) :=
      Header.read?_append_gap parted offset (c :: u)
    rw [List.cons_append, headersFrom_cons, here, ih, headersFrom_cons, List.append_assoc, byteSize_cons,
      Nat.add_assoc offset]

end

/-- What follows does not close a block if its own braces are paired. -/
theorem blockEnd_append {u rest : Text} (paired : StaysOpen '{' '}' 1 rest) {front inner : Text}
    (whole : u = front ++ '{' :: inner) :
    blockEnd (u ++ rest) (byteSize front) = blockEnd u (byteSize front) := by
  subst whole
  rw [List.append_assoc, List.cons_append]
  rcases blockEnd_cases front inner with ⟨stays, none⟩ | ⟨part, after, rfl, stays, balance, found⟩
  · have open' := stays inner List.prefix_rfl
    rw [none, blockEnd_opening, closingFrom_append stays]
    exact closingFrom_eq_none (paired.mono (by omega)) _
  · rw [found, List.append_assoc, List.cons_append]
    exact blockEnd_eq_some stays balance front (after ++ rest)

/-- White space at the end of a text opens no block. -/
theorem headers_append_blanks {gap : Text} (blank : ∀ c ∈ gap, isBlank c) (t : Text) :
    headers (t ++ gap) = headers t := by
  have parted : IsGap gap [] := ⟨blank, Or.inl rfl⟩
  have split := headersFrom_append_gap parted true 0 t
  rw [List.append_nil] at split
  exact split.trans (List.append_nil _)

/-- A declaration that goes on to the end of a text, once the text goes on to another place. -/
def Declaration.extend (old new : Nat) (d : Declaration) : Declaration :=
  { d with stop := if d.close = none ∧ d.stop = old then new else d.stop }

theorem Declaration.extend_eq_self {d : Declaration} (closed : d.close.isSome) (old new : Nat) :
    d.extend old new = d := by
  have noneOpen : d.close ≠ none := Option.isSome_iff_ne_none.mp closed
  rw [extend, if_neg fun goesOn => noneOpen goesOn.1]

/-- The declarations of a text stay in front of those that follow it. One that is not closed goes on to them. -/
theorem declarationsFrom_append {t t' : Text} {hs later : List Header} {resume : Nat}
    (starts : ∀ h ∈ hs, h.start < byteSize t)
    (ends : ∀ d ∈ declarationsFrom t resume hs, blockEnd t' d.brace = d.close)
    (behind : ∀ d ∈ declarationsFrom t resume hs, ∀ g ∈ later, d.close.getD d.brace < g.start)
    (resumes : ∀ g ∈ later, resume ≤ g.start) :
    declarationsFrom t' resume (hs ++ later) =
      (declarationsFrom t resume hs).map
          (·.extend (byteSize t) ((later.head?.map (·.start)).getD (byteSize t'))) ++
        declarationsFrom t' 0 later := by
  induction hs generalizing resume with
  | nil =>
    cases later with
    | nil => rfl
    | cons g later =>
      rw [List.nil_append, declarationsFrom_cons, declarationsFrom_cons, if_neg (Nat.not_lt_zero _),
        if_neg (Nat.not_lt.mpr (resumes g List.mem_cons_self))]
      rfl
  | cons h hs ih =>
    have onLater : ∀ g ∈ hs, g.start < byteSize t := fun g member => starts g (List.mem_cons_of_mem h member)
    rw [declarationsFrom_cons] at ends behind
    rw [List.cons_append, declarationsFrom_cons, declarationsFrom_cons]
    by_cases skipped : h.start < resume
    · rw [if_pos skipped] at ends behind
      rw [if_pos skipped, if_pos skipped]
      exact ih onLater ends behind resumes
    · rw [if_neg skipped] at ends behind
      obtain ⟨same, endsLater⟩ := List.forall_mem_cons.mp ends
      obtain ⟨below, behindLater⟩ := List.forall_mem_cons.mp behind
      change blockEnd t' h.brace = blockEnd t h.brace at same
      rw [if_neg skipped, if_neg skipped, List.map_cons, List.cons_append, same, ih onLater endsLater behindLater below]
      congr 1
      simp only [Header.declaration, Declaration.extend, same]
      rcases Option.eq_none_or_eq_some (blockEnd t h.brace) with unclosed | ⟨c, closed⟩
      · cases hs with
        | nil => simp [unclosed]
        | cons h' hs => simp [unclosed, Nat.ne_of_lt (starts h' (by simp))]
      · simp [closed]

end SchemaDiagram
