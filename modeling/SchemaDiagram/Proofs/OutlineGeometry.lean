import SchemaDiagram.Proofs.Brackets
import SchemaDiagram.Proofs.HeaderOrder
import SchemaDiagram.Proofs.ScanOffsets

namespace SchemaDiagram

open Text

/-- The declaration that a header opens, in front of the later headers. -/
def Header.declaration (h : Header) (t : Text) (later : List Header) : Declaration where
  keyword := h.keyword
  name := h.name
  start := h.start
  brace := h.brace
  close := blockEnd t h.brace
  stop := (blockEnd t h.brace).getD ((later.head?.map (·.start)).getD (byteSize t))

theorem declarationsFrom_cons (t : Text) (resume : Nat) (h : Header) (later : List Header) :
    declarationsFrom t resume (h :: later) =
      if h.start < resume then declarationsFrom t resume later
      else h.declaration t later :: declarationsFrom t ((blockEnd t h.brace).getD h.brace + 1) later := rfl

theorem mem_declarationsFrom {t : Text} {resume : Nat} {hs : List Header} {d : Declaration}
    (member : d ∈ declarationsFrom t resume hs) :
    ∃ earlier h later, hs = earlier ++ h :: later ∧ d = h.declaration t later := by
  induction hs generalizing resume with
  | nil => cases member
  | cons h hs ih =>
    have lift {resume' : Nat} (inRest : d ∈ declarationsFrom t resume' hs) :
        ∃ earlier h' later, h :: hs = earlier ++ h' :: later ∧ d = h'.declaration t later := by
      obtain ⟨earlier, h', later, rfl, same⟩ := ih inRest
      exact ⟨h :: earlier, h', later, rfl, same⟩
    rw [declarationsFrom_cons] at member
    split at member
    · exact lift member
    · rcases List.mem_cons.mp member with same | inRest
      · exact ⟨[], h, hs, rfl, same⟩
      · exact lift inRest

/-- Headers that come one behind the other, each with its brace behind its start. -/
def InOrder (hs : List Header) : Prop :=
  (∀ h ∈ hs, h.start ≤ h.brace) ∧ hs.Pairwise (fun h later => h.brace < later.start)

theorem headers_inOrder (t : Text) : InOrder (headers t) :=
  ⟨fun _ member => Nat.le_of_lt (Header.start_lt_brace member).2.1, headersFrom_ordered true 0 t⟩

theorem InOrder.tail {h : Header} {hs : List Header} (ordered : InOrder (h :: hs)) : InOrder hs :=
  ⟨fun h' member => ordered.1 h' (List.mem_cons_of_mem _ member), (List.pairwise_cons.mp ordered.2).2⟩

theorem InOrder.brace_lt {h later : Header} {hs : List Header} (ordered : InOrder (h :: hs))
    (member : later ∈ hs) : h.brace < later.start := (List.pairwise_cons.mp ordered.2).1 later member

theorem resume_le_start {t : Text} {resume : Nat} {hs : List Header} {d : Declaration}
    (ordered : InOrder hs) (member : d ∈ declarationsFrom t resume hs) : resume ≤ d.start := by
  induction hs generalizing resume with
  | nil => cases member
  | cons h hs ih =>
    rw [declarationsFrom_cons] at member
    split at member
    · exact ih ordered.tail member
    · rename_i notBefore
      rcases List.mem_cons.mp member with rfl | inRest
      · exact Nat.not_lt.mp notBefore
      · obtain ⟨earlier, h', later, rfl, rfl⟩ := mem_declarationsFrom inRest
        have after := ordered.brace_lt (List.mem_append_right earlier List.mem_cons_self)
        have within := ordered.1 h List.mem_cons_self
        simp only [Header.declaration]
        omega

/-- A declaration stops where the next one begins at the latest, and before it if it is closed. -/
theorem declarationsFrom_ordered {t : Text} (resume : Nat) {hs : List Header} (ordered : InOrder hs) :
    (declarationsFrom t resume hs).Pairwise
      (fun d e => d.stop ≤ e.start ∧ (d.close.isSome → d.stop < e.start)) := by
  induction hs generalizing resume with
  | nil => exact .nil
  | cons h hs ih =>
    rw [declarationsFrom_cons]
    split
    · exact ih resume ordered.tail
    · refine List.pairwise_cons.mpr ⟨?_, ih _ ordered.tail⟩
      intro e member
      have resumed := resume_le_start ordered.tail member
      cases close : blockEnd t h.brace with
      | some c =>
        rw [close] at resumed
        simp only [Option.getD_some, Header.declaration, close] at resumed ⊢
        exact ⟨by omega, fun _ => by omega⟩
      | none =>
        obtain ⟨earlier, h', later, rfl, rfl⟩ := mem_declarationsFrom member
        simp only [Header.declaration, close, Option.getD_none, Option.isSome_none, Bool.false_eq_true,
          false_implies, and_true]
        rcases earlier with _ | ⟨first, earlier⟩
        · exact Nat.le_refl _
        · have within := ordered.tail.1 first List.mem_cons_self
          have after := ordered.tail.brace_lt (List.mem_append_right earlier List.mem_cons_self)
          simp only [List.cons_append, List.head?_cons, Option.map_some, Option.getD_some]
          omega

theorem declarationsFrom_head {t : Text} {resume : Nat} {hs : List Header}
    (resumed : ∀ h ∈ hs, resume ≤ h.start) :
    (declarationsFrom t resume hs).head?.map (·.start) = hs.head?.map (·.start) := by
  rcases hs with _ | ⟨h, hs⟩
  · rfl
  · rw [declarationsFrom_cons, if_neg (Nat.not_lt.mpr (resumed h List.mem_cons_self))]
    rfl

/-- A declaration that is not closed stops where the next one begins, or at the end of the text. -/
theorem declarationsFrom_unclosed {t : Text} {resume : Nat} {hs : List Header} (ordered : InOrder hs)
    {i : Nat} {d : Declaration} (found : (declarationsFrom t resume hs)[i]? = some d)
    (unclosed : d.close = none) :
    d.stop = ((declarationsFrom t resume hs)[i + 1]?.map (·.start)).getD (byteSize t) := by
  induction hs generalizing resume i with
  | nil => simp [declarationsFrom] at found
  | cons h hs ih =>
    rw [declarationsFrom_cons] at found ⊢
    split at found
    · rename_i before
      rw [if_pos before]
      exact ih ordered.tail found
    · rename_i notBefore
      rw [if_neg notBefore]
      rcases i with _ | i
      · obtain rfl : h.declaration t hs = d := by simpa using found
        have noEnd : blockEnd t h.brace = none := unclosed
        have head := declarationsFrom_head (t := t) (fun h' (member : h' ∈ hs) => ordered.brace_lt member)
        simp only [Header.declaration, noEnd, Option.getD_none, List.getElem?_cons_succ,
          ← List.head?_eq_getElem?]
        rw [← head]
      · exact ih ordered.tail (by simpa using found)

/-- How a declaration lies in the text that it was found in. -/
structure Declaration.LiesIn (d : Declaration) (t : Text) : Prop where
  start_le_brace : d.start ≤ d.brace
  brace_lt_stop : d.brace < d.stop
  stop_le_size : d.stop ≤ byteSize t
  lineStart : IsLineStart t d.start
  opens : HasAt (mask t) d.brace '{'
  boundaries : IsBoundary t d.start ∧ IsBoundary t d.brace ∧ IsBoundary t d.stop ∧
    ∀ c, d.close = some c → IsBoundary t c
  closed : ∀ c, d.close = some c →
    d.stop = c ∧ HasAt (mask t) c '}' ∧ IsBracketed '{' '}' (slice d.brace (c + 1) (mask t))
  unclosed : d.close = none → ∀ c, d.brace < c → HasAt (mask t) c '}' →
    ¬ IsBracketed '{' '}' (slice d.brace (c + 1) (mask t))

theorem isLineStart_of_mem_headers {t : Text} {h : Header} (member : h ∈ headers t) :
    IsLineStart t h.start := by
  obtain ⟨before, line, rfl, read, place⟩ := mem_headersFrom member
  obtain ⟨_, _, _, _, atStart, _⟩ := Header.read?_eq_some_iff.mp read
  have one : byteSize ['\n'] = 1 := rfl
  rcases place with ⟨rfl, -⟩ | ⟨u, rfl⟩
  · exact Or.inl atStart
  · refine Or.inr ⟨byteSize u, ⟨u, line, by simp, rfl⟩, ?_⟩
    rw [byteSize_append, one] at atStart
    omega

/-- The brace of a header splits the text. -/
theorem brace_of_mem_headers {t : Text} {h : Header} (member : h ∈ headers t) :
    ∃ front rest, t = front ++ '{' :: rest ∧ h.brace = byteSize front := by
  obtain ⟨before, line, rfl, read, -⟩ := mem_headersFrom member
  obtain ⟨lead, rest, rfl, -, -, atBrace⟩ := Header.read?_eq_some_iff.mp read
  refine ⟨before ++ lead, rest, by simp, ?_⟩
  rw [byteSize_append]
  omega

theorem closing_behind {front rest before after : Text}
    (whole : front ++ '{' :: rest = before ++ '}' :: after) (behind : byteSize front < byteSize before) :
    ∃ part, before = front ++ '{' :: part ∧ rest = part ++ '}' :: after := by
  rcases List.append_eq_append_iff.mp whole with ⟨part, beforeEq, restEq⟩ | ⟨part, frontEq, -⟩
  · rcases part with _ | ⟨c, part⟩
    · cases restEq
    · obtain rfl : '{' = c := (List.cons_eq_cons.mp restEq).1
      exact ⟨part, beforeEq, (List.cons_eq_cons.mp restEq).2⟩
  · rw [frontEq, byteSize_append] at behind
    omega

theorem slice_block (front part after : Text) :
    slice (byteSize front) (byteSize (front ++ '{' :: part) + 1) (front ++ '{' :: part ++ '}' :: after) =
      '{' :: (part ++ ['}']) := by
  have cut := slice_append front ('{' :: (part ++ ['}'])) after
  have one : '}'.utf8Size = 1 := rfl
  simp only [byteSize_append, byteSize_cons, byteSize_nil, one, Nat.add_zero] at cut ⊢
  rw [Nat.add_assoc, Nat.add_assoc, List.append_assoc] at *
  simpa using cut

/-- Of a declaration that a header opens, all that does not depend on the order of the headers. -/
theorem Header.declaration_closing {t : Text} {h : Header} (member : h ∈ headers t) (later : List Header) :
    (∀ c, (h.declaration t later).close = some c →
      h.brace < c ∧ (h.declaration t later).stop = c ∧ HasAt t c '}' ∧
        IsBracketed '{' '}' (slice h.brace (c + 1) t)) ∧
    ((h.declaration t later).close = none → ∀ c, h.brace < c → HasAt t c '}' →
      ¬ IsBracketed '{' '}' (slice h.brace (c + 1) t)) := by
  obtain ⟨front, rest, rfl, atBrace⟩ := brace_of_mem_headers member
  simp only [Header.declaration, atBrace]
  rcases blockEnd_cases front rest with ⟨stays, search⟩ | ⟨inner, after, rfl, stays, balance, search⟩
  · rw [search]
    constructor
    · intro c found
      cases found
    · rintro - c behind ⟨before, after, whole, rfl⟩
      obtain ⟨part, rfl, rfl⟩ := closing_behind whole behind
      have cut := slice_block front part after
      simp only [List.append_assoc, List.cons_append] at cut ⊢
      rw [cut]
      exact stays.not_isBracketed (by decide) ⟨after, by simp⟩
  · rw [search]
    refine ⟨?_, fun found => by cases found⟩
    intro c found
    have place : byteSize (front ++ '{' :: inner) = c := by
      have one : '{'.utf8Size = 1 := rfl
      have found := Option.some.inj found
      simp only [byteSize_append, byteSize_cons, one]
      omega
    have cut := slice_block front inner after
    simp only [List.append_assoc, List.cons_append, place] at cut ⊢
    refine ⟨?_, by simpa using Option.some.inj found, ⟨front ++ '{' :: inner, after, by simp, place⟩, ?_⟩
    · have found := Option.some.inj found
      omega
    · rw [cut]
      exact isBracketed_of_staysOpen (by decide) stays balance

theorem Declaration.liesIn {t : Text} {d : Declaration} (member : d ∈ outline t) : d.LiesIn t := by
  obtain ⟨earlier, h, later, split, rfl⟩ := mem_declarationsFrom member
  have ordered := headers_inOrder (mask t)
  have found : h ∈ headers (mask t) := by rw [split]; simp
  have size := byteSize_mask t
  obtain ⟨closed, unclosed⟩ := Header.declaration_closing found later
  obtain ⟨front, rest, whole, atBrace⟩ := brace_of_mem_headers found
  have opens : HasAt (mask t) h.brace '{' := ⟨front, rest, whole, atBrace.symm⟩
  have lineStart := isLineStart_of_mask (isLineStart_of_mem_headers found)
  have closing (c : Nat) (close : (h.declaration (mask t) later).close = some c) : HasAt t c '}' :=
    hasAt_of_mask (by decide) (closed c close).2.2.1
  have stop : h.brace < (h.declaration (mask t) later).stop ∧
      (h.declaration (mask t) later).stop ≤ byteSize t ∧
      IsBoundary t (h.declaration (mask t) later).stop := by
    cases close : (h.declaration (mask t) later).close with
    | some c =>
      rw [(closed c close).2.1]
      exact ⟨(closed c close).1, Nat.le_of_lt (closing c close).lt_byteSize, (closing c close).isBoundary⟩
    | none =>
      simp only [Header.declaration] at close ⊢
      rw [close, Option.getD_none]
      rcases later with _ | ⟨next, later⟩
      · have inText := Header.start_lt_brace found
        simp only [List.head?_nil, Option.map_none, Option.getD_none, size]
        exact ⟨by omega, Nat.le_refl _, isBoundary_byteSize t⟩
      · have inNext : next ∈ headers (mask t) := by rw [split]; simp
        have inText := Header.start_lt_brace inNext
        rw [split] at ordered
        have inOrder := (List.pairwise_append.mp ordered.2).2.1
        have behind := (List.pairwise_cons.mp inOrder).1 next List.mem_cons_self
        simp only [List.head?_cons, Option.map_some, Option.getD_some]
        exact ⟨behind, by omega, (isLineStart_of_mask (isLineStart_of_mem_headers inNext)).isBoundary⟩
  exact ⟨Nat.le_of_lt (Header.start_lt_brace found).2.1, stop.1, stop.2.1, lineStart, opens,
    ⟨lineStart.isBoundary, (hasAt_of_mask (by decide) opens).isBoundary, stop.2.2,
      fun c close => (closing c close).isBoundary⟩,
    fun c close => (closed c close).2, unclosed⟩

/-- Where declarations lie: each one in the text, from a line start to its closing brace or else to the
next declaration, and one behind the other. -/
theorem outline_geometry (t : Text) :
    (∀ d ∈ outline t, d.LiesIn t) ∧
      (∀ i d, (outline t)[i]? = some d → d.close = none →
        d.stop = ((outline t)[i + 1]?.map (·.start)).getD (byteSize t)) ∧
      (outline t).Pairwise (fun d e => d.stop ≤ e.start ∧ (d.close.isSome → d.stop < e.start)) := by
  refine ⟨fun d member => Declaration.liesIn member, ?_,
    declarationsFrom_ordered 0 (headers_inOrder (mask t))⟩
  intro i d found unclosed
  rw [← byteSize_mask]
  exact declarationsFrom_unclosed (headers_inOrder (mask t)) found unclosed

end SchemaDiagram
