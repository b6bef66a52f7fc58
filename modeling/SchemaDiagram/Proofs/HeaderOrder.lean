import SchemaDiagram.Proofs.HeaderForm

namespace SchemaDiagram

open Text

theorem headersFrom_cons (atLineStart : Bool) (offset : Nat) (c : Char) (t : Text) :
    headersFrom atLineStart offset (c :: t) =
      (if atLineStart then Header.read? offset (c :: t) else none).toList ++
        headersFrom (c = '\n') (offset + c.utf8Size) t := by
  rw [headersFrom]
  split <;> simp_all

/-- Every header is read from a place where a line begins. -/
theorem mem_headersFrom {atLineStart : Bool} {offset : Nat} {t : Text} {h : Header}
    (member : h ∈ headersFrom atLineStart offset t) :
    ∃ before line, t = before ++ line ∧ Header.read? (offset + byteSize before) line = some h ∧
      (before = [] ∧ atLineStart = true ∨ ∃ u, before = u ++ ['\n']) := by
  induction t generalizing atLineStart offset with
  | nil => cases member
  | cons c t ih =>
    rw [headersFrom_cons, List.mem_append, Option.mem_toList] at member
    rcases member with here | later
    · split at here
      · exact ⟨[], c :: t, rfl, here, Or.inl ⟨rfl, by assumption⟩⟩
      · cases here
    · obtain ⟨before, line, rfl, read, place⟩ := ih later
      refine ⟨c :: before, line, rfl, by rwa [byteSize_cons, ← Nat.add_assoc], Or.inr ?_⟩
      rcases place with ⟨rfl, newline⟩ | ⟨u, rfl⟩
      · exact ⟨[], by simpa using newline⟩
      · exact ⟨c :: u, rfl⟩

/-- Headers come in the order of the text, and no two overlap. -/
theorem headersFrom_ordered (atLineStart : Bool) (offset : Nat) (t : Text) :
    (headersFrom atLineStart offset t).Pairwise (fun h later => h.brace < later.start) := by
  induction t generalizing atLineStart offset with
  | nil => exact .nil
  | cons c t ih =>
    rw [headersFrom_cons, List.pairwise_append]
    refine ⟨?_, ih _ _, ?_⟩
    · cases (if atLineStart then Header.read? offset (c :: t) else none) <;> simp
    · intro h here later member
      rw [Option.mem_toList] at here
      split at here
      case isFalse => cases here
      case isTrue =>
        obtain ⟨before, line, rfl, read, place⟩ := mem_headersFrom member
        obtain ⟨u, atNewline⟩ : ∃ u, c :: before = u ++ ['\n'] := by
          rcases place with ⟨rfl, newline⟩ | ⟨u, rfl⟩
          · exact ⟨[], by simpa using newline⟩
          · exact ⟨c :: u, rfl⟩
        have whole : c :: (before ++ line) = u ++ '\n' :: line := by
          rw [← List.cons_append, atNewline, List.append_assoc]
          rfl
        have size := congrArg byteSize atNewline
        rw [byteSize_cons, byteSize_append] at size
        have one : byteSize ['\n'] = 1 := rfl
        rw [whole] at here
        refine Header.read?_brace_lt here ?_
        rwa [show offset + byteSize u + 1 = offset + c.utf8Size + byteSize before by omega]

theorem Header.start_lt_brace {atLineStart : Bool} {offset : Nat} {t : Text} {h : Header}
    (member : h ∈ headersFrom atLineStart offset t) :
    offset ≤ h.start ∧ h.start < h.brace ∧ h.brace < offset + byteSize t := by
  obtain ⟨before, line, rfl, read, -⟩ := mem_headersFrom member
  obtain ⟨lead, rest, rfl, head, atStart, atBrace⟩ := Header.read?_eq_some_iff.mp read
  have positive := head.byteSize_pos
  have one : '{'.utf8Size = 1 := rfl
  simp only [byteSize_append, byteSize_cons]
  omega

end SchemaDiagram
