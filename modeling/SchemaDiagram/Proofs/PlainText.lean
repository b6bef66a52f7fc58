import SchemaDiagram.Proofs.TextParts

namespace SchemaDiagram

open Text

/-- A text of ASCII characters without strings and block comments, where no declaration has a brace in its
body outside of line comments. -/
structure IsPlainText (t : Text) : Prop where
  ascii : ∀ c ∈ t, isAscii c
  noString : '"' ∉ t
  noBlockComment : ¬ txt "/*" <:+: t
  noBrace : ∀ d ∈ outline t, '{' ∉ d.body (mask t) ∧ '}' ∉ d.body (mask t)

instance (t : Text) : Decidable (IsPlainText t) :=
  decidable_of_iff ((∀ c ∈ t, isAscii c) ∧ '"' ∉ t ∧ (¬ txt "/*" <:+: t) ∧
      ∀ d ∈ outline t, '{' ∉ d.body (mask t) ∧ '}' ∉ d.body (mask t))
    ⟨fun ⟨ascii, noString, noBlock, noBrace⟩ => ⟨ascii, noString, noBlock, noBrace⟩,
      fun plain => ⟨plain.ascii, plain.noString, plain.noBlockComment, plain.noBrace⟩⟩

/-- What may stand between the braces of a declaration in such a text. -/
structure IsPlainBody (body : Text) : Prop where
  only : OnlyLineComments body
  ends : commentAfter false body = false
  noBrace : '{' ∉ blankFrom false body ∧ '}' ∉ blankFrom false body

theorem isChain_noBlock {t : Text} (noBlock : ¬ txt "/*" <:+: t) :
    t.IsChain fun c d => ¬(c = '/' ∧ d = '*') := by
  induction t with
  | nil => exact List.IsChain.nil
  | cons c t ih =>
    have later := ih fun inside => noBlock (inside.trans (List.suffix_cons c t).isInfix)
    cases t with
    | nil => exact List.IsChain.singleton c
    | cons d t =>
      refine List.isChain_cons_cons.mpr ⟨?_, later⟩
      rintro ⟨rfl, rfl⟩
      exact noBlock ⟨[], t, rfl⟩

theorem noBlock_of_isChain {t : Text} (chain : t.IsChain fun c d => ¬(c = '/' ∧ d = '*')) :
    ¬ txt "/*" <:+: t := by
  rintro ⟨before, after, rfl⟩
  rw [List.append_assoc] at chain
  have pair := (List.isChain_append.mp chain).2.1
  exact (List.isChain_cons_cons.mp pair).1 ⟨rfl, rfl⟩

theorem IsPlainText.only {t : Text} (plain : IsPlainText t) : OnlyLineComments t :=
  ⟨plain.ascii, plain.noString, isChain_noBlock plain.noBlockComment⟩

theorem OnlyLineComments.append {u v : Text} (first : OnlyLineComments u) (second : OnlyLineComments v)
    (apart : ¬(u.getLast? = some '/' ∧ v.head? = some '*')) : OnlyLineComments (u ++ v) := by
  refine ⟨fun c member => ?_, fun member => ?_, List.isChain_append.mpr ⟨first.noBlock, second.noBlock, ?_⟩⟩
  · rcases List.mem_append.mp member with inside | inside
    · exact first.ascii c inside
    · exact second.ascii c inside
  · rcases List.mem_append.mp member with inside | inside
    · exact first.noString inside
    · exact second.noString inside
  · rintro c last d head ⟨rfl, rfl⟩
    exact apart ⟨last, head⟩

/-- A text with a body between braces, each of them outside of comments. -/
structure Cut (t lead body back : Text) : Prop where
  whole : t = lead ++ '{' :: (body ++ '}' :: back)
  leadEnds : commentAfter false lead = false
  bodyEnds : commentAfter false body = false

section

variable {t lead body back : Text}

theorem blankFrom_brace {c : Char} (brace : c = '{' ∨ c = '}') : blankFrom false (c :: t) = c :: blankFrom false t := by
  rcases brace with rfl | rfl <;> simp [blankFrom, opensComment]

theorem Cut.mask_eq (cut : Cut t lead body back) (only : OnlyLineComments t) :
    mask t = blankFrom false lead ++ ['{'] ++ (blankFrom false body ++ '}' :: blankFrom false back) := by
  rw [mask_eq_blankFrom only, cut.whole, blankFrom_append (meetApart_of_head (by decide)), cut.leadEnds,
    blankFrom_brace (Or.inl rfl), blankFrom_append (meetApart_of_head (by decide)), cut.bodyEnds,
    blankFrom_brace (Or.inr rfl), List.append_assoc, List.singleton_append]

/-- What the mask shows stands outside of comments. -/
theorem OnlyLineComments.ends_of_visible (only : OnlyLineComments t) {u v : Text} {c : Char} (noSpace : c ≠ ' ')
    (noSlash : c ≠ '/') (noNewline : c ≠ '\n') (whole : t = u ++ c :: v)
    (visible : HasAt (mask t) (byteSize u) c) : commentAfter false u = false := by
  obtain ⟨before, after, masked, size⟩ := visible
  rw [mask_eq_blankFrom only] at masked
  have asciiMask : ∀ c ∈ blankFrom false t, isAscii c := isAscii_blankFrom only.ascii
  rw [byteSize_of_ascii fun d member => asciiMask d (by rw [masked]; simp [member]),
    byteSize_of_ascii fun d member => only.ascii d (by rw [whole]; simp [member])] at size
  rw [whole] at masked
  exact (commentAfter_of_shown noSpace noSlash noNewline size masked).1

theorem OnlyLineComments.asciiMask (only : OnlyLineComments t) : ∀ c ∈ mask t, isAscii c := by
  rw [mask_eq_blankFrom only]
  exact isAscii_blankFrom only.ascii

/-- No comment reaches over the end of a declaration. -/
theorem OnlyLineComments.stop_apart (only : OnlyLineComments t) {d : Declaration} (member : d ∈ outline t)
    {lead rest : Text} (whole : t = lead ++ '{' :: rest) (brace : d.brace = lead.length) :
    MeetApart (rest.take (d.stop - (d.brace + 1))) (rest.drop (d.stop - (d.brace + 1))) := by
  have lies := Declaration.liesIn member
  have inOrder := lies.brace_lt_stop
  have ascii {u : Text} (part : u <:+: t) : byteSize u = u.length :=
    byteSize_of_ascii fun c member => only.ascii c (part.subset member)
  have front : lead.length + 1 = (lead ++ ['{']).length := by simp
  have dropped : rest.drop (d.stop - (d.brace + 1)) = t.drop d.stop := by
    rw [show d.stop = (lead ++ ['{']).length + (d.stop - (d.brace + 1)) by omega, whole,
      show lead ++ '{' :: rest = lead ++ ['{'] ++ rest by simp, ← List.drop_drop, List.drop_left,
      show (lead ++ ['{']).length + (d.stop - (d.brace + 1)) - (d.brace + 1) = d.stop - (d.brace + 1) by omega]
  cases closed : d.close with
  | some close =>
    obtain ⟨stop, atClose, -⟩ := lies.closed close closed
    obtain ⟨u, v, wholeAt, size⟩ := hasAt_of_mask (by decide) atClose
    rw [ascii ⟨[], _, wholeAt.symm⟩] at size
    rw [dropped, stop, wholeAt, ← size, List.drop_left]
    exact meetApart_of_head (by decide)
  | none =>
    obtain ⟨i, atIndex⟩ := List.mem_iff_getElem?.mp member
    have stop := (outline_geometry t).2.1 i d atIndex closed
    cases next : (outline t)[i + 1]? with
    | none =>
      have size : d.stop = t.length := by
        rw [stop, next, ← byteSize_of_ascii only.ascii]
        rfl
      rw [dropped, size, List.drop_length]
      exact meetApart_nil_right
    | some e =>
      rw [next] at stop
      change d.stop = e.start at stop
      rcases (Declaration.liesIn (List.mem_of_getElem? next)).lineStart with atZero | ⟨k, newline, start⟩
      · omega
      obtain ⟨u, v, wholeAt, size⟩ := newline
      rw [ascii ⟨[], _, wholeAt.symm⟩] at size
      have taken : lead ++ ['{'] ++ rest.take (d.stop - (d.brace + 1)) = u ++ ['\n'] := by
        have all : t.take d.stop = u ++ ['\n'] := by
          rw [stop, start, ← size, wholeAt, show u ++ '\n' :: v = (u ++ ['\n']) ++ v by simp,
            show u.length + 1 = (u ++ ['\n']).length by simp, List.take_left]
        rw [← all, show d.stop = (lead ++ ['{']).length + (d.stop - (d.brace + 1)) by omega, List.take_add,
          whole, show lead ++ '{' :: rest = lead ++ ['{'] ++ rest by simp, List.take_left, List.drop_left,
          show (lead ++ ['{']).length + (d.stop - (d.brace + 1)) - (d.brace + 1) = d.stop - (d.brace + 1) by
            omega]
      intro slash
      rcases List.eq_nil_or_concat (rest.take (d.stop - (d.brace + 1))) with empty | ⟨w, c, concat⟩
      · rw [empty] at slash
        cases slash
      · rw [concat, List.concat_eq_append, List.getLast?_concat] at slash
        rw [concat, List.concat_eq_append, ← List.append_assoc] at taken
        have last := (List.append_inj' taken rfl).2
        simp [Option.some.inj slash] at last

/-- In such a text the mask of a body can be seen in the body alone. -/
theorem OnlyLineComments.body_mask (only : OnlyLineComments t) {d : Declaration} (member : d ∈ outline t) :
    d.body (mask t) = blankFrom false (d.body t) := by
  have lies := Declaration.liesIn member
  have inOrder := lies.brace_lt_stop
  obtain ⟨lead, rest, whole, size⟩ := hasAt_of_mask (by decide) lies.opens
  have leadEnds := only.ends_of_visible (by decide) (by decide) (by decide) whole (size ▸ lies.opens)
  have leadLength : byteSize lead = lead.length :=
    byteSize_of_ascii fun c member => only.ascii c (by rw [whole]; simp [member])
  have apart := only.stop_apart member whole (by omega)
  have masked : mask t = blankFrom false lead ++ '{' :: blankFrom false rest := by
    rw [mask_eq_blankFrom only, whole, blankFrom_append (meetApart_of_head (by decide)), leadEnds,
      blankFrom_brace (Or.inl rfl)]
  have behind {u v : Text} (length : u.length = lead.length) :
      (u ++ '{' :: v).drop (d.brace + 1) = v := by
    rw [show d.brace + 1 = (u ++ ['{']).length by simp; omega, show u ++ '{' :: v = u ++ ['{'] ++ v by simp,
      List.drop_left]
  have within : d.stop - (d.brace + 1) ≤ rest.length := by
    have bound := lies.stop_le_size
    rw [byteSize_of_ascii only.ascii, whole] at bound
    simp only [List.length_append, List.length_cons] at bound
    omega
  rw [Declaration.body, Declaration.body, slice_of_ascii only.asciiMask, slice_of_ascii only.ascii, masked, whole,
    behind length_blankFrom, behind rfl]
  conv => lhs; rw [← List.take_append_drop (d.stop - (d.brace + 1)) rest]
  rw [blankFrom_append apart, List.take_left' (by rw [length_blankFrom, List.length_take, Nat.min_eq_left within])]

/-- A closed declaration cuts its text at its braces. -/
theorem IsPlainText.cut (plain : IsPlainText t) {d : Declaration} (member : d ∈ outline t) {close : Nat}
    (closed : d.close = some close) :
    ∃ lead body back, Cut t lead body back ∧ d.brace = lead.length ∧
      close = lead.length + 1 + body.length ∧ d.stop = close := by
  have lies := Declaration.liesIn member
  obtain ⟨stop, atClose, -⟩ := lies.closed close closed
  obtain ⟨lead, rest, leadEq, leadSize⟩ := hasAt_of_mask (by decide) lies.opens
  obtain ⟨inside, back, insideEq, insideSize⟩ := hasAt_of_mask (by decide) atClose
  have inOrder := lies.brace_lt_stop
  obtain ⟨body, rfl, rfl⟩ := closing_behind (leadEq.symm.trans insideEq) (by omega)
  have ascii {u : Text} (part : u <:+: t) : byteSize u = u.length :=
    byteSize_of_ascii fun c member => plain.ascii c (part.subset member)
  have leadLength : byteSize lead = lead.length := ascii ⟨[], _, leadEq.symm⟩
  have insideLength : byteSize (lead ++ '{' :: body) = (lead ++ '{' :: body).length :=
    ascii ⟨[], _, insideEq.symm⟩
  have leadEnds :=
    plain.only.ends_of_visible (by decide) (by decide) (by decide) leadEq (leadSize ▸ lies.opens)
  have bodyEnds :=
    plain.only.ends_of_visible (by decide) (by decide) (by decide) insideEq (insideSize ▸ atClose)
  rw [commentAfter_append (meetApart_of_head (by decide)), leadEnds] at bodyEnds
  refine ⟨lead, body, back, ⟨by rw [leadEq], leadEnds, ?_⟩, by omega, ?_, stop⟩
  · simpa [commentAfter, opensComment] using bodyEnds
  · rw [insideLength] at insideSize
    simp only [List.length_append, List.length_cons] at insideSize
    omega

end

end SchemaDiagram
