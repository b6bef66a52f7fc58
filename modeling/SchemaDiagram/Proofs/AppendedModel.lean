import SchemaDiagram.Proofs.AppendedDeclaration
import SchemaDiagram.Proofs.CodeLines
import SchemaDiagram.Proofs.ShownLines

namespace SchemaDiagram

open Text

theorem headersFrom_inLine {t : Text} (inLine : '\n' ∉ t) (offset : Nat) : headersFrom false offset t = [] := by
  induction t generalizing offset with
  | nil => rfl
  | cons c t ih =>
    obtain ⟨noNewline, later⟩ := List.ne_and_not_mem_of_not_mem_cons inLine
    rw [headersFrom_cons, decide_eq_false noNewline.symm, ih later]
    rfl

theorem IsHead.headersFrom {keyword : Keyword} {name lead : Text} (head : IsHead keyword name lead)
    (inLine : '\n' ∉ lead) (offset : Nat) :
    headersFrom true offset (lead ++ ['{']) =
      [{ keyword, name, start := offset, brace := offset + byteSize lead }] := by
  have read := head.read?_append offset []
  have oneLine : '\n' ∉ lead ++ ['{'] := by simp [inLine]
  obtain ⟨c, tail, whole⟩ : ∃ c tail, lead ++ ['{'] = c :: tail := List.exists_cons_of_ne_nil (by simp)
  rw [whole] at oneLine read ⊢
  obtain ⟨noNewline, later⟩ := List.ne_and_not_mem_of_not_mem_cons oneLine
  rw [headersFrom_cons, if_pos rfl, read, decide_eq_false noNewline.symm, headersFrom_inLine later]
  rfl

/-- White space at the end of a text adds no line. -/
theorem shownLines_append_blanks {gap : Text} (blanks : ∀ c ∈ gap, isBlank c) (t : Text) :
    shownLines (rows (t ++ gap)) = shownLines (rows t) := by
  have one {c : Char} (blank : isBlank c) (t : Text) : shownLines (rows (t ++ [c])) = shownLines (rows t) := by
    have apart {u : Text} : MeetApart u [c] := meetApart_of_head (by rintro rfl; exact absurd blank (by decide))
    induction t using rows_induction with
    | oneRow r inLine =>
      by_cases newline : c = '\n'
      · subst newline
        rw [rows_cons inLine, rows_row inLine]
        exact (shownLines_append [r] [[]]).trans (List.append_nil _)
      · have same : rowLine (r ++ [c]) = rowLine r := by
          have blanks : ∀ d ∈ blankFrom (commentAfter false r) [c], isBlank d := by
            intro d member
            rcases mem_blankFrom member with inside | rfl
            · rwa [List.mem_singleton.mp inside]
            · decide
          have trimmed := trim_append (List.forall_mem_nil _) (blankFrom false r) blanks
          rwa [List.nil_append, ← blankFrom_append apart] at trimmed
        rw [rows_row (by simp [inLine, Ne.symm newline]), rows_row inLine, shownLines, shownLines, List.map_singleton,
          List.map_singleton, same]
    | moreRows r t inLine ih =>
      rw [List.append_assoc, List.cons_append, rows_cons inLine, rows_cons inLine, ← List.singleton_append,
        shownLines_append, ih, ← shownLines_append]
      rfl
  induction gap generalizing t with
  | nil => rw [List.append_nil]
  | cons c gap ih =>
    obtain ⟨here, later⟩ := List.forall_mem_cons.mp blanks
    rw [List.append_cons, ih later, one here]

section

variable {t : Text} (model : Text)

theorem modelRows?_eq_findModel :
    modelRows? t model =
      (findModel model t).bind fun d => if d.close.isSome then some (rows (d.body t)) else none := by
  have looked := congrArg (Option.bind · fun p => if p.1 then some (rows p.2) else none)
    (find?_partsFrom .model model 0 t (outline t))
  simp only [Option.bind_map] at looked
  rw [modelRows?_eq]
  exact looked

theorem OnlyLineComments.model?_eq_findModel (only : OnlyLineComments t) :
    (Document.parse t).model? model =
      (findModel model t).map fun d => Model.ofRows model (rows (d.body t)) := by
  have looked := congrArg (Option.map fun p => Model.ofRows model (rows p.2))
    (find?_partsFrom .model model 0 t (outline t))
  rw [Option.map_map, Option.map_map] at looked
  rw [only.model?_eq]
  exact looked

end

/-- A declaration of a model with some text between its braces. -/
def modelBlock (name body : Text) : Text := txt "model " ++ name ++ txt " " ++ '{' :: (body ++ ['}', '\n'])

/-- A text with the declaration of a model behind it. -/
def withModel (t name body : Text) : Text := trimEnd t ++ (txt "\n\n" ++ modelBlock name body)

/-- The header of that declaration, in a text of ASCII characters. -/
def modelHeader (t name : Text) : Header where
  keyword := .model
  name := name
  start := (trimEnd t).length + 2
  brace := (trimEnd t).length + 2 + (txt "model " ++ name ++ txt " ").length

section

variable {t name body : Text} (word : IsWord name) (plainName : IsPlainName name) (plainBody : IsPlainBody body)

include word in
theorem modelLead_isHead : IsHead .model name (txt "model " ++ name ++ txt " ") :=
  ⟨[], txt " ", txt " ", rfl, by simp, by decide, by decide, word.1, word.2, by decide⟩

include plainName in
theorem modelLead_isCode : IsCode (txt "model " ++ name ++ txt " ") := by
  refine isCode_of_safe fun c member => ?_
  simp only [List.mem_append] at member
  rcases member with (inside | inside) | inside
  · exact (by decide : ∀ c ∈ txt "model ", isSafeChar c) c inside
  · exact isSafeChar_of_isWordChar (plainName c inside).1 (plainName c inside).2
  · exact (by decide : ∀ c ∈ txt " ", isSafeChar c) c inside

include plainName plainBody

theorem modelBlock_only : OnlyLineComments (modelBlock name body) := by
  have footer : OnlyLineComments ['}', '\n'] := ⟨by decide, by decide, by simp⟩
  have inner := (plainBody.only.append footer (by simp)).cons (c := '{') (by decide) (by decide) (by simp)
  exact (modelLead_isCode plainName).only.append inner (by simp)

theorem blankFrom_modelBlock :
    blankFrom false (modelBlock name body) =
      txt "model " ++ name ++ txt " " ++ '{' :: (blankFrom false body ++ ['}', '\n']) := by
  have lead := modelLead_isCode plainName
  have footer : blankFrom false ['}', '\n'] = ['}', '\n'] := by decide
  rw [modelBlock, blankFrom_append (meetApart_of_head (by decide)), lead.commentAfter, lead.blankFrom,
    blankFrom_brace (Or.inl rfl), blankFrom_append (meetApart_of_head (by decide)), plainBody.ends, footer]

omit plainName plainBody in
theorem staysOpen_block {u v : Text} {depth : Nat} (positive : 0 < depth) (inFront : '}' ∉ u) (inside : '}' ∉ v) :
    StaysOpen '{' '}' depth (u ++ '{' :: (v ++ ['}', '\n'])) := by
  intro part before
  have none {w : Text} (without : '}' ∉ w) : w.count '}' = 0 := List.count_eq_zero.mpr without
  obtain ⟨after, whole⟩ := before
  rcases List.append_eq_append_iff.mp whole with ⟨more, uEq, -⟩ | ⟨later, rfl, blockEq⟩
  · have few : part.count '}' = 0 := none fun member => inFront (by simp [uEq, member])
    omega
  · rcases later with _ | ⟨c, later⟩
    · rw [List.append_nil, none inFront]
      omega
    · obtain ⟨rfl, rest⟩ := List.cons_eq_cons.mp blockEq
      have inBlock : v ++ ['}', '\n'] = later ++ after := rest
      have one : later.count '}' ≤ 1 := by
        have all := congrArg (List.count '}') inBlock
        rw [List.count_append, List.count_append, none inside] at all
        exact (Nat.le_add_right _ _).trans all.ge
      rw [List.count_append, List.count_append, none inFront, List.count_cons_of_ne (by decide), List.count_cons_self]
      omega

end

section

variable {t name body : Text} (plain : IsPlainText t) (word : IsWord name) (plainName : IsPlainName name)
  (plainBody : IsPlainBody body)

include plain

/-- A text is masked as its visible part, with white space behind it. -/
theorem IsPlainText.trimmed :
    ∃ gap, t = trimEnd t ++ gap ∧ (∀ c ∈ gap, isBlank c) ∧ OnlyLineComments (trimEnd t) ∧
      ∃ gap', mask t = blankFrom false (trimEnd t) ++ gap' ∧ ∀ c ∈ gap', isBlank c := by
  obtain ⟨gap, whole, blanks⟩ := dropEndWhile_split isBlank t
  have only : OnlyLineComments (trimEnd t) := plain.only.of_infix (dropEndWhile_isPrefix isBlank t).isInfix
  refine ⟨gap, whole, blanks, only, blankFrom (commentAfter false (trimEnd t)) gap, ?_, fun c member => ?_⟩
  · have apart : MeetApart (trimEnd t) gap := by
      rcases gap with _ | ⟨c, gap⟩
      · exact meetApart_nil_right
      · exact meetApart_of_head (by rintro rfl; exact absurd (blanks '/' (by simp)) (by decide))
    rw [mask_eq_blankFrom plain.only, ← blankFrom_append apart]
    exact congrArg _ whole
  · rcases mem_blankFrom member with inside | rfl
    · exact blanks c inside
    · decide

include plainName plainBody

theorem IsPlainText.withModel_only : OnlyLineComments (withModel t name body) := by
  obtain ⟨-, -, -, only, -⟩ := plain.trimmed
  have gap : OnlyLineComments (txt "\n\n") := ⟨by decide, by decide, by simp [txt]⟩
  have block := modelBlock_only plainName plainBody
  exact only.append (gap.append block (by simp [txt])) (by simp [txt])

theorem IsPlainText.mask_withModel :
    mask (withModel t name body) =
      blankFrom false (trimEnd t) ++ (txt "\n\n" ++
        (txt "model " ++ name ++ txt " " ++ '{' :: (blankFrom false body ++ ['}', '\n']))) := by
  have gap (u : Text) : txt "\n\n" ++ u = '\n' :: '\n' :: u := rfl
  rw [mask_eq_blankFrom (plain.withModel_only plainName plainBody), withModel,
    ← blankFrom_modelBlock plainName plainBody, gap, gap, blankFrom_append_newline, blankFrom_newline]

omit plainName plainBody in
theorem IsPlainText.size_trimmed : byteSize (blankFrom false (trimEnd t)) = (trimEnd t).length := by
  obtain ⟨-, -, -, only, -⟩ := plain.trimmed
  rw [byteSize_blankFrom only.ascii, byteSize_of_ascii only.ascii]

omit plainName plainBody in
/-- White space at the end of a text opens no block. -/
theorem IsPlainText.headers_trimmed : headers (mask t) = headers (blankFrom false (trimEnd t)) := by
  obtain ⟨-, -, -, -, gap, masked, blanks⟩ := plain.trimmed
  rw [masked, headers_append_blanks blanks]

include word in
theorem IsPlainText.headers_withModel :
    headers (mask (withModel t name body)) = headers (mask t) ++ [modelHeader t name] := by
  have head := modelLead_isHead word
  have code := modelLead_isCode plainName
  obtain ⟨rest, atRest⟩ : ∃ rest,
      rest = txt "model " ++ name ++ txt " " ++ '{' :: (blankFrom false body ++ ['}', '\n']) := ⟨_, rfl⟩
  have gapped : IsGap (txt "\n\n") rest := by
    refine ⟨by decide, Or.inr ⟨⟨['\n'], rfl⟩, fun c opens => ?_⟩⟩
    rw [atRest] at opens
    obtain rfl := Option.some.inj opens
    decide
  have split := headersFrom_append_gap gapped true 0 (blankFrom false (trimEnd t))
  have two : byteSize (txt "\n\n") = 2 := rfl
  have block : headersFrom true ((trimEnd t).length + 2) rest = [modelHeader t name] := by
    rw [atRest, headersFrom_append_opening, head.headersFrom code.inLine,
      headersFrom_no_opening plainBody.noBrace.1, byteSize_of_ascii code.ascii]
    rfl
  rw [Nat.zero_add, plain.size_trimmed, two, block] at split
  rw [plain.mask_withModel plainName plainBody, ← atRest, plain.headers_trimmed]
  exact split

/-- The blocks of a text close where they did before. -/
theorem IsPlainText.blockEnd_withModel {h : Header} (member : h ∈ headers (mask t)) :
    blockEnd (mask (withModel t name body)) h.brace = blockEnd (mask t) h.brace ∧
      (blockEnd (mask t) h.brace).getD h.brace < (trimEnd t).length := by
  have code := modelLead_isCode plainName
  have size := plain.size_trimmed
  obtain ⟨-, -, -, -, gap, masked, blanks⟩ := plain.trimmed
  have paired : StaysOpen '{' '}' 1 (txt "\n\n" ++
      (txt "model " ++ name ++ txt " " ++ '{' :: (blankFrom false body ++ ['}', '\n']))) := by
    rw [← List.append_assoc]
    exact staysOpen_block Nat.one_pos (by simpa [txt] using code.noBrace.2) plainBody.noBrace.2
  have noBrace : StaysOpen '{' '}' 1 gap :=
    staysOpen_of_not_mem Nat.one_pos fun inside => absurd (blanks _ inside) (by decide)
  rw [plain.headers_trimmed] at member
  obtain ⟨front, inner, visible, atBrace⟩ := brace_of_mem_headers member
  have before : blockEnd (mask t) h.brace = blockEnd (blankFrom false (trimEnd t)) h.brace := by
    rw [masked, atBrace]
    exact blockEnd_append noBrace visible
  refine ⟨?_, ?_⟩
  · rw [before, plain.mask_withModel plainName plainBody, atBrace]
    exact blockEnd_append paired visible
  · rw [before, atBrace, visible]
    rw [visible, byteSize_append, byteSize_cons] at size
    have one : '{'.utf8Size = 1 := rfl
    rcases blockEnd_cases front inner with ⟨-, none⟩ | ⟨part, after, rfl, -, -, found⟩
    · rw [none, Option.getD_none]
      omega
    · have positive := '}'.utf8Size_pos
      rw [byteSize_append, byteSize_cons] at size
      rw [found, Option.getD_some]
      omega

theorem IsPlainText.blockEnd_modelHeader :
    blockEnd (mask (withModel t name body)) (modelHeader t name).brace =
      some ((modelHeader t name).brace + 1 + body.length) := by
  have code := modelLead_isCode plainName
  have size : byteSize (blankFrom false (trimEnd t) ++ (txt "\n\n" ++ (txt "model " ++ name ++ txt " "))) =
      (modelHeader t name).brace := by
    rw [byteSize_append, plain.size_trimmed, byteSize_append, byteSize_of_ascii code.ascii, ← Nat.add_assoc]
    rfl
  have split : mask (withModel t name body) =
      blankFrom false (trimEnd t) ++ (txt "\n\n" ++ (txt "model " ++ name ++ txt " ")) ++
        '{' :: (blankFrom false body ++ '}' :: ['\n']) := by
    rw [plain.mask_withModel plainName plainBody]
    simp
  have balance : (blankFrom false body).count '{' = (blankFrom false body).count '}' := by
    rw [List.count_eq_zero.mpr plainBody.noBrace.1, List.count_eq_zero.mpr plainBody.noBrace.2]
  rw [split, ← size, blockEnd_eq_some (staysOpen_of_not_mem Nat.one_pos plainBody.noBrace.2) balance,
    byteSize_blankFrom plainBody.only.ascii, byteSize_of_ascii plainBody.only.ascii]

include word in
/-- Behind the declarations of a text there is the new one. A block that is not closed goes on to it. -/
theorem IsPlainText.outline_withModel :
    ∃ d, outline (withModel t name body) =
        (outline t).map (·.extend t.length ((trimEnd t).length + 2)) ++ [d] ∧ d.keyword = .model ∧ d.name = name ∧
          d.body (withModel t name body) = body := by
  have sizeMask : byteSize (mask t) = t.length := by rw [byteSize_mask, byteSize_of_ascii plain.ascii]
  have declared : outline (withModel t name body) =
      (outline t).map (·.extend t.length ((trimEnd t).length + 2)) ++
        [(modelHeader t name).declaration (mask (withModel t name body)) []] := by
    have same {d : Declaration} (member : d ∈ declarationsFrom (mask t) 0 (headers (mask t))) :
        blockEnd (mask (withModel t name body)) d.brace = d.close ∧ d.close.getD d.brace < (trimEnd t).length := by
      obtain ⟨earlier, h, later, split, rfl⟩ := mem_declarationsFrom member
      exact plain.blockEnd_withModel plainName plainBody (by rw [split]; simp)
    rw [outline, plain.headers_withModel word plainName plainBody, declarationsFrom_append (t := mask t), outline,
      sizeMask]
    · rfl
    · intro h member
      obtain ⟨-, below, inText⟩ := Header.start_lt_brace member
      omega
    · exact fun d member => (same member).1
    · intro d member g inNew
      rw [List.mem_singleton.mp inNew]
      exact (same member).2.trans (Nat.lt_add_of_pos_right Nat.two_pos)
    · exact fun g _ => Nat.zero_le _
  refine ⟨_, declared, rfl, rfl, ?_⟩
  have only' := plain.withModel_only plainName plainBody
  have front : (modelHeader t name).brace + 1 =
      (trimEnd t ++ (txt "\n\n" ++ (txt "model " ++ name ++ txt " ")) ++ ['{']).length := by
    rw [List.length_append, List.length_append, List.length_append, ← Nat.add_assoc]
    rfl
  have split : withModel t name body =
      trimEnd t ++ (txt "\n\n" ++ (txt "model " ++ name ++ txt " ")) ++ ['{'] ++ (body ++ ['}', '\n']) := by
    simp [withModel, modelBlock]
  have stop : ((modelHeader t name).declaration (mask (withModel t name body)) []).stop =
      (modelHeader t name).brace + 1 + body.length := by
    simp only [Header.declaration, plain.blockEnd_modelHeader plainName plainBody, Option.getD_some]
  have brace : ((modelHeader t name).declaration (mask (withModel t name body)) []).brace =
      (modelHeader t name).brace := rfl
  rw [Declaration.body, slice_of_ascii only'.ascii, stop, brace, Nat.add_sub_cancel_left, front, split, List.drop_left,
    List.take_left]

omit plainName plainBody in
/-- Where a declaration of a text ends, if the white space at the end of the text counts for nothing. -/
theorem IsPlainText.stop_cases {d : Declaration} (member : d ∈ outline t) :
    d.brace < (trimEnd t).length ∧ (d.stop ≤ (trimEnd t).length ∨ d.close = none ∧ d.stop = t.length) := by
  obtain ⟨gap, whole, blanks, -⟩ := plain.trimmed
  have visible {n : Nat} {c : Char} (noSpace : c ≠ ' ') (noBlank : isBlank c = false) (at' : HasAt (mask t) n c) :
      n < (trimEnd t).length := by
    obtain ⟨u, v, split, size⟩ := hasAt_of_mask noSpace at'
    rw [byteSize_of_ascii fun c member => plain.ascii c (by rw [split]; simp [member])] at size
    by_contra outside
    have inGap : gap[n - (trimEnd t).length]? = some c := by
      have here : t[n]? = some c := by simp [split, ← size]
      rwa [whole, List.getElem?_append_right (Nat.le_of_not_lt outside)] at here
    simp [blanks c (List.mem_of_getElem? inGap)] at noBlank
  have lies := Declaration.liesIn member
  refine ⟨visible (by decide) (by decide) lies.opens, ?_⟩
  cases closed : d.close with
  | some close =>
    obtain ⟨stop, atClose, -⟩ := lies.closed close closed
    exact Or.inl (stop ▸ (visible (by decide) (by decide) atClose).le)
  | none =>
    obtain ⟨i, atIndex⟩ := List.mem_iff_getElem?.mp member
    have stop := (outline_geometry t).2.1 i d atIndex closed
    cases next : (outline t)[i + 1]? with
    | none =>
      rw [next] at stop
      exact Or.inr ⟨rfl, stop.trans (byteSize_of_ascii plain.ascii)⟩
    | some e =>
      rw [next] at stop
      change d.stop = e.start at stop
      have later := Declaration.liesIn (List.mem_of_getElem? next)
      have before := visible (by decide) (by decide) later.opens
      have inOrder := later.start_le_brace
      exact Or.inl (by omega)

/-- The body of a declaration stays, but for white space at its end if it is not closed. -/
theorem IsPlainText.body_extend {d : Declaration} (member : d ∈ outline t) :
    ∃ u gap gap', d.body t = u ++ gap ∧
      (d.extend t.length ((trimEnd t).length + 2)).body (withModel t name body) = u ++ gap' ∧
        (∀ c ∈ gap, isBlank c) ∧ (∀ c ∈ gap', isBlank c) ∧ (d.close.isSome → gap = [] ∧ gap' = []) := by
  have only' := plain.withModel_only plainName plainBody
  obtain ⟨gap, whole, blanks, -⟩ := plain.trimmed
  obtain ⟨brace, place⟩ := plain.stop_cases member
  have trimmed (x : Text) : (trimEnd t ++ x).drop (d.brace + 1) = (trimEnd t).drop (d.brace + 1) ++ x :=
    List.drop_append_of_le_length brace
  by_cases moves : d.close = none ∧ d.stop = t.length
  · obtain ⟨unclosed, atEnd⟩ := moves
    refine ⟨(trimEnd t).drop (d.brace + 1), gap, txt "\n\n", ?_, ?_, blanks, by decide, by simp [unclosed]⟩
    · rw [Declaration.body, slice_of_ascii plain.ascii, atEnd, ← trimmed, ← whole, List.take_of_length_le]
      simp
    · have stop : (d.extend t.length ((trimEnd t).length + 2)).stop = (trimEnd t).length + 2 := by
        rw [Declaration.extend, if_pos ⟨unclosed, atEnd⟩]
      have size : (trimEnd t).length + 2 - (d.brace + 1) =
          ((trimEnd t).drop (d.brace + 1) ++ txt "\n\n").length := by
        rw [List.length_append, List.length_drop]
        have two : (txt "\n\n").length = 2 := rfl
        omega
      have opening : (d.extend t.length ((trimEnd t).length + 2)).brace = d.brace := rfl
      rw [Declaration.body, slice_of_ascii only'.ascii, stop, opening, size, withModel, trimmed, ← List.append_assoc,
        List.take_left]
  · have inFront := place.resolve_right moves
    have inOrder := (Declaration.liesIn member).brace_lt_stop
    have ascii := plain.ascii
    rw [whole] at ascii
    have same : d.extend t.length ((trimEnd t).length + 2) = d := by rw [Declaration.extend, if_neg moves]
    refine ⟨d.body t, [], [], (List.append_nil _).symm, ?_, by simp, by simp, by simp⟩
    rw [same, List.append_nil, Declaration.body, Declaration.body]
    conv => rhs; rw [whole]
    rw [slice_front ascii (by omega) inFront]
    exact slice_front only'.ascii (by omega) inFront

end

/-- A model put behind a text changes none of the others. -/
structure ModelAdded (t t' name : Text) : Prop where
  plain : IsPlainText t'
  rows : ∀ other, other ≠ name → modelRows? t' other = modelRows? t other
  models : ∀ other, other ≠ name → (Document.parse t').model? other = (Document.parse t).model? other
  added : (Document.parse t').hasModel name

section

variable {t name body : Text} (plain : IsPlainText t) (word : IsWord name) (plainName : IsPlainName name)
  (plainBody : IsPlainBody body)

include plain word plainName plainBody

theorem IsPlainText.isPlainText_withModel : IsPlainText (withModel t name body) := by
  have only' := plain.withModel_only plainName plainBody
  obtain ⟨added, declared, -, -, addedBody⟩ := plain.outline_withModel word plainName plainBody
  refine ⟨only'.ascii, only'.noString, noBlock_of_isChain only'.noBlock, fun d member => ?_⟩
  rw [only'.body_mask member]
  rw [declared] at member
  rcases List.mem_append.mp member with inside | last
  · obtain ⟨e, inText, rfl⟩ := List.mem_map.mp inside
    obtain ⟨u, gap, gap', before, after, blanks, blanks', -⟩ := plain.body_extend plainName plainBody inText
    have none := plain.noBrace e inText
    rw [plain.only.body_mask inText, before] at none
    have apart {x : Text} (white : ∀ c ∈ x, isBlank c) : MeetApart u x := by
      rcases x with _ | ⟨c, x⟩
      · exact meetApart_nil_right
      · exact meetApart_of_head (by rintro rfl; exact absurd (white '/' (by simp)) (by decide))
    rw [blankFrom_append (apart blanks)] at none
    have absent {c : Char} (visible : isBlank c = false) (noSpace : c ≠ ' ')
        (outside : c ∉ blankFrom false u ++ blankFrom (commentAfter false u) gap) : c ∉ blankFrom false (u ++ gap') := by
      rw [blankFrom_append (apart blanks')]
      intro inside
      rcases List.mem_append.mp inside with inText | inGap
      · exact outside (List.mem_append_left _ inText)
      · simp [blanks' c ((mem_blankFrom inGap).resolve_right noSpace)] at visible
    rw [after]
    exact ⟨absent (by decide) (by decide) none.1, absent (by decide) (by decide) none.2⟩
  · rw [List.mem_singleton.mp last, addedBody]
    exact plainBody.noBrace

/-- The new declaration is found under its name, if there is no other one of that name. -/
theorem IsPlainText.findModel_withModel :
    ∃ added : Declaration, added.body (withModel t name body) = body ∧ ∀ other, findModel other (withModel t name body) =
      ((findModel other t).map (·.extend t.length ((trimEnd t).length + 2))).or
        (if name = other then some added else none) := by
  obtain ⟨added, declared, keyword, named, addedBody⟩ := plain.outline_withModel word plainName plainBody
  refine ⟨added, addedBody, fun other => ?_⟩
  have same : (fun d : Declaration => decide (d.keyword = .model) && decide (d.name = other)) ∘
      Declaration.extend t.length ((trimEnd t).length + 2) =
        fun d : Declaration => decide (d.keyword = .model) && decide (d.name = other) := rfl
  rw [findModel, findDeclaration, declared, List.find?_append, List.find?_map, same]
  congr 1
  by_cases here : name = other
  · simp [keyword, named, here]
  · simp [named, here]

/-- A model put behind a text that has none of its name is read from its rows. -/
theorem IsPlainText.model?_withModel (new : (Document.parse t).hasModel name = false) :
    (Document.parse (withModel t name body)).model? name = some (Model.ofRows name (rows body)) := by
  have plain' := plain.isPlainText_withModel word plainName plainBody
  obtain ⟨added, addedBody, find⟩ := plain.findModel_withModel word plainName plainBody
  rw [Document.hasModel, plain.only.model?_eq_findModel, Option.isSome_map] at new
  have none : findModel name t = .none := by simpa using new
  rw [plain'.only.model?_eq_findModel, find, none, if_pos rfl, Option.map_none, Option.none_or, Option.map_some, addedBody]

theorem IsPlainText.modelAdded : ModelAdded t (withModel t name body) name := by
  have plain' := plain.isPlainText_withModel word plainName plainBody
  obtain ⟨added, -, find⟩ := plain.findModel_withModel word plainName plainBody
  have elsewhere {other : Text} (differ : other ≠ name) : findModel other (withModel t name body) =
      (findModel other t).map (·.extend t.length ((trimEnd t).length + 2)) := by
    rw [find, if_neg (Ne.symm differ), Option.or_none]
  refine ⟨plain', fun other differ => ?_, fun other differ => ?_, ?_⟩
  · rw [modelRows?_eq_findModel, modelRows?_eq_findModel, elsewhere differ, Option.bind_map]
    refine Option.bind_congr fun d found => ?_
    obtain ⟨u, gap, gap', before, after, -, -, closed⟩ :=
      plain.body_extend plainName plainBody (List.mem_of_find?_eq_some found)
    have same : (d.extend t.length ((trimEnd t).length + 2)).close = d.close := rfl
    simp only [Function.comp, same, before, after]
    split
    · rename_i isClosed
      rw [(closed isClosed).1, (closed isClosed).2]
    · rfl
  · rw [plain'.only.model?_eq_findModel, plain.only.model?_eq_findModel, elsewhere differ, Option.map_map]
    refine Option.map_congr fun d found => ?_
    obtain ⟨u, gap, gap', before, after, blanks, blanks', -⟩ :=
      plain.body_extend plainName plainBody (List.mem_of_find?_eq_some found)
    simp only [Function.comp, before, after]
    rw [Model.ofRows_eq, Model.ofRows_eq, shownLines_append_blanks blanks, shownLines_append_blanks blanks']
  · rw [Document.hasModel, plain'.only.model?_eq_findModel, find, if_pos rfl]
    cases findModel name t <;> rfl

end

end SchemaDiagram
