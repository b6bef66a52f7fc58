import SchemaDiagram.Proofs.FieldLookup

namespace SchemaDiagram

open Text

/-- The comment that ends the line of a field. -/
def lineRemark (t model field : Text) : Text := written (commentPart (declaringLine t model field))

/-- Whether the scanner is inside of a block comment. -/
def ScanState.inBlock : ScanState → Bool
  | .commentOpening | .blockComment | .commentClosing => true
  | .code | .string | .escape | .lineComment _ => false

theorem ScanState.step_noBlock {state : ScanState} (outside : state.inBlock = false) (lineBlank : Bool) {c : Char} {t : Text}
    (noSign : ¬txt "/*" <+: c :: t) :
    (state.step lineBlank c t).2.inBlock = false ∧ (c = '\n' → (state.step lineBlank c t).1 = .code) := by
  cases state with
  | code =>
    by_cases quote : c = '"'
    · simp [step, quote, inBlock]
    by_cases plain : c ≠ '/'
    · simp [step_code_plain quote plain, inBlock]
    obtain rfl : c = '/' := Decidable.not_not.mp plain
    have inLine : '/' ≠ '\n' := by decide
    by_cases line : t.head? = some '/'
    · obtain ⟨more, rfl⟩ := List.head?_eq_some_iff.mp line
      exact ⟨rfl, fun same => absurd same inLine⟩
    by_cases block : t.head? = some '*'
    · obtain ⟨more, rfl⟩ := List.head?_eq_some_iff.mp block
      exact absurd ⟨more, rfl⟩ noSign
    · rw [step_code_slash line block]
      exact ⟨rfl, fun same => absurd same inLine⟩
  | string =>
    by_cases ends : c = '"' ∨ c = '\n'
    · simp [step, ends, inBlock]
    · obtain ⟨-, other⟩ := not_or.mp ends
      refine ⟨?_, fun same => absurd same other⟩
      simp only [step, if_neg ends]
      split <;> rfl
  | escape | lineComment role =>
    by_cases ends : c = '\n'
    · simp [step, ends, inBlock]
    · exact ⟨by simp [step, ends, inBlock], fun same => absurd same ends⟩
  | commentOpening | blockComment | commentClosing => cases outside

/-- In a text without block comments no line begins inside of a comment. -/
theorem newline_code {state : ScanState} {lineBlank : Bool} {t : Text} {earlier later : List (Char × Role)} {role : Role}
    (outside : state.inBlock = false) (noBlock : ¬txt "/*" <:+: t)
    (items : scanFrom state lineBlank t = earlier ++ ('\n', role) :: later) : role = .code := by
  induction earlier generalizing state lineBlank t with
  | nil =>
    rcases t with _ | ⟨c, t⟩
    · cases items
    rw [scanFrom_cons] at items
    obtain ⟨rfl, atRole⟩ := Prod.mk.inj (List.cons_eq_cons.mp items).1
    rw [← atRole]
    exact (ScanState.step_noBlock outside lineBlank fun sign => noBlock sign.isInfix).2 rfl
  | cons item earlier ih =>
    rcases t with _ | ⟨c, t⟩
    · cases items
    rw [scanFrom_cons, List.cons_append] at items
    exact ih (ScanState.step_noBlock outside lineBlank fun sign => noBlock sign.isInfix).1
      (fun sign => noBlock (sign.trans (List.suffix_cons c t).isInfix)) (List.cons_eq_cons.mp items).2

/-- A line comment goes on to the end of its line. -/
theorem scanFrom_lineComment {role : Role} {lineBlank : Bool} {t : Text} {line rest : List (Char × Role)}
    (items : scanFrom (.lineComment role) lineBlank t = line ++ rest) (inLine : '\n' ∉ written line) :
    ∃ lineBlank', scanFrom (.lineComment role) lineBlank' (written rest) = rest := by
  induction line generalizing t lineBlank with
  | nil =>
    obtain rfl : rest = scanFrom (.lineComment role) lineBlank t := items.symm
    exact ⟨lineBlank, by rw [written_scanFrom]⟩
  | cons item line ih =>
    rcases t with _ | ⟨c, t⟩
    · cases items
    rw [scanFrom_cons, List.cons_append] at items
    obtain ⟨rfl, more⟩ := List.cons_eq_cons.mp items
    obtain ⟨other, oneLine⟩ := List.ne_and_not_mem_of_not_mem_cons inLine
    rw [ScanState.step_lineComment other.symm] at more
    exact ih more oneLine

/-- Without block comments the comment of a line begins with two slashes and nothing but the newline follows it. -/
theorem LineRest.remark {returns : Text} {below back rest line : List (Char × Role)} (tail : LineRest returns below back rest)
    {lineBlank : Bool} {t : Text} (items : scanFrom .code lineBlank t = line ++ rest) (inLine : '\n' ∉ written line)
    (noBlock : ¬txt "/*" <:+: t) (remarked : commentPart line ≠ []) :
    txt "//" <+: written (commentPart line) ∧ (written rest).head? = some '\n' := by
  have parts := codePart_append_commentPart line
  have whole : t = written (codePart line) ++ written (commentPart line ++ rest) := by
    rw [← written_append, ← List.append_assoc, parts, ← items, written_scanFrom]
  obtain ⟨c, comments, atComment⟩ := (commentPart_cases line).resolve_left remarked
  have uncommented : ∀ item ∈ codePart line, item.2 ≠ .comment := fun item member => by
    simpa using List.mem_takeWhile_imp member
  rw [← parts, List.append_assoc, atComment] at items
  rw [← parts, atComment, written_append] at inLine
  obtain ⟨here, live, -, atHere⟩ :=
    scanFrom_uncommented (show ScanState.code.inComment = false from rfl) (ScanState.fits_code t) items uncommented
  have anew := scanFrom_comment live atHere.symm
  rw [List.cons_append, written_cons, scanFrom_cons] at anew
  obtain ⟨atHead, more⟩ := List.cons_eq_cons.mp anew
  have role : (ScanState.code.step false c (written (comments ++ rest))).1 = .comment := (Prod.mk.inj atHead).2
  obtain ⟨-, rfl, sign, -, -⟩ := (ScanState.step_uncommented rfl false c _).resolve_left fun other => other.1 role
  have bare : ∀ c ∈ written [], isBlank c ∧ c ≠ '\n' := List.forall_mem_nil _
  rcases comments with _ | ⟨⟨d, second⟩, comments⟩
  · have apart : IsApart (written ([] ++ rest)) := tail.isApart fun c member => (bare c member).1
    exact absurd sign (not_or.mpr apart)
  rw [List.cons_append, written_cons] at sign role
  rw [atComment, List.cons_append, List.cons_append, written_cons, written_cons] at whole
  obtain rfl | rfl : d = '/' ∨ d = '*' := sign.imp Option.some.inj Option.some.inj
  · refine ⟨⟨written comments, by rw [atComment]; rfl⟩, ?_⟩
    have oneLine : '\n' ∉ written (('/', second) :: comments) := fun member =>
      inLine (List.mem_append_right _ (List.mem_cons_of_mem _ member))
    have next : (ScanState.code.step false '/' ('/' :: written (comments ++ rest))).2 = .lineComment .comment :=
      congrArg ScanState.lineComment role
    rw [List.cons_append, written_cons, next] at more
    have again : scanFrom (.lineComment .comment) (lineBlankAfter false '/') ('/' :: written (comments ++ rest)) =
        (('/', second) :: comments) ++ rest := more
    obtain ⟨lineBlank', atRest⟩ := scanFrom_lineComment again oneLine
    have fits : (ScanState.lineComment .comment).Fits (written rest) := by simp [ScanState.Fits]
    have behind : scanFrom (.lineComment .comment) lineBlank' (written rest) = [] ++ rest := atRest
    rcases tail.newline_or_code fits behind bare with ⟨rfl, _, later, rfl⟩ | inCode
    · rw [tail.split]
      rfl
    · cases inCode
  · refine absurd ?_ noBlock
    exact ⟨written (codePart line), written (comments ++ rest), by rw [whole]; simp [txt]⟩

/-- The line of a field that ends in a comment, rewritten. The comment is put behind the new line if that has no two slashes
in a row. Slashes in a string count too, so that the comment is lost. -/
theorem replaceField_remark {t model line : Text} {d : Declaration} {m : Model} {f : Field} (ascii : ∀ c ∈ t, isAscii c)
    (noBlock : ¬txt "/*" <:+: t) (found : findModel model t = some d) (closed : d.close.isSome)
    (parsed : (Document.parse t).model? model = some m) (member : f ∈ m.fields) (other : f.name ≠ protectedField)
    (remarked : lineRemark t model f.name ≠ []) (noBrace : '}' ∉ line) :
    ∃ start stop code, fieldLine? t model f.name = some (start, stop) ∧
      slice start stop t = code ++ lineRemark t model f.name ∧ txt "//" <+: lineRemark t model f.name ∧
      (dropBytes stop t).head? = some '\n' ∧
      replaceField t model f.name line = .ok (takeBytes start t ++ (indent (slice start stop t) ++ trimEnd line ++
        if occurs (txt "//") (trimEnd line) then [] else ' ' :: trimEnd (lineRemark t model f.name)) ++
          dropBytes stop t) := by
  obtain ⟨-, front, body, back, -, above, old, returns, below, rest, place⟩ :=
    exists_fieldPlace_of_parse found closed parsed member
  obtain ⟨taken, cut, after⟩ := place.cuts
  have noComment : (front ++ ('{', Role.code) :: above).getLast? ≠ some ('\n', .comment) := by
    intro last
    obtain ⟨earlier, split⟩ := List.getLast?_eq_some_iff.mp last
    have scanned := place.scanned
    rw [split, List.append_assoc, List.singleton_append] at scanned
    have role := newline_code rfl noBlock scanned
    cases role
  obtain ⟨lineBlank, atLine, -⟩ := place.scan_anew noComment
  have inLine : '\n' ∉ written old := fun newline => place.lineAt.inLine (by simp [newline])
  have part : written (old ++ rest) <:+: t := by
    rw [place.whole, written_append, List.append_assoc]
    exact (List.suffix_append _ _).isInfix
  rw [lineRemark, place.declaringLine_eq] at remarked ⊢
  have nonempty : commentPart old ≠ [] := fun none => remarked (by rw [none]; rfl)
  obtain ⟨sign, ends⟩ := place.tail.remark atLine.symm inLine (fun block => noBlock (block.trans part)) nonempty
  refine ⟨_, _, written (codePart old), place.found, ?_, sign, by rw [after, ends], ?_⟩
  · rw [cut, ← written_append, codePart_append_commentPart]
  · have noBreak : closingBreak (written rest) = [] := by
      rw [closingBreak, ends]
      exact if_neg (by decide)
    rw [place.replaceField_eq ascii other noBrace atLine, taken, cut, after, if_neg nonempty, noBreak]
    simp

def remarkedPageSchema : Text := txt "model A \x7b\n  id Int @id\n  site String // home page\n\x7d\n"

theorem replaceField_remark_remarkedPageSchema :
    ∃ d m f, (∀ c ∈ remarkedPageSchema, isAscii c) ∧ ¬txt "/*" <:+: remarkedPageSchema ∧
      findModel (txt "A") remarkedPageSchema = some d ∧ d.close.isSome ∧
      (Document.parse remarkedPageSchema).model? (txt "A") = some m ∧ f ∈ m.fields ∧ f.name = txt "site" ∧
      f.name ≠ protectedField ∧ lineRemark remarkedPageSchema (txt "A") f.name ≠ [] ∧ '}' ∉ txt "site String? @unique" ∧
      ∃ start stop code, fieldLine? remarkedPageSchema (txt "A") f.name = some (start, stop) ∧
        slice start stop remarkedPageSchema = code ++ lineRemark remarkedPageSchema (txt "A") f.name ∧
        txt "//" <+: lineRemark remarkedPageSchema (txt "A") f.name ∧
        (dropBytes stop remarkedPageSchema).head? = some '\n' ∧
        replaceField remarkedPageSchema (txt "A") f.name (txt "site String? @unique") =
          .ok (takeBytes start remarkedPageSchema ++
            (indent (slice start stop remarkedPageSchema) ++ trimEnd (txt "site String? @unique") ++
              if occurs (txt "//") (trimEnd (txt "site String? @unique")) then []
              else ' ' :: trimEnd (lineRemark remarkedPageSchema (txt "A") f.name)) ++
            dropBytes stop remarkedPageSchema) := by
  have ascii : ∀ c ∈ remarkedPageSchema, isAscii c := by decide +kernel
  have noBlock : ¬txt "/*" <:+: remarkedPageSchema := by decide +kernel
  have found : findModel (txt "A") remarkedPageSchema = some ⟨.model, txt "A", 0, 8, some 50, 50⟩ := by decide +kernel
  have parsed : (Document.parse remarkedPageSchema).model? (txt "A") =
      some ⟨txt "A", [⟨txt "id", txt "Int", false, false, [txt "@id"], none⟩,
        ⟨txt "site", txt "String", false, false, [], none⟩], []⟩ := by decide +kernel
  have remarked : lineRemark remarkedPageSchema (txt "A") (txt "site") ≠ [] := by decide +kernel
  exact ⟨_, _, ⟨txt "site", txt "String", false, false, [], none⟩, ascii, noBlock, found, rfl, parsed, by simp, rfl,
    by decide, remarked, by decide,
    replaceField_remark ascii noBlock found rfl parsed (by simp) (by decide) remarked (by decide)⟩

/-- A comment is lost to an address in a string of the new line, which holds no comment itself. -/
theorem replaceField_remark_lost_remarkedPageSchema :
    ¬ ∀ (t model line : Text) (d : Declaration) (m : Model) (f : Field), (∀ c ∈ t, isAscii c) → ¬txt "/*" <:+: t →
      findModel model t = some d → d.close.isSome → (Document.parse t).model? model = some m → f ∈ m.fields →
      f.name ≠ protectedField → txt "//" <+: lineRemark t model f.name →
      '\n' ∉ line → '{' ∉ line → '}' ∉ line → strip line = line → Quoting.after .outside line = .outside →
      ∃ start stop rewritten, fieldLine? t model f.name = some (start, stop) ∧
        replaceField t model f.name line = .ok (takeBytes start t ++ rewritten ++ dropBytes stop t) ∧
        trimEnd (lineRemark t model f.name) <:+ rewritten := by
  intro all
  obtain ⟨start, stop, rewritten, place, replaced, kept⟩ := all remarkedPageSchema (txt "A")
    (txt "site String @default(\"http://x\")") ⟨.model, txt "A", 0, 8, some 50, 50⟩
    ⟨txt "A", [⟨txt "id", txt "Int", false, false, [txt "@id"], none⟩,
      ⟨txt "site", txt "String", false, false, [], none⟩], []⟩
    ⟨txt "site", txt "String", false, false, [], none⟩
    (by decide +kernel) (by decide +kernel) (by decide +kernel) rfl (by decide +kernel) (by simp) (by decide)
    (by decide +kernel) (by decide) (by decide) (by decide) (by decide +kernel) (by decide)
  have atPlace : fieldLine? remarkedPageSchema (txt "A") (txt "site") = some (23, 49) := by decide +kernel
  obtain ⟨rfl, rfl⟩ : 23 = start ∧ 49 = stop := by simpa using atPlace.symm.trans place
  have bare : replaceField remarkedPageSchema (txt "A") (txt "site") (txt "site String @default(\"http://x\")") =
      .ok (takeBytes 23 remarkedPageSchema ++ txt "  site String @default(\"http://x\")" ++
        dropBytes 49 remarkedPageSchema) := by decide +kernel
  obtain rfl : txt "  site String @default(\"http://x\")" = rewritten := by
    simpa using Except.ok.inj (bare.symm.trans replaced)
  revert kept
  decide +kernel

end SchemaDiagram
