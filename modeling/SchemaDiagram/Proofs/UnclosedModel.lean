import SchemaDiagram.Proofs.AppendedModel
import SchemaDiagram.Proofs.BodyFields
import SchemaDiagram.Proofs.CodeItems
import SchemaDiagram.Proofs.DocumentUnion
import SchemaDiagram.Proofs.OutlineJoin

namespace SchemaDiagram

open Text

/-- The rows of a body that is still being written: whole lines without braces, strings and comments. -/
structure IsOpenBody (b : Text) : Prop where
  wholeLines : b = [] ∨ ∃ u, b = u ++ ['\n']
  noBrace : '{' ∉ b ∧ '}' ∉ b
  noQuote : '"' ∉ b
  noLine : ¬ txt "//" <:+: b
  noBlock : ¬ txt "/*" <:+: b

/-- A model without its closing brace. -/
def unclosedModel (name b : Text) : Text := txt "model " ++ name ++ txt " \x7b\n" ++ b

/-- What it declares where it stands alone: a block that is open up to the end. -/
def unclosedDeclaration (name b : Text) : Declaration where
  keyword := .model
  name := name
  start := 0
  brace := byteSize (txt "model " ++ name ++ txt " ")
  close := none
  stop := byteSize (unclosedModel name b)

theorem unclosedModel_eq (name b : Text) :
    unclosedModel name b = txt "model " ++ name ++ txt " " ++ '{' :: '\n' :: b := by
  simp [unclosedModel, txt]

section

variable {name b : Text} (word : IsWord name) (isOpen : IsOpenBody b)

include word

theorem modelLead_not_mem {c : Char} (other : isWordChar c = false) (apart : c ∉ txt "model ") :
    c ∉ txt "model " ++ name ++ txt " " := by
  have noSpace : c ∉ txt " " := fun member => apart (by rw [List.mem_singleton.mp member]; decide)
  simp only [List.mem_append, not_or]
  exact ⟨⟨apart, word.not_mem other⟩, noSpace⟩

include isOpen

theorem unclosedModel_plain : '"' ∉ unclosedModel name b ∧ CommentFree .outside (unclosedModel name b) := by
  have noQuote := modelLead_not_mem word (c := '"') (by decide) (by decide)
  have noSlash := modelLead_not_mem word (c := '/') (by decide) (by decide)
  have whole : unquotedFrom .outside b = b := unquoted_of_not_mem isOpen.noQuote
  have bare : CommentFree .outside b :=
    commentFree_of_unquoted (by rw [whole]; exact isOpen.noLine) (by rw [whole]; exact isOpen.noBlock)
  rw [unclosedModel_eq]
  constructor
  · simp only [List.mem_append, List.mem_cons, not_or] at noQuote ⊢
    exact ⟨noQuote, by decide, by decide, isOpen.noQuote⟩
  · refine commentFree_append (commentFree_of_not_mem noSlash) ?_ (isApart_cons (by decide) (by decide) _)
    rw [after_of_not_mem noQuote]
    exact ⟨fun _ sign => absurd sign (by decide), fun _ sign => absurd sign (by decide), bare⟩

theorem scan_unclosedModel : scan (unclosedModel name b) = asCode (unclosedModel name b) := by
  obtain ⟨noQuote, free⟩ := unclosedModel_plain word isOpen
  have items := scanFrom_code (v := []) noQuote free ⟨by simp, by simp⟩ true
  rw [List.append_nil] at items
  exact items.trans (List.append_nil _)

theorem mask_unclosedModel : mask (unclosedModel name b) = unclosedModel name b := by
  rw [mask, scan_unclosedModel word isOpen]
  exact masked_asCode _

theorem strip_unclosedModel : strip (unclosedModel name b) = unclosedModel name b := by
  rw [strip, scan_unclosedModel word isOpen]
  exact stripped_asCode _

theorem tidy_unclosedModel : Tidy (unclosedModel name b) := by
  obtain ⟨noQuote, free⟩ := unclosedModel_plain word isOpen
  refine ⟨Or.inr ?_, scanEnd_code noQuote free true⟩
  rw [unclosedModel_eq]
  rcases isOpen.wholeLines with rfl | ⟨u, rfl⟩
  · exact ⟨txt "model " ++ name ++ txt " " ++ ['{'], by simp⟩
  · exact ⟨txt "model " ++ name ++ txt " " ++ '{' :: '\n' :: u, by simp⟩

theorem outline_unclosedModel : outline (unclosedModel name b) = [unclosedDeclaration name b] := by
  have noOpening : '{' ∉ '\n' :: b := List.not_mem_cons_of_ne_of_not_mem (by decide) isOpen.noBrace.1
  have noClosing : '}' ∉ '\n' :: b := List.not_mem_cons_of_ne_of_not_mem (by decide) isOpen.noBrace.2
  have inLine := modelLead_not_mem word (c := '\n') (by decide) (by decide)
  have unclosed : blockEnd (unclosedModel name b) (byteSize (txt "model " ++ name ++ txt " ")) = none := by
    rw [unclosedModel_eq, blockEnd_opening]
    exact closingFrom_eq_none (staysOpen_of_not_mem Nat.one_pos noClosing) _
  have one : headers (unclosedModel name b) =
      [{ keyword := .model, name, start := 0, brace := byteSize (txt "model " ++ name ++ txt " ") }] := by
    rw [unclosedModel_eq, headers, headersFrom_append_opening, headersFrom_eq_nil noOpening, List.append_nil,
      (modelLead_isHead word).headersFrom inLine, Nat.zero_add]
  rw [outline, mask_unclosedModel word isOpen, one, declarationsFrom_cons, if_neg (Nat.not_lt_zero _)]
  simp only [Header.declaration, unclosed]
  rfl

theorem sections_unclosedModel : sections (unclosedModel name b) = [⟨.model, name, '\n' :: b⟩] := by
  have cut := slice_append (txt "model " ++ name ++ txt " " ++ ['{']) ('\n' :: b) []
  have size : byteSize (txt "model " ++ name ++ txt " " ++ ['{']) = byteSize (txt "model " ++ name ++ txt " ") + 1 := by
    rw [byteSize_append]
    rfl
  have whole : txt "model " ++ name ++ txt " " ++ ['{'] ++ '\n' :: b ++ [] = unclosedModel name b := by
    rw [unclosedModel_eq]
    simp
  have stop : byteSize (txt "model " ++ name ++ txt " " ++ ['{']) + byteSize ('\n' :: b) =
      byteSize (unclosedModel name b) := by
    rw [← whole, List.append_nil, byteSize_append _ ('\n' :: b)]
  rw [whole, stop, size] at cut
  rw [sections, outline_unclosedModel word isOpen, List.map_singleton, Declaration.body,
    strip_unclosedModel word isOpen]
  exact congrArg (fun body => [(⟨.model, name, body⟩ : Section)]) cut

end

theorem Model.ofBody_newline (name b : Text) : Model.ofBody name ('\n' :: b) = Model.ofBody name b := by
  have fields := bodyFields_append_newline [] b
  have attributes := bodyAttributes_append_newline [] b
  obtain ⟨noField, noAttribute⟩ := body_blank (List.forall_mem_nil _)
  rw [noField, List.nil_append, List.nil_append] at fields
  rw [noAttribute, List.nil_append, List.nil_append] at attributes
  rw [Model.ofBody_eq_bodyFields, Model.ofBody_eq_bodyFields, fields, attributes]

/-- A document with one model. -/
def Document.single (m : Model) : Document := { datasource := none, generator := none, models := [m], enums := [] }

/-- A model that is not closed costs only itself: it ends where the next declaration begins, whatever is in front of it
and behind it is declared as it is alone, and its own rows are read too. -/
theorem parse_unclosedModel {p name b q : Text} (wholeLines : p = [] ∨ ∃ u, p = u ++ ['\n'])
    (terminated : scanEnd .code true p ≠ .blockComment) (closed : ∀ d ∈ outline p, d.close.isSome) (word : IsWord name)
    (isOpen : IsOpenBody b) (begins : BeginsDeclaration q)
    (paired : ∀ part, part <+: mask q → part.count '}' ≤ part.count '{') :
    outline (p ++ (unclosedModel name b ++ q)) =
        outline p ++ ((unclosedDeclaration name b).shift (byteSize p) ::
          (outline q).map (·.shift (byteSize (p ++ unclosedModel name b)))) ∧
      Document.parse (p ++ (unclosedModel name b ++ q)) =
        Document.union [Document.parse p, Document.single (Model.ofBody name b), Document.parse q] := by
  have stays : StaysOpen '{' '}' 1 (mask q) := by
    intro part before
    have count := paired part before
    omega
  have second : Precedes (unclosedModel name b) q :=
    ⟨tidy_unclosedModel word isOpen, Or.inr begins, Or.inr ⟨stays, begins⟩⟩
  have declared : outline (unclosedModel name b ++ q) =
      unclosedDeclaration name b :: (outline q).map (·.shift (byteSize (unclosedModel name b))) := by
    rw [second.outline_append, outline_unclosedModel word isOpen]
    rfl
  have first : Precedes p (unclosedModel name b ++ q) := by
    have tidy : Tidy p := by
      rcases wholeLines with rfl | ⟨u, rfl⟩
      · exact tidy_nil
      · exact tidy_append_newline (mt (scanEnd_append_blanks_iff (by decide) u).mpr terminated)
    have next : BeginsDeclaration (unclosedModel name b ++ q) := by
      rw [BeginsDeclaration, declared]
      rfl
    exact ⟨tidy, Or.inr next, Or.inl closed⟩
  constructor
  · rw [first.outline_append, declared, List.map_cons, List.map_map]
    congr 2
    exact List.map_congr_left fun d _ => by rw [byteSize_append, Function.comp_apply, d.shift_shift]
  · rw [Document.parse_eq_ofSections, first.sections_append, second.sections_append, sections_unclosedModel word isOpen]
    have parts := Document.ofSections_flatten [sections p, [⟨.model, name, '\n' :: b⟩], sections q]
    have here : Document.ofSections [⟨.model, name, '\n' :: b⟩] = Document.single (Model.ofBody name b) := by
      rw [← Model.ofBody_newline]
      rfl
    simp only [List.flatten_cons, List.flatten_nil, List.append_nil, List.map_cons, List.map_nil, here,
      ← Document.parse_eq_ofSections] at parts
    exact parts

instance (b : Text) : Decidable (IsOpenBody b) :=
  decidable_of_iff ((b = [] ∨ b.getLast? = some '\n') ∧ ('{' ∉ b ∧ '}' ∉ b) ∧ '"' ∉ b ∧ ¬ txt "//" <:+: b ∧
      ¬ txt "/*" <:+: b) <| by
    rw [List.getLast?_eq_some_iff]
    exact ⟨fun ⟨wholeLines, noBrace, noQuote, noLine, noBlock⟩ => ⟨wholeLines, noBrace, noQuote, noLine, noBlock⟩,
      fun isOpen => ⟨isOpen.wholeLines, isOpen.noBrace, isOpen.noQuote, isOpen.noLine, isOpen.noBlock⟩⟩

/-- A schema up to a model that is being typed, with half a header at its end. -/
def typedFront : Text := txt "model User \x7b\n  id Int @id // \x7d\n\x7d\nmodel Draft\n"

def typedBody : Text := txt "  id Int @id\n  author User\n\nmodel Note\n"

/-- The rest of the schema, with braces in a row, a string and a comment, and a model that is declared twice. -/
def typedBack : Text :=
  txt "  model User \x7b\n  name String @default(\"\x7d\") /* \x7d */\n\x7d\nenum Role \x7b\n  A \x7b \x7d\n\x7d\n"

theorem parse_unclosedModel_typed :
    ((typedFront = [] ∨ ∃ u, typedFront = u ++ ['\n']) ∧ scanEnd .code true typedFront ≠ .blockComment ∧
        (∀ d ∈ outline typedFront, d.close.isSome) ∧ IsWord (txt "Post") ∧ IsOpenBody typedBody ∧
        BeginsDeclaration typedBack ∧ ∀ part, part <+: mask typedBack → part.count '}' ≤ part.count '{') ∧
      (outline (typedFront ++ (unclosedModel (txt "Post") typedBody ++ typedBack))).map
          (fun d => (d.name, d.start, d.close, d.stop)) =
        [(txt "User", 0, some 31, 31), (txt "Post", 45, none, 97), (txt "User", 97, some 148, 148),
          (txt "Role", 150, some 170, 170)] ∧
      (Document.parse (typedFront ++ (unclosedModel (txt "Post") typedBody ++ typedBack))).models.map
          (fun m => (m.name, m.fields.map (·.name))) =
        [(txt "User", [txt "id"]), (txt "Post", [txt "id", txt "author", txt "model"])] := by
  have wholeLines : typedFront = [] ∨ ∃ u, typedFront = u ++ ['\n'] :=
    Or.inr ⟨typedFront.dropLast, by decide +kernel⟩
  have terminated : scanEnd .code true typedFront ≠ .blockComment := by decide +kernel
  have closed : ∀ d ∈ outline typedFront, d.close.isSome := by decide +kernel
  have word : IsWord (txt "Post") := ⟨by decide, by decide⟩
  have isOpen : IsOpenBody typedBody := by decide +kernel
  have begins : BeginsDeclaration typedBack := by decide +kernel
  have paired : ∀ part, part <+: mask typedBack → part.count '}' ≤ part.count '{' := by
    have all : ∀ part ∈ (mask typedBack).inits, part.count '}' ≤ part.count '{' := by decide +kernel
    exact fun part before => all part ((List.mem_inits part _).mpr before)
  obtain ⟨declared, parsed⟩ := parse_unclosedModel wholeLines terminated closed word isOpen begins paired
  refine ⟨⟨wholeLines, terminated, closed, word, isOpen, begins, paired⟩, ?_, ?_⟩
  · rw [declared]
    decide +kernel
  · rw [parsed]
    decide +kernel

end SchemaDiagram
