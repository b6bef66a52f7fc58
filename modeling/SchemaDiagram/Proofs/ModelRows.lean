import SchemaDiagram.Edit.Body
import SchemaDiagram.Proofs.RowModels

namespace SchemaDiagram

open Text

/-- A row between the braces of a declaration in a plain text. -/
structure IsBodyRow (r : Text) : Prop where
  only : OnlyLineComments r
  inLine : '\n' ∉ r
  noBrace : '{' ∉ blankFrom false r ∧ '}' ∉ blankFrom false r

/-- The rows between the braces. No comment hides the closing brace. -/
structure IsBodyRows (rs : List Text) : Prop where
  row : ∀ r ∈ rs, IsBodyRow r
  nonempty : rs ≠ []
  ends : ∀ r, rs.getLast? = some r → commentAfter false r = false

theorem onlyLineComments_append_newline {r t : Text} :
    OnlyLineComments (r ++ '\n' :: t) ↔ OnlyLineComments r ∧ OnlyLineComments t := by
  constructor
  · exact fun only => ⟨only.of_infix (List.prefix_append r _).isInfix, only.of_infix ⟨r ++ ['\n'], [], by simp⟩⟩
  · rintro ⟨first, later⟩
    exact first.append (later.cons (by decide) (by decide) (by simp)) (by simp)

theorem blankFrom_append_newline (r t : Text) :
    blankFrom false (r ++ '\n' :: t) = blankFrom false r ++ '\n' :: blankFrom false t := by
  rw [blankFrom_append (meetApart_of_head (by decide)), blankFrom_newline]

theorem commentAfter_append_newline (r t : Text) :
    commentAfter false (r ++ '\n' :: t) = commentAfter false t := by
  rw [commentAfter_append (meetApart_of_head (by decide))]
  rfl

theorem isPlainBody_row {r : Text} (inLine : '\n' ∉ r) : IsPlainBody r ↔ IsBodyRows [r] := by
  constructor
  · rintro ⟨only, ends, noBrace⟩
    exact ⟨by simpa using ⟨only, inLine, noBrace⟩, by simp, by simpa using ends⟩
  · rintro ⟨row, -, ends⟩
    have here := row r (by simp)
    exact ⟨here.only, ends r rfl, here.noBrace⟩

theorem isPlainBody_append_newline {r t : Text} (inLine : '\n' ∉ r) :
    IsPlainBody (r ++ '\n' :: t) ↔ IsBodyRow r ∧ IsPlainBody t := by
  constructor
  · rintro ⟨only, ends, noBrace⟩
    obtain ⟨first, later⟩ := onlyLineComments_append_newline.mp only
    rw [commentAfter_append_newline] at ends
    rw [blankFrom_append_newline] at noBrace
    simp only [List.mem_append, List.mem_cons, not_or] at noBrace
    exact ⟨⟨first, inLine, noBrace.1.1, noBrace.2.1⟩, ⟨later, ends, noBrace.1.2.2, noBrace.2.2.2⟩⟩
  · rintro ⟨row, body⟩
    refine ⟨onlyLineComments_append_newline.mpr ⟨row.only, body.only⟩, ?_, ?_⟩
    · rw [commentAfter_append_newline]
      exact body.ends
    · rw [blankFrom_append_newline]
      simp only [List.mem_append, List.mem_cons, not_or]
      exact ⟨⟨row.noBrace.1, by decide, body.noBrace.1⟩, row.noBrace.2, by decide, body.noBrace.2⟩

theorem isBodyRows_cons {r : Text} {rs : List Text} (more : rs ≠ []) :
    IsBodyRows (r :: rs) ↔ IsBodyRow r ∧ IsBodyRows rs := by
  obtain ⟨s, rs, rfl⟩ := List.exists_cons_of_ne_nil more
  constructor
  · rintro ⟨row, -, ends⟩
    exact ⟨row r (by simp), fun x member => row x (List.mem_cons_of_mem r member), more,
      fun x last => ends x (by rwa [List.getLast?_cons_cons])⟩
  · rintro ⟨here, later⟩
    exact ⟨List.forall_mem_cons.mpr ⟨here, later.row⟩, by simp,
      fun x last => later.ends x (by rwa [List.getLast?_cons_cons] at last)⟩

theorem isBodyRows_rows {t : Text} : IsBodyRows (rows t) ↔ IsPlainBody t := by
  induction t using rows_induction with
  | oneRow r inLine => rw [rows_row inLine, isPlainBody_row inLine]
  | moreRows r t inLine ih =>
    rw [rows_cons inLine, isBodyRows_cons (rows_ne_nil t), ih, isPlainBody_append_newline inLine]

theorem IsBodyRows.rows_joinRows {rs : List Text} (plain : IsBodyRows rs) : rows (joinRows rs) = rs :=
  SchemaDiagram.rows_joinRows (fun r member => (plain.row r member).inLine) plain.nonempty

theorem IsBodyRows.joinRows {rs : List Text} (plain : IsBodyRows rs) : IsPlainBody (joinRows rs) := by
  rwa [← isBodyRows_rows, plain.rows_joinRows]

/-- The rows between the braces of the first declaration of a model, if it is closed. -/
def modelRows? (t model : Text) : Option (List Text) :=
  (modelBody? t model).map fun (start, close) => rows (slice start close t)

/-- Puts other rows between the braces of the first declaration of a model. -/
def editModel (t model : Text) (edit : List Text → List Text) : Text :=
  match modelBody? t model with
  | none => t
  | some (start, close) =>
    takeBytes start t ++ joinRows (edit (rows (slice start close t))) ++ dropBytes close t

theorem editModel_congr {t model : Text} {edit edit' : List Text → List Text}
    (same : ∀ rs, modelRows? t model = some rs → edit rs = edit' rs) :
    editModel t model edit = editModel t model edit' := by
  unfold modelRows? at same
  cases found : modelBody? t model with
  | none => simp [editModel, found]
  | some offsets =>
    simp only [found, Option.map_some, Option.some.injEq, forall_eq'] at same
    simp [editModel, found, same]

theorem editModel_of_none {t model : Text} (none : modelRows? t model = none) (edit : List Text → List Text) :
    editModel t model edit = t := by
  rw [modelRows?, Option.map_eq_none_iff] at none
  rw [editModel, none]

/-- The first declaration of a model among the parts of a text. -/
structure ModelAt (ps : List Part) (model : Text) (earlier : List Part) (part : Part) (later : List Part) :
    Prop where
  split : ps = earlier ++ part :: later
  keyword : part.keyword = .model
  name : part.name = model
  first : ∀ p ∈ earlier, ¬(p.keyword = .model ∧ p.name = model)

theorem modelBody?_eq_some_iff {t model : Text} {start close : Nat} :
    modelBody? t model = some (start, close) ↔
      ∃ d, findModel model t = some d ∧ d.close = some close ∧ start = d.brace + 1 := by
  simp only [modelBody?, Option.bind_eq_bind, Option.bind_eq_some_iff, Option.pure_def, Option.some.injEq,
    Prod.mk.injEq]
  constructor
  · rintro ⟨d, found, close', closed, rfl, rfl⟩
    exact ⟨d, found, closed, rfl⟩
  · rintro ⟨d, found, closed, rfl⟩
    exact ⟨d, found, close, closed, rfl, rfl⟩

/-- The body of a model is found at its place in the text. -/
theorem IsPlainText.modelBody? {t model : Text} (plain : IsPlainText t) {start close : Nat}
    (found : modelBody? t model = some (start, close)) :
    ∃ earlier d later lead body back, ClosedAt t earlier d later lead body back ∧ d.keyword = .model ∧
      d.name = model ∧ (∀ e ∈ earlier, ¬(e.keyword = .model ∧ e.name = model)) ∧
      start = lead.length + 1 ∧ close = lead.length + 1 + body.length := by
  obtain ⟨d, findModel, closed, rfl⟩ := modelBody?_eq_some_iff.mp found
  obtain ⟨matched, earlier, later, split, first⟩ := List.find?_eq_some_iff_append.mp findModel
  obtain ⟨lead, body, back, at'⟩ := plain.closedAt split (by simp [closed])
  have named : d.keyword = .model ∧ d.name = model := by simpa using matched
  refine ⟨earlier, d, later, lead, body, back, at', named.1, named.2, ?_, by rw [at'.brace], ?_⟩
  · rintro e member ⟨keyword, name⟩
    simpa [keyword, name] using first e member
  · exact Option.some.inj (closed.symm.trans at'.close)

theorem ClosedAt.slices {t : Text} {earlier later : List Declaration} {d : Declaration} {lead body back : Text}
    (at' : ClosedAt t earlier d later lead body back) (ascii : ∀ c ∈ t, isAscii c) :
    takeBytes (lead.length + 1) t = lead ++ ['{'] ∧
      slice (lead.length + 1) (lead.length + 1 + body.length) t = body ∧
      dropBytes (lead.length + 1 + body.length) t = '}' :: back := by
  have front : lead.length + 1 = (lead ++ ['{']).length := by simp
  have whole : t = lead ++ ['{'] ++ (body ++ '}' :: back) := by simp [at'.cut.whole]
  refine ⟨?_, ?_, ?_⟩
  · rw [takeBytes_of_ascii ascii, whole, front, List.take_left]
  · rw [slice_of_ascii ascii, Nat.add_sub_cancel_left, whole, front, List.drop_left, List.take_left]
  · rw [dropBytes_of_ascii ascii, ← List.drop_drop, whole, front, List.drop_left, List.drop_left]

theorem ClosedAt.slice_mask {t : Text} {earlier later : List Declaration} {d : Declaration}
    {lead body back : Text} (at' : ClosedAt t earlier d later lead body back) (only : OnlyLineComments t) :
    slice (lead.length + 1) (lead.length + 1 + body.length) (mask t) = blankFrom false body := by
  rw [← at'.mask_body only, Declaration.body, at'.brace, at'.stop]

theorem IsPlainText.modelRows {t model : Text} (plain : IsPlainText t) {rs : List Text}
    (found : modelRows? t model = some rs) : IsBodyRows rs := by
  obtain ⟨⟨start, close⟩, body?, rfl⟩ := Option.map_eq_some_iff.mp found
  obtain ⟨earlier, d, later, lead, body, back, at', -, -, -, rfl, rfl⟩ := plain.modelBody? body?
  obtain ⟨-, sliced, -⟩ := at'.slices plain.ascii
  simp only [sliced]
  exact isBodyRows_rows.mpr (at'.isPlainBody plain)

theorem IsPlainText.editModel_self {t model : Text} (plain : IsPlainText t) {edit : List Text → List Text}
    (same : ∀ rs, modelRows? t model = some rs → edit rs = rs) : editModel t model edit = t := by
  have unchanged : editModel t model edit = editModel t model id := editModel_congr same
  rw [unchanged]
  cases found : SchemaDiagram.modelBody? t model with
  | none => rw [SchemaDiagram.editModel, found]
  | some offsets =>
    obtain ⟨start, close⟩ := offsets
    obtain ⟨earlier, d, later, lead, body, back, at', -, -, -, rfl, rfl⟩ := plain.modelBody? found
    obtain ⟨taken, sliced, dropped⟩ := at'.slices plain.ascii
    simp only [SchemaDiagram.editModel, found, taken, sliced, dropped, id_eq, joinRows_rows]
    rw [at'.cut.whole]
    simp

/-- An edit of a model replaces the body of one part of the text, and nothing else. -/
theorem IsPlainText.editModel {t model : Text} (plain : IsPlainText t) {rs : List Text}
    (found : modelRows? t model = some rs) {edit : List Text → List Text} (plainRows : IsBodyRows (edit rs)) :
    IsPlainText (editModel t model edit) ∧ afterParts (editModel t model edit) = afterParts t ∧
      ∃ earlier part later, ModelAt (parts t) model earlier part later ∧ part.closed = true ∧
        rows part.body = rs ∧
        parts (editModel t model edit) =
          earlier ++ { part with body := joinRows (edit rs) } :: later := by
  obtain ⟨⟨start, close⟩, body?, rfl⟩ := Option.map_eq_some_iff.mp found
  obtain ⟨earlier, d, later, lead, body, back, at', keyword, name, first, rfl, rfl⟩ := plain.modelBody? body?
  obtain ⟨taken, sliced, dropped⟩ := at'.slices plain.ascii
  simp only [sliced] at plainRows
  have edited : SchemaDiagram.editModel t model edit =
      lead ++ '{' :: (joinRows (edit (rows body)) ++ '}' :: back) := by
    simp only [SchemaDiagram.editModel, body?, taken, sliced, dropped]
    simp
  obtain ⟨plain', after, offset, before, replaced⟩ := at'.replace plain plainRows.joinRows
  rw [edited]
  refine ⟨plain', after, _, _, _, ⟨before, keyword, name, ?_⟩, ?_, ?_, ?_⟩
  · intro p member
    obtain ⟨e, inside, offset, rfl⟩ := mem_partsFrom member
    exact first e inside
  · simp [Declaration.part, at'.close]
  · simp only [Declaration.part, at'.body_eq plain.ascii, sliced]
  · simp only [sliced]
    exact replaced

theorem modelRows?_eq (t model : Text) :
    modelRows? t model =
      (modelPart? t model).bind fun p => if p.closed then some (rows p.body) else none := by
  have looked := find?_partsFrom .model model 0 t (outline t)
  change (modelPart? t model).map _ = (findModel model t).map _ at looked
  cases found : findModel model t with
  | none =>
    rw [found] at looked
    rw [modelRows?, SchemaDiagram.modelBody?, found, Option.map_eq_none_iff.mp looked]
    rfl
  | some d =>
    rw [found] at looked
    obtain ⟨p, atPart, same⟩ := Option.map_eq_some_iff.mp looked
    obtain ⟨closed, body⟩ := Prod.mk.inj same
    have lies := Declaration.liesIn (List.mem_of_find?_eq_some found)
    rw [modelRows?, SchemaDiagram.modelBody?, found, atPart, Option.bind_some, closed, body]
    cases close : d.close with
    | none => simp [close]
    | some c => simp [close, Declaration.body, (lies.closed c close).1]

section

variable {ps : List Part} {model : Text} {earlier later : List Part} {part : Part}

theorem ModelAt.find? (at' : ModelAt ps model earlier part later) :
    (ps.find? fun p => p.keyword = .model && p.name = model) = some part := by
  rw [at'.split, List.find?_append, List.find?_eq_none.mpr, Option.none_or, List.find?_cons_of_pos]
  · simp [at'.keyword, at'.name]
  · intro p member
    simpa using at'.first p member

/-- The part can be exchanged for another one of its name. -/
theorem ModelAt.exchange (at' : ModelAt ps model earlier part later) (body : Text) :
    ModelAt (earlier ++ { part with body } :: later) model earlier { part with body } later :=
  ⟨rfl, at'.keyword, at'.name, at'.first⟩

/-- Who looks for another model does not see the exchange. -/
theorem ModelAt.find?_exchange (at' : ModelAt ps model earlier part later) (body : Text) {other : Text}
    (differ : other ≠ model) :
    ((earlier ++ { part with body } :: later).find? fun p => p.keyword = .model && p.name = other) =
      ps.find? fun p => p.keyword = .model && p.name = other := by
  rw [at'.split, List.find?_append, List.find?_append, List.find?_cons_of_neg, List.find?_cons_of_neg]
  · simpa [at'.name] using fun _ same => differ same.symm
  · simpa [at'.name] using fun _ same => differ same.symm

theorem keepFirst_exchange {α : Type} {name : α → Text} {a a' : α} (same : name a' = name a)
    {front rest : List α} (first : ∀ b ∈ front, name b ≠ name a) :
    keepFirst name (front ++ a' :: rest) =
      (keepFirst name (front ++ a :: rest)).map fun b => if name b = name a then a' else b := by
  have filtered (key : Text) (all : List α) (other : key ≠ name a) :
      (all.map fun b => if name b = name a then a' else b).filter (fun b => name b ≠ key) =
        (all.filter fun b => name b ≠ key).map fun b => if name b = name a then a' else b := by
    rw [List.filter_map]
    congr 2
    funext b
    simp only [Function.comp]
    split
    · rename_i here
      rw [same, here]
    · rfl
  induction front with
  | nil =>
    rw [List.nil_append, List.nil_append, keepFirst, keepFirst, List.map_cons, if_pos rfl, same]
    congr 1
    refine (List.map_id _).symm.trans (List.map_congr_left fun b member => ?_)
    have differ : name b ≠ name a := by simpa using (List.mem_filter.mp member).2
    rw [if_neg differ, id]
  | cons b front ih =>
    obtain ⟨here, later⟩ := List.forall_mem_cons.mp first
    rw [List.cons_append, List.cons_append, keepFirst, keepFirst, List.map_cons, if_neg here, ih later,
      filtered (name b) _ here]

end

/-- The models of an edited text. -/
structure ModelsEdited (t t' model : Text) (rs rs' : List Text) : Prop where
  models : (Document.parse t').models =
    (Document.parse t).models.map fun m => if m.name = model then Model.ofRows model rs' else m
  before : (Document.parse t).model? model = some (Model.ofRows model rs)
  after : (Document.parse t').model? model = some (Model.ofRows model rs')
  other : ∀ name, name ≠ model → (Document.parse t').model? name = (Document.parse t).model? name
  rows : modelRows? t' model = some rs'
  otherRows : ∀ name, name ≠ model → modelRows? t' name = modelRows? t name

/-- A model is read from the first part of its name. -/
theorem OnlyLineComments.model?_eq {t : Text} (only : OnlyLineComments t) (model : Text) :
    (Document.parse t).model? model = (modelPart? t model).map fun p => Model.ofRows model (rows p.body) := by
  rw [Document.model?, only.parse_models, find?_keepFirst, List.find?_map, List.find?_filter, modelPart?]
  have same : (fun p : Part => decide (decide (p.keyword = .model) = true ∧
      ((fun m : Model => decide (m.name = model)) ∘ fun p => Model.ofRows p.name (rows p.body)) p = true)) =
      fun p => decide (p.keyword = .model) && decide (p.name = model) := by
    funext p
    simp [Model.ofRows]
  rw [same]
  cases found : (parts t).find? fun p => decide (p.keyword = .model) && decide (p.name = model) with
  | none => rfl
  | some p =>
    have named := List.find?_some found
    simp only [Bool.and_eq_true, decide_eq_true_eq] at named
    rw [Option.map_some, Option.map_some, named.2]

/-- An edit of a model is seen in that model only. -/
theorem IsPlainText.modelsEdited {t model : Text} (plain : IsPlainText t) {rs : List Text}
    (found : modelRows? t model = some rs) {edit : List Text → List Text} (plainRows : IsBodyRows (edit rs)) :
    ModelsEdited t (SchemaDiagram.editModel t model edit) model rs (edit rs) := by
  obtain ⟨plain', -, earlier, part, later, at', closed, body, edited⟩ := plain.editModel found plainRows
  have at'' := at'.exchange (joinRows (edit rs))
  rw [← edited] at at''
  have here := at'.find?
  have there := at''.find?
  have elsewhere (name : Text) (other : name ≠ model) :
      modelPart? (SchemaDiagram.editModel t model edit) name = modelPart? t name := by
    rw [modelPart?, edited, at'.find?_exchange _ other]
    rfl
  change modelPart? t model = some part at here
  change modelPart? (SchemaDiagram.editModel t model edit) model = _ at there
  refine ⟨?_, ?_, ?_, fun name other => ?_, ?_, fun name other => ?_⟩
  · have first : ∀ m ∈ (earlier.filter (·.keyword = .model)).map fun p => Model.ofRows p.name (rows p.body),
        m.name ≠ (Model.ofRows model rs).name := by
      intro m member
      obtain ⟨p, inside, rfl⟩ := List.mem_map.mp member
      obtain ⟨inside, keyword⟩ := List.mem_filter.mp inside
      exact fun same => at'.first p inside ⟨by simpa using keyword, same⟩
    have renamed : (Model.ofRows model (edit rs)).name = (Model.ofRows model rs).name := rfl
    rw [plain.only.parse_models, plain'.only.parse_models, at''.split, at'.split]
    simp only [List.filter_append, List.filter_cons, at'.keyword, decide_true, if_true, List.map_append,
      List.map_cons, at'.name, body, plainRows.rows_joinRows]
    exact keepFirst_exchange renamed first
  · rw [plain.only.model?_eq, here, Option.map_some, body]
  · rw [plain'.only.model?_eq, there, Option.map_some, plainRows.rows_joinRows]
  · rw [plain'.only.model?_eq, plain.only.model?_eq, elsewhere name other]
  · rw [modelRows?_eq, there, Option.bind_some, plainRows.rows_joinRows]
    exact if_pos closed
  · rw [modelRows?_eq, modelRows?_eq, elsewhere name other]

end SchemaDiagram
