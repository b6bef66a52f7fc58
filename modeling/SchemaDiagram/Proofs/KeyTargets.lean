import SchemaDiagram.Proofs.FieldViews

namespace SchemaDiagram

open Text

theorem filter_keepFirst {α : Type} (name : α → Text) (key : Text) (all : List α) :
    (keepFirst name all).filter (fun a => name a ≠ key) = keepFirst name (all.filter fun a => name a ≠ key) := by
  induction all with
  | nil => rfl
  | cons a all ih =>
    by_cases same : name a = key
    · subst same
      rw [keepFirst, List.filter_cons_of_neg (by simp), List.filter_cons_of_neg (by simp), ← ih, List.filter_filter]
      simp only [Bool.and_self]
    · rw [keepFirst, List.filter_cons_of_pos (by simpa using same), List.filter_cons_of_pos (by simpa using same),
        keepFirst, ← ih, List.filter_filter, List.filter_filter]
      simp only [Bool.and_comm]

theorem map_keepFirst {α β : Type} (f : α → β) (name : β → Text) (all : List α) :
    (keepFirst (fun a => name (f a)) all).map f = keepFirst name (all.map f) := by
  induction all with
  | nil => rfl
  | cons a all ih =>
    rw [keepFirst, List.map_cons, List.map_cons, keepFirst, ← ih, List.filter_map]
    rfl

/-- The name of the first field that is marked as the identity. -/
def Model.markedName? (m : Model) : Option Text := (m.fields.find? Field.isId).map (·.name)

theorem Model.markedName?_eq (m : Model) : m.markedName? = (m.fields.filter Field.isId).head?.map (·.name) := by
  rw [List.head?_filter, Model.markedName?]

/-- A field that a foreign key can refer to. -/
def Field.isColumn (f : Field) : Bool := f.relation.isNone && !f.isList

theorem Model.identityName_eq (m : Model) : (m.identity?.map (·.name)).getD protectedField = m.markedName?.getD protectedField := by
  rw [Model.identity?, Model.markedName?]
  cases m.fields.find? Field.isId with
  | some f => rfl
  | none =>
    rw [Option.none_or]
    cases named : m.field? (txt "id") with
    | none => rfl
    | some f =>
      have same : f.name = txt "id" := by simpa using List.find?_some named
      simp [same, protectedField]

/-- A foreign key refers to the column that is asked for, or else to the identity. -/
theorem keyTarget_eq (m : Model) (requested : Text) :
    keyTarget (some m) requested =
      if (m.field? requested).any Field.isColumn then requested else m.markedName?.getD protectedField := by
  rw [← m.identityName_eq]
  cases found : m.field? requested with
  | none => simp [keyTarget, found]
  | some f =>
    have same : f.name = requested := by simpa using List.find?_some found
    by_cases column : f.isColumn
    · have kept : (some f).filter (fun f => f.relation.isNone && !f.isList) = some f :=
        Option.filter_eq_some_iff.mpr ⟨rfl, column⟩
      simp only [keyTarget, found, kept, Option.some_or, Option.map_some, Option.getD_some, Option.any_some, column,
        if_true, same]
    · have dropped : (some f).filter (fun f => f.relation.isNone && !f.isList) = none := by
        simpa [Option.filter, Field.isColumn] using column
      simp only [keyTarget, found, dropped, Option.none_or, Option.any_some, column, Bool.false_eq_true, if_false]

/-- The fields that the rows of a model give, one for each line. -/
def shownFields (rs : List Text) : List Field := (shownLines rs).filterMap lineField?

theorem Model.fields_ofRows (name : Text) (rs : List Text) :
    (Model.ofRows name rs).fields = keepFirst Field.name (shownFields rs) := by
  rw [Model.ofRows_eq]
  rfl

section

variable {e : FieldEdit} (writable : e.field.IsWritable) (named : e.field.name ≠ []) {rs : List Text}
  (plain : IsBodyRows rs)

include writable named

theorem shownFields_insertRow (plain : IsBodyRows rs) :
    shownFields (insertRow e.field.render rs) = shownFields rs ++ [e.field] := by
  rw [shownFields, shownLines_insertRow plain writable.isFieldLine, List.filterMap_append, List.filterMap_cons,
    writable.trim_render named, writable.read named]
  rfl

include plain

theorem shownFields_replaceRow (has : hasRow e.field.name rs) :
    ∃ front l back, shownLines rs = front ++ l :: back ∧ (∀ s ∈ front, firstWord? s ≠ some e.field.name) ∧
      firstWord? l = some e.field.name ∧ shownFields (replaceRow e.field.name e.field.render rs) =
        front.filterMap lineField? ++ e.field :: back.filterMap lineField? := by
  obtain ⟨front, l, back, shown, earlier, first, replaced⟩ :=
    shownLines_replaceRow (writable.name.isWord named) plain writable.isFieldLine has
  refine ⟨front, l, back, shown, earlier, first, ?_⟩
  rw [shownFields, replaced, List.filterMap_append, List.filterMap_cons, writable.trim_render named,
    writable.read named]

omit writable named plain in
theorem shownFields_split {front back : List Text} {l : Text} (shown : shownLines rs = front ++ l :: back) :
    shownFields rs = front.filterMap lineField? ++ ((lineField? l).toList ++ back.filterMap lineField?) := by
  rw [shownFields, shown, List.filterMap_append, List.filterMap_cons]
  cases lineField? l <;> rfl

/-- An edit leaves the fields of other names, and their order. -/
theorem shownFields_others :
    (shownFields (e.apply rs)).filter (·.name ≠ e.field.name) = (shownFields rs).filter (·.name ≠ e.field.name) := by
  have own : [e.field].filter (·.name ≠ e.field.name) = [] := by simp
  have inserted : (shownFields (insertRow e.field.render rs)).filter (·.name ≠ e.field.name) =
      (shownFields rs).filter (·.name ≠ e.field.name) := by
    rw [shownFields_insertRow writable named plain, List.filter_append, own, List.append_nil]
  unfold FieldEdit.apply
  split
  · exact inserted
  split
  · rfl
  rw [upsertRow]
  split
  · rename_i has
    obtain ⟨front, l, back, shown, -, first, replaced⟩ := shownFields_replaceRow writable named plain has
    have old : ((lineField? l).toList).filter (·.name ≠ e.field.name) = [] := by
      cases read : lineField? l with
      | none => rfl
      | some g =>
        have name : g.name = e.field.name := Option.some.inj ((firstWord?_of_lineField? read).symm.trans first)
        simp [name]
    rw [replaced, shownFields_split shown, List.filter_append, List.filter_append, List.filter_append, old,
      ← List.singleton_append, List.filter_append, own]
  · exact inserted

/-- An edit leaves the fields of a kind, and their order, if neither its field nor the one it takes the place of is of
that kind. -/
theorem filter_apply {kind : Field → Bool} (new : kind e.field = false) (model : Text)
    (free : ∀ f, (Model.ofRows model rs).field? e.field.name = some f → kind f = false) :
    (Model.ofRows model (e.apply rs)).fields.filter kind = (Model.ofRows model rs).fields.filter kind := by
  have without (rs : List Text) (free : ∀ f, (Model.ofRows model rs).field? e.field.name = some f → kind f = false) :
      (Model.ofRows model rs).fields.filter kind =
        ((Model.ofRows model rs).fields.filter (·.name ≠ e.field.name)).filter kind := by
    rw [List.filter_filter]
    refine List.filter_congr fun f member => ?_
    by_cases same : f.name = e.field.name
    · have distinct : ((Model.ofRows model rs).fields.map Field.name).Nodup := nodup_keepFirst _ _
      have other := free f (same ▸ find?_of_mem distinct member)
      simp [other]
    · simp [same]
  have freeAfter (f : Field) (found : (Model.ofRows model (e.apply rs)).field? e.field.name = some f) :
      kind f = false := by
    rw [FieldEdit.field?_apply writable plain, FieldEdit.view, if_pos ⟨rfl, named⟩] at found
    split at found
    · rcases Option.or_eq_some_iff.mp found with old | ⟨-, new'⟩
      · exact free f old
      · exact Option.some.inj new' ▸ new
    · split at found
      · exact free f found
      · exact Option.some.inj found ▸ new
  rw [without rs free, without _ freeAfter, Model.fields_ofRows, Model.fields_ofRows, filter_keepFirst, filter_keepFirst,
    shownFields_others writable named plain]

/-- An edit moves no mark if neither its field nor the one it takes the place of is marked. -/
theorem markedName?_apply (unmarked : e.field.isId = false) (model : Text)
    (free : ∀ f, (Model.ofRows model rs).field? e.field.name = some f → f.isId = false) :
    (Model.ofRows model (e.apply rs)).markedName? = (Model.ofRows model rs).markedName? := by
  rw [Model.markedName?_eq, Model.markedName?_eq, filter_apply writable named plain unmarked model free]

/-- An edit whose field takes the place of one that looks the same leaves all fields as they look, unless another line
begins with the name of the field. -/
theorem shownFields_apply_same (replaces : e.replaces) {model : Text} {g : Field}
    (found : (Model.ofRows model rs).field? e.field.name = some g) {α : Type} {look : Field → α}
    (same : look e.field = look g)
    (only : ∀ l ∈ shownLines rs, firstWord? l = some e.field.name → (lineField? l).isSome) :
    (shownFields (e.apply rs)).map look = (shownFields rs).map look := by
  rw [Model.field?_ofRows] at found
  have has := hasRow_of_linesField? found
  unfold FieldEdit.apply
  rw [replaces, Bool.not_true, if_neg (by decide)]
  split
  · rfl
  obtain ⟨front, l, back, shown, earlier, first, replaced⟩ := shownFields_replaceRow writable named plain has
  obtain ⟨h, read⟩ := Option.isSome_iff_exists.mp (only l (by simp [shown]) first)
  have name : h.name = e.field.name := Option.some.inj ((firstWord?_of_lineField? read).symm.trans first)
  have here : h = g := by
    rw [shown, linesField?_append, linesField?_eq_none earlier, Option.none_or, linesField?_cons, read] at found
    simpa [Option.filter, name] using found
  rw [upsertRow, if_pos has, replaced, shownFields_split shown, read, here]
  simp [same]

/-- An edit moves no mark if its field takes the place of one that is as marked, unless another line begins with
the name of the field. -/
theorem markedName?_apply_same (replaces : e.replaces) {model : Text} {g : Field}
    (found : (Model.ofRows model rs).field? e.field.name = some g) (same : e.field.isId = g.isId)
    (only : ∀ l ∈ shownLines rs, firstWord? l = some e.field.name → (lineField? l).isSome) :
    (Model.ofRows model (e.apply rs)).markedName? = (Model.ofRows model rs).markedName? := by
  have name : g.name = e.field.name := by simpa using List.find?_some found
  have marks : (shownFields (e.apply rs)).map (fun f => (f.name, f.isId)) =
      (shownFields rs).map fun f => (f.name, f.isId) :=
    shownFields_apply_same writable named plain replaces found (by rw [same, name]) only
  have seen (fs : List Field) : ((keepFirst Field.name fs).find? Field.isId).map (·.name) =
      ((keepFirst Prod.fst (fs.map fun f => (f.name, f.isId))).find? Prod.snd).map Prod.fst := by
    rw [← map_keepFirst, List.find?_map, Option.map_map]
    rfl
  rw [Model.markedName?, Model.markedName?, Model.fields_ofRows, Model.fields_ofRows, seen, seen, marks]

end

/-- What an edit leaves under a name is what was there, or the field of the edit. -/
theorem FieldEdit.view_cases {e : FieldEdit} {key : Text} {old : Option Field} {f : Field}
    (found : e.view key old = some f) : old = some f ∨ f = e.field := by
  unfold FieldEdit.view at found
  split at found
  · split at found
    · rcases Option.or_eq_some_iff.mp found with same | ⟨-, new⟩
      · exact Or.inl same
      · exact Or.inr (Option.some.inj new).symm
    · split at found
      · exact Or.inl found
      · exact Or.inr (Option.some.inj found).symm
  · exact Or.inl found

/-- What edits leave under a name is what was there, or the field of one of them. -/
theorem viewAfter_cases {edits : List FieldEdit} {model key : Text} {old : Option Field} {f : Field}
    (found : viewAfter edits model key old = some f) : old = some f ∨ ∃ e ∈ edits, e.model = model ∧ f = e.field := by
  induction edits generalizing old with
  | nil => exact Or.inl found
  | cons e edits ih =>
    rw [viewAfter_cons] at found
    rcases ih found with same | ⟨g, member, inModel, new⟩
    · split at same
      · rename_i here
        exact (FieldEdit.view_cases same).imp_right fun new => ⟨e, List.mem_cons_self, here, new⟩
      · exact Or.inl same
    · exact Or.inr ⟨g, List.mem_cons_of_mem _ member, inModel, new⟩

/-- Edits leave the fields of a kind if neither their fields nor those they take the place of are of that kind. -/
theorem filter_rowsAfter {edits : List FieldEdit} (writable : ∀ e ∈ edits, e.field.IsWritable)
    (named : ∀ e ∈ edits, e.field.name ≠ []) {rs : List Text} (plain : IsBodyRows rs) {model : Text} {kind : Field → Bool}
    (free : ∀ e ∈ edits, e.model = model → kind e.field = false ∧
      ∀ f, (Model.ofRows model rs).field? e.field.name = some f → kind f = false) :
    (Model.ofRows model (rowsAfter edits model rs)).fields.filter kind = (Model.ofRows model rs).fields.filter kind := by
  induction edits generalizing rs with
  | nil => rfl
  | cons e edits ih =>
    obtain ⟨writableHere, writableLater⟩ := List.forall_mem_cons.mp writable
    obtain ⟨namedHere, namedLater⟩ := List.forall_mem_cons.mp named
    obtain ⟨here, later⟩ := List.forall_mem_cons.mp free
    rw [rowsAfter_cons]
    split
    · rename_i inModel
      obtain ⟨new, old⟩ := here inModel
      have plainAfter := e.apply_isBodyRows writableHere plain
      refine (ih writableLater namedLater plainAfter fun g member inSame => ?_).trans
        (filter_apply writableHere namedHere plain new model old)
      obtain ⟨newLater, oldLater⟩ := later g member inSame
      refine ⟨newLater, fun f found => ?_⟩
      rw [FieldEdit.field?_apply writableHere plain] at found
      rcases FieldEdit.view_cases found with same | rfl
      · exact oldLater f same
      · exact new
    · exact ih writableLater namedLater plain later

/-- Edits move no mark if neither their fields nor those they take the place of are marked. -/
theorem markedName?_rowsAfter {edits : List FieldEdit} (writable : ∀ e ∈ edits, e.field.IsWritable)
    (named : ∀ e ∈ edits, e.field.name ≠ []) {rs : List Text} (plain : IsBodyRows rs) {model : Text}
    (unmarked : ∀ e ∈ edits, e.model = model → e.field.isId = false ∧
      ∀ f, (Model.ofRows model rs).field? e.field.name = some f → f.isId = false) :
    (Model.ofRows model (rowsAfter edits model rs)).markedName? = (Model.ofRows model rs).markedName? := by
  rw [Model.markedName?_eq, Model.markedName?_eq, filter_rowsAfter writable named plain unmarked]

/-- A column stays one if it gives way to columns only. -/
theorem viewAfter_isColumn {edits : List FieldEdit} {model key : Text} {f : Field}
    (keep : ∀ e ∈ edits, e.model = model → e.replaces → e.field.name = key → e.field.isColumn = f.isColumn) :
    ∃ f', viewAfter edits model key (some f) = some f' ∧ f'.isColumn = f.isColumn := by
  induction edits generalizing f with
  | nil => exact ⟨f, rfl, rfl⟩
  | cons e edits ih =>
    obtain ⟨here, later⟩ := List.forall_mem_cons.mp keep
    rw [viewAfter_cons]
    split
    · rename_i inModel
      obtain ⟨g, view, column⟩ : ∃ g, e.view key (some f) = some g ∧ g.isColumn = f.isColumn := by
        unfold FieldEdit.view
        split
        · rename_i name
          split
          · exact ⟨f, rfl, rfl⟩
          · rename_i replaces
            split
            · exact ⟨f, rfl, rfl⟩
            · exact ⟨e.field, rfl, here inModel (by simpa using replaces) name.1⟩
        · exact ⟨f, rfl, rfl⟩
      rw [view]
      obtain ⟨f', after, same⟩ := ih (f := g) fun g' member inSame replaces name =>
        (later g' member inSame replaces name).trans column.symm
      exact ⟨f', after, same.trans column⟩
    · exact ih later

end SchemaDiagram
