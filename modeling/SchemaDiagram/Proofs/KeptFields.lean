import SchemaDiagram.Proofs.FieldViews

namespace SchemaDiagram

open Text

theorem FieldEdit.view_some {e : FieldEdit} {key : Text}
    (keeps : e.replaces → e.field.name = key → key = protectedField) (f : Field) :
    e.view key (some f) = some f := by
  unfold FieldEdit.view
  split
  · rename_i here
    cases replaces : e.replaces with
    | false => rfl
    | true => simp [keeps replaces here.1]
  · rfl

/-- A field stays under its name if no edit of its model replaces it. -/
theorem viewAfter_some {edits : List FieldEdit} {model key : Text}
    (keep : ∀ e ∈ edits, e.model = model → e.replaces → e.field.name = key → key = protectedField) (f : Field) :
    viewAfter edits model key (some f) = some f := by
  induction edits with
  | nil => rfl
  | cons e edits ih =>
    obtain ⟨here, later⟩ := List.forall_mem_cons.mp keep
    rw [viewAfter_cons]
    by_cases same : e.model = model
    · rw [if_pos same, FieldEdit.view_some (here same), ih later]
    · rw [if_neg same, ih later]

section

variable {d : Document} {c : Connection} {request : RelationRequest} {m : Model} {f : Field}
  (isModel : d.model? m.name = some m) (inModel : m.field? f.name = some f)

include isModel inModel

/-- Making sure that the column of a key is there changes a field only if it is that column, and then it becomes
optional. -/
theorem KeyPlacement.viewAfter_columnEdits (p : KeyPlacement) (nullable unique : Bool) :
    viewAfter (p.columnEdits d nullable unique) m.name f.name (some f) = some f ∨
      (m.name = p.holder ∧ f.name = p.foreignKey) ∧
        viewAfter (p.columnEdits d nullable unique) m.name f.name (some f) = some { f with isOptional := true } := by
  unfold KeyPlacement.columnEdits
  cases column : p.column? d with
  | none => exact Or.inl (viewAfter_some (by simp) f)
  | some g =>
    dsimp only
    split
    · by_cases here : p.holder = m.name ∧ g.name = f.name
      · obtain ⟨holder, name⟩ := here
        have looked : m.field? p.foreignKey = some g := by
          rwa [KeyPlacement.column?, holder, isModel, Option.bind_some] at column
        have key : g.name = p.foreignKey := by simpa using List.find?_some looked
        rw [← key, name, inModel] at looked
        obtain rfl := Option.some.inj looked
        rw [viewAfter_cons, if_pos holder, FieldEdit.view]
        dsimp only
        by_cases seen : f.name = [] ∨ f.name = protectedField
        · left
          rcases seen with none | same
          · simp [none, viewAfter]
          · simp [same, viewAfter]
        · rw [not_or] at seen
          right
          refine ⟨⟨holder.symm, key⟩, ?_⟩
          simp [seen.1, seen.2, viewAfter]
      · refine Or.inl (viewAfter_some (List.forall_mem_singleton.mpr fun holder _ name => ?_) f)
        exact absurd ⟨holder, name⟩ here
    · exact Or.inl rfl

/-- The edits of a relation keep every field whose name they do not take. -/
theorem viewAfter_relationEdits (kept : f.name = protectedField ∨ (m.name, f.name) ∉ takenFields d c request) :
    viewAfter (relationEdits d c request) m.name f.name (some f) = some f ∨
      keyPlace? d c request = some (m.name, f.name) ∧
        viewAfter (relationEdits d c request) m.name f.name (some f) = some { f with isOptional := true } := by
  obtain ⟨cardinality, mode, order, nullableSource, nullableTarget⟩ := request
  have free {model name : Text} (taken : (model, name) ∈ takenFields d c
      ⟨cardinality, mode, order, nullableSource, nullableTarget⟩) (here : model = m.name) (same : name = f.name) :
      f.name = protectedField := by
    rcases kept with protected' | outside
    · exact protected'
    · exact absurd (here ▸ same ▸ taken) outside
  have byKey (nullable unique : Bool) (later : List FieldEdit) (place : Text × Text)
      (holds : place = ((KeyPlacement.ofConnection d c).holder, (KeyPlacement.ofConnection d c).foreignKey))
      (keep : ∀ e ∈ later, e.model = m.name → e.replaces → e.field.name = f.name → f.name = protectedField) :
      viewAfter ((KeyPlacement.ofConnection d c).columnEdits d nullable unique ++ later) m.name f.name (some f) = some f ∨
        some place = some (m.name, f.name) ∧
          viewAfter ((KeyPlacement.ofConnection d c).columnEdits d nullable unique ++ later) m.name f.name (some f) =
            some { f with isOptional := true } := by
    rw [viewAfter_append]
    rcases (KeyPlacement.ofConnection d c).viewAfter_columnEdits isModel inModel nullable unique with
      same | ⟨⟨holder, key⟩, optional⟩
    · rw [same]
      exact Or.inl (viewAfter_some keep f)
    · rw [optional]
      exact Or.inr ⟨by rw [holds, holder, key], viewAfter_some keep _⟩
  match cardinality, mode with
  | .oneToOne, _ =>
    exact byKey _ _ _ _ rfl (List.forall_mem_singleton.mpr fun here _ same => free List.mem_cons_self here same)
  | .oneToMany, _ =>
    refine byKey _ _ _ _ rfl (List.forall_mem_cons.mpr ⟨fun here _ same => free List.mem_cons_self here same, ?_⟩)
    exact List.forall_mem_singleton.mpr fun here _ same =>
      free (List.mem_cons_of_mem _ List.mem_cons_self) here same
  | .manyToMany, .implicit | .manyToMany, .explicit =>
    refine Or.inl (viewAfter_some (List.forall_mem_cons.mpr ⟨fun here _ same => ?_, ?_⟩) f)
    · exact free List.mem_cons_self here same
    · exact List.forall_mem_singleton.mpr fun here _ same =>
        free (List.mem_cons_of_mem _ List.mem_cons_self) here same

end

/-- Relating two models keeps every field, but for those whose name a field of the relation takes. The column of
the foreign key may become optional, and nothing else of a field changes. -/
theorem addRelation_keeps_fields {t : Text} (plain : IsPlainText t) (c : Connection) (request : RelationRequest) :
    ∃ out, addRelation t c request = .ok out ∧
      ∀ m ∈ (Document.parse t).models, ∃ m' ∈ (Document.parse out).models, m'.name = m.name ∧
        ∀ f ∈ m.fields, f.name = protectedField ∨ (m.name, f.name) ∉ takenFields (Document.parse t) c request →
          f ∈ m'.fields ∨
            keyPlace? (Document.parse t) c request = some (m.name, f.name) ∧ { f with isOptional := true } ∈ m'.fields := by
  by_cases known : (Document.parse t).hasModel c.sourceModel ∧ (Document.parse t).hasModel c.targetModel
  · obtain ⟨out, done, -, models⟩ := plain.related request known.1 known.2
    refine ⟨out, done, fun m member => ?_⟩
    obtain ⟨m', inOut, name, fields⟩ := models m member
    refine ⟨m', inOut, name, fun f inModel free => ?_⟩
    have looked := (Model.mem_fields_iff member).mp inModel
    have view := fields f.name
    rw [looked] at view
    split at view
    · rcases viewAfter_relationEdits (Document.model?_of_mem member) looked free with same | ⟨key, optional⟩
      · exact Or.inl (List.mem_of_find?_eq_some (view.trans same))
      · exact Or.inr ⟨key, List.mem_of_find?_eq_some (view.trans optional)⟩
    · exact Or.inl (List.mem_of_find?_eq_some view)
  · exact ⟨t, addRelation_unknown request known, fun m member => ⟨m, member, rfl, fun f inModel _ => Or.inl inModel⟩⟩

/-- A schema with a column for a foreign key, a comment and an attribute of the database. -/
def postsSchema : Text :=
  txt "model User \x7b\n  id Int @id // key\n  name String @db.Text\n\x7d\n\n" ++
    txt "model Post \x7b\n  id Int @id\n  authorId Int @map(author)\n\x7d\n"

theorem addRelation_keeps_fields_postsSchema :
    IsPlainText postsSchema ∧
      ∃ out, addRelation postsSchema ⟨txt "Post", txt "authorId", txt "User", txt "id"⟩
          ⟨.oneToMany, .implicit, .sourceFirst, true, false⟩ = .ok out ∧
        ∃ m ∈ (Document.parse out).models, m.name = txt "Post" ∧
          ∃ f ∈ m.fields, f.name = txt "authorId" ∧ f.type = txt "Int" ∧ f.attributes = [txt "@map(author)"] := by
  have plain : IsPlainText postsSchema := by decide +kernel
  obtain ⟨out, done, models⟩ := addRelation_keeps_fields plain ⟨txt "Post", txt "authorId", txt "User", txt "id"⟩
    ⟨.oneToMany, .implicit, .sourceFirst, true, false⟩
  obtain ⟨m, member, name, f, inModel, key, type, attributes, free⟩ :
      ∃ m ∈ (Document.parse postsSchema).models, m.name = txt "Post" ∧
        ∃ f ∈ m.fields, f.name = txt "authorId" ∧ f.type = txt "Int" ∧ f.attributes = [txt "@map(author)"] ∧
          (m.name, f.name) ∉ takenFields (Document.parse postsSchema)
            ⟨txt "Post", txt "authorId", txt "User", txt "id"⟩ ⟨.oneToMany, .implicit, .sourceFirst, true, false⟩ := by
    decide +kernel
  obtain ⟨m', inOut, name', fields⟩ := models m member
  refine ⟨plain, out, done, m', inOut, name'.trans name, ?_⟩
  rcases fields f inModel (Or.inr free) with same | ⟨-, optional⟩
  · exact ⟨f, same, key, type, attributes⟩
  · exact ⟨_, optional, key, type, attributes⟩

/-- A list of records takes the place of a column that has its name. -/
theorem addRelation_takes_column :
    ∃ out, addRelation (txt "model User \x7b\n  id Int @id\n  posts String\n\x7d\n\nmodel Post \x7b\n  id Int @id\n\x7d\n")
        ⟨txt "User", txt "id", txt "Post", txt "id"⟩ ⟨.oneToMany, .implicit, .sourceFirst, false, false⟩ = .ok out ∧
      ∃ m ∈ (Document.parse
          (txt "model User \x7b\n  id Int @id\n  posts String\n\x7d\n\nmodel Post \x7b\n  id Int @id\n\x7d\n")).models,
        ∃ f ∈ m.fields, f.relation = none ∧
          ∀ m' ∈ (Document.parse out).models, m'.name = m.name → ∀ f' ∈ m'.fields, f'.name = f.name →
            f'.type ≠ f.type := by
  refine ⟨txt "model User \x7b\n  id Int @id\n  posts Post[]\n\x7d\n\nmodel Post \x7b\n  id Int @id\n" ++
    txt "  userId Int\n  user User @relation(fields: [userId], references: [id])\n\x7d\n", ?_, ?_⟩
  · decide +kernel
  · decide +kernel

end SchemaDiagram
