import SchemaDiagram.Proofs.EditedLines
import SchemaDiagram.Proofs.HollowParts
import SchemaDiagram.Proofs.RelationRun

namespace SchemaDiagram

open Text

/-- What the edits of a relation write anew. -/
theorem relationEdits_replaces {d : Document} {c : Connection} {request : RelationRequest} {e : FieldEdit}
    (member : e ∈ relationEdits d c request) (replaces : e.replaces) :
    (e.model, e.field.name) ∈ takenFields d c request ∨ keyPlace? d c request = some (e.model, e.field.name) := by
  obtain ⟨cardinality, mode, order, nullableSource, nullableTarget⟩ := request
  have column {p : KeyPlacement} {nullable unique : Bool} (inColumn : e ∈ p.columnEdits d nullable unique) :
      (e.model, e.field.name) = (p.holder, p.foreignKey) := by
    unfold KeyPlacement.columnEdits at inColumn
    split at inColumn
    · rename_i f found
      obtain ⟨m, -, inModel⟩ := Option.bind_eq_some_iff.mp found
      have name : f.name = p.foreignKey := by simpa using List.find?_some inModel
      split at inColumn
      · rw [List.mem_singleton.mp inColumn, ← name]
      · cases inColumn
    · rw [List.mem_singleton.mp inColumn] at replaces
      cases replaces
  match cardinality, mode with
  | .oneToOne, _ =>
    rcases List.mem_append.mp member with inColumn | later
    · exact Or.inr (congrArg some (column inColumn).symm)
    · rw [List.mem_singleton.mp later]
      exact Or.inl List.mem_cons_self
  | .oneToMany, _ =>
    rcases List.mem_append.mp member with inColumn | later
    · exact Or.inr (congrArg some (column inColumn).symm)
    · rcases List.mem_cons.mp later with rfl | last
      · exact Or.inl List.mem_cons_self
      · rw [List.mem_singleton.mp last]
        exact Or.inl (List.mem_cons_of_mem _ List.mem_cons_self)
  | .manyToMany, .implicit | .manyToMany, .explicit =>
    rcases List.mem_cons.mp member with rfl | last
    · exact Or.inl List.mem_cons_self
    · rw [List.mem_singleton.mp last]
      exact Or.inl (List.mem_cons_of_mem _ List.mem_cons_self)

/-- The text that a relation is written into is the text itself, or has its junction behind it. -/
theorem IsPlainText.relationBase_cases {t : Text} (plain : IsPlainText t) (c : Connection) (request : RelationRequest)
    (hasSource : (Document.parse t).hasModel c.sourceModel) :
    relationBase t c request = t ∨ request.cardinality = .manyToMany ∧ request.mode = .explicit ∧
      (Document.parse t).hasModel (junctionName c request.order) = false ∧
        ∃ body, relationBase t c request =
          trimEnd t ++ (txt "\n\n" ++ modelBlock (junctionName c request.order) body) := by
  obtain ⟨cardinality, mode, order, nullableSource, nullableTarget⟩ := request
  match cardinality, mode with
  | .oneToOne, _ | .oneToMany, _ | .manyToMany, .implicit => exact Or.inl rfl
  | .manyToMany, .explicit =>
    cases there : (Document.parse t).hasModel (junctionName c order) with
    | true => exact Or.inl (if_pos there)
    | false =>
      refine Or.inr ⟨rfl, rfl, rfl, ?_⟩
      refine ⟨_, Eq.trans (if_neg (Bool.eq_false_iff.mp there)) (appendModel_eq (plain.trimEnd_ne_nil hasSource) _ _ _)⟩

/-- Relating two models changes a text between the braces of the two models only, but for a junction that is put
behind it. There it puts in new lines, and writes anew the lines of the fields of the relation. -/
theorem addRelation_frame {t : Text} (plain : IsPlainText t) (c : Connection) (request : RelationRequest) :
    ∃ base out, addRelation t c request = .ok out ∧
      (base = t ∨ request.cardinality = .manyToMany ∧ request.mode = .explicit ∧
        (Document.parse t).hasModel (junctionName c request.order) = false ∧
        ∃ body, base = trimEnd t ++ (txt "\n\n" ++ modelBlock (junctionName c request.order) body)) ∧
      hollow [c.sourceModel, c.targetModel] (parts out) = hollow [c.sourceModel, c.targetModel] (parts base) ∧
      afterParts out = afterParts base ∧
      ∀ model, model = c.sourceModel ∨ model = c.targetModel → ∀ rs, modelRows? t model = some rs →
        ∃ rs', modelRows? out model = some rs' ∧
          LinesEdited (fun name => name ≠ protectedField ∧
              ((model, name) ∈ takenFields (Document.parse t) c request ∨
                keyPlace? (Document.parse t) c request = some (model, name)))
            (trimmedLines rs) (trimmedLines rs') := by
  by_cases known : (Document.parse t).hasModel c.sourceModel ∧ (Document.parse t).hasModel c.targetModel
  · have extended := plain.extendsBase request known.1 known.2
    have writable (e : FieldEdit) (member : e ∈ relationEdits (Document.parse t) c request) :=
      plain.writableEdits request known.1 known.2 e member
    have edited := extended.plain.edited fun e member => (writable e member).1
    refine ⟨relationBase t c request, _, plain.addRelation_run request known.1 known.2, ?_, ?_, edited.after, ?_⟩
    · exact plain.relationBase_cases c request known.1
    · refine extended.plain.hollow_runEdits (fun e member => (writable e member).1) fun e member => ?_
      simpa using (writable e member).2
    · intro model side rs found
      have isModel : (Document.parse t).hasModel model := by
        rcases side with rfl | rfl
        · exact known.1
        · exact known.2
      have inBase := (extended.rows model isModel).trans found
      refine ⟨_, by rw [edited.rows, inBase, Option.map_some], ?_⟩
      refine (linesEdited_rowsAfter (fun e member => (writable e member).1) model (plain.modelRows found)).mono ?_
      rintro name ⟨other, e, member, rfl, replaces, rfl⟩
      exact ⟨other, relationEdits_replaces member replaces⟩
  · exact ⟨t, t, addRelation_unknown request known, Or.inl rfl, rfl, rfl,
      fun model _ rs found => ⟨rs, found, LinesEdited.refl _⟩⟩

/-- Two models with a comment between their fields, and white space at the end. -/
def coursesSchema : Text :=
  txt "model Student \x7b\n  id Int @id // number\n  // all\n  name String\n\x7d\n" ++
    txt "model Course \x7b\n  code Int @id \x7d\n\n\n"

theorem addRelation_frame_coursesSchema :
    IsPlainText coursesSchema ∧
      ∃ base out, addRelation coursesSchema ⟨txt "Student", txt "id", txt "Course", txt "code"⟩
          ⟨.manyToMany, .explicit, .sourceFirst, false, false⟩ = .ok out ∧
        hollow [txt "Student", txt "Course"] (parts out) = hollow [txt "Student", txt "Course"] (parts base) ∧
        ∃ rs, modelRows? out (txt "Student") = some rs ∧
          LinesEdited (· ≠ protectedField) [txt "id Int @id // number", txt "// all", txt "name String"]
            (trimmedLines rs) := by
  have plain : IsPlainText coursesSchema := by decide +kernel
  obtain ⟨base, out, done, -, untouched, -, lines⟩ := addRelation_frame plain
    ⟨txt "Student", txt "id", txt "Course", txt "code"⟩ ⟨.manyToMany, .explicit, .sourceFirst, false, false⟩
  have found : modelRows? coursesSchema (txt "Student") =
      some [[], txt "  id Int @id // number", txt "  // all", txt "  name String", []] := by decide +kernel
  obtain ⟨rs, after, edited⟩ := lines (txt "Student") (Or.inl rfl) _ found
  exact ⟨plain, base, out, done, untouched, rs, after, edited.mono fun _ allowed => allowed.1⟩

end SchemaDiagram
