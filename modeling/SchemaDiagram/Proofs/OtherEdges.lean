import SchemaDiagram.Proofs.EdgesBetween

namespace SchemaDiagram

open Text

/-- Whether a field of a model is relational and does not lead from one of two models to the other. -/
def Field.leadsElsewhere (a b model : Text) (f : Field) : Bool := f.relation.isSome && !isPair a b model f.type

theorem leadsElsewhere_iff {a b model : Text} {f : Field} :
    f.leadsElsewhere a b model ↔ f.relation.isSome ∧ isPair a b model f.type = false := by simp [Field.leadsElsewhere]

theorem GivesEdge.relational {d : Document} {m : Model} {f : Field} {e : Edge} (gives : GivesEdge d m f e) :
    f.relation.isSome := by
  cases gives with
  | key target keyed single => exact Field.relation_isSome keyed
  | answer target relational => exact relational
  | lists target relational => exact relational

/-- Two ways to read some models that agree on all relations but those between two of the models. -/
structure AgreeElsewhere (a b : Text) (all : List Model) (before after : Model → Model) : Prop where
  name : ∀ m, (after m).name = (before m).name
  fields : ∀ m ∈ all, (after m).fields.filter (Field.leadsElsewhere a b (before m).name) =
    (before m).fields.filter (·.relation.isSome)
  identity : ∀ m ∈ all, (after m).identityName = (before m).identityName

namespace AgreeElsewhere

variable {a b : Text} {all : List Model} {before after : Model → Model} (agree : AgreeElsewhere a b all before after)
  {d d' : Document} (isBefore : d.models = all.map before) (isAfter : d'.models = all.map after)

include agree

theorem inverse?_eq {m o : Model} (isOther : o ∈ all) {f : Field} (leads : f.leadsElsewhere a b (before m).name)
    (typed : f.type = (before o).name) : inverse? (after m) f (after o) = inverse? (before m) f (before o) := by
  have same : answers (after m) f (after o) = answers (before m) f (before o) := by
    funext back
    simp [answers, agree.name]
  have kinds (back : Field) (answer : answers (before m) f (before o) back) :
      back.leadsElsewhere a b (before o).name ∧ back.relation.isSome := by
    obtain ⟨typedBack, relational, -, -⟩ := answers_iff.mp answer
    refine ⟨leadsElsewhere_iff.mpr ⟨relational, ?_⟩, relational⟩
    rw [typedBack, isPair_symm, ← typed]
    exact (leadsElsewhere_iff.mp leads).2
  have among {kind : Field → Bool} (ofKind : ∀ back, answers (before m) f (before o) back → kind back)
      (fields : List Field) : fields.find? (answers (before m) f (before o)) =
        (fields.filter kind).find? (answers (before m) f (before o)) := by
    rw [List.find?_filter]
    refine congrArg (List.find? · fields) (funext fun back => ?_)
    cases answer : answers (before m) f (before o) back with
    | false => simp
    | true => simp [ofKind back answer]
  rw [inverse?, same, among fun back answer => (kinds back answer).1, agree.fields o isOther,
    ← among fun back answer => (kinds back answer).2]
  rfl

include isBefore isAfter

theorem fieldEdge?_eq {m : Model} (isModel : m ∈ all) {f : Field} (leads : f.leadsElsewhere a b (before m).name) :
    fieldEdge? d' (after m) f = fieldEdge? d (before m) f := by
  have target : d.model? f.type = (all.find? fun o => (before o).name = f.type).map before := by
    rw [Document.model?, isBefore, List.find?_map]
    rfl
  have target' : d'.model? f.type = (all.find? fun o => (before o).name = f.type).map after := by
    rw [Document.model?, isAfter, List.find?_map]
    refine congrArg (Option.map after) (congrArg (List.find? · all) (funext fun o => ?_))
    rw [Function.comp, agree.name]
  rw [SchemaDiagram.fieldEdge?_eq, SchemaDiagram.fieldEdge?_eq, target, target']
  refine Option.bind_congr fun relation _ => ?_
  rw [Option.bind_map, Option.bind_map]
  refine Option.bind_congr fun o found => ?_
  have isOther : o ∈ all := List.mem_of_find?_eq_some found
  have typed : (before o).name = f.type := by simpa using List.find?_some found
  have lists : listEdge (after m) (after o) = listEdge (before m) (before o) := by
    simp [listEdge, agree.name, agree.identity m isModel, agree.identity o isOther]
  have keys (g : Field) (back : Option Field) :
      keyEdge (after m) g (after o) back = keyEdge (before m) g (before o) back ∧
        keyEdge (after o) g (after m) back = keyEdge (before o) g (before m) back := by
    simp [keyEdge, agree.name]
  rw [Function.comp, Function.comp, agree.inverse?_eq isOther leads typed.symm]
  simp only [endEdge?, agree.name, lists, keys]

/-- The edges of a model that do not join the two models are those that it had. -/
theorem edges_eq {m : Model} (isModel : m ∈ all) :
    ((after m).edges d').filter (fun e => !e.joins a b) = (before m).edges d := by
  have leading (f : Field) : (fieldEdge? d' (after m) f).filter (fun e => !e.joins a b) =
      if f.leadsElsewhere a b (before m).name then fieldEdge? d (before m) f else none := by
    cases found : fieldEdge? d' (after m) f with
    | none =>
      split
      · rename_i leads
        rw [← agree.fieldEdge?_eq isBefore isAfter isModel leads, found]
        rfl
      · rfl
    | some e =>
      have gives := fieldEdge?_eq_some_iff.mp found
      have joins := gives.joins a b
      rw [agree.name] at joins
      split
      · rename_i leads
        rw [← agree.fieldEdge?_eq isBefore isAfter isModel leads, found]
        simp [joins, (leadsElsewhere_iff.mp leads).2]
      · rename_i inward
        have pair : isPair a b (before m).name f.type = true := by
          simpa [Field.leadsElsewhere, gives.relational] using inward
        simp [joins, pair]
  have relational (f : Field) :
      fieldEdge? d (before m) f = if f.relation.isSome then fieldEdge? d (before m) f else none := by
    rw [SchemaDiagram.fieldEdge?_eq]
    cases f.relation <;> rfl
  calc ((after m).edges d').filter (fun e => !e.joins a b)
      = (after m).fields.filterMap fun f => (fieldEdge? d' (after m) f).filter fun e => !e.joins a b :=
        List.filter_filterMap ..
    _ = ((after m).fields.filter (Field.leadsElsewhere a b (before m).name)).filterMap (fieldEdge? d (before m)) := by
        rw [List.filterMap_filter]
        exact List.filterMap_congr fun f _ => leading f
    _ = (before m).edges d := by
        rw [agree.fields m isModel, List.filterMap_filter, Model.edges]
        exact List.filterMap_congr fun f _ => (relational f).symm

theorem flatMap_edges :
    (d'.models.flatMap (Model.edges d')).filter (fun e => !e.joins a b) = d.models.flatMap (Model.edges d) := by
  rw [isBefore, isAfter, List.flatMap_map, List.flatMap_map, List.filter_flatMap]
  exact List.flatMap_congr fun m isModel => agree.edges_eq isBefore isAfter isModel

end AgreeElsewhere

theorem flatMap_edges_asOptional (d : Document) :
    d.asOptional.models.flatMap (Model.edges d.asOptional) = d.models.flatMap (Model.edges d) := by
  rw [Document.asOptional, List.flatMap_map]
  exact List.flatMap_congr fun m _ => m.edges_asOptional d

/-- If models keep their relations but for those between two of them, their diagram keeps all edges that do not join
the two. -/
theorem filter_inferEdges_elsewhere {a b : Text} {d d' : Document} (named : d'.IsNamed) {after : Model → Model}
    (isAfter : d'.models = d.models.map after)
    (agree : AgreeElsewhere a b d.models Model.asOptional fun m => (after m).asOptional) :
    (inferEdges d').filter (fun e => !e.joins a b) = inferEdges d := by
  have origin (e : Edge) (found : e ∈ [] ++ d'.models.flatMap (Model.edges d')) : e.Origin d' := by
    obtain ⟨m, isModel, inModel⟩ := List.mem_flatMap.mp found
    exact Model.edges_origin isModel inModel
  have modelsAfter : d'.asOptional.models = d.models.map fun m => (after m).asOptional := by
    rw [Document.asOptional, isAfter, List.map_map]
    rfl
  rw [inferEdges_eq, inferEdges_eq, filter_foldl_addEdge fun e found e' found' same => congrArg not
      ((origin e found).joins_eq named (origin e' found') same a b), ← flatMap_edges_asOptional d',
    agree.flatMap_edges (d := d.asOptional) rfl modelsAfter, flatMap_edges_asOptional]
  rfl

end SchemaDiagram
