import SchemaDiagram.Proofs.RelationCuts

namespace SchemaDiagram

/-- The connection drawn from its other end. -/
def Connection.swap (c : Connection) : Connection where
  sourceModel := c.targetModel
  sourceField := c.targetField
  targetModel := c.sourceModel
  targetField := c.sourceField

/-- The request that goes with the connection drawn from its other end. -/
def RelationRequest.swap (request : RelationRequest) : RelationRequest :=
  { request with nullableSource := request.nullableTarget, nullableTarget := request.nullableSource }

/-- The same key, with the ends of the connection exchanged. -/
def KeyPlacement.swap (p : KeyPlacement) : KeyPlacement := { p with holderIsSource := !p.holderIsSource }

/-- Exactly one end of a connection is a field that is taken for a foreign key. -/
def Connection.HasOneKey (c : Connection) (d : Document) : Prop :=
  holdsForeignKey (d.model? c.sourceModel) c.sourceField ≠ holdsForeignKey (d.model? c.targetModel) c.targetField

section

variable {d : Document} {c : Connection}

/-- The key that is there already decides where it is kept and what it refers to, from whichever end the connection is
drawn. -/
theorem KeyPlacement.ofConnection_swap (one : c.HasOneKey d) :
    KeyPlacement.ofConnection d c.swap = (KeyPlacement.ofConnection d c).swap := by
  unfold Connection.HasOneKey at one
  cases source : holdsForeignKey (d.model? c.sourceModel) c.sourceField with
  | true =>
    have target : holdsForeignKey (d.model? c.targetModel) c.targetField = false := by simpa [source] using one
    simp [ofConnection, swap, Connection.swap, source, target]
  | false =>
    have target : holdsForeignKey (d.model? c.targetModel) c.targetField = true := by simpa [source] using one
    simp [ofConnection, swap, Connection.swap, source, target]

theorem KeyPlacement.nullable_swap (p : KeyPlacement) (request : RelationRequest) :
    p.swap.nullable request.swap = p.nullable request := by
  unfold nullable
  cases side : p.holderIsSource with
  | true => simp [swap, side, RelationRequest.swap]
  | false => simp [swap, side, RelationRequest.swap]

/-- The lines of a relation do not depend on which end holds the key, only on which model. -/
theorem KeyPlacement.lines_swap (p : KeyPlacement) (d : Document) (nullable oneToMany : Bool) :
    p.swap.lines d nullable oneToMany = p.lines d nullable oneToMany := rfl

/-- The lines that a relation by a key writes are those of the connection drawn from its other end. -/
theorem relationLines_swap {request : RelationRequest} (one : c.HasOneKey d) (byKey : request.cardinality ≠ .manyToMany) :
    relationLines d c.swap request.swap = relationLines d c request := by
  have kept : request.swap.cardinality = request.cardinality := rfl
  unfold relationLines
  rw [kept, KeyPlacement.ofConnection_swap one]
  cases kind : request.cardinality with
  | oneToOne => simp only [KeyPlacement.nullable_swap, KeyPlacement.lines_swap]
  | oneToMany => simp only [KeyPlacement.nullable_swap, KeyPlacement.lines_swap]
  | manyToMany => exact absurd kind byKey

end

/-- It does not matter from which end a relation by a key is drawn, if one of the two fields is the key: the text is the
same, and so is the failure. -/
theorem addRelation_swap {t : Text} {c : Connection} {request : RelationRequest}
    (byKey : request.cardinality ≠ .manyToMany) (one : c.HasOneKey (Document.parse t)) :
    addRelation t c.swap request.swap = addRelation t c request := by
  have models : ((Document.parse t).hasModel c.swap.sourceModel && (Document.parse t).hasModel c.swap.targetModel) =
      ((Document.parse t).hasModel c.sourceModel && (Document.parse t).hasModel c.targetModel) :=
    Bool.and_comm _ _
  have base : ∀ c' request', request'.cardinality ≠ .manyToMany → relationBase t c' request' = t := by
    intro c' request' byKey'
    unfold relationBase
    split
    · rename_i kind mode
      exact absurd kind byKey'
    · rfl
  have run : relationRun t c.swap request.swap = relationRun t c request := by
    unfold relationRun
    dsimp only
    rw [models, relationLines_swap one byKey, base c request byKey, base c.swap request.swap byKey]
  rw [addRelation_eq, addRelation_eq, run]

/-- A schema whose only key is in the middle of a model that refers to itself, and may become optional. -/
def repliesTreeSchema : Text :=
  txt "model Note \x7b\n  id Int @id\n  parentId Int // above\n  title String\n\x7d\n"

theorem addRelation_swap_repliesTreeSchema :
    let c : Connection := ⟨txt "Note", txt "parentId", txt "Note", txt "id"⟩
    let request : RelationRequest := { cardinality := .oneToMany, nullableSource := true }
    request.cardinality ≠ .manyToMany ∧ c.HasOneKey (Document.parse repliesTreeSchema) ∧
      addRelation repliesTreeSchema c.swap request.swap = addRelation repliesTreeSchema c request := by
  have one : Connection.HasOneKey ⟨txt "Note", txt "parentId", txt "Note", txt "id"⟩
      (Document.parse repliesTreeSchema) := by
    unfold Connection.HasOneKey
    decide +kernel
  exact ⟨by decide, one, addRelation_swap (by decide) one⟩

end SchemaDiagram
