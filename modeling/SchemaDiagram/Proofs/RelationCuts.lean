import SchemaDiagram.Proofs.CheckedEdits
import SchemaDiagram.Proofs.RelationScript

namespace SchemaDiagram

open Text

/-- A line that is written into a model. -/
inductive LineEdit
  /-- A new line behind all fields. -/
  | insert (model line : Text)
  /-- A line in the place of the one that declares a field. -/
  | rewrite (model field line : Text)
  /-- A line in the place of the one that declares a field, or else a new one. -/
  | upsert (model field line : Text)

namespace LineEdit

def run (t : Text) : LineEdit → Except Error Text
  | insert model line => .ok (insertField t model line)
  | rewrite model field line => replaceField t model field line
  | upsert model field line => upsertField t model field line

/-- The same edit, made of cuts that are checked. -/
def checkedRun (t : Text) : LineEdit → Except Error Text
  | insert model line => checkedInsertField t model line
  | rewrite model field line => checkedReplaceField t model field line
  | upsert model field line => checkedUpsertField t model field line

/-- The line that is written anew has a character of several bytes in front of its comment. -/
def MeetsWide (t : Text) : LineEdit → Prop
  | insert _ _ => False
  | rewrite model field _ => WideOnLine t model field
  | upsert model field _ => WideOnLine t model field

end LineEdit

/-- The edit as lines that are put in, or that are written anew. -/
def FieldEdit.written (e : FieldEdit) : LineEdit :=
  if e.replaces then .rewrite e.model e.field.name e.field.render else .insert e.model e.field.render

def FieldEdit.upserted (e : FieldEdit) : LineEdit := .upsert e.model e.field.name e.field.render

/-- The lines of a relation by a foreign key. -/
def KeyPlacement.lines (p : KeyPlacement) (d : Document) (nullable oneToMany : Bool) : List LineEdit :=
  (p.columnEdits d nullable (!oneToMany)).map FieldEdit.written ++
    (p.relationEdit nullable :: if oneToMany then [p.listEdit] else []).map FieldEdit.upserted

/-- The lines that a relation writes, one by one. -/
def relationLines (d : Document) (c : Connection) (request : RelationRequest) : List LineEdit :=
  let p := KeyPlacement.ofConnection d c
  match request.cardinality with
  | .oneToOne => p.lines d (p.nullable request) false
  | .oneToMany => p.lines d (p.nullable request) true
  | .manyToMany => (relationEdits d c request).map FieldEdit.upserted

/-- What a relation does to a text: where it begins, and the lines that it writes. It does nothing if a model is
missing. -/
def relationRun (t : Text) (c : Connection) (request : RelationRequest) : Text × List LineEdit :=
  let d := Document.parse t
  if d.hasModel c.sourceModel && d.hasModel c.targetModel then (relationBase t c request, relationLines d c request)
  else (t, [])

theorem LineEdit.checkedRun_eq (t : Text) (e : LineEdit) : e.checkedRun t = e.run t := by
  cases e with
  | insert model line => exact checkedInsertField_eq t model line
  | rewrite model field line => exact checkedReplaceField_eq t model field line
  | upsert model field line => exact checkedUpsertField_eq t model field line

theorem LineEdit.run_returns_iff {t : Text} {e : LineEdit} : (∃ out, e.run t = .ok out) ↔ ¬e.MeetsWide t := by
  cases e with
  | insert model line => exact iff_of_true ⟨_, rfl⟩ not_false
  | rewrite model field line => exact replaceField_returns_iff
  | upsert model field line => exact upsertField_returns_iff

/-- Some edits give a text if and only if none of them meets a longer character when its turn comes. -/
theorem foldlM_returns_iff {t : Text} {edits : List LineEdit} :
    (∃ out, edits.foldlM LineEdit.run t = .ok out) ↔
      ∀ earlier e later u, edits = earlier ++ e :: later → earlier.foldlM LineEdit.run t = .ok u → ¬e.MeetsWide u := by
  induction edits generalizing t with
  | nil => exact iff_of_true ⟨t, rfl⟩ fun earlier e later u split => by simp at split
  | cons e edits ih =>
    rw [List.foldlM_cons]
    constructor
    · rintro ⟨out, done⟩ earlier e' later u split before
      cases first : e.run t with
      | error refused => rw [first] at done; cases done
      | ok t' =>
        rcases earlier with _ | ⟨e₀, earlier⟩
        · obtain ⟨rfl, -⟩ := List.cons_eq_cons.mp split
          obtain rfl : t = u := Except.ok.inj before
          exact LineEdit.run_returns_iff.mp ⟨t', first⟩
        · obtain ⟨rfl, rfl⟩ := List.cons_eq_cons.mp split
          rw [first, ok_bind] at done
          rw [List.foldlM_cons, first, ok_bind] at before
          exact ih.mp ⟨out, done⟩ earlier e' later u rfl before
    · intro clear
      obtain ⟨t', first⟩ := LineEdit.run_returns_iff.mpr (clear [] e edits t rfl rfl)
      rw [first, ok_bind]
      refine ih.mpr fun earlier e' later u split before => clear (e :: earlier) e' later u (by rw [split]; rfl) ?_
      rw [List.foldlM_cons, first, ok_bind, before]

/-- The column of a foreign key is made by its edits. -/
theorem ensureForeignKey_eq (t : Text) (d : Document) (p : KeyPlacement) (nullable unique : Bool) :
    ensureForeignKey t d p (p.keyType d) nullable unique =
      ((p.columnEdits d nullable unique).map FieldEdit.written).foldlM LineEdit.run t := by
  have column : (d.model? p.holder).bind (·.field? p.foreignKey) = p.column? d := rfl
  unfold ensureForeignKey KeyPlacement.columnEdits
  rw [column]
  cases p.column? d with
  | none =>
    rw [← render_keyColumn]
    rfl
  | some f =>
    dsimp only
    split
    · simp only [List.map_singleton, List.foldlM_cons, List.foldlM_nil, FieldEdit.written, if_pos, LineEdit.run, bind_pure]
    · rfl

theorem run_listField (t model name listed : Text) (replaces : Bool) :
    (FieldEdit.upserted ⟨model, listField name listed, replaces⟩).run t =
      upsertField t model name (listFieldLine name listed) := by
  rw [← render_listField]
  rfl

theorem run_relationEdit (t : Text) (p : KeyPlacement) (nullable : Bool) :
    (p.relationEdit nullable).upserted.run t =
      upsertField t p.holder p.relationName (keyFieldLine p.relationName p.referenced
        (if nullable then txt "?" else []) p.foreignKey p.referencedField) := by
  rw [← render_relationField]
  rfl

theorem relateByKey_eq (t : Text) (d : Document) (c : Connection) (request : RelationRequest) (oneToMany : Bool) :
    relateByKey t d c request oneToMany =
      ((KeyPlacement.ofConnection d c).lines d ((KeyPlacement.ofConnection d c).nullable request) oneToMany).foldlM
        LineEdit.run t := by
  rw [KeyPlacement.lines, List.foldlM_append, ← ensureForeignKey_eq]
  refine congrArg (Bind.bind _) (funext fun withKey => ?_)
  rw [List.map_cons, List.foldlM_cons, run_relationEdit]
  refine congrArg (Bind.bind _) (funext fun withField => ?_)
  cases oneToMany with
  | false => rfl
  | true =>
    rw [if_pos rfl, if_pos rfl, List.map_singleton, List.foldlM_cons, KeyPlacement.listEdit, run_listField]
    exact (bind_pure _).symm

/-- Relating two models writes line by line. -/
theorem addRelation_eq (t : Text) (c : Connection) (request : RelationRequest) :
    addRelation t c request = (relationRun t c request).2.foldlM LineEdit.run (relationRun t c request).1 := by
  obtain ⟨cardinality, mode, order, nullableSource, nullableTarget⟩ := request
  have lists (u : Text) (first second name other listed listed' : Text) :
      (upsertField u first name (listFieldLine name listed) >>= fun u' =>
          upsertField u' second other (listFieldLine other listed')) =
        ([⟨first, listField name listed, true⟩, ⟨second, listField other listed', true⟩].map
          FieldEdit.upserted).foldlM LineEdit.run u := by
    simp only [List.map_cons, List.map_nil, List.foldlM_cons, List.foldlM_nil, bind_pure, run_listField]
  unfold addRelation relationRun
  by_cases known : ((Document.parse t).hasModel c.sourceModel && (Document.parse t).hasModel c.targetModel) = true
  · simp only [known, if_true]
    match cardinality, mode with
    | .oneToOne, _ => exact relateByKey_eq t (Document.parse t) c _ false
    | .oneToMany, _ => exact relateByKey_eq t (Document.parse t) c _ true
    | .manyToMany, .implicit => exact lists t _ _ _ _ _ _
    | .manyToMany, .explicit => exact lists _ _ _ _ _ _ _
  · simp only [known]
    rfl

/-- Relating two models makes no cut out of range, out of order or inside of a character but in the search for the
comment of a line that it writes anew. It returns a text if and only if none of these lines has a character of
several bytes in front of its comment. -/
theorem addRelation_returns_iff (t : Text) (c : Connection) (request : RelationRequest) :
    addRelation t c request = (relationRun t c request).2.foldlM LineEdit.checkedRun (relationRun t c request).1 ∧
      ((∃ out, addRelation t c request = .ok out) ↔
        ∀ earlier e later u, (relationRun t c request).2 = earlier ++ e :: later →
          earlier.foldlM LineEdit.run (relationRun t c request).1 = .ok u → ¬e.MeetsWide u) := by
  have checked : LineEdit.checkedRun = LineEdit.run := funext fun u => funext fun e => e.checkedRun_eq u
  rw [checked, addRelation_eq]
  exact ⟨rfl, foldlM_returns_iff⟩

/-- A column whose name in the database has a letter of two bytes, with a comment behind it. -/
def accentedSchema : Text :=
  txt "model User \x7b\n  id Int @id\n\x7d\n\n" ++
    txt "model Post \x7b\n  id Int @id\n  authorId Int @map(\"clé\") // who\n\x7d\n"

theorem addRelation_fails_accentedSchema :
    ¬∃ out, addRelation accentedSchema ⟨txt "User", txt "id", txt "Post", txt "authorId"⟩
      ⟨.oneToMany, .implicit, .sourceFirst, false, true⟩ = .ok out := by
  have refused : addRelation accentedSchema ⟨txt "User", txt "id", txt "Post", txt "authorId"⟩
      ⟨.oneToMany, .implicit, .sourceFirst, false, true⟩ = .error .brokenCharacter := by decide +kernel
  rintro ⟨out, done⟩
  cases refused.symm.trans done

end SchemaDiagram
