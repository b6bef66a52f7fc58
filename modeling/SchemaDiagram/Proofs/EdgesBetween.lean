import Mathlib.Data.List.Nodup
import SchemaDiagram.Proofs.KeyEdges
import SchemaDiagram.Proofs.OptionalMarks

namespace SchemaDiagram

open Text

/-- Whether two names are these two, in one order or the other. -/
def isPair (a b x y : Text) : Bool := x = a && y = b || x = b && y = a

/-- Whether an edge joins two models, from the one or from the other. -/
def Edge.joins (a b : Text) (e : Edge) : Bool := isPair a b e.source e.target

section

variable {a b x y : Text}

theorem isPair_iff : isPair a b x y ↔ x = a ∧ y = b ∨ x = b ∧ y = a := by simp [isPair]

theorem isPair_symm (a b x y : Text) : isPair a b y x = isPair a b x y := by
  rw [Bool.eq_iff_iff, isPair_iff, isPair_iff]
  tauto

theorem isPair_comm (a b x y : Text) : isPair b a x y = isPair a b x y := Bool.or_comm _ _

end

/-- The edge of a field joins its model and the one of its type. -/
theorem GivesEdge.joins {d : Document} {m : Model} {f : Field} {e : Edge} (gives : GivesEdge d m f e) (a b : Text) :
    e.joins a b = isPair a b m.name f.type := by
  cases gives with
  | key target => exact congrArg (isPair a b m.name) (Document.model?_eq_some target).2
  | answer target =>
    refine Eq.trans ?_ (isPair_symm a b m.name f.type)
    exact congrArg (isPair a b · m.name) (Document.model?_eq_some target).2
  | lists target => exact congrArg (isPair a b m.name) (Document.model?_eq_some target).2

/-- Edges of one id, seen from one end or the other, join the same models. -/
theorem Edge.Origin.joins_eq {d : Document} (named : d.IsNamed) {e e' : Edge} (origin : e.Origin d) (origin' : e'.Origin d)
    (same : e.id = e'.id ∨ e.id = e'.reverseId) (a b : Text) : e.joins a b = e'.joins a b := by
  have ends {m o : Model} (isModel : m ∈ d.models) (isOther : o ∈ d.models) {mark : Text} (source : e'.source = m.name)
      (target : e'.target = o.name) (made : e'.id = edgeId m.name o.name mark) : e.joins a b = e'.joins a b := by
    have word := named.models m isModel
    have wordOther := named.models o isOther
    rcases same with same | same
    · obtain ⟨atSource, atTarget, -⟩ := origin.ends_of_id named word wordOther (same.trans made)
      rw [Edge.joins, Edge.joins, atSource, atTarget, source, target]
    · obtain ⟨-, -, reverse⟩ := origin'.ends_of_id named word wordOther made
      obtain ⟨atSource, atTarget, -⟩ := origin.ends_of_id named wordOther word (same.trans reverse)
      rw [Edge.joins, Edge.joins, atSource, atTarget, source, target, isPair_symm]
  cases origin' with
  | key holder other => exact ends holder other rfl rfl rfl
  | lists first second => exact ends first second rfl rfl rfl

/-- Of a kind of edges that have no id in common with the others, all are found among themselves. -/
theorem filter_foldl_addEdge {kind : Edge → Bool} {found edges : List Edge}
    (apart : ∀ e ∈ edges ++ found, ∀ e' ∈ edges ++ found, e.id = e'.id ∨ e.id = e'.reverseId → kind e = kind e') :
    (found.foldl addEdge edges).filter kind = (found.filter kind).foldl addEdge (edges.filter kind) := by
  induction found generalizing edges with
  | nil => rfl
  | cons e found ih =>
    have inside {e' : Edge} (member : e' ∈ addEdge edges e ++ found) : e' ∈ edges ++ e :: found := by
      rcases List.mem_append.mp member with known | later
      · rcases mem_addEdge known with known | rfl
        · exact List.mem_append_left _ known
        · simp
      · simp [later]
    rw [List.foldl_cons, ih fun x inX y inY => apart x (inside inX) y (inside inY)]
    cases ofKind : kind e with
    | false =>
      have dropped : (addEdge edges e).filter kind = edges.filter kind := by
        unfold addEdge
        split
        · rfl
        · simp [ofKind]
      rw [dropped, List.filter_cons_of_neg (by simp [ofKind])]
    | true =>
      have known : (edges.any fun known => known.id = e.id || known.id = e.reverseId) =
          (edges.filter kind).any fun known => known.id = e.id || known.id = e.reverseId := by
        rw [List.any_filter]
        refine Bool.eq_iff_iff.mpr ?_
        simp only [List.any_eq_true, Bool.and_eq_true]
        refine exists_congr fun known => and_congr_right fun inEdges => ⟨fun same => ⟨?_, same⟩, And.right⟩
        exact (apart known (by simp [inEdges]) e (by simp) (by simpa using same)).trans ofKind
      have added : (addEdge edges e).filter kind = addEdge (edges.filter kind) e := by
        rw [addEdge, addEdge, known]
        split
        · rfl
        · simp [ofKind]
      rw [added, List.filter_cons_of_pos ofKind, List.foldl_cons]

/-- A list without repetitions of nothing but one thing is that thing. -/
theorem eq_singleton_of_nodup {α : Type} {all : List α} (distinct : all.Nodup) {a : α} (there : a ∈ all)
    (only : ∀ b ∈ all, b = a) : all = [a] := by
  refine List.perm_singleton.mp ((List.perm_ext_iff_of_nodup distinct (List.nodup_singleton a)).mpr fun b => ?_)
  rw [List.mem_singleton]
  exact ⟨only b, fun same => same ▸ there⟩

/-- The only foreign key between two models, and the field that answers it, if there is one. -/
structure LoneKey (d : Document) (h : Model) (k : Field) (o : Model) (back : Option Field) : Prop where
  holder : h ∈ d.models
  other : o ∈ d.models
  inHolder : k ∈ h.fields
  typed : k.type = o.name
  keyed : k.hasForeignKey
  answered : ∀ b ∈ back, b ∈ o.fields ∧ answers h k o b ∧ b.hasForeignKey = false
  only : ∀ m ∈ d.models, ∀ f ∈ m.fields, isPair h.name o.name m.name f.type → f.relation.isSome →
    m = h ∧ f = k ∨ m = o ∧ back = some f

namespace LoneKey

variable {d : Document} (named : d.IsNamed) {h o : Model} {k : Field} {back : Option Field} (lone : LoneKey d h k o back)

include lone

theorem inverse?_eq : inverse? h k o = back := by
  have pair {b : Field} (inside : b ∈ o.fields) (answer : answers h k o b) : back = some b := by
    obtain ⟨typed, relational, apart, -⟩ := answers_iff.mp answer
    rcases lone.only o lone.other b inside (isPair_iff.mpr (Or.inr ⟨rfl, typed⟩)) relational with ⟨rfl, rfl⟩ | ⟨-, same⟩
    · exact absurd ⟨rfl, rfl⟩ apart
    · exact same
  cases found : inverse? h k o with
  | some b =>
    obtain ⟨inside, answer⟩ := inverse?_eq_some found
    exact (pair inside answer).symm
  | none =>
    cases same : back with
    | none => rfl
    | some b =>
      obtain ⟨inside, answer, -⟩ := lone.answered b same
      exact absurd answer (by simpa using List.find?_eq_none.mp found b inside)

include named

theorem gives : GivesEdge d h k (keyEdge h k o back) := by
  have target : d.model? k.type = some o := lone.typed ▸ named.model?_of_mem lone.other
  have single : ∀ b ∈ inverse? h k o, b.hasForeignKey = false := fun b same =>
    (lone.answered b (lone.inverse?_eq ▸ same)).2.2
  exact lone.inverse?_eq ▸ .key target lone.keyed single

/-- Every edge between the two models is that of the key. -/
theorem eq_keyEdge {m : Model} {f : Field} {e : Edge} (isModel : m ∈ d.models) (inModel : f ∈ m.fields)
    (gives : GivesEdge d m f e) (between : e.joins h.name o.name) : e = keyEdge h k o back := by
  have pair : isPair h.name o.name m.name f.type := gives.joins _ _ ▸ between
  have keyless {b : Field} (same : back = some b) : b.hasForeignKey = false := (lone.answered b same).2.2
  cases gives with
  | @key o' target keyed single =>
    rcases lone.only m isModel f inModel pair (Field.relation_isSome keyed) with ⟨rfl, rfl⟩ | ⟨-, same⟩
    · rw [lone.typed, named.model?_of_mem lone.other] at target
      rw [← Option.some.inj target, lone.inverse?_eq]
    · rw [keyless same] at keyed
      cases keyed
  | @answer o' b target relational noKey found keyed =>
    obtain ⟨isTarget, name⟩ := Document.model?_eq_some target
    obtain ⟨inTarget, answer⟩ := inverse?_eq_some found
    have pairBack : isPair h.name o.name o'.name b.type := by
      rw [(answers_iff.mp answer).1, name, isPair_symm]
      exact pair
    rcases lone.only o' isTarget b inTarget pairBack (answers_iff.mp answer).2.1 with ⟨rfl, rfl⟩ | ⟨-, same⟩
    · rcases lone.only m isModel f inModel pair relational with ⟨-, rfl⟩ | ⟨rfl, same⟩
      · rw [noKey] at keyed
        cases keyed
      · rw [same]
    · rw [keyless same] at keyed
      cases keyed
  | @lists o' b target relational noKey found noKeyBack list listBack first =>
    obtain ⟨isTarget, name⟩ := Document.model?_eq_some target
    obtain ⟨inTarget, answer⟩ := inverse?_eq_some found
    obtain ⟨typed, relationalBack, apart, -⟩ := answers_iff.mp answer
    have pairBack : isPair h.name o.name o'.name b.type := by
      rw [typed, name, isPair_symm]
      exact pair
    have keyed := lone.keyed
    -- without a key both fields would be the one that answers the key
    rcases lone.only m isModel f inModel pair relational with ⟨-, rfl⟩ | ⟨rfl, same⟩
    · rw [noKey] at keyed
      cases keyed
    rcases lone.only o' isTarget b inTarget pairBack relationalBack with ⟨-, rfl⟩ | ⟨rfl, sameBack⟩
    · rw [noKeyBack] at keyed
      cases keyed
    · exact absurd ⟨rfl, by rw [Option.some.inj (sameBack.symm.trans same)]⟩ apart

/-- The diagram has the edge of the key between the two models, and no other one. -/
theorem filter_inferEdges : (inferEdges d).filter (Edge.joins h.name o.name) = [keyEdge h k o back] := by
  have only : ∀ e ∈ inferEdges d, e.joins h.name o.name → e = keyEdge h k o back := by
    intro e member between
    rw [inferEdges_eq] at member
    rcases mem_foldl_addEdge member with none | found
    · cases none
    · obtain ⟨m, isModel, inEdges⟩ := List.mem_flatMap.mp found
      obtain ⟨f, inModel, gives⟩ := mem_edges_iff.mp inEdges
      exact lone.eq_keyEdge named isModel inModel gives between
  have joined : (keyEdge h k o back).joins h.name o.name := isPair_iff.mpr (Or.inl ⟨rfl, rfl⟩)
  have origin := (lone.gives named).origin lone.holder lone.inHolder
  obtain ⟨e, inDiagram, same⟩ :=
    inferEdges_covers lone.holder (mem_edges_iff.mpr ⟨k, lone.inHolder, lone.gives named⟩)
  have between : e.joins h.name o.name :=
    ((origin_of_mem_inferEdges inDiagram).joins_eq named origin same _ _).trans joined
  have there : keyEdge h k o back ∈ (inferEdges d).filter (Edge.joins h.name o.name) :=
    List.mem_filter.mpr ⟨only e inDiagram between ▸ inDiagram, joined⟩
  refine eq_singleton_of_nodup ((nodup_inferEdges d).of_map.filter _) there fun e' member => ?_
  exact only e' (List.mem_filter.mp member).1 (List.mem_filter.mp member).2

end LoneKey

end SchemaDiagram
