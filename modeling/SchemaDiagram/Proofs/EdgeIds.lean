import SchemaDiagram.Diagram.Inference
import SchemaDiagram.Proofs.Words

namespace SchemaDiagram

open Text

theorem edgeId_eq (source target mark : Text) :
    edgeId source target mark = source ++ '-' :: (target ++ '-' :: mark) := by
  simp [edgeId, joinWith, txt, List.intersperse]

/-- A text is cut in one way only at the first place of a character. -/
theorem append_cons_inj {c : Char} {a a' rest rest' : Text} (none : c ∉ a) (none' : c ∉ a')
    (same : a ++ c :: rest = a' ++ c :: rest') : a = a' ∧ rest = rest' := by
  rcases List.append_eq_append_iff.mp same with ⟨more, rfl, tail⟩ | ⟨more, rfl, tail⟩
  · rcases more with _ | ⟨d, more⟩
    · exact ⟨by simp, (List.cons_eq_cons.mp tail).2⟩
    · obtain rfl : c = d := (List.cons_eq_cons.mp tail).1
      exact absurd (by simp) none'
  · rcases more with _ | ⟨d, more⟩
    · exact ⟨by simp, (List.cons_eq_cons.mp tail).2.symm⟩
    · obtain rfl : c = d := (List.cons_eq_cons.mp tail).1
      exact absurd (by simp) none

/-- An id can be taken apart again if the names in it have no hyphen. -/
theorem edgeId_inj_of_noHyphen {source target mark source' target' mark' : Text} (noHyphen : '-' ∉ source)
    (noHyphenTarget : '-' ∉ target) (noHyphen' : '-' ∉ source') (noHyphenTarget' : '-' ∉ target')
    (same : edgeId source target mark = edgeId source' target' mark') :
    source = source' ∧ target = target' ∧ mark = mark' := by
  rw [edgeId_eq, edgeId_eq] at same
  obtain ⟨first, rest⟩ := append_cons_inj noHyphen noHyphen' same
  exact ⟨first, append_cons_inj noHyphenTarget noHyphenTarget' rest⟩

theorem edgeId_inj {source target mark source' target' mark' : Text} (word : IsWord source) (wordTarget : IsWord target)
    (word' : IsWord source') (wordTarget' : IsWord target')
    (same : edgeId source target mark = edgeId source' target' mark') :
    source = source' ∧ target = target' ∧ mark = mark' := by
  have noHyphen {t : Text} (word : IsWord t) : '-' ∉ t := word.not_mem (by decide)
  exact edgeId_inj_of_noHyphen (noHyphen word) (noHyphen wordTarget) (noHyphen word') (noHyphen wordTarget') same

/-- From its other end an edge has the same mark. -/
theorem Edge.reverseId_eq {e : Edge} {mark : Text} (made : e.id = edgeId e.source e.target mark) :
    e.reverseId = edgeId e.target e.source mark := by
  have split : edgeId e.source e.target mark = edgeId e.source e.target [] ++ mark := by simp [edgeId_eq]
  have rest : (edgeId e.source e.target []).isPrefixOf? e.id = some mark := by
    rw [made, split]
    exact isPrefixOf?_eq_some_iff.mpr rfl
  rw [Edge.reverseId, rest, Option.getD_some]

/-- The mark of an edge between lists is no word. -/
theorem IsWord.ne_manyToMany {t : Text} (word : IsWord t) : t ≠ Cardinality.manyToMany.label := by
  rintro rfl
  exact absurd (word.2 '-' (by decide)) (by decide)

end SchemaDiagram
