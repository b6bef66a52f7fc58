import SchemaDiagram.Proofs.ParsedForm

namespace SchemaDiagram

open Text

section

variable {α : Type} (name : α → Text)

theorem mem_names_keepFirst {all : List α} {key : Text} :
    key ∈ (keepFirst name all).map name ↔ key ∈ all.map name := by
  refine ⟨fun kept => ((keepFirst_sublist name all).map name).subset kept, fun member => ?_⟩
  obtain ⟨a, inAll, rfl⟩ := List.mem_map.mp member
  obtain ⟨b, found⟩ := Option.isSome_iff_exists.mp (List.find?_isSome.mpr ⟨a, inAll, decide_eq_true rfl⟩ :
    (all.find? fun b => name b = name a).isSome)
  rw [← find?_keepFirst] at found
  have same : name b = name a := by simpa using List.find?_some found
  exact same ▸ List.mem_map_of_mem (List.mem_of_find?_eq_some found)

/-- Of two lists, the second gives what the first has not named. -/
theorem keepFirst_append (all more : List α) :
    keepFirst name (all ++ more) =
      keepFirst name all ++ (keepFirst name more).filter fun b => name b ∉ all.map name := by
  induction all with
  | nil =>
    rw [List.nil_append, keepFirst, List.nil_append]
    exact (List.filter_eq_self.mpr fun b _ => decide_eq_true List.not_mem_nil).symm
  | cons a all ih =>
    rw [List.cons_append, keepFirst, keepFirst, ih, List.filter_append, List.filter_filter, List.cons_append]
    refine congrArg (a :: _ ++ ·) (List.filter_congr fun b _ => ?_)
    simp only [List.map_cons, List.mem_cons, not_or, Bool.decide_and]

theorem keepFirst_flatMap (parts : List (List α)) :
    keepFirst name (parts.flatMap (keepFirst name)) = keepFirst name parts.flatten := by
  induction parts with
  | nil => rfl
  | cons part parts ih =>
    have kept := keepFirst_of_nodup (nodup_keepFirst name part)
    rw [List.flatMap_cons, List.flatten_cons, keepFirst_append, keepFirst_append, ih, kept]
    simp only [mem_names_keepFirst]

end

/-- What several documents say one behind the other: of the settings blocks the first, and of all models or
enumerations with one name the first. -/
def Document.union (all : List Document) : Document where
  datasource := all.findSome? (·.datasource)
  generator := all.findSome? (·.generator)
  models := keepFirst Model.name (all.flatMap (·.models))
  enums := keepFirst Enumeration.name (all.flatMap (·.enums))

/-- What is declared part by part is the union of what the parts say. -/
theorem Document.ofSections_flatten (parts : List (List Section)) :
    Document.ofSections parts.flatten = Document.union (parts.map Document.ofSections) := by
  have first {α : Type} (keyword : Keyword) (read : Section → α) :
      (parts.flatten.filter (·.keyword = keyword)).head?.map read =
        parts.findSome? fun part => (part.filter (·.keyword = keyword)).head?.map read := by
    rw [List.filter_flatten, List.head?_flatten, List.findSome?_map, List.map_findSome?]
    rfl
  have firsts {α : Type} (name : α → Text) (keyword : Keyword) (read : Section → α) :
      keepFirst name ((parts.flatten.filter (·.keyword = keyword)).map read) =
        keepFirst name (parts.flatMap fun part => keepFirst name ((part.filter (·.keyword = keyword)).map read)) := by
    have each := keepFirst_flatMap name (parts.map fun part => (part.filter (·.keyword = keyword)).map read)
    rw [List.flatMap_map] at each
    rw [each, List.filter_flatten, List.map_flatten, List.map_map]
    rfl
  simp only [ofSections, union, first, firsts, List.findSome?_map, List.flatMap_map, Function.comp_def]

end SchemaDiagram
