import SchemaDiagram.Proofs.AttributeBytes
import SchemaDiagram.Proofs.CheckedScan
import SchemaDiagram.Proofs.OutlineGeometry

namespace SchemaDiagram

open Text

/-- `strip`, with every part cut out of the text where it begins and ends. -/
def checkedStrip (t : Text) : Option Text := checkedScan (· ≠ .comment) t false 0 (byteSize t + 1)

/-- `mask`, with every part cut out of the text where it begins and ends. -/
def checkedMask (t : Text) : Option Text := checkedScan (· = .code) t false 0 (byteSize t + 1)

def checkedOutline (t : Text) : Option (List Declaration) := do
  let masked ← checkedMask t
  return declarationsFrom masked 0 (headers masked)

def Declaration.checkedBody (d : Declaration) (t : Text) : Option Text := part? (d.brace + 1) d.stop t

/-- `parseField`, with its attributes cut out. -/
def checkedField (line : Text) : Option (Option Field) :=
  let name := line.takeWhile isWordChar
  let gap := line.dropWhile isWordChar
  let typed := gap.dropWhile isBlank
  let base := typed.takeWhile isWordChar
  let (arguments, marked) := splitGroup (typed.dropWhile isWordChar)
  let (isList, unlisted) := splitMark (txt "[]") marked
  let (isOptional, rest) := splitMark (txt "?") unlisted
  let tail := rest.dropWhile isBlank
  if name.isEmpty || !gap.head?.any isBlank || base.isEmpty || tail.contains '\n' then some none
  else do
    let type := base ++ arguments
    let attributes ← checkedAttributes tail
    return some { name, type, isList, isOptional, attributes, relation := relationOf attributes type isList }

def checkedModel (name body : Text) : Option Model := do
  let read ← ((bodyLines body).filter (fun line => !isAttributeLine line)).mapM checkedField
  let attributes ← ((bodyLines body).filter isAttributeLine).mapM checkedAttributes
  return { name, fields := keepFirst Field.name (read.filterMap id), attributes := attributes.flatten }

/-- `Document.parse`, with every part of a text cut out where it begins and ends. The comments are blanked in the text,
its declarations are found in a copy without strings, and their bodies are cut out of the text between the offsets that
were found in the copy. -/
def checkedParse (t : Text) : Option Document := do
  let text ← checkedStrip t
  let declarations ← checkedOutline text
  let blocks ← declarations.mapM fun d => (d.checkedBody text).map (d, ·)
  let of (keyword : Keyword) := blocks.filter (·.1.keyword = keyword)
  let models ← (of .model).mapM fun block => checkedModel block.1.name block.2
  return {
    datasource := (of .datasource).head?.map fun block => .ofBody block.2
    generator := (of .generator).head?.map fun block => .ofBody block.2
    models := keepFirst Model.name models
    enums := keepFirst Enumeration.name ((of .enum).map fun block => .ofBody block.1.name block.2) }

theorem mapM_eq_some_map {α β : Type} {f : α → Option β} {g : α → β} {items : List α}
    (each : ∀ a ∈ items, f a = some (g a)) : items.mapM f = some (items.map g) := by
  induction items with
  | nil => rfl
  | cons a items ih =>
    obtain ⟨here, later⟩ := List.forall_mem_cons.mp each
    rw [List.mapM_cons, here, ih later]
    rfl

theorem checkedStrip_eq (t : Text) : checkedStrip t = some (strip t) :=
  checkedScan_eq (· ≠ .comment) (by decide) false [] t (Nat.lt_succ_self _)

theorem checkedMask_eq (t : Text) : checkedMask t = some (mask t) :=
  checkedScan_eq (· = .code) (by decide) false [] t (Nat.lt_succ_self _)

theorem checkedOutline_eq (t : Text) : checkedOutline t = some (outline t) := by
  rw [checkedOutline, checkedMask_eq]
  rfl

theorem Declaration.checkedBody_eq {t : Text} {d : Declaration} (member : d ∈ outline t) :
    d.checkedBody t = some (d.body t) := by
  have lies := Declaration.liesIn member
  have behindBrace : IsBoundary t (d.brace + 1) := (hasAt_of_mask (by decide) lies.opens).isBoundary_next
  rw [Declaration.checkedBody, part?, cut_eq behindBrace lies.boundaries.2.2.1 lies.brace_lt_stop]
  rfl

theorem checkedField_eq (line : Text) : checkedField line = some (parseField line) := by
  simp only [checkedField, parseField, checkedAttributes_eq]
  split <;> rfl

theorem checkedModel_eq (name body : Text) : checkedModel name body = some (Model.ofBody name body) := by
  rw [checkedModel, mapM_eq_some_map fun line _ => checkedField_eq line,
    mapM_eq_some_map fun line _ => checkedAttributes_eq line]
  simp [Model.ofBody, List.filterMap_map, List.flatMap]

/-- Every text is parsed: no cut is out of range or inside of a character, no depth of parentheses falls below zero, and
no scan goes on without end. -/
theorem checkedParse_eq (t : Text) : checkedParse t = some (Document.parse t) := by
  have blocks : (outline (strip t)).mapM (fun d => (d.checkedBody (strip t)).map (d, ·)) =
      some ((outline (strip t)).map fun d => (d, d.body (strip t))) :=
    mapM_eq_some_map fun d member => by rw [Declaration.checkedBody_eq member]; rfl
  have models (blocks : List (Declaration × Text)) : (blocks.mapM fun block => checkedModel block.1.name block.2) =
      some (blocks.map fun block => Model.ofBody block.1.name block.2) :=
    mapM_eq_some_map fun block _ => checkedModel_eq _ _
  simp only [checkedParse, checkedStrip_eq, checkedOutline_eq, blocks, models, Option.bind_eq_bind, Option.bind_some,
    List.filter_map, List.head?_map, List.map_map, Option.map_map]
  rfl

end SchemaDiagram
