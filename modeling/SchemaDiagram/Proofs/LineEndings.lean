import SchemaDiagram.Proofs.LineBlanks

namespace SchemaDiagram

open Text

/-- What models and enumerations are read from: the rows of a body, without the white space around them. -/
def Section.trimmed (s : Section) : Keyword × Text × List Text := (s.keyword, s.name, (rows s.body).map trim)

def Model.ofTrimmed (name : Text) (lines : List Text) : Model where
  name := name
  fields := keepFirst Field.name (lines.filterMap lineField?)
  attributes := lines.flatMap lineAttributes

theorem Model.ofBody_eq_ofTrimmed (name body : Text) :
    Model.ofBody name body = Model.ofTrimmed name ((rows body).map trim) := by
  rw [Model.ofBody_eq, Model.ofTrimmed, List.filterMap_map, List.flatMap_map]
  rfl

def Enumeration.ofTrimmed (name : Text) (lines : List Text) : Enumeration where
  name := name
  values := lines.filterMap enumValue?

theorem Enumeration.ofBody_eq_ofTrimmed (name body : Text) :
    Enumeration.ofBody name body = Enumeration.ofTrimmed name ((rows body).map trim) := by
  have noValue : enumValue? [] = none := by decide
  rw [Enumeration.ofBody, bodyLines, Enumeration.ofTrimmed]
  rcases map_trim_lines body with same | same
  · rw [same]
  · rw [same, List.filterMap_append]
    simp [noValue]

/-- Two lists of declarations whose rows differ in white space only hold the same models and enumerations. -/
theorem Document.ofSections_trimmed {all all' : List Section}
    (same : all.map Section.trimmed = all'.map Section.trimmed) :
    (Document.ofSections all).models = (Document.ofSections all').models ∧
      (Document.ofSections all).enums = (Document.ofSections all').enums := by
  have reads {α : Type} (keyword : Keyword) {read : Section → α} (readTrimmed : Keyword × Text × List Text → α)
      (eq : ∀ s, read s = readTrimmed s.trimmed) (all : List Section) :
      (all.filter (·.keyword = keyword)).map read =
        ((all.map Section.trimmed).filter (·.1 = keyword)).map readTrimmed := by
    rw [List.filter_map, List.map_map]
    exact List.map_congr_left fun s _ => eq s
  have models := reads .model (fun s => Model.ofTrimmed s.2.1 s.2.2) fun s => Model.ofBody_eq_ofTrimmed s.name s.body
  have enums := reads .enum (fun s => Enumeration.ofTrimmed s.2.1 s.2.2) fun s =>
    Enumeration.ofBody_eq_ofTrimmed s.name s.body
  simp only [Document.ofSections, models, enums, same, and_self]

section

variable {gap : Text} (blank : ∀ c ∈ gap, isBlank c) (inLine : '\n' ∉ gap)

include blank inLine

/-- White space at the end of a line changes nothing of the models and enumerations, wherever the line is. -/
theorem parse_lineBlanks (u v : Text) :
    (Document.parse (u ++ (gap ++ '\n' :: v))).models = (Document.parse (u ++ '\n' :: v)).models ∧
      (Document.parse (u ++ (gap ++ '\n' :: v))).enums = (Document.parse (u ++ '\n' :: v)).enums := by
  rw [Document.parse_eq_ofSections, Document.parse_eq_ofSections]
  refine Document.ofSections_trimmed ?_
  rw [sections, sections, outline_lineBlanks blank, List.map_map, List.map_map, List.map_map]
  refine List.map_congr_left fun d member => ?_
  exact congrArg (fun lines => (d.keyword, d.name, lines)) (body_lineBlanks blank inLine member)

end

/-- A text with a carriage return in front of every newline. -/
def withCarriageReturns (t : Text) : Text := t.flatMap fun c => if c = '\n' then ['\r', '\n'] else [c]

/-- Line endings do not change the models and enumerations. -/
theorem parse_withCarriageReturns (t : Text) :
    (Document.parse (withCarriageReturns t)).models = (Document.parse t).models ∧
      (Document.parse (withCarriageReturns t)).enums = (Document.parse t).enums := by
  -- the lines in front have their carriage returns already
  have behind (u : Text) : (Document.parse (u ++ withCarriageReturns t)).models = (Document.parse (u ++ t)).models ∧
      (Document.parse (u ++ withCarriageReturns t)).enums = (Document.parse (u ++ t)).enums := by
    induction t generalizing u with
    | nil => exact ⟨rfl, rfl⟩
    | cons c t ih =>
      by_cases newline : c = '\n'
      · subst newline
        obtain ⟨models, enums⟩ := ih (u ++ ['\r', '\n'])
        have blank : ∀ c ∈ ['\r'], isBlank c := by decide
        obtain ⟨models', enums'⟩ := parse_lineBlanks blank (by decide) u t
        have whole : u ++ withCarriageReturns ('\n' :: t) = u ++ ['\r', '\n'] ++ withCarriageReturns t := by
          simp [withCarriageReturns]
        have next : u ++ ['\r', '\n'] ++ t = u ++ (['\r'] ++ '\n' :: t) := by simp
        rw [whole, models, enums, next]
        exact ⟨models', enums'⟩
      · have whole : u ++ withCarriageReturns (c :: t) = u ++ [c] ++ withCarriageReturns t := by
          simp [withCarriageReturns, newline]
        rw [whole, List.append_cons u c t]
        exact ih (u ++ [c])
  exact behind []

example : withCarriageReturns (txt "model A \x7b\n\x7d\n") = txt "model A \x7b\r\n\x7d\r\n" := rfl

end SchemaDiagram
