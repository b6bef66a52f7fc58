import SchemaDiagram.Proofs.WrittenField

namespace SchemaDiagram

open Text

/-- An attribute as the tokenizer leaves it: it has a sign and more, stays on one line and is read as itself. -/
structure IsLoneAttribute (a : Text) : Prop where
  signed : a.head? = some '@'
  large : 1 < byteSize a
  inLine : '\n' ∉ a
  alone : extractAttributes a = [a]

/-- A type that a reader takes for a model: it is not built in, and it is a list or has a capital. -/
def LooksLikeModel (type : Text) (isList : Bool) : Prop :=
  type ∉ scalarTypes ∧ ¬ txt "Unsupported" <+: type ∧ (isList ∨ ∃ c, type.head? = some c ∧ isUppercase c)

structure Field.IsWellFormed (f : Field) : Prop where
  name : IsWord f.name
  attributes : ∀ a ∈ f.attributes, IsLoneAttribute a
  relation : f.relation.isSome ↔ (∃ a ∈ f.attributes, txt "@relation" <+: a) ∨ LooksLikeModel f.type f.isList

structure Model.IsWellFormed (m : Model) : Prop where
  name : IsWord m.name
  fields : ∀ f ∈ m.fields, f.IsWellFormed
  distinct : (m.fields.map Field.name).Nodup
  attributes : ∀ a ∈ m.attributes, IsLoneAttribute a

structure Enumeration.IsWellFormed (e : Enumeration) : Prop where
  name : IsWord e.name
  values : ∀ v ∈ e.values, v ≠ [] ∧ ∀ c ∈ v, isBlank c = false

structure Document.IsWellFormed (d : Document) : Prop where
  models : ∀ m ∈ d.models, m.IsWellFormed
  enums : ∀ e ∈ d.enums, e.IsWellFormed
  distinctModels : (d.models.map Model.name).Nodup
  distinctEnums : (d.enums.map Enumeration.name).Nodup

/-- A token is a fixed point of the tokenizer, also one whose group or string is cut off by the end of its line. -/
theorem IsToken.isLoneAttribute {a : Text} (isToken : IsToken a) (inLine : '\n' ∉ a) : IsLoneAttribute a := by
  have alone : extractAttributes a = [a] := by
    have token : attributeToken (a ++ []) = a := by rw [List.append_nil, isToken.token]
    have read := isToken.attributesFrom token
    rwa [List.append_nil] at read
  obtain ⟨c, more, rfl⟩ := isToken.signed
  have positive := c.utf8Size_pos
  exact ⟨rfl, by simp only [byteSize_cons, show '@'.utf8Size = 1 from rfl]; omega, inLine, alone⟩

theorem namesModel_iff {type : Text} {isList : Bool} : namesModel type isList ↔ LooksLikeModel type isList := by
  have capital : type.head?.any isUppercase = true ↔ ∃ c, type.head? = some c ∧ isUppercase c := by
    cases type.head? <;> simp
  simp only [namesModel, LooksLikeModel, Bool.and_eq_true, Bool.not_eq_true', Bool.or_eq_true, capital,
    ← Bool.not_eq_true, List.contains_iff_mem, List.isPrefixOf_iff_prefix, and_assoc]

theorem relationOf_isSome_iff {attributes : List Text} {type : Text} {isList : Bool} :
    (relationOf attributes type isList).isSome ↔
      (∃ a ∈ attributes, txt "@relation" <+: a) ∨ LooksLikeModel type isList := by
  have tagged : (∃ a ∈ attributes, txt "@relation" <+: a) ↔
      (attributes.find? ((txt "@relation").isPrefixOf ·)).isSome := by
    simp only [List.find?_isSome, List.isPrefixOf_iff_prefix]
  rw [tagged, ← namesModel_iff, relationOf]
  cases attributes.find? ((txt "@relation").isPrefixOf ·) with
  | some tag => simp
  | none => cases namesModel type isList <;> simp

/-- What is read from one line as a field. -/
theorem parseField_isWellFormed {line : Text} {f : Field} (inLine : '\n' ∉ line) (read : parseField line = some f) :
    f.IsWellFormed := by
  obtain ⟨named, -⟩ := parseField_form read
  obtain ⟨-, -, attributes, tokens, relation⟩ := parseField_infix read
  refine ⟨named, fun a member => ?_, ?_⟩
  · exact (tokens.isToken member).isLoneAttribute fun newline => inLine ((attributes a member).subset newline)
  · rw [relation]
    exact relationOf_isSome_iff

theorem Model.ofBody_isWellFormed {name body after : Text} (named : IsWord name)
    (free : Uncommented .code false (body ++ after)) : (Model.ofBody name body).IsWellFormed := by
  refine ⟨named, ?_, nodup_keepFirst _ _, ?_⟩
  · intro f member
    obtain ⟨line, inBody, read⟩ := List.mem_filterMap.mp (mem_keepFirst member)
    obtain ⟨inLine, -⟩ := free.mem_bodyLines (List.mem_filter.mp inBody).1
    exact parseField_isWellFormed inLine read
  · intro a member
    obtain ⟨line, inBody, extracted⟩ := List.mem_flatMap.mp member
    obtain ⟨inLine, -⟩ := free.mem_bodyLines (List.mem_filter.mp inBody).1
    have inAttribute : '\n' ∉ a := fun newline => inLine ((mem_attributesFrom extracted).2.subset newline)
    exact ((areTokens_extractAttributes line).isToken extracted).isLoneAttribute inAttribute

theorem Enumeration.ofBody_isWellFormed {name body after : Text} (named : IsWord name)
    (free : Uncommented .code false (body ++ after)) : (Enumeration.ofBody name body).IsWellFormed := by
  refine ⟨named, fun v member => ?_⟩
  obtain ⟨nonempty, visible, -⟩ := (Enumeration.ofBody_isRead named free).values v member
  exact ⟨nonempty, visible⟩

/-- Every model of a document was read from a body that is free of comments. -/
theorem Document.parse_models_isWellFormed {t : Text} {m : Model} (member : m ∈ (Document.parse t).models) :
    m.IsWellFormed := by
  rw [Document.parse_eq_ofSections] at member
  obtain ⟨s, inSections, rfl⟩ := List.mem_map.mp (mem_keepFirst member)
  obtain ⟨named, after, free⟩ := mem_sections (List.mem_filter.mp inSections).1
  exact Model.ofBody_isWellFormed named free

/-- Whatever the text, the document that is read from it is well formed. -/
theorem Document.parse_isWellFormed (t : Text) : (Document.parse t).IsWellFormed where
  models := fun _ member => Document.parse_models_isWellFormed member
  enums := by
    intro e member
    rw [Document.parse_eq_ofSections] at member
    obtain ⟨s, inSections, rfl⟩ := List.mem_map.mp (mem_keepFirst member)
    obtain ⟨named, after, free⟩ := mem_sections (List.mem_filter.mp inSections).1
    exact Enumeration.ofBody_isWellFormed named free
  distinctModels := nodup_keepFirst _ _
  distinctEnums := nodup_keepFirst _ _

/-- A field whose type is the name of a model is relational exactly if an attribute says so or that name looks like one.
Which models the document has plays no part in it. -/
theorem typedField_isRelational_iff {t : Text} {m target : Model} {f : Field}
    (isModel : m ∈ (Document.parse t).models) (inModel : f ∈ m.fields)
    (isTarget : target ∈ (Document.parse t).models) (typed : f.type = target.name) :
    ∃ first rest, target.name = first :: rest ∧
      (f.relation.isSome ↔
        (∃ a ∈ f.attributes, txt "@relation" <+: a) ∨
          (target.name ∉ scalarTypes ∧ ¬ txt "Unsupported" <+: target.name ∧
            (f.isList ∨ isUppercase first))) := by
  obtain ⟨first, rest, atName⟩ := List.exists_cons_of_ne_nil (Document.parse_models_isWellFormed isTarget).name.1
  refine ⟨first, rest, atName, ?_⟩
  have relation := ((Document.parse_models_isWellFormed isModel).fields f inModel).relation
  have capital : (∃ c, target.name.head? = some c ∧ isUppercase c) ↔ isUppercase first := by
    rw [atName]
    simp
  rwa [LooksLikeModel, typed, capital] at relation

/-- Three fields of the type of a model: two have an attribute or a capital, the first has neither. -/
def lowercaseSchema : Text :=
  txt "model post {
  id Int @id
}
" ++
    txt "model Tag {
  p post
  q post @relation(fields: [r])
  s Tag
}
"

theorem typedField_isRelational_iff_lowercaseSchema :
    ∃ m ∈ (Document.parse lowercaseSchema).models, ∃ target ∈ (Document.parse lowercaseSchema).models,
      ∃ f ∈ m.fields, f.name = txt "s" ∧ f.type = target.name ∧ f.relation.isSome := by
  have typed : ∃ m ∈ (Document.parse lowercaseSchema).models, ∃ target ∈ (Document.parse lowercaseSchema).models,
      ∃ f ∈ m.fields, f.name = txt "s" ∧ f.type = target.name ∧ target.name = txt "Tag" := by decide +kernel
  obtain ⟨m, isModel, target, isTarget, f, inModel, named, same, atTag⟩ := typed
  obtain ⟨first, rest, atName, relational⟩ := typedField_isRelational_iff isModel inModel isTarget same
  refine ⟨m, isModel, target, isTarget, f, inModel, named, same, relational.mpr (Or.inr ?_)⟩
  obtain ⟨rfl, -⟩ := List.cons_eq_cons.mp (atName.symm.trans atTag)
  rw [atTag]
  exact ⟨by decide, by decide, Or.inr (by decide)⟩

/-- A field can have the type of a model and not be relational. -/
theorem typedField_not_isRelational :
    ¬ ∀ t : Text, ∀ m ∈ (Document.parse t).models, ∀ f ∈ m.fields,
      (∃ target ∈ (Document.parse t).models, f.type = target.name) → f.relation.isSome := by
  intro all
  have relational := all lowercaseSchema
  revert relational
  decide +kernel

end SchemaDiagram
