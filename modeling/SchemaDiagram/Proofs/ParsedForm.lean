import SchemaDiagram.Proofs.AttributeForm
import SchemaDiagram.Proofs.BodyLines
import SchemaDiagram.Proofs.DocumentBlocks
import SchemaDiagram.Proofs.OutlineGeometry

namespace SchemaDiagram

open Text

/-- A field as it is read from a line. -/
structure Field.IsRead (f : Field) : Prop where
  formed : f.IsFormed
  attributes : ∀ a ∈ f.attributes, '\n' ∉ a

/-- A model as it is read from a body. -/
structure Model.IsRead (m : Model) : Prop where
  name : IsWord m.name
  fields : ∀ f ∈ m.fields, f.IsRead
  distinct : (m.fields.map Field.name).Nodup
  attributes : ∀ a ∈ m.attributes, a.head? = some '@' ∧ '\n' ∉ a

/-- An enumeration as it is read from a body. -/
structure Enumeration.IsRead (e : Enumeration) : Prop where
  name : IsWord e.name
  values : ∀ v ∈ e.values, v ≠ [] ∧ (∀ c ∈ v, isBlank c = false) ∧ v.head? ≠ some '@'

/-- A document as it is read from a text. -/
structure Document.IsRead (d : Document) : Prop where
  models : ∀ m ∈ d.models, m.IsRead
  enums : ∀ e ∈ d.enums, e.IsRead
  distinctModels : (d.models.map Model.name).Nodup
  distinctEnums : (d.enums.map Enumeration.name).Nodup

theorem groupRest_isPrefix (quoting : Quoting) (depth : Nat) (t : Text) :
    groupRest quoting depth t <+: t := by
  induction t generalizing quoting depth with
  | nil => exact List.prefix_refl _
  | cons c t ih =>
    cases quoting with
    | escaped => exact List.cons_prefix_cons.mpr ⟨rfl, ih _ _⟩
    | inside =>
      simp only [groupRest]
      refine List.cons_prefix_cons.mpr ⟨rfl, ?_⟩
      split
      · exact ih _ _
      · split <;> exact ih _ _
    | outside =>
      simp only [groupRest]
      refine List.cons_prefix_cons.mpr ⟨rfl, ?_⟩
      split
      · exact ih _ _
      split
      · exact ih _ _
      split
      · split
        · exact List.nil_prefix
        · exact ih _ _
      · exact ih _ _

theorem group_isPrefix (t : Text) : group t <+: t := by
  unfold group
  split
  · exact List.cons_prefix_cons.mpr ⟨rfl, groupRest_isPrefix _ _ _⟩
  · exact List.nil_prefix

theorem attributeToken_isPrefix (t : Text) : attributeToken t <+: t := by
  obtain ⟨signs, name, after, rfl, inSigns, signStops, inName, nameStops⟩ := exists_attributeParts t
  obtain ⟨rest, whole⟩ := group_isPrefix after
  refine ⟨rest, ?_⟩
  rw [attributeToken_append inSigns signStops inName nameStops, List.append_assoc, List.append_assoc, whole]

theorem trim_isInfix (t : Text) : trim t <:+: t :=
  (dropEndWhile_isPrefix isBlank _).isInfix.trans (List.dropWhile_suffix _).isInfix

/-- An extracted attribute begins with its sign and is part of the text. -/
theorem mem_attributesFrom {skip : Nat} {t a : Text} (member : a ∈ attributesFrom skip t) :
    a.head? = some '@' ∧ a <:+: t := by
  induction t generalizing skip with
  | nil => cases member
  | cons c t ih =>
    have lift {skip' : Nat} (later : a ∈ attributesFrom skip' t) : a.head? = some '@' ∧ a <:+: c :: t :=
      ⟨(ih later).1, (ih later).2.trans (List.suffix_cons c t).isInfix⟩
    cases skip with
    | succ skip => exact lift member
    | zero =>
      simp only [attributesFrom] at member
      by_cases sign : c = '@'
      · subst sign
        rw [if_pos rfl] at member
        have here : (trim (attributeToken ('@' :: t))).head? = some '@' ∧
            trim (attributeToken ('@' :: t)) <:+: '@' :: t := by
          obtain ⟨more, atStart⟩ : ∃ more, attributeToken ('@' :: t) = '@' :: more := ⟨_, rfl⟩
          have trimmed : trim (attributeToken ('@' :: t)) = '@' :: trimEnd more :=
            atStart ▸ trim_cons (by decide) more
          exact ⟨by rw [trimmed]; rfl, (trim_isInfix _).trans (attributeToken_isPrefix ('@' :: t)).isInfix⟩
        split at member
        · rcases List.mem_cons.mp member with rfl | later
          · exact here
          · exact lift later
        · exact lift member
      · rw [if_neg sign] at member
        exact lift member

theorem keepFirst_sublist {α : Type} (name : α → Text) (all : List α) : (keepFirst name all).Sublist all := by
  induction all with
  | nil => exact .slnil
  | cons a all ih => exact (List.filter_sublist.trans ih).cons_cons a

theorem mem_keepFirst {α : Type} {name : α → Text} {all : List α} {a : α} (member : a ∈ keepFirst name all) :
    a ∈ all := (keepFirst_sublist name all).subset member

theorem nodup_keepFirst {α : Type} (name : α → Text) (all : List α) :
    ((keepFirst name all).map name).Nodup := by
  induction all with
  | nil => exact List.nodup_nil
  | cons a all ih =>
    rw [keepFirst, List.map_cons, List.nodup_cons]
    constructor
    · intro member
      obtain ⟨b, kept, same⟩ := List.mem_map.mp member
      exact absurd same (by simpa using (List.mem_filter.mp kept).2)
    · exact ih.sublist ((List.filter_sublist).map name)

theorem find?_keepFirst {α : Type} (name : α → Text) (key : Text) (all : List α) :
    (keepFirst name all).find? (name · = key) = all.find? (name · = key) := by
  induction all with
  | nil => rfl
  | cons a all ih =>
    rw [keepFirst]
    by_cases here : name a = key
    · rw [List.find?_cons_of_pos (by simpa using here), List.find?_cons_of_pos (by simpa using here)]
    · rw [List.find?_cons_of_neg (by simpa using here), List.find?_cons_of_neg (by simpa using here),
        List.find?_filter, ← ih]
      congr 1
      funext b
      by_cases found : name b = key
      · simp [found, Ne.symm here]
      · simp [found]

theorem find?_of_mem {α : Type} {name : α → Text} {all : List α} (distinct : (all.map name).Nodup) {a : α}
    (member : a ∈ all) : all.find? (name · = name a) = some a := by
  induction all with
  | nil => cases member
  | cons b all ih =>
    obtain ⟨fresh, later⟩ := List.nodup_cons.mp distinct
    rcases List.mem_cons.mp member with rfl | inside
    · exact List.find?_cons_of_pos (by simp)
    · have other : name b ≠ name a := fun same => fresh (same ▸ List.mem_map_of_mem inside)
      rw [List.find?_cons_of_neg (by simpa using other), ih later inside]

/-- The field that an uncommented line gives. -/
theorem parseField_isRead {line after : Text} {lineBlank : Bool} {f : Field} (inLine : '\n' ∉ line)
    (free : Uncommented .code lineBlank (line ++ after)) (read : parseField line = some f) : f.IsRead := by
  obtain ⟨named, typed, ⟨gap, rest, rfl, blanks⟩, tail, oneLine, attributes⟩ := parseField_form read
  refine ⟨⟨named, typed, ?_, ?_⟩, ?_⟩
  · exact fun member => inLine (by simp [member])
  · -- the first letter of the name takes the scanner into a line that has begun
    obtain ⟨c, more, atName⟩ := List.exists_cons_of_ne_nil named.1
    have letter := named.2 c (by simp [atName])
    have plain : c ≠ '"' ∧ c ≠ '/' ∧ c ≠ '\n' := by
      refine ⟨?_, ?_, ?_⟩ <;> rintro rfl <;> revert letter <;> decide
    have begun : lineBlankAfter lineBlank c = false := by
      have visible : isBlank c = false := by
        by_contra blank
        exact blank (isBlank_eq_false_of_isWordChar letter)
      simp [lineBlankAfter, plain.2.2, visible]
    rw [atName] at free inLine
    obtain ⟨-, later⟩ := uncommented_cons_iff.mp free
    rw [ScanState.step_code_plain plain.1 plain.2.1, begun] at later
    have split : more ++ (gap ++ (f.type ++ rest)) ++ after = more ++ gap ++ f.type ++ (rest ++ after) := by
      simp
    have freeLead : CommentFree .outside (more ++ gap ++ f.type) := by
      refine Uncommented.commentFree (t := rest ++ after) ?_ ?_
      · rw [← split]
        exact later
      · exact fun member => inLine (by simp at member ⊢; tauto)
    have noQuote : '"' ∉ more ++ gap := by
      intro member
      rcases List.mem_append.mp member with inside | inside
      · exact named.not_mem (c := '"') (by decide) (by rw [atName]; exact List.mem_cons_of_mem _ inside)
      · have blank := blanks '"' inside
        cases blank
    have freeType := freeLead.of_append_right
    rwa [after_of_not_mem noQuote] at freeType
  · rw [attributes]
    exact fun a member newline => oneLine ((mem_attributesFrom member).2.subset newline)

/-- A declaration has a word for its name, and its body is entered in code. -/
theorem mem_sections {t : Text} {s : Section} (member : s ∈ sections t) :
    IsWord s.name ∧ ∃ after, Uncommented .code false (s.body ++ after) := by
  obtain ⟨d, inOutline, rfl⟩ := List.mem_map.mp member
  obtain ⟨earlier, h, later, split, rfl⟩ := mem_declarationsFrom inOutline
  have found : h ∈ headers (mask t) := by rw [split]; simp
  constructor
  · obtain ⟨before, line, -, read, -⟩ := mem_headersFrom found
    obtain ⟨lead, rest, -, ⟨indent, gap, blanks, -, -, -, -, named, letters, -⟩, -⟩ :=
      Header.read?_eq_some_iff.mp read
    exact ⟨named, letters⟩
  · obtain ⟨before, after, masked, atBrace⟩ := brace_of_mem_headers found
    rw [← mask_strip] at masked
    obtain ⟨front, rest, whole, size, free⟩ := uncommented_block (uncommented_strip t) masked
    have behind : dropBytes (h.brace + 1) (strip t) = rest := by
      have dropped := dropBytes_byteSize_append (front ++ ['{']) rest
      rw [byteSize_append, size, ← atBrace, show byteSize ['{'] = 1 from rfl] at dropped
      rw [whole]
      simpa using dropped
    refine ⟨dropBytes ((h.declaration (mask t) later).stop - (h.brace + 1)) rest, ?_⟩
    have body : (h.declaration (mask t) later).body (strip t) =
        takeBytes ((h.declaration (mask t) later).stop - (h.brace + 1)) rest := by
      rw [Declaration.body, slice]
      exact congrArg (takeBytes _) behind
    show Uncommented .code false ((h.declaration (mask t) later).body (strip t) ++ _)
    rw [body, takeBytes_append_dropBytes]
    exact free

theorem Model.ofBody_isRead {name body after : Text} (named : IsWord name)
    (free : Uncommented .code false (body ++ after)) : (Model.ofBody name body).IsRead := by
  refine ⟨named, ?_, nodup_keepFirst _ _, ?_⟩
  · intro f member
    obtain ⟨line, inBody, read⟩ := List.mem_filterMap.mp (mem_keepFirst member)
    obtain ⟨inLine, -, lineBlank, after', freeLine⟩ := free.mem_bodyLines (List.mem_filter.mp inBody).1
    exact parseField_isRead inLine freeLine read
  · intro a member
    obtain ⟨line, inBody, extracted⟩ := List.mem_flatMap.mp member
    obtain ⟨inLine, -, -⟩ := free.mem_bodyLines (List.mem_filter.mp inBody).1
    obtain ⟨sign, inside⟩ := mem_attributesFrom extracted
    exact ⟨sign, fun newline => inLine (inside.subset newline)⟩

/-- A value is visible and does not look like an attribute. -/
theorem enumValue?_isRead {line v : Text} (trimmed : Stops isBlank line) (read : enumValue? line = some v) :
    v ≠ [] ∧ (∀ c ∈ v, isBlank c = false) ∧ v.head? ≠ some '@' := by
  obtain ⟨-, noSign, nonempty, rfl⟩ := (enumValue?_eq_some_iff trimmed).mp read
  refine ⟨nonempty, fun c member => by simpa using List.mem_takeWhile_imp member, ?_⟩
  intro head
  obtain ⟨more, atHead⟩ := List.head?_eq_some_iff.mp head
  have before := List.takeWhile_prefix (l := dropEndWhile (· = ',') line) fun c => !isBlank c
  obtain ⟨rest, whole⟩ := before.trans (dropEndWhile_isPrefix _ line)
  rw [atHead] at whole
  rw [← whole] at noSign
  cases noSign

theorem Enumeration.ofBody_isRead {name body after : Text} (named : IsWord name)
    (free : Uncommented .code false (body ++ after)) : (Enumeration.ofBody name body).IsRead := by
  refine ⟨named, ?_⟩
  intro v member
  obtain ⟨line, inBody, read⟩ := List.mem_filterMap.mp member
  exact enumValue?_isRead (free.mem_bodyLines inBody).2.1 read

/-- Whatever the text, what is read from it has this form. -/
theorem Document.parse_isRead (t : Text) : (Document.parse t).IsRead := by
  rw [Document.parse_eq_ofSections]
  refine ⟨?_, ?_, nodup_keepFirst _ _, nodup_keepFirst _ _⟩
  · intro m member
    obtain ⟨s, inSections, rfl⟩ := List.mem_map.mp (mem_keepFirst member)
    obtain ⟨named, after, free⟩ := mem_sections (List.mem_filter.mp inSections).1
    exact Model.ofBody_isRead named free
  · intro e member
    obtain ⟨s, inSections, rfl⟩ := List.mem_map.mp (mem_keepFirst member)
    obtain ⟨named, after, free⟩ := mem_sections (List.mem_filter.mp inSections).1
    exact Enumeration.ofBody_isRead named free

end SchemaDiagram
