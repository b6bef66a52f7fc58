import SchemaDiagram.Proofs.ScanBlanks
import SchemaDiagram.Proofs.WrittenField

namespace SchemaDiagram

open Text

/-- The field of a name and a type name in front of the rest of its line. -/
def fieldFrom (name base marked : Text) : Option Field :=
  let (arguments, unmarked) := splitGroup marked
  let (isList, unlisted) := splitMark (txt "[]") unmarked
  let (isOptional, rest) := splitMark (txt "?") unlisted
  let tail := rest.dropWhile isBlank
  if tail.contains '\n' then none
  else
    let type := base ++ arguments
    let attributes := extractAttributes tail
    some { name, type, isList, isOptional, attributes, relation := relationOf attributes type isList }

/-- A line that begins with a name and the name of a type. -/
structure LineParts (line name gap base marked : Text) : Prop where
  whole : line = name ++ (gap ++ (base ++ marked))
  named : IsWord name
  parted : gap ≠ []
  blanks : ∀ c ∈ gap, isBlank c
  based : IsWord base
  stops : Stops isWordChar marked

theorem LineParts.parseField {line name gap base marked : Text} (parts : LineParts line name gap base marked) :
    parseField line = fieldFrom name base marked := by
  obtain ⟨rfl, named, parted, blanks, based, stops⟩ := parts
  obtain ⟨c, more, rfl⟩ := List.exists_cons_of_ne_nil parted
  have blank := blanks c List.mem_cons_self
  have nameStops : Stops isWordChar (c :: more ++ (base ++ marked)) :=
    stops_cons (isWordChar_eq_false_of_isBlank blank)
  have gapHead : (c :: more ++ (base ++ marked)).head?.any isBlank = true := by simpa using blank
  have isNamed : name.isEmpty = false := by simpa using named.1
  have isBased : base.isEmpty = false := by simpa using based.1
  simp only [SchemaDiagram.parseField, fieldFrom, takeWhile_append_stops named.2 nameStops,
    dropWhile_append_stops named.2 nameStops, dropWhile_append_stops blanks (based.stops_isBlank marked),
    takeWhile_append_stops based.2 stops, dropWhile_append_stops based.2 stops, gapHead, isNamed, isBased,
    Bool.not_true, Bool.false_or]

/-- Every line that gives a field has such parts. -/
theorem lineParts_of_parseField {line : Text} {f : Field} (read : parseField line = some f) :
    ∃ name gap base marked, LineParts line name gap base marked := by
  simp only [SchemaDiagram.parseField] at read
  split at read
  · cases read
  · rename_i formed
    simp only [Bool.or_eq_true, not_or, Bool.not_eq_true, List.isEmpty_eq_false_iff, Bool.not_eq_false'] at formed
    obtain ⟨⟨⟨named, gapped⟩, based⟩, -⟩ := formed
    refine ⟨line.takeWhile isWordChar, (line.dropWhile isWordChar).takeWhile isBlank,
      ((line.dropWhile isWordChar).dropWhile isBlank).takeWhile isWordChar,
      ((line.dropWhile isWordChar).dropWhile isBlank).dropWhile isWordChar, ?_,
      ⟨named, fun _ => List.mem_takeWhile_imp⟩, ?_, fun _ => List.mem_takeWhile_imp,
      ⟨based, fun _ => List.mem_takeWhile_imp⟩, stops_dropWhile _ _⟩
    · rw [List.takeWhile_append_dropWhile, List.takeWhile_append_dropWhile, List.takeWhile_append_dropWhile]
    · cases atGap : line.dropWhile isWordChar with
      | nil => simp [atGap] at gapped
      | cons c more =>
        have blank : isBlank c := by simpa [atGap] using gapped
        simp [List.takeWhile_cons_of_pos blank]

theorem fieldFrom_name {name base marked : Text} {f : Field} (read : fieldFrom name base marked = some f) :
    f.name = name := by
  simp only [fieldFrom] at read
  split at read
  · cases read
  · rw [← Option.some.inj read]

theorem fieldFrom_isSome {name base marked : Text} (inLine : '\n' ∉ marked) : ∃ f, fieldFrom name base marked = some f := by
  have tailSuffix : (splitMark (txt "?") (splitMark (txt "[]") (splitGroup marked).2).2).2.dropWhile isBlank <:+ marked :=
    (List.dropWhile_suffix _).trans ((splitMark_isSuffix _ _).trans ((splitMark_isSuffix _ _).trans
      ⟨_, (splitGroup_form marked).1⟩))
  have oneLine : ((splitMark (txt "?") (splitMark (txt "[]") (splitGroup marked).2).2).2.dropWhile isBlank).contains '\n' =
      false := by simpa using fun member => inLine (tailSuffix.subset member)
  exact ⟨_, by simp only [fieldFrom, oneLine, Bool.false_eq_true, if_false]; rfl⟩

section

variable {gap : Text} (blank : ∀ c ∈ gap, isBlank c)

include blank

theorem not_mem_of_blank {c : Char} (visible : isBlank c = false) : c ∉ gap := by
  intro member
  have white := blank c member
  rw [visible] at white
  cases white

/-- White space behind a group is either not part of it, or the group is not closed and takes it in too. -/
theorem groupRest_append_blanks (quoting : Quoting) (depth : Nat) (t : Text) :
    groupRest quoting depth (t ++ gap) = groupRest quoting depth t ∨
      groupRest quoting depth t = t ∧ groupRest quoting depth (t ++ gap) = t ++ gap := by
  rcases groupRest_cases quoting depth (t ++ gap) with ⟨inner, rest, whole, closes⟩ | open'
  · left
    rw [whole, closes]
    rcases List.append_eq_append_iff.mp whole with ⟨part, -, inGap⟩ | ⟨part, atEnd, rest⟩
    · have closing : ')' ∈ gap := by simp [inGap]
      exact absurd closing (not_mem_of_blank blank (by decide))
    · rcases part with _ | ⟨c, part⟩
      · have closing : ')' ∈ gap := by simp [← show ')' :: _ = gap from rest]
        exact absurd closing (not_mem_of_blank blank (by decide))
      · obtain ⟨rfl, -⟩ := List.cons_eq_cons.mp rest
        rw [atEnd, closes]
  · exact Or.inr ⟨open' t (List.prefix_append t gap), open' _ List.prefix_rfl⟩

theorem group_append_blanks (t : Text) :
    group (t ++ gap) = group t ∨ group t = t ∧ group (t ++ gap) = t ++ gap := by
  by_cases opens : t.head? = some '('
  · obtain ⟨t, rfl⟩ := List.head?_eq_some_iff.mp opens
    rcases groupRest_append_blanks blank .outside 0 t with same | ⟨all, more⟩
    · exact Or.inl (congrArg ('(' :: ·) same)
    · exact Or.inr ⟨congrArg ('(' :: ·) all, congrArg ('(' :: ·) more⟩
  · refine Or.inl ?_
    rw [group_eq_nil opens, group_eq_nil]
    cases t with
    | nil => exact head?_ne_of_blank blank (by decide)
    | cons c t => exact opens

theorem stops_append_blanks {p : Char → Bool} (noBlank : ∀ c, isBlank c → p c = false) {t : Text} (stops : Stops p t) :
    Stops p (t ++ gap) := by
  cases t with
  | nil => exact fun c head => noBlank c (blank c (List.mem_of_mem_head? head))
  | cons c t => exact stops

theorem attributeToken_append_blanks (t : Text) :
    attributeToken (t ++ gap) = attributeToken t ∨ attributeToken t = t ∧ attributeToken (t ++ gap) = t ++ gap := by
  obtain ⟨signs, name, after, rfl, inSigns, signStops, inName, nameStops⟩ := exists_attributeParts t
  have noSign (c : Char) (white : isBlank c) : decide (c = '@') = false := by
    refine decide_eq_false ?_
    rintro rfl
    cases white
  have signStops' := stops_append_blanks blank noSign signStops
  have nameStops' := stops_append_blanks blank (fun c white => isAttributeNameChar_eq_false white) nameStops
  rw [List.append_assoc] at signStops'
  have token := attributeToken_append inSigns signStops inName nameStops
  have token' := attributeToken_append inSigns signStops' inName nameStops'
  simp only [List.append_assoc] at token token' ⊢
  rw [token, token']
  rcases group_append_blanks blank after with same | ⟨all, more⟩
  · exact Or.inl (by rw [same])
  · exact Or.inr ⟨by rw [all], by rw [more]⟩

/-- White space at the end of a line changes nothing of the attributes on it. -/
theorem extractAttributes_append_blanks (t : Text) : extractAttributes (t ++ gap) = extractAttributes t := by
  induction size : t.length using Nat.strong_induction_on generalizing t with
  | _ n ih =>
    rcases t with _ | ⟨c, t⟩
    · have none : extractAttributes (gap.dropWhile isBlank) = [] := by
        rw [List.dropWhile_eq_nil_iff.mpr blank]
        rfl
      rw [extractAttributes_dropWhile] at none
      exact none
    by_cases sign : c = '@'
    swap
    · rw [List.cons_append, extractAttributes, extractAttributes, attributesFrom_other sign, attributesFrom_other sign]
      exact ih t.length (by simp at size; omega) t rfl
    subst sign
    obtain ⟨a, atToken⟩ : ∃ a, attributeToken ('@' :: t) = '@' :: a := ⟨_, rfl⟩
    rcases attributeToken_append_blanks blank ('@' :: t) with same | ⟨all, more⟩
    · obtain ⟨rest, whole⟩ := attributeToken_isPrefix ('@' :: t)
      rw [atToken, List.cons_append] at whole
      obtain ⟨-, rfl⟩ := List.cons_eq_cons.mp whole
      rw [atToken, List.cons_append, List.append_assoc] at same
      have later : attributesFrom 0 (rest ++ gap) = attributesFrom 0 rest :=
        ih rest.length (by simp at size; omega) rest rfl
      rw [List.cons_append, List.append_assoc, extractAttributes, extractAttributes, attributesFrom_token same,
        attributesFrom_token atToken, later]
    · have alone {u : Text} (token : attributeToken ('@' :: u) = '@' :: u) :
          attributesFrom 0 ('@' :: u) = if 1 < byteSize (trim ('@' :: u)) then [trim ('@' :: u)] else [] := by
        have read : attributesFrom 0 ('@' :: (u ++ [])) = _ := attributesFrom_token (by rw [List.append_nil, token])
        rwa [List.append_nil] at read
      have trimmed := trim_append (List.forall_mem_nil _) ('@' :: t) blank
      rw [List.nil_append, List.cons_append] at trimmed
      rw [List.cons_append] at more
      rw [List.cons_append, extractAttributes, extractAttributes, alone all, alone more, trimmed]

theorem splitGroup_append_blanks (t : Text) :
    splitGroup (t ++ gap) = ((splitGroup t).1, (splitGroup t).2 ++ gap) := by
  by_cases opens : t.head? = some '('
  · obtain ⟨t, rfl⟩ := List.head?_eq_some_iff.mp opens
    by_cases closes : ')' ∈ t
    · obtain ⟨inner, rest, rfl, noClose⟩ := List.eq_append_cons_of_mem closes
      have split := splitGroup_append noClose rest
      have split' := splitGroup_append noClose (rest ++ gap)
      simp only [List.cons_append, List.append_assoc, List.nil_append] at split split' ⊢
      rw [split, split']
    · have unclosed {u : Text} (noClose : ')' ∉ u) : splitGroup ('(' :: u) = ([], '(' :: u) := by
        have none : ('(' :: u).dropWhile (· ≠ ')') = [] := by
          simpa using fun c member (close : c = ')') => noClose (close ▸ member)
        rw [splitGroup, none]
      have noClose' : ')' ∉ t ++ gap := by
        rw [List.mem_append, not_or]
        exact ⟨closes, not_mem_of_blank blank (by decide)⟩
      rw [List.cons_append, unclosed closes, unclosed noClose']
      rfl
  · have opens' : (t ++ gap).head? ≠ some '(' := by
      cases t with
      | nil => exact head?_ne_of_blank blank (by decide)
      | cons c t => exact opens
    rw [splitGroup_of_head opens, splitGroup_of_head opens']

theorem splitMark_append_blanks {mark : Text} (visible : ∀ c ∈ mark, isBlank c = false) (t : Text) :
    splitMark mark (t ++ gap) = ((splitMark mark t).1, (splitMark mark t).2 ++ gap) := by
  induction mark generalizing t with
  | nil => rfl
  | cons c mark ih =>
    obtain ⟨here, later⟩ := List.forall_mem_cons.mp visible
    rcases t with _ | ⟨d, t⟩
    · rw [List.nil_append, splitMark_of_head (head?_ne_of_blank blank here), splitMark_of_head (by simp)]
      rfl
    · by_cases same : c = d
      · subst same
        have step (u : Text) : splitMark (c :: mark) (c :: u) = if (splitMark mark u).1 then splitMark mark u else (false, c :: u) := by
          unfold splitMark
          rw [isPrefixOf?_cons_cons, if_pos rfl]
          cases mark.isPrefixOf? u <;> rfl
        rw [List.cons_append, step, step, ih later]
        split <;> rfl
      · rw [List.cons_append, splitMark_of_head (by simpa using Ne.symm same), splitMark_of_head (by simpa using Ne.symm same)]
        rfl

/-- White space at the end of a line changes nothing of the field that is read from it. -/
theorem fieldFrom_append_blanks (inLine : '\n' ∉ gap) (name base marked : Text) :
    fieldFrom name base (marked ++ gap) = fieldFrom name base marked := by
  have visible (mark : Text) (which : mark = txt "[]" ∨ mark = txt "?") : ∀ c ∈ mark, isBlank c = false := by
    rcases which with rfl | rfl <;> decide
  have newline (t : Text) : ((t ++ gap).dropWhile isBlank).contains '\n' = (t.dropWhile isBlank).contains '\n' := by
    rw [List.dropWhile_append]
    split
    · rename_i empty
      rw [List.isEmpty_iff.mp empty, List.dropWhile_eq_nil_iff.mpr blank]
    · simp [inLine]
  simp only [fieldFrom, splitGroup_append_blanks blank, splitMark_append_blanks blank (visible _ (Or.inl rfl)),
    splitMark_append_blanks blank (visible _ (Or.inr rfl)), newline, extractAttributes_dropWhile,
    extractAttributes_append_blanks blank]

end

/-- A line goes on with what is appended to it. It gives a field of the same name, and the same one if only white space
is appended. -/
theorem parseField_append_tail {line x : Text} {g : Field} (read : parseField line = some g) (inLine : '\n' ∉ line ++ x)
    (parted : Stops isWordChar x) :
    ∃ h, parseField (line ++ x) = some h ∧ h.name = g.name ∧ ((∀ c ∈ x, isBlank c) → h = g) := by
  obtain ⟨name, gap, base, marked, parts⟩ := lineParts_of_parseField read
  have longer : LineParts (line ++ x) name gap base (marked ++ x) := by
    refine ⟨by simp [parts.whole], parts.named, parts.parted, parts.blanks, parts.based, ?_⟩
    cases marked with
    | nil => exact parted
    | cons c marked => exact parts.stops
  have oneLine : '\n' ∉ marked ++ x := by
    intro member
    refine inLine ?_
    rw [parts.whole]
    simp only [List.mem_append] at member ⊢
    tauto
  rw [parts.parseField] at read
  obtain ⟨h, atLine⟩ : ∃ h, fieldFrom name base (marked ++ x) = some h := fieldFrom_isSome oneLine
  refine ⟨h, by rw [longer.parseField, atLine], by rw [fieldFrom_name atLine, fieldFrom_name read], fun blank => ?_⟩
  have newline : '\n' ∉ x := fun member => inLine (List.mem_append_right line member)
  rw [fieldFrom_append_blanks blank newline, read] at atLine
  exact (Option.some.inj atLine).symm

/-- White space behind a line that gives a field is no part of the field. -/
theorem parseField_append_blanks {line gap : Text} {g : Field} (read : parseField line = some g) (inLine : '\n' ∉ line)
    (blank : ∀ c ∈ gap, isBlank c ∧ c ≠ '\n') : parseField (line ++ gap) = some g := by
  have oneLine : '\n' ∉ line ++ gap := by
    intro member
    exact (List.mem_append.mp member).elim inLine fun inside => (blank _ inside).2 rfl
  have parted : Stops isWordChar gap := fun c head => isWordChar_eq_false_of_isBlank (blank c (List.mem_of_mem_head? head)).1
  obtain ⟨h, longer, -, same⟩ := parseField_append_tail read oneLine parted
  rw [longer, same fun c member => (blank c member).1]

theorem parseField_trimEnd {line : Text} {g : Field} (read : parseField line = some g) (inLine : '\n' ∉ line) :
    parseField (trimEnd line) = some g := by
  obtain ⟨name, gap, base, marked, parts⟩ := lineParts_of_parseField read
  have lead : Stops isBlank (name ++ (gap ++ base)).reverse := by
    rw [← List.append_assoc]
    exact stops_reverse_append parts.based.1 parts.based.ends
  have whole : line = name ++ (gap ++ base) ++ marked := by simp [parts.whole]
  have trimmed : trimEnd line = name ++ (gap ++ base) ++ trimEnd marked := by
    rw [whole, trimEnd, dropEndWhile_append lead]
    rfl
  obtain ⟨back, split, blank⟩ := dropEndWhile_split isBlank marked
  have newline : '\n' ∉ back := by
    intro member
    refine inLine ?_
    rw [whole, split]
    simp [member]
  have shorter : LineParts (trimEnd line) name gap base (trimEnd marked) :=
    ⟨by simp [trimmed], parts.named, parts.parted, parts.blanks, parts.based,
      parts.stops.of_isPrefix (dropEndWhile_isPrefix isBlank marked)⟩
  rw [parts.parseField, split, fieldFrom_append_blanks blank newline] at read
  rw [shorter.parseField]
  exact read

theorem parseField_head {line : Text} {g : Field} (read : parseField line = some g) :
    ∃ c rest, line = c :: rest ∧ isWordChar c := by
  obtain ⟨named, -, ⟨gap, rest, whole, -⟩, -⟩ := parseField_form read
  obtain ⟨c, more, atName⟩ := List.exists_cons_of_ne_nil named.1
  exact ⟨c, more ++ (gap ++ (g.type ++ rest)), by rw [whole, atName]; rfl, named.2 c (by simp [atName])⟩

theorem lineField?_of_parseField {line : Text} {g : Field} (read : parseField line = some g) :
    lineField? line = some g ∧ lineAttributes line = [] := by
  obtain ⟨c, rest, rfl, letter⟩ := parseField_head read
  have noSign : isAttributeLine (c :: rest) = false := by
    refine decide_eq_false fun head => ?_
    obtain rfl : c = '@' := Option.some.inj head
    exact absurd letter (by decide)
  rw [lineField?, lineAttributes, noSign]
  exact ⟨read, rfl⟩

/-- A line that gives a field gives it also as a row of a model, whatever white space is around it. -/
theorem parseField_row {line lead : Text} {g : Field} (read : parseField line = some g) (inLine : '\n' ∉ line)
    (blank : ∀ c ∈ lead, isBlank c) :
    lineField? (trim (lead ++ line)) = some g ∧ lineAttributes (trim (lead ++ line)) = [] := by
  obtain ⟨c, rest, atHead, letter⟩ := parseField_head read
  have visible := isBlank_eq_false_of_isWordChar letter
  have trimmed : trim (lead ++ line) = trimEnd line := by
    have same := trim_append blank line (List.forall_mem_nil _)
    rw [List.append_nil] at same
    rw [same, trim, trimStart, atHead, List.dropWhile_cons_of_neg (by simp [visible])]
  rw [trimmed]
  exact lineField?_of_parseField (parseField_trimEnd read inLine)

end SchemaDiagram
