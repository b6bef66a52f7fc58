import SchemaDiagram.Proofs.RelationScript

namespace SchemaDiagram

open Text

section

variable {key : Text} {k : Char}

theorem afterKey?_append {mark : Char} (visible : isBlank mark = false) (rest : Text) :
    afterKey? key mark (key ++ mark :: rest) = some (rest.dropWhile isBlank) := by
  have begins : key.isPrefixOf? (key ++ mark :: rest) = some (mark :: rest) := isPrefixOf?_eq_some_iff.mpr rfl
  have stays : (mark :: rest).dropWhile isBlank = mark :: rest := dropWhile_eq_self (stops_cons visible)
  simp [afterKey?, begins, stays]

theorem afterKey?_of_head {c mark : Char} (differ : c ≠ k) (rest : Text) : afterKey? (k :: key) mark (c :: rest) = none := by
  have other : (k :: key).isPrefixOf? (c :: rest) = none := by
    rw [isPrefixOf?_cons_cons, if_neg differ.symm]
  simp [afterKey?, other]

/-- A name is no key if no mark stands behind it. -/
theorem afterKey?_word {w rest : Text} {mark : Char} (letters : ∀ c ∈ key, isWordChar c) (word : ∀ c ∈ w, isWordChar c)
    (noLetter : isWordChar mark = false) (closes : rest.head? = some ']') (other : mark ≠ ']') :
    afterKey? key mark (w ++ rest) = none := by
  cases found : key.isPrefixOf? (w ++ rest) with
  | none => simp [afterKey?, found]
  | some after =>
    have whole := isPrefixOf?_eq_some_iff.mp found
    obtain ⟨more, rfl⟩ := List.head?_eq_some_iff.mp closes
    -- the key ends within the name, as the bracket behind the name is no letter
    obtain ⟨w', rfl⟩ : ∃ w', w = key ++ w' := by
      rcases List.append_eq_append_iff.mp whole with ⟨part, same, tail⟩ | ⟨part, same, tail⟩
      · rcases part with _ | ⟨c, part⟩
        · exact ⟨[], by simpa using same.symm⟩
        · obtain ⟨rfl, -⟩ := List.cons_eq_cons.mp tail
          exact absurd (letters ']' (by simp [same])) (by decide)
      · exact ⟨part, same⟩
    rw [List.append_assoc, List.append_cancel_left_eq] at whole
    subst whole
    have visible : (w' ++ ']' :: more).dropWhile isBlank = w' ++ ']' :: more := by
      refine dropWhile_eq_self ?_
      rcases w' with _ | ⟨c, w'⟩
      · exact stops_cons (by decide)
      · exact stops_cons (isBlank_eq_false_of_isWordChar (word c (by simp)))
    simp only [afterKey?, found, Option.bind_eq_bind, Option.bind_some, visible]
    rcases w' with _ | ⟨c, w'⟩
    · exact if_neg other.symm
    · refine if_neg ?_
      rintro rfl
      rw [word c (by simp)] at noLetter
      cases noLetter

theorem bracketArgument?_cons (insideWord : Bool) (c : Char) (cs : Text) :
    bracketArgument? key insideWord (c :: cs) =
      (if insideWord then none
      else match afterKey? key ':' (c :: cs) with
        | some ('[' :: t) => if t.contains ']' then some (t.takeWhile (· ≠ ']')) else none
        | _ => none).or (bracketArgument? key (isWordChar c) cs) := rfl

/-- No key begins in a part without its first letter. -/
theorem bracketArgument?_skip {front : Text} {c : Char} (other : ∀ d ∈ front ++ [c], d ≠ k) (insideWord : Bool)
    (rest : Text) :
    bracketArgument? (k :: key) insideWord (front ++ [c] ++ rest) = bracketArgument? (k :: key) (isWordChar c) rest := by
  have step (d : Char) (differ : d ≠ k) (insideWord : Bool) (t : Text) :
      bracketArgument? (k :: key) insideWord (d :: t) = bracketArgument? (k :: key) (isWordChar d) t := by
    rw [bracketArgument?_cons, afterKey?_of_head differ, ite_self, Option.none_or]
  induction front generalizing insideWord with
  | nil => exact step c (other c (by simp)) insideWord rest
  | cons d front ih =>
    rw [List.cons_append, List.cons_append, step d (other d (by simp)), ih fun d' member => other d' (by simp at member ⊢; tauto)]

/-- No key is a name in brackets. -/
theorem bracketArgument?_word {w rest : Text} (letters : ∀ c ∈ key, isWordChar c) (word : IsWord w)
    (closes : rest.head? = some ']') :
    bracketArgument? key false (w ++ rest) = bracketArgument? key true rest := by
  have inside (w : Text) (chars : ∀ c ∈ w, isWordChar c) :
      bracketArgument? key true (w ++ rest) = bracketArgument? key true rest := by
    induction w with
    | nil => rfl
    | cons c w ih =>
      obtain ⟨here, later⟩ := List.forall_mem_cons.mp chars
      rw [List.cons_append, bracketArgument?_cons, if_pos rfl, Option.none_or, here, ih later]
  have noKey : afterKey? key ':' (w ++ rest) = none := afterKey?_word letters word.2 (by decide) closes (by decide)
  obtain ⟨c, w, rfl⟩ := List.exists_cons_of_ne_nil word.1
  obtain ⟨here, later⟩ := List.forall_mem_cons.mp word.2
  rw [List.cons_append] at noKey ⊢
  rw [bracketArgument?_cons, noKey, here, inside w later]
  rfl

/-- A key is followed by the text in its brackets. -/
theorem bracketArgument?_key {w : Text} (some' : key ≠ []) (word : ∀ c ∈ w, isWordChar c) (rest : Text) :
    bracketArgument? key false (key ++ txt ": [" ++ w ++ ']' :: rest) = some w := by
  have found : afterKey? key ':' (key ++ txt ": [" ++ w ++ ']' :: rest) = some ('[' :: (w ++ ']' :: rest)) := by
    have whole : key ++ txt ": [" ++ w ++ ']' :: rest = key ++ ':' :: (' ' :: '[' :: (w ++ ']' :: rest)) := by simp [txt]
    rw [whole, afterKey?_append (by decide)]
    rfl
  have closes : (w ++ ']' :: rest).takeWhile (· ≠ ']') = w := by
    refine takeWhile_append_stops (fun c member => decide_eq_true ?_) (stops_cons (by simp))
    rintro rfl
    exact absurd (word ']' member) (by decide)
  obtain ⟨k, key, rfl⟩ := List.exists_cons_of_ne_nil some'
  rw [List.cons_append, List.cons_append, List.cons_append] at found ⊢
  have contains : (w ++ ']' :: rest).contains ']' = true := by simp
  rw [bracketArgument?_cons, found]
  simp only [Bool.false_eq_true, if_false, contains, if_true, closes, Option.some_or]

end

theorem commaList_word {w : Text} (word : IsWord w) : commaList w = [w] := by
  have noComma : ',' ∉ w := word.not_mem (by decide)
  have ends : trim w = w := trim_eq_self (by simpa using word.stops_isBlank []) word.ends
  have pieces : w.splitOn ',' = [w] := List.splitOn_eq_singleton noComma
  simp [commaList, pieces, ends, word.1]

theorem relationArguments_group (args : Text) : relationArguments (txt "@relation(" ++ args ++ [')']) = args := by
  have begins : (txt "@relation").isPrefixOf? (txt "@relation(" ++ args ++ [')']) = some ('(' :: (args ++ [')'])) :=
    isPrefixOf?_eq_some_iff.mpr (by simp [txt])
  have trimmed : trim ('(' :: (args ++ [')'])) = '(' :: (args ++ [')']) :=
    trim_eq_self (stops_cons (by decide)) (by
      rw [← List.cons_append]
      exact stops_reverse_append (by simp) (stops_cons (by decide)))
  have ends : (txt ")").isSuffixOf? (args ++ [')']) = some args := isSuffixOf?_eq_some_iff.mpr rfl
  simp only [relationArguments, begins, trimmed, ends, Option.getD_some]

/-- No name is given in a part without a parenthesis and a comma. -/
theorem laterName?_skip {front : Text} (none : ∀ c ∈ front, c ≠ '(' ∧ c ≠ ',') (rest : Text) :
    laterName? (front ++ rest) = laterName? rest := by
  induction front with
  | nil => rfl
  | cons c front ih =>
    obtain ⟨⟨noOpening, noComma⟩, later⟩ := List.forall_mem_cons.mp none
    rw [List.cons_append, laterName?, ih later]
    simp [noOpening, noComma]

section

variable {foreignKey referenced : Text}

theorem relationName?_pair (word : IsWord foreignKey) (wordReferenced : IsWord referenced) :
    relationName? (txt "fields: [" ++ foreignKey ++ txt "], references: [" ++ referenced ++ txt "]") = none := by
  have letters {w : Text} (word : IsWord w) (c : Char) (member : c ∈ w) : c ≠ '(' ∧ c ≠ ',' := by
    have letter := word.2 c member
    constructor <;> rintro rfl <;> exact absurd letter (by decide)
  have front : ∀ c ∈ txt "fields: [" ++ foreignKey ++ txt "]", c ≠ '(' ∧ c ≠ ',' := by
    simp only [List.mem_append]
    rintro c ((inside | inside) | inside)
    · exact (by decide : ∀ c ∈ txt "fields: [", c ≠ '(' ∧ c ≠ ',') c inside
    · exact letters word c inside
    · exact (by decide : ∀ c ∈ txt "]", c ≠ '(' ∧ c ≠ ',') c inside
  have back : ∀ c ∈ txt " references: [" ++ referenced ++ txt "]", c ≠ '(' ∧ c ≠ ',' := by
    simp only [List.mem_append]
    rintro c ((inside | inside) | inside)
    · exact (by decide : ∀ c ∈ txt " references: [", c ≠ '(' ∧ c ≠ ',') c inside
    · exact letters wordReferenced c inside
    · exact (by decide : ∀ c ∈ txt "]", c ≠ '(' ∧ c ≠ ',') c inside
  have whole : txt "fields: [" ++ foreignKey ++ txt "], references: [" ++ referenced ++ txt "]" =
      (txt "fields: [" ++ foreignKey ++ txt "]") ++ ',' :: (txt " references: [" ++ referenced ++ txt "]") := by simp [txt]
  have later : laterName? ((txt "fields: [" ++ foreignKey ++ txt "]") ++
      ',' :: (txt " references: [" ++ referenced ++ txt "]")) = none := by
    have last := laterName?_skip back []
    rw [List.append_nil] at last
    rw [laterName?_skip front, laterName?, last]
    rfl
  rw [whole, relationName?, later, Option.or_none]
  rfl

/-- What the attribute of a relation by a key says: its columns, and no name. -/
theorem ofAttribute_relationTag (word : IsWord foreignKey) (wordReferenced : IsWord referenced) :
    Relation.ofAttribute (relationTag foreignKey referenced) = ⟨none, some [foreignKey], some [referenced]⟩ := by
  have whole : relationTag foreignKey referenced = txt "@relation(" ++
      (txt "fields: [" ++ foreignKey ++ txt "], references: [" ++ referenced ++ txt "]") ++ [')'] := by
    simp [relationTag, txt]
  have fields : bracketArgument? (txt "fields") false
      (txt "fields: [" ++ foreignKey ++ txt "], references: [" ++ referenced ++ txt "]") = some foreignKey := by
    have key : bracketArgument? (txt "fields") false
        (txt "fields" ++ txt ": [" ++ foreignKey ++ ']' :: (txt ", references: [" ++ referenced ++ txt "]")) =
          some foreignKey := bracketArgument?_key (by decide) word.2 _
    simpa [txt] using key
  have references : bracketArgument? (txt "references") false
      (txt "fields: [" ++ foreignKey ++ txt "], references: [" ++ referenced ++ txt "]") = some referenced := by
    have split : txt "fields: [" ++ foreignKey ++ txt "], references: [" ++ referenced ++ txt "]" =
        txt "fields: " ++ ['['] ++ (foreignKey ++ (txt "]," ++ [' '] ++
          (txt "references" ++ txt ": [" ++ referenced ++ ']' :: []))) := by simp [txt]
    have sign : txt "references" = 'r' :: txt "eferences" := rfl
    rw [split, sign, bracketArgument?_skip (by decide), show isWordChar '[' = false by decide,
      bracketArgument?_word (by decide) word rfl, bracketArgument?_skip (by decide),
      show isWordChar ' ' = false by decide, ← sign, bracketArgument?_key (by decide) wordReferenced.2]
  rw [whole, Relation.ofAttribute, relationArguments_group, fields, references, relationName?_pair word wordReferenced,
    Option.map_some, Option.map_some, commaList_word word, commaList_word wordReferenced]

end

end SchemaDiagram
