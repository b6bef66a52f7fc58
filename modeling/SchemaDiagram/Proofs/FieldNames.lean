import SchemaDiagram.Edit.Relate
import SchemaDiagram.Proofs.WrittenField

namespace SchemaDiagram

open Text

-- What holds of all ASCII characters is checked one by one.
theorem forall_ascii {p : Char → Prop} (all : ∀ n < 128, p (Char.ofNat n)) {c : Char} (ascii : isAscii c) : p c := by
  have small : c.val < 0x80 := by simpa [isAscii] using ascii
  have bound : c.toNat < 128 := by simpa [UInt32.lt_iff_toNat_lt] using small
  have here := all c.toNat bound
  rwa [Char.ofNat_toNat] at here

theorem isAscii_toUpper {c : Char} (ascii : isAscii c) : isAscii c.toUpper :=
  forall_ascii (p := fun c => isAscii c.toUpper) (by decide +kernel) ascii

/-- An ASCII letter or digit. -/
def isPlainLetter (c : Char) : Bool := isAscii c && c.isAlphanum

theorem isPlainLetter_toUpper {c : Char} (letter : isPlainLetter c) : isPlainLetter c.toUpper := by
  have ascii : isAscii c := (Bool.and_eq_true_iff.mp letter).1
  exact forall_ascii (p := fun c => isPlainLetter c → isPlainLetter c.toUpper) (by decide +kernel) ascii letter

theorem isPlainLetter_toLower {c : Char} (letter : isPlainLetter c) : isPlainLetter c.toLower := by
  have ascii : isAscii c := (Bool.and_eq_true_iff.mp letter).1
  exact forall_ascii (p := fun c => isPlainLetter c → isPlainLetter c.toLower) (by decide +kernel) ascii letter

theorem isLower_toUpper {c : Char} (ascii : isAscii c) : c.toUpper.isLower = false :=
  forall_ascii (p := fun c => c.toUpper.isLower = false) (by decide +kernel) ascii

theorem flatten_splitCase (case : LetterCase) (word t : Text) (some : t ≠ []) :
    (splitCase case word t).flatten = word ++ t := by
  fun_induction splitCase case word t with
  | case1 => exact absurd rfl some
  | case2 => simp
  | case3 case word c d rest _ ih => simp [ih (by simp)]
  | case4 case word c d rest _ _ ih => simp [ih (by simp)]
  | case5 case word c d rest _ _ ih => simp [ih (by simp)]

/-- The words of a name are made of its letters and digits. -/
theorem flatten_nameWords (name : Text) : (nameWords name).flatten = name.filter isAlphanumeric := by
  have each (parts : List Text) : (parts.flatMap (splitCase .none [])).flatten = parts.flatten := by
    induction parts with
    | nil => rfl
    | cons part parts ih =>
      rw [List.flatMap_cons, List.flatten_append, ih, List.flatten_cons]
      by_cases empty : part = []
      · rw [empty]
        rfl
      · rw [flatten_splitCase _ _ _ empty, List.nil_append]
  rw [nameWords, each, flatten_splitOnP]
  simp

section

variable {name : Text} (plain : IsPlainName name)

include plain

theorem IsPlainName.letters {w : Text} (member : w ∈ nameWords name) : ∀ c ∈ w, isPlainLetter c := by
  intro c inside
  have inName : c ∈ name.filter isAlphanumeric := by
    rw [← flatten_nameWords]
    exact List.mem_flatten.mpr ⟨w, member, inside⟩
  obtain ⟨here, letter⟩ := List.mem_filter.mp inName
  have ascii := (plain c here).1
  rw [isAlphanumeric, if_pos ascii] at letter
  simp [isPlainLetter, ascii, letter]

end

theorem isAscii_of_isPlainLetter {c : Char} (letter : isPlainLetter c) : isAscii c :=
  (Bool.and_eq_true_iff.mp letter).1

theorem lowerForm_ascii {c : Char} (ascii : isAscii c) : lowerForm c = [c.toLower] := if_pos ascii

theorem upperForm_ascii {c : Char} (ascii : isAscii c) : upperForm c = [c.toUpper] := if_pos ascii

section

variable {w : Text} (letters : ∀ c ∈ w, isPlainLetter c)

include letters

theorem lowerWord_eq : lowerWord w = w.map Char.toLower := by
  induction w with
  | nil => rfl
  | cons c w ih =>
    obtain ⟨here, later⟩ := List.forall_mem_cons.mp letters
    have ascii := isAscii_of_isPlainLetter here
    rcases w with _ | ⟨d, w⟩
    · have other : c ≠ 'Σ' := by
        rintro rfl
        exact absurd ascii (by decide)
      rw [lowerWord, if_neg other, lowerForm_ascii ascii]
      rfl
    · rw [lowerWord, lowerForm_ascii ascii, ih later]
      · rfl
      · simp

theorem capitalizeWord_eq :
    capitalizeWord w = match w with
      | [] => []
      | c :: cs => c.toUpper :: cs.map Char.toLower := by
  rcases w with _ | ⟨c, w⟩
  · rfl
  · obtain ⟨here, later⟩ := List.forall_mem_cons.mp letters
    rw [capitalizeWord, upperForm_ascii (isAscii_of_isPlainLetter here), lowerWord_eq later]
    rfl

end

theorem isPlainName_of_letters {t : Text} (letters : ∀ c ∈ t, isPlainLetter c) : IsPlainName t :=
  fun c member => ⟨isAscii_of_isPlainLetter (letters c member),
    isWordChar_of_isAlphanum (Bool.and_eq_true_iff.mp (letters c member)).2⟩

theorem lowerWord_letters {w : Text} (letters : ∀ c ∈ w, isPlainLetter c) : ∀ c ∈ lowerWord w, isPlainLetter c := by
  rw [lowerWord_eq letters]
  intro c member
  obtain ⟨d, inside, rfl⟩ := List.mem_map.mp member
  exact isPlainLetter_toLower (letters d inside)

theorem capitalizeWord_letters {w : Text} (letters : ∀ c ∈ w, isPlainLetter c) :
    ∀ c ∈ capitalizeWord w, isPlainLetter c := by
  rw [capitalizeWord_eq letters]
  rcases w with _ | ⟨d, w⟩
  · simp
  · obtain ⟨here, later⟩ := List.forall_mem_cons.mp letters
    refine List.forall_mem_cons.mpr ⟨isPlainLetter_toUpper here, ?_⟩
    rw [← lowerWord_eq later]
    exact lowerWord_letters later

section

variable {name : Text} (plain : IsPlainName name)

include plain

theorem IsPlainName.upperCamel : ∀ c ∈ upperCamel name, isPlainLetter c := by
  intro c member
  obtain ⟨w, inside, here⟩ := List.mem_flatMap.mp member
  exact capitalizeWord_letters (plain.letters inside) c here

theorem IsPlainName.lowerCamel : ∀ c ∈ lowerCamel name, isPlainLetter c := by
  have words (w : Text) (member : w ∈ nameWords name) := plain.letters member
  unfold SchemaDiagram.lowerCamel
  generalize nameWords name = all at words
  rcases all with _ | ⟨first, later⟩
  · simp
  · obtain ⟨here, rest⟩ := List.forall_mem_cons.mp words
    intro c member
    rcases List.mem_append.mp member with inFirst | inLater
    · exact lowerWord_letters here c inFirst
    · obtain ⟨w, inside, inWord⟩ := List.mem_flatMap.mp inLater
      exact capitalizeWord_letters (rest w inside) c inWord

/-- A name with a letter or digit keeps it in any casing. -/
theorem IsPlainName.lowerCamel_ne_nil (letter : ∃ c ∈ name, isAlphanumeric c) : SchemaDiagram.lowerCamel name ≠ [] := by
  obtain ⟨c, inName, isLetter⟩ := letter
  have member : c ∈ (nameWords name).flatten := by
    rw [flatten_nameWords]
    exact List.mem_filter.mpr ⟨inName, isLetter⟩
  have words (w : Text) (inside : w ∈ nameWords name) := plain.letters inside
  unfold SchemaDiagram.lowerCamel
  rcases atWords : nameWords name with _ | ⟨first, later⟩
  · rw [atWords] at member
    cases member
  · rw [atWords] at member words
    obtain ⟨here, rest⟩ := List.forall_mem_cons.mp words
    rw [List.flatten_cons, List.mem_append] at member
    intro empty
    obtain ⟨noFirst, noLater⟩ := List.append_eq_nil_iff.mp empty
    rcases member with inFirst | inLater
    · rw [lowerWord_eq here, List.map_eq_nil_iff] at noFirst
      rw [noFirst] at inFirst
      cases inFirst
    · obtain ⟨w, inside, inWord⟩ := List.mem_flatten.mp inLater
      have none := List.flatMap_eq_nil_iff.mp noLater w inside
      rw [capitalizeWord_eq (rest w inside)] at none
      rcases w with _ | ⟨d, w⟩
      · cases inWord
      · cases none

/-- No capitalized word begins with a small letter. -/
theorem IsPlainName.upperCamel_head {c : Char} (head : (SchemaDiagram.upperCamel name).head? = some c) :
    c.isLower = false := by
  have words (w : Text) (inside : w ∈ nameWords name) := plain.letters inside
  unfold SchemaDiagram.upperCamel at head
  generalize nameWords name = all at words head
  induction all with
  | nil => cases head
  | cons w all ih =>
    obtain ⟨here, rest⟩ := List.forall_mem_cons.mp words
    rw [List.flatMap_cons, capitalizeWord_eq here] at head
    rcases w with _ | ⟨d, w⟩
    · exact ih rest head
    · obtain rfl : d.toUpper = c := Option.some.inj head
      exact isLower_toUpper (isAscii_of_isPlainLetter (here d List.mem_cons_self))

end

theorem pluralize_cases (word : Text) :
    (∃ stem, word = stem ++ txt "y" ∧ pluralize word = stem ++ txt "ies") ∨
      pluralize word = word ++ txt "es" ∨ pluralize word = word ++ txt "s" := by
  unfold pluralize
  split
  · rename_i stem found
    exact Or.inl ⟨stem, isSuffixOf?_eq_some_iff.mp found, rfl⟩
  · split
    · exact Or.inr (Or.inl rfl)
    · exact Or.inr (Or.inr rfl)

theorem pluralize_ends (word : Text) : ∃ front, pluralize word = front ++ ['s'] := by
  rcases pluralize_cases word with ⟨stem, -, plural⟩ | plural | plural
  · exact ⟨stem ++ txt "ie", by rw [plural]; simp [txt]⟩
  · exact ⟨word ++ txt "e", by rw [plural]; simp [txt]⟩
  · exact ⟨word, by rw [plural]; rfl⟩

theorem listFieldName_ne_nil (model : Text) : listFieldName model ≠ [] := by
  obtain ⟨front, plural⟩ := pluralize_ends (singularFieldName model)
  rw [listFieldName, plural]
  simp

theorem listFieldName_ne_of_ends {model other : Text} {c : Char} (ends : other.getLast? = some c) (differ : c ≠ 's') :
    listFieldName model ≠ other := by
  obtain ⟨front, plural⟩ := pluralize_ends (singularFieldName model)
  rintro rfl
  rw [listFieldName, plural, List.getLast?_concat] at ends
  exact differ (Option.some.inj ends).symm

theorem listFieldName_ne_protectedField (model : Text) : listFieldName model ≠ protectedField :=
  listFieldName_ne_of_ends (c := 'd') rfl (by decide)

theorem stripIdSuffix?_form {name stem : Text} (found : stripIdSuffix? name = some stem) :
    ∃ ending, name = stem ++ ending ∧ (ending = txt "Id" ∨ ending = txt "ID" ∨ ending = txt "_id") := by
  rw [stripIdSuffix?, Option.or_eq_some_iff, Option.or_eq_some_iff] at found
  rcases found with (capital | ⟨-, capitals⟩) | ⟨-, small⟩
  · exact ⟨_, isSuffixOf?_eq_some_iff.mp capital, Or.inl rfl⟩
  · exact ⟨_, isSuffixOf?_eq_some_iff.mp capitals, Or.inr (Or.inl rfl)⟩
  · exact ⟨_, isSuffixOf?_eq_some_iff.mp small, Or.inr (Or.inr rfl)⟩

/-- The relation field is named by what stands before the suffix of the key, or by the model. -/
theorem relationFieldName_cases (foreignKey model : Text) :
    (relationFieldName foreignKey model ≠ [] ∧ ∃ ending, foreignKey = relationFieldName foreignKey model ++ ending) ∨
      relationFieldName foreignKey model = singularFieldName model := by
  unfold relationFieldName
  split
  · rename_i c stem found
    obtain ⟨ending, whole, -⟩ := stripIdSuffix?_form found
    exact Or.inl ⟨by simp, ending, whole⟩
  · exact Or.inr rfl

theorem isPlainName_literal {s : String} (letters : ∀ c ∈ txt s, isPlainLetter c) : IsPlainName (txt s) :=
  isPlainName_of_letters letters

theorem IsPlainName.listFieldName {model : Text} (plain : IsPlainName model) : IsPlainName (listFieldName model) := by
  have singular : IsPlainName (singularFieldName model) := isPlainName_of_letters plain.lowerCamel
  rw [SchemaDiagram.listFieldName]
  rcases pluralize_cases (singularFieldName model) with ⟨stem, whole, plural⟩ | plural | plural
  · rw [whole] at singular
    rw [plural]
    exact IsPlainName.append (fun c member => singular c (List.mem_append_left _ member)) (isPlainName_literal (by decide))
  · rw [plural]
    exact singular.append (isPlainName_literal (by decide))
  · rw [plural]
    exact singular.append (isPlainName_literal (by decide))

theorem IsPlainName.foreignKeyName {model field : Text} (plainModel : IsPlainName model) (plainField : IsPlainName field) :
    IsPlainName (foreignKeyName model field) :=
  (isPlainName_of_letters plainModel.lowerCamel).append (isPlainName_of_letters plainField.upperCamel)

theorem IsPlainName.relationFieldName {foreignKey model : Text} (plainKey : IsPlainName foreignKey)
    (plainModel : IsPlainName model) : IsPlainName (relationFieldName foreignKey model) := by
  rcases relationFieldName_cases foreignKey model with ⟨-, ending, whole⟩ | same
  · exact fun c member => plainKey c (by rw [whole]; exact List.mem_append_left _ member)
  · rw [same]
    exact isPlainName_of_letters plainModel.lowerCamel

/-- A new key column is not named like the list of the records that hold it. -/
theorem foreignKeyName_ne_listFieldName {model field : Text} (plain : IsPlainName field) :
    foreignKeyName model field ≠ listFieldName model := by
  intro same
  rw [foreignKeyName, listFieldName] at same
  rcases pluralize_cases (singularFieldName model) with ⟨stem, whole, plural⟩ | plural | plural
  · rw [plural, whole, List.append_assoc, List.append_cancel_left_eq] at same
    exact absurd (congrArg List.head? same) (by simp [txt])
  · rw [plural, List.append_cancel_left_eq] at same
    exact absurd (plain.upperCamel_head (c := 'e') (by rw [same]; rfl)) (by decide)
  · rw [plural, List.append_cancel_left_eq] at same
    exact absurd (plain.upperCamel_head (c := 's') (by rw [same]; rfl)) (by decide)

theorem relationFieldName_ne_nil {foreignKey model : Text} (plain : IsPlainName model)
    (letter : ∃ c ∈ model, isAlphanumeric c) : relationFieldName foreignKey model ≠ [] := by
  rcases relationFieldName_cases foreignKey model with ⟨nonempty, -⟩ | same
  · exact nonempty
  · rw [same]
    exact plain.lowerCamel_ne_nil letter

end SchemaDiagram
