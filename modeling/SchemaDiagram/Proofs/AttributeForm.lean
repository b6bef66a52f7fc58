import SchemaDiagram.Proofs.Brackets
import SchemaDiagram.Proofs.QuotedScan
import SchemaDiagram.Proofs.Words

namespace SchemaDiagram

open Text

/-- The arguments of an attribute: none, or a group of parentheses that balance outside of strings. -/
def IsArguments (arguments : Text) : Prop :=
  arguments = [] ∨ ∃ inner, arguments = '(' :: inner ++ [')'] ∧ IsBracketed '(' ')' (unquoted arguments)

/-- The parts of an attribute that ends by itself: signs, a name, and arguments whose strings are closed. -/
structure IsAttributeOf (signs name arguments : Text) : Prop where
  signed : signs ≠ [] ∧ ∀ c ∈ signs, c = '@'
  named : name ≠ [] ∧ ∀ c ∈ name, isAttributeNameChar c
  form : IsArguments arguments
  closed : Quoting.after .outside arguments = .outside

def IsAttributeToken (a : Text) : Prop :=
  ∃ signs name arguments, a = signs ++ name ++ arguments ∧ IsAttributeOf signs name arguments

/-- Whether a character behind the name of an attribute belongs to it. -/
def extendsAttribute (c : Char) : Bool := c = '(' || isAttributeNameChar c

/-- An attribute as one token on one line, with its strings closed and no braces or comments outside of
them. -/
structure IsAttribute (a : Text) : Prop where
  token : ∃ signs name arguments, a = signs ++ name ++ arguments ∧ (signs = txt "@" ∨ signs = txt "@@") ∧
    name ≠ [] ∧ (∀ c ∈ name, isAttributeNameChar c) ∧ IsArguments arguments
  oneLine : '\n' ∉ a
  closed : Quoting.after .outside a = .outside
  noBrace : '{' ∉ unquoted a ∧ '}' ∉ unquoted a
  noComment : ¬ txt "//" <:+: unquoted a ∧ ¬ txt "/*" <:+: unquoted a

theorem groupRest_hidden {quoting : Quoting} {c : Char} (hidden : quoting.shows c = false) (depth : Nat)
    (t : Text) : groupRest quoting depth (c :: t) = c :: groupRest (quoting.next c) depth t := by
  cases quoting with
  | outside => cases hidden
  | inside =>
    have other : c ≠ '"' := by simpa [Quoting.shows] using hidden
    by_cases escape : c = '\\' <;> simp [groupRest, Quoting.next, escape, other]
  | escaped => rfl

theorem groupRest_shown {quoting : Quoting} {c : Char} (shown : quoting.shows c = true) {depth : Nat}
    (inside : 0 < depthAfter '(' ')' (depth + 1) c) (t : Text) :
    groupRest quoting depth (c :: t) =
      c :: groupRest (quoting.next c) (depthAfter '(' ')' (depth + 1) c - 1) t := by
  cases quoting with
  | outside =>
    unfold depthAfter at inside ⊢
    by_cases quote : c = '"'
    · simp [groupRest, Quoting.next, quote]
    by_cases opens : c = '('
    · simp [groupRest, Quoting.next, opens]
    by_cases closes : c = ')'
    · subst closes
      obtain ⟨inner, rfl⟩ : ∃ inner, depth = inner + 1 := ⟨depth - 1, by simp at inside; omega⟩
      simp [groupRest, Quoting.next]
    · simp [groupRest, Quoting.next, quote, opens, closes]
  | inside =>
    obtain rfl : c = '"' := by simpa [Quoting.shows] using shown
    simp [groupRest, Quoting.next, depthAfter]
  | escaped => cases shown

/-- A group ends with the parenthesis that closes it. -/
theorem groupRest_append {quoting : Quoting} {depth : Nat} {t : Text}
    (stays : StaysOpen '(' ')' (depth + 1) (unquotedFrom quoting t))
    (balance : depth + (unquotedFrom quoting t).count '(' = (unquotedFrom quoting t).count ')')
    (closed : quoting.after t = .outside) (rest : Text) :
    groupRest quoting depth (t ++ ')' :: rest) = t ++ [')'] := by
  induction t generalizing quoting depth with
  | nil =>
    obtain rfl : quoting = .outside := closed
    obtain rfl : depth = 0 := by simpa [unquotedFrom] using balance
    rfl
  | cons c t ih =>
    rw [unquotedFrom] at stays balance
    by_cases shown : quoting.shows c
    · rw [if_pos shown] at stays balance
      obtain ⟨positive, later⟩ := (staysOpen_cons_iff (by decide)).mp stays
      have level := depthAfter_balance (by decide : '(' ≠ ')') positive c (unquotedFrom (quoting.next c) t)
      obtain ⟨inner, atInner⟩ : ∃ inner, depthAfter '(' ')' (depth + 1) c = inner + 1 :=
        ⟨_, (Nat.succ_pred_eq_of_pos later.positive).symm⟩
      rw [List.cons_append, groupRest_shown shown later.positive, atInner]
      rw [atInner] at later level
      rw [Nat.add_sub_cancel, ih later (by omega) closed]
      rfl
    · have hidden : quoting.shows c = false := by simpa using shown
      rw [if_neg shown] at stays balance
      rw [List.cons_append, groupRest_hidden hidden, ih stays balance closed]
      rfl

theorem group_eq_nil {t : Text} (noGroup : t.head? ≠ some '(') : group t = [] := by
  unfold group
  split
  · exact absurd rfl noGroup
  · rfl

theorem group_append {arguments : Text} (form : IsArguments arguments)
    (closed : Quoting.after .outside arguments = .outside) {rest : Text} (noGroup : rest.head? ≠ some '(') :
    group (arguments ++ rest) = arguments := by
  rcases form with rfl | ⟨inner, rfl, block⟩
  · exact group_eq_nil noGroup
  · have atInner : Quoting.after .outside inner = .outside := by
      rw [List.cons_append, Quoting.after_cons, Quoting.after_append] at closed
      generalize hq : (Quoting.next .outside '(').after inner = q at closed
      have same : (Quoting.next .outside '(').after inner = Quoting.after .outside inner := rfl
      rw [← same, hq]
      cases q <;> first | rfl | cases closed
    have shown : unquoted ('(' :: inner ++ [')']) = '(' :: unquoted inner ++ [')'] := by
      show '(' :: unquotedFrom .outside (inner ++ [')']) = _
      rw [unquotedFrom_append, atInner]
      rfl
    rw [shown] at block
    obtain ⟨stays, balance⟩ := block.staysOpen (by decide)
    have level : 0 + (unquoted inner).count '(' = (unquoted inner).count ')' := by rw [Nat.zero_add, balance]
    have read := groupRest_append stays level atInner rest
    simpa [group] using read

theorem attributeToken_append {signs name after : Text} (inSigns : ∀ c ∈ signs, decide (c = '@') = true)
    (signStops : Stops (fun c => decide (c = '@')) (name ++ after)) (inName : ∀ c ∈ name, isAttributeNameChar c)
    (nameStops : Stops isAttributeNameChar after) :
    attributeToken (signs ++ (name ++ after)) = signs ++ name ++ group after := by
  have behindName : (signs ++ (name ++ after)).drop (signs.length + name.length) = after := by
    rw [← List.append_assoc, ← List.length_append, List.drop_left]
  simp only [attributeToken, takeWhile_append_stops inSigns signStops, List.drop_left,
    takeWhile_append_stops inName nameStops, behindName]

/-- Every text begins with signs and a name, if only with empty ones. -/
theorem exists_attributeParts (t : Text) :
    ∃ signs name after, t = signs ++ (name ++ after) ∧ (∀ c ∈ signs, decide (c = '@') = true) ∧
      Stops (fun c => decide (c = '@')) (name ++ after) ∧ (∀ c ∈ name, isAttributeNameChar c) ∧
      Stops isAttributeNameChar after := by
  obtain ⟨signs, rest, rfl, inSigns, signStops⟩ : ∃ signs rest, t = signs ++ rest ∧
      (∀ c ∈ signs, decide (c = '@') = true) ∧ Stops (fun c => decide (c = '@')) rest :=
    ⟨_, _, (List.takeWhile_append_dropWhile).symm, fun _ => List.mem_takeWhile_imp, stops_dropWhile _ _⟩
  obtain ⟨name, after, rfl, inName, nameStops⟩ : ∃ name after, rest = name ++ after ∧
      (∀ c ∈ name, isAttributeNameChar c) ∧ Stops isAttributeNameChar after :=
    ⟨_, _, (List.takeWhile_append_dropWhile).symm, fun _ => List.mem_takeWhile_imp, stops_dropWhile _ _⟩
  exact ⟨signs, name, after, rfl, inSigns, signStops, inName, nameStops⟩

theorem isAttributeNameChar_eq_false {c : Char} (blank : isBlank c) : isAttributeNameChar c = false := by
  by_contra inName
  have letter := isWordChar_eq_false_of_isBlank blank
  simp only [isAttributeNameChar, Bool.not_eq_false, Bool.or_eq_true, decide_eq_true_eq] at inName
  rcases inName with (alphanum | rfl) | rfl
  · simp [isWordChar_of_isAlphanum alphanum] at letter
  · cases letter
  · cases blank

theorem quote_not_mem_name {name : Text} (inName : ∀ c ∈ name, isAttributeNameChar c) : '"' ∉ name :=
  fun member => absurd (inName '"' member) (by decide)

theorem isBlank_eq_false_of_isAttributeNameChar {c : Char} (inName : isAttributeNameChar c) :
    isBlank c = false := by
  by_contra blank
  rw [isAttributeNameChar_eq_false (by simpa using blank)] at inName
  cases inName

theorem extendsAttribute_eq_false_iff {c : Char} :
    extendsAttribute c = false ↔ c ≠ '(' ∧ isAttributeNameChar c = false := by
  rw [extendsAttribute, Bool.or_eq_false_iff, decide_eq_false_iff_not]

theorem Follows.stops_extendsAttribute {rest : Text} (parted : Follows [] rest) : Stops extendsAttribute rest := by
  intro c head
  have blank : isBlank c := (parted c head).resolve_left (by simp)
  refine extendsAttribute_eq_false_iff.mpr ⟨?_, isAttributeNameChar_eq_false blank⟩
  rintro rfl
  cases blank

/-- An attribute is read as one token in front of whatever does not go on with it. -/
theorem IsAttributeToken.token_append {a : Text} (isToken : IsAttributeToken a) {rest : Text}
    (apart : Stops extendsAttribute rest) : attributeToken (a ++ rest) = a := by
  obtain ⟨signs, name, arguments, rfl, parts⟩ := isToken
  obtain ⟨c, more, atName⟩ := List.exists_cons_of_ne_nil parts.named.1
  have inSigns : ∀ c ∈ signs, decide (c = '@') = true := fun c member => decide_eq_true (parts.signed.2 c member)
  -- the name ends the signs, and the arguments or else the rest end the name
  have signStops : Stops (fun c => decide (c = '@')) (name ++ (arguments ++ rest)) := by
    have letter := parts.named.2 c (by rw [atName]; exact List.mem_cons_self)
    rw [atName]
    refine stops_cons (decide_eq_false ?_)
    rintro rfl
    cases letter
  have nameStops : Stops isAttributeNameChar (arguments ++ rest) := by
    rcases parts.form with rfl | ⟨inner, rfl, -⟩
    · exact fun c head => (extendsAttribute_eq_false_iff.mp (apart c head)).2
    · exact stops_cons (by decide)
  have noGroup : rest.head? ≠ some '(' := fun head => (extendsAttribute_eq_false_iff.mp (apart '(' head)).1 rfl
  have token := attributeToken_append inSigns signStops parts.named.2 nameStops
  rw [group_append parts.form parts.closed noGroup] at token
  simpa using token

/-- An attribute begins with its sign and does not end with white space. -/
theorem IsAttributeToken.ends {a : Text} (isToken : IsAttributeToken a) :
    (∃ c more, a = '@' :: c :: more) ∧ Stops isBlank a.reverse := by
  obtain ⟨signs, name, arguments, rfl, parts⟩ := isToken
  obtain ⟨s, signs', atSigns⟩ := List.exists_cons_of_ne_nil parts.signed.1
  obtain ⟨d, name', atName⟩ := List.exists_cons_of_ne_nil parts.named.1
  constructor
  · obtain rfl : s = '@' := parts.signed.2 s (by rw [atSigns]; exact List.mem_cons_self)
    rcases signs' with _ | ⟨s, signs'⟩
    · exact ⟨d, name' ++ arguments, by rw [atSigns, atName]; rfl⟩
    · exact ⟨s, signs' ++ name ++ arguments, by rw [atSigns]; rfl⟩
  · rcases parts.form with rfl | ⟨inner, rfl, -⟩
    · rw [List.append_nil]
      exact stops_reverse_append parts.named.1
        (stops_reverse_of_forall fun c member => isBlank_eq_false_of_isAttributeNameChar (parts.named.2 c member))
    · refine stops_reverse_append (by simp) ?_
      rw [List.reverse_append]
      exact stops_cons (by decide)

theorem attributesFrom_skip (a t : Text) : attributesFrom a.length (a ++ t) = attributesFrom 0 t := by
  induction a with
  | nil => rfl
  | cons c a ih => exact ih

theorem attributesFrom_other {c : Char} (noSign : c ≠ '@') (t : Text) :
    attributesFrom 0 (c :: t) = attributesFrom 0 t := by
  simp [attributesFrom, noSign]

theorem attributesFrom_signless {gap : Text} (signless : '@' ∉ gap) (rest : Text) :
    attributesFrom 0 (gap ++ rest) = attributesFrom 0 rest := by
  induction gap with
  | nil => rfl
  | cons c gap ih =>
    obtain ⟨other, later⟩ := List.ne_and_not_mem_of_not_mem_cons signless
    rw [List.cons_append, attributesFrom_other other.symm, ih later]

theorem extractAttributes_dropWhile (t : Text) :
    extractAttributes (t.dropWhile isBlank) = extractAttributes t := by
  have signless : '@' ∉ t.takeWhile isBlank := fun member => absurd (List.mem_takeWhile_imp member) (by decide)
  have whole := attributesFrom_signless signless (t.dropWhile isBlank)
  rw [List.takeWhile_append_dropWhile] at whole
  exact whole.symm

theorem attributesFrom_token {a rest : Text} (token : attributeToken ('@' :: (a ++ rest)) = '@' :: a) :
    attributesFrom 0 ('@' :: (a ++ rest)) =
      if 1 < byteSize (trim ('@' :: a)) then trim ('@' :: a) :: attributesFrom 0 rest else attributesFrom 0 rest := by
  have skipped : attributesFrom (('@' :: a).length - 1) (a ++ rest) = attributesFrom 0 rest := attributesFrom_skip a rest
  simp only [attributesFrom, if_true, token, skipped]

/-- A token with more than its sign is read as it is, unless white space ends it. -/
theorem attributesFrom_token_append {a rest : Text} (signed : ∃ c more, a = '@' :: c :: more)
    (ends : Stops isBlank a.reverse) (token : attributeToken (a ++ rest) = a) :
    attributesFrom 0 (a ++ rest) = a :: attributesFrom 0 rest := by
  obtain ⟨c, more, rfl⟩ := signed
  have trimmed : trim ('@' :: c :: more) = '@' :: c :: more := trim_eq_self (stops_cons (by decide)) ends
  have size : 1 < byteSize ('@' :: c :: more) := by
    have positive := c.utf8Size_pos
    rw [byteSize_cons, byteSize_cons, show '@'.utf8Size = 1 from rfl]
    omega
  rw [List.cons_append] at token ⊢
  rw [attributesFrom_token token, trimmed, if_pos size]

theorem IsAttributeToken.attributesFrom_append {a : Text} (isToken : IsAttributeToken a) {rest : Text}
    (apart : Stops extendsAttribute rest) : attributesFrom 0 (a ++ rest) = a :: attributesFrom 0 rest :=
  attributesFrom_token_append isToken.ends.1 isToken.ends.2 (isToken.token_append apart)

theorem IsAttribute.isAttributeToken {a : Text} (isAttribute : IsAttribute a) : IsAttributeToken a := by
  obtain ⟨signs, name, arguments, rfl, signed, named, inName, form⟩ := isAttribute.token
  have inSigns : signs ≠ [] ∧ ∀ c ∈ signs, c = '@' := by rcases signed with rfl | rfl <;> decide
  have noQuote : '"' ∉ signs ++ name := by
    intro member
    rcases List.mem_append.mp member with inside | inside
    · cases inSigns.2 '"' inside
    · exact quote_not_mem_name inName inside
  have closed := isAttribute.closed
  rw [Quoting.after_append, after_of_not_mem noQuote] at closed
  exact ⟨signs, name, arguments, rfl, inSigns, ⟨named, inName⟩, form, closed⟩

theorem IsAttribute.ends {a : Text} (isAttribute : IsAttribute a) :
    (∃ c more, a = '@' :: c :: more) ∧ Stops isBlank a.reverse := isAttribute.isAttributeToken.ends

theorem IsAttribute.attributesFrom_append {a : Text} (isAttribute : IsAttribute a) {rest : Text}
    (parted : Follows [] rest) : attributesFrom 0 (a ++ rest) = a :: attributesFrom 0 rest :=
  isAttribute.isAttributeToken.attributesFrom_append parted.stops_extendsAttribute

/-- The attributes of a printed row are read as they were printed. -/
theorem extractAttributes_flatMap {attributes : List Text} (all : ∀ a ∈ attributes, IsAttribute a) :
    extractAttributes (attributes.flatMap (txt " " ++ ·)) = attributes := by
  induction attributes with
  | nil => rfl
  | cons a attributes ih =>
    have parted : Follows [] (attributes.flatMap (txt " " ++ ·)) := by
      rcases attributes with _ | ⟨next, attributes⟩
      · intro c head
        cases head
      · intro c head
        obtain rfl : ' ' = c := by simpa [txt] using head
        exact Or.inr (by decide)
    have here := (all a List.mem_cons_self).attributesFrom_append parted
    have later := ih fun a' member => all a' (List.mem_cons_of_mem _ member)
    have split : (a :: attributes).flatMap (txt " " ++ ·) =
        ' ' :: (a ++ attributes.flatMap (txt " " ++ ·)) := by
      simp [txt]
    rw [extractAttributes] at later ⊢
    rw [split, attributesFrom_other (by decide), here, later]

end SchemaDiagram
