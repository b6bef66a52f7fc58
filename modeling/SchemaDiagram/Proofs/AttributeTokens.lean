import SchemaDiagram.Proofs.AttributeForm
import SchemaDiagram.Proofs.ParsedForm

namespace SchemaDiagram

open Text

/-- An attribute as a reader gives it: a token of its own that ends with something visible. -/
structure IsToken (a : Text) : Prop where
  signed : ∃ c more, a = '@' :: c :: more
  ends : Stops isBlank a.reverse
  token : attributeToken a = a

/-- A token that ends where a space follows. -/
def EndsAtSpace (a : Text) : Prop := ∀ rest, attributeToken (a ++ ' ' :: rest) = a

/-- The attributes of a line. Only the last one can have a group that is not closed. -/
inductive AreTokens : List Text → Prop
  | nil : AreTokens []
  | last {a : Text} : IsToken a → AreTokens [a]
  | cons {a : Text} {later : List Text} : IsToken a → EndsAtSpace a → AreTokens later → AreTokens (a :: later)

/-- A group ends with the parenthesis that closes it, or else takes in all there is. -/
theorem groupRest_cases (quoting : Quoting) (depth : Nat) (t : Text) :
    (∃ inner rest, t = inner ++ ')' :: rest ∧
        ∀ rest', groupRest quoting depth (inner ++ ')' :: rest') = inner ++ [')']) ∨
      ∀ part, part <+: t → groupRest quoting depth part = part := by
  induction t generalizing quoting depth with
  | nil =>
    refine Or.inr fun part before => ?_
    rw [List.prefix_nil.mp before]
    rfl
  | cons c t ih =>
    -- one step goes on inside of the group, whatever the rest is
    have step {next : Quoting} {depth' : Nat}
        (goesOn : ∀ rest, groupRest quoting depth (c :: rest) = c :: groupRest next depth' rest) :
        (∃ inner rest, c :: t = inner ++ ')' :: rest ∧
            ∀ rest', groupRest quoting depth (inner ++ ')' :: rest') = inner ++ [')']) ∨
          ∀ part, part <+: c :: t → groupRest quoting depth part = part := by
      rcases ih next depth' with ⟨inner, rest, whole, closes⟩ | open'
      · refine Or.inl ⟨c :: inner, rest, by rw [whole]; rfl, fun rest' => ?_⟩
        rw [List.cons_append, goesOn, closes]
        rfl
      · refine Or.inr fun part before => ?_
        rcases part with _ | ⟨d, part⟩
        · rfl
        · obtain ⟨rfl, inFront⟩ := List.cons_prefix_cons.mp before
          rw [goesOn, open' part inFront]
    by_cases shown : quoting.shows c
    · by_cases stays : 0 < depthAfter '(' ')' (depth + 1) c
      · exact step fun rest => groupRest_shown shown stays rest
      · obtain ⟨rfl, rfl⟩ : c = ')' ∧ depth = 0 := by
          unfold depthAfter at stays
          split at stays
          · omega
          · split at stays
            · exact ⟨by assumption, by omega⟩
            · omega
        obtain rfl : quoting = .outside := by cases quoting <;> first | rfl | cases shown
        exact Or.inl ⟨[], t, rfl, fun _ => rfl⟩
    · exact step fun rest => groupRest_hidden (by simpa using shown) depth rest

/-- A token either ends by itself, or takes in all there is. -/
theorem attributeToken_cases (t : Text) :
    (∃ a rest, '@' :: t = a ++ rest ∧ attributeToken ('@' :: t) = a ∧ Stops isBlank a.reverse ∧
        attributeToken a = a ∧ EndsAtSpace a) ∨
      attributeToken ('@' :: t) = '@' :: t ∧ attributeToken (trim ('@' :: t)) = trim ('@' :: t) := by
  obtain ⟨signs, name, after, whole, inSigns, signStops, inName, nameStops⟩ := exists_attributeParts ('@' :: t)
  have visible : ∀ c ∈ signs ++ name, isBlank c = false := by
    intro c member
    rcases List.mem_append.mp member with inside | inside
    · rw [of_decide_eq_true (inSigns c inside)]
      rfl
    · exact isBlank_eq_false_of_isAttributeNameChar (inName c inside)
  have behind {w : Text} (noSign : Stops (fun c => decide (c = '@')) w) :
      Stops (fun c => decide (c = '@')) (name ++ w) := by
    rcases name with _ | ⟨c, name⟩
    · exact noSign
    · exact stops_cons (signStops c rfl)
  have token {w : Text} (noSign : Stops (fun c => decide (c = '@')) w) (noName : Stops isAttributeNameChar w) :
      attributeToken (signs ++ (name ++ w)) = signs ++ name ++ group w :=
    attributeToken_append inSigns (behind noSign) inName noName
  by_cases opens : after.head? = some '('
  · obtain ⟨u, rfl⟩ := List.head?_eq_some_iff.mp opens
    have atGroup (w : Text) : attributeToken (signs ++ (name ++ '(' :: w)) = signs ++ name ++ group ('(' :: w) :=
      token (stops_cons (by decide)) (stops_cons (by decide))
    rcases groupRest_cases .outside 0 u with ⟨inner, rest, rfl, closes⟩ | open'
    · have ends (rest' : Text) : group ('(' :: (inner ++ ')' :: rest')) = '(' :: (inner ++ [')']) := by
        rw [group, closes]
      refine Or.inl ⟨signs ++ name ++ '(' :: (inner ++ [')']), rest, by simp [whole], ?_, ?_, ?_, fun rest' => ?_⟩
      · rw [whole, atGroup, ends]
      · rw [← List.cons_append, ← List.append_assoc]
        exact stops_reverse_append (by simp) (stops_cons (by decide))
      · rw [List.append_assoc, atGroup, ends [], List.append_assoc]
      · rw [List.append_assoc, List.append_assoc, List.cons_append, List.append_assoc, atGroup]
        simp [ends]
    · have takes {part : Text} (before : part <+: u) :
          attributeToken (signs ++ (name ++ '(' :: part)) = signs ++ (name ++ '(' :: part) := by
        rw [atGroup, group, open' part before, List.append_assoc]
      refine Or.inr ⟨by rw [whole, takes (List.prefix_refl u)], ?_⟩
      have trimmed : trim ('@' :: t) = signs ++ (name ++ '(' :: trimEnd u) := by
        have opening : Stops isBlank (signs ++ (name ++ ['('])).reverse := by
          rw [← List.append_assoc]
          exact stops_reverse_append (by simp) (stops_cons (by decide))
        have front : '@' :: t = signs ++ (name ++ ['(']) ++ u := by simp [whole]
        rw [trim, trimStart, dropWhile_eq_self (stops_cons (by decide)), front, trimEnd,
          dropEndWhile_append opening]
        simp [trimEnd]
      rw [trimmed]
      exact takes (dropEndWhile_isPrefix isBlank u)
  · refine Or.inl ⟨signs ++ name, after, by rw [whole, List.append_assoc], ?_, stops_reverse_of_forall visible, ?_,
      fun rest' => ?_⟩
    · rw [whole, attributeToken_append inSigns signStops inName nameStops, group_eq_nil opens, List.append_nil]
    · have alone := token (stops_nil _) (stops_nil _)
      rwa [List.append_nil, show group [] = [] from rfl, List.append_nil] at alone
    · have spaced := token (w := ' ' :: rest') (stops_cons (by decide)) (stops_cons (by decide))
      rwa [group_eq_nil (by simp), List.append_nil, ← List.append_assoc] at spaced

/-- What is read as the attributes of a text are tokens. -/
theorem areTokens_extractAttributes (t : Text) : AreTokens (extractAttributes t) := by
  induction size : t.length using Nat.strong_induction_on generalizing t with
  | _ n ih =>
    rcases t with _ | ⟨c, t⟩
    · exact .nil
    by_cases sign : c = '@'
    swap
    · rw [extractAttributes, attributesFrom_other sign]
      exact ih t.length (by simp at size; omega) t rfl
    subst sign
    have signed {a : Text} (large : 1 < byteSize a) (begins : ∃ more, a = '@' :: more) :
        ∃ c more, a = '@' :: c :: more := by
      obtain ⟨more, rfl⟩ := begins
      rcases more with _ | ⟨c, more⟩
      · exact absurd large (by decide)
      · exact ⟨c, more, rfl⟩
    rcases attributeToken_cases t with ⟨a, rest, whole, atStart, ends, alone, spaced⟩ | ⟨all, trimmed⟩
    · obtain ⟨more, rfl⟩ : ∃ more, a = '@' :: more := by
        rcases a with _ | ⟨c, more⟩
        · cases atStart
        · exact ⟨more, by rw [(List.cons_eq_cons.mp whole).1]⟩
      obtain ⟨-, rfl⟩ := List.cons_eq_cons.mp whole
      have same : trim ('@' :: more) = '@' :: more := trim_eq_self (stops_cons (by decide)) ends
      have later := ih rest.length (by simp at size; omega) rest rfl
      rw [extractAttributes, List.append_eq, attributesFrom_token atStart, same]
      by_cases large : 1 < byteSize ('@' :: more)
      · rw [if_pos large]
        exact .cons ⟨signed large ⟨more, rfl⟩, ends, alone⟩ spaced later
      · rw [if_neg large]
        exact later
    · have begins : ∃ more, trim ('@' :: t) = '@' :: more := ⟨trimEnd t, trim_cons (by decide) t⟩
      have token : attributeToken ('@' :: (t ++ [])) = '@' :: t := by rw [List.append_nil, all]
      have read := attributesFrom_token token
      rw [List.append_nil, show attributesFrom 0 [] = [] from rfl] at read
      rw [extractAttributes, read]
      by_cases large : 1 < byteSize (trim ('@' :: t))
      · rw [if_pos large]
        exact .last ⟨signed large begins, stops_dropEndWhile isBlank _, trimmed⟩
      · rw [if_neg large]
        exact .nil

theorem IsToken.attributesFrom {a rest : Text} (isToken : IsToken a) (token : attributeToken (a ++ rest) = a) :
    attributesFrom 0 (a ++ rest) = a :: attributesFrom 0 rest :=
  attributesFrom_token_append isToken.signed isToken.ends token

theorem AreTokens.isToken {attributes : List Text} (tokens : AreTokens attributes) {a : Text}
    (member : a ∈ attributes) : IsToken a := by
  induction tokens with
  | nil => cases member
  | last isToken => rwa [List.mem_singleton.mp member]
  | cons isToken spaced tokens ih =>
    rcases List.mem_cons.mp member with rfl | later
    · exact isToken
    · exact ih later

/-- Tokens with a space before each of them are read as they are. -/
theorem AreTokens.extractAttributes {attributes : List Text} (tokens : AreTokens attributes) :
    extractAttributes (attributes.flatMap (txt " " ++ ·)) = attributes := by
  rw [SchemaDiagram.extractAttributes]
  induction tokens with
  | nil => rfl
  | @last a isToken =>
    have token : attributeToken (a ++ []) = a := by rw [List.append_nil, isToken.token]
    have read := isToken.attributesFrom token
    rw [List.append_nil, show SchemaDiagram.attributesFrom 0 [] = [] from rfl] at read
    have spaced : [a].flatMap (txt " " ++ ·) = ' ' :: a := by simp [txt]
    rw [spaced, attributesFrom_other (by decide), read]
  | @cons a later isToken spaced tokens ih =>
    have split : (a :: later).flatMap (txt " " ++ ·) = ' ' :: (a ++ later.flatMap (txt " " ++ ·)) := by
      simp [txt]
    rw [split, attributesFrom_other (by decide)]
    rcases later with _ | ⟨b, later⟩
    · rw [List.flatMap_nil, isToken.attributesFrom (by rw [List.append_nil, isToken.token])]
      rfl
    · rw [isToken.attributesFrom, ih]
      exact spaced _

end SchemaDiagram
