import SchemaDiagram.Proofs.AttributeBytes

namespace SchemaDiagram

open Text

/-- What may stand behind an attribute: no sign, and nothing at its beginning that goes on with the attribute. -/
structure IsAttributeGap (gap : Text) : Prop where
  signless : '@' ∉ gap
  apart : Stops extendsAttribute gap

/-- Attributes one behind the other, each with the gap that follows it. -/
def joinAttributes (parts : List (Text × Text)) : Text := parts.flatMap fun part => part.1 ++ part.2

/-- Without a gap the next attribute ends the one in front of it by its sign. -/
theorem stops_joinAttributes {gap : Text} {parts : List (Text × Text)} (apart : Stops extendsAttribute gap)
    (tokens : ∀ part ∈ parts, IsAttributeToken part.1) : Stops extendsAttribute (gap ++ joinAttributes parts) := by
  rcases gap with _ | ⟨c, gap⟩
  · rcases parts with _ | ⟨⟨a, gap⟩, parts⟩
    · exact stops_nil _
    · obtain ⟨⟨c, more, rfl⟩, -⟩ := (tokens (a, gap) List.mem_cons_self).ends
      exact stops_cons (by decide)
  · exact stops_cons (apart c rfl)

theorem attributesFrom_joinAttributes {parts : List (Text × Text)} (tokens : ∀ part ∈ parts, IsAttributeToken part.1)
    (gaps : ∀ part ∈ parts, IsAttributeGap part.2) : attributesFrom 0 (joinAttributes parts) = parts.map Prod.fst := by
  induction parts with
  | nil => rfl
  | cons part parts ih =>
    obtain ⟨isToken, laterTokens⟩ := List.forall_mem_cons.mp tokens
    obtain ⟨isGap, laterGaps⟩ := List.forall_mem_cons.mp gaps
    have joined : joinAttributes (part :: parts) = part.1 ++ (part.2 ++ joinAttributes parts) := by
      rw [joinAttributes, List.flatMap_cons, List.append_assoc]
      rfl
    rw [joined, isToken.attributesFrom_append (stops_joinAttributes isGap.apart laterTokens),
      attributesFrom_signless isGap.signless, ih laterTokens laterGaps, List.map_cons]

/-- Joined attributes are read as they were, whatever stands between them and in front of them. Read byte by byte, each of
them ends with the parenthesis that closes its own group. -/
theorem extractAttributes_joined {front : Text} {parts : List (Text × Text)} (signless : '@' ∉ front)
    (tokens : ∀ part ∈ parts, IsAttributeToken part.1) (gaps : ∀ part ∈ parts, IsAttributeGap part.2) :
    extractAttributes (front ++ joinAttributes parts) = parts.map Prod.fst ∧
      checkedAttributes (front ++ joinAttributes parts) = some (parts.map Prod.fst) := by
  have read : extractAttributes (front ++ joinAttributes parts) = parts.map Prod.fst := by
    rw [extractAttributes, attributesFrom_signless signless, attributesFrom_joinAttributes tokens gaps]
  exact ⟨read, by rw [checkedAttributes_eq, read]⟩

/-- Attributes with nested groups, with signs and parentheses in strings, and with nothing between two of them. -/
def quotedAttributes : List (Text × Text) :=
  [(txt "@id", []), (txt "@@@index([a, (b(c), \"@d)\\\"(é\\\\\")])", txt " ) (é\""), (txt "@db.VarChar(3)", txt "\n"),
    (txt "@x_1", [])]

theorem isAttributeToken_of_mem_quotedAttributes : ∀ part ∈ quotedAttributes, IsAttributeToken part.1 := by
  have plain (name : Text) (named : name ≠ [] ∧ ∀ c ∈ name, isAttributeNameChar c) : IsAttributeToken ('@' :: name) :=
    ⟨txt "@", name, [], by simp [txt], by decide, named, Or.inl rfl, rfl⟩
  intro part member
  simp only [quotedAttributes, List.mem_cons, List.not_mem_nil, or_false] at member
  rcases member with rfl | rfl | rfl | rfl
  · exact plain (txt "id") (by decide)
  · exact ⟨txt "@@@", txt "index", txt "([a, (b(c), \"@d)\\\"(é\\\\\")])", by decide, by decide, by decide,
      Or.inr ⟨txt "[a, (b(c), \"@d)\\\"(é\\\\\")]", by decide, by decide⟩, by decide⟩
  · exact ⟨txt "@", txt "db.VarChar", txt "(3)", by decide, by decide, by decide,
      Or.inr ⟨txt "3", by decide, by decide⟩, by decide⟩
  · exact plain (txt "x_1") (by decide)

theorem isAttributeGap_of_mem_quotedAttributes : ∀ part ∈ quotedAttributes, IsAttributeGap part.2 := by
  intro part member
  simp only [quotedAttributes, List.mem_cons, List.not_mem_nil, or_false] at member
  rcases member with rfl | rfl | rfl | rfl
  · exact ⟨by decide, stops_nil _⟩
  · exact ⟨by decide, stops_cons (by decide)⟩
  · exact ⟨by decide, stops_cons (by decide)⟩
  · exact ⟨by decide, stops_nil _⟩

theorem extractAttributes_joined_quotedAttributes :
    '@' ∉ txt "a(" ∧ (∀ part ∈ quotedAttributes, IsAttributeToken part.1) ∧
      (∀ part ∈ quotedAttributes, IsAttributeGap part.2) ∧
      extractAttributes (txt "a(@id@@@index([a, (b(c), \"@d)\\\"(é\\\\\")]) ) (é\"@db.VarChar(3)\n@x_1") =
        [txt "@id", txt "@@@index([a, (b(c), \"@d)\\\"(é\\\\\")])", txt "@db.VarChar(3)", txt "@x_1"] := by
  have signless : '@' ∉ txt "a(" := by decide
  have joined : txt "a(@id@@@index([a, (b(c), \"@d)\\\"(é\\\\\")]) ) (é\"@db.VarChar(3)\n@x_1" =
      txt "a(" ++ joinAttributes quotedAttributes := by decide
  have read := extractAttributes_joined signless isAttributeToken_of_mem_quotedAttributes
    isAttributeGap_of_mem_quotedAttributes
  refine ⟨signless, isAttributeToken_of_mem_quotedAttributes, isAttributeGap_of_mem_quotedAttributes, ?_⟩
  rw [joined, read.1]
  rfl

/-- A gap that begins with a letter belongs to the attribute in front of it. -/
example : extractAttributes (joinAttributes [(txt "@a", txt "b"), (txt "@c", [])]) = [txt "@ab", txt "@c"] := by decide

end SchemaDiagram
