import SchemaDiagram.Proofs.BodyLines
import SchemaDiagram.Proofs.BodyReplace

namespace SchemaDiagram

open Text

/-- The rows of a text: what stands between its newlines. -/
def rows (t : Text) : List Text := t.splitOn '\n'

def joinRows (rs : List Text) : Text := ['\n'].intercalate rs

/-- A text is one row, or a row in front of a newline and further ones. -/
theorem rows_induction {motive : Text → Prop} (oneRow : ∀ r, '\n' ∉ r → motive r)
    (moreRows : ∀ r t, '\n' ∉ r → motive t → motive (r ++ '\n' :: t)) (t : Text) : motive t := by
  induction size : t.length using Nat.strong_induction_on generalizing t with
  | _ n ih =>
    by_cases newline : '\n' ∈ t
    · obtain ⟨r, rest, rfl, inLine⟩ := List.eq_append_cons_of_mem newline
      exact moreRows r rest inLine (ih rest.length (by simp at size; omega) rest rfl)
    · exact oneRow t newline

theorem rows_row {r : Text} (inLine : '\n' ∉ r) : rows r = [r] := List.splitOn_eq_singleton inLine

theorem rows_cons {r : Text} (inLine : '\n' ∉ r) (t : Text) : rows (r ++ '\n' :: t) = r :: rows t :=
  List.splitOn_append_cons_self_of_not_mem inLine t

theorem rows_ne_nil (t : Text) : rows t ≠ [] := List.splitOn_ne_nil '\n' t

theorem joinRows_rows (t : Text) : joinRows (rows t) = t := List.intercalate_splitOn '\n'

theorem rows_joinRows {rs : List Text} (inLine : ∀ r ∈ rs, '\n' ∉ r) (some : rs ≠ []) :
    rows (joinRows rs) = rs := List.splitOn_intercalate '\n' inLine some

theorem joinRows_singleton (r : Text) : joinRows [r] = r := List.intercalate_singleton

theorem joinRows_cons {rs : List Text} (some : rs ≠ []) (r : Text) :
    joinRows (r :: rs) = r ++ '\n' :: joinRows rs := by
  obtain ⟨s, rs, rfl⟩ := List.exists_cons_of_ne_nil some
  simp [joinRows, List.intercalate_cons_cons]

theorem mem_rows {t r : Text} (member : r ∈ rows t) : '\n' ∉ r ∧ r <:+: t := by
  induction t using rows_induction with
  | oneRow u inLine =>
    rw [rows_row inLine, List.mem_singleton] at member
    exact ⟨member ▸ inLine, member ▸ List.infix_rfl⟩
  | moreRows u t inLine ih =>
    rw [rows_cons inLine] at member
    rcases List.mem_cons.mp member with rfl | later
    · exact ⟨inLine, (List.prefix_append r _).isInfix⟩
    · obtain ⟨oneLine, inside⟩ := ih later
      exact ⟨oneLine, inside.trans ⟨u ++ ['\n'], [], by simp⟩⟩

theorem not_newline_blankFrom {t : Text} {inComment : Bool} (inLine : '\n' ∉ t) :
    '\n' ∉ blankFrom inComment t := by
  intro member
  rcases mem_blankFrom member with inside | space
  · exact inLine inside
  · cases space

/-- Comments end with their row. -/
theorem rows_blankFrom (t : Text) : rows (blankFrom false t) = (rows t).map (blankFrom false) := by
  induction t using rows_induction with
  | oneRow r inLine =>
    rw [rows_row inLine, rows_row (not_newline_blankFrom inLine), List.map_singleton]
  | moreRows r t inLine ih =>
    rw [rows_cons inLine, blankFrom_append (meetApart_of_head (by decide)), blankFrom_newline,
      rows_cons (not_newline_blankFrom inLine), ih, List.map_cons]

/-- The lines of a text are its rows. If the last row is empty it is no line. -/
theorem map_trim_lines (t : Text) :
    (rows t).map trim = (lines t).map trim ∨ (rows t).map trim = (lines t).map trim ++ [[]] := by
  induction t using rows_induction with
  | oneRow r inLine =>
    rw [rows_row inLine]
    rcases lines_oneLine inLine with none | one
    · have empty := flatten_lines r
      rw [none, List.flatten_nil] at empty
      subst empty
      exact Or.inr rfl
    · rw [one]
      exact Or.inl rfl
  | moreRows r t inLine ih =>
    have same : trim (r ++ ['\n']) = trim r := trim_append (List.forall_mem_nil _) r (by decide)
    rw [rows_cons inLine, lines_append_newline inLine, List.map_cons, List.map_cons, same]
    exact ih.imp (congrArg _) (congrArg _)

end SchemaDiagram
