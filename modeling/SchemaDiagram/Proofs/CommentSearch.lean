import SchemaDiagram.Proofs.ByteOrder
import SchemaDiagram.Proofs.Cuts

namespace SchemaDiagram

open Text

/-- The comment that ends a line, searched at some offsets. What looks like the beginning of a comment is one if
the text without comments, of which the bytes are given, has a space in its place. -/
def commentFrom (line : Text) (shown : List UInt8) (start : Nat) : List Nat → Except Error (Option Text)
  | [] => .ok none
  | i :: later => do
    let rest ← cut i (byteSize line) line
    if beginsComment rest then
      match shown[start + i]? with
      | none => .error .brokenCharacter
      | some byte => if byte = 32 then return some (trimEnd rest) else commentFrom line shown start later
    else commentFrom line shown start later

/-- A character of several bytes stands on a line in front of its comment. -/
def WideBeforeComment (line shown : Text) : Prop :=
  ∃ n c, HasAt line n c ∧ 1 < c.utf8Size ∧ ∀ k < n, ¬(beginsComment (dropBytes k line) ∧ HasAt shown k ' ')

theorem length_bytes (t : Text) : (bytes t).length = byteSize t := by
  induction t with
  | nil => rfl
  | cons c t ih =>
    rw [byteSize_cons, ← ih, bytes, List.flatMap_cons, List.length_append, String.length_utf8EncodeChar]
    rfl

theorem eq_slash_of_beginsComment {c : Char} {t : Text} (begins : beginsComment (c :: t)) : c = '/' := by
  rcases Bool.or_eq_true_iff.mp begins with both | both
  · exact ((List.cons_prefix_cons.mp (List.isPrefixOf_iff_prefix.mp both)).1).symm
  · exact ((List.cons_prefix_cons.mp (List.isPrefixOf_iff_prefix.mp both)).1).symm

theorem showOnly_oneByte (keep : Role → Bool) {c : Char} (one : c.utf8Size = 1) (role : Role) :
    showOnly keep (c, role) = [c] ∨ showOnly keep (c, role) = [' '] := by
  unfold showOnly
  split
  · exact Or.inl rfl
  · dsimp only
    rw [one]
    exact Or.inr rfl

theorem not_isBoundary_inside {t front back : Text} {c : Char} (whole : t = front ++ c :: back)
    (wide : 1 < c.utf8Size) : ¬IsBoundary t (byteSize front + 1) := by
  rintro ⟨before, after, split, size⟩
  rw [whole] at split
  rcases List.append_eq_append_iff.mp split with ⟨part, rfl, rest⟩ | ⟨part, rfl, rest⟩
  · rcases part with _ | ⟨d, part⟩
    · simp at size
    · obtain rfl : c = d := (List.cons_eq_cons.mp rest).1
      rw [byteSize_append, byteSize_cons] at size
      omega
  · rw [byteSize_append] at size
    omega

theorem commentFrom_cons {line rest : Text} {i : Nat} (here : cut i (byteSize line) line = .ok rest)
    (shown : List UInt8) (start : Nat) (later : List Nat) :
    commentFrom line shown start (i :: later) =
      if beginsComment rest then
        match shown[start + i]? with
        | none => .error .brokenCharacter
        | some byte => if byte = 32 then .ok (some (trimEnd rest)) else commentFrom line shown start later
      else commentFrom line shown start later := by
  rw [commentFrom, here]
  rfl

theorem commentFrom_inside {line front back : Text} {c : Char} (whole : line = front ++ c :: back)
    (wide : 1 < c.utf8Size) (shown : List UInt8) (start : Nat) (later : List Nat) :
    commentFrom line shown start ((byteSize front + 1) :: later) = .error .brokenCharacter := by
  have broken : cut (byteSize front + 1) (byteSize line) line = .error .brokenCharacter :=
    if_neg fun bounds => not_isBoundary_inside whole wide bounds.1
  rw [commentFrom, broken]
  rfl

theorem bytes_append (s t : Text) : bytes (s ++ t) = bytes s ++ bytes t := List.flatMap_append

section

variable (keep : Role → Bool) (before after : List UInt8)

/-- The byte at the place of a character is the first of its bytes. -/
theorem getElem?_bytes (front back : Text) (c : Char) :
    (before ++ bytes (front ++ c :: back) ++ after)[before.length + byteSize front]? =
      (String.utf8EncodeChar c)[0]? := by
  obtain ⟨x, more, encoded⟩ := List.exists_cons_of_ne_nil (l := String.utf8EncodeChar c) String.utf8EncodeChar_ne_nil
  have split : before ++ bytes (front ++ c :: back) ++ after =
      (before ++ bytes front) ++ x :: (more ++ bytes back ++ after) := by
    have head : bytes (c :: back) = x :: (more ++ bytes back) := by
      rw [bytes, List.flatMap_cons, encoded]
      rfl
    rw [bytes_append, head]
    simp
  have size : before.length + byteSize front = (before ++ bytes front).length := by
    rw [List.length_append, length_bytes]
  rw [split, size, encoded, List.getElem?_append_right (Nat.le_refl _), Nat.sub_self]
  rfl

/-- The search at every byte of a line finds what the search at its characters finds, and fails where that fails. -/
theorem commentFrom_eq (done rest : List (Char × Role)) :
    commentFrom ((done ++ rest).map Prod.fst)
        (before ++ bytes ((done ++ rest).flatMap (showOnly keep)) ++ after) before.length
        (List.range' (byteSize (done.map Prod.fst)) (byteSize (rest.map Prod.fst))) =
      trailingComment (rest.map Prod.fst) (rest.flatMap (showOnly keep)) := by
  induction rest generalizing done with
  | nil => rfl
  | cons item rest ih =>
    obtain ⟨c, role⟩ := item
    have positive := c.utf8Size_pos
    have offsets : List.range' (byteSize (done.map Prod.fst)) (byteSize (((c, role) :: rest).map Prod.fst)) =
        byteSize (done.map Prod.fst) :: List.range' (byteSize (done.map Prod.fst) + 1)
          (c.utf8Size - 1 + byteSize (rest.map Prod.fst)) := by
      rw [List.map_cons, byteSize_cons, ← List.range'_succ]
      congr 1
      simp only
      omega
    have line : (done ++ (c, role) :: rest).map Prod.fst = done.map Prod.fst ++ c :: rest.map Prod.fst := by simp
    have here : cut (byteSize (done.map Prod.fst)) (byteSize ((done ++ (c, role) :: rest).map Prod.fst))
        ((done ++ (c, role) :: rest).map Prod.fst) = .ok (c :: rest.map Prod.fst) := by
      rw [cut_back ⟨_, _, line, rfl⟩, line, dropBytes_byteSize_append]
    rw [offsets, commentFrom_cons here, List.map_cons, List.flatMap_cons, trailingComment]
    by_cases one : c.utf8Size = 1
    · have further := ih (done ++ [(c, role)])
      have size : byteSize ((done ++ [(c, role)]).map Prod.fst) = byteSize (done.map Prod.fst) + 1 := by
        simp [one]
      rw [size, List.append_assoc, List.singleton_append] at further
      rw [one, Nat.sub_self, Nat.zero_add, further, if_pos rfl]
      by_cases begins : beginsComment (c :: rest.map Prod.fst) = true
      · -- a slash is shown, or there is a space in its place
        obtain rfl := eq_slash_of_beginsComment begins
        rw [if_pos begins, begins, Bool.true_and, List.flatMap_append, List.flatMap_cons, ← byteSize_showOnly keep done]
        rcases showOnly_oneByte keep one role with shows | shows
        · rw [shows, List.singleton_append, getElem?_bytes]
          rfl
        · rw [shows, List.singleton_append, getElem?_bytes]
          rfl
      · rcases showOnly_oneByte keep one role with shows | shows
        · simp [begins, shows]
        · simp [begins, shows]
    · have noComment : beginsComment (c :: rest.map Prod.fst) = false :=
        Bool.eq_false_iff.mpr fun begins => one (by rw [eq_slash_of_beginsComment begins]; rfl)
      obtain ⟨more, size⟩ : ∃ more, c.utf8Size - 1 + byteSize (rest.map Prod.fst) = more + 1 :=
        Nat.exists_eq_succ_of_ne_zero (by omega)
      rw [noComment, if_neg Bool.false_ne_true, size, List.range'_succ, commentFrom_inside line (by omega), Bool.false_and,
        if_neg (by decide), if_neg one]

end

theorem hasAt_cons_iff {c d : Char} {t : Text} {n : Nat} :
    HasAt (c :: t) n d ↔ (n = 0 ∧ c = d) ∨ ∃ m, n = c.utf8Size + m ∧ HasAt t m d := by
  constructor
  · rintro ⟨front, back, whole, rfl⟩
    rcases front with _ | ⟨e, front⟩
    · exact Or.inl ⟨rfl, (List.cons_eq_cons.mp whole).1⟩
    · obtain ⟨rfl, later⟩ := List.cons_eq_cons.mp whole
      exact Or.inr ⟨byteSize front, rfl, front, back, later, rfl⟩
  · rintro (⟨rfl, rfl⟩ | ⟨m, rfl, front, back, rfl, rfl⟩)
    · exact ⟨[], t, rfl, rfl⟩
    · exact ⟨c :: front, back, rfl, rfl⟩

section

variable {c x : Char} {line shown : Text}

theorem dropBytes_succ (one : c.utf8Size = 1) (k : Nat) : dropBytes (k + 1) (c :: line) = dropBytes k line := by
  rw [dropBytes, one, if_pos (by omega), Nat.add_sub_cancel]

theorem trailingComment_cons (one : c.utf8Size = 1) :
    (∃ comment, trailingComment (c :: line) (x :: shown) = .ok comment) ↔
      (beginsComment (c :: line) ∧ x = ' ') ∨ ∃ comment, trailingComment line shown = .ok comment := by
  rw [trailingComment, if_pos one, List.head?_cons, List.tail_cons]
  by_cases begins : beginsComment (c :: line) ∧ x = ' '
  · simp [begins.1, begins.2]
  · have noComment : (beginsComment (c :: line) && decide (some x = some ' ')) = false := by simpa using begins
    rw [noComment, if_neg Bool.false_ne_true]
    simp [begins]

theorem wideBeforeComment_cons (one : c.utf8Size = 1) (oneShown : x.utf8Size = 1) :
    WideBeforeComment (c :: line) (x :: shown) ↔
      ¬(beginsComment (c :: line) ∧ x = ' ') ∧ WideBeforeComment line shown := by
  have first : HasAt (x :: shown) 0 ' ' ↔ x = ' ' := by
    rw [hasAt_cons_iff, oneShown]
    exact ⟨fun either => either.elim And.right fun ⟨m, zero, _⟩ => by omega, fun same => Or.inl ⟨rfl, same⟩⟩
  have later (n : Nat) : HasAt (x :: shown) (n + 1) ' ' ↔ HasAt shown n ' ' := by
    rw [hasAt_cons_iff, oneShown]
    constructor
    · rintro (⟨zero, -⟩ | ⟨m, same, at'⟩)
      · cases zero
      · rwa [show n = m by omega]
    · exact fun at' => Or.inr ⟨n, by omega, at'⟩
  constructor
  · rintro ⟨n, d, at', wide, noComment⟩
    rcases hasAt_cons_iff.mp at' with ⟨-, rfl⟩ | ⟨m, rfl, further⟩
    · omega
    · rw [one] at noComment
      refine ⟨fun both => noComment 0 (by omega) ?_, m, d, further, wide, fun k before both => ?_⟩
      · rw [dropBytes_zero]
        exact ⟨both.1, first.mpr both.2⟩
      · refine noComment (k + 1) (by omega) ?_
        rw [dropBytes_succ one]
        exact ⟨both.1, (later k).mpr both.2⟩
  · rintro ⟨noneHere, n, d, at', wide, noComment⟩
    refine ⟨n + 1, d, hasAt_cons_iff.mpr (Or.inr ⟨n, by omega, at'⟩), wide, fun k before both => ?_⟩
    rcases k with _ | k
    · rw [dropBytes_zero] at both
      exact noneHere ⟨both.1, first.mp both.2⟩
    · rw [dropBytes_succ one] at both
      exact noComment k (by omega) ⟨both.1, (later k).mp both.2⟩

end

/-- The search fails if and only if it meets a longer character before it finds a comment. -/
theorem trailingComment_returns_iff {keep : Role → Bool} (items : List (Char × Role)) :
    (∃ comment, trailingComment (items.map Prod.fst) (items.flatMap (showOnly keep)) = .ok comment) ↔
      ¬WideBeforeComment (items.map Prod.fst) (items.flatMap (showOnly keep)) := by
  induction items with
  | nil =>
    refine ⟨?_, fun _ => ⟨none, rfl⟩⟩
    rintro - ⟨n, c, ⟨front, back, whole, -⟩, -⟩
    simp at whole
  | cons item items ih =>
    obtain ⟨c, role⟩ := item
    rw [List.map_cons, List.flatMap_cons]
    by_cases one : c.utf8Size = 1
    · have step (x : Char) (oneShown : x.utf8Size = 1) (shows : showOnly keep (c, role) = [x]) :
          (∃ comment, trailingComment (c :: items.map Prod.fst)
              (showOnly keep (c, role) ++ items.flatMap (showOnly keep)) = .ok comment) ↔
            ¬WideBeforeComment (c :: items.map Prod.fst) (showOnly keep (c, role) ++ items.flatMap (showOnly keep)) := by
        rw [shows, List.singleton_append, wideBeforeComment_cons one oneShown, trailingComment_cons one, ih,
          not_and_or, not_not]
      rcases showOnly_oneByte keep one role with shows | shows
      · exact step c one shows
      · exact step ' ' rfl shows
    · have positive := c.utf8Size_pos
      have noComment : beginsComment (c :: items.map Prod.fst) = false :=
        Bool.eq_false_iff.mpr fun begins => one (by rw [eq_slash_of_beginsComment begins]; rfl)
      rw [trailingComment, noComment, Bool.false_and, if_neg Bool.false_ne_true, if_neg one]
      refine iff_of_false (fun ⟨comment, found⟩ => by cases found) fun clear => clear ?_
      exact ⟨0, c, ⟨[], _, rfl, rfl⟩, by omega, fun k before => absurd before (Nat.not_lt_zero k)⟩

section

variable {t : Text} {start stop : Nat} (atStart : IsBoundary t start) (atStop : IsBoundary t stop)
  (inOrder : start ≤ stop)

include atStart atStop inOrder

/-- The characters of a part of a text with their roles. -/
theorem scannedSlice : ∃ earlier items later, scan t = earlier ++ items ++ later ∧
    items.map Prod.fst = slice start stop t ∧ byteSize (earlier.flatMap (showOnly (· ≠ .comment))) = start ∧
      items.flatMap (showOnly (· ≠ .comment)) = slice start stop (strip t) := by
  obtain ⟨front, back, whole, atFront, atBack⟩ := split_of_isBoundary atStart atStop inOrder
  have chars : (scan t).map Prod.fst = front ++ slice start stop t ++ back := (scan_map_fst t).trans whole
  obtain ⟨both, later, split, inBoth, -⟩ := List.map_eq_append_iff.mp chars
  obtain ⟨earlier, items, rfl, inFront, inLine⟩ := List.map_eq_append_iff.mp inBoth
  have sizeFront : byteSize (earlier.flatMap (showOnly (· ≠ .comment))) = start := by
    rw [byteSize_showOnly, inFront, atFront]
  have sizeLine : byteSize (items.flatMap (showOnly (· ≠ .comment))) = byteSize (slice start stop t) := by
    rw [byteSize_showOnly, inLine]
  have cut := slice_append (earlier.flatMap (showOnly (· ≠ .comment))) (items.flatMap (showOnly (· ≠ .comment)))
    (later.flatMap (showOnly (· ≠ .comment)))
  rw [sizeFront, sizeLine, atBack] at cut
  refine ⟨earlier, items, later, split, inLine, sizeFront, ?_⟩
  rw [strip, split, List.flatMap_append, List.flatMap_append, cut]

theorem commentFrom_slice :
    commentFrom (slice start stop t) (bytes (strip t)) start (List.range (byteSize (slice start stop t))) =
      trailingComment (slice start stop t) (slice start stop (strip t)) := by
  obtain ⟨earlier, items, later, split, inLine, size, shown⟩ := scannedSlice atStart atStop inOrder
  have search := commentFrom_eq (· ≠ .comment) (bytes (earlier.flatMap (showOnly (· ≠ .comment))))
    (bytes (later.flatMap (showOnly (· ≠ .comment)))) [] items
  rw [length_bytes, size, List.nil_append, List.map_nil, byteSize_nil, ← bytes_append, ← bytes_append,
    ← List.flatMap_append, ← List.flatMap_append, ← split, inLine, shown, ← List.range_eq_range'] at search
  exact search

theorem trailingComment_slice_returns_iff :
    (∃ comment, trailingComment (slice start stop t) (slice start stop (strip t)) = .ok comment) ↔
      ¬WideBeforeComment (slice start stop t) (slice start stop (strip t)) := by
  obtain ⟨earlier, items, later, -, inLine, -, shown⟩ := scannedSlice atStart atStop inOrder
  rw [← inLine, ← shown]
  exact trailingComment_returns_iff items

end

end SchemaDiagram
