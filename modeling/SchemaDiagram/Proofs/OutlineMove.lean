import SchemaDiagram.Proofs.OutlineAppend

namespace SchemaDiagram

open Text

theorem headersFrom_append_opening (atLineStart : Bool) (offset : Nat) (u rest : Text) :
    headersFrom atLineStart offset (u ++ '{' :: rest) =
      headersFrom atLineStart offset (u ++ ['{']) ++ headersFrom false (offset + byteSize u + 1) rest :=
  (isParted_of_brace (Or.inl rfl) u rest).headersFrom_append atLineStart offset

theorem headersFrom_append_closing (atLineStart : Bool) (offset : Nat) (u rest : Text) :
    headersFrom atLineStart offset (u ++ '}' :: rest) =
      headersFrom atLineStart offset (u ++ ['}']) ++ headersFrom false (offset + byteSize u + 1) rest :=
  (isParted_of_brace (Or.inr rfl) u rest).headersFrom_append atLineStart offset

theorem headersFrom_eq_nil {t : Text} (noBrace : '{' ∉ t) (atLineStart : Bool) (offset : Nat) :
    headersFrom atLineStart offset t = [] := by
  refine List.eq_nil_iff_forall_not_mem.mpr fun h member => ?_
  obtain ⟨before, line, rfl, read, -⟩ := mem_headersFrom member
  obtain ⟨lead, rest, rfl, -⟩ := Header.read?_eq_some_iff.mp read
  exact noBrace (by simp)

/-- In front of a closing brace there are no headers but those with their own brace there. -/
theorem headersFrom_no_opening {u : Text} (none : '{' ∉ u) (atLineStart : Bool) (offset : Nat) (rest : Text) :
    headersFrom atLineStart offset (u ++ '}' :: rest) = headersFrom false (offset + byteSize u + 1) rest := by
  have unread (start : Nat) {v : Text} (without : '{' ∉ v) : Header.read? start (v ++ '}' :: rest) = .none := by
    cases read : Header.read? start (v ++ '}' :: rest) with
    | none => rfl
    | some h =>
      rw [Header.read?_append_closing] at read
      obtain ⟨lead, tail, whole, -⟩ := Header.read?_eq_some_iff.mp read
      have member : '{' ∈ v ++ ['}'] := by simp [whole]
      simp [without] at member
  induction u generalizing atLineStart offset with
  | nil =>
    have here := unread offset none
    rw [List.nil_append] at here ⊢
    rw [headersFrom_cons, here, ite_self]
    rfl
  | cons c u ih =>
    have here := unread offset none
    rw [List.cons_append] at here ⊢
    rw [headersFrom_cons, here, ite_self, ih (fun member => none (List.mem_cons_of_mem c member)),
      byteSize_cons, Nat.add_assoc offset]
    rfl

/-- Where an offset goes when the `old` bytes from `at'` on are replaced by `new` ones. -/
def moveOffset (at' old new n : Nat) : Nat := if n < at' then n else n - old + new

/-- An offset that is not inside of the bytes that are replaced. -/
def KeepsPlace (at' old n : Nat) : Prop := n < at' ∨ at' + old ≤ n

def Header.move (at' old new : Nat) (h : Header) : Header :=
  { h with start := moveOffset at' old new h.start, brace := moveOffset at' old new h.brace }

def Declaration.move (at' old new : Nat) (d : Declaration) : Declaration :=
  { d with
    start := moveOffset at' old new d.start
    brace := moveOffset at' old new d.brace
    close := d.close.map (moveOffset at' old new)
    stop := moveOffset at' old new d.stop }

section

variable {at' old new : Nat}

theorem moveOffset_front {n : Nat} (front : n < at') : moveOffset at' old new n = n := if_pos front

theorem moveOffset_back (n : Nat) : moveOffset at' old new (at' + old + n) = at' + new + n := by
  rw [moveOffset, if_neg (by omega)]
  omega

theorem moveOffset_le_iff {n m : Nat} (left : KeepsPlace at' old n) (right : KeepsPlace at' old m) :
    moveOffset at' old new n ≤ moveOffset at' old new m ↔ n ≤ m := by
  simp only [KeepsPlace] at left right
  simp only [moveOffset]
  split <;> split <;> omega

/-- What is declared moves with the braces of its header. -/
theorem declarationsFrom_move {t t' : Text} {hs : List Header} {resume resume' : Nat}
    (size : byteSize t' = moveOffset at' old new (byteSize t))
    (starts : ∀ h ∈ hs, KeepsPlace at' old h.start)
    (braces : ∀ h ∈ hs, KeepsPlace at' old h.brace)
    (ends : ∀ h ∈ hs, blockEnd t' (moveOffset at' old new h.brace) =
        (blockEnd t h.brace).map (moveOffset at' old new) ∧
      ∀ c, blockEnd t h.brace = some c → KeepsPlace at' old c)
    (resumes : ∀ h ∈ hs, moveOffset at' old new h.start < resume' ↔ h.start < resume) :
    declarationsFrom t' resume' (hs.map (·.move at' old new)) =
      (declarationsFrom t resume hs).map (·.move at' old new) := by
  induction hs generalizing resume resume' with
  | nil => rfl
  | cons h later ih =>
    have onLater {p : Header → Prop} (all : ∀ g ∈ h :: later, p g) : ∀ g ∈ later, p g :=
      fun g member => all g (List.mem_cons_of_mem h member)
    have rest {resume resume' : Nat}
        (resumes : ∀ g ∈ later, moveOffset at' old new g.start < resume' ↔ g.start < resume) :=
      ih (onLater starts) (onLater braces) (onLater ends) resumes
    obtain ⟨moved, places⟩ := ends h List.mem_cons_self
    have here : (h.move at' old new).start < resume' ↔ h.start < resume := resumes h List.mem_cons_self
    rw [List.map_cons, declarationsFrom_cons, declarationsFrom_cons]
    by_cases skipped : h.start < resume
    · rw [if_pos skipped, if_pos (here.mpr skipped)]
      exact rest (onLater resumes)
    · rw [if_neg skipped, if_neg (fun before => skipped (here.mp before)), List.map_cons]
      have closing : KeepsPlace at' old ((blockEnd t h.brace).getD h.brace) ∧
          (blockEnd t' (h.move at' old new).brace).getD (h.move at' old new).brace =
            moveOffset at' old new ((blockEnd t h.brace).getD h.brace) := by
        simp only [Header.move, moved]
        cases found : blockEnd t h.brace with
        | none => exact ⟨braces h List.mem_cons_self, rfl⟩
        | some c => exact ⟨places c found, rfl⟩
      have resumed : ∀ g ∈ later, moveOffset at' old new g.start <
          (blockEnd t' (h.move at' old new).brace).getD (h.move at' old new).brace + 1 ↔
            g.start < (blockEnd t h.brace).getD h.brace + 1 := fun g member => by
        rw [closing.2, Nat.lt_succ_iff, Nat.lt_succ_iff,
          moveOffset_le_iff (starts g (List.mem_cons_of_mem h member)) closing.1]
      rw [rest resumed]
      congr 1
      simp only [Header.declaration, Declaration.move, Header.move, moved]
      cases blockEnd t h.brace with
      | some c => rfl
      | none => cases later <;> simp [size]

/-- What can stand between the braces of a closed block: it leaves the block open, and its own braces pair up. -/
structure IsBlockBody (u : Text) : Prop where
  stays : StaysOpen '{' '}' 1 u
  balance : u.count '{' = u.count '}'

theorem isBlockBody_of_no_brace {u : Text} (noOpening : '{' ∉ u) (noClosing : '}' ∉ u) : IsBlockBody u :=
  ⟨staysOpen_of_not_mem Nat.one_pos noClosing, by rw [List.count_eq_zero.mpr noOpening, List.count_eq_zero.mpr noClosing]⟩

/-- The search for a closing brace passes over the body of a block. -/
theorem IsBlockBody.closingFrom_append {u : Text} (block : IsBlockBody u) {depth : Nat} (inside : 0 < depth)
    (offset : Nat) (rest : Text) :
    closingFrom depth offset (u ++ rest) = closingFrom depth (offset + byteSize u) rest := by
  have level : depth + u.count '{' - u.count '}' = depth := by
    rw [block.balance, Nat.add_sub_cancel]
  rw [SchemaDiagram.closingFrom_append (block.stays.mono inside), level]

theorem InOrder.brace_ne {earlier tail : List Header} {h : Header} (ordered : InOrder (earlier ++ h :: tail)) :
    ∀ g ∈ earlier ++ tail, g.brace ≠ h.brace := by
  obtain ⟨within, apart⟩ := ordered
  obtain ⟨-, rest, across⟩ := List.pairwise_append.mp apart
  intro g member
  rcases List.mem_append.mp member with before | behind
  · have order := across g before h List.mem_cons_self
    have here := within h (by simp)
    omega
  · have order := (List.pairwise_cons.mp rest).1 g behind
    have there := within g (by simp [behind])
    omega

/-- Once a closed declaration is taken, it does not matter which headers stand inside of it. -/
theorem declarationsFrom_congr_behind {t : Text} {resume close : Nat} {earlier tail tail' : List Header} {h : Header}
    {d : Declaration} (closed : blockEnd t h.brace = some close)
    (behind : declarationsFrom t (close + 1) tail' = declarationsFrom t (close + 1) tail)
    (braces : ∀ g ∈ earlier ++ tail, g.brace ≠ h.brace)
    (member : d ∈ declarationsFrom t resume (earlier ++ h :: tail)) (brace : d.brace = h.brace) :
    declarationsFrom t resume (earlier ++ h :: tail') = declarationsFrom t resume (earlier ++ h :: tail) := by
  induction earlier generalizing resume with
  | nil =>
    rw [List.nil_append, declarationsFrom_cons] at member ⊢
    rw [List.nil_append, declarationsFrom_cons]
    by_cases skipped : h.start < resume
    · rw [if_pos skipped] at member
      obtain ⟨front, g, rest, rfl, rfl⟩ := mem_declarationsFrom member
      exact absurd brace (braces g (by simp))
    · have same : h.declaration t tail' = h.declaration t tail := by
        simp only [Header.declaration, closed, Option.getD_some]
      rw [if_neg skipped, if_neg skipped, same, closed, Option.getD_some, behind]
  | cons g earlier ih =>
    obtain ⟨other, rest⟩ := List.forall_mem_cons.mp braces
    rw [List.cons_append, declarationsFrom_cons] at member ⊢
    rw [List.cons_append, declarationsFrom_cons]
    by_cases skipped : g.start < resume
    · rw [if_pos skipped] at member ⊢
      rw [if_pos skipped, ih rest member]
    · rw [if_neg skipped] at member ⊢
      have next : (earlier ++ h :: tail').head? = (earlier ++ h :: tail).head? := by cases earlier <;> rfl
      have same : g.declaration t (earlier ++ h :: tail') = g.declaration t (earlier ++ h :: tail) := by
        simp only [Header.declaration, next]
      rcases List.mem_cons.mp member with rfl | later
      · exact absurd brace other
      · rw [if_neg skipped, same, ih rest later]

variable {front body body' back : Text}

theorem blockEnd_move_back (n : Nat) :
    blockEnd (front ++ (body' ++ back)) (byteSize front + byteSize body' + n) =
        (blockEnd (front ++ (body ++ back)) (byteSize front + byteSize body + n)).map
          (moveOffset (byteSize front) (byteSize body) (byteSize body')) ∧
      ∀ c, blockEnd (front ++ (body ++ back)) (byteSize front + byteSize body + n) = some c →
        KeepsPlace (byteSize front) (byteSize body) c := by
  rw [← List.append_assoc, ← List.append_assoc, ← byteSize_append, ← byteSize_append, blockEnd_shift,
    blockEnd_shift, Option.map_map, byteSize_append, byteSize_append]
  constructor
  · congr 1
    funext m
    exact (moveOffset_back m).symm
  · intro c found
    obtain ⟨m, -, rfl⟩ := Option.map_eq_some_iff.mp found
    exact Or.inr (Nat.le_add_right _ m)

/-- The headers in front of the body of a block and behind it, without those inside of it. -/
def outerHeaders (front u back : Text) : List Header :=
  headers front ++ (headersFrom false 1 back).map (·.shift (byteSize front + byteSize u))

section

variable {lead u : Text} (opened : front = lead ++ ['{'])

include opened

theorem byteSize_opened : byteSize front = byteSize lead + 1 := by
  rw [opened, byteSize_append]
  rfl

theorem blockEnd_opened (isBlock : IsBlockBody u) :
    blockEnd (front ++ (u ++ '}' :: back)) (byteSize lead) = some (byteSize front + byteSize u) := by
  rw [opened, List.append_assoc, List.singleton_append, blockEnd_eq_some isBlock.stays isBlock.balance, ← opened,
    byteSize_opened opened]

theorem headers_around (u back : Text) :
    ∃ inner, headers (front ++ (u ++ '}' :: back)) =
        headers front ++ (inner ++ (headersFrom false 1 back).map (·.shift (byteSize front + byteSize u))) ∧
      ∀ h ∈ inner, byteSize front ≤ h.start ∧ h.start < byteSize front + byteSize u + 1 := by
  refine ⟨headersFrom false (byteSize front) (u ++ ['}']), ?_, ?_⟩
  · have size : byteSize front = 0 + byteSize lead + 1 := by
      rw [byteSize_opened opened, Nat.zero_add]
    rw [← headersFrom_shift, ← headersFrom_append_closing, headers, headers, size, opened, List.append_assoc,
      List.singleton_append, headersFrom_append_opening]
  · intro h member
    obtain ⟨behind, below, inText⟩ := Header.start_lt_brace member
    have one : byteSize ['}'] = 1 := rfl
    rw [byteSize_append, one] at inText
    exact ⟨behind, by omega⟩

/-- The header of the brace that a text ends with is its last one. -/
theorem headers_opened {h : Header} (found : h ∈ headers front) (brace : h.brace = byteSize lead) :
    ∃ earlier, headers front = earlier ++ [h] := by
  obtain ⟨earlier, later, split⟩ := List.append_of_mem found
  rcases later with _ | ⟨g, later⟩
  · exact ⟨earlier, split⟩
  · have ordered := (headers_inOrder front).2
    rw [split] at ordered
    have behind := (List.pairwise_cons.mp (List.pairwise_append.mp ordered).2.1).1 g List.mem_cons_self
    have inFront : g ∈ headers front := by simp [split]
    obtain ⟨-, below, inText⟩ := Header.start_lt_brace inFront
    have size := byteSize_opened opened
    omega

theorem header_of_declaration {d : Declaration}
    (member : d ∈ declarationsFrom (front ++ (u ++ '}' :: back)) 0 (headers (front ++ (u ++ '}' :: back))))
    (brace : d.brace = byteSize lead) : ∃ h ∈ headers front, h.brace = byteSize lead := by
  obtain ⟨earlier, h, rest, split, rfl⟩ := mem_declarationsFrom member
  have inText : h ∈ headers (front ++ (u ++ '}' :: back)) := by simp [split]
  have order := (headers_inOrder _).1 h inText
  have here : h.brace = byteSize lead := brace
  have size := byteSize_opened opened
  obtain ⟨inner, around, inside⟩ := headers_around opened u back
  rw [around] at inText
  rcases List.mem_append.mp inText with inFront | rest
  · exact ⟨h, inFront, brace⟩
  rcases List.mem_append.mp rest with inBody | behind
  · have start := (inside h inBody).1
    omega
  · obtain ⟨k, -, rfl⟩ := List.mem_map.mp behind
    simp only [Header.shift] at order here
    omega

/-- The headers inside of a declaration declare nothing. -/
theorem declarationsFrom_outer (isBlock : IsBlockBody u) {h : Header} (found : h ∈ headers front)
    (atBrace : h.brace = byteSize lead) {d : Declaration} (brace : d.brace = byteSize lead)
    (member : d ∈ declarationsFrom (front ++ (u ++ '}' :: back)) 0 (headers (front ++ (u ++ '}' :: back))) ∨
      d ∈ declarationsFrom (front ++ (u ++ '}' :: back)) 0 (outerHeaders front u back)) :
    declarationsFrom (front ++ (u ++ '}' :: back)) 0 (headers (front ++ (u ++ '}' :: back))) =
      declarationsFrom (front ++ (u ++ '}' :: back)) 0 (outerHeaders front u back) := by
  obtain ⟨inner, around, inside⟩ := headers_around opened u back
  obtain ⟨earlier, atEnd⟩ := headers_opened opened found atBrace
  have closed : blockEnd (front ++ (u ++ '}' :: back)) h.brace = some (byteSize front + byteSize u) :=
    atBrace ▸ blockEnd_opened opened isBlock
  have ordered := headers_inOrder (front ++ (u ++ '}' :: back))
  rw [around, atEnd, ← List.append_cons] at ordered member ⊢
  rw [outerHeaders, atEnd, ← List.append_cons] at member ⊢
  have skipped : declarationsFrom (front ++ (u ++ '}' :: back)) (byteSize front + byteSize u + 1)
      (inner ++ (headersFrom false 1 back).map (·.shift (byteSize front + byteSize u))) =
        declarationsFrom (front ++ (u ++ '}' :: back)) (byteSize front + byteSize u + 1)
          ((headersFrom false 1 back).map (·.shift (byteSize front + byteSize u))) :=
    declarationsFrom_skip fun g found => (inside g found).2
  have apart := ordered.brace_ne
  rcases member with whole | outer
  · exact (declarationsFrom_congr_behind closed skipped.symm apart whole (brace.trans atBrace.symm)).symm
  · refine declarationsFrom_congr_behind closed skipped (fun g member => apart g ?_) outer (brace.trans atBrace.symm)
    exact (List.mem_append.mp member).elim (List.mem_append_left _)
      fun behind => List.mem_append_right _ (List.mem_append_right _ behind)

end

theorem outerHeaders_move (front body body' back : Text) :
    (outerHeaders front body back).map (·.move (byteSize front) (byteSize body) (byteSize body')) =
        outerHeaders front body' back ∧
      ∀ g ∈ outerHeaders front body back,
        (g ∈ headers front ∧ g.brace < byteSize front ∧ g.start < byteSize front) ∨
          ∃ n m, g.start = byteSize front + byteSize body + n ∧ g.brace = byteSize front + byteSize body + m := by
  have inFront : ∀ g ∈ headers front, g.brace < byteSize front ∧ g.start < byteSize front := by
    intro g found
    obtain ⟨-, below, inText⟩ := Header.start_lt_brace found
    omega
  constructor
  · rw [outerHeaders, outerHeaders, List.map_append, List.map_map]
    congr 1
    · refine (List.map_congr_left fun g found => ?_).trans (List.map_id _)
      obtain ⟨brace, start⟩ := inFront g found
      simp only [Header.move, moveOffset_front brace, moveOffset_front start, id]
    · refine List.map_congr_left fun g found => ?_
      simp only [Function.comp, Header.move, Header.shift, moveOffset_back]
  · intro g found
    rcases List.mem_append.mp found with before | behind
    · exact Or.inl ⟨before, inFront g before⟩
    · obtain ⟨k, -, rfl⟩ := List.mem_map.mp behind
      exact Or.inr ⟨_, _, rfl, rfl⟩

variable (block : IsBlockBody body) (block' : IsBlockBody body')

include block block'

/-- The search for a closing brace passes over the body of a block, whatever it is. -/
theorem closingFrom_move {depth : Nat} (inside : 0 < depth) {offset : Nat} (part : Text)
    (before : offset + byteSize part = at') :
    closingFrom depth offset (part ++ (body' ++ back)) =
        (closingFrom depth offset (part ++ (body ++ back))).map
          (moveOffset at' (byteSize body) (byteSize body')) ∧
      ∀ c, closingFrom depth offset (part ++ (body ++ back)) = some c → KeepsPlace at' (byteSize body) c := by
  induction part generalizing depth offset with
  | nil =>
    obtain rfl : offset = at' := before
    rw [List.nil_append, List.nil_append, block.closingFrom_append inside, block'.closingFrom_append inside]
    have behind (n : Nat) := closingFrom_shift (offset + n) depth 0 back
    simp only [Nat.add_zero] at behind
    rw [behind, behind, Option.map_map]
    constructor
    · congr 1
      funext n
      exact (moveOffset_back n).symm
    · intro c found
      obtain ⟨n, -, rfl⟩ := Option.map_eq_some_iff.mp found
      exact Or.inr (Nat.le_add_right _ n)
  | cons c part ih =>
    rw [byteSize_cons] at before
    have positive := c.utf8Size_pos
    have next {depth : Nat} (inside : 0 < depth) (size : Nat) (same : size = c.utf8Size) :=
      have left : offset + size + byteSize part = at' := by omega
      ih inside left
    rw [List.cons_append, List.cons_append, closingFrom.eq_def, closingFrom.eq_def]
    simp only
    split
    case isTrue opening => exact next (Nat.succ_pos depth) 1 (by subst opening; rfl)
    split
    case isTrue closing =>
      match depth with
      | 1 =>
        have inFront : offset < at' := by omega
        exact ⟨by simp [moveOffset_front inFront], fun _ found => Or.inl (Option.some.inj found ▸ inFront)⟩
      | inner + 2 => exact next (Nat.succ_pos inner) 1 (by subst closing; rfl)
    case isFalse => exact next inside _ rfl

theorem blockEnd_move_front {brace : Nat} {u v : Text} (whole : front = u ++ '{' :: v)
    (atBrace : brace = byteSize u) :
    blockEnd (front ++ (body' ++ back)) brace =
        (blockEnd (front ++ (body ++ back)) brace).map
          (moveOffset (byteSize front) (byteSize body) (byteSize body')) ∧
      ∀ c, blockEnd (front ++ (body ++ back)) brace = some c →
        KeepsPlace (byteSize front) (byteSize body) c := by
  subst whole atBrace
  rw [List.append_assoc, List.append_assoc, List.cons_append, List.cons_append, blockEnd_opening,
    blockEnd_opening]
  exact closingFrom_move block block' Nat.one_pos v (by
    rw [byteSize_append, byteSize_cons]
    have brace : '{'.utf8Size = 1 := rfl
    omega)

/-- The body of a declaration can be exchanged for any other one with braces that pair up: what is declared around it
stays declared, at the places that it moves to. -/
theorem declarationsFrom_exchange {lead : Text} (opened : front = lead ++ ['{']) {d : Declaration}
    (member : d ∈ declarationsFrom (front ++ (body ++ '}' :: back)) 0 (headers (front ++ (body ++ '}' :: back))))
    (brace : d.brace = byteSize lead) :
    declarationsFrom (front ++ (body' ++ '}' :: back)) 0 (headers (front ++ (body' ++ '}' :: back))) =
      (declarationsFrom (front ++ (body ++ '}' :: back)) 0 (headers (front ++ (body ++ '}' :: back)))).map
        (·.move (byteSize front) (byteSize body) (byteSize body')) := by
  obtain ⟨moved, places⟩ := outerHeaders_move front body body' back
  have outer : declarationsFrom (front ++ (body' ++ '}' :: back)) 0 (outerHeaders front body' back) =
      (declarationsFrom (front ++ (body ++ '}' :: back)) 0 (outerHeaders front body back)).map
        (·.move (byteSize front) (byteSize body) (byteSize body')) := by
    rw [← moved]
    refine declarationsFrom_move ?_ ?_ ?_ ?_ fun g _ => by simp only [Nat.not_lt_zero]
    · simp only [byteSize_append]
      rw [← Nat.add_assoc, ← Nat.add_assoc, moveOffset_back]
    · intro g found
      rcases places g found with ⟨-, -, start⟩ | ⟨n, m, start, -⟩
      · exact Or.inl start
      · exact Or.inr (by omega)
    · intro g found
      rcases places g found with ⟨-, brace, -⟩ | ⟨n, m, -, brace⟩
      · exact Or.inl brace
      · exact Or.inr (by omega)
    · intro g found
      rcases places g found with ⟨inFront, brace, -⟩ | ⟨n, m, -, brace⟩
      · obtain ⟨u, v, whole, atBrace⟩ := brace_of_mem_headers inFront
        rw [moveOffset_front brace]
        exact blockEnd_move_front block block' whole atBrace
      · rw [brace, moveOffset_back]
        exact blockEnd_move_back m
  obtain ⟨h, found, atBrace⟩ := header_of_declaration opened member brace
  have same := declarationsFrom_outer opened block found atBrace brace (Or.inl member)
  -- the declaration itself has moved, so that the headers inside of the new body are inside of it
  have stays : (d.move (byteSize front) (byteSize body) (byteSize body')).brace = byteSize lead := by
    have size := byteSize_opened opened
    rw [← brace]
    exact moveOffset_front (by omega)
  have taken : d.move (byteSize front) (byteSize body) (byteSize body') ∈
      declarationsFrom (front ++ (body' ++ '}' :: back)) 0 (outerHeaders front body' back) := by
    rw [outer, ← same]
    exact List.mem_map_of_mem member
  rw [declarationsFrom_outer opened block' found atBrace stays (Or.inr taken), outer, same]

end

end SchemaDiagram
