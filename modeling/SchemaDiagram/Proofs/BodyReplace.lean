import SchemaDiagram.Proofs.PlainText

namespace SchemaDiagram

open Text

/-- Two offsets in front of the replaced text, or two behind it. -/
def SameSide (at' old start stop : Nat) : Prop :=
  start ≤ stop ∧ (stop < at' ∨ at' + old ≤ start)

theorem slice_front {front rest : Text} (ascii : ∀ c ∈ front ++ rest, isAscii c) {start stop : Nat}
    (inOrder : start ≤ stop) (inFront : stop ≤ front.length) :
    slice start stop (front ++ rest) = (front.take stop).drop start := by
  rw [slice_of_ascii ascii, List.take_drop, show start + (stop - start) = stop by omega,
    List.take_append_of_le_length inFront]

section

variable {t t' front body body' back : Text} (ascii : ∀ c ∈ front ++ (body ++ back), isAscii c)
  (ascii' : ∀ c ∈ front ++ (body' ++ back), isAscii c)

include ascii ascii'

/-- What does not touch the replaced text stays as it is. -/
theorem slice_replace {start stop : Nat} (side : SameSide front.length body.length start stop) :
    slice (moveOffset front.length body.length body'.length start)
        (moveOffset front.length body.length body'.length stop) (front ++ (body' ++ back)) =
      slice start stop (front ++ (body ++ back)) := by
  obtain ⟨inOrder, inFront | inBack⟩ := side
  · rw [moveOffset_front (by omega), moveOffset_front inFront, slice_front ascii inOrder (by omega),
      slice_front ascii' inOrder (by omega)]
  · obtain ⟨n, rfl⟩ := Nat.exists_eq_add_of_le inBack
    obtain ⟨m, rfl⟩ := Nat.exists_eq_add_of_le (Nat.le_trans inBack inOrder)
    have size {u : Text} (all : ∀ c ∈ front ++ (u ++ back), isAscii c) :
        front.length + u.length = byteSize (front ++ u) := by
      rw [byteSize_of_ascii fun c member => all c (by
        rw [← List.append_assoc]
        exact List.mem_append_left back member), List.length_append]
    rw [moveOffset_back, moveOffset_back, size ascii, size ascii', ← List.append_assoc, slice_shift,
      ← List.append_assoc, slice_shift]

theorem dropBytes_replace {start : Nat} (inBack : front.length + body.length ≤ start) :
    dropBytes (moveOffset front.length body.length body'.length start) (front ++ (body' ++ back)) =
      dropBytes start (front ++ (body ++ back)) := by
  obtain ⟨n, rfl⟩ := Nat.exists_eq_add_of_le inBack
  rw [moveOffset_back, dropBytes_of_ascii ascii, dropBytes_of_ascii ascii', ← List.append_assoc,
    ← List.append_assoc, ← List.length_append, ← List.length_append, ← List.drop_drop, ← List.drop_drop,
    List.drop_left, List.drop_left]

/-- Declarations that do not touch the replaced text are written as before. -/
theorem partsFrom_replace (ds : List Declaration) {offset : Nat}
    (sides : ∀ d ∈ ds, d.brace < d.stop ∧ d.start ≤ d.brace ∧
      (d.stop < front.length ∨ front.length + body.length ≤ d.start))
    (ordered : (ds.Pairwise fun d e => d.stop ≤ e.start))
    (before : ∀ d ∈ ds, SameSide front.length body.length offset d.start) :
    partsFrom (moveOffset front.length body.length body'.length offset) (front ++ (body' ++ back))
        (ds.map (·.move front.length body.length body'.length)) =
      partsFrom offset (front ++ (body ++ back)) ds := by
  induction ds generalizing offset with
  | nil => rfl
  | cons d ds ih =>
    obtain ⟨stop, brace, side⟩ := sides d List.mem_cons_self
    obtain ⟨first, rest⟩ := List.pairwise_cons.mp ordered
    obtain ⟨start, offsetSide⟩ := before d List.mem_cons_self
    have next : moveOffset front.length body.length body'.length d.brace + 1 =
        moveOffset front.length body.length body'.length (d.brace + 1) := by
      simp only [moveOffset]
      split <;> split <;> omega
    rw [List.map_cons, partsFrom, partsFrom]
    congr 1
    · simp only [Declaration.part, Declaration.body, Declaration.move, next, Option.isSome_map]
      rw [slice_replace ascii ascii' ⟨by omega, by omega⟩, slice_replace ascii ascii' ⟨by omega, by omega⟩]
    · exact ih (fun e member => sides e (List.mem_cons_of_mem d member)) rest fun e member => by
        have later := first e member
        obtain ⟨-, -, laterSide⟩ := sides e (List.mem_cons_of_mem d member)
        obtain ⟨-, offsetLater⟩ := before e (List.mem_cons_of_mem d member)
        exact ⟨later, by omega⟩

end

/-- A closed declaration with its place in the text. -/
structure ClosedAt (t : Text) (earlier : List Declaration) (d : Declaration) (later : List Declaration)
    (lead body back : Text) : Prop where
  split : outline t = earlier ++ d :: later
  cut : Cut t lead body back
  brace : d.brace = lead.length
  close : d.close = some (lead.length + 1 + body.length)
  stop : d.stop = lead.length + 1 + body.length

section

variable {t : Text} {earlier later : List Declaration} {d : Declaration} {lead body back body' : Text}

theorem IsPlainText.closedAt (plain : IsPlainText t) (split : outline t = earlier ++ d :: later)
    (closed : d.close.isSome) : ∃ lead body back, ClosedAt t earlier d later lead body back := by
  obtain ⟨close, atClose⟩ := Option.isSome_iff_exists.mp closed
  obtain ⟨lead, body, back, cut, brace, size, stop⟩ := plain.cut (d := d) (by simp [split]) atClose
  exact ⟨lead, body, back, split, cut, brace, by rw [atClose, size], by rw [stop, size]⟩

theorem ClosedAt.body_eq (at' : ClosedAt t earlier d later lead body back) (ascii : ∀ c ∈ t, isAscii c) :
    d.body t = body := by
  rw [Declaration.body, slice_of_ascii ascii, at'.brace, at'.stop, at'.cut.whole, Nat.add_sub_cancel_left,
    show lead ++ '{' :: (body ++ '}' :: back) = (lead ++ ['{']) ++ (body ++ '}' :: back) by simp,
    show lead.length + 1 = (lead ++ ['{']).length by simp, List.drop_left, List.take_left]

theorem ClosedAt.mask_body (at' : ClosedAt t earlier d later lead body back) (only : OnlyLineComments t) :
    d.body (mask t) = blankFrom false body := by
  rw [only.body_mask (by simp [at'.split]), at'.body_eq only.ascii]

theorem ClosedAt.isPlainBody (at' : ClosedAt t earlier d later lead body back) (plain : IsPlainText t) :
    IsPlainBody body where
  only := plain.only.of_infix ⟨lead ++ ['{'], '}' :: back, by simp [at'.cut.whole]⟩
  ends := at'.cut.bodyEnds
  noBrace := by
    rw [← at'.mask_body plain.only]
    exact plain.noBrace d (by simp [at'.split])

theorem ClosedAt.onlyLineComments (at' : ClosedAt t earlier d later lead body back) (plain : IsPlainText t)
    (plainBody' : IsPlainBody body') : OnlyLineComments (lead ++ '{' :: (body' ++ '}' :: back)) := by
  have part {u : Text} (inside : u <:+: t) := plain.only.of_infix inside
  have front : OnlyLineComments (lead ++ ['{']) := part ⟨[], body ++ '}' :: back, by simp [at'.cut.whole]⟩
  have rear : OnlyLineComments ('}' :: back) := part ⟨lead ++ '{' :: body, [], by simp [at'.cut.whole]⟩
  have inner := (front.append plainBody'.only (by simp)).append rear (by simp)
  simpa using inner

/-- The declarations of a text whose body is replaced, and how they lie around it. -/
theorem ClosedAt.outline_replace (at' : ClosedAt t earlier d later lead body back) (plain : IsPlainText t)
    (plainBody' : IsPlainBody body') :
    outline (lead ++ '{' :: (body' ++ '}' :: back)) =
      (outline t).map (·.move (lead ++ ['{']).length body.length body'.length) := by
  have cut' : Cut (lead ++ '{' :: (body' ++ '}' :: back)) lead body' back :=
    ⟨rfl, at'.cut.leadEnds, plainBody'.ends⟩
  have size {u : Text} (only : OnlyLineComments u) : byteSize (blankFrom false u) = u.length := by
    rw [byteSize_blankFrom only.ascii, byteSize_of_ascii only.ascii]
  have plainBody := at'.isPlainBody plain
  have leadOnly : OnlyLineComments lead :=
    plain.only.of_infix ⟨[], '{' :: (body ++ '}' :: back), by simp [at'.cut.whole]⟩
  have frontSize : byteSize (blankFrom false lead ++ ['{']) = (lead ++ ['{']).length := by
    rw [byteSize_append, size leadOnly, List.length_append]
    rfl
  have member : d ∈ outline t := by simp [at'.split]
  have brace : d.brace = byteSize (blankFrom false lead) := by rw [at'.brace, size leadOnly]
  have block {u : Text} (isBody : IsPlainBody u) : IsBlockBody (blankFrom false u) :=
    isBlockBody_of_no_brace isBody.noBrace.1 isBody.noBrace.2
  rw [outline, at'.cut.mask_eq plain.only] at member
  rw [outline, outline, at'.cut.mask_eq plain.only, cut'.mask_eq (at'.onlyLineComments plain plainBody'),
    declarationsFrom_exchange (block plainBody) (block plainBody') rfl member brace,
    frontSize, size plainBody.only, size plainBody'.only]

/-- Where the other declarations lie. -/
theorem ClosedAt.sides (at' : ClosedAt t earlier d later lead body back) :
    (∀ e ∈ earlier, e.brace < e.stop ∧ e.start ≤ e.brace ∧ e.stop < (lead ++ ['{']).length) ∧
      (∀ e ∈ later, e.brace < e.stop ∧ e.start ≤ e.brace ∧
        (lead ++ ['{']).length + body.length ≤ e.start) ∧
      (earlier.Pairwise fun d e => d.stop ≤ e.start) ∧ later.Pairwise fun d e => d.stop ≤ e.start := by
  obtain ⟨lies, -, ordered⟩ := outline_geometry t
  rw [at'.split] at lies ordered
  obtain ⟨orderedEarlier, orderedRest, across⟩ := List.pairwise_append.mp ordered
  obtain ⟨behind, orderedLater⟩ := List.pairwise_cons.mp orderedRest
  have size : (lead ++ ['{']).length = lead.length + 1 := by simp
  have here := lies d (by simp)
  have start := here.start_le_brace
  have brace := at'.brace
  have stop := at'.stop
  refine ⟨fun e member => ?_, fun e member => ?_, orderedEarlier.imp And.left, orderedLater.imp And.left⟩
  · have inFront := (across e member d List.mem_cons_self).1
    have there := lies e (by simp [member])
    exact ⟨there.brace_lt_stop, there.start_le_brace, by omega⟩
  · have inBack := (behind e member).1
    have there := lies e (by simp [member])
    exact ⟨there.brace_lt_stop, there.start_le_brace, by omega⟩

theorem stopAfter_map (move : Declaration → Declaration) (place : Nat → Nat)
    (moved : ∀ d, (move d).stop = place d.stop) (offset : Nat) (ds : List Declaration) :
    stopAfter (place offset) (ds.map move) = place (stopAfter offset ds) := by
  induction ds generalizing offset with
  | nil => rfl
  | cons d ds ih => rw [List.map_cons, stopAfter_cons, stopAfter_cons, moved, ih]

theorem ClosedAt.closedAt_replace (at' : ClosedAt t earlier d later lead body back) (plain : IsPlainText t)
    (plainBody' : IsPlainBody body') :
    ClosedAt (lead ++ '{' :: (body' ++ '}' :: back))
      (earlier.map (·.move (lead ++ ['{']).length body.length body'.length))
      (d.move (lead ++ ['{']).length body.length body'.length)
      (later.map (·.move (lead ++ ['{']).length body.length body'.length)) lead body' back where
  split := by rw [at'.outline_replace plain plainBody', at'.split, List.map_append, List.map_cons]
  cut := ⟨rfl, at'.cut.leadEnds, plainBody'.ends⟩
  brace := by
    simp only [Declaration.move, at'.brace]
    exact moveOffset_front (by simp)
  close := by
    have moved : moveOffset (lead ++ ['{']).length body.length body'.length
        ((lead ++ ['{']).length + body.length + 0) = (lead ++ ['{']).length + body'.length + 0 := moveOffset_back 0
    simp only [Nat.add_zero, List.length_append, List.length_singleton] at moved
    simp only [Declaration.move, at'.close, Option.map_some, List.length_append, List.length_singleton, moved]
  stop := by
    have moved : moveOffset (lead ++ ['{']).length body.length body'.length
        ((lead ++ ['{']).length + body.length + 0) = (lead ++ ['{']).length + body'.length + 0 := moveOffset_back 0
    simp only [Nat.add_zero, List.length_append, List.length_singleton] at moved
    simp only [Declaration.move, at'.stop, List.length_append, List.length_singleton, moved]

/-- No part but the replaced one has another body than before, masked or not. -/
theorem ClosedAt.body_move (at' : ClosedAt t earlier d later lead body back) (plain : IsPlainText t)
    (plainBody' : IsPlainBody body') {e : Declaration} (member : e ∈ earlier ∨ e ∈ later) :
    (e.move (lead ++ ['{']).length body.length body'.length).body
        (mask (lead ++ '{' :: (body' ++ '}' :: back))) = e.body (mask t) := by
  have only' := at'.onlyLineComments plain plainBody'
  obtain ⟨before, behind, -⟩ := at'.sides
  have side : e.brace < e.stop ∧ (e.stop < (lead ++ ['{']).length ∨
      (lead ++ ['{']).length + body.length ≤ e.brace) := by
    rcases member with inFront | inBack
    · obtain ⟨stop, -, side⟩ := before e inFront
      exact ⟨stop, Or.inl side⟩
    · obtain ⟨stop, start, side⟩ := behind e inBack
      exact ⟨stop, Or.inr (by omega)⟩
  have next : moveOffset (lead ++ ['{']).length body.length body'.length e.brace + 1 =
      moveOffset (lead ++ ['{']).length body.length body'.length (e.brace + 1) := by
    simp only [moveOffset]
    split <;> split <;> omega
  have masked := at'.cut.mask_eq plain.only
  have masked' := (at'.closedAt_replace plain plainBody').cut.mask_eq only'
  have ascii := plain.only.asciiMask
  have ascii' := only'.asciiMask
  rw [masked] at ascii
  rw [masked'] at ascii'
  have size : (blankFrom false lead ++ ['{']).length = (lead ++ ['{']).length := by
    simp [length_blankFrom]
  have replaced (side : SameSide _ _ (e.brace + 1) e.stop) := slice_replace ascii ascii' side
  rw [size, length_blankFrom, length_blankFrom] at replaced
  rw [Declaration.body, Declaration.body, masked, masked', ← replaced ⟨by omega, by omega⟩, ← next]
  rfl

theorem ClosedAt.isPlainText_replace (at' : ClosedAt t earlier d later lead body back) (plain : IsPlainText t)
    (plainBody' : IsPlainBody body') : IsPlainText (lead ++ '{' :: (body' ++ '}' :: back)) := by
  have only' := at'.onlyLineComments plain plainBody'
  have closedAt' := at'.closedAt_replace plain plainBody'
  refine ⟨only'.ascii, only'.noString, noBlock_of_isChain only'.noBlock, fun e member => ?_⟩
  rw [closedAt'.split] at member
  rcases List.mem_append.mp member with inFront | inBack
  · obtain ⟨e, inside, rfl⟩ := List.mem_map.mp inFront
    rw [at'.body_move plain plainBody' (Or.inl inside)]
    exact plain.noBrace e (by simp [at'.split, inside])
  · rcases List.mem_cons.mp inBack with rfl | inBack
    · rw [closedAt'.mask_body only']
      exact plainBody'.noBrace
    · obtain ⟨e, inside, rfl⟩ := List.mem_map.mp inBack
      rw [at'.body_move plain plainBody' (Or.inr inside)]
      exact plain.noBrace e (by simp [at'.split, inside])

theorem ClosedAt.stopAfter_earlier_lt (at' : ClosedAt t earlier d later lead body back) :
    stopAfter 0 earlier < (lead ++ ['{']).length := by
  rcases List.eq_nil_or_concat earlier with rfl | ⟨front, e, rfl⟩
  · simp [stopAfter]
  · rw [List.concat_eq_append, stopAfter_append_cons]
    exact (at'.sides.1 e (by simp)).2.2

theorem ClosedAt.le_stopAfter_later (at' : ClosedAt t earlier d later lead body back) :
    (lead ++ ['{']).length + body.length ≤ stopAfter d.stop later := by
  rcases List.eq_nil_or_concat later with rfl | ⟨front, e, rfl⟩
  · simp [stopAfter, at'.stop]
  · rw [List.concat_eq_append, stopAfter_append_cons]
    obtain ⟨stop, start, side⟩ := at'.sides.2.1 e (by simp)
    exact Nat.le_trans side (show e.start ≤ e.stop by omega)

section

variable (at' : ClosedAt t earlier d later lead body back)
  (ascii : ∀ c ∈ lead ++ ['{'] ++ (body ++ '}' :: back), isAscii c)
  (ascii' : ∀ c ∈ lead ++ ['{'] ++ (body' ++ '}' :: back), isAscii c)

include at' ascii ascii'

theorem ClosedAt.partsFrom_earlier :
    partsFrom 0 (lead ++ ['{'] ++ (body' ++ '}' :: back))
        (earlier.map (·.move (lead ++ ['{']).length body.length body'.length)) =
      partsFrom 0 (lead ++ ['{'] ++ (body ++ '}' :: back)) earlier := by
  obtain ⟨before, -, ordered, -⟩ := at'.sides
  have inFront : ∀ e ∈ earlier, SameSide (lead ++ ['{']).length body.length 0 e.start := fun e member => by
    obtain ⟨stop, start, side⟩ := before e member
    exact ⟨Nat.zero_le _, by omega⟩
  have kept := partsFrom_replace ascii ascii' earlier
    (fun e member => ⟨(before e member).1, (before e member).2.1, Or.inl (before e member).2.2⟩) ordered inFront
  rwa [moveOffset_front (by simp)] at kept

theorem ClosedAt.partsFrom_later :
    partsFrom (d.move (lead ++ ['{']).length body.length body'.length).stop (lead ++ ['{'] ++ (body' ++ '}' :: back))
        (later.map (·.move (lead ++ ['{']).length body.length body'.length)) =
      partsFrom d.stop (lead ++ ['{'] ++ (body ++ '}' :: back)) later := by
  obtain ⟨-, behind, -, ordered⟩ := at'.sides
  have stop : d.stop = (lead ++ ['{']).length + body.length := by simp [at'.stop]
  have inBack : ∀ e ∈ later, SameSide (lead ++ ['{']).length body.length d.stop e.start :=
    fun e member => ⟨stop ▸ (behind e member).2.2, Or.inr (Nat.le_of_eq stop.symm)⟩
  exact partsFrom_replace ascii ascii' later
    (fun e member => ⟨(behind e member).1, (behind e member).2.1, Or.inr (behind e member).2.2⟩) ordered inBack

end

theorem ClosedAt.afterParts_replace (at' : ClosedAt t earlier d later lead body back) (plain : IsPlainText t)
    (plainBody' : IsPlainBody body') : afterParts (lead ++ '{' :: (body' ++ '}' :: back)) = afterParts t := by
  have closedAt' := at'.closedAt_replace plain plainBody'
  have ascii := plain.ascii
  have ascii' := (at'.onlyLineComments plain plainBody').ascii
  have whole : t = lead ++ ['{'] ++ (body ++ '}' :: back) := by simp [at'.cut.whole]
  have whole' : lead ++ '{' :: (body' ++ '}' :: back) = lead ++ ['{'] ++ (body' ++ '}' :: back) := by simp
  rw [whole] at ascii
  rw [whole'] at ascii'
  rw [afterParts, afterParts, at'.split, closedAt'.split, stopAfter_append_cons, stopAfter_append_cons]
  simp only [Declaration.move]
  rw [stopAfter_map _ _ (fun _ => rfl), whole', dropBytes_replace ascii ascii' at'.le_stopAfter_later, ← whole]

/-- The part that the replaced body is in has the new one in its place. -/
theorem ClosedAt.parts_replace (at' : ClosedAt t earlier d later lead body back) (plain : IsPlainText t)
    (plainBody' : IsPlainBody body') :
    parts (lead ++ '{' :: (body' ++ '}' :: back)) =
      partsFrom 0 t earlier ++ { d.part (stopAfter 0 earlier) t with body := body' } :: partsFrom d.stop t later := by
  have closedAt' := at'.closedAt_replace plain plainBody'
  have bodyEq := closedAt'.body_eq (at'.onlyLineComments plain plainBody').ascii
  have ascii := plain.ascii
  have ascii' := (at'.onlyLineComments plain plainBody').ascii
  have whole : t = lead ++ ['{'] ++ (body ++ '}' :: back) := by simp [at'.cut.whole]
  have whole' : lead ++ '{' :: (body' ++ '}' :: back) = lead ++ ['{'] ++ (body' ++ '}' :: back) := by simp
  rw [whole] at ascii
  rw [whole'] at ascii' bodyEq
  have lastStop := at'.stopAfter_earlier_lt
  have first : moveOffset (lead ++ ['{']).length body.length body'.length 0 = 0 := moveOffset_front (by simp)
  have offset := stopAfter_map (·.move (lead ++ ['{']).length body.length body'.length)
    (moveOffset (lead ++ ['{']).length body.length body'.length) (fun _ => rfl) 0 earlier
  rw [first, moveOffset_front lastStop] at offset
  have frontSize : lead.length + 1 = (lead ++ ['{']).length := by simp
  have part : (d.move (lead ++ ['{']).length body.length body'.length).part (stopAfter 0 earlier)
        (lead ++ ['{'] ++ (body' ++ '}' :: back)) =
      { d.part (stopAfter 0 earlier) (lead ++ ['{'] ++ (body ++ '}' :: back)) with body := body' } := by
    rw [Declaration.part, Declaration.part, bodyEq, closedAt'.brace, at'.brace,
      slice_front ascii' (by omega) (by omega), slice_front ascii (by omega) (by omega)]
    simp only [Declaration.move, Option.isSome_map]
  rw [parts, closedAt'.split, partsFrom_append_cons, whole', at'.partsFrom_earlier ascii ascii', offset, part,
    at'.partsFrom_later ascii ascii', ← whole]

/-- Whatever stands in a body can be replaced, and the text is plain still. All its other parts are as they
were. -/
theorem ClosedAt.replace (at' : ClosedAt t earlier d later lead body back) (plain : IsPlainText t)
    (plainBody' : IsPlainBody body') :
    IsPlainText (lead ++ '{' :: (body' ++ '}' :: back)) ∧
      afterParts (lead ++ '{' :: (body' ++ '}' :: back)) = afterParts t ∧
      ∃ offset, parts t = partsFrom 0 t earlier ++ d.part offset t :: partsFrom d.stop t later ∧
        parts (lead ++ '{' :: (body' ++ '}' :: back)) =
          partsFrom 0 t earlier ++ { d.part offset t with body := body' } :: partsFrom d.stop t later := by
  refine ⟨at'.isPlainText_replace plain plainBody', at'.afterParts_replace plain plainBody', stopAfter 0 earlier, ?_,
    at'.parts_replace plain plainBody'⟩
  rw [parts, at'.split, partsFrom_append_cons]

end

end SchemaDiagram
