import Mathlib.Data.List.Nodup
import SchemaDiagram.Proofs.ModelRows
import SchemaDiagram.Proofs.ScanCuts
import SchemaDiagram.Proofs.TrailingBlanks

namespace SchemaDiagram

open Text

/-- A document with one of its models changed. -/
def Document.changeModel (d : Document) (name : Text) (change : Model → Model) : Document :=
  { d with models := d.models.map fun m => if m.name = name then change m else m }

theorem Document.changeModel_id (d : Document) (name : Text) : d.changeModel name id = d := by
  simp [Document.changeModel]

/-- The scanned text around and between the braces of a closed declaration. -/
structure BodyAt (t : Text) (d : Declaration) (front body back : List (Char × Role)) : Prop where
  scanned : scan t = front ++ ('{', .code) :: (body ++ ('}', .code) :: back)
  brace : d.brace = byteSize (written front)
  close : d.close = some (byteSize (written front) + 1 + byteSize (written body))
  stop : d.stop = byteSize (written front) + 1 + byteSize (written body)
  block : IsBlockBody (masked body)

theorem code_split {items : List (Char × Role)} {before after : Text} {c : Char} (noSpace : c ≠ ' ') (inLine : c ≠ '\n')
    (shown : masked items = before ++ c :: after) :
    ∃ earlier later, items = earlier ++ (c, .code) :: later ∧ before = masked earlier ∧ after = masked later := by
  obtain ⟨earlier, role, later, rfl, rfl, kept⟩ := showOnly_split noSpace shown
  obtain rfl : role = .code := by simpa using kept.resolve_right inLine
  refine ⟨earlier, later, rfl, rfl, ?_⟩
  rw [masked_append] at shown
  exact ((List.cons_eq_cons.mp (List.append_cancel_left shown)).2).symm

/-- A closed declaration stands in its text with both braces in code. -/
theorem Declaration.bodyAt {t : Text} {d : Declaration} (member : d ∈ outline t) (closed : d.close.isSome) :
    ∃ front body back, BodyAt t d front body back := by
  have lies := Declaration.liesIn member
  obtain ⟨close, atClose⟩ := Option.isSome_iff_exists.mp closed
  obtain ⟨stop, ⟨before, after, whole, atStop⟩, bracketed⟩ := lies.closed close atClose
  obtain ⟨front, rest, opened, atBrace⟩ := lies.opens
  have behind : byteSize front < byteSize before := by
    have order := lies.brace_lt_stop
    omega
  obtain ⟨part, rfl, rfl⟩ := closing_behind (opened.symm.trans whole) behind
  have cut := slice_block front part after
  rw [List.append_assoc, List.cons_append, ← opened, atBrace, atStop] at cut
  rw [cut] at bracketed
  obtain ⟨stays, balance⟩ := bracketed.staysOpen (by decide)
  obtain ⟨items, later, scanned, rfl, atRest⟩ := code_split (by decide) (by decide) opened
  obtain ⟨body, back, rfl, rfl, rfl⟩ := code_split (by decide) (by decide) atRest.symm
  have size : close = byteSize (written items) + 1 + byteSize (written body) := by
    rw [← atStop, byteSize_append, byteSize_cons, byteSize_masked, byteSize_masked, show '{'.utf8Size = 1 from rfl]
    omega
  exact ⟨items, body, back, scanned, by rw [← atBrace, byteSize_masked], by rw [atClose, size], by rw [stop, size],
    stays, balance⟩

section

variable {front body body' back : Text} {start stop : Nat}

/-- What does not touch an exchanged text stays as it is. -/
theorem slice_exchange (inOrder : start ≤ stop)
    (side : stop < byteSize front ∨ byteSize front + byteSize body ≤ start) :
    slice (moveOffset (byteSize front) (byteSize body) (byteSize body') start)
        (moveOffset (byteSize front) (byteSize body) (byteSize body') stop) (front ++ (body' ++ back)) =
      slice start stop (front ++ (body ++ back)) := by
  rcases side with inFront | inBack
  · rw [moveOffset_front (by omega), moveOffset_front inFront, slice_append_of_le (by omega), slice_append_of_le (by omega)]
  · obtain ⟨n, rfl⟩ := Nat.exists_eq_add_of_le inBack
    obtain ⟨m, rfl⟩ := Nat.exists_eq_add_of_le (Nat.le_trans inBack inOrder)
    rw [moveOffset_back, moveOffset_back, ← byteSize_append, ← byteSize_append, ← List.append_assoc, slice_shift,
      ← List.append_assoc, slice_shift]

end

section

variable {t t' : Text} {d : Declaration} {front body back body' : List (Char × Role)}

theorem BodyAt.whole (at' : BodyAt t d front body back) :
    t = written front ++ ['{'] ++ (written body ++ '}' :: written back) := by
  conv => lhs; rw [← written_scanFrom .code true t, show scanFrom .code true t = scan t from rfl, at'.scanned]
  simp

/-- Whatever is shown of the text, between the braces the same is shown of the body. -/
theorem BodyAt.slice_shown (at' : BodyAt t d front body back) (keep : Role → Bool) :
    slice (byteSize (written front) + 1) (byteSize (written front) + 1 + byteSize (written body))
        ((scan t).flatMap (showOnly keep)) = body.flatMap (showOnly keep) := by
  have cut := slice_append ((front ++ [('{', Role.code)]).flatMap (showOnly keep)) (body.flatMap (showOnly keep))
    ((('}', Role.code) :: back).flatMap (showOnly keep))
  have size : byteSize ((front ++ [('{', Role.code)]).flatMap (showOnly keep)) = byteSize (written front) + 1 := by
    rw [byteSize_showOnly, ← written, written_append, byteSize_append]
    rfl
  rw [size, byteSize_showOnly, ← written] at cut
  conv => rhs; rw [← cut]
  rw [at'.scanned]
  simp

theorem BodyAt.body_eq (at' : BodyAt t d front body back) : d.body (strip t) = stripped body := by
  rw [Declaration.body, at'.brace, at'.stop]
  exact at'.slice_shown _

theorem BodyAt.modelBody?_eq {model : Text} (at' : BodyAt t d front body back) (found : findModel model t = some d) :
    modelBody? t model =
      some (byteSize (written front) + 1, byteSize (written front) + 1 + byteSize (written body)) := by
  exact modelBody?_eq_some_iff.mpr ⟨d, found, at'.close, by rw [at'.brace]⟩

variable (at' : BodyAt t d front body back) (member : d ∈ outline t)
  (scanned' : scan t' = front ++ ('{', .code) :: (body' ++ ('}', .code) :: back))

include at' member scanned'

theorem BodyAt.outline_exchange (block' : IsBlockBody (masked body')) :
    outline t' = (outline t).map
      (·.move (byteSize (written front) + 1) (byteSize (written body)) (byteSize (written body'))) := by
  have mask_eq {s : Text} {u : List (Char × Role)}
      (scanned : scan s = front ++ ('{', .code) :: (u ++ ('}', .code) :: back)) :
      mask s = masked front ++ ['{'] ++ (masked u ++ '}' :: masked back) := by
    rw [mask, scanned]
    simp [masked, showOnly]
  have size : byteSize (masked front ++ ['{']) = byteSize (written front) + 1 := by
    rw [byteSize_append, byteSize_masked]
    rfl
  have inMasked : d ∈ declarationsFrom (mask t) 0 (headers (mask t)) := member
  have atBrace : d.brace = byteSize (masked front) := by rw [at'.brace, byteSize_masked]
  rw [mask_eq at'.scanned] at inMasked
  have exchanged := declarationsFrom_exchange at'.block block' rfl inMasked atBrace
  rw [← mask_eq at'.scanned, ← mask_eq scanned', size, byteSize_masked, byteSize_masked] at exchanged
  exact exchanged

omit member in
theorem BodyAt.exchange (block' : IsBlockBody (masked body')) :
    BodyAt t' (d.move (byteSize (written front) + 1) (byteSize (written body)) (byteSize (written body')))
      front body' back := by
  have moved : moveOffset (byteSize (written front) + 1) (byteSize (written body)) (byteSize (written body'))
      (byteSize (written front) + 1 + byteSize (written body)) = byteSize (written front) + 1 + byteSize (written body') :=
    moveOffset_back 0
  refine ⟨scanned', ?_, ?_, ?_, block'⟩
  · simp only [Declaration.move, at'.brace]
    exact moveOffset_front (Nat.lt_succ_self _)
  · simp only [Declaration.move, at'.close, Option.map_some, moved]
  · simp only [Declaration.move, at'.stop, moved]

end

/-- A declaration as it is read. -/
def Declaration.section (t : Text) (d : Declaration) : Section := ⟨d.keyword, d.name, d.body (strip t)⟩

/-- All declarations but the edited one are read as before. -/
theorem BodyAt.section_exchange (at' : BodyAt t d front body back)
    (scanned' : scan t' = front ++ ('{', .code) :: (body' ++ ('}', .code) :: back)) {e : Declaration}
    (lies : e.start ≤ e.brace ∧ e.brace < e.stop) (side : e.stop ≤ d.start ∨ d.stop ≤ e.start) (inOrder : d.start ≤ d.brace) :
    (e.move (byteSize (written front) + 1) (byteSize (written body)) (byteSize (written body'))).section t' = e.section t := by
  have strip_eq {s : Text} {u : List (Char × Role)}
      (scanned : scan s = front ++ ('{', .code) :: (u ++ ('}', .code) :: back)) :
      strip s = stripped front ++ ['{'] ++ (stripped u ++ '}' :: stripped back) := by
    rw [strip, scanned]
    simp [stripped, showOnly]
  have size : byteSize (stripped front ++ ['{']) = byteSize (written front) + 1 := by
    rw [byteSize_append, byteSize_stripped]
    rfl
  have brace := at'.brace
  have stop := at'.stop
  have next : moveOffset (byteSize (written front) + 1) (byteSize (written body)) (byteSize (written body')) e.brace + 1 =
      moveOffset (byteSize (written front) + 1) (byteSize (written body)) (byteSize (written body')) (e.brace + 1) := by
    simp only [moveOffset]
    split <;> split <;> omega
  have sides : e.stop < byteSize (stripped front ++ ['{']) ∨
      byteSize (stripped front ++ ['{']) + byteSize (stripped body) ≤ e.brace + 1 := by
    rw [size, byteSize_stripped]
    omega
  have inside : e.brace + 1 ≤ e.stop := by omega
  have same : slice _ _ (stripped front ++ ['{'] ++ (stripped body' ++ '}' :: stripped back)) =
      slice _ _ (stripped front ++ ['{'] ++ (stripped body ++ '}' :: stripped back)) := slice_exchange inside sides
  rw [size, byteSize_stripped, byteSize_stripped, ← strip_eq at'.scanned, ← strip_eq scanned', ← next] at same
  simp only [Declaration.section, Declaration.body, Declaration.move, same]

/-- The exchange of a body as a reader sees it. -/
theorem BodyAt.sections_exchange (at' : BodyAt t d front body back) {earlier later : List Declaration}
    (split : outline t = earlier ++ d :: later)
    (scanned' : scan t' = front ++ ('{', .code) :: (body' ++ ('}', .code) :: back)) (block' : IsBlockBody (masked body')) :
    sections t = earlier.map (·.section t) ++ ⟨d.keyword, d.name, stripped body⟩ :: later.map (·.section t) ∧
      sections t' = earlier.map (·.section t) ++ ⟨d.keyword, d.name, stripped body'⟩ :: later.map (·.section t) := by
  have member : d ∈ outline t := by simp [split]
  obtain ⟨lies, -, ordered⟩ := outline_geometry t
  have inOrder := (lies d member).start_le_brace
  rw [split] at lies ordered
  obtain ⟨-, orderedRest, across⟩ := List.pairwise_append.mp ordered
  obtain ⟨behind, -⟩ := List.pairwise_cons.mp orderedRest
  have atEnd (e : Declaration) (found : e ∈ earlier ++ d :: later) : e.start ≤ e.brace ∧ e.brace < e.stop :=
    ⟨(lies e found).start_le_brace, (lies e found).brace_lt_stop⟩
  have exchanged := at'.outline_exchange member scanned' block'
  constructor
  · rw [← at'.body_eq, sections, split, List.map_append, List.map_cons]
    rfl
  · rw [← (at'.exchange scanned' block').body_eq, sections, exchanged, split, List.map_append, List.map_cons,
      List.map_append, List.map_cons, List.map_map, List.map_map]
    congr 1
    · refine List.map_congr_left fun e found => ?_
      exact at'.section_exchange scanned' (atEnd e (by simp [found])) (Or.inl (across e found d (by simp)).1) inOrder
    · congr 1
      refine List.map_congr_left fun e found => ?_
      exact at'.section_exchange scanned' (atEnd e (by simp [found])) (Or.inr (behind e found).1) inOrder

/-- Who exchanges the body of the first declaration of a model changes that model, and nothing else. -/
theorem BodyAt.parse_exchange {model : Text} (at' : BodyAt t d front body back) (found : findModel model t = some d)
    (scanned' : scan t' = front ++ ('{', .code) :: (body' ++ ('}', .code) :: back)) (block' : IsBlockBody (masked body')) :
    (Document.parse t).model? model = some (Model.ofBody model (stripped body)) ∧
      Document.parse t' = (Document.parse t).changeModel model fun _ => Model.ofBody model (stripped body') := by
  obtain ⟨matched, earlier, later, split, first⟩ := List.find?_eq_some_iff_append.mp found
  obtain ⟨keyword, name⟩ : d.keyword = .model ∧ d.name = model := by simpa using matched
  obtain ⟨before, after⟩ := at'.sections_exchange split scanned' block'
  rw [Document.parse_eq_ofSections, Document.parse_eq_ofSections, before, after, keyword, name]
  have unnamed : ∀ m ∈ ((earlier.map (·.section t)).filter (·.keyword = .model)).map fun s => Model.ofBody s.name s.body,
      m.name ≠ model := by
    intro m member same
    obtain ⟨s, inside, rfl⟩ := List.mem_map.mp member
    obtain ⟨inside, isModel⟩ := List.mem_filter.mp inside
    obtain ⟨e, inEarlier, rfl⟩ := List.mem_map.mp inside
    have other := first e inEarlier
    have named : e.keyword = .model ∧ e.name = model := ⟨of_decide_eq_true isModel, same⟩
    simp [named.1, named.2] at other
  constructor
  · rw [Document.model?, Document.ofSections]
    simp only [find?_keepFirst, List.filter_append, List.filter_cons, decide_true, if_true, List.map_append, List.map_cons]
    rw [List.find?_append, List.find?_eq_none.mpr fun m member => by simpa using unnamed m member, Option.none_or]
    exact List.find?_cons_of_pos (by simp [Model.ofBody])
  · have renamed : (Model.ofBody model (stripped body')).name = (Model.ofBody model (stripped body)).name := rfl
    have exchanged (rest : List Model) : keepFirst Model.name (_ ++ Model.ofBody model (stripped body') :: rest) = _ :=
      keepFirst_exchange renamed unnamed
    simp only [Document.ofSections, Document.changeModel, List.filter_append, List.filter_cons, decide_true, if_true,
      List.map_append, List.map_cons, reduceCtorEq, decide_false, Bool.false_eq_true, if_false, exchanged]
    rfl

theorem Document.changeModel_congr {doc : Document} {name : Text} {m : Model} {change change' : Model → Model}
    (distinct : (doc.models.map Model.name).Nodup) (found : doc.model? name = some m) (same : change m = change' m) :
    doc.changeModel name change = doc.changeModel name change' := by
  simp only [Document.changeModel]
  congr 1
  refine List.map_congr_left fun n member => ?_
  split
  · rename_i named
    have isName : m.name = name := by simpa using List.find?_some found
    obtain rfl : n = m := List.inj_on_of_nodup_map distinct member (List.mem_of_find?_eq_some found) (named.trans isName.symm)
    exact same
  · rfl

/-- The change of a model that the exchange of its body comes to. -/
theorem BodyAt.parse_change {model : Text} (at' : BodyAt t d front body back) (found : findModel model t = some d)
    (scanned' : scan t' = front ++ ('{', .code) :: (body' ++ ('}', .code) :: back)) (block' : IsBlockBody (masked body'))
    {change : Model → Model}
    (changed : change (Model.ofBody model (stripped body)) = Model.ofBody model (stripped body')) :
    Document.parse t' = (Document.parse t).changeModel model change := by
  obtain ⟨before, after⟩ := at'.parse_exchange found scanned' block'
  rw [after]
  exact Document.changeModel_congr (nodup_keepFirst _ _) before changed.symm

end SchemaDiagram
