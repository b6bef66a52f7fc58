import SchemaDiagram.Proofs.ParsedForm
import SchemaDiagram.Proofs.Rows

namespace SchemaDiagram

open Text

/-- The field that a trimmed line of a model gives. -/
def lineField? (line : Text) : Option Field := if isAttributeLine line then none else parseField line

/-- The attributes of the model that a trimmed line of it gives. -/
def lineAttributes (line : Text) : List Text := if isAttributeLine line then extractAttributes line else []

/-- A row of a model as its reader sees it: without its comment and the white space around it. -/
def rowLine (r : Text) : Text := trim (blankFrom false r)

def rowField? (r : Text) : Option Field := lineField? (rowLine r)

/-- What the rows between the braces of a model say. -/
def Model.ofRows (name : Text) (rs : List Text) : Model where
  name := name
  fields := keepFirst Field.name (rs.filterMap rowField?)
  attributes := rs.flatMap fun r => lineAttributes (rowLine r)

theorem lineField?_nil : lineField? [] = none := rfl

theorem parseField_of_head {line : Text} (noName : Stops isWordChar line) : parseField line = none := by
  have name : line.takeWhile isWordChar = [] := by
    cases line with
    | nil => rfl
    | cons c line => exact List.takeWhile_cons_of_neg (by simpa using noName c rfl)
  simp [parseField, name]

/-- A body is read row by row. -/
theorem Model.ofBody_eq (name body : Text) :
    Model.ofBody name body =
      { name
        fields := keepFirst Field.name ((rows body).filterMap fun r => lineField? (trim r))
        attributes := (rows body).flatMap fun r => lineAttributes (trim r) } := by
  have fields (all : List Text) : (all.filter fun line => !isAttributeLine line).filterMap parseField =
      all.filterMap lineField? := by
    rw [List.filterMap_filter]
    congr 1
    funext line
    unfold lineField?
    cases isAttributeLine line <;> rfl
  have attributes (all : List Text) : (all.filter isAttributeLine).flatMap extractAttributes =
      all.flatMap lineAttributes := by
    induction all with
    | nil => rfl
    | cons line all ih =>
      rw [List.flatMap_cons, ← ih, lineAttributes]
      by_cases holds : isAttributeLine line
      · rw [List.filter_cons_of_pos holds, if_pos holds, List.flatMap_cons]
      · rw [List.filter_cons_of_neg holds, if_neg holds, List.nil_append]
  have asLines : (bodyLines body).filterMap lineField? = ((rows body).map trim).filterMap lineField? ∧
      (bodyLines body).flatMap lineAttributes = ((rows body).map trim).flatMap lineAttributes := by
    rcases map_trim_lines body with same | longer
    · rw [same]
      exact ⟨rfl, rfl⟩
    · rw [longer]
      simp [bodyLines, lineField?_nil, lineAttributes, isAttributeLine]
  rw [Model.ofBody, fields, attributes, asLines.1, asLines.2, List.filterMap_map, List.flatMap_map]
  rfl

theorem OnlyLineComments.cons {c : Char} {t : Text} (ascii : isAscii c) (noQuote : c ≠ '"')
    (apart : ¬(c = '/' ∧ t.head? = some '*')) (later : OnlyLineComments t) : OnlyLineComments (c :: t) := by
  refine ⟨List.forall_mem_cons.mpr ⟨ascii, later.ascii⟩, ?_, List.isChain_cons.mpr ⟨?_, later.noBlock⟩⟩
  · intro member
    rcases List.mem_cons.mp member with same | inside
    · exact noQuote same.symm
    · exact later.noString inside
  · rintro d head ⟨rfl, rfl⟩
    exact apart ⟨rfl, head⟩

/-- Blanking the comments makes no new signs. -/
theorem OnlyLineComments.stripped {t : Text} (only : OnlyLineComments t) : OnlyLineComments (strip t) := by
  have inside (state : ScanState) (lineBlank : Bool) :
      OnlyLineComments ((scanFrom state lineBlank t).flatMap (showOnly (· ≠ .comment))) ∧
        ∀ c, ((scanFrom state lineBlank t).flatMap (showOnly (· ≠ .comment))).head? = some c →
          t.head? = some c ∨ c = ' ' := by
    induction t generalizing state lineBlank with
    | nil => exact ⟨⟨by simp [scanFrom], by simp [scanFrom], by simp [scanFrom]⟩, fun c head => by cases head⟩
    | cons c t ih =>
      obtain ⟨rest, head⟩ := ih only.tail (state.step lineBlank c t).2 (lineBlankAfter lineBlank c)
      have size := utf8Size_of_isAscii (only.ascii c List.mem_cons_self)
      rw [scanFrom_cons, List.flatMap_cons]
      unfold showOnly
      split
      · refine ⟨rest.cons (only.ascii c List.mem_cons_self) (fun same => only.noString (List.mem_cons.mpr (Or.inl same.symm))) ?_,
          fun d atHead => Or.inl atHead⟩
        rintro ⟨rfl, star⟩
        obtain ⟨more, rfl⟩ := List.head?_eq_some_iff.mp ((head '*' star).resolve_right (by decide))
        exact (List.isChain_cons_cons.mp only.noBlock).1 ⟨rfl, rfl⟩
      · rw [size]
        exact ⟨rest.cons (by decide) (by decide) (by simp), fun d atHead => Or.inr (Option.some.inj atHead).symm⟩
  exact (inside .code true).1

/-- In a text where only separators are left as comments, a row either has none or is nothing but one. -/
theorem Uncommented.row_form {r x : Text} {lineBlank : Bool} (free : Uncommented .code lineBlank (r ++ x))
    (only : OnlyLineComments r) (inLine : '\n' ∉ r) :
    blankFrom false r = r ∨
      lineBlank = true ∧ ∃ blanks more, r = blanks ++ '/' :: '/' :: more ∧ ∀ c ∈ blanks, isBlank c := by
  induction r generalizing lineBlank with
  | nil => exact Or.inl rfl
  | cons c r ih =>
    obtain ⟨noNewline, oneLine⟩ := List.ne_and_not_mem_of_not_mem_cons inLine
    rcases r with _ | ⟨d, r⟩
    · refine Or.inl ?_
      simp [blankFrom, opensComment]
    rw [List.cons_append] at free
    obtain ⟨here, later⟩ := uncommented_cons_iff.mp free
    by_cases opens : opensComment c (d :: r)
    · obtain ⟨rfl, rfl⟩ : c = '/' ∧ d = '/' := by simpa [opensComment] using opens
      have blank : lineBlank = true := by
        by_contra other
        refine here ?_
        simp [ScanState.step, lineCommentRole, other]
      exact Or.inr ⟨blank, [], r, rfl, by simp⟩
    · have step : ScanState.code.step lineBlank c (d :: r ++ x) = (.code, .code) := by
        have alone := only.step_code lineBlank
        rw [if_neg opens] at alone
        by_cases slash : c = '/'
        · subst slash
          refine ScanState.step_code_slash (by simpa [opensComment] using opens) fun star => ?_
          obtain rfl : d = '*' := by simpa using star
          exact (List.isChain_cons_cons.mp only.noBlock).1 ⟨rfl, rfl⟩
        · exact ScanState.step_code_plain (fun quote => only.noString (by simp [quote])) slash
      rw [step] at later
      rcases ih later only.tail oneLine with kept | ⟨blank, blanks, more, whole, isBlanks⟩
      · refine Or.inl ?_
        rw [blankFrom, if_neg noNewline.symm, Bool.false_or, if_neg opens, kept]
      · have visible : c = '\n' ∨ lineBlank = true ∧ isBlank c = true := by
          simpa [lineBlankAfter] using blank
        obtain ⟨atStart, blankC⟩ := visible.resolve_left noNewline.symm
        refine Or.inr ⟨atStart, c :: blanks, more, by rw [whole]; rfl, ?_⟩
        simpa using ⟨blankC, isBlanks⟩

theorem blankFrom_comment {t : Text} (inLine : '\n' ∉ t) : ∀ c ∈ blankFrom true t, isBlank c := by
  induction t with
  | nil => simp [blankFrom]
  | cons c t ih =>
    obtain ⟨noNewline, oneLine⟩ := List.ne_and_not_mem_of_not_mem_cons inLine
    rw [blankFrom, if_neg noNewline.symm, Bool.true_or, if_pos rfl]
    exact List.forall_mem_cons.mpr ⟨by decide, ih oneLine⟩

theorem blankFrom_separator {blanks more : Text} (isBlanks : ∀ c ∈ blanks, isBlank c) (inLine : '\n' ∉ more) :
    ∀ c ∈ blankFrom false (blanks ++ '/' :: '/' :: more), isBlank c := by
  induction blanks with
  | nil =>
    have opened : blankFrom false ('/' :: '/' :: more) = ' ' :: ' ' :: blankFrom true more := rfl
    rw [List.nil_append, opened]
    simpa using ⟨by decide, blankFrom_comment inLine⟩
  | cons c blanks ih =>
    obtain ⟨blank, later⟩ := List.forall_mem_cons.mp isBlanks
    have noSlash : c ≠ '/' := by
      rintro rfl
      cases blank
    have kept : blankFrom false (c :: (blanks ++ '/' :: '/' :: more)) =
        c :: blankFrom false (blanks ++ '/' :: '/' :: more) := by
      simp [blankFrom, opensComment, noSlash]
    rw [List.cons_append, kept]
    exact List.forall_mem_cons.mpr ⟨blank, ih later⟩

theorem Uncommented.of_mem_rows {body x r : Text} {lineBlank : Bool}
    (free : Uncommented .code lineBlank (body ++ x)) (member : r ∈ rows body) :
    ∃ lineBlank' x', Uncommented .code lineBlank' (r ++ x') := by
  induction body using rows_induction generalizing lineBlank with
  | oneRow s inLine =>
    rw [rows_row inLine, List.mem_singleton] at member
    exact ⟨lineBlank, x, member ▸ free⟩
  | moreRows s t inLine ih =>
    rw [List.append_assoc, List.cons_append] at free
    rw [rows_cons inLine] at member
    rcases List.mem_cons.mp member with rfl | later
    · exact ⟨lineBlank, _, free⟩
    · exact ih free.nextLine later

/-- What is left of the comments in a row, separators, is no code. -/
theorem Uncommented.row_cases {body x r : Text} {lineBlank : Bool}
    (free : Uncommented .code lineBlank (body ++ x)) (only : OnlyLineComments body) (member : r ∈ rows body) :
    blankFrom false r = r ∨ isAttributeLine (trim r) = false ∧ parseField (trim r) = none ∧ rowLine r = [] := by
  obtain ⟨lineBlank', x', freeRow⟩ := free.of_mem_rows member
  obtain ⟨inLine, inside⟩ := mem_rows member
  rcases freeRow.row_form (only.of_infix inside) inLine with same | ⟨-, blanks, more, rfl, isBlanks⟩
  · exact Or.inl same
  · have sign : trim (blanks ++ '/' :: '/' :: more) = '/' :: trimEnd ('/' :: more) := by
      have around := trim_append isBlanks ('/' :: '/' :: more) (List.forall_mem_nil _)
      rw [List.append_nil] at around
      rw [around, trim_cons (by decide)]
    refine Or.inr ⟨by rw [sign]; rfl, by rw [sign]; exact parseField_of_head (stops_cons (by decide)), ?_⟩
    exact trim_eq_nil (blankFrom_separator isBlanks fun member => inLine (by simp [member]))

/-- Without further comments the rows of a body are read as they are. -/
theorem Uncommented.ofBody {body x : Text} {lineBlank : Bool} (free : Uncommented .code lineBlank (body ++ x))
    (only : OnlyLineComments body) (name : Text) : Model.ofBody name body = Model.ofRows name (rows body) := by
  have reads (r : Text) (member : r ∈ rows body) :
      lineField? (trim r) = rowField? r ∧ lineAttributes (trim r) = lineAttributes (rowLine r) := by
    rcases free.row_cases only member with same | ⟨noAttribute, noField, empty⟩
    · rw [rowField?, rowLine, same]
      exact ⟨rfl, rfl⟩
    · rw [rowField?, empty, lineField?, lineAttributes, noAttribute, if_neg (by decide), if_neg (by decide),
        noField]
      exact ⟨rfl, rfl⟩
  rw [Model.ofBody_eq, List.filterMap_congr fun r member => (reads r member).1,
    List.flatMap_congr fun r member => (reads r member).2]
  rfl

theorem Model.ofRows_congr {name : Text} {rs rs' : List Text}
    (same : rs.map (blankFrom false) = rs'.map (blankFrom false)) :
    Model.ofRows name rs = Model.ofRows name rs' := by
  have lines : rs.map rowLine = rs'.map rowLine := by
    have trimmed := congrArg (List.map trim) same
    rwa [List.map_map, List.map_map] at trimmed
  have fields : rs.filterMap rowField? = rs'.filterMap rowField? := by
    have read := congrArg (List.filterMap lineField?) lines
    rwa [List.filterMap_map, List.filterMap_map] at read
  have attributes : (rs.flatMap fun r => lineAttributes (rowLine r)) =
      rs'.flatMap fun r => lineAttributes (rowLine r) := by
    have read := congrArg (List.flatMap lineAttributes) lines
    simpa [List.flatMap_map] using read
  rw [Model.ofRows, Model.ofRows, fields, attributes]

section

variable {t : Text} (only : OnlyLineComments t)

include only

theorem OnlyLineComments.body_infix (d : Declaration) : d.body t <:+: t := by
  rw [Declaration.body, slice_of_ascii only.ascii]
  exact (List.take_prefix _ _).isInfix.trans (List.drop_suffix _ _).isInfix

/-- The body of a model can be read from its rows as they are written. -/
theorem OnlyLineComments.ofBody_strip {d : Declaration} (member : d ∈ outline t) (name : Text) :
    Model.ofBody name (d.body (strip t)) = Model.ofRows name (rows (d.body t)) := by
  have stripped := only.stripped
  have memberStripped : d ∈ outline (strip t) := by rwa [outline_strip]
  obtain ⟨-, after, free⟩ := mem_sections (List.mem_map_of_mem member)
  rw [free.ofBody (stripped.of_infix (stripped.body_infix d)) name]
  refine Model.ofRows_congr ?_
  rw [← rows_blankFrom, ← rows_blankFrom, ← only.body_mask member, ← stripped.body_mask memberStripped,
    mask_strip]

/-- The models of a text are read from its parts. -/
theorem OnlyLineComments.parse_models :
    (Document.parse t).models =
      keepFirst Model.name
        (((parts t).filter (·.keyword = .model)).map fun p => Model.ofRows p.name (rows p.body)) := by
  have walk (offset : Nat) (ds : List Declaration) :
      ((partsFrom offset t ds).filter (·.keyword = .model)).map
          (fun p => Model.ofRows p.name (rows p.body)) =
        (ds.filter (·.keyword = .model)).map fun d => Model.ofRows d.name (rows (d.body t)) := by
    induction ds generalizing offset with
    | nil => rfl
    | cons d ds ih =>
      rw [partsFrom, List.filter_cons, List.filter_cons]
      by_cases model : d.keyword = .model
      · simp [Declaration.part, model, ih]
      · simp [Declaration.part, model, ih]
  rw [parts, walk, Document.parse, Document.ofDeclarations, outline_strip]
  refine congrArg (keepFirst Model.name) (List.map_congr_left fun d member => ?_)
  exact only.ofBody_strip (List.mem_of_mem_filter member) d.name

end

end SchemaDiagram
