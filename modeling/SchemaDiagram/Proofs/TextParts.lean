import SchemaDiagram.Proofs.LineComments
import SchemaDiagram.Proofs.OutlineMove

namespace SchemaDiagram

open Text

/-- A declaration as it is written: `lead` goes from the end of the declaration before up to and with the
opening brace, and `body` from there to the closing brace, or to where the next declaration begins. -/
structure Part where
  keyword : Keyword
  name : Text
  closed : Bool
  lead : Text
  body : Text
  deriving DecidableEq

def Declaration.part (d : Declaration) (offset : Nat) (t : Text) : Part where
  keyword := d.keyword
  name := d.name
  closed := d.close.isSome
  lead := slice offset (d.brace + 1) t
  body := d.body t

def partsFrom (offset : Nat) (t : Text) : List Declaration → List Part
  | [] => []
  | d :: later => d.part offset t :: partsFrom d.stop t later

/-- The declarations of a text as they are written, one behind the other. -/
def parts (t : Text) : List Part := partsFrom 0 t (outline t)

def stopAfter (offset : Nat) (ds : List Declaration) : Nat := (ds.getLast?.map (·.stop)).getD offset

/-- What follows the last declaration. -/
def afterParts (t : Text) : Text := dropBytes (stopAfter 0 (outline t)) t

/-- The first declaration of a model as it is written. -/
def modelPart? (t model : Text) : Option Part :=
  (parts t).find? fun p => p.keyword = .model && p.name = model

theorem stopAfter_cons (offset : Nat) (d : Declaration) (ds : List Declaration) :
    stopAfter offset (d :: ds) = stopAfter d.stop ds := by
  cases ds with
  | nil => rfl
  | cons e ds => simp [stopAfter, List.getLast?_cons]

theorem stopAfter_append_cons (offset : Nat) (earlier : List Declaration) (d : Declaration)
    (later : List Declaration) : stopAfter offset (earlier ++ d :: later) = stopAfter d.stop later := by
  induction earlier generalizing offset with
  | nil => exact stopAfter_cons offset d later
  | cons e earlier ih => rw [List.cons_append, stopAfter_cons, ih]

theorem partsFrom_append_cons (offset : Nat) (t : Text) (earlier : List Declaration) (d : Declaration)
    (later : List Declaration) :
    partsFrom offset t (earlier ++ d :: later) =
      partsFrom offset t earlier ++ d.part (stopAfter offset earlier) t :: partsFrom d.stop t later := by
  induction earlier generalizing offset with
  | nil => rfl
  | cons e earlier ih => rw [List.cons_append, partsFrom, ih, stopAfter_cons, partsFrom, List.cons_append]

theorem mem_partsFrom {offset : Nat} {t : Text} {ds : List Declaration} {p : Part}
    (member : p ∈ partsFrom offset t ds) : ∃ d ∈ ds, ∃ offset, p = d.part offset t := by
  induction ds generalizing offset with
  | nil => cases member
  | cons d ds ih =>
    rcases List.mem_cons.mp member with rfl | later
    · exact ⟨d, List.mem_cons_self, offset, rfl⟩
    · obtain ⟨e, inside, found⟩ := ih later
      exact ⟨e, List.mem_cons_of_mem d inside, found⟩

/-- Looking for a part is looking for its declaration. -/
theorem find?_partsFrom (keyword : Keyword) (name : Text) (offset : Nat) (t : Text) (ds : List Declaration) :
    ((partsFrom offset t ds).find? fun p => p.keyword = keyword && p.name = name).map
        (fun p => (p.closed, p.body)) =
      (ds.find? fun d => d.keyword = keyword && d.name = name).map fun d => (d.close.isSome, d.body t) := by
  induction ds generalizing offset with
  | nil => rfl
  | cons d ds ih =>
    rw [partsFrom]
    by_cases here : d.keyword = keyword ∧ d.name = name
    · rw [List.find?_cons_of_pos (by simp [Declaration.part, here]), List.find?_cons_of_pos (by simp [here])]
      rfl
    · have other : ¬((d.part offset t).keyword = keyword ∧ (d.part offset t).name = name) := here
      rw [List.find?_cons_of_neg (by simpa using other), List.find?_cons_of_neg (by simpa using here)]
      exact ih d.stop

section

variable {t : Text} (ascii : ∀ c ∈ t, isAscii c)

include ascii

theorem dropBytes_of_ascii (n : Nat) : dropBytes n t = t.drop n := by
  induction t generalizing n with
  | nil => simp [dropBytes]
  | cons c t ih =>
    have size := utf8Size_of_isAscii (ascii c List.mem_cons_self)
    cases n with
    | zero => rw [dropBytes, if_neg (by omega), List.drop_zero]
    | succ n =>
      rw [dropBytes, if_pos (by omega), size, Nat.add_sub_cancel, List.drop_succ_cons]
      exact ih (fun d member => ascii d (List.mem_cons_of_mem c member)) n

theorem takeBytes_of_ascii (n : Nat) : takeBytes n t = t.take n := by
  induction t generalizing n with
  | nil => simp [takeBytes]
  | cons c t ih =>
    have size := utf8Size_of_isAscii (ascii c List.mem_cons_self)
    cases n with
    | zero => rw [takeBytes, if_neg (by omega), List.take_zero]
    | succ n =>
      rw [takeBytes, if_pos (by omega), size, Nat.add_sub_cancel, List.take_succ_cons,
        ih (fun d member => ascii d (List.mem_cons_of_mem c member)) n]

theorem slice_of_ascii (start stop : Nat) : slice start stop t = (t.drop start).take (stop - start) := by
  rw [slice, dropBytes_of_ascii ascii, takeBytes_of_ascii fun c member => ascii c (List.mem_of_mem_drop member)]

theorem slice_append_slice {a b c : Nat} (first : a ≤ b) (second : b ≤ c) :
    slice a b t ++ slice b c t = slice a c t := by
  rw [slice_of_ascii ascii, slice_of_ascii ascii, slice_of_ascii ascii,
    show c - a = (b - a) + (c - b) by omega, List.take_add, List.drop_drop,
    show a + (b - a) = b by omega]

theorem slice_append_dropBytes {a b : Nat} (inOrder : a ≤ b) : slice a b t ++ dropBytes b t = dropBytes a t := by
  rw [slice_of_ascii ascii, dropBytes_of_ascii ascii, dropBytes_of_ascii ascii,
    show b = a + (b - a) by omega, ← List.drop_drop, Nat.add_sub_cancel_left, List.take_append_drop]

end

/-- The parts make up the text. -/
theorem flatMap_parts {t : Text} (ascii : ∀ c ∈ t, isAscii c) :
    (parts t).flatMap (fun p => p.lead ++ p.body) ++ afterParts t = t := by
  have walk (ds : List Declaration) (offset : Nat) (lies : ∀ d ∈ ds, d.LiesIn t)
      (begins : ∀ d ∈ ds, offset ≤ d.start) (ordered : ds.Pairwise fun d e => d.stop ≤ e.start) :
      (partsFrom offset t ds).flatMap (fun p => p.lead ++ p.body) ++ dropBytes (stopAfter offset ds) t =
        dropBytes offset t := by
    induction ds generalizing offset with
    | nil => rfl
    | cons d ds ih =>
      have here := lies d List.mem_cons_self
      have start := begins d List.mem_cons_self
      have brace := here.start_le_brace
      have stop := here.brace_lt_stop
      obtain ⟨first, rest⟩ := List.pairwise_cons.mp ordered
      rw [partsFrom, List.flatMap_cons, List.append_assoc, stopAfter_cons,
        ih d.stop (fun e member => lies e (List.mem_cons_of_mem d member)) first rest, Declaration.part,
        Declaration.body]
      rw [slice_append_slice ascii (by omega) (by omega), slice_append_dropBytes ascii (by omega)]
  obtain ⟨lies, -, ordered⟩ := outline_geometry t
  have all := walk (outline t) 0 lies (fun _ _ => Nat.zero_le _) (ordered.imp And.left)
  rwa [dropBytes_zero] at all

end SchemaDiagram
