import SchemaDiagram.Proofs.OutlineAppend
import SchemaDiagram.Proofs.QuotedScan
import SchemaDiagram.Proofs.ScanStrip
import SchemaDiagram.Proofs.Words
import SchemaDiagram.Schema.Print

namespace SchemaDiagram

open Text

/-- A declaration without its place in the text. -/
structure Section where
  keyword : Keyword
  name : Text
  body : Text

/-- The declarations as they are read, with the comments taken out of their bodies. -/
def sections (t : Text) : List Section :=
  (outline t).map fun d => { keyword := d.keyword, name := d.name, body := d.body (strip t) }

/-- What a list of declarations says. -/
def Document.ofSections (all : List Section) : Document :=
  let of (keyword : Keyword) := all.filter (·.keyword = keyword)
  { datasource := (of .datasource).head?.map fun s => .ofBody s.body
    generator := (of .generator).head?.map fun s => .ofBody s.body
    models := keepFirst Model.name ((of .model).map fun s => .ofBody s.name s.body)
    enums := keepFirst Enumeration.name ((of .enum).map fun s => .ofBody s.name s.body) }

/-- A block as it is printed, in rows that end with their newline. -/
structure Block where
  keyword : Keyword
  name : Text
  rows : List Text

def Block.print (b : Block) : Text :=
  b.keyword.name ++ txt " " ++ b.name ++ txt " \x7b\n" ++ b.rows.flatten ++ txt "\x7d\n"

/-- What stands in front of the opening brace. -/
def Block.heading (b : Block) : Text := b.keyword.name ++ txt " " ++ b.name ++ txt " "

def Block.section (b : Block) : Section where
  keyword := b.keyword
  name := b.name
  body := '\n' :: strip b.rows.flatten

/-- The rows of a block leave no comment open, and their braces pair up. -/
structure Block.IsContained (b : Block) : Prop where
  tidy : ∀ row ∈ b.rows, Tidy row
  braces : IsBracketed '{' '}' ('{' :: mask b.rows.flatten ++ ['}'])

theorem Document.parse_eq_ofSections (t : Text) : Document.parse t = Document.ofSections (sections t) := by
  rw [Document.parse, outline_strip]
  simp [Document.ofDeclarations, Document.ofSections, sections, List.filter_map, Function.comp_def]

theorem sections_newline (t : Text) : sections ('\n' :: t) = sections t := by
  have newline : Tidy ['\n'] := ⟨Or.inr ⟨[], rfl⟩, rfl⟩
  have masked : mask ('\n' :: t) = ['\n'] ++ mask t := newline.mask_append t
  have bare : strip ('\n' :: t) = ['\n'] ++ strip t := newline.strip_append t
  have shifted : outline ('\n' :: t) = (outline t).map (·.shift (byteSize ['\n'])) := by
    rw [outline, masked, List.singleton_append, headers_newline]
    exact declarationsFrom_shift ['\n'] (mask t) fun h _ => by omega
  rw [sections, shifted, List.map_map, bare]
  simp only [sections, Function.comp_def, Declaration.shift, Declaration.body, Nat.add_assoc, slice_shift]

section

variable {b : Block} (named : IsWord b.name)

include named

theorem Block.heading_isHead : IsHead b.keyword b.name b.heading :=
  ⟨[], txt " ", txt " ", by simp [heading], by simp, by decide, by decide, named.1, named.2, by decide⟩

theorem Block.heading_plain {c : Char} (other : isWordChar c = false) (noSpace : c ≠ ' ')
    (noBrace : c ≠ '{') : c ∉ b.heading ++ ['{'] := by
  have ofKeyword : ∀ d ∈ b.keyword.name, isWordChar d := by cases b.keyword <;> decide
  have ofSpace : ∀ d ∈ txt " ", d = ' ' := by decide
  intro member
  simp only [heading, List.mem_append, List.mem_singleton] at member
  rcases member with (((inside | inside) | inside) | inside) | inside
  · simp [ofKeyword c inside] at other
  · exact noSpace (ofSpace c inside)
  · simp [named.2 c inside] at other
  · exact noSpace (ofSpace c inside)
  · exact noBrace inside

/-- The line of the opening brace is code as it stands. -/
theorem Block.heading_scan :
    Tidy (b.heading ++ ['{'] ++ ['\n']) ∧
      mask (b.heading ++ ['{'] ++ ['\n']) = b.heading ++ ['{'] ++ ['\n'] ∧
      strip (b.heading ++ ['{'] ++ ['\n']) = b.heading ++ ['{'] ++ ['\n'] := by
  have noSlash := Block.heading_plain named (c := '/') (by decide) (by decide) (by decide)
  have noQuote := Block.heading_plain named (c := '"') (by decide) (by decide) (by decide)
  have inLine := Block.heading_plain named (c := '\n') (by decide) (by decide) (by decide)
  have free : CommentFree .outside (b.heading ++ ['{']) := commentFree_of_not_mem noSlash
  exact ⟨(scan_row free inLine).2, mask_plain noQuote noSlash inLine, strip_row free inLine⟩

/-- A printed block is read as what it was printed from, whatever follows it. -/
theorem Block.sections_print_append (contained : b.IsContained) (rest : Text) :
    sections (b.print ++ rest) = b.section :: sections rest := by
  obtain ⟨tidyHeading, maskHeading, stripHeading⟩ := Block.heading_scan named
  have tidyRows : Tidy b.rows.flatten := tidy_flatten contained.tidy
  have tidyFooter : Tidy ['}', '\n'] := ⟨Or.inr ⟨['}'], rfl⟩, rfl⟩
  have whole : b.print = b.heading ++ ['{'] ++ ['\n'] ++ (b.rows.flatten ++ ['}', '\n']) := by
    simp [print, heading, txt]
  have tidy : Tidy b.print := whole ▸ tidyHeading.append (tidyRows.append tidyFooter)
  have masked : mask b.print = b.heading ++ '{' :: ('\n' :: mask b.rows.flatten) ++ ['}', '\n'] := by
    rw [whole, tidyHeading.mask_append, tidyRows.mask_append, maskHeading]
    simp [show mask ['}', '\n'] = ['}', '\n'] from rfl]
  have bare : strip b.print = b.heading ++ ['{'] ++ b.section.body ++ ['}', '\n'] := by
    rw [whole, tidyHeading.strip_append, tidyRows.strip_append, stripHeading]
    simp [show strip ['}', '\n'] = ['}', '\n'] from rfl, Block.section]
  have block : IsBracketed '{' '}' ('{' :: ('\n' :: mask b.rows.flatten) ++ ['}']) := by
    obtain ⟨stays, balance⟩ := contained.braces.staysOpen (by decide)
    refine isBracketed_of_staysOpen (by decide) ?_ (by simpa using balance)
    exact (staysOpen_cons_iff (by decide)).mpr ⟨Nat.one_pos, stays⟩
  have size : byteSize ('\n' :: mask b.rows.flatten) = byteSize b.section.body := by
    simp only [Block.section, byteSize_cons, byteSize_mask, byteSize_strip]
  have body : slice (byteSize b.heading + 1) (byteSize b.heading + 1 + byteSize ('\n' :: mask b.rows.flatten))
      (strip (b.print ++ rest)) = b.section.body := by
    have cut := slice_append (b.heading ++ ['{']) b.section.body (['}', '\n'] ++ strip rest)
    rw [byteSize_append, show byteSize ['{'] = 1 from rfl, ← size] at cut
    rwa [tidy.strip_append, bare, List.append_assoc _ ['}', '\n']]
  have others (d : Declaration) :
      (d.shift (byteSize b.print)).body (strip (b.print ++ rest)) = d.body (strip rest) := by
    rw [tidy.strip_append, ← byteSize_strip b.print]
    simp only [Declaration.body, Declaration.shift, Nat.add_assoc, slice_shift]
  rw [sections, outline_append_closed tidy masked (Block.heading_isHead named) block rest, List.map_cons,
    List.map_map]
  congr 1
  · simp only [Declaration.body, body]
    rfl
  · simp only [sections, Function.comp_def, others]
    rfl

end

/-- A text of printed blocks with blank lines between them is read block by block. -/
theorem sections_joinWith {blocks : List Block} (named : ∀ b ∈ blocks, IsWord b.name)
    (contained : ∀ b ∈ blocks, b.IsContained) :
    sections (joinWith (txt "\n") (blocks.map Block.print)) = blocks.map Block.section := by
  induction blocks with
  | nil => rfl
  | cons b blocks ih =>
    have here := Block.sections_print_append (named b List.mem_cons_self) (contained b List.mem_cons_self)
    have later := ih (fun b' member => named b' (List.mem_cons_of_mem _ member))
      (fun b' member => contained b' (List.mem_cons_of_mem _ member))
    rcases blocks with _ | ⟨next, blocks⟩
    · have alone := here []
      rw [List.append_nil] at alone
      simpa [joinWith, show sections [] = [] from rfl] using alone
    · have split : joinWith (txt "\n") ((b :: next :: blocks).map Block.print) =
          b.print ++ '\n' :: joinWith (txt "\n") ((next :: blocks).map Block.print) := by
        simp [joinWith, txt]
      rw [split, here, sections_newline, later]
      rfl

end SchemaDiagram
