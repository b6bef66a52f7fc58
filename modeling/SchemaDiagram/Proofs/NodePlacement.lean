import SchemaDiagram.Layout.Arrange

namespace SchemaDiagram

/-- A node without a saved position. -/
def SavedPositions.lacks (saved : SavedPositions) (n : Node) : Bool := (saved.position? n.id).isNone

/-- The saved positions of some nodes. -/
def SavedPositions.among (saved : SavedPositions) (nodes : List Node) : SavedPositions :=
  saved.filter fun entry => nodes.any (·.id = entry.1)

theorem SavedPositions.position?_among (saved : SavedPositions) {nodes : List Node} {n : Node} (member : n ∈ nodes) :
    (saved.among nodes).position? n.id = saved.position? n.id := by
  have same : (fun entry : Text × Position =>
      decide (nodes.any (·.id = entry.1) = true ∧ decide (entry.1 = n.id) = true)) =
      fun entry => decide (entry.1 = n.id) := by
    funext entry
    refine decide_eq_decide.mpr ⟨fun both => of_decide_eq_true both.2, fun named => ⟨?_, decide_eq_true named⟩⟩
    exact List.any_eq_true.mpr ⟨n, member, decide_eq_true named.symm⟩
  rw [position?, position?, among, ← List.filter_reverse, List.find?_filter, same]

namespace LayoutConfig

variable [CharacterGrid] (config : LayoutConfig) {saved : SavedPositions}

section

variable {n : Node} (x : Float) (later : List Node)

theorem arrangeFrom_saved {position : Position} (found : saved.position? n.id = some position) :
    config.arrangeFrom saved x (n :: later) =
      ⟨n, position, config.metrics.nodeSize n⟩ :: config.arrangeFrom saved x later := by
  simp only [arrangeFrom, found]

/-- Only a node without a saved position moves those behind it to the right. -/
theorem arrangeFrom_unsaved (missing : saved.position? n.id = none) :
    config.arrangeFrom saved x (n :: later) =
      ⟨n, ⟨x, config.originY⟩, config.metrics.nodeSize n⟩ ::
        config.arrangeFrom saved (x + ((config.metrics.nodeSize n).width + config.gapX)) later := by
  simp only [arrangeFrom, missing]

end

/-- Each node is placed once, in the order of the nodes and with its own size. -/
theorem arrangeFrom_nodes (saved : SavedPositions) (x : Float) (nodes : List Node) :
    (config.arrangeFrom saved x nodes).map (fun placed => (placed.node, placed.size)) =
      nodes.map fun n => (n, config.metrics.nodeSize n) := by
  induction nodes generalizing x with
  | nil => rfl
  | cons n later ih =>
    cases found : saved.position? n.id with
    | some position => rw [config.arrangeFrom_saved x later found, List.map_cons, List.map_cons, ih]
    | none => rw [config.arrangeFrom_unsaved x later found, List.map_cons, List.map_cons, ih]

theorem arrangeFrom_position {x : Float} {nodes : List Node} {placed : PlacedNode} {position : Position}
    (member : placed ∈ config.arrangeFrom saved x nodes) (found : saved.position? placed.node.id = some position) :
    placed.position = position := by
  induction nodes generalizing x with
  | nil => cases member
  | cons n later ih =>
    cases first : saved.position? n.id with
    | some here =>
      rw [config.arrangeFrom_saved x later first] at member
      rcases List.mem_cons.mp member with rfl | behind
      · exact Option.some.inj (first.symm.trans found)
      · exact ih behind
    | none =>
      rw [config.arrangeFrom_unsaved x later first] at member
      rcases List.mem_cons.mp member with rfl | behind
      · cases first.symm.trans found
      · exact ih behind

/-- From any place on, the nodes without a saved position are placed as if there were no others. -/
theorem arrangeFrom_filter (saved : SavedPositions) (x : Float) (nodes : List Node) :
    (config.arrangeFrom saved x nodes).filter (fun placed => saved.lacks placed.node) =
      config.arrangeFrom [] x (nodes.filter saved.lacks) := by
  induction nodes generalizing x with
  | nil => rfl
  | cons n later ih =>
    cases found : saved.position? n.id with
    | some position =>
      have has : ¬saved.lacks n := by rw [SavedPositions.lacks, found]; exact Bool.false_ne_true
      rw [config.arrangeFrom_saved x later found, List.filter_cons, List.filter_cons, if_neg has, if_neg has, ih]
    | none =>
      have lacks : saved.lacks n := by rw [SavedPositions.lacks, found]; rfl
      rw [config.arrangeFrom_unsaved x later found, List.filter_cons, List.filter_cons, if_pos lacks, if_pos lacks, ih,
        config.arrangeFrom_unsaved x (later.filter saved.lacks) rfl]

theorem arrangeFrom_congr {other : SavedPositions} {nodes : List Node}
    (agree : ∀ n ∈ nodes, saved.position? n.id = other.position? n.id) (x : Float) :
    config.arrangeFrom saved x nodes = config.arrangeFrom other x nodes := by
  induction nodes generalizing x with
  | nil => rfl
  | cons n later ih =>
    obtain ⟨here, rest⟩ := List.forall_mem_cons.mp agree
    cases found : saved.position? n.id with
    | some position =>
      rw [config.arrangeFrom_saved x later found, config.arrangeFrom_saved x later (here ▸ found), ih rest]
    | none => rw [config.arrangeFrom_unsaved x later found, config.arrangeFrom_unsaved x later (here ▸ found), ih rest]

/-- Whatever the grid, every node is placed once and in order, with its own size. A saved position is kept. The other
nodes close ranks: they stand where they would if the saved ones were not there, and what is saved for unknown nodes
does nothing. -/
theorem arrange_closes_ranks (saved : SavedPositions) (nodes : List Node) :
    (config.arrange saved nodes).map (fun placed => (placed.node, placed.size)) =
        nodes.map (fun n => (n, config.metrics.nodeSize n)) ∧
      (∀ placed ∈ config.arrange saved nodes, ∀ position, saved.position? placed.node.id = some position →
        placed.position = position) ∧
      (config.arrange saved nodes).filter (fun placed => saved.lacks placed.node) =
        config.arrange [] (nodes.filter saved.lacks) ∧
      config.arrange (saved.among nodes) nodes = config.arrange saved nodes :=
  ⟨config.arrangeFrom_nodes saved config.originX nodes,
    fun _ member _ found => config.arrangeFrom_position member found,
    config.arrangeFrom_filter saved config.originX nodes,
    config.arrangeFrom_congr (fun _ member => saved.position?_among member) config.originX⟩

end LayoutConfig

end SchemaDiagram
