namespace SchemaDiagram

/-- The states of a diagram that can be undone and redone. The cursor stands at the present one. -/
structure History (α : Type u) where
  entries : List α := []
  cursor : Option Nat := none
  capacity : Nat

namespace History

def defaultCapacity : Nat := 50

/-- A history that keeps at least one entry. -/
def withCapacity (capacity : Nat) : History α := { capacity := max capacity 1 }

/-- How many entries are at or before the cursor. -/
def reached (h : History α) : Nat := (h.cursor.map (· + 1)).getD 0

/-- Adds an entry behind the present one. What could be redone is lost, and if there is no room, so is the
oldest entry. -/
def push (h : History α) (entry : α) : History α :=
  let kept := h.entries.take h.reached
  let room := if kept.length = h.capacity then kept.tail else kept
  { h with entries := room ++ [entry], cursor := some room.length }

/-- Steps back, unless the present entry is the oldest. -/
def undo (h : History α) : Option α × History α :=
  match h.cursor with
  | some (before + 1) => (h.entries[before]?, { h with cursor := some before })
  | _ => (none, h)

/-- Steps forward, unless the present entry is the newest. -/
def redo (h : History α) : Option α × History α :=
  if h.reached < h.entries.length then
    (h.entries[h.reached]?, { h with cursor := some h.reached })
  else (none, h)

def current (h : History α) : Option α := h.cursor.bind (h.entries[·]?)

def canUndo (h : History α) : Bool := h.cursor.any (0 < ·)

def canRedo (h : History α) : Bool := h.reached < h.entries.length

def size (h : History α) : Nat := h.entries.length

def isEmpty (h : History α) : Bool := h.entries.isEmpty

def clear (h : History α) : History α := { h with entries := [], cursor := none }

end History

/-- What is kept of a diagram in its history. -/
structure Snapshot (ν : Type u) (ε : Type v) where
  nodes : List ν
  edges : List ε

end SchemaDiagram
