/-!
# Handles

Several handles may refer to one cell. A new handle comes with a cell of its own; the copy of a
handle refers to the same cell as the handle itself. Handles that refer to one cell form a family:
what is written through one of them is read through all.
-/

namespace Duelist

/-- Cells and the handles that refer to them, both numbered from zero. -/
structure Handles (α : Type) where
  /-- The contents of the cells. -/
  cells : List α := []
  /-- The cell of each handle. -/
  owners : List Nat := []
  /-- A handle refers to a cell that there is. -/
  lt_length : ∀ cell ∈ owners, cell < cells.length := by simp
  deriving Repr, DecidableEq

namespace Handles

variable {α : Type}

/-- The number of handles. -/
def count (h : Handles α) : Nat :=
  h.owners.length

/-- Adds a handle with a cell of its own. -/
def new (a : α) (h : Handles α) : Handles α where
  cells := h.cells ++ [a]
  owners := h.owners ++ [h.cells.length]
  lt_length := by
    have := h.lt_length
    grind

/-- Adds a copy of handle `n`, if there is one. -/
def copy (n : Nat) (h : Handles α) : Handles α where
  cells := h.cells
  owners := h.owners ++ (h.owners[n]?).toList
  lt_length := by
    have := h.lt_length
    grind

/-- Writes through handle `n`, if there is one. -/
def write (n : Nat) (a : α) (h : Handles α) : Handles α :=
  match h.owners[n]? with
  | some cell =>
    { cells := h.cells.set cell a, owners := h.owners, lt_length := by simpa using h.lt_length }
  | none => h

/-- Reads through handle `n`, if there is one. -/
def read? (n : Nat) (h : Handles α) : Option α :=
  (h.owners[n]?).bind (h.cells[·]?)

/-- What each handle reads, in order. -/
def readings (h : Handles α) : List α :=
  h.owners.filterMap (h.cells[·]?)

/-- A step with handles; the numbers are taken modulo the number of handles. -/
inductive Step (α : Type) where
  /-- Adds a handle with a cell of its own. -/
  | new (a : α)
  /-- Adds a copy of a handle. -/
  | copy (n : Nat)
  /-- Writes through a handle. -/
  | write (n : Nat) (a : α)
  /-- Changes nothing. -/
  | look

/-- Takes a step. -/
def step (h : Handles α) : Step α → Handles α
  | .new a => h.new a
  | .copy n => h.copy (n % h.count)
  | .write n a => h.write (n % h.count) a
  | .look => h

/-- What a look through handle `n` tells about a signal: whether it is raised. -/
def isRaised (n : Nat) (h : Handles Bool) : Bool :=
  (h.read? (n % h.count)).getD false

/-- What a wait through handle `n` tells about a signal, if the wait is over. It looks at the signal
time and again, and is over at the first look that finds the signal raised or the deadline passed.
Each look is given by its time and the handles at that time. -/
def wait? (n deadline : Nat) (looks : List (Nat × Handles Bool)) : Option Bool :=
  (looks.find? fun look => look.2.isRaised n || deadline ≤ look.1).map (·.2.isRaised n)

end Handles

end Duelist
