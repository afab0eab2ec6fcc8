import Mathlib.Data.List.Basic
import Mathlib.Tactic.TypeStar

/-!
# Reading and writing ranges of a memory

A memory assigns a cell to every address.  A write of a list replaces the
cells from its start on; a read yields the cells of a range.
-/

namespace Base

variable {β : Type*}

/-- The `count` cells from `start` on. -/
def readCells (memory : Nat → β) (start count : Nat) : List β :=
  (List.range count).map fun place => memory (start + place)

/-- Put the cells of a list from `start` on. -/
def writeCells (memory : Nat → β) (start : Nat) (cells : List β) : Nat → β :=
  fun address =>
    if start ≤ address then cells.getD (address - start) (memory address)
    else memory address

@[simp] theorem length_readCells (memory : Nat → β) (start count : Nat) :
    (readCells memory start count).length = count := by
  simp [readCells]

theorem readCells_congr {memory other : Nat → β} {start count : Nat}
    (same : ∀ address, start ≤ address → address < start + count →
      memory address = other address) :
    readCells memory start count = readCells other start count := by
  apply List.map_congr_left
  intro place member
  have below : place < count := List.mem_range.mp member
  exact same _ (Nat.le_add_right _ _) (Nat.add_lt_add_left below start)

theorem readCells_add (memory : Nat → β) (start count more : Nat) :
    readCells memory start (count + more) =
      readCells memory start count ++
        readCells memory (start + count) more := by
  simp [readCells, List.range_add, Nat.add_assoc, Function.comp_def]

theorem take_readCells (memory : Nat → β) {start part count : Nat}
    (within : part ≤ count) :
    (readCells memory start count).take part =
      readCells memory start part := by
  obtain ⟨more, rfl⟩ := Nat.exists_eq_add_of_le within
  rw [readCells_add]
  exact List.take_left' (length_readCells memory start part)

theorem drop_readCells (memory : Nat → β) {start part count : Nat}
    (within : part ≤ count) :
    (readCells memory start count).drop part =
      readCells memory (start + part) (count - part) := by
  obtain ⟨more, rfl⟩ := Nat.exists_eq_add_of_le within
  rw [readCells_add, Nat.add_sub_cancel_left]
  exact List.drop_left' (length_readCells memory start part)

theorem readCells_writeCells (memory : Nat → β) (start : Nat)
    (cells : List β) :
    readCells (writeCells memory start cells) start cells.length = cells := by
  apply List.ext_getElem
  · apply length_readCells
  · intro place inRange inCells
    simp [readCells, writeCells, inCells]

theorem readCells_writeCells_apart (memory : Nat → β)
    {start other count : Nat} {cells : List β}
    (apart : other + count ≤ start ∨ start + cells.length ≤ other) :
    readCells (writeCells memory start cells) other count =
      readCells memory other count := by
  apply List.map_congr_left
  intro place member
  have below : place < count := List.mem_range.mp member
  rcases apart with before | after
  · have outside : ¬start ≤ other + place := by omega
    simp [writeCells, outside]
  · have beyond : cells.length ≤ other + place - start := by omega
    simp [writeCells, List.getElem?_eq_none beyond]

end Base
