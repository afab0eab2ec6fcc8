import Liblsp.Base.BitFields
import Liblsp.Base.CInt
import Mathlib.Data.List.GetD

/-!
# Memory behind 64-bit addresses

An address is a number below `2 ^ 64`, and a range that reaches the end of the
address space goes on at its start.  A range that does not reach the end is
an ordinary range of cells.
-/

namespace Base

variable {β : Type*}

/-- The `count` cells from `start` on. -/
def readAround (memory : Nat → β) (start count : Nat) : List β :=
  readCells (fun address => memory (wrapSize address)) start count

/-- Put the cells of a list from `start` on. -/
def writeAround (memory : Nat → β) (start : Nat) (cells : List β) : Nat → β :=
  fun address =>
    if address < 18446744073709551616 then
      cells.getD (toSize ((address : Int) - (start : Int))) (memory address)
    else memory address

section Ranges

variable {memory : Nat → β} {start count other : Nat} {cells : List β}

@[simp] theorem length_readAround (memory : Nat → β) (start count : Nat) :
    (readAround memory start count).length = count :=
  length_readCells _ _ _

theorem readAround_eq (within : start + count ≤ 18446744073709551616) :
    readAround memory start count = readCells memory start count := by
  apply List.map_congr_left
  intro place member
  have below : place < count := List.mem_range.mp member
  have address : wrapSize (start + place) = start + place :=
    wrapSize_of_lt (by omega)
  exact congrArg memory address

theorem writeAround_apply {address : Nat}
    (within : start + cells.length ≤ 18446744073709551616)
    (valid : address < 18446744073709551616) :
    writeAround memory start cells address =
      writeCells memory start cells address := by
  rw [writeAround, if_pos valid, writeCells]
  by_cases reached : start ≤ address
  · rw [if_pos reached, toSize_sub reached valid]
  · have beyond : cells.length ≤
        toSize ((address : Int) - (start : Int)) := by
      simp only [toSize]
      omega
    rw [if_neg reached, List.getD_eq_default _ _ beyond]

theorem readAround_writeAround
    (fits : cells.length ≤ 18446744073709551616) :
    readAround (writeAround memory start cells) start cells.length =
      cells := by
  apply List.ext_getElem
  · rw [length_readAround]
  · intro place inRange inCells
    have valid := wrapSize_lt (start + place)
    have index : toSize ((wrapSize (start + place) : Nat) - (start : Int)) =
        place := by
      simp only [toSize, wrapSize]
      omega
    simp only [readAround, readCells, List.getElem_map, List.getElem_range,
      writeAround, if_pos valid, index]
    exact List.getD_eq_getElem _ _ inCells

theorem readAround_writeAround_apart
    (before : count ≤ toSize ((start : Int) - (other : Int)))
    (behind : cells.length ≤ toSize ((other : Int) - (start : Int))) :
    readAround (writeAround memory start cells) other count =
      readAround memory other count := by
  apply List.map_congr_left
  intro place member
  have below : place < count := List.mem_range.mp member
  have valid := wrapSize_lt (other + place)
  have beyond : cells.length ≤
      toSize ((wrapSize (other + place) : Nat) - (start : Int)) := by
    simp only [toSize, wrapSize] at before behind ⊢
    omega
  simp only [writeAround, if_pos valid]
  exact List.getD_eq_default _ _ beyond

theorem writeAround_readAround (memory : Nat → β) (start count : Nat) :
    writeAround memory start (readAround memory start count) = memory := by
  funext address
  unfold writeAround
  split
  · rename_i valid
    by_cases inside : toSize ((address : Int) - (start : Int)) < count
    · have place : wrapSize
          (start + toSize ((address : Int) - (start : Int))) = address := by
        simp only [toSize, wrapSize] at inside ⊢
        omega
      rw [List.getD_eq_getElem _ _ (by rwa [length_readAround])]
      simp only [readAround, readCells, List.getElem_map, List.getElem_range,
        place]
    · apply List.getD_eq_default
      rw [length_readAround]
      exact Nat.le_of_not_lt inside
  · rfl

end Ranges

/-! ## Records of 64-bit words -/

/-- A word of a record whose first byte is at `start`. -/
@[irreducible] def loadUnit (memory : Nat → UInt8) (start unit : Nat) : Nat :=
  ofBytes (readAround memory (start + 8 * unit) 8)

def storeUnit (start : Nat) (memory : Nat → UInt8) (unit word : Nat) :
    Nat → UInt8 :=
  writeAround memory (start + 8 * unit) (readCells (byteAt word) 0 8)

section Units

variable {memory : Nat → UInt8} {start unit other word : Nat}

theorem loadUnit_lt (memory : Nat → UInt8) (start unit : Nat) :
    loadUnit memory start unit < 18446744073709551616 := by
  have bound := ofBytes_lt (readAround memory (start + 8 * unit) 8)
  rw [length_readAround] at bound
  rw [loadUnit]
  exact bound

theorem loadUnit_storeUnit (small : word < 18446744073709551616) :
    loadUnit (storeUnit start memory unit word) start unit = word := by
  have written := @readAround_writeAround UInt8 memory (start + 8 * unit)
    (readCells (byteAt word) 0 8) (by rw [length_readCells]; decide)
  rw [length_readCells] at written
  rw [loadUnit, storeUnit, written, ofBytes_readCells]
  exact Nat.mod_eq_of_lt small

theorem loadUnit_storeUnit_other (different : other ≠ unit)
    (small : unit < 2305843009213693952)
    (otherSmall : other < 2305843009213693952) :
    loadUnit (storeUnit start memory unit word) start other =
      loadUnit memory start other := by
  rw [loadUnit, loadUnit, storeUnit, readAround_writeAround_apart]
  · simp only [toSize]
    omega
  · rw [length_readCells]
    simp only [toSize]
    omega

theorem loadUnit_congr {changed : Nat → UInt8}
    (within : start + 8 * unit + 8 ≤ 18446744073709551616)
    (same : ∀ address, start ≤ address → address < start + 8 * unit + 8 →
      changed address = memory address) :
    loadUnit changed start unit = loadUnit memory start unit := by
  rw [loadUnit, loadUnit, readAround_eq within, readAround_eq within]
  apply congrArg ofBytes
  apply readCells_congr
  intro address after before
  exact same address (by omega) before

theorem storeUnit_apply {address : Nat}
    (behind : start + 8 * unit + 8 ≤ address)
    (valid : address < 18446744073709551616) :
    storeUnit start memory unit word address = memory address := by
  have beyond : (readCells (byteAt word) 0 8).length ≤
      address - (start + 8 * unit) := by
    rw [length_readCells]
    omega
  have size := length_readCells (byteAt word) 0 8
  rw [storeUnit, writeAround_apply (by omega) valid, writeCells,
    if_pos (by omega), List.getD_eq_default _ _ beyond]

/-- Store some words of a record, each given with its place. -/
def storeUnits (start : Nat) (memory : Nat → UInt8)
    (words : List (Nat × Nat)) : Nat → UInt8 :=
  words.foldl (fun memory entry => storeUnit start memory entry.1 entry.2)
    memory

theorem loadUnit_storeUnits_other {words : List (Nat × Nat)}
    (small : ∀ entry, entry ∈ words → entry.1 < 2305843009213693952)
    (otherSmall : other < 2305843009213693952)
    (absent : ∀ entry, entry ∈ words → other ≠ entry.1) :
    loadUnit (storeUnits start memory words) start other =
      loadUnit memory start other := by
  induction words generalizing memory with
  | nil => rfl
  | cons first words induction =>
      have here := @loadUnit_storeUnit_other memory start first.1 other first.2
        (absent _ List.mem_cons_self) (small _ List.mem_cons_self) otherSmall
      rw [← here]
      exact induction (fun _ member => small _ (List.mem_cons_of_mem _ member))
        (fun _ member => absent _ (List.mem_cons_of_mem _ member))

theorem storeUnit_loadUnit (memory : Nat → UInt8) (start unit : Nat) :
    storeUnit start memory unit (loadUnit memory start unit) = memory := by
  have bound := loadUnit_lt memory start unit
  have number : ofBytes (readCells (byteAt (loadUnit memory start unit)) 0 8)
      = loadUnit memory start unit :=
    (ofBytes_readCells _ 8).trans (Nat.mod_eq_of_lt bound)
  have bytes : readCells (byteAt (loadUnit memory start unit)) 0 8 =
      readAround memory (start + 8 * unit) 8 := by
    apply ofBytes_injective
    · rw [length_readCells, length_readAround]
    · rw [number, loadUnit]
  rw [storeUnit, bytes, writeAround_readAround]

theorem storeUnits_same {words : List (Nat × Nat)}
    (same : ∀ entry, entry ∈ words →
      entry.2 = loadUnit memory start entry.1) :
    storeUnits start memory words = memory := by
  induction words with
  | nil => rfl
  | cons first words induction =>
      have here := storeUnit_loadUnit memory start first.1
      rw [← same first List.mem_cons_self] at here
      rw [storeUnits, List.foldl_cons, here]
      exact induction fun _ member => same _ (List.mem_cons_of_mem _ member)

/-- Words that are stored in different places are all there afterwards. -/
theorem loadUnit_storeUnits {words : List (Nat × Nat)}
    (small : ∀ entry, entry ∈ words → entry.1 < 2305843009213693952)
    (distinct : (words.map Prod.fst).Nodup) (member : (unit, word) ∈ words)
    (valid : word < 18446744073709551616) :
    loadUnit (storeUnits start memory words) start unit = word := by
  induction words generalizing memory with
  | nil => cases member
  | cons first words induction =>
      rw [List.map_cons, List.nodup_cons] at distinct
      obtain ⟨fresh, later⟩ := distinct
      have rest : ∀ entry, entry ∈ words → entry.1 < 2305843009213693952 :=
        fun _ among => small _ (List.mem_cons_of_mem _ among)
      rcases List.mem_cons.mp member with isFirst | among
      · subst first
        have absent : ∀ entry, entry ∈ words → unit ≠ entry.1 := by
          intro entry among same
          have known : entry.1 ∈ words.map Prod.fst :=
            List.mem_map_of_mem among
          rw [← same] at known
          exact fresh known
        have kept := @loadUnit_storeUnits_other
          (storeUnit start memory unit word) start unit words rest
          (small _ List.mem_cons_self) absent
        exact kept.trans (loadUnit_storeUnit valid)
      · exact induction rest later among

theorem storeUnits_apply {words : List (Nat × Nat)} {address : Nat}
    (behind : ∀ entry, entry ∈ words → start + 8 * entry.1 + 8 ≤ address)
    (valid : address < 18446744073709551616) :
    storeUnits start memory words address = memory address := by
  induction words generalizing memory with
  | nil => rfl
  | cons entry words induction =>
      have here := @storeUnit_apply memory start entry.1 entry.2 address
        (behind _ List.mem_cons_self) valid
      rw [← here]
      exact induction fun _ member => behind _ (List.mem_cons_of_mem _ member)

end Units

end Base
