import Mathlib.Data.Nat.ModEq
import Mathlib.Tactic.TypeStar

/-!
# Ring buffers

The contents of a ring buffer are the cells met when going round from the
head.  Storing behind the last of them appends as long as there is a free
cell, and else overwrites; advancing the head removes the first.
-/

namespace Base

variable {β γ : Type*}

/-- The `count` cells from `head` on, going round after `capacity` cells. -/
def ringContents (cells : Nat → β) (head capacity count : Nat) : List β :=
  (List.range count).map fun offset => cells ((head + offset) % capacity)

/-- A store behind the items of a full ring goes round: the item also comes
over those that lie in its cell. -/
def storeRound (capacity : Nat) (items : List β) (item : β) : List β :=
  (items.mapIdx fun place old =>
    if place % capacity = items.length % capacity then item else old) ++
      [item]

theorem storeRound_of_room {capacity : Nat} {items : List β} {item : β}
    (room : items.length < capacity) :
    storeRound capacity items item = items ++ [item] := by
  have unchanged : (items.mapIdx fun place old =>
      if place % capacity = items.length % capacity then item else old) =
        items := by
    apply List.ext_getElem
    · rw [List.length_mapIdx]
    · intro place _ below
      rw [List.getElem_mapIdx, if_neg]
      rw [Nat.mod_eq_of_lt (Nat.lt_trans below room), Nat.mod_eq_of_lt room]
      exact Nat.ne_of_lt below
  rw [storeRound, unchanged]

/-- On a full ring the first of the items is lost. -/
theorem storeRound_of_full {capacity : Nat} {first item : β} {rest : List β}
    (full : (first :: rest).length = capacity) :
    storeRound capacity (first :: rest) item = item :: (rest ++ [item]) := by
  have unchanged : (rest.mapIdx fun place old =>
      if (place + 1) % capacity = 0 then item else old) = rest := by
    apply List.ext_getElem
    · rw [List.length_mapIdx]
    · intro place _ below
      rw [List.length_cons] at full
      rw [List.getElem_mapIdx, if_neg]
      rw [Nat.mod_eq_of_lt (by omega)]
      exact Nat.succ_ne_zero place
  simp [storeRound, full, List.mapIdx_cons, unchanged]

theorem map_storeRound (f : β → γ) (capacity : Nat) (items : List β)
    (item : β) :
    (storeRound capacity items item).map f =
      storeRound capacity (items.map f) (f item) := by
  simp only [storeRound, List.map_append, List.map_cons, List.map_nil,
    List.length_map, List.append_cancel_right_eq]
  apply List.ext_getElem
  · simp
  · intro place _ _
    simp only [List.getElem_map, List.getElem_mapIdx]
    split
    · rfl
    · rfl

theorem ringSlot_eq_iff {head capacity left right : Nat} :
    (head + left) % capacity = (head + right) % capacity ↔
      left % capacity = right % capacity := by
  constructor
  · intro same
    exact Nat.ModEq.add_left_cancel' head same
  · intro same
    exact Nat.ModEq.add_left head same

theorem ringSlot_injective {head capacity left right : Nat}
    (leftLt : left < capacity) (rightLt : right < capacity)
    (same : (head + left) % capacity = (head + right) % capacity) :
    left = right := by
  have congruent : left % capacity = right % capacity :=
    ringSlot_eq_iff.mp same
  rwa [Nat.mod_eq_of_lt leftLt, Nat.mod_eq_of_lt rightLt] at congruent

/-- A write to the cell behind the contents stores its item round. -/
theorem ringContents_storeRound {cells written : Nat → β}
    {head capacity count : Nat} (positive : 0 < capacity)
    (kept : ∀ slot, slot < capacity → slot ≠ (head + count) % capacity →
      written slot = cells slot) :
    ringContents written head capacity (count + 1) =
      storeRound capacity (ringContents cells head capacity count)
        (written ((head + count) % capacity)) := by
  have before : (List.range count).map
        (fun offset => written ((head + offset) % capacity)) =
      (ringContents cells head capacity count).mapIdx fun place old =>
        if place % capacity =
            (ringContents cells head capacity count).length % capacity then
          written ((head + count) % capacity)
        else old := by
    apply List.ext_getElem
    · simp [ringContents]
    · intro place _ _
      simp only [ringContents, List.getElem_map, List.getElem_range,
        List.getElem_mapIdx, List.length_map, List.length_range]
      split
      · rename_i same
        rw [ringSlot_eq_iff.mpr same]
      · rename_i different
        apply kept _ (Nat.mod_lt _ positive)
        intro same
        exact different (ringSlot_eq_iff.mp same)
  rw [storeRound, ← before]
  simp only [ringContents, List.range_succ, List.map_append, List.map_cons,
    List.map_nil]

/-- Moving the head on by one cell drops the first of the contents. -/
theorem ringContents_advance (cells : Nat → β) (head capacity count : Nat) :
    ringContents cells head capacity (count + 1) =
      cells (head % capacity) ::
        ringContents cells ((head + 1) % capacity) capacity count := by
  simp only [ringContents, List.range_succ_eq_map, List.map_cons,
    List.map_map, Nat.add_zero]
  congr 1
  apply List.map_congr_left
  intro offset _
  simp [Nat.add_assoc, Nat.add_comm 1]

end Base
