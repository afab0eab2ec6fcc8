import Liblsp.Queue

/-!
# The items of a queue

A queue in its normal state holds a list of items of `itemsize` bytes each:
the entries met when going round from the head.  Storing an item appends it,
taking one removes the first.
-/

namespace Liblsp

open Base

namespace LspQueueHandle

/-- The bytes of one item. -/
def block (hdl : LspQueueHandle) (item : Nat → UInt8) : List UInt8 :=
  (List.range hdl.itemsize).map item

/-- The stored items, read from the head. -/
def contents (hdl : LspQueueHandle) : List (List UInt8) :=
  ringContents (fun slot => hdl.entry slot) hdl.head.toNat hdl.queueSize
    hdl.length.toNat

/-- The state between two operations.  A push that wakes up to a full queue
stores all the same, so the length may exceed the number of entries. -/
structure Circular (hdl : LspQueueHandle) : Prop where
  sizePositive : 0 < hdl.queueSize
  sizeSmall : (hdl.queueSize : Int) ≤ intMax
  fits : hdl.queueSize * hdl.itemsize < 18446744073709551616
  headLow : 0 ≤ hdl.head
  headHigh : hdl.head < hdl.queueSize
  lengthLow : 0 ≤ hdl.length
  tail : hdl.tail =
    ↑((hdl.head.toNat + hdl.length.toNat) % hdl.queueSize)

/-- The state between two operations if no push stored into a full queue. -/
structure Normal (hdl : LspQueueHandle) : Prop extends Circular hdl where
  lengthHigh : hdl.length ≤ hdl.queueSize

/-- Counters that only say who waits are no part of the contents. -/
def SameItems (left right : LspQueueHandle) : Prop :=
  left.length = right.length ∧ left.head = right.head ∧
    left.tail = right.tail ∧ left.queueSize = right.queueSize ∧
    left.itemsize = right.itemsize ∧ left.data = right.data

theorem SameItems.refl (hdl : LspQueueHandle) : SameItems hdl hdl :=
  ⟨rfl, rfl, rfl, rfl, rfl, rfl⟩

theorem SameItems.contents {left right : LspQueueHandle}
    (same : SameItems left right) : left.contents = right.contents := by
  obtain ⟨length, head, _, size, itemsize, data⟩ := same
  unfold LspQueueHandle.contents LspQueueHandle.entry
  rw [length, head, size, itemsize, data]

theorem SameItems.circular {left right : LspQueueHandle}
    (same : SameItems left right) (circular : Circular right) :
    Circular left := by
  obtain ⟨length, head, tail, size, itemsize, _⟩ := same
  constructor
  · rw [size]
    exact circular.sizePositive
  · rw [size]
    exact circular.sizeSmall
  · rw [size, itemsize]
    exact circular.fits
  · rw [head]
    exact circular.headLow
  · rw [head, size]
    exact circular.headHigh
  · rw [length]
    exact circular.lengthLow
  · rw [tail, head, length, size]
    exact circular.tail

theorem SameItems.normal {left right : LspQueueHandle}
    (same : SameItems left right) (normal : Normal right) : Normal left := by
  refine ⟨same.circular normal.toCircular, ?_⟩
  obtain ⟨length, _, _, size, _, _⟩ := same
  rw [length, size]
  exact normal.lengthHigh

namespace Circular

variable {hdl : LspQueueHandle}

/-- Slots of a queue that fits in memory lie one behind the other. -/
theorem entryFind_slot (circular : Circular hdl) {slot : Nat}
    (below : slot < hdl.queueSize) :
    entryFind slot hdl.itemsize = slot * hdl.itemsize := by
  have bound : slot * hdl.itemsize ≤ hdl.queueSize * hdl.itemsize :=
    Nat.mul_le_mul_right _ (Nat.le_of_lt below)
  have small := circular.sizeSmall
  have fits := circular.fits
  have size : toSize slot = slot := by
    rw [toSize_of_range] <;> omega
  rw [entryFind, size, wrapSize_of_lt (by omega)]

private theorem slots_disjoint {itemsize left right byte : Nat}
    (different : left ≠ right) (inside : byte < itemsize) :
    ¬(right * itemsize ≤ left * itemsize + byte ∧
      left * itemsize + byte < right * itemsize + itemsize) := by
  rcases Nat.lt_or_gt_of_ne different with less | greater
  · have room : (left + 1) * itemsize ≤ right * itemsize :=
      Nat.mul_le_mul_right _ less
    rw [Nat.add_mul] at room
    omega
  · have room : (right + 1) * itemsize ≤ left * itemsize :=
      Nat.mul_le_mul_right _ greater
    rw [Nat.add_mul] at room
    omega

theorem entry_writeEntry_same (hdl : LspQueueHandle) (index : Int)
    (item : Nat → UInt8) :
    (hdl.writeEntry index item).entry index = hdl.block item := by
  unfold entry block
  apply List.map_congr_left
  intro byte member
  have inside : byte < hdl.itemsize := List.mem_range.mp member
  simp [writeEntry, inside]

theorem entry_writeEntry_other (circular : Circular hdl) {slot other : Nat}
    (slotBelow : slot < hdl.queueSize) (otherBelow : other < hdl.queueSize)
    (different : other ≠ slot) (item : Nat → UInt8) :
    (hdl.writeEntry slot item).entry other = hdl.entry other := by
  unfold entry
  apply List.map_congr_left
  intro byte member
  have inside : byte < hdl.itemsize := List.mem_range.mp member
  have outside := slots_disjoint different inside
  simp only [writeEntry, circular.entryFind_slot slotBelow,
    circular.entryFind_slot otherBelow, if_neg outside]

theorem advance_index (circular : Circular hdl) {index : Nat}
    (below : index < hdl.queueSize) :
    toInt ↑(toSize (toInt (↑index + 1)) % hdl.queueSize) =
      ↑((index + 1) % hdl.queueSize) := by
  have small := circular.sizeSmall
  have lower := intMin_neg
  have next : toInt (↑index + 1) = ↑(index + 1) := by
    rw [toInt_of_range] <;> omega
  have size : toSize ↑(index + 1) = index + 1 := by
    rw [toSize_of_range] <;> omega
  have wrapped : (index + 1) % hdl.queueSize < hdl.queueSize :=
    Nat.mod_lt _ circular.sizePositive
  rw [next, size, toInt_of_range] <;> omega

theorem length_store (circular : Circular hdl) (item : Nat → UInt8)
    (below : hdl.length < intMax) :
    (hdl.store item).length = hdl.length + 1 := by
  have low := circular.lengthLow
  have lower := intMin_neg
  change toInt (hdl.length + 1) = _
  rw [toInt_of_range] <;> omega

theorem tail_store (circular : Circular hdl) (item : Nat → UInt8)
    (small : hdl.length < intMax) :
    (hdl.store item).tail =
      ↑(((hdl.store item).head.toNat + (hdl.store item).length.toNat) %
        (hdl.store item).queueSize) := by
  have below := Nat.mod_lt (hdl.head.toNat + hdl.length.toNat)
    circular.sizePositive
  have longer : (hdl.store item).length.toNat = hdl.length.toNat + 1 := by
    have low := circular.lengthLow
    rw [circular.length_store item small]
    omega
  change toInt ↑(toSize (toInt (hdl.tail + 1)) % hdl.queueSize) =
    ↑((hdl.head.toNat + (hdl.store item).length.toNat) % hdl.queueSize)
  rw [circular.tail, circular.advance_index below, longer, Nat.mod_add_mod,
    Nat.add_assoc]

theorem store (circular : Circular hdl) (item : Nat → UInt8)
    (small : hdl.length < intMax) : Circular (hdl.store item) := by
  have longer := circular.length_store item small
  have low := circular.lengthLow
  constructor
  · exact circular.sizePositive
  · exact circular.sizeSmall
  · exact circular.fits
  · exact circular.headLow
  · exact circular.headHigh
  · omega
  · exact circular.tail_store item small

/-- An item that is stored comes behind the others, and over the one in its
entry if there is one. -/
theorem contents_store (circular : Circular hdl) (item : Nat → UInt8)
    (small : hdl.length < intMax) :
    (hdl.store item).contents =
      storeRound hdl.queueSize hdl.contents (hdl.block item) := by
  have low := circular.lengthLow
  have longer : (hdl.store item).length.toNat = hdl.length.toNat + 1 := by
    rw [circular.length_store item small]
    omega
  have slotBelow := Nat.mod_lt (hdl.head.toNat + hdl.length.toNat)
    circular.sizePositive
  have kept : ∀ slot, slot < hdl.queueSize →
      slot ≠ (hdl.head.toNat + hdl.length.toNat) % hdl.queueSize →
      (hdl.writeEntry hdl.tail item).entry slot = hdl.entry slot := by
    intro slot below different
    rw [circular.tail]
    exact circular.entry_writeEntry_other slotBelow below different item
  have added := ringContents_storeRound circular.sizePositive kept
  have written : (hdl.writeEntry hdl.tail item).entry
      ↑((hdl.head.toNat + hdl.length.toNat) % hdl.queueSize) =
        hdl.block item := by
    rw [← circular.tail]
    exact entry_writeEntry_same hdl hdl.tail item
  rw [written] at added
  unfold contents
  rw [longer]
  exact added

theorem head_take (circular : Circular hdl) :
    hdl.take.head = ↑((hdl.head.toNat + 1) % hdl.queueSize) := by
  have low := circular.headLow
  have high := circular.headHigh
  have index : hdl.head = ↑hdl.head.toNat := by omega
  change toInt ↑(toSize (toInt (hdl.head + 1)) % hdl.queueSize) = _
  rw [index]
  exact circular.advance_index (by omega)

end Circular

theorem length_contents (hdl : LspQueueHandle) :
    hdl.contents.length = hdl.length.toNat := by
  simp [contents, ringContents]

namespace Normal

variable {hdl : LspQueueHandle}

theorem length_small (normal : Normal hdl)
    (room : hdl.length < hdl.queueSize) : hdl.length < intMax :=
  Int.lt_of_lt_of_le room normal.sizeSmall

theorem length_take (normal : Normal hdl) (present : 0 < hdl.length) :
    hdl.take.length = hdl.length - 1 := by
  have small := normal.sizeSmall
  have high := normal.lengthHigh
  have lower := intMin_neg
  change toInt (hdl.length - 1) = _
  rw [toInt_of_range] <;> omega

theorem store (normal : Normal hdl) (item : Nat → UInt8)
    (room : hdl.length < hdl.queueSize) : Normal (hdl.store item) := by
  have small := normal.length_small room
  have longer := normal.length_store item small
  refine ⟨normal.toCircular.store item small, ?_⟩
  change (hdl.store item).length ≤ (hdl.queueSize : Int)
  omega

/-- Storing an item appends it. -/
theorem contents_store (normal : Normal hdl) (item : Nat → UInt8)
    (room : hdl.length < hdl.queueSize) :
    (hdl.store item).contents = hdl.contents ++ [hdl.block item] := by
  have low := normal.lengthLow
  rw [normal.toCircular.contents_store item (normal.length_small room),
    storeRound_of_room]
  rw [length_contents]
  omega

theorem take (normal : Normal hdl) (present : 0 < hdl.length) :
    Normal hdl.take := by
  have shorter := normal.length_take present
  have moved := normal.head_take
  have high := normal.lengthHigh
  have headBelow := Nat.mod_lt (hdl.head.toNat + 1) normal.sizePositive
  refine ⟨?_, ?_⟩
  · constructor
    · exact normal.sizePositive
    · exact normal.sizeSmall
    · exact normal.fits
    · omega
    · change hdl.take.head < (hdl.queueSize : Int)
      omega
    · omega
    · change hdl.tail =
        ↑((hdl.take.head.toNat + hdl.take.length.toNat) % hdl.queueSize)
      have lengths : 1 + (hdl.length - 1).toNat = hdl.length.toNat := by
        omega
      rw [normal.tail, moved, shorter, Int.toNat_natCast, Nat.mod_add_mod,
        Nat.add_assoc, lengths]
  · change hdl.take.length ≤ (hdl.queueSize : Int)
    omega

/-- Taking an item removes the first one, the entry at the head. -/
theorem contents_take (normal : Normal hdl) (present : 0 < hdl.length) :
    hdl.contents = hdl.entry hdl.head :: hdl.take.contents := by
  have low := normal.headLow
  have high := normal.headHigh
  have count : hdl.length.toNat = hdl.take.length.toNat + 1 := by
    rw [normal.length_take present]
    omega
  have first : (↑(hdl.head.toNat % hdl.queueSize) : Int) = hdl.head := by
    rw [Nat.mod_eq_of_lt (by omega)]
    omega
  have advanced := ringContents_advance (fun slot => hdl.entry slot)
    hdl.head.toNat hdl.queueSize hdl.take.length.toNat
  rw [first] at advanced
  have rest : hdl.take.contents =
      ringContents (fun slot => hdl.entry slot)
        ((hdl.head.toNat + 1) % hdl.queueSize) hdl.queueSize
        hdl.take.length.toNat := by
    unfold contents
    rw [normal.head_take, Int.toNat_natCast]
    rfl
  rw [rest, ← advanced, ← count]
  rfl

end Normal

end LspQueueHandle

end Liblsp
