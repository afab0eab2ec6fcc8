import Liblsp.QueueFifo
import Liblsp.Base.Machine

/-!
# Non-blocking use of the queue

With a timeout of `0` a push or a pop returns at once.  One thread that only
uses the queue so, and clears it, gets the answers of a list of at most
`length` byte blocks.  The list is kept in the bytes behind the control block,
and no operation touches any other byte.
-/

namespace Liblsp

open Base

inductive QueueOp where
  | push (item : Nat → UInt8)
  | pop
  | clear

/-- The return value, and the block that a pop copied out. -/
abbrev QueueAnswer := SectionEnd × Option (List UInt8)

/-- `lsp_queue_clear` with a lock that is free. -/
def lspQueueClear (hdl : LspQueueHandle) : LspQueueHandle × SectionEnd :=
  if lspQueueInUse hdl then (hdl, .ret lspErrResourceInUse)
  else (lspQueueClearLocked hdl, .ret lspErrNone)

namespace QueueOp

/-- The three functions as one thread calls them. -/
def run (hdl : LspQueueHandle) : QueueOp → LspQueueHandle × QueueAnswer
  | .push item =>
      let (next, ending) := lspQueuePushLocked hdl item 0 none
      (next, ending, none)
  | .pop =>
      let (next, ending) := lspQueuePopLocked hdl 0 none
      let copied :=
        if ending = .ret lspErrNone then some (hdl.entry hdl.head) else none
      (next, ending, copied)
  | .clear =>
      let (next, ending) := lspQueueClear hdl
      (next, ending, none)

/-- Where the entry starts that an operation copies to or from. -/
def access (hdl : LspQueueHandle) : QueueOp → Option Nat
  | .push _ =>
      if hdl.isFull then none else some (entryFind hdl.tail hdl.itemsize)
  | .pop =>
      if hdl.isEmpty then none else some (entryFind hdl.head hdl.itemsize)
  | .clear => none

/-- The same operations on a list of at most `capacity` blocks. -/
def reference (capacity itemsize : Nat) (blocks : List (List UInt8)) :
    QueueOp → List (List UInt8) × QueueAnswer
  | .push item =>
      if blocks.length < capacity then
        (blocks ++ [(List.range itemsize).map item], .ret lspErrNone, none)
      else (blocks, .ret lspErrQueueFull, none)
  | .pop =>
      match blocks with
      | [] => ([], .ret lspErrQueueEmpty, none)
      | first :: rest => (rest, .ret lspErrNone, some first)
  | .clear => ([], .ret lspErrNone, none)

end QueueOp

theorem lspQueuePushLocked_now (hdl : LspQueueHandle) (item : Nat → UInt8)
    (clock : Option Timespec) :
    lspQueuePushLocked hdl item 0 clock =
      if hdl.isFull then (hdl, .ret lspErrQueueFull)
      else (hdl.store item, .ret lspErrNone) := by
  simp [lspQueuePushLocked]

theorem lspQueuePopLocked_now (hdl : LspQueueHandle)
    (clock : Option Timespec) :
    lspQueuePopLocked hdl 0 clock =
      if hdl.isEmpty then (hdl, .ret lspErrQueueEmpty)
      else (hdl.take, .ret lspErrNone) := by
  simp [lspQueuePopLocked]

namespace LspQueueHandle

/-- The entry number `slot` holds an item. -/
def StoredAt (hdl : LspQueueHandle) (slot : Nat) : Prop :=
  ∃ place < hdl.length.toNat,
    slot = (hdl.head.toNat + place) % hdl.queueSize

/-- The queue holds the given blocks and nobody waits for it. -/
structure Holds (capacity itemsize : Nat) (hdl : LspQueueHandle)
    (blocks : List (List UInt8)) : Prop where
  normal : hdl.Normal
  contents : hdl.contents = blocks
  queueSize : hdl.queueSize = capacity
  itemsize : hdl.itemsize = itemsize
  idle : lspQueueInUse hdl = false

variable {hdl : LspQueueHandle}

theorem Circular.isFull_iff (circular : hdl.Circular)
    (small : hdl.length ≤ intMax) :
    hdl.isFull = true ↔ hdl.queueSize ≤ hdl.contents.length := by
  rw [length_contents, isFull, toSize_of_range circular.lengthLow small]
  simp

namespace Normal

theorem isFull_iff (normal : hdl.Normal) :
    hdl.isFull = true ↔ hdl.queueSize ≤ hdl.contents.length := by
  have high := normal.lengthHigh
  have small := normal.sizeSmall
  exact normal.toCircular.isFull_iff (by omega)

theorem isEmpty_iff (normal : hdl.Normal) :
    hdl.isEmpty = true ↔ hdl.contents = [] := by
  have low := normal.lengthLow
  rw [← List.length_eq_zero_iff, length_contents, isEmpty,
    decide_eq_true_iff]
  omega

theorem entryFind_inside (normal : hdl.Normal) {slot : Nat}
    (below : slot < hdl.queueSize) :
    entryFind slot hdl.itemsize + hdl.itemsize ≤
      hdl.queueSize * hdl.itemsize := by
  have room : (slot + 1) * hdl.itemsize ≤ hdl.queueSize * hdl.itemsize :=
    Nat.mul_le_mul_right _ below
  rw [normal.entryFind_slot below]
  rw [Nat.add_mul, Nat.one_mul] at room
  exact room

/-- An item that is stored does not lie where the next one goes. -/
theorem storedAt_not_tail (normal : hdl.Normal)
    (room : hdl.length < hdl.queueSize) {slot : Nat}
    (stored : hdl.StoredAt slot) :
    slot ≠ (hdl.head.toNat + hdl.length.toNat) % hdl.queueSize := by
  obtain ⟨place, below, place_slot⟩ := stored
  have low := normal.lengthLow
  intro same
  have distinct := ringSlot_injective (by omega) (by omega)
    (place_slot.symm.trans same)
  omega

theorem entry_store (normal : hdl.Normal)
    (room : hdl.length < hdl.queueSize) (item : Nat → UInt8) {slot : Nat}
    (stored : hdl.StoredAt slot) :
    (hdl.store item).entry slot = hdl.entry slot := by
  have different := normal.storedAt_not_tail room stored
  have positive := normal.sizePositive
  have slotBelow : slot < hdl.queueSize := by
    obtain ⟨place, _, place_slot⟩ := stored
    rw [place_slot]
    exact Nat.mod_lt _ positive
  have tailBelow := Nat.mod_lt (hdl.head.toNat + hdl.length.toNat) positive
  change (hdl.writeEntry hdl.tail item).entry slot = hdl.entry slot
  rw [normal.tail]
  exact normal.entry_writeEntry_other tailBelow slotBelow different item

theorem clear (normal : hdl.Normal) : (lspQueueClearLocked hdl).Normal where
  sizePositive := normal.sizePositive
  sizeSmall := normal.sizeSmall
  fits := normal.fits
  headLow := Int.le_refl 0
  headHigh := Int.natCast_pos.mpr normal.sizePositive
  lengthLow := Int.le_refl 0
  lengthHigh := Int.natCast_nonneg hdl.queueSize
  tail := by simp [lspQueueClearLocked]

end Normal

end LspQueueHandle

namespace QueueOp

open LspQueueHandle

variable {capacity itemsize : Nat} {hdl : LspQueueHandle}
  {blocks : List (List UInt8)}

theorem push_holds (holds : hdl.Holds capacity itemsize blocks)
    (item : Nat → UInt8) :
    (run hdl (.push item)).1.Holds capacity itemsize
        (reference capacity itemsize blocks (.push item)).1 ∧
      (run hdl (.push item)).2 =
        (reference capacity itemsize blocks (.push item)).2 := by
  have full := holds.normal.isFull_iff
  rw [holds.contents, holds.queueSize] at full
  by_cases room : blocks.length < capacity
  · have notFull : hdl.isFull = false := by
      rw [Bool.eq_false_iff, ne_eq, full]
      omega
    have spare := QueueThreads.room_of_not_isFull holds.normal notFull
    simp only [run, reference, lspQueuePushLocked_now, notFull, if_pos room]
    refine ⟨⟨?_, ?_, holds.queueSize, holds.itemsize, holds.idle⟩, rfl⟩
    · exact holds.normal.store item spare
    · rw [← holds.itemsize, ← holds.contents]
      exact holds.normal.contents_store item spare
  · have closed : hdl.isFull = true := full.mpr (Nat.le_of_not_lt room)
    simp only [run, reference, lspQueuePushLocked_now, closed, if_neg room]
    exact ⟨holds, rfl⟩

theorem pop_holds (holds : hdl.Holds capacity itemsize blocks) :
    (run hdl .pop).1.Holds capacity itemsize
        (reference capacity itemsize blocks .pop).1 ∧
      (run hdl .pop).2 = (reference capacity itemsize blocks .pop).2 := by
  have empty := holds.normal.isEmpty_iff
  rw [holds.contents] at empty
  cases blocks with
  | nil =>
      have none := empty.mpr rfl
      simp only [run, reference, lspQueuePopLocked_now, none]
      exact ⟨holds, rfl⟩
  | cons first rest =>
      have some : hdl.isEmpty = false := by
        rw [Bool.eq_false_iff, ne_eq, empty]
        simp
      have present : 0 < hdl.length := by
        simpa [isEmpty] using some
      have taken := holds.normal.contents_take present
      rw [holds.contents, List.cons.injEq] at taken
      simp only [run, reference, lspQueuePopLocked_now, some]
      refine ⟨⟨?_, taken.2.symm, holds.queueSize, holds.itemsize,
        holds.idle⟩, ?_⟩
      · exact holds.normal.take present
      · rw [taken.1]
        rfl

theorem clear_holds (holds : hdl.Holds capacity itemsize blocks) :
    (run hdl .clear).1.Holds capacity itemsize
        (reference capacity itemsize blocks .clear).1 ∧
      (run hdl .clear).2 = (reference capacity itemsize blocks .clear).2 := by
  simp only [run, reference, lspQueueClear, holds.idle]
  refine ⟨⟨holds.normal.clear, ?_, holds.queueSize, holds.itemsize,
    holds.idle⟩, rfl⟩
  rw [← List.length_eq_zero_iff, length_contents]
  rfl

theorem simulates : Simulates (Holds capacity itemsize) run
    (reference capacity itemsize) := by
  intro hdl blocks op holds
  cases op with
  | push item => exact push_holds holds item
  | pop => exact pop_holds holds
  | clear => exact clear_holds holds

theorem access_inside (normal : hdl.Normal) {op : QueueOp} {start : Nat}
    (accessed : op.access hdl = some start) :
    start + hdl.itemsize ≤ hdl.queueSize * hdl.itemsize := by
  cases op with
  | push item =>
      simp only [access, Option.ite_none_left_eq_some,
        Option.some.injEq] at accessed
      obtain ⟨_, rfl⟩ := accessed
      rw [normal.tail]
      exact normal.entryFind_inside (Nat.mod_lt _ normal.sizePositive)
  | pop =>
      simp only [access, Option.ite_none_left_eq_some,
        Option.some.injEq] at accessed
      obtain ⟨_, rfl⟩ := accessed
      have low := normal.headLow
      have high := normal.headHigh
      have index : hdl.head = ↑hdl.head.toNat := by omega
      rw [index]
      exact normal.entryFind_inside (by omega)
  | clear => simp [access] at accessed

theorem entry_run (normal : hdl.Normal) (op : QueueOp) {slot : Nat}
    (stored : hdl.StoredAt slot) :
    (op.run hdl).1.entry slot = hdl.entry slot := by
  cases op with
  | push item =>
      cases full : hdl.isFull with
      | true => simp [run, lspQueuePushLocked_now, full]
      | false =>
          have room := QueueThreads.room_of_not_isFull normal full
          simpa [run, lspQueuePushLocked_now, full] using
            normal.entry_store room item stored
  | pop =>
      cases empty : hdl.isEmpty with
      | true => simp [run, lspQueuePopLocked_now, empty]
      | false =>
          simp only [run, lspQueuePopLocked_now, empty]
          rfl
  | clear =>
      simp only [run, lspQueueClear]
      split <;> rfl

/-- A queue in memory and the list of blocks that it stands for. -/
structure RefinesBlocks (capacity itemsize : Nat) (hdl : LspQueueHandle)
    (blocks : List (List UInt8)) : Prop where
  contents : hdl.contents = blocks
  bounded : blocks.length ≤ capacity
  inside : ∀ (op : QueueOp) (start : Nat), op.access hdl = some start →
    start + itemsize ≤ capacity * itemsize
  kept : ∀ (op : QueueOp) (slot : Nat), hdl.StoredAt slot →
    (op.run hdl).1.entry slot = hdl.entry slot

theorem refinesBlocks_of_holds
    (holds : hdl.Holds capacity itemsize blocks) :
    RefinesBlocks capacity itemsize hdl blocks := by
  have normal := holds.normal
  constructor
  · exact holds.contents
  · have high := normal.lengthHigh
    rw [← holds.contents, length_contents, ← holds.queueSize]
    omega
  · intro op start accessed
    rw [← holds.itemsize, ← holds.queueSize]
    exact access_inside normal accessed
  · intro op slot stored
    exact entry_run normal op stored

/-- However one thread mixes non-blocking pushes and pops with clears, the
queue answers like the list, and its entries stay what the list holds. -/
theorem refinesBlocks_of_play {length : Int}
    (created : lspQueueCreate length itemsize true true = some hdl)
    (positive : 1 ≤ length) (small : length ≤ intMax)
    (fits : QueueThreads.BlockFits length itemsize) (ops : List QueueOp) :
    RefinesBlocks length.toNat itemsize (play run hdl ops).1
        (play (reference length.toNat itemsize) [] ops).1 ∧
      (play run hdl ops).2 =
        (play (reference length.toNat itemsize) [] ops).2 := by
  have start : hdl.Holds length.toNat itemsize [] := by
    have normal := QueueThreads.normal_of_created created positive small fits
    simp only [lspQueueCreate, Bool.and_self, if_true,
      Option.some.injEq] at created
    subst hdl
    exact ⟨normal, rfl, toSize_of_range (by omega) small, rfl, rfl⟩
  obtain ⟨last, answers⟩ := simulates.play start ops
  exact ⟨refinesBlocks_of_holds last, answers⟩

/-- Two entries of one byte, gone round more than once. -/
def wrappedAround : List QueueOp :=
  [.pop, .push (fun _ => 1), .push (fun _ => 2), .push (fun _ => 3), .pop,
    .push (fun _ => 4), .pop, .pop, .clear, .pop]

theorem refinesBlocks_wrappedAround :
    ∃ hdl, lspQueueCreate 2 1 true true = some hdl ∧
      (play run hdl wrappedAround).2.map Prod.snd =
        [none, none, none, none, some [1], none, some [2], some [4], none,
          none] ∧
      RefinesBlocks 2 1 (play run hdl wrappedAround).1 [] := by
  refine ⟨_, rfl, by decide, ?_⟩
  have fits : QueueThreads.BlockFits 2 1 := by
    simp only [QueueThreads.BlockFits, alignedSizeofQueueHandle]
    decide
  exact (refinesBlocks_of_play rfl (by decide) (by decide) fits
    wrappedAround).1

end QueueOp

end Liblsp
