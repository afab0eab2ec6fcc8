import Liblsp.Buffer
import Liblsp.QueueFifo

/-!
# Blocks and what is placed in them

`lsp_buffer_alloc` and `lsp_queue_create` compute the size of their block in
`size_t` and record the capacity they were asked for.  The two agree as long
as the sum, respectively the sum and the product, does not wrap around.
-/

namespace Liblsp

open Base

/-- The descriptor and the range from `head` to `end` lie in a block of `size`
bytes. -/
structure LspBuffer.InBlock (buff : LspBuffer) (block size : Nat) : Prop where
  descriptor : alignedSizeofBuffer ≤ size
  range : toSize ((buff.endPtr : Int) - (buff.head : Int)) =
    buff.headroom + buff.tailroom
  inside : toSize ((buff.head : Int) - (block : Int)) +
    (buff.headroom + buff.tailroom) ≤ size

/-- The control block and every slot lie in a block. -/
structure LspQueueHandle.InBlock (hdl : LspQueueHandle) (block : Nat) :
    Prop where
  controlBlock : alignedSizeofQueueHandle ≤ block
  slots : ∀ index : Nat, index < hdl.queueSize →
    wrapSize (alignedSizeofQueueHandle + entryFind index hdl.itemsize) +
      hdl.itemsize ≤ block

/-- A buffer that `lsp_buffer_alloc` returns lies in the block that it has
asked for, wherever that is. -/
def BufferBlockHolds (iface : Option LspInterface) (len : Nat) : Prop :=
  ∀ block buff, lspBufferAlloc iface len (some block) = some buff →
    buff.InBlock block (lspBufferBlocksize iface len)

/-- A queue that `lsp_queue_create` returns lies in the block that it has
asked for. -/
def QueueBlockHolds (length : Int) (itemsize : Nat) : Prop :=
  ∀ allocated initialised hdl,
    lspQueueCreate length itemsize allocated initialised = some hdl →
      hdl.InBlock (lspQueueCreateBlocksize length itemsize)

/-! ## Buffers -/

/-- The data begin behind the descriptor, and `end` is behind both rooms. -/
theorem alloc_distances {iface : Option LspInterface} {len block : Nat}
    {buff : LspBuffer}
    (allocated : lspBufferAlloc iface len (some block) = some buff) :
    toSize ((buff.head : Int) - (block : Int)) = alignedSizeofBuffer ∧
      toSize ((buff.endPtr : Int) - (buff.head : Int)) =
        wrapSize (buff.headroom + buff.tailroom) := by
  cases allocated
  have size : alignedSizeofBuffer = 80 := rfl
  simp only [toSize, wrapSize]
  omega

theorem bufferBlockHolds_iff {iface : Option LspInterface} {len : Nat} :
    BufferBlockHolds iface len ↔ BufferFits iface len := by
  constructor
  · intro holds
    have inBlock := holds 4096 _ rfl
    have inside := inBlock.inside
    have small : lspBufferBlocksize iface len < 18446744073709551616 :=
      wrapSize_lt _
    obtain ⟨behind, _⟩ := @alloc_distances iface len 4096 _ rfl
    rw [behind] at inside
    change alignedSizeofBuffer + (lspBufferHeadroom iface + len) ≤ _ at inside
    unfold BufferFits
    omega
  · intro fits block buff returned
    obtain ⟨behind, range⟩ := alloc_distances returned
    have size := LspBuffer.lspBufferBlocksize_of_fits fits
    have rooms : buff.headroom + buff.tailroom =
        lspBufferHeadroom iface + len := by
      cases returned
      rfl
    unfold BufferFits at fits
    constructor
    · omega
    · rw [range, wrapSize_of_lt (by omega)]
    · omega

/-! ## Queues -/

theorem entryFind_of_lt {index itemsize : Nat}
    (small : index < 18446744073709551616)
    (fits : index * itemsize < 18446744073709551616) :
    entryFind index itemsize = index * itemsize := by
  have size : toSize index = index := by
    simp only [toSize]
    omega
  rw [entryFind, size, wrapSize_of_lt fits]

/-- Once the slots wrap around, the first one behind the block that is left
is among them. -/
theorem fits_of_slots {size itemsize block : Nat}
    (requested : block = wrapSize (alignedSizeofQueueHandle +
      wrapSize (size * itemsize)))
    (small : size < 18446744073709551616)
    (controlBlock : alignedSizeofQueueHandle ≤ block)
    (slots : ∀ index : Nat, index < size →
      wrapSize (alignedSizeofQueueHandle + entryFind index itemsize) +
        itemsize ≤ block) :
    alignedSizeofQueueHandle + size * itemsize < 18446744073709551616 := by
  by_contra wraps
  let items := wrapSize (size * itemsize)
  have items_small : items < 18446744073709551616 := wrapSize_lt _
  have headroom : alignedSizeofQueueHandle = 184 := rfl
  have room : alignedSizeofQueueHandle + items < 18446744073709551616 := by
    by_contra noRoom
    have left : block = alignedSizeofQueueHandle + items -
        18446744073709551616 := by
      rw [requested]
      change (alignedSizeofQueueHandle + items) % 18446744073709551616 = _
      omega
    omega
  have whole : block = alignedSizeofQueueHandle + items := by
    rw [requested]
    exact wrapSize_of_lt room
  have fewer : items < size * itemsize := by omega
  have positive : 0 < itemsize := by
    rcases Nat.eq_zero_or_pos itemsize with none | some
    · rw [none, Nat.mul_zero] at fewer
      omega
    · exact some
  -- the slot in which the block ends
  let last := items / itemsize
  have member : last < size :=
    Nat.div_lt_of_lt_mul (by rwa [Nat.mul_comm])
  have starts : last * itemsize ≤ items := Nat.div_mul_le_self _ _
  have ends : items < last * itemsize + itemsize := by
    have next := Nat.lt_mul_div_succ items positive
    rw [Nat.mul_comm, Nat.add_mul, Nat.one_mul] at next
    exact next
  have slot : entryFind last itemsize = last * itemsize :=
    entryFind_of_lt (by omega) (by omega)
  have inside := slots last member
  rw [slot, wrapSize_of_lt (by omega)] at inside
  omega

theorem queueBlockHolds_iff {length : Int} {itemsize : Nat} :
    QueueBlockHolds length itemsize ↔
      QueueThreads.BlockFits length itemsize := by
  have small := toSize_lt length
  constructor
  · intro holds
    have inBlock := holds true true _ rfl
    exact fits_of_slots rfl small inBlock.controlBlock inBlock.slots
  · intro fits allocated initialised hdl returned
    have requested := QueueThreads.lspQueueCreateBlocksize_of_fits fits
    unfold QueueThreads.BlockFits at fits
    unfold lspQueueCreate at returned
    split at returned
    · cases returned
      rw [requested]
      refine ⟨Nat.le_add_right _ _, ?_⟩
      intro index below
      have rows : (index + 1) * itemsize ≤ toSize length * itemsize :=
        Nat.mul_le_mul_right _ below
      rw [Nat.add_mul, Nat.one_mul] at rows
      have slot : entryFind index itemsize = index * itemsize := by
        apply entryFind_of_lt
        · exact Nat.lt_trans below small
        · omega
      change wrapSize (_ + entryFind index itemsize) + itemsize ≤ _
      rw [slot, wrapSize_of_lt (by omega)]
      omega
    · cases returned

/-- For every interface and length, and for every backlog and size of items,
the block that is asked for holds what is placed in it exactly if its size
does not wrap around. -/
theorem blocksHold_iff (iface : Option LspInterface) (len : Nat)
    (length : Int) (itemsize : Nat) :
    (BufferBlockHolds iface len ↔ BufferFits iface len) ∧
      (QueueBlockHolds length itemsize ↔
        QueueThreads.BlockFits length itemsize) :=
  ⟨bufferBlockHolds_iff, queueBlockHolds_iff⟩

/-- A long buffer gets a block of 28 bytes for a descriptor of 80, and a
queue for a backlog of minus one gets 176 bytes for a control block of 184. -/
theorem blocks_too_small :
    lspBufferBlocksize none 18446744073709551556 = 28 ∧
      ¬BufferBlockHolds none 18446744073709551556 ∧
      lspQueueCreateBlocksize (-1) 8 = 176 ∧ ¬QueueBlockHolds (-1) 8 := by
  refine ⟨by decide, ?_, by decide, ?_⟩
  · intro holds
    have descriptor := (holds 4096 _ rfl).descriptor
    exact absurd descriptor (by decide)
  · intro holds
    have controlBlock := (holds true true _ rfl).controlBlock
    exact absurd controlBlock (by decide)

end Liblsp
