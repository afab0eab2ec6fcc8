import Liblsp.Base.CInt

/-!
# Packet buffers

The descriptor of `lsp_buffer.h` and its four operations.  Pointers are
addresses of 64 bits; pointer sums and differences are computed in `size_t`,
so that they wrap around, and pointers are compared as addresses.
-/

namespace Liblsp

open Base

/-- The field of an interface that an allocation reads. -/
structure LspInterface where
  minHeaderLen : Int

structure LspBuffer where
  iface : Option LspInterface
  headroom : Nat
  tailroom : Nat
  data : Nat
  tail : Nat
  endPtr : Nat
  lspPacket : Nat
  head : Nat

/-- `LSP_DEFAULT_BUFFER_HEADER_LEN`. -/
def lspDefaultBufferHeaderLen : Int := 8

/-- `ALIGNED_SIZEOF(lsp_buffer_t)` on x86-64. -/
def alignedSizeofBuffer : Nat := 80

/-- The headroom that `lsp_buffer_alloc` takes from the interface. -/
def lspBufferHeadroom (iface : Option LspInterface) : Nat :=
  toSize (match iface with
    | some iface => iface.minHeaderLen
    | none => lspDefaultBufferHeaderLen)

def lspBufferBlocksize (iface : Option LspInterface) (len : Nat) : Nat :=
  wrapSize (wrapSize (alignedSizeofBuffer + len) + lspBufferHeadroom iface)

/-- `lsp_buffer_alloc`, given the block that `lsp_malloc` returns, with `none`
for `NULL`. -/
def lspBufferAlloc (iface : Option LspInterface) (len : Nat)
    (block : Option Nat) : Option LspBuffer :=
  let headroom := lspBufferHeadroom iface
  match block with
  | none => none
  | some block =>
      let head := wrapSize (block + alignedSizeofBuffer)
      let data := wrapSize (head + headroom)
      some
        { iface := iface
          headroom := headroom
          tailroom := len
          data := data
          tail := data
          endPtr := wrapSize (wrapSize (head + len) + headroom)
          lspPacket := data
          head := head }

/-- What an allocator promises for a block: it is not at `NULL`, and the place
behind its last byte has an address. -/
structure IsBlock (block size : Nat) : Prop where
  positive : 0 < block
  below : block + size < 18446744073709551616

/-- The descriptor, the headroom and the data do not wrap around `size_t`. -/
def BufferFits (iface : Option LspInterface) (len : Nat) : Prop :=
  alignedSizeofBuffer + len + lspBufferHeadroom iface < 18446744073709551616

def lspBufferLength (buff : LspBuffer) : Nat :=
  toSize ((buff.tail : Int) - (buff.data : Int))

def lspBufferPut (buff : LspBuffer) (len : Nat) : LspBuffer × Option Nat :=
  if buff.tailroom < len then (buff, none)
  else
    ({ buff with
      tailroom := toSize ((buff.tailroom : Int) - (len : Int))
      tail := wrapSize (buff.tail + len) }, toPointer buff.tail)

def lspBufferPush (buff : LspBuffer) (len : Nat) : LspBuffer × Option Nat :=
  if buff.headroom < len then (buff, none)
  else
    let data := toSize ((buff.data : Int) - (len : Int))
    ({ buff with
      headroom := toSize ((buff.headroom : Int) - (len : Int))
      data := data }, toPointer data)

def lspBufferPull (buff : LspBuffer) (len : Nat) : LspBuffer × Nat :=
  let len := if lspBufferLength buff < len then lspBufferLength buff else len
  let data := buff.data
  let buff :=
    { buff with
      data := wrapSize (buff.data + len)
      headroom := wrapSize (buff.headroom + len) }
  if buff.data > buff.tail then
    let beyond := toSize ((buff.data : Int) - (buff.tail : Int))
    ({ buff with
      tailroom := toSize ((buff.tailroom : Int) - (beyond : Int))
      tail := buff.data }, data)
  else (buff, data)

namespace LspBuffer

/-- The fields agree with each other: the parts in front of, between and
behind the pointers fill the range from `head` to `end`. -/
structure Consistent (buff : LspBuffer) : Prop where
  positive : 0 < buff.head
  data : buff.data = buff.head + buff.headroom
  ordered : buff.data ≤ buff.tail
  rest : buff.endPtr = buff.tail + buff.tailroom
  small : buff.endPtr < 18446744073709551616

namespace Consistent

variable {buff : LspBuffer} {len : Nat}

theorem length (consistent : buff.Consistent) :
    lspBufferLength buff = buff.tail - buff.data := by
  have rest := consistent.rest
  have small := consistent.small
  exact toSize_sub consistent.ordered (by omega)

theorem lspBufferPut_eq (consistent : buff.Consistent)
    (room : len ≤ buff.tailroom) :
    lspBufferPut buff len =
      ({ buff with
        tailroom := buff.tailroom - len
        tail := buff.tail + len }, some buff.tail) := by
  have positive := consistent.positive
  have data := consistent.data
  have ordered := consistent.ordered
  have rest := consistent.rest
  have small := consistent.small
  rw [lspBufferPut, if_neg (by omega), toSize_sub room (by omega),
    wrapSize_of_lt (by omega), toPointer_of_pos (by omega)]

theorem lspBufferPush_eq (consistent : buff.Consistent)
    (room : len ≤ buff.headroom) :
    lspBufferPush buff len =
      ({ buff with
        headroom := buff.headroom - len
        data := buff.data - len }, some (buff.data - len)) := by
  have positive := consistent.positive
  have data := consistent.data
  have ordered := consistent.ordered
  have rest := consistent.rest
  have small := consistent.small
  have moved := @toSize_sub buff.data len (by omega) (by omega)
  have pointer := @toPointer_of_pos (buff.data - len) (by omega)
  rw [lspBufferPush, if_neg (by omega), moved, toSize_sub room (by omega)]
  exact congrArg (Prod.mk _) pointer

/-- A pull takes at most what is there and never adjusts the tail. -/
theorem lspBufferPull_eq (consistent : buff.Consistent) (len : Nat) :
    lspBufferPull buff len =
      ({ buff with
        data := buff.data + min len (buff.tail - buff.data)
        headroom := buff.headroom + min len (buff.tail - buff.data) },
        buff.data) := by
  have data := consistent.data
  have ordered := consistent.ordered
  have rest := consistent.rest
  have small := consistent.small
  have clipped : (if lspBufferLength buff < len then lspBufferLength buff
      else len) = min len (buff.tail - buff.data) := by
    rw [consistent.length]
    split <;> omega
  have start : wrapSize (buff.data + min len (buff.tail - buff.data)) =
      buff.data + min len (buff.tail - buff.data) :=
    wrapSize_of_lt (by omega)
  have front : wrapSize (buff.headroom + min len (buff.tail - buff.data)) =
      buff.headroom + min len (buff.tail - buff.data) :=
    wrapSize_of_lt (by omega)
  simp only [lspBufferPull, clipped, start, front]
  rw [if_neg (by omega)]

theorem put (consistent : buff.Consistent) (len : Nat) :
    (lspBufferPut buff len).1.Consistent := by
  by_cases room : len ≤ buff.tailroom
  · have ordered := consistent.ordered
    have rest := consistent.rest
    rw [consistent.lspBufferPut_eq room]
    constructor
    · exact consistent.positive
    · exact consistent.data
    · exact Nat.le_add_right_of_le ordered
    · change buff.endPtr = buff.tail + len + (buff.tailroom - len)
      omega
    · exact consistent.small
  · simp only [lspBufferPut, if_pos (Nat.lt_of_not_le room)]
    exact consistent

theorem push (consistent : buff.Consistent) (len : Nat) :
    (lspBufferPush buff len).1.Consistent := by
  by_cases room : len ≤ buff.headroom
  · have data := consistent.data
    have ordered := consistent.ordered
    rw [consistent.lspBufferPush_eq room]
    constructor
    · exact consistent.positive
    · change buff.data - len = buff.head + (buff.headroom - len)
      omega
    · change buff.data - len ≤ buff.tail
      omega
    · exact consistent.rest
    · exact consistent.small
  · simp only [lspBufferPush, if_pos (Nat.lt_of_not_le room)]
    exact consistent

theorem pull (consistent : buff.Consistent) (len : Nat) :
    (lspBufferPull buff len).1.Consistent := by
  have data := consistent.data
  have ordered := consistent.ordered
  rw [consistent.lspBufferPull_eq len]
  constructor
  · exact consistent.positive
  · change buff.data + _ = buff.head + (buff.headroom + _)
    omega
  · change buff.data + min len (buff.tail - buff.data) ≤ buff.tail
    omega
  · exact consistent.rest
  · exact consistent.small

end Consistent

section Allocated

variable {iface : Option LspInterface} {len block : Nat}

theorem lspBufferBlocksize_of_fits (fits : BufferFits iface len) :
    lspBufferBlocksize iface len =
      alignedSizeofBuffer + len + lspBufferHeadroom iface := by
  unfold BufferFits at fits
  have front : wrapSize (alignedSizeofBuffer + len) =
      alignedSizeofBuffer + len := wrapSize_of_lt (by omega)
  rw [lspBufferBlocksize, front, wrapSize_of_lt fits]

/-- Otherwise, unless the range itself is too long for the address space, it
is smaller than a descriptor. -/
theorem lspBufferBlocksize_lt (wraps : ¬BufferFits iface len)
    (noWrap : len + lspBufferHeadroom iface < 18446744073709551616) :
    lspBufferBlocksize iface len + 18446744073709551616 =
        alignedSizeofBuffer + len + lspBufferHeadroom iface ∧
      lspBufferBlocksize iface len < alignedSizeofBuffer := by
  have size : alignedSizeofBuffer = 80 := rfl
  simp only [BufferFits, lspBufferBlocksize, wrapSize] at wraps ⊢
  omega

/-- The parts of a new buffer in a block that it fits into. -/
structure Allocated (buff : LspBuffer) (iface : Option LspInterface)
    (len block : Nat) : Prop where
  head : buff.head = block + alignedSizeofBuffer
  headroom : buff.headroom = lspBufferHeadroom iface
  tailroom : buff.tailroom = len
  empty : buff.tail = buff.data
  lspPacket : buff.lspPacket = buff.data
  endPtr : buff.endPtr = block + lspBufferBlocksize iface len

theorem consistent_of_alloc {buff : LspBuffer}
    (allocated : lspBufferAlloc iface len (some block) = some buff)
    (fits : BufferFits iface len)
    (isBlock : IsBlock block (lspBufferBlocksize iface len)) :
    buff.Consistent ∧ Allocated buff iface len block := by
  have size := lspBufferBlocksize_of_fits fits
  have below := isBlock.below
  rw [size] at below
  cases allocated
  have start : wrapSize (block + alignedSizeofBuffer) =
      block + alignedSizeofBuffer := wrapSize_of_lt (by omega)
  have front : wrapSize (block + alignedSizeofBuffer +
      lspBufferHeadroom iface) =
        block + alignedSizeofBuffer + lspBufferHeadroom iface :=
    wrapSize_of_lt (by omega)
  have payload : wrapSize (block + alignedSizeofBuffer + len) =
      block + alignedSizeofBuffer + len := wrapSize_of_lt (by omega)
  have whole : wrapSize (block + alignedSizeofBuffer + len +
      lspBufferHeadroom iface) =
        block + alignedSizeofBuffer + len + lspBufferHeadroom iface :=
    wrapSize_of_lt (by omega)
  simp only [start, front, payload, whole]
  refine ⟨⟨?_, rfl, Nat.le_refl _, ?_, ?_⟩, ⟨rfl, rfl, rfl, rfl, rfl, ?_⟩⟩
  · change 0 < block + alignedSizeofBuffer
    exact Nat.add_pos_left isBlock.positive _
  · change block + alignedSizeofBuffer + len + lspBufferHeadroom iface =
      block + alignedSizeofBuffer + lspBufferHeadroom iface + len
    omega
  · change block + alignedSizeofBuffer + len + lspBufferHeadroom iface < _
    omega
  · change block + alignedSizeofBuffer + len + lspBufferHeadroom iface = _
    rw [size]
    omega

end Allocated

end LspBuffer

end Liblsp
