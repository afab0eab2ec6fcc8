import Liblsp.Base.Machine
import Liblsp.Buffer

/-!
# The bookkeeping of a packet buffer

The pointers of a descriptor and its two counters say the same, whatever is
put, pushed and pulled.  The lengths are arbitrary: a call that asks for too
much returns `NULL` or is clipped.  A buffer whose block size has wrapped
around starts with `end` in front of `head`.
-/

namespace Liblsp

open Base

inductive BufferCall where
  | put (len : Nat)
  | push (len : Nat)
  | pull (len : Nat)

namespace LspBuffer

/-- The buffer after a call and the pointer that is returned. -/
def call (buff : LspBuffer) : BufferCall → LspBuffer × Option Nat
  | .put len => lspBufferPut buff len
  | .push len => lspBufferPush buff len
  | .pull len =>
      let (buff, data) := lspBufferPull buff len
      (buff, some data)

/-- The parts of a buffer between its limits, which hold `size` bytes. -/
structure InBounds (buff : LspBuffer) (head endPtr size : Nat) : Prop where
  head : buff.head = head
  endPtr : buff.endPtr = endPtr
  head_le_data : buff.head ≤ buff.data
  data_le_tail : buff.data ≤ buff.tail
  tail_le_end : buff.tail ≤ buff.endPtr
  headroom : buff.headroom = buff.data - buff.head
  tailroom : buff.tailroom = buff.endPtr - buff.tail
  size : buff.headroom + lspBufferLength buff + buff.tailroom = size

/-- A region of a buffer that holds no data yet. -/
structure FreeRegion (buff : LspBuffer) (start len : Nat) : Prop where
  head_le : buff.head ≤ start
  le_end : start + len ≤ buff.endPtr
  apart : ∀ byte, start ≤ byte → byte < start + len →
    ¬(buff.data ≤ byte ∧ byte < buff.tail)

/-- What the caller of the next operation relies on. -/
structure CallsSound (buff : LspBuffer) : Prop where
  put : ∀ len start, (lspBufferPut buff len).2 = some start →
    FreeRegion buff start len
  push : ∀ len start, (lspBufferPush buff len).2 = some start →
    FreeRegion buff start len
  refused : ∀ request, (buff.call request).2 = none →
    (buff.call request).1 = buff
  pull : ∀ len, (lspBufferPull buff len).1.tailroom ≤ buff.tailroom

section Bounds

variable {buff : LspBuffer}

theorem Consistent.inBounds (consistent : buff.Consistent) :
    buff.InBounds buff.head buff.endPtr (buff.endPtr - buff.head) := by
  have data := consistent.data
  have ordered := consistent.ordered
  have rest := consistent.rest
  constructor
  · rfl
  · rfl
  · omega
  · exact ordered
  · omega
  · omega
  · omega
  · rw [consistent.length]
    omega

theorem Consistent.callsSound (consistent : buff.Consistent) :
    buff.CallsSound := by
  have data := consistent.data
  have ordered := consistent.ordered
  have rest := consistent.rest
  constructor
  · intro len start returned
    by_cases room : len ≤ buff.tailroom
    · rw [consistent.lspBufferPut_eq room] at returned
      cases returned
      constructor
      · omega
      · omega
      · intro byte after _ inside
        omega
    · rw [lspBufferPut, if_pos (by omega)] at returned
      cases returned
  · intro len start returned
    by_cases room : len ≤ buff.headroom
    · rw [consistent.lspBufferPush_eq room] at returned
      cases returned
      constructor
      · omega
      · omega
      · intro byte _ before inside
        omega
    · rw [lspBufferPush, if_pos (by omega)] at returned
      cases returned
  · intro request refused
    cases request with
    | put len =>
        by_cases room : len ≤ buff.tailroom
        · rw [call, consistent.lspBufferPut_eq room] at refused
          cases refused
        · rw [call, lspBufferPut, if_pos (Nat.lt_of_not_le room)]
    | push len =>
        by_cases room : len ≤ buff.headroom
        · rw [call, consistent.lspBufferPush_eq room] at refused
          cases refused
        · rw [call, lspBufferPush, if_pos (Nat.lt_of_not_le room)]
    | pull len => cases refused
  · intro len
    have pulled := congrArg (fun result => result.1.tailroom)
      (consistent.lspBufferPull_eq len)
    exact Nat.le_of_eq pulled

theorem Consistent.call_limits (consistent : buff.Consistent)
    (request : BufferCall) :
    (buff.call request).1.head = buff.head ∧
      (buff.call request).1.endPtr = buff.endPtr := by
  cases request with
  | put len =>
      simp only [call, lspBufferPut]
      split <;> exact ⟨rfl, rfl⟩
  | push len =>
      simp only [call, lspBufferPush]
      split <;> exact ⟨rfl, rfl⟩
  | pull len =>
      simp only [call]
      rw [consistent.lspBufferPull_eq len]
      exact ⟨rfl, rfl⟩

theorem Consistent.call (consistent : buff.Consistent)
    (request : BufferCall) : (buff.call request).1.Consistent := by
  cases request with
  | put len => exact consistent.put len
  | push len => exact consistent.push len
  | pull len => exact consistent.pull len

end Bounds

/-- In every state of a buffer that an allocation returns the bookkeeping is
right, and so is what the next call returns. -/
def BookkeepingHolds (iface : Option LspInterface) (len : Nat) : Prop :=
  ∀ block buff, IsBlock block (lspBufferBlocksize iface len) →
    lspBufferAlloc iface len (some block) = some buff →
    ∀ calls : List BufferCall,
      let last := (play call buff calls).1
      last.InBounds buff.head buff.endPtr (len + lspBufferHeadroom iface) ∧
        last.CallsSound

theorem bookkeepingHolds_of_fits {iface : Option LspInterface} {len : Nat}
    (fits : BufferFits iface len) : BookkeepingHolds iface len := by
  intro block buff isBlock allocated calls
  obtain ⟨start, parts⟩ := consistent_of_alloc allocated fits isBlock
  have size : buff.endPtr - buff.head = len + lspBufferHeadroom iface := by
    rw [parts.endPtr, parts.head, lspBufferBlocksize_of_fits fits]
    omega
  have kept : ∀ (state : LspBuffer) (request : BufferCall),
      (state.Consistent ∧ state.head = buff.head ∧
        state.endPtr = buff.endPtr) →
      ((state.call request).1.Consistent ∧
        (state.call request).1.head = buff.head ∧
        (state.call request).1.endPtr = buff.endPtr) := by
    rintro state request ⟨consistent, head, endPtr⟩
    obtain ⟨sameHead, sameEnd⟩ := consistent.call_limits request
    exact ⟨consistent.call request, sameHead.trans head,
      sameEnd.trans endPtr⟩
  obtain ⟨consistent, head, endPtr⟩ :=
    play_invariant kept ⟨start, rfl, rfl⟩ calls
  refine ⟨?_, consistent.callsSound⟩
  have bounds := consistent.inBounds
  rw [head, endPtr, size] at bounds
  exact bounds

/-- A buffer whose size has wrapped around ends in front of its first byte
from the start. -/
theorem not_bookkeepingHolds {iface : Option LspInterface} {len : Nat}
    (wraps : ¬BufferFits iface len)
    (noWrap : len + lspBufferHeadroom iface < 18446744073709551616) :
    ¬BookkeepingHolds iface len := by
  obtain ⟨size, short⟩ := lspBufferBlocksize_lt wraps noWrap
  have descriptor : alignedSizeofBuffer = 80 := rfl
  intro holds
  have isBlock : IsBlock 4096 (lspBufferBlocksize iface len) :=
    ⟨by decide, by omega⟩
  obtain ⟨bounds, _⟩ := holds 4096 _ isBlock rfl []
  have ordered := Nat.le_trans (Nat.le_trans bounds.head_le_data
    bounds.data_le_tail) bounds.tail_le_end
  change wrapSize (4096 + alignedSizeofBuffer) ≤
    wrapSize (wrapSize (wrapSize (4096 + alignedSizeofBuffer) + len) +
      lspBufferHeadroom iface) at ordered
  simp only [wrapSize] at ordered
  omega

/-- The bookkeeping of an allocated buffer is right throughout exactly when
the size of its block does not wrap around. -/
theorem bookkeepingHolds_iff {iface : Option LspInterface} {len : Nat}
    (noWrap : len + lspBufferHeadroom iface < 18446744073709551616) :
    BookkeepingHolds iface len ↔ BufferFits iface len := by
  constructor
  · intro holds
    by_cases fits : BufferFits iface len
    · exact fits
    · exact absurd holds (not_bookkeepingHolds fits noWrap)
  · exact bookkeepingHolds_of_fits

section Examples

/-- A header of ten bytes does not fit, and a pull takes what is there. -/
theorem bookkeepingHolds_shortBuffer :
    ∃ buff, lspBufferAlloc none 4 (some 4096) = some buff ∧
      (play call buff [.put 3, .push 10, .pull 100, .push 10]).2 =
        [some 4184, none, some 4184, some 4177] ∧
      (play call buff [.put 3, .push 10, .pull 100, .push 10]).1.InBounds
        4176 4188 12 := by
  have holds := (@bookkeepingHolds_iff none 4 (by decide)).mpr
    (by unfold BufferFits; decide)
  exact ⟨_, rfl, by decide, (holds 4096 _ ⟨by decide, by decide⟩ rfl
    [.put 3, .push 10, .pull 100, .push 10]).1⟩

/-- The length and the headroom do not wrap around, but the size of the block
does: it is 28, and `end` lies 52 bytes in front of `head`. -/
theorem bookkeeping_of_wrappedBlock :
    18446744073709551556 + lspBufferHeadroom none < 18446744073709551616 ∧
      IsBlock 4096 (lspBufferBlocksize none 18446744073709551556) ∧
      (∃ buff, lspBufferAlloc none 18446744073709551556 (some 4096) =
        some buff ∧ buff.head = 4176 ∧ buff.endPtr = 4124) ∧
      ¬BookkeepingHolds none 18446744073709551556 := by
  have isBlock : IsBlock 4096
      (lspBufferBlocksize none 18446744073709551556) :=
    ⟨by decide, by decide⟩
  refine ⟨by decide, isBlock, ⟨_, rfl, by decide, by decide⟩, ?_⟩
  intro holds
  obtain ⟨bounds, _⟩ := holds 4096 _ isBlock rfl []
  have ordered := Nat.le_trans (Nat.le_trans bounds.head_le_data
    bounds.data_le_tail) bounds.tail_le_end
  exact absurd ordered (by decide)

end Examples

end LspBuffer

end Liblsp
