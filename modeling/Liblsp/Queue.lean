import Liblsp.Base.CInt
import Liblsp.Base.RingBuffer
import Liblsp.CondWait

/-!
# The blocking queue: control block and critical sections

`lsp_queue_push` and `lsp_queue_pop` hold the mutex from the lock to the
unlock, except while they are blocked in `queue_wait_internal`.  Each is
therefore cut at that call into the section up to it and the section after
it.  The items lie in the bytes behind the control block.
-/

namespace Liblsp

open Base

/-- `_lsp_queue_handle_t`, with the bytes `data` points to.  The mutex and the
condition variables are part of the system of threads. -/
structure LspQueueHandle where
  length : Int
  head : Int
  tail : Int
  waitingFull : Int
  waitingEmpty : Int
  queueSize : Nat
  itemsize : Nat
  data : Nat → UInt8

/-- `ENTRY_FIND` without `LSP_QUEUE_ALIGNMEM`, as an offset from `data`. -/
def entryFind (index : Int) (itemsize : Nat) : Nat :=
  wrapSize (toSize index * itemsize)

/-- `ALIGNED_SIZEOF(_lsp_queue_handle_t)` on x86-64 with glibc. -/
def alignedSizeofQueueHandle : Nat := 184

def lspQueueCreateBlocksize (length : Int) (itemsize : Nat) : Nat :=
  wrapSize (alignedSizeofQueueHandle + wrapSize (toSize length * itemsize))

/-- `lsp_queue_create`, given whether `lsp_malloc` and the initialisation of
the `pthread` objects succeed. -/
def lspQueueCreate (length : Int) (itemsize : Nat)
    (allocated initialised : Bool) : Option LspQueueHandle :=
  if allocated && initialised then
    some
      { length := 0
        head := 0
        tail := 0
        waitingFull := 0
        waitingEmpty := 0
        queueSize := toSize length
        itemsize := itemsize
        data := fun _ => 0 }
  else none

namespace LspQueueHandle

/-- The bytes that `memcpy` reads from the entry at `index`. -/
def entry (hdl : LspQueueHandle) (index : Int) : List UInt8 :=
  (List.range hdl.itemsize).map fun byte =>
    hdl.data (entryFind index hdl.itemsize + byte)

/-- `memcpy` of an item to the entry at `index`. -/
def writeEntry (hdl : LspQueueHandle) (index : Int) (item : Nat → UInt8) :
    LspQueueHandle :=
  let start := entryFind index hdl.itemsize
  { hdl with
    data := fun byte =>
      if start ≤ byte ∧ byte < start + hdl.itemsize then item (byte - start)
      else hdl.data byte }

/-- The end of `lsp_queue_push`: copy the item in, move the tail on. -/
def store (hdl : LspQueueHandle) (item : Nat → UInt8) : LspQueueHandle :=
  let hdl := hdl.writeEntry hdl.tail item
  { hdl with
    tail := toInt ↑(toSize (toInt (hdl.tail + 1)) % hdl.queueSize)
    length := toInt (hdl.length + 1) }

/-- The end of `lsp_queue_pop`: move the head on. -/
def take (hdl : LspQueueHandle) : LspQueueHandle :=
  { hdl with
    head := toInt ↑(toSize (toInt (hdl.head + 1)) % hdl.queueSize)
    length := toInt (hdl.length - 1) }

/-- `hdl->length >= hdl->queue_size`, compared as `size_t`. -/
def isFull (hdl : LspQueueHandle) : Bool :=
  hdl.queueSize ≤ toSize hdl.length

/-- `hdl->length <= 0`, compared as `int`. -/
def isEmpty (hdl : LspQueueHandle) : Bool :=
  hdl.length ≤ 0

end LspQueueHandle

/-- How a critical section ends: blocked in `queue_wait_internal`, or
returning from the call. -/
inductive SectionEnd where
  | wait (deadline : Option Timespec)
  | ret (rc : Int)
  deriving DecidableEq

/-- `queue_wait_internal`, up to the point where it blocks. -/
def queueWaitInternal (timeout : UInt32) (clock : Option Timespec) :
    Option Timespec :=
  condWaitDeadline timeout clock

/-- `lsp_queue_push` from the return of `queue_wait_internal` on. -/
def lspQueuePushResumed (hdl : LspQueueHandle) (item : Nat → UInt8)
    (result : WaitResult) : LspQueueHandle × Int :=
  let hdl := { hdl with waitingFull := toInt (hdl.waitingFull - 1) }
  match result with
  | .ok => (hdl.store item, lspErrNone)
  | .etimedout => (hdl, lspErrTimeout)
  | .einval => (hdl, lspErrInvalid)

/-- `lsp_queue_push` from the lock on. -/
def lspQueuePushLocked (hdl : LspQueueHandle) (item : Nat → UInt8)
    (timeout : UInt32) (clock : Option Timespec) :
    LspQueueHandle × SectionEnd :=
  if hdl.isFull then
    if timeout > 0 then
      let hdl := { hdl with waitingFull := toInt (hdl.waitingFull + 1) }
      let deadline := queueWaitInternal timeout clock
      if deadlineRefused deadline then
        let (hdl, rc) := lspQueuePushResumed hdl item .einval
        (hdl, .ret rc)
      else (hdl, .wait deadline)
    else (hdl, .ret lspErrQueueFull)
  else (hdl.store item, .ret lspErrNone)

/-- `lsp_queue_pop` from the return of `queue_wait_internal` on.  On success
the item copied out is the entry at the head. -/
def lspQueuePopResumed (hdl : LspQueueHandle) (result : WaitResult) :
    LspQueueHandle × Int :=
  let hdl := { hdl with waitingEmpty := toInt (hdl.waitingEmpty - 1) }
  match result with
  | .ok => (hdl.take, lspErrNone)
  | .etimedout => (hdl, lspErrTimeout)
  | .einval => (hdl, lspErrInvalid)

/-- `lsp_queue_pop` from the lock on. -/
def lspQueuePopLocked (hdl : LspQueueHandle) (timeout : UInt32)
    (clock : Option Timespec) : LspQueueHandle × SectionEnd :=
  if hdl.isEmpty then
    if timeout > 0 then
      let hdl := { hdl with waitingEmpty := toInt (hdl.waitingEmpty + 1) }
      let deadline := queueWaitInternal timeout clock
      if deadlineRefused deadline then
        let (hdl, rc) := lspQueuePopResumed hdl .einval
        (hdl, .ret rc)
      else (hdl, .wait deadline)
    else (hdl, .ret lspErrQueueEmpty)
  else (hdl.take, .ret lspErrNone)

/-- The four ways through the first section of a push. -/
theorem lspQueuePushLocked_cases (hdl : LspQueueHandle)
    (item : Nat → UInt8) (timeout : UInt32) (clock : Option Timespec) :
    lspQueuePushLocked hdl item timeout clock =
        (hdl, .ret lspErrQueueFull) ∨
      lspQueuePushLocked hdl item timeout clock =
        ({ hdl with
          waitingFull := toInt (toInt (hdl.waitingFull + 1) - 1) },
          .ret lspErrInvalid) ∨
      (hdl.isFull = true ∧ timeout > 0 ∧
        deadlineRefused (queueWaitInternal timeout clock) = false ∧
        lspQueuePushLocked hdl item timeout clock =
          ({ hdl with waitingFull := toInt (hdl.waitingFull + 1) },
            .wait (queueWaitInternal timeout clock))) ∨
      (hdl.isFull = false ∧
        lspQueuePushLocked hdl item timeout clock =
          (hdl.store item, .ret lspErrNone)) := by
  cases full : hdl.isFull with
  | false => simp [lspQueuePushLocked, full]
  | true =>
      by_cases waits : timeout > 0
      · cases refused : deadlineRefused (queueWaitInternal timeout clock) with
        | true =>
            simp [lspQueuePushLocked, full, waits, refused,
              lspQueuePushResumed]
        | false => simp [lspQueuePushLocked, full, waits, refused]
      · simp [lspQueuePushLocked, full, waits]

theorem lspQueuePopLocked_cases (hdl : LspQueueHandle) (timeout : UInt32)
    (clock : Option Timespec) :
    lspQueuePopLocked hdl timeout clock = (hdl, .ret lspErrQueueEmpty) ∨
      lspQueuePopLocked hdl timeout clock =
        ({ hdl with
          waitingEmpty := toInt (toInt (hdl.waitingEmpty + 1) - 1) },
          .ret lspErrInvalid) ∨
      (hdl.isEmpty = true ∧ timeout > 0 ∧
        deadlineRefused (queueWaitInternal timeout clock) = false ∧
        lspQueuePopLocked hdl timeout clock =
          ({ hdl with waitingEmpty := toInt (hdl.waitingEmpty + 1) },
            .wait (queueWaitInternal timeout clock))) ∨
      (hdl.isEmpty = false ∧
        lspQueuePopLocked hdl timeout clock =
          (hdl.take, .ret lspErrNone)) := by
  cases empty : hdl.isEmpty with
  | false => simp [lspQueuePopLocked, empty]
  | true =>
      by_cases waits : timeout > 0
      · cases refused : deadlineRefused (queueWaitInternal timeout clock) with
        | true =>
            simp [lspQueuePopLocked, empty, waits, refused,
              lspQueuePopResumed]
        | false => simp [lspQueuePopLocked, empty, waits, refused]
      · simp [lspQueuePopLocked, empty, waits]

/-- The guard of `lsp_queue_clear` and `lsp_queue_destroy`. -/
def lspQueueInUse (hdl : LspQueueHandle) : Bool :=
  hdl.waitingEmpty ≠ 0 || hdl.waitingFull ≠ 0

/-- The locked section of `lsp_queue_clear`. -/
def lspQueueClearLocked (hdl : LspQueueHandle) : LspQueueHandle :=
  { hdl with head := 0, tail := 0, length := 0 }

end Liblsp
