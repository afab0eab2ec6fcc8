import Liblsp.Endpoint
import Liblsp.QueueRefinement

/-!
# The push of the socket layer is the one of the queue

The receive queues of the socket layer are lists of buffers.  A push to one
of them is `lsp_queue_push` on the bytes of the queue, from its lock to its
return and through its wait, by a thread that has the queue for itself.
-/

namespace Liblsp

open Base

/-- `LSP_DEFAULT_QUEUE_TIMEOUT_MS`. -/
def lspDefaultQueueTimeoutMs : UInt32 := 100

/-- `lsp_queue_push` by one thread, given how its wait ends if it blocks. -/
def lspQueuePush (hdl : LspQueueHandle) (item : Nat → UInt8)
    (timeout : UInt32) (clock : Option Timespec) (wait : WaitResult) :
    LspQueueHandle × Int :=
  match lspQueuePushLocked hdl item timeout clock with
  | (hdl, .ret rc) => (hdl, rc)
  | (hdl, .wait _) => lspQueuePushResumed hdl item wait

/-- How the wait ends: a refused deadline does not block. -/
def pushWait (timeout : UInt32) (clock : Option Timespec)
    (wait : WaitResult) : WaitResult :=
  if deadlineRefused (queueWaitInternal timeout clock) then .einval else wait

section Sections

variable {hdl : LspQueueHandle} {item : Nat → UInt8} {timeout : UInt32}
  {clock : Option Timespec} {wait : WaitResult}

theorem lspQueuePush_of_room (room : hdl.isFull = false) :
    lspQueuePush hdl item timeout clock wait =
      (hdl.store item, lspErrNone) := by
  simp [lspQueuePush, lspQueuePushLocked, room]

/-- On a full queue the end of the wait decides. -/
theorem lspQueuePush_of_full (full : hdl.isFull = true)
    (waits : timeout > 0) :
    lspQueuePush hdl item timeout clock wait =
      lspQueuePushResumed
        { hdl with waitingFull := toInt (hdl.waitingFull + 1) } item
        (pushWait timeout clock wait) := by
  cases refused : deadlineRefused (queueWaitInternal timeout clock) with
  | true => simp [lspQueuePush, lspQueuePushLocked, full, waits, refused,
      pushWait]
  | false => simp [lspQueuePush, lspQueuePushLocked, full, waits, refused,
      pushWait]

end Sections

namespace SocketLayer

variable {hdl : LspQueueHandle} {w : SocketLayer} {i handle : Nat}

/-- The buffers in a receive queue are the addresses in its entries, and the
push of the socket layer leaves there what `lsp_queue_push` does, whatever the
clock shows and however the wait ends. -/
theorem lspConnRxqPush_refines (circular : hdl.Circular)
    (small : hdl.length < intMax) (address : List UInt8 → Nat)
    (owned : (w.conns i).rxQueue = some handle)
    (queue : w.queues handle = some (hdl.contents.map address))
    (item : Nat → UInt8) (clock : Option Timespec) (wait : WaitResult) :
    w.lspConnRxqPush hdl.queueSize i (address (hdl.block item))
        (pushWait lspDefaultQueueTimeoutMs clock wait) =
      some (w.setQueue handle
          (some ((lspQueuePush hdl item lspDefaultQueueTimeoutMs clock
            wait).1.contents.map address)),
        (lspQueuePush hdl item lspDefaultQueueTimeoutMs clock wait).2) := by
  have stored : (hdl.store item).contents.map address =
      storeRound hdl.queueSize (hdl.contents.map address)
        (address (hdl.block item)) := by
    rw [circular.contents_store item small, map_storeRound]
  have fullness := circular.isFull_iff (Int.le_of_lt small)
  have kept : ∀ rc : Int, some (w, rc) =
      some (w.setQueue handle (some (hdl.contents.map address)), rc) := by
    intro rc
    rw [← queue, setQueue, Function.update_eq_self]
  rw [lspConnRxqPush, owned, Option.bind_some, queue, Option.bind_some,
    List.length_map]
  cases full : hdl.isFull with
  | false =>
      have room : hdl.contents.length < hdl.queueSize := by
        rw [full] at fullness
        simpa using fullness
      rw [if_pos room, lspQueuePush_of_room full, stored,
        storeRound_of_room (by rwa [List.length_map])]
  | true =>
      have closed : ¬hdl.contents.length < hdl.queueSize :=
        Nat.not_lt.mpr (fullness.mp full)
      rw [if_neg closed, lspQueuePush_of_full full (by decide)]
      cases pushWait lspDefaultQueueTimeoutMs clock wait with
      | ok =>
          simp only [if_neg (Nat.ne_of_gt circular.sizePositive)]
          rw [← stored]
          rfl
      | etimedout => exact kept lspErrTimeout
      | einval => exact kept lspErrInvalid

end SocketLayer

end Liblsp
