import Liblsp.QueueRefinement
import Liblsp.Base.Fuel
import Liblsp.Conn

/-!
# Flushing a receive queue

The receive queue of a connection is a queue whose items are pointers to
buffers.  The loop of `lsp_conn_rxq_flush` goes on while the pop fails, so a
queue with a buffer loses its first one unfreed and keeps the others, and an
empty queue is never left.
-/

namespace Liblsp

open Base

/-- A `lsp_buffer_t *` as the bytes of a queue item. -/
abbrev BufferPtr := List UInt8

/-- The loop of `lsp_conn_rxq_flush` with the local variable `b`, and the
pointers given to `lsp_buffer_free` so far. -/
def rxqFlushLoop (rxQueue : LspQueueHandle) (b : BufferPtr)
    (freed : List BufferPtr) : Nat → Option (LspQueueHandle × List BufferPtr)
  | 0 => none
  | fuel + 1 =>
      let (rxQueue, rc, copied) := QueueOp.pop.run rxQueue
      let b := copied.getD b
      if rc ≠ .ret lspErrNone then
        rxqFlushLoop rxQueue b (freed ++ [b]) fuel
      else some (rxQueue, freed)

/-- What `lsp_conn_rxq_flush` leaves behind. -/
structure FlushOutcome where
  rxQueue : Option LspQueueHandle
  freed : List BufferPtr
  rc : Int

/-- `lsp_conn_rxq_flush`, where `b` holds whatever the stack holds. -/
def lspConnRxqFlush (rxQueue : Option LspQueueHandle) (b : BufferPtr)
    (fuel : Nat) : Option FlushOutcome :=
  match rxQueue with
  | none => some ⟨none, [], lspErrInvalid⟩
  | some rxQueue =>
      (rxqFlushLoop rxQueue b [] fuel).map fun (rxQueue, freed) =>
        ⟨some rxQueue, freed, lspErrNone⟩

variable {hdl : LspQueueHandle} {first : BufferPtr}
  {rest : List BufferPtr}

private theorem pop_of_empty (normal : hdl.Normal)
    (contents : hdl.contents = []) :
    QueueOp.pop.run hdl = (hdl, .ret lspErrQueueEmpty, none) := by
  have empty := normal.isEmpty_iff.mpr contents
  simp only [QueueOp.run, lspQueuePopLocked_now, empty]
  rfl

private theorem pop_of_filled (normal : hdl.Normal)
    (contents : hdl.contents = first :: rest) :
    QueueOp.pop.run hdl = (hdl.take, .ret lspErrNone, some first) ∧
      hdl.take.contents = rest := by
  have filled : hdl.isEmpty = false := by
    rw [Bool.eq_false_iff, ne_eq, normal.isEmpty_iff, contents]
    simp
  have present : 0 < hdl.length := by
    simpa [LspQueueHandle.isEmpty] using filled
  have taken := normal.contents_take present
  rw [contents, List.cons.injEq] at taken
  refine ⟨?_, taken.2.symm⟩
  simp only [QueueOp.run, lspQueuePopLocked_now, filled, taken.1]
  rfl

theorem rxqFlushLoop_of_empty (normal : hdl.Normal)
    (contents : hdl.contents = []) (b : BufferPtr)
    (freed : List BufferPtr) (fuel : Nat) :
    rxqFlushLoop hdl b freed fuel = none := by
  induction fuel generalizing freed with
  | zero => rfl
  | succ fuel induction =>
      rw [rxqFlushLoop, pop_of_empty normal contents]
      exact induction _

theorem rxqFlushLoop_of_filled (normal : hdl.Normal)
    (contents : hdl.contents = first :: rest) (b : BufferPtr)
    (freed : List BufferPtr) (fuel : Nat) :
    rxqFlushLoop hdl b freed (fuel + 1) = some (hdl.take, freed) := by
  rw [rxqFlushLoop, (pop_of_filled normal contents).1]
  rfl

theorem lspConnRxqFlush_of_filled (normal : hdl.Normal)
    (contents : hdl.contents = first :: rest) (b : BufferPtr) :
    Returns (lspConnRxqFlush (some hdl) b)
      ⟨some hdl.take, [], lspErrNone⟩ := by
  refine ⟨1, ?_⟩
  intro fuel enough
  obtain ⟨fuel, rfl⟩ := Nat.exists_eq_add_of_le' enough
  rw [lspConnRxqFlush, rxqFlushLoop_of_filled normal contents]
  rfl

/-- The flush of the socket layer, whose queues are lists of buffers, is this
one with the buffers named by their addresses. -/
theorem rxqFlushLoop_refines (normal : hdl.Normal)
    (address : BufferPtr → Nat) (w : SocketLayer) (handle : Nat)
    (queue : w.queues handle = some (hdl.contents.map address))
    (b : BufferPtr) (freed : List BufferPtr) (fuel : Nat) :
    w.rxqFlushLoop handle fuel =
      (rxqFlushLoop hdl b freed fuel).map fun (rxQueue, _) =>
        w.setQueue handle (some (rxQueue.contents.map address)) := by
  cases contents : hdl.contents with
  | nil =>
      rw [rxqFlushLoop_of_empty normal contents]
      rw [contents, List.map_nil] at queue
      induction fuel with
      | zero => rfl
      | succ fuel induction => simpa [SocketLayer.rxqFlushLoop, queue]
  | cons first rest =>
      cases fuel with
      | zero => rfl
      | succ fuel =>
          rw [contents, List.map_cons] at queue
          rw [rxqFlushLoop_of_filled normal contents]
          simp [SocketLayer.rxqFlushLoop, queue,
            (pop_of_filled normal contents).2]

/-- The call ends with success after freeing the queued buffers, each once
and in their order and nothing else, and leaves the queue empty. -/
def FlushesAll (hdl : LspQueueHandle) (b : BufferPtr) : Prop :=
  ∃ emptied : LspQueueHandle,
    Returns (lspConnRxqFlush (some hdl) b)
        ⟨some emptied, hdl.contents, lspErrNone⟩ ∧
      emptied.contents = []

/-- No queue is flushed.  An empty one keeps the call in its loop; from any
other one the first buffer is taken and dropped, and the call returns. -/
theorem never_flushesAll (normal : hdl.Normal) (b : BufferPtr) :
    ¬FlushesAll hdl b ∧
      (hdl.contents = [] →
        ∀ fuel, lspConnRxqFlush (some hdl) b fuel = none) ∧
      (∀ first rest, hdl.contents = first :: rest →
        hdl.take.contents = rest ∧
          Returns (lspConnRxqFlush (some hdl) b)
            ⟨some hdl.take, [], lspErrNone⟩) := by
  have stuck : hdl.contents = [] →
      ∀ fuel, lspConnRxqFlush (some hdl) b fuel = none := by
    intro contents fuel
    simp [lspConnRxqFlush, rxqFlushLoop_of_empty normal contents]
  refine ⟨?_, stuck, ?_⟩
  · rintro ⟨emptied, returns, _⟩
    cases contents : hdl.contents with
    | nil =>
        obtain ⟨bound, result⟩ := returns
        have ended := result bound (Nat.le_refl bound)
        simp [stuck contents] at ended
    | cons first rest =>
        have ended := lspConnRxqFlush_of_filled normal contents b
        have same := returns.unique ended
        simp [contents] at same
  · intro first rest contents
    exact ⟨(pop_of_filled normal contents).2,
      lspConnRxqFlush_of_filled normal contents b⟩

section Examples

/-- A receive queue for four pointers. -/
def freshRxQueue : LspQueueHandle :=
  { length := 0
    head := 0
    tail := 0
    waitingFull := 0
    waitingEmpty := 0
    queueSize := 4
    itemsize := 8
    data := fun _ => 0 }

/-- The buffer at address `16` was received. -/
def deliveredRxQueue : LspQueueHandle :=
  freshRxQueue.store fun byte => if byte = 0 then 16 else 0

private theorem freshRxQueue_normal : freshRxQueue.Normal := by
  have created : lspQueueCreate 4 8 true true = some freshRxQueue := rfl
  apply QueueThreads.normal_of_created created
  · decide
  · decide
  · simp only [QueueThreads.BlockFits, alignedSizeofQueueHandle]
    decide

private theorem deliveredRxQueue_normal : deliveredRxQueue.Normal :=
  freshRxQueue_normal.store _ (by decide)

theorem never_flushesAll_fresh :
    freshRxQueue.Normal ∧ ∀ b, ¬FlushesAll freshRxQueue b :=
  ⟨freshRxQueue_normal,
    fun b => (never_flushesAll freshRxQueue_normal b).1⟩

/-- The received buffer is lost. -/
theorem deliveredRxQueue_leaks :
    deliveredRxQueue.contents = [[16, 0, 0, 0, 0, 0, 0, 0]] ∧
      ∀ b, ¬FlushesAll deliveredRxQueue b := by
  have contents : deliveredRxQueue.contents =
      [[16, 0, 0, 0, 0, 0, 0, 0]] := by
    decide
  refine ⟨contents, ?_⟩
  rintro b ⟨emptied, returns, _⟩
  have ended :=
    lspConnRxqFlush_of_filled deliveredRxQueue_normal contents b
  have same := returns.unique ended
  simp [contents] at same

end Examples

end Liblsp
