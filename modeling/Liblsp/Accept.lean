import Liblsp.Endpoint
import Liblsp.QueueRefinement

/-!
# What `lsp_accept` does with a pop

Every outcome of the pop reaches the stores to the child.  Only a pop that
succeeds yields a child, so any other one ends in a store through `NULL`.
-/

namespace Liblsp

open Base

namespace SocketLayer

/-! ## The pop of the socket layer is the one of the queue -/

/-- How a pop ends that takes an item only if there is one. -/
def PopEnds (hdl hdl' : LspQueueHandle) (rc : Int) : Prop :=
  (rc ≠ lspErrNone ∧ hdl'.contents = hdl.contents) ∨
    (rc = lspErrNone ∧ hdl.isEmpty = false ∧ hdl' = hdl.take)

theorem popEnds_of_locked {hdl hdl' : LspQueueHandle} {timeout : UInt32}
    {clock : Option Timespec} {rc : Int}
    (popped : lspQueuePopLocked hdl timeout clock = (hdl', .ret rc)) :
    PopEnds hdl hdl' rc := by
  rcases lspQueuePopLocked_cases hdl timeout clock with
    ends | ends | ⟨_, _, _, ends⟩ | ⟨filled, ends⟩
  · cases ends.symm.trans popped
    exact .inl ⟨by decide, rfl⟩
  · cases ends.symm.trans popped
    exact .inl ⟨by decide, rfl⟩
  · cases ends.symm.trans popped
  · cases ends.symm.trans popped
    exact .inr ⟨rfl, filled, rfl⟩

theorem popEnds_of_resumed {hdl : LspQueueHandle} {result : WaitResult}
    (item : result = .ok → hdl.isEmpty = false) :
    PopEnds { hdl with waitingEmpty := toInt (hdl.waitingEmpty - 1) }
      (lspQueuePopResumed hdl result).1
      (lspQueuePopResumed hdl result).2 := by
  cases result with
  | ok => exact .inr ⟨rfl, item rfl, rfl⟩
  | etimedout => exact .inl ⟨by simp [lspQueuePopResumed, lspErrTimeout,
      lspErrNone], rfl⟩
  | einval => exact .inl ⟨by simp [lspQueuePopResumed, lspErrInvalid,
      lspErrNone], rfl⟩

/-- The children of a server are the addresses in its queue, and the pop of
the socket layer takes the first one exactly if the pop of the queue does. -/
theorem popChild_refines {hdl hdl' : LspQueueHandle} {rc : Int}
    (normal : hdl.Normal) (ends : PopEnds hdl hdl' rc)
    (address : List UInt8 → Nat) {w : SocketLayer} {handle : Nat}
    (queue : w.queues handle = some (hdl.contents.map address)) :
    w.popChild (some handle) rc =
      some (w.setQueue handle (some (hdl'.contents.map address)),
        if rc = lspErrNone then hdl.contents.head?.map address else none) := by
  rcases ends with ⟨failed, same⟩ | ⟨success, filled, taken⟩
  · have unchanged : w.setQueue handle (some (hdl'.contents.map address)) =
        w := by
      rw [same, ← queue, setQueue, Function.update_eq_self]
    rw [unchanged, if_neg failed]
    cases contents : hdl.contents with
    | nil =>
        rw [contents, List.map_nil] at queue
        simp [popChild, queue, failed]
    | cons first rest =>
        rw [contents, List.map_cons] at queue
        simp [popChild, queue, failed]
  · have present : 0 < hdl.length := by
      simpa [LspQueueHandle.isEmpty] using filled
    have contents := normal.contents_take present
    rw [contents, List.map_cons] at queue
    rw [taken, contents, success]
    simp [popChild, queue]

/-! ## Accepting -/

/-- A socket that `lsp_accept` waits on, with the queue of its children. -/
structure Accepting (w : SocketLayer) (sock : Nat) (pending : List Nat) :
    Prop where
  type : (w.conns sock).type = connServer
  state : (w.conns sock).state = .connListen
  children : ∃ handle, (w.conns sock).children = some handle ∧
    w.queues handle = some pending

/-- A pop that succeeds hands out the oldest child, and any other one ends
with `NULL`; no other connection is written. -/
structure AcceptsSafely (w : SocketLayer) (sock : Nat) (pending : List Nat)
    (rc : Int) : Prop where
  success : rc = lspErrNone → ∃ child rest w', pending = child :: rest ∧
    w.lspAccept sock rc = some (w', .child child) ∧
    (w'.conns child).type = connChild ∧
    (w'.conns child).children = some sock ∧
    ∀ other, other ≠ child → w'.conns other = w.conns other
  failure : rc ≠ lspErrNone → ∃ w',
    w.lspAccept sock rc = some (w', .null) ∧ w'.conns = w.conns

variable {w : SocketLayer} {sock : Nat} {pending : List Nat} {rc : Int}

theorem lspAccept_nullWrite (accepting : w.Accepting sock pending)
    (failed : rc ≠ lspErrNone) :
    w.lspAccept sock rc = some (w, .nullWrite) := by
  obtain ⟨handle, children, queue⟩ := accepting.children
  have notTaken : w.popChild (some handle) rc = some (w, none) := by
    cases pending with
    | nil => simp [popChild, queue, failed]
    | cons first rest => simp [popChild, queue, failed]
  rw [lspAccept, if_neg (not_not.mpr accepting.type),
    if_neg (not_not.mpr accepting.state), children, notTaken]
  rfl

theorem lspAccept_child {child : Nat} {rest : List Nat}
    (accepting : w.Accepting sock (child :: rest)) :
    ∃ w', w.lspAccept sock lspErrNone = some (w', .child child) ∧
      w'.conns = Function.update w.conns child
        { w.conns child with type := connChild, children := some sock } := by
  obtain ⟨handle, children, queue⟩ := accepting.children
  have taken : w.popChild (some handle) lspErrNone =
      some (w.setQueue handle (some rest), some child) := by
    simp [popChild, queue]
  let accepted := (w.setQueue handle (some rest)).modifyConn child
    fun conn => { conn with type := connChild, children := some sock }
  refine ⟨accepted, ?_, ?_⟩
  · rw [lspAccept, if_neg (not_not.mpr accepting.type),
      if_neg (not_not.mpr accepting.state), children, taken]
    rfl
  · rfl

/-- Accepting is safe exactly when the pop takes a child. -/
theorem acceptsSafely_iff (accepting : w.Accepting sock pending) :
    w.AcceptsSafely sock pending rc ↔ rc = lspErrNone ∧ pending ≠ [] := by
  by_cases success : rc = lspErrNone
  · subst success
    rw [and_iff_right rfl]
    constructor
    · intro safe none
      obtain ⟨child, rest, w', taken, _⟩ := safe.success rfl
      cases none.symm.trans taken
    · intro some_pending
      obtain ⟨child, rest, same⟩ := List.exists_cons_of_ne_nil some_pending
      subst same
      obtain ⟨w', accepted, conns⟩ := lspAccept_child accepting
      refine ⟨fun _ => ⟨child, rest, w', rfl, accepted, ?_, ?_, ?_⟩,
        fun failed => absurd rfl failed⟩
      · rw [conns, Function.update_self]
      · rw [conns, Function.update_self]
      · intro other different
        rw [conns, Function.update_of_ne different]
  · refine iff_of_false ?_ ?_
    · intro safe
      obtain ⟨w', accepted, _⟩ := safe.failure success
      cases (lspAccept_nullWrite accepting success).symm.trans accepted
    · intro taken
      exact success taken.1

section Examples

/-- A server with one pending child. -/
def onePending : SocketLayer :=
  { conns := fun i =>
      if i = 0 then
        { clearedConn with
          type := connServer, state := .connListen, children := some 7 }
      else { clearedConn with state := .connConnected }
    links := ⟨id, id⟩
    ports := fun _ => .portClosed
    queues := Function.update (fun _ => none) 7 (some [1]) }

theorem onePending_accepting : onePending.Accepting 0 [1] :=
  ⟨rfl, rfl, 7, rfl, rfl⟩

theorem acceptsSafely_onePending :
    onePending.AcceptsSafely 0 [1] lspErrNone :=
  (acceptsSafely_iff onePending_accepting).mpr ⟨rfl, by simp⟩

/-- A server without a pending child. -/
def nonePending : SocketLayer := onePending.setQueue 7 (some [])

/-- The timeout of a server loop ends in a store through `NULL`. -/
theorem nonePending_nullWrite :
    nonePending.Accepting 0 [] ∧
      nonePending.lspAccept 0 lspErrTimeout =
        some (nonePending, .nullWrite) ∧
      ¬nonePending.AcceptsSafely 0 [] lspErrTimeout := by
  have accepting : nonePending.Accepting 0 [] := ⟨rfl, rfl, 7, rfl, rfl⟩
  have failed : lspErrTimeout ≠ lspErrNone := by decide
  have written := lspAccept_nullWrite accepting failed
  refine ⟨accepting, written, ?_⟩
  intro safe
  obtain ⟨w', accepted, _⟩ := safe.failure failed
  cases written.symm.trans accepted

end Examples

end SocketLayer

end Liblsp
