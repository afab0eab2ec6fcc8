import Liblsp.Base.RingBuffer
import Liblsp.CondWait
import Liblsp.PortLists

/-!
# Accepting, receiving and the public fields of a socket

The calls of a program on its sockets, with `lsp_accept` and the delivery of
buffers beside the ones on ports.  A socket is a pointer to a public
structure, so a program can also store a port number in it.
-/

namespace Liblsp

open Base

/-- `CONN_CLIENT` and `CONN_CHILD`, values of `lsp_conn_type_t`. -/
def connClient : Nat := 0
def connChild : Nat := 2

/-- What `lsp_accept` does in the end; `nullWrite` is a store through a child
that is `NULL`. -/
inductive AcceptResult where
  | null
  | child (conn : Nat)
  | nullWrite
  deriving DecidableEq

namespace SocketLayer

/-- `lsp_queue_pop` on a queue of children that returns `rc`.  Without success
the pointer of the caller keeps its `NULL`. -/
def popChild (w : SocketLayer) (children : Option Nat) (rc : Int) :
    Option (SocketLayer × Option Nat) :=
  children.bind fun handle =>
    match w.queues handle with
    | none => none
    | some [] => if rc = lspErrNone then none else some (w, none)
    | some (child :: rest) =>
        if rc = lspErrNone then
          some (w.setQueue handle (some rest), some child)
        else some (w, none)

/-- `lsp_accept`, given what the pop returns.  The parent goes to the union
that holds the children of a server. -/
def lspAccept (w : SocketLayer) (sock : Nat) (rc : Int) :
    Option (SocketLayer × AcceptResult) :=
  if (w.conns sock).type ≠ connServer then some (w, .null)
  else if (w.conns sock).state ≠ .connListen then some (w, .null)
  else
    (w.popChild (w.conns sock).children rc).map fun (w, child) =>
      match child with
      | none => (w, .nullWrite)
      | some child =>
          (w.modifyConn child fun conn =>
            { conn with type := connChild, children := some sock },
            .child child)

/-- `lsp_conn_rxq_push` on a receive queue of `conn_queuelen` entries, given
how its wait ends if the queue is full.  A wait that returns `0` stores into
the full queue, which without an entry is a division by zero. -/
def lspConnRxqPush (w : SocketLayer) (connQueuelen i buffer : Nat)
    (wait : WaitResult) : Option (SocketLayer × Int) :=
  (w.conns i).rxQueue.bind fun handle =>
    (w.queues handle).bind fun buffers =>
      if buffers.length < connQueuelen then
        some (w.setQueue handle (some (buffers ++ [buffer])), lspErrNone)
      else
        match wait with
        | .ok =>
            if connQueuelen = 0 then none
            else
              some (w.setQueue handle
                (some (storeRound connQueuelen buffers buffer)), lspErrNone)
        | .etimedout => some (w, lspErrTimeout)
        | .einval => some (w, lspErrInvalid)

end SocketLayer

/-- The assignment `sock->attr.lport = port`. -/
def LspConn.storeLport (conn : LspConn) (port : UInt8) : LspConn :=
  { conn with attr := { conn.attr with lport := port } }

/-- The socket a call is made on. -/
def SocketCall.sock : SocketCall → Option Nat
  | .socket .. => none
  | .bind sock .. => some sock
  | .listen sock .. => some sock
  | .connect sock _ => some sock
  | .close sock .. => some sock

inductive EndpointCall where
  | call (call : SocketCall)
  | accept (sock : Nat) (rc : Int)
  | rxqPush (sock buffer : Nat) (wait : WaitResult)
  | storeLport (sock : Nat) (port : UInt8)

def EndpointCall.sock : EndpointCall → Option Nat
  | .call socketCall => socketCall.sock
  | .accept sock _ => some sock
  | .rxqPush sock _ _ => some sock
  | .storeLport sock _ => some sock

/-- A program that uses sockets, with a record of the sockets on which
`lsp_listen` got past its test and of those that received a buffer. -/
structure Endpoints where
  use : SocketUse
  entered : List Nat
  received : List Nat

/-- `LSP_CONN_EGROUP_POOL`, `LSP_CONN_PERSISTENT_RXQUEUE` and
`conn_queuelen`. -/
structure EndpointConfig where
  conn : ConnConfig
  connQueuelen : Nat

namespace Endpoints

open SocketLayer

def layer (e : Endpoints) : SocketLayer := e.use.layer

/-- The socket on which a call gets past the test of `lsp_listen`. -/
def enters (w : SocketLayer) : SocketCall → List Nat
  | .listen sock _ _ =>
      if (w.conns sock).attr.lport > lspPacketPortMax then [] else [sock]
  | _ => []

/-- A store through `NULL` ends the program. -/
def step (config : EndpointConfig) (e : Endpoints) :
    EndpointCall → Option Endpoints
  | .call call =>
      (e.use.step config.conn call).map fun use =>
        { e with use := use, entered := enters e.layer call ++ e.entered }
  | .accept sock rc =>
      if sock ∈ e.use.known then
        (e.layer.lspAccept sock rc).bind fun (layer, result) =>
          match result with
          | .nullWrite => none
          | .null => some { e with use := { e.use with layer := layer } }
          | .child child =>
              some { e with
                use := { layer := layer, known := child :: e.use.known } }
      else none
  | .rxqPush sock buffer wait =>
      if sock ∈ e.use.known then
        (e.layer.lspConnRxqPush config.connQueuelen sock buffer wait).map
          fun (layer, rc) =>
            { e with
              use := { e.use with layer := layer }
              received :=
                if rc = lspErrNone then sock :: e.received else e.received }
      else none
  | .storeLport sock port =>
      if sock ∈ e.use.known then
        some { e with
          use := { e.use with
            layer := e.layer.modifyConn sock (·.storeLport port) } }
      else none

/-- The ports are initialised, the pool is cleared and there is no queue. -/
def initial (links : Links ListNode) : Endpoints :=
  { use := SocketUse.initial links fun _ => none
    entered := []
    received := [] }

section Steps

variable {config : EndpointConfig} {e e' : Endpoints} {sock : Nat}

theorem step_call {call : SocketCall}
    (stepped : e.step config (.call call) = some e') :
    e.use.step config.conn call = some e'.use ∧
      e'.entered = enters e.layer call ++ e.entered ∧
      e'.received = e.received := by
  obtain ⟨use, called, same⟩ := Option.map_eq_some_iff.mp stepped
  rw [← same]
  exact ⟨called, rfl, rfl⟩

theorem step_accept {rc : Int}
    (stepped : e.step config (.accept sock rc) = some e') :
    sock ∈ e.use.known ∧
      (∃ result, e.layer.lspAccept sock rc = some (e'.layer, result)) ∧
      e'.entered = e.entered ∧ e'.received = e.received := by
  simp only [step] at stepped
  split at stepped
  · rename_i member
    obtain ⟨⟨layer, result⟩, accepted, rest⟩ :=
      Option.bind_eq_some_iff.mp stepped
    cases result with
    | nullWrite => cases rest
    | null =>
        cases rest
        exact ⟨member, ⟨_, accepted⟩, rfl, rfl⟩
    | child child =>
        cases rest
        exact ⟨member, ⟨_, accepted⟩, rfl, rfl⟩
  · cases stepped

theorem step_rxqPush {buffer : Nat} {wait : WaitResult}
    (stepped : e.step config (.rxqPush sock buffer wait) = some e') :
    sock ∈ e.use.known ∧ ∃ rc,
      e.layer.lspConnRxqPush config.connQueuelen sock buffer wait =
        some (e'.layer, rc) ∧
      e'.entered = e.entered ∧
      e'.received =
        if rc = lspErrNone then sock :: e.received else e.received := by
  simp only [step] at stepped
  split at stepped
  · rename_i member
    obtain ⟨⟨layer, rc⟩, pushed, same⟩ := Option.map_eq_some_iff.mp stepped
    cases same
    exact ⟨member, rc, pushed, rfl, rfl⟩
  · cases stepped

theorem step_storeLport {port : UInt8}
    (stepped : e.step config (.storeLport sock port) = some e') :
    sock ∈ e.use.known ∧
      e'.layer = e.layer.modifyConn sock (·.storeLport port) ∧
      e'.entered = e.entered ∧ e'.received = e.received := by
  simp only [step] at stepped
  split at stepped
  · rename_i member
    cases stepped
    exact ⟨member, rfl, rfl, rfl⟩
  · cases stepped

end Steps

end Endpoints

/-! ## Who writes the buffers and the types -/

namespace SocketLayer

theorem popChild_cases {w w' : SocketLayer} {children child : Option Nat}
    {rc : Int} (popped : w.popChild children rc = some (w', child)) :
    (child = none ∧ w' = w) ∨
      ∃ handle first rest, child = some first ∧
        w.queues handle = some (first :: rest) ∧
        w' = w.setQueue handle (some rest) := by
  obtain ⟨handle, _, result⟩ := Option.bind_eq_some_iff.mp popped
  split at result
  · cases result
  · split at result
    · cases result
    · cases result
      exact .inl ⟨rfl, rfl⟩
  · rename_i first rest held
    split at result
    · cases result
      exact .inr ⟨handle, first, rest, rfl, held, rfl⟩
    · cases result
      exact .inl ⟨rfl, rfl⟩

theorem lspAccept_cases {w w' : SocketLayer} {sock : Nat} {rc : Int}
    {result : AcceptResult}
    (accepted : w.lspAccept sock rc = some (w', result)) :
    w' = w ∨ ∃ handle child rest, result = .child child ∧
      w.queues handle = some (child :: rest) ∧
      w' = (w.setQueue handle (some rest)).modifyConn child fun conn =>
        { conn with type := connChild, children := some sock } := by
  unfold lspAccept at accepted
  split at accepted
  · cases accepted
    exact .inl rfl
  · split at accepted
    · cases accepted
      exact .inl rfl
    · obtain ⟨⟨popped, child⟩, pop, handed⟩ :=
        Option.map_eq_some_iff.mp accepted
      rcases popChild_cases pop with
        ⟨none, same⟩ | ⟨handle, first, rest, some, held, same⟩
      · subst none
        cases handed
        exact .inl same
      · subst some
        cases handed
        exact .inr ⟨handle, first, rest, rfl, held, by rw [same]⟩

/-- A push that succeeds leaves a buffer in the queue. -/
theorem lspConnRxqPush_cases {w w' : SocketLayer}
    {connQueuelen i buffer : Nat} {wait : WaitResult} {rc : Int}
    (pushed : w.lspConnRxqPush connQueuelen i buffer wait = some (w', rc)) :
    ∃ handle buffers, (w.conns i).rxQueue = some handle ∧
      w.queues handle = some buffers ∧
      ((rc = lspErrNone ∧ ∃ stored, stored ≠ [] ∧
          w' = w.setQueue handle (some stored)) ∨
        (rc ≠ lspErrNone ∧ w' = w)) := by
  obtain ⟨handle, owned, rest⟩ := Option.bind_eq_some_iff.mp pushed
  obtain ⟨buffers, held, result⟩ := Option.bind_eq_some_iff.mp rest
  refine ⟨handle, buffers, owned, held, ?_⟩
  split at result
  · cases result
    exact .inl ⟨rfl, buffers ++ [buffer], by simp, rfl⟩
  · cases wait with
    | ok =>
        simp only at result
        split at result
        · cases result
        · cases result
          exact .inl ⟨rfl, storeRound connQueuelen buffers buffer,
            by simp [storeRound], rfl⟩
    | etimedout =>
        cases result
        exact .inr ⟨by decide, rfl⟩
    | einval =>
        cases result
        exact .inr ⟨by decide, rfl⟩

end SocketLayer

namespace SocketLayer

section Types

variable {w w' : SocketLayer} {i other : Nat}

theorem lspConnClose_field {β : Type} {field : LspConn → β}
    (state : ∀ conn : LspConn, field { conn with state := .connClosed } =
      field conn)
    (queue : ∀ conn : LspConn, field { conn with rxQueue := none } =
      field conn)
    (egroup : ∀ conn : LspConn, field { conn with egroup := none } =
      field conn)
    {config : ConnConfig} {junk : ConnJunk} {fuel : Nat} {rc : Int}
    (closed : w.lspConnClose config junk i fuel = some (w', rc))
    (other : Nat) : field (w'.conns other) = field (w.conns other) := by
  have marked : field ((w.unlisted i).conns other) =
      field (w.conns other) := by
    change field ((w.modifyConn i fun conn =>
      { conn with state := .connClosed }).conns other) = _
    exact modifyConn_field field (state _) _
  rcases lspConnClose_cases closed with
    ⟨_, same, _⟩ | ⟨_, same, _⟩ |
      ⟨_, _, _, handle, buffer, rest, dropped, _, _, drops, same, _⟩
  · rw [same]
  · rw [same]
    exact marked
  · rw [same, ← marked]
    by_cases here : other = i
    · subst here
      simp [closedWith, setConn,
        LspConn.dropHandles_field queue egroup drops]
    · simp [closedWith, setConn, setQueue, here, freeQueue_conns]

/-- What no close and no store of the recursion changes, freeing does not
change. -/
private theorem free_keeps {β : Type} (view : SocketLayer → β)
    {config : ConnConfig}
    (closes : ∀ w w' junk i fuel rc,
      w.lspConnClose config junk i fuel = some (w', rc) → view w' = view w)
    (marks : ∀ w i, view
      (w.modifyConn i fun conn => { conn with state := .connFree }) = view w)
    (queues : ∀ w handle contents, view (w.setQueue handle contents) = view w)
    (junk : Nat → ConnJunk) (fuel : Nat) :
    (∀ w i w' rc, lspConnFree config junk fuel w i = some (w', rc) →
        view w' = view w) ∧
      ∀ w handle w', freeChildren config junk fuel w handle = some w' →
        view w' = view w := by
  induction fuel with
  | zero =>
      constructor
      · intro w i w' rc freed
        simp [lspConnFree] at freed
      · intro w handle w' freed
        simp [freeChildren] at freed
  | succ fuel induction =>
      constructor
      · intro w i w' rc freed
        rw [lspConnFree] at freed
        obtain ⟨⟨closed, code⟩, closing, rest⟩ :=
          Option.bind_eq_some_iff.mp freed
        have before : view closed = view w := by
          split at closing
          · exact closes _ _ _ _ _ _ closing
          · cases closing
            rfl
        rw [← before]
        simp only at rest
        split at rest
        · cases rest
          rfl
        · obtain ⟨drained, draining, same⟩ :=
            Option.map_eq_some_iff.mp rest
          cases same
          have emptied : view drained = view closed := by
            split at draining
            · obtain ⟨handle, _, children⟩ :=
                Option.bind_eq_some_iff.mp draining
              exact induction.2 closed handle drained children
            · cases draining
              rfl
          rw [← emptied]
          exact marks drained i
      · intro w handle w' freed
        rw [freeChildren] at freed
        split at freed
        · cases freed
        · cases freed
          exact queues w handle none
        · rename_i sock rest _
          obtain ⟨⟨after, code⟩, child, remaining⟩ :=
            Option.bind_eq_some_iff.mp freed
          calc
            view w' = view after := induction.2 after handle w' remaining
            _ = view (w.setQueue handle (some rest)) :=
              induction.1 _ _ after code child
            _ = view w := queues w handle (some rest)

theorem lspConnFree_keeps {β : Type} (view : SocketLayer → β)
    {config : ConnConfig}
    (closes : ∀ w w' junk i fuel rc,
      w.lspConnClose config junk i fuel = some (w', rc) → view w' = view w)
    (marks : ∀ w i, view
      (w.modifyConn i fun conn => { conn with state := .connFree }) = view w)
    (queues : ∀ w handle contents, view (w.setQueue handle contents) = view w)
    {junk : Nat → ConnJunk} {fuel : Nat} {rc : Int}
    (freed : lspConnFree config junk fuel w i = some (w', rc)) :
    view w' = view w :=
  (free_keeps view closes marks queues junk fuel).1 w i w' rc freed

theorem lspConnFree_field {β : Type} {field : LspConn → β}
    (state : ∀ (conn : LspConn) next, field { conn with state := next } =
      field conn)
    (queue : ∀ conn : LspConn, field { conn with rxQueue := none } =
      field conn)
    (egroup : ∀ conn : LspConn, field { conn with egroup := none } =
      field conn)
    {config : ConnConfig} {junk : Nat → ConnJunk} {fuel : Nat} {rc : Int}
    (freed : lspConnFree config junk fuel w i = some (w', rc))
    (other : Nat) : field (w'.conns other) = field (w.conns other) := by
  apply lspConnFree_keeps (fun w => field (w.conns other)) ?_ ?_ ?_ freed
  · intro _ _ _ _ _ _ closed
    exact lspConnClose_field (fun conn => state conn _) queue egroup closed
      other
  · intro _ _
    exact modifyConn_field field (state _ _) other
  · intro _ _ _
    rfl

theorem lspConnFree_type {config : ConnConfig} {junk : Nat → ConnJunk}
    {fuel : Nat} {rc : Int}
    (freed : lspConnFree config junk fuel w i = some (w', rc))
    (other : Nat) : (w'.conns other).type = (w.conns other).type := by
  apply lspConnFree_field ?_ ?_ ?_ freed other
  · intro _ _
    rfl
  · intro _
    rfl
  · intro _
    rfl

theorem lspConnAlloc_type {config : ConnConfig} {answers : AllocAnswers}
    {sock : Option Nat}
    (allocated : w.lspConnAlloc config answers = some (w', sock))
    (other : Nat) : (w'.conns other).type = (w.conns other).type := by
  rcases lspConnAlloc_cases allocated with
    ⟨_, same⟩ | ⟨i, ready, _, ensured, result⟩
  · rw [same]
  · have before : (ready.conns other).type = (w.conns other).type := by
      rcases ensureQueue_cases ensured with same | ⟨handle, _, _, same⟩
      · rw [same]
      · rw [same]
        exact modifyConn_field LspConn.type rfl _
    rw [← before]
    rcases result with ⟨_, same | same⟩ | ⟨_, _, same⟩
    · rw [same]
    · rw [same]
      exact modifyConn_field LspConn.type (LspConn.ensureEgroup_type _ _ _) _
    · rw [same]
      exact modifyConn_field LspConn.type (LspConn.ensureEgroup_type _ _ _) _

end Types

end SocketLayer

end Liblsp
