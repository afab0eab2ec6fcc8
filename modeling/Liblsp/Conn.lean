import Liblsp.LinkedList
import Liblsp.Types

/-!
# The connection pool

Connections are slots of `conn_pool`.  A call that nothing interrupts is a
function on the socket layer: the pool, the list cells of the ports and of the
connections, the ports, and the queues that connections own.
-/

namespace Liblsp

open Base

/-- `lsp_conn_state_t`, in the order of its values. -/
inductive ConnState where
  | connFree
  | connClosed
  | connOpen
  | connListen
  | connConnected
  deriving DecidableEq

/-- The value of a state as an `int`. -/
def ConnState.code : ConnState → Nat
  | .connFree => 0
  | .connClosed => 1
  | .connOpen => 2
  | .connListen => 3
  | .connConnected => 4

/-- `CONN_SERVER`, a value of `lsp_conn_type_t`. -/
def connServer : Nat := 1

/-- `lsp_connattr_t`. -/
structure LspConnAttr where
  priority : UInt8
  lport : UInt8
  laddr : UInt16
  rport : UInt8
  raddr : UInt16
  flags : UInt32

/-- `LSP_PORT_ANY`. -/
def lspPortAny : UInt8 := 255

/-- `LSP_ADDR_ANY`. -/
def lspAddrAny : UInt16 := 65535

def defConnAttr : LspConnAttr :=
  { priority := 4
    lport := lspPortAny
    laddr := lspAddrAny
    rport := lspPortAny
    raddr := lspAddrAny
    flags := 0 }

/-- `lsp_conn_t` without its list cell.  Handles are `none` for `NULL`.  The
field `children` is the union of `children` and `parent`; `type` is a number
because `lsp_listen` stores the value of a state in it. -/
structure LspConn where
  type : Nat
  state : ConnState
  attr : LspConnAttr
  egroup : Option Nat
  children : Option Nat
  rcvTimeout : UInt32
  sndTimeout : UInt32
  sOpt : UInt32
  rxQueue : Option Nat

/-- `LSP_CONN_EGROUP_POOL` and `LSP_CONN_PERSISTENT_RXQUEUE`. -/
structure ConnConfig where
  egroupPool : Bool
  persistentRxqueue : Bool

/-- Values that come out of uninitialised variables and of functions that
return none: `rc` at the start of `lsp_conn_free`, and the results of
`lsp_queue_destroy` and `lsp_egroup_destroy`. -/
structure ConnJunk where
  rc : Int
  queueDestroyed : Int
  egroupDestroyed : Int

/-- `LSP_DEFAULT_MAX_CONNECTIONS`. -/
def lspDefaultMaxConnections : Nat := 32

/-! ## The parts of the functions on a slot -/

/-- The first slot that the scan in `lsp_conn_alloc` finds free. -/
def firstFree (conns : Nat → LspConn) : Option Nat :=
  (List.range lspDefaultMaxConnections).find? fun i =>
    (conns i).state = .connFree

theorem state_of_firstFree {conns : Nat → LspConn} {i : Nat}
    (found : firstFree conns = some i) : (conns i).state = .connFree := by
  simpa using List.find?_some found

namespace LspConn

/-- Create the receive queue if there is none yet. -/
def ensureQueue (conn : LspConn) (queue : Option Nat) : LspConn :=
  if conn.rxQueue = none then { conn with rxQueue := queue } else conn

/-- Create the event group if there is none yet. -/
def ensureEgroup (config : ConnConfig) (conn : LspConn)
    (egroup : Option Nat) : LspConn :=
  if config.egroupPool then conn
  else if conn.egroup = none then { conn with egroup := egroup } else conn

/-- `lsp_conn_alloc` gives up without an event group. -/
def lacksEgroup (config : ConnConfig) (conn : LspConn) : Bool :=
  !config.egroupPool && conn.egroup = none

/-- The stores of `lsp_conn_alloc` after the one to `state`. -/
def reset (conn : LspConn) : LspConn :=
  { conn with
    children := none
    attr := defConnAttr
    rcvTimeout := lspTimeoutMax
    sndTimeout := lspTimeoutMax
    sOpt := 0 }

/-- Destroy the receive queue, in the configuration that does. -/
def dropQueue (config : ConnConfig) (junk : ConnJunk) (conn : LspConn) :
    LspConn × Int :=
  if config.persistentRxqueue then
    if junk.queueDestroyed = lspErrNone then
      ({ conn with rxQueue := none }, junk.queueDestroyed)
    else (conn, junk.queueDestroyed)
  else (conn, lspErrNone)

/-- Destroy the event group, unless it belongs to the pool.  There is no
result if there is none to destroy, as `lsp_egroup_destroy` does not test its
handle. -/
def dropEgroup (config : ConnConfig) (junk : ConnJunk) (conn : LspConn)
    (rc : Int) : Option (LspConn × Int) :=
  if config.egroupPool then some (conn, rc)
  else if conn.egroup = none then none
  else if junk.egroupDestroyed = lspErrNone then
    some ({ conn with egroup := none }, junk.egroupDestroyed)
  else some (conn, junk.egroupDestroyed)

/-- The end of `lsp_conn_close`, after the receive queue is flushed. -/
def dropHandles (config : ConnConfig) (junk : ConnJunk) (conn : LspConn) :
    Option (LspConn × Int) :=
  let (conn, rc) := conn.dropQueue config junk
  conn.dropEgroup config junk rc

@[simp] theorem ensureQueue_state (conn : LspConn) (queue : Option Nat) :
    (conn.ensureQueue queue).state = conn.state := by
  unfold ensureQueue
  split <;> rfl

@[simp] theorem ensureEgroup_state (config : ConnConfig) (conn : LspConn)
    (egroup : Option Nat) :
    (conn.ensureEgroup config egroup).state = conn.state := by
  unfold ensureEgroup
  split
  · rfl
  · split <;> rfl

theorem ensureEgroup_type (config : ConnConfig) (conn : LspConn)
    (egroup : Option Nat) :
    (conn.ensureEgroup config egroup).type = conn.type := by
  unfold ensureEgroup
  split
  · rfl
  · split <;> rfl

theorem ensureEgroup_attr (config : ConnConfig) (conn : LspConn)
    (egroup : Option Nat) :
    (conn.ensureEgroup config egroup).attr = conn.attr := by
  unfold ensureEgroup
  split
  · rfl
  · split <;> rfl

theorem ensureEgroup_rxQueue (config : ConnConfig) (conn : LspConn)
    (egroup : Option Nat) :
    (conn.ensureEgroup config egroup).rxQueue = conn.rxQueue := by
  unfold ensureEgroup
  split
  · rfl
  · split <;> rfl

@[simp] theorem reset_state (conn : LspConn) :
    conn.reset.state = conn.state := rfl

section Fields

variable {β : Type} {field : LspConn → β}

theorem dropQueue_field
    (queue : ∀ conn : LspConn, field { conn with rxQueue := none } =
      field conn)
    (config : ConnConfig) (junk : ConnJunk) (conn : LspConn) :
    field (conn.dropQueue config junk).1 = field conn := by
  unfold dropQueue
  split
  · split
    · exact queue conn
    · rfl
  · rfl

theorem dropEgroup_field
    (egroup : ∀ conn : LspConn, field { conn with egroup := none } =
      field conn)
    {config : ConnConfig} {junk : ConnJunk} {conn dropped : LspConn}
    {rc rc' : Int}
    (drops : conn.dropEgroup config junk rc = some (dropped, rc')) :
    field dropped = field conn := by
  unfold dropEgroup at drops
  split at drops
  · cases drops
    rfl
  · split at drops
    · cases drops
    · split at drops
      · cases drops
        exact egroup conn
      · cases drops
        rfl

theorem dropHandles_field
    (queue : ∀ conn : LspConn, field { conn with rxQueue := none } =
      field conn)
    (egroup : ∀ conn : LspConn, field { conn with egroup := none } =
      field conn)
    {config : ConnConfig} {junk : ConnJunk} {conn dropped : LspConn}
    {rc : Int}
    (drops : conn.dropHandles config junk = some (dropped, rc)) :
    field dropped = field conn :=
  (dropEgroup_field egroup drops).trans (dropQueue_field queue _ _ _)

end Fields

end LspConn

/-! ## Calls that nothing interrupts -/

inductive PortState where
  | portClosed
  | portOpen
  deriving DecidableEq

/-- The list cells of the ports and of the connections, and `NULL`, which
cleared cells point to. -/
inductive ListNode where
  | sockets (port : Nat)
  | portlist (conn : Nat)
  | null
  deriving DecidableEq

/-- The pool, the list cells, the ports, and the contents of every queue that
exists. -/
structure SocketLayer where
  conns : Nat → LspConn
  links : Links ListNode
  ports : Nat → PortState
  queues : Nat → Option (List Nat)

/-- What the allocations in a call yield if they are asked. -/
structure AllocAnswers where
  queue : Option Nat
  egroup : Option Nat

namespace SocketLayer

def setConn (w : SocketLayer) (i : Nat) (conn : LspConn) : SocketLayer :=
  { w with conns := Function.update w.conns i conn }

def modifyConn (w : SocketLayer) (i : Nat) (change : LspConn → LspConn) :
    SocketLayer :=
  w.setConn i (change (w.conns i))

def setQueue (w : SocketLayer) (handle : Nat) (contents : Option (List Nat)) :
    SocketLayer :=
  { w with queues := Function.update w.queues handle contents }

/-- `lsp_queue_create` fails or returns a new queue without items. -/
def createQueue (w : SocketLayer) :
    Option Nat → Option (SocketLayer × Option Nat)
  | none => some (w, none)
  | some handle =>
      if w.queues handle = none then
        some (w.setQueue handle (some []), some handle)
      else none

/-- The creation of the receive queue in `lsp_conn_alloc`. -/
def ensureQueue (w : SocketLayer) (i : Nat) (queue : Option Nat) :
    Option SocketLayer :=
  if (w.conns i).rxQueue = none then
    (w.createQueue queue).map fun (w, handle) =>
      w.modifyConn i fun conn => conn.ensureQueue handle
  else some w

/-- `lsp_conn_alloc`, with `none` for `NULL`. -/
def lspConnAlloc (w : SocketLayer) (config : ConnConfig)
    (answers : AllocAnswers) : Option (SocketLayer × Option Nat) :=
  match firstFree w.conns with
  | none => some (w, none)
  | some i =>
      (w.ensureQueue i answers.queue).map fun w =>
        if (w.conns i).rxQueue = none then (w, none)
        else
          let conn := (w.conns i).ensureEgroup config answers.egroup
          if conn.lacksEgroup config then (w.setConn i conn, none)
          else
            (w.setConn i { conn with state := .connClosed }.reset, some i)

/-- The loop of `lsp_conn_rxq_flush` goes on as long as there is no buffer to
take, and frees a pointer it never got. -/
def rxqFlushLoop (w : SocketLayer) (handle : Nat) : Nat → Option SocketLayer
  | 0 => none
  | fuel + 1 =>
      match w.queues handle with
      | none => none
      | some [] => w.rxqFlushLoop handle fuel
      | some (_ :: rest) => some (w.setQueue handle (some rest))

def lspConnRxqFlush (w : SocketLayer) (i fuel : Nat) :
    Option (SocketLayer × Int) :=
  match (w.conns i).rxQueue with
  | none => some (w, lspErrInvalid)
  | some handle =>
      (w.rxqFlushLoop handle fuel).map fun w => (w, lspErrNone)

/-- The receive queue is gone in the configuration that destroys it. -/
def freeQueue (w : SocketLayer) (config : ConnConfig) (i : Nat) :
    SocketLayer :=
  if config.persistentRxqueue then
    match (w.conns i).rxQueue with
    | none => w
    | some handle => w.setQueue handle none
  else w

/-- The list cell of a connection has neighbours. -/
def Linked (w : SocketLayer) (i : Nat) : Prop :=
  w.links.next (.portlist i) ≠ .null ∧ w.links.prev (.portlist i) ≠ .null

instance (w : SocketLayer) (i : Nat) : Decidable (w.Linked i) :=
  inferInstanceAs (Decidable (_ ∧ _))

/-- There is no result where `lsp_list_del` stores through a null pointer. -/
def lspConnClose (w : SocketLayer) (config : ConnConfig) (junk : ConnJunk)
    (i fuel : Nat) : Option (SocketLayer × Int) :=
  if (w.conns i).state.code ≤ ConnState.connClosed.code then
    some (w, lspErrNone)
  else
    let w := w.modifyConn i fun conn => { conn with state := .connClosed }
    if ¬w.Linked i then none
    else
      let w := { w with links := lspListDel w.links (.portlist i) }
      (w.lspConnRxqFlush i fuel).bind fun (w, rc) =>
        if rc ≠ lspErrNone then some (w, rc)
        else
          ((w.conns i).dropHandles config junk).map fun (conn, rc) =>
            ((w.freeQueue config i).setConn i conn, rc)

mutual

/-- `lsp_conn_free`.  The junk of a call depends on the fuel it runs on. -/
def lspConnFree (config : ConnConfig) (junk : Nat → ConnJunk) :
    Nat → SocketLayer → Nat → Option (SocketLayer × Int)
  | 0, _, _ => none
  | fuel + 1, w, i =>
      (if (w.conns i).state ≠ .connClosed then
        w.lspConnClose config (junk fuel) i fuel
      else some (w, (junk fuel).rc)).bind fun (w, rc) =>
        if rc ≠ lspErrNone then some (w, rc)
        else
          (if (w.conns i).type = connServer then
            (w.conns i).children.bind fun handle =>
              freeChildren config junk fuel w handle
          else some w).map fun w =>
            (w.modifyConn i fun conn => { conn with state := .connFree }, rc)

/-- Take the sockets out of the queue of children and free them, then destroy
the queue. -/
def freeChildren (config : ConnConfig) (junk : Nat → ConnJunk) :
    Nat → SocketLayer → Nat → Option SocketLayer
  | 0, _, _ => none
  | fuel + 1, w, handle =>
      match w.queues handle with
      | none => none
      | some [] => some (w.setQueue handle none)
      | some (sock :: rest) =>
          (lspConnFree config junk fuel (w.setQueue handle (some rest))
            sock).bind fun (w, _) => freeChildren config junk fuel w handle

end

/-! ## What allocating and freeing a closed connection do -/

/-- What the last call of `lsp_conn_close` returns, `LSP_ERR_NONE` where the
configuration destroys nothing. -/
def destroyResult (config : ConnConfig) (junk : ConnJunk) : Int :=
  if config.egroupPool then
    if config.persistentRxqueue then junk.queueDestroyed else lspErrNone
  else junk.egroupDestroyed

/-- A connection marked closed and taken off the list of its port. -/
def unlisted (w : SocketLayer) (i : Nat) : SocketLayer :=
  let w := w.modifyConn i fun conn => { conn with state := .connClosed }
  { w with links := lspListDel w.links (.portlist i) }

/-- A connection closed after its receive queue is flushed, with the handles
that it is left with. -/
def closedWith (w : SocketLayer) (config : ConnConfig) (i handle : Nat)
    (rest : List Nat) (dropped : LspConn) : SocketLayer :=
  let w := (w.unlisted i).setQueue handle (some rest)
  (w.freeQueue config i).setConn i dropped

section Specifications

variable {w w' : SocketLayer} {i : Nat}

theorem modifyConn_self {change : LspConn → LspConn}
    (same : change (w.conns i) = w.conns i) : w.modifyConn i change = w := by
  unfold modifyConn setConn
  rw [same, Function.update_eq_self]

theorem modifyConn_field {β : Type} (field : LspConn → β)
    {change : LspConn → LspConn}
    (kept : field (change (w.conns i)) = field (w.conns i)) (other : Nat) :
    field ((w.modifyConn i change).conns other) = field (w.conns other) := by
  by_cases same : other = i
  · subst same
    simpa [modifyConn, setConn] using kept
  · simp [modifyConn, setConn, same]

theorem ensureQueue_cases {queue : Option Nat}
    (ensured : w.ensureQueue i queue = some w') :
    w' = w ∨ ∃ handle, (w.conns i).rxQueue = none ∧
      w.queues handle = none ∧
      w' = (w.setQueue handle (some [])).modifyConn i fun conn =>
        { conn with rxQueue := some handle } := by
  unfold ensureQueue at ensured
  split at ensured
  · rename_i absent
    cases queue with
    | none =>
        simp only [createQueue, Option.map_some,
          Option.some.injEq] at ensured
        left
        rw [← ensured]
        apply modifyConn_self
        rw [LspConn.ensureQueue, if_pos absent, ← absent]
    | some handle =>
        simp only [createQueue] at ensured
        split at ensured
        · rename_i unused
          simp only [Option.map_some, Option.some.injEq] at ensured
          right
          refine ⟨handle, absent, unused, ?_⟩
          rw [← ensured]
          simp [modifyConn, setQueue, LspConn.ensureQueue, absent]
        · cases ensured
  · left
    exact (Option.some.inj ensured).symm

/-- `lsp_conn_alloc` returns nothing and leaves the first free slot as it was
but for its handles, or returns that slot reset. -/
theorem lspConnAlloc_cases {config : ConnConfig} {answers : AllocAnswers}
    {sock : Option Nat}
    (allocated : w.lspConnAlloc config answers = some (w', sock)) :
    (sock = none ∧ w' = w) ∨
      ∃ i ready, firstFree w.conns = some i ∧
        w.ensureQueue i answers.queue = some ready ∧
        ((sock = none ∧ (w' = ready ∨
            w' = ready.modifyConn i fun conn =>
              conn.ensureEgroup config answers.egroup)) ∨
          (sock = some i ∧ (ready.conns i).rxQueue ≠ none ∧
            w' = ready.modifyConn i fun conn =>
              ({ conn.ensureEgroup config answers.egroup with
                state := .connClosed } : LspConn).reset)) := by
  unfold lspConnAlloc at allocated
  split at allocated
  · simp only [Option.some.injEq, Prod.mk.injEq] at allocated
    exact .inl ⟨allocated.2.symm, allocated.1.symm⟩
  · rename_i i found
    obtain ⟨ready, ensured, result⟩ := Option.map_eq_some_iff.mp allocated
    refine .inr ⟨i, ready, found, ensured, ?_⟩
    simp only at result
    split at result
    · cases result
      exact .inl ⟨rfl, .inl rfl⟩
    · rename_i present
      split at result
      · cases result
        exact .inl ⟨rfl, .inr rfl⟩
      · cases result
        exact .inr ⟨rfl, present, rfl⟩

theorem dropQueue_result {config : ConnConfig} {junk : ConnJunk}
    {conn : LspConn} :
    (conn.dropQueue config junk).2 =
      if config.persistentRxqueue then junk.queueDestroyed
      else lspErrNone := by
  unfold LspConn.dropQueue
  split
  · split <;> rfl
  · rfl

theorem dropHandles_cases {config : ConnConfig} {junk : ConnJunk}
    {conn : LspConn} {result : Option (LspConn × Int)}
    (drops : conn.dropHandles config junk = result) :
    (conn.lacksEgroup config = true ∧ result = none) ∨
      (conn.lacksEgroup config = false ∧ ∃ dropped,
        result = some (dropped, destroyResult config junk)) := by
  have kept : (conn.dropQueue config junk).1.egroup = conn.egroup :=
    LspConn.dropQueue_field (fun _ => rfl) _ _ _
  rw [← drops]
  simp only [LspConn.dropHandles, LspConn.dropEgroup, LspConn.lacksEgroup,
    destroyResult, kept, dropQueue_result]
  cases config.egroupPool with
  | true => exact .inr ⟨rfl, _, rfl⟩
  | false =>
      by_cases absent : conn.egroup = none
      · exact .inl ⟨by simp [absent], by simp [absent]⟩
      · right
        refine ⟨by simp [absent], ?_⟩
        simp only [Bool.false_eq_true, if_false, if_neg absent]
        split
        · exact ⟨_, rfl⟩
        · exact ⟨_, rfl⟩

theorem freeQueue_conns (w : SocketLayer) (config : ConnConfig) (i : Nat) :
    (w.freeQueue config i).conns = w.conns := by
  unfold freeQueue
  split
  · split <;> rfl
  · rfl

theorem freeQueue_ports (w : SocketLayer) (config : ConnConfig) (i : Nat) :
    (w.freeQueue config i).ports = w.ports := by
  unfold freeQueue
  split
  · split <;> rfl
  · rfl

theorem rxqFlushLoop_cases {handle fuel : Nat}
    (ended : w.rxqFlushLoop handle fuel = some w') :
    ∃ buffer rest, w.queues handle = some (buffer :: rest) ∧
      w' = w.setQueue handle (some rest) := by
  induction fuel with
  | zero => cases ended
  | succ fuel induction =>
      unfold rxqFlushLoop at ended
      split at ended
      · cases ended
      · exact induction ended
      · rename_i buffer rest filled
        exact ⟨buffer, rest, filled, (Option.some.inj ended).symm⟩

theorem lspConnClose_beyond {config : ConnConfig} {junk : ConnJunk}
    {fuel : Nat}
    (beyond : ¬(w.conns i).state.code ≤ ConnState.connClosed.code) :
    w.lspConnClose config junk i fuel =
      if ¬w.Linked i then none
      else
        ((w.unlisted i).lspConnRxqFlush i fuel).bind fun flushed =>
          if flushed.2 ≠ lspErrNone then some flushed
          else
            ((flushed.1.conns i).dropHandles config junk).map fun dropped =>
              ((flushed.1.freeQueue config i).setConn i dropped.1,
                dropped.2) := by
  rw [lspConnClose, if_neg beyond]
  rfl

theorem unlisted_rxQueue (w : SocketLayer) (i : Nat) :
    ((w.unlisted i).conns i).rxQueue = (w.conns i).rxQueue := by
  simp [unlisted, modifyConn, setConn]

theorem unlisted_lacksEgroup (w : SocketLayer) (i : Nat)
    (config : ConnConfig) :
    ((w.unlisted i).conns i).lacksEgroup config =
      (w.conns i).lacksEgroup config := by
  simp [unlisted, modifyConn, setConn, LspConn.lacksEgroup]

theorem lspConnClose_of_filled
    (beyond : ¬(w.conns i).state.code ≤ ConnState.connClosed.code)
    (linked : w.Linked i) {config : ConnConfig}
    (grouped : (w.conns i).lacksEgroup config = false)
    {handle buffer : Nat} {rest : List Nat}
    (owned : (w.conns i).rxQueue = some handle)
    (filled : w.queues handle = some (buffer :: rest)) (junk : ConnJunk) :
    ∃ dropped, ((w.unlisted i).conns i).dropHandles config junk =
        some (dropped, destroyResult config junk) ∧
      ∀ fuel, w.lspConnClose config junk i (fuel + 1) =
        some (w.closedWith config i handle rest dropped,
          destroyResult config junk) := by
  have unlisted_filled : (w.unlisted i).queues handle =
      some (buffer :: rest) := filled
  rw [← unlisted_lacksEgroup] at grouped
  rcases dropHandles_cases (@rfl _ (((w.unlisted i).conns i).dropHandles
    config junk)) with ⟨lacks, _⟩ | ⟨_, dropped, drops⟩
  · rw [grouped] at lacks
    cases lacks
  · refine ⟨dropped, drops, ?_⟩
    intro fuel
    have stored : (((w.unlisted i).setQueue handle (some rest)).conns
        i).dropHandles config junk =
          some (dropped, destroyResult config junk) := drops
    rw [lspConnClose_beyond beyond, if_neg (not_not.mpr linked),
      lspConnRxqFlush, unlisted_rxQueue, owned]
    simp only [rxqFlushLoop, unlisted_filled, Option.map_some,
      Option.bind_some, ne_eq, not_true_eq_false, if_false, stored]
    rfl

/-- A connection is closed already, or has no receive queue, or is closed
with the buffer and the event group that it had. -/
theorem lspConnClose_cases {config : ConnConfig} {junk : ConnJunk}
    {fuel : Nat} {rc : Int}
    (closed : w.lspConnClose config junk i fuel = some (w', rc)) :
    ((w.conns i).state.code ≤ ConnState.connClosed.code ∧ w' = w ∧
        rc = lspErrNone) ∨
      (¬(w.conns i).state.code ≤ ConnState.connClosed.code ∧
        w' = w.unlisted i ∧ rc = lspErrInvalid) ∨
      (¬(w.conns i).state.code ≤ ConnState.connClosed.code ∧ w.Linked i ∧
        (w.conns i).lacksEgroup config = false ∧
        ∃ handle buffer rest dropped, (w.conns i).rxQueue = some handle ∧
          w.queues handle = some (buffer :: rest) ∧
          ((w.unlisted i).conns i).dropHandles config junk =
            some (dropped, rc) ∧
          w' = w.closedWith config i handle rest dropped ∧
          rc = destroyResult config junk) := by
  by_cases already : (w.conns i).state.code ≤ ConnState.connClosed.code
  · rw [lspConnClose, if_pos already] at closed
    cases closed
    exact .inl ⟨already, rfl, rfl⟩
  · right
    rw [lspConnClose_beyond already] at closed
    by_cases linked : w.Linked i
    · rw [if_neg (not_not.mpr linked)] at closed
      obtain ⟨⟨flushed, flushRc⟩, flush, result⟩ :=
        Option.bind_eq_some_iff.mp closed
      rw [lspConnRxqFlush, unlisted_rxQueue] at flush
      split at flush
      · cases flush
        cases result
        exact .inl ⟨already, rfl, rfl⟩
      · rename_i handle owned
        obtain ⟨after, looped, same⟩ := Option.map_eq_some_iff.mp flush
        cases same
        obtain ⟨buffer, rest, filled, taken⟩ := rxqFlushLoop_cases looped
        subst taken
        obtain ⟨⟨dropped, dropRc⟩, drops, stored⟩ :=
          Option.map_eq_some_iff.mp result
        cases stored
        have here : ((w.unlisted i).conns i).dropHandles config junk =
            some (dropped, dropRc) := drops
        right
        rcases dropHandles_cases here with
          ⟨_, none⟩ | ⟨grouped, other, same⟩
        · cases none
        · cases same
          rw [unlisted_lacksEgroup] at grouped
          exact ⟨already, linked, grouped, handle, buffer, rest, dropped,
            owned, filled, here, rfl, rfl⟩
    · rw [if_pos linked] at closed
      cases closed

/-- Freeing a connection that is no server and not beyond closed marks it
free or does nothing. -/
theorem lspConnFree_closed {config : ConnConfig} {junk : Nat → ConnJunk}
    {fuel : Nat} {rc : Int}
    (closed : (w.conns i).state.code ≤ ConnState.connClosed.code)
    (noServer : (w.conns i).type ≠ connServer)
    (freed : lspConnFree config junk fuel w i = some (w', rc)) :
    w' = w ∨
      w' = w.modifyConn i fun conn => { conn with state := .connFree } := by
  cases fuel with
  | zero => simp [lspConnFree] at freed
  | succ fuel =>
      have unchanged : ∃ code, (if (w.conns i).state ≠ .connClosed then
          w.lspConnClose config (junk fuel) i fuel
        else some (w, (junk fuel).rc)) = some (w, code) := by
        rw [lspConnClose, if_pos closed]
        split
        · exact ⟨_, rfl⟩
        · exact ⟨_, rfl⟩
      obtain ⟨code, result⟩ := unchanged
      rw [lspConnFree, result] at freed
      simp only [Option.bind_some, if_neg noServer,
        Option.map_some] at freed
      split at freed
      · cases freed
        exact .inl rfl
      · cases freed
        exact .inr rfl

end Specifications

end SocketLayer

end Liblsp
