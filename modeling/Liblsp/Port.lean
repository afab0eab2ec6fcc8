import Liblsp.Conn

/-!
# Ports and sockets

The socket functions of the library on the socket layer.  A socket is the
index of its connection, so the tests for a `NULL` socket are always passed.
-/

namespace Liblsp

open Base

/-- `LSP_PACKET_PORT_MAX`. -/
def lspPacketPortMax : UInt8 := 31

/-- `AF_LSP`, `LSPPROTO_LSP` and the two socket types. -/
def afLsp : Int := 46
def lspProtoLsp : Int := 46
def lspSockStream : Int := 1
def lspSockRaw : Int := 3

/-- `lsp_sockaddr_t`. -/
structure LspSockAddr where
  port : UInt8
  addr : UInt16

namespace SocketLayer

/-- The heads that `lsp_port_init` initialises. -/
def initHeads (links : Links ListNode) : Nat → Links ListNode
  | 0 => links
  | count + 1 => lspListHeadInit (initHeads links count) (.sockets count)

/-- `lsp_port_init`, when the ports are allocated. -/
def lspPortInit (w : SocketLayer) : SocketLayer :=
  { w with
    links := initHeads w.links (lspPacketPortMax.toNat + 2)
    ports := fun _ => .portClosed }

/-- `lsp_conn_init` leaves a cleared pool. -/
def clearedConn : LspConn :=
  { type := 0
    state := .connFree
    attr :=
      { priority := 0, lport := 0, laddr := 0, rport := 0, raddr := 0
        flags := 0 }
    egroup := none
    children := none
    rcvTimeout := 0
    sndTimeout := 0
    sOpt := 0
    rxQueue := none }

/-- `sk->attr.priority < sock->attr.priority` for a cursor `sk`. -/
def lowerPriority (conns : Nat → LspConn) (sock : Nat) : ListNode → Bool
  | .portlist other =>
      (conns other).attr.priority < (conns sock).attr.priority
  | .sockets _ => false
  | .null => false

/-- The body of the loop in `lsp_listen`. -/
def insertByPriority (conns : Nat → LspConn) (sock : Nat)
    (links : Links ListNode) (sk : ListNode) : Links ListNode × Bool :=
  if lowerPriority conns sock sk then
    (lspListInsertBefore links (.portlist sock) sk, true)
  else (links, false)

/-- The part of `lsp_listen` that links the socket to its port. -/
def register (conns : Nat → LspConn) (links : Links ListNode)
    (port sock fuel : Nat) : Option (Links ListNode) :=
  if lspListIsEmpty links (.sockets port) then
    some (lspListAdd links (.portlist sock) (.sockets port))
  else
    (lspListFor id (.sockets port) (insertByPriority conns sock) fuel
      links).map Prod.fst

/-- The stores of `lsp_listen` to the socket, with the queue for the backlog
or `NULL`. -/
def prepareListen (w : SocketLayer) (sock : Nat) (queue : Option Nat) :
    Option (SocketLayer × Option Nat) :=
  let w := w.modifyConn sock fun conn => { conn with type := connServer }
  let w := w.modifyConn sock fun conn =>
    { conn with type := ConnState.connListen.code }
  (w.createQueue queue).map fun (w, handle) =>
    (w.modifyConn sock fun conn => { conn with children := handle }, handle)

/-- `lsp_listen`, given what the creation of the queue yields. -/
def lspListen (w : SocketLayer) (sock : Nat) (queue : Option Nat)
    (fuel : Nat) : Option (SocketLayer × Int) :=
  let port := (w.conns sock).attr.lport
  if port > lspPacketPortMax then some (w, lspErrInvalid)
  else
    (w.prepareListen sock queue).bind fun (w, handle) =>
      if handle = none then some (w, lspErrNomem)
      else
        (register w.conns w.links port.toNat sock fuel).map fun links =>
          ({ w with
            links := links
            ports := Function.update w.ports port.toNat .portOpen },
            lspErrNone)

/-- The state of a port as `lsp_bind` reads it; `beyond` is what lies behind
the last port. -/
def portState (w : SocketLayer) (beyond : PortState) (port : UInt8) :
    PortState :=
  if port ≤ lspPacketPortMax + 1 then w.ports port.toNat else beyond

/-- The test at the end of `lsp_bind`. -/
def bindResult (w : SocketLayer) (beyond : PortState) (sock : Nat) : Int :=
  if w.portState beyond (w.conns sock).attr.lport ≠ .portClosed then
    lspErrPortInUse
  else lspErrNone

def lspBind (w : SocketLayer) (beyond : PortState) (sock : Nat)
    (sockaddr : LspSockAddr) : SocketLayer × Int :=
  if sockaddr.port = lspPortAny then
    let w := w.modifyConn sock fun conn =>
      { conn with attr := { conn.attr with lport := lspPacketPortMax + 1 } }
    (w, w.bindResult beyond sock)
  else if sockaddr.port > lspPacketPortMax then (w, lspErrPortInvalid)
  else (w, w.bindResult beyond sock)

def lspConnect (w : SocketLayer) (sock : Nat) (sockaddr : LspSockAddr) :
    SocketLayer × Int :=
  if sockaddr.port = lspPortAny then
    (w.modifyConn sock fun conn =>
      { conn with
        attr := { conn.attr with
          rport := lspPacketPortMax + 1, raddr := sockaddr.addr } },
      lspErrNone)
  else if sockaddr.port > lspPacketPortMax then (w, lspErrPortInvalid)
  else
    (w.modifyConn sock fun conn =>
      { conn with attr := { conn.attr with raddr := sockaddr.addr } },
      lspErrNone)

/-- `lsp_socket`, with `none` for `NULL`. -/
def lspSocket (w : SocketLayer) (config : ConnConfig)
    (domain type protocol : Int) (answers : AllocAnswers) :
    Option (SocketLayer × Option Nat) :=
  if domain ≠ afLsp then some (w, none)
  else if type ≠ lspSockRaw ∧ type ≠ lspSockStream then some (w, none)
  else if protocol ≠ lspProtoLsp then some (w, none)
  else w.lspConnAlloc config answers

/-- `lsp_closesocket` ignores the result of `lsp_conn_free`. -/
def lspClosesocket (w : SocketLayer) (config : ConnConfig)
    (junk : Nat → ConnJunk) (sock fuel : Nat) : Option SocketLayer :=
  (lspConnFree config junk fuel w sock).map Prod.fst

/-! ## What the functions do -/

section Specification

variable {w w' : SocketLayer} {sock fuel : Nat} {queue : Option Nat}

theorem insertByPriority_keeps {conns : Nat → LspConn}
    {links : Links ListNode} (sk : ListNode)
    (continues : (insertByPriority conns sock links sk).2 = false) :
    (insertByPriority conns sock links sk).1 = links := by
  unfold insertByPriority at continues ⊢
  split at continues
  · cases continues
  · rename_i high
    rw [if_neg high]

/-- `lsp_bind` stores the port number behind the last valid one or nothing. -/
theorem lspBind_cases (w : SocketLayer) (beyond : PortState) (sock : Nat)
    (sockaddr : LspSockAddr) :
    (w.lspBind beyond sock sockaddr).1 = w ∨
      (w.lspBind beyond sock sockaddr).1 = w.modifyConn sock fun conn =>
        { conn with
          attr := { conn.attr with lport := lspPacketPortMax + 1 } } := by
  unfold lspBind
  split
  · exact .inr rfl
  · split
    · exact .inl rfl
    · exact .inl rfl

theorem lspConnect_cases (w : SocketLayer) (sock : Nat)
    (sockaddr : LspSockAddr) :
    (w.lspConnect sock sockaddr).1 = w ∨
      ∃ attr : LspConnAttr, attr.lport = (w.conns sock).attr.lport ∧
        (w.lspConnect sock sockaddr).1 = w.modifyConn sock fun conn =>
          { conn with attr := attr } := by
  unfold lspConnect
  split
  · right
    refine ⟨{ (w.conns sock).attr with
      rport := lspPacketPortMax + 1, raddr := sockaddr.addr }, ?_, ?_⟩
    · rfl
    · rfl
  · split
    · exact .inl rfl
    · right
      refine ⟨{ (w.conns sock).attr with raddr := sockaddr.addr }, ?_, ?_⟩
      · rfl
      · rfl

theorem lspSocket_cases {config : ConnConfig} {domain type protocol : Int}
    {answers : AllocAnswers} {created : Option Nat}
    (called : w.lspSocket config domain type protocol answers =
      some (w', created)) :
    (created = none ∧ w' = w) ∨
      w.lspConnAlloc config answers = some (w', created) := by
  unfold lspSocket at called
  split at called
  · cases called
    exact .inl ⟨rfl, rfl⟩
  · split at called
    · cases called
      exact .inl ⟨rfl, rfl⟩
    · split at called
      · cases called
        exact .inl ⟨rfl, rfl⟩
      · exact .inr called

theorem prepareListen_cases {handle : Option Nat}
    (prepared : w.prepareListen sock queue = some (w', handle)) :
    w'.links = w.links ∧ w'.ports = w.ports ∧
      w'.conns = Function.update w.conns sock
        { w.conns sock with
          type := ConnState.connListen.code
          children := handle } ∧
      ((handle = none ∧ w'.queues = w.queues) ∨
        ∃ new, handle = some new ∧ w.queues new = none ∧
          w'.queues = Function.update w.queues new (some [])) := by
  cases queue with
  | none =>
      simp only [prepareListen, createQueue, Option.map_some,
        Option.some.injEq, Prod.mk.injEq] at prepared
      obtain ⟨rfl, rfl⟩ := prepared
      refine ⟨rfl, rfl, ?_, .inl ⟨rfl, rfl⟩⟩
      simp [modifyConn, setConn]
  | some new =>
      simp only [prepareListen, createQueue] at prepared
      split at prepared
      · rename_i unused
        simp only [Option.map_some, Option.some.injEq,
          Prod.mk.injEq] at prepared
        obtain ⟨rfl, rfl⟩ := prepared
        refine ⟨rfl, rfl, ?_, .inr ⟨new, rfl, unused, rfl⟩⟩
        simp [modifyConn, setConn, setQueue]
      · cases prepared

/-- `lsp_listen` refuses the socket, or stores to it and links it to its port
if there is a queue. -/
theorem lspListen_cases {rc : Int}
    (listened : w.lspListen sock queue fuel = some (w', rc)) :
    ((w.conns sock).attr.lport > lspPacketPortMax ∧ w' = w ∧
        rc = lspErrInvalid) ∨
      (¬(w.conns sock).attr.lport > lspPacketPortMax ∧
        (∃ handle, w'.conns = Function.update w.conns sock
          { w.conns sock with
            type := ConnState.connListen.code
            children := handle }) ∧
        (w'.queues = w.queues ∨ ∃ new, w.queues new = none ∧
          w'.queues = Function.update w.queues new (some [])) ∧
        (w'.links = w.links ∨
          register w'.conns w.links (w.conns sock).attr.lport.toNat sock fuel
            = some w'.links)) := by
  unfold lspListen at listened
  simp only at listened
  split at listened
  · rename_i tooHigh
    cases listened
    exact .inl ⟨tooHigh, rfl, rfl⟩
  · rename_i valid
    obtain ⟨⟨prepared, handle⟩, preparation, result⟩ :=
      Option.bind_eq_some_iff.mp listened
    obtain ⟨links, _, conns, queues⟩ := prepareListen_cases preparation
    have created : prepared.queues = w.queues ∨ ∃ new,
        w.queues new = none ∧
          prepared.queues = Function.update w.queues new (some []) := by
      rcases queues with ⟨_, same⟩ | ⟨new, _, unused, same⟩
      · exact .inl same
      · exact .inr ⟨new, unused, same⟩
    refine .inr ⟨valid, ?_⟩
    simp only at result
    split at result
    · cases result
      exact ⟨⟨handle, conns⟩, created, .inl links⟩
    · obtain ⟨linked, registered, same⟩ := Option.map_eq_some_iff.mp result
      cases same
      rw [links] at registered
      exact ⟨⟨handle, conns⟩, created, .inr registered⟩

end Specification

end SocketLayer

end Liblsp
