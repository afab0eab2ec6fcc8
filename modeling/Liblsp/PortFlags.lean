import Liblsp.PortLists

/-!
# The open flag of a port

`lsp_listen` sets the flag of a port and links the socket, `lsp_conn_close`
unlinks it and leaves the flag.  The two agree in every state of a program
because no socket gets past the test of `lsp_listen`.
-/

namespace Liblsp

open Base

namespace SocketLayer

/-- The list of a port has at least one node. -/
def HasListener (w : SocketLayer) (port : Nat) : Prop :=
  w.links.next (.sockets port) ≠ .sockets port

/-- The entry of `ports` that `lsp_bind` reads, `none` if it refuses the port
before. -/
def lspBindReads (w : SocketLayer) (sock : Nat) (sockaddr : LspSockAddr) :
    Option Nat :=
  if sockaddr.port = lspPortAny then some (lspPacketPortMax.toNat + 1)
  else if sockaddr.port > lspPacketPortMax then none
  else some (w.conns sock).attr.lport.toNat

/-! ## Calls that leave the ports alone -/

section Frames

variable {w w' : SocketLayer}

theorem lspBind_ports (w : SocketLayer) (beyond : PortState) (sock : Nat)
    (sockaddr : LspSockAddr) :
    (w.lspBind beyond sock sockaddr).1.ports = w.ports := by
  rcases lspBind_cases w beyond sock sockaddr with same | same
  · rw [same]
  · rw [same]
    rfl

theorem lspConnect_ports (w : SocketLayer) (sock : Nat)
    (sockaddr : LspSockAddr) :
    (w.lspConnect sock sockaddr).1.ports = w.ports := by
  rcases lspConnect_cases w sock sockaddr with same | ⟨attr, _, same⟩
  · rw [same]
  · rw [same]
    rfl

theorem lspConnAlloc_ports {config : ConnConfig} {answers : AllocAnswers}
    {sock : Option Nat}
    (allocated : w.lspConnAlloc config answers = some (w', sock)) :
    w'.ports = w.ports := by
  rcases lspConnAlloc_cases allocated with
    ⟨_, same⟩ | ⟨i, ready, _, ensured, result⟩
  · rw [same]
  · have before : ready.ports = w.ports := by
      rcases ensureQueue_cases ensured with same | ⟨handle, _, _, same⟩
      · rw [same]
      · rw [same]
        rfl
    rcases result with ⟨_, same | same⟩ | ⟨_, _, same⟩
    · rw [same]
      exact before
    · rw [same]
      exact before
    · rw [same]
      exact before

theorem lspSocket_ports {config : ConnConfig} {domain type protocol : Int}
    {answers : AllocAnswers} {sock : Option Nat}
    (created : w.lspSocket config domain type protocol answers =
      some (w', sock)) : w'.ports = w.ports := by
  rcases lspSocket_cases created with ⟨_, same⟩ | allocated
  · rw [same]
  · exact lspConnAlloc_ports allocated

end Frames

theorem lspBind_of_closed {w : SocketLayer} {sock port : Nat}
    {sockaddr : LspSockAddr}
    (reads : w.lspBindReads sock sockaddr = some port)
    (within : port < portCount) (closed : w.ports port = .portClosed)
    (beyond : PortState) :
    (w.lspBind beyond sock sockaddr).2 = lspErrNone := by
  unfold lspBindReads at reads
  split at reads
  · rename_i any
    cases reads
    have lport : ((w.modifyConn sock fun conn =>
        { conn with attr := { conn.attr with
          lport := lspPacketPortMax + 1 } }).conns sock).attr.lport =
            lspPacketPortMax + 1 := by
      simp [modifyConn, setConn]
    simp only [lspBind, if_pos any, bindResult, lport, portState]
    change (if w.ports 32 ≠ .portClosed then _ else _) = _
    change w.ports 32 = .portClosed at closed
    simp [closed]
  · rename_i notAny
    split at reads
    · cases reads
    · rename_i small
      cases reads
      have inside : (w.conns sock).attr.lport ≤ lspPacketPortMax + 1 :=
        Nat.lt_succ_iff.mp within
      simp only [lspBind, if_neg notAny, if_neg small, bindResult, portState,
        if_pos inside, closed]
      rfl

end SocketLayer

namespace SocketUse

open SocketLayer

theorem step_ports {config : ConnConfig} {s s' : SocketUse}
    {call : SocketCall} (unlisted : NothingListed s)
    (stepped : s.step config call = some s') :
    s'.layer.ports = s.layer.ports := by
  cases call with
  | socket domain type protocol answers =>
      obtain ⟨created, called, _⟩ := step_socket stepped
      exact lspSocket_ports called
  | bind sock sockaddr beyond =>
      obtain ⟨_, layer, _⟩ := step_bind stepped
      rw [layer]
      exact lspBind_ports _ _ _ _
  | listen sock queue fuel =>
      obtain ⟨member, ⟨rc, listened⟩, _⟩ := step_listen stepped
      rw [Unlisted.lspListen unlisted member] at listened
      have layer : s.layer = s'.layer :=
        congrArg Prod.fst (Option.some.inj listened)
      rw [← layer]
  | connect sock sockaddr =>
      obtain ⟨_, layer, _⟩ := step_connect stepped
      rw [layer]
      exact lspConnect_ports _ _ _
  | close sock junk fuel =>
      obtain ⟨_, ⟨rc, freed⟩, _⟩ := step_close stepped
      rcases lspConnFree_closed (unlisted.states sock) (unlisted.types sock)
        freed with kept | kept
      · rw [kept]
      · rw [kept]
        rfl

/-- Nothing is listed and every port is closed. -/
structure NothingOpen (s : SocketUse) : Prop where
  unlisted : NothingListed s
  closed : ∀ port, s.layer.ports port = .portClosed

variable {config : ConnConfig} {links : Links ListNode}
  {queues : Nat → Option (List Nat)} {calls : List SocketCall}
  {s s' : SocketUse}

theorem NothingOpen.run (start : NothingOpen s)
    (run : Run (step config) Anywhere s calls s') : NothingOpen s' := by
  apply run.invariant start
  intro state call next before _ stepped
  refine ⟨before.unlisted.step stepped, ?_⟩
  rw [step_ports before.unlisted stepped]
  exact before.closed

theorem nothingOpen_of_run
    (run : Run (step config) Anywhere (initial links queues) calls s) :
    NothingOpen s := by
  have start : NothingOpen (initial links queues) :=
    ⟨unlisted_initial links queues, fun _ => rfl⟩
  exact start.run run

theorem NothingOpen.no_listener (nothing : NothingOpen s) {port : Nat}
    (below : port < portCount) : ¬s.layer.HasListener port := by
  intro listener
  apply listener
  exact (nothing.unlisted.heads port below).next_head

/-- The port that an address names, the last one for `LSP_PORT_ANY`. -/
def Names (sockaddr : LspSockAddr) (port : Nat) : Prop :=
  sockaddr.port.toNat = port ∨
    (sockaddr.port = lspPortAny ∧ port = lspPacketPortMax.toNat + 1)

/-- In every state of a program a port is marked open exactly if its list has
a node.  A bind to a port that has lost its last listener does not find the
port in use, nor does any bind that reads an entry without a listener. -/
theorem portOpen_iff_listener_of_run
    (run : Run (step config) Anywhere (initial links queues) calls s) :
    (∀ port, port < portCount →
        (s.layer.ports port = .portOpen ↔ s.layer.HasListener port)) ∧
      (∀ later s', Run (step config) Anywhere s later s' →
        ∀ port, port < portCount → s.layer.HasListener port →
          ¬s'.layer.HasListener port →
          ∀ sock sockaddr beyond, Names sockaddr port →
            (s'.layer.lspBind beyond sock sockaddr).2 ≠ lspErrPortInUse) ∧
      ∀ sock sockaddr beyond port, port < portCount →
        s.layer.lspBindReads sock sockaddr = some port →
        ¬s.layer.HasListener port →
        (s.layer.lspBind beyond sock sockaddr).2 ≠ lspErrPortInUse := by
  have nothing := nothingOpen_of_run run
  refine ⟨?_, ?_, ?_⟩
  · intro port below
    rw [nothing.closed]
    constructor
    · intro marked
      cases marked
    · intro listener
      exact absurd listener (nothing.no_listener below)
  · intro later s' _ port below listener
    exact absurd listener (nothing.no_listener below)
  · intro sock sockaddr beyond port below reads _
    rw [lspBind_of_closed reads below (nothing.closed port)]
    decide

section Examples

theorem portOpen_iff_listener_of_bindListenClose :
    ∃ s, Run (step ⟨false, false⟩) Anywhere
        (initial ⟨id, id⟩ fun _ => none) bindListenClose s ∧
      s.known = [0, 0] ∧
      (s.layer.ports 5 = .portOpen ↔ s.layer.HasListener 5) := by
  have executed :
      (execute (step ⟨false, false⟩) Anywhere
        (initial ⟨id, id⟩ fun _ => none) bindListenClose).map
          SocketUse.known = some [0, 0] := by
    decide
  obtain ⟨s, run, known⟩ := exists_run_of_execute executed
  exact ⟨s, run, known, (portOpen_iff_listener_of_run run).1 5 (by decide)⟩

end Examples

end SocketUse

end Liblsp
