import Liblsp.Base.Rings
import Liblsp.KnownSockets
import Liblsp.Listen

/-!
# The port lists in the course of a program

A program can store a port number and a priority in a socket before it
listens.  No call takes a socket off a port list, so what the lists hold is
decided by the calls of `lsp_listen` that succeeded and by the priorities at
the time of each.
-/

namespace Liblsp

open Base

namespace SocketLayer

/-! ## Where a socket is linked -/

section Registration

variable {conns : Nat → LspConn} {links links' : Links ListNode}
  {port sock fuel : Nat} {members : List Nat}

private theorem loop_inserts
    (ring : links.IsRing (.sockets port) (members.map .portlist))
    (long : ¬members.length ≤ 1) :
    (registerListener (priority conns) members sock = members ∧
        (foldUntil (insertByPriority conns sock) links
          (members.map ListNode.portlist)).1 = links) ∨
      ∃ before after, members = before ++ after ∧
        registerListener (priority conns) members sock =
          before ++ sock :: after ∧
        (foldUntil (insertByPriority conns sock) links
            (members.map ListNode.portlist)).1 =
          links.insertBetween (.portlist sock)
            ((before.map ListNode.portlist).getLastD (.sockets port))
            ((after.map ListNode.portlist).headD (.sockets port)) := by
  rw [foldUntil_insertByPriority, registerListener, if_neg long]
  rcases insertListener_cases (priority conns) sock members with
    ⟨before, other, after, shape, high, lower, result⟩ | ⟨high, result⟩
  · have hit : members.find? (fun other =>
        decide (priority conns other < priority conns sock)) =
          some other := by
      rw [List.find?_eq_some_iff_append]
      refine ⟨by simpa using lower, before, after, shape, ?_⟩
      intro earlier member
      simpa using high earlier member
    rw [hit]
    refine .inr ⟨before, other :: after, shape, result, ?_⟩
    subst members
    rw [List.map_append, List.map_cons] at ring
    simp [lspListInsertBefore, _lspListAdd, Links.insertBetween,
      ring.prev_member]
  · have miss : members.find? (fun other =>
        decide (priority conns other < priority conns sock)) = none := by
      rw [List.find?_eq_none]
      intro other member
      simpa using high other member
    rw [miss]
    exact .inl ⟨result, rfl⟩

/-- Linking a socket to its port puts it in between two neighbours in the
ring, or leaves it out. -/
theorem register_inserts
    (ring : links.IsRing (.sockets port) (members.map .portlist))
    (registered : register conns links port sock fuel = some links') :
    (registerListener (priority conns) members sock = members ∧
        links' = links) ∨
      ∃ before after, members = before ++ after ∧
        registerListener (priority conns) members sock =
          before ++ sock :: after ∧
        links' = links.insertBetween (.portlist sock)
          ((before.map ListNode.portlist).getLastD (.sockets port))
          ((after.map ListNode.portlist).headD (.sockets port)) := by
  have emptyTest := lspListIsEmpty_iff ring
  rw [visible_eq_nil_iff, List.length_map] at emptyTest
  by_cases short : members.length ≤ 1
  · rw [register, if_pos (emptyTest.mpr short)] at registered
    cases registered
    refine .inr ⟨[], members, rfl, if_pos short, ?_⟩
    rw [← ring.next_head]
    rfl
  · have several : (members.map ListNode.portlist).length ≠ 1 := by
      rw [List.length_map]
      omega
    have notEmpty : lspListIsEmpty links (.sockets port) = false :=
      Bool.eq_false_iff.mpr fun empty => short (emptyTest.mp empty)
    have loop := (@lspListFor_returns ListNode (Links ListNode) _
      (.sockets port) (members.map .portlist) id
      (insertByPriority conns sock) links ring
      (fun _ _ => insertByPriority_keeps _)).map Prod.fst
    have whole : register conns links port sock = fun fuel =>
        (lspListFor id (.sockets port) (insertByPriority conns sock) fuel
          links).map Prod.fst := by
      funext fuel
      simp [register, notEmpty]
    rw [visible_of_length_ne_one several, ← whole] at loop
    rw [loop.eq_of_some (fun _ => register_stable) registered]
    exact loop_inserts ring short

theorem lspListen_effect {w w' : SocketLayer} {queue : Option Nat} {rc : Int}
    (called : w.lspListen sock queue fuel = some (w', rc)) :
    (rc ≠ lspErrNone ∧ w'.links = w.links ∧ w'.ports = w.ports) ∨
      (rc = lspErrNone ∧ (w.conns sock).attr.lport ≤ lspPacketPortMax ∧
        (∃ conns, priority conns = priority w.conns ∧
          register conns w.links (w.conns sock).attr.lport.toNat sock fuel =
            some w'.links) ∧
        w'.ports = Function.update w.ports
          (w.conns sock).attr.lport.toNat .portOpen) := by
  unfold lspListen at called
  simp only at called
  split at called
  · cases called
    exact .inl ⟨by decide, rfl, rfl⟩
  · rename_i valid
    obtain ⟨⟨prepared, handle⟩, preparation, result⟩ :=
      Option.bind_eq_some_iff.mp called
    obtain ⟨links, ports, _⟩ := prepareListen_cases preparation
    have attrs := (prepareListen_frame preparation).2
    simp only at result
    split at result
    · cases result
      exact .inl ⟨by decide, links, ports⟩
    · obtain ⟨linked, registered, same⟩ := Option.map_eq_some_iff.mp result
      cases same
      rw [links] at registered
      exact .inr ⟨rfl, UInt8.not_lt.mp valid,
        ⟨prepared.conns, priority_congr attrs, registered⟩,
        congrArg (Function.update · _ _) ports⟩

end Registration

end SocketLayer

/-! ## Programs -/

/-- A call of `lsp_listen` that succeeded: its port, its socket, and the
priorities of all sockets at that time. -/
structure Listening where
  port : Nat
  sock : Nat
  prio : Nat → Nat

/-- The list of a port after these calls. -/
def portListeners (listened : List Listening) (port : Nat) : List Nat :=
  listened.foldl (fun members call =>
    if call.port = port then registerListener call.prio members call.sock
    else members) []

theorem portListeners_snoc (listened : List Listening) (call : Listening)
    (port : Nat) :
    portListeners (listened ++ [call]) port =
      if call.port = port then
        registerListener call.prio (portListeners listened port) call.sock
      else portListeners listened port := by
  rw [portListeners, List.foldl_append]
  rfl

/-- The assignment `sock->attr.priority = priority`. -/
def LspConn.storePriority (conn : LspConn) (priority : UInt8) : LspConn :=
  { conn with attr := { conn.attr with priority := priority } }

inductive PortUseCall where
  | call (call : EndpointCall)
  | storePriority (sock : Nat) (priority : UInt8)

/-- The socket that listens. -/
def PortUseCall.listener : PortUseCall → Option Nat
  | .call (.call (.listen sock _ _)) => some sock
  | _ => none

/-- A program that uses sockets, with a record of the calls of `lsp_listen`
in it that succeeded. -/
structure PortUse where
  endpoints : Endpoints
  listened : List Listening

namespace SocketLayer

/-- The record of a call. -/
def listenings (w : SocketLayer) : EndpointCall → List Listening
  | .call (.listen sock queue fuel) =>
      if (w.lspListen sock queue fuel).map Prod.snd = some lspErrNone then
        [⟨(w.conns sock).attr.lport.toNat, sock, priority w.conns⟩]
      else []
  | _ => []

/-- The heads of the port lists. -/
def portHeads : List ListNode := (List.range portCount).map .sockets

/-- The cells behind each head. -/
def portCells (members : Nat → List Nat) : ListNode → List ListNode
  | .sockets port => (members port).map .portlist
  | .portlist _ => []
  | .null => []

/-- The port lists are circular and disjoint and hold the sockets that the
calls so far have put there, and a port is open just if one of them was for
it. -/
structure PortsHold (w : SocketLayer) (listened : List Listening) : Prop where
  rings : w.links.AreRings portHeads (portCells (portListeners listened))
  opened : ∀ port, w.ports port = .portOpen ↔
    ∃ call ∈ listened, call.port = port

/-- The socket is in no port list. -/
def InNoList (w : SocketLayer) (sock : Nat) : Prop :=
  ∀ port, port < portCount →
    ¬w.links.Reaches (.sockets port) (.portlist sock)

section Calls

variable {w w' : SocketLayer} {listened : List Listening}
  {entered received : List Nat} {sock : Nat}

theorem mem_portHeads {port : Nat} :
    .sockets port ∈ portHeads ↔ port < portCount := by
  simp [portHeads]

theorem PortsHold.same (before : PortsHold w listened)
    (links : w'.links = w.links) (ports : w'.ports = w.ports) :
    PortsHold w' listened := by
  constructor
  · rw [links]
    exact before.rings
  · rw [ports]
    exact before.opened

theorem InNoList.free (unlinked : w.InNoList sock)
    (rings : w.links.AreRings portHeads (portCells (portListeners listened))) :
    Links.Free portHeads (portCells (portListeners listened))
      (.portlist sock) := by
  intro head member inside
  obtain ⟨port, below, isHead⟩ := List.mem_map.mp member
  subst isHead
  rcases List.mem_cons.mp inside with isHead | inList
  · cases isHead
  · exact unlinked port (List.mem_range.mp below)
      ((rings.ring _ member).reaches inList)

/-- A successful call registers its socket on its port and leaves the other
ports alone. -/
theorem PortsHold.lspListen (before : PortsHold w listened)
    (unlinked : w.InNoList sock) {queue : Option Nat} {fuel : Nat} {rc : Int}
    (called : w.lspListen sock queue fuel = some (w', rc)) :
    PortsHold w' (listened ++ w.listenings (.call (.listen sock queue fuel)))
      := by
  have record : w.listenings (.call (.listen sock queue fuel)) =
      if rc = lspErrNone then
        [⟨(w.conns sock).attr.lport.toNat, sock, priority w.conns⟩]
      else [] := by
    simp [listenings, called]
  rw [record]
  rcases lspListen_effect called with
    ⟨failed, links, ports⟩ | ⟨success, valid, ⟨conns, prio, linked⟩, ports⟩
  · rw [if_neg failed, List.append_nil]
    exact before.same links ports
  · rw [if_pos success]
    generalize isPort : (w.conns sock).attr.lport.toNat = port at *
    have below : port < portCount := by
      have small := UInt8.le_iff_toNat_le.mp valid
      rw [isPort] at small
      exact Nat.lt_succ_of_lt (Nat.lt_succ_of_le small)
    have member := mem_portHeads.mpr below
    have ring : w.links.IsRing (.sockets port)
        ((portListeners listened port).map .portlist) :=
      before.rings.ring _ member
    have own : portListeners
          (listened ++ [⟨port, sock, priority w.conns⟩]) port =
        registerListener (priority conns) (portListeners listened port)
          sock := by
      rw [portListeners_snoc, if_pos rfl, prio]
    have kept : ∀ other ∈ portHeads, other ≠ .sockets port →
        portCells (portListeners
            (listened ++ [⟨port, sock, priority w.conns⟩])) other =
          portCells (portListeners listened) other := by
      intro other _ different
      cases other with
      | portlist other => rfl
      | null => rfl
      | sockets other =>
          have apart : port ≠ other := fun same => different (by rw [same])
          simp only [portCells, portListeners_snoc, if_neg apart]
    constructor
    · rcases register_inserts ring linked with
        ⟨omitted, same⟩ | ⟨front, back, split, placed, inserted⟩
      · have unchanged : portCells (portListeners
            (listened ++ [⟨port, sock, priority w.conns⟩])) =
            portCells (portListeners listened) := by
          funext other
          cases other with
          | portlist other => rfl
          | null => rfl
          | sockets other =>
              by_cases here : other = port
              · rw [here]
                simp only [portCells, own, omitted]
              · simp only [portCells, portListeners_snoc,
                  if_neg (Ne.symm here)]
        rw [unchanged, same]
        exact before.rings
      · rw [inserted]
        have cells : portCells (portListeners listened) (.sockets port) =
            front.map .portlist ++ back.map .portlist := by
          rw [portCells, split, List.map_append]
        have changed : portCells (portListeners
            (listened ++ [⟨port, sock, priority w.conns⟩]))
            (.sockets port) =
            front.map .portlist ++ .portlist sock :: back.map .portlist := by
          rw [portCells, own, placed, List.map_append, List.map_cons]
        exact (before.rings.insertBetween member cells
          (unlinked.free before.rings) changed kept).rings
    · intro other
      rw [ports]
      by_cases here : other = port
      · subst here
        simp
      · rw [Function.update_of_ne here, before.opened]
        have apart : port ≠ other := Ne.symm here
        simp [apart]

theorem PortsHold.modifyConn (before : PortsHold w listened)
    (change : LspConn → LspConn) :
    PortsHold (w.modifyConn sock change) listened :=
  before.same rfl rfl

theorem PortsHold.lspConnAlloc (before : PortsHold w listened)
    {config : ConnConfig} {answers : AllocAnswers} {created : Option Nat}
    (allocated : w.lspConnAlloc config answers = some (w', created)) :
    PortsHold w' listened := by
  rcases lspConnAlloc_cases allocated with
    ⟨_, same⟩ | ⟨i, ready, _, ensured, result⟩
  · rw [same]
    exact before
  · have prepared : PortsHold ready listened := by
      rcases ensureQueue_cases ensured with same | ⟨new, _, _, same⟩
      · rw [same]
        exact before
      · rw [same]
        exact before.same rfl rfl
    rcases result with ⟨_, same | same⟩ | ⟨_, _, same⟩
    · rw [same]
      exact prepared
    · rw [same]
      exact prepared.modifyConn _
    · rw [same]
      exact prepared.modifyConn _

theorem PortsHold.lspBind (before : PortsHold w listened)
    (beyond : PortState) (sockaddr : LspSockAddr) :
    PortsHold (w.lspBind beyond sock sockaddr).1 listened := by
  rcases lspBind_cases w beyond sock sockaddr with same | same
  · rw [same]
    exact before
  · rw [same]
    exact before.modifyConn _

theorem PortsHold.lspConnect (before : PortsHold w listened)
    (sockaddr : LspSockAddr) :
    PortsHold (w.lspConnect sock sockaddr).1 listened := by
  rcases lspConnect_cases w sock sockaddr with same | ⟨attr, _, same⟩
  · rw [same]
    exact before
  · rw [same]
    exact before.modifyConn _

theorem PortsHold.lspConnFree (before : PortsHold w listened)
    (remains : Remains w entered received) {config : ConnConfig}
    {junk : Nat → ConnJunk} {fuel : Nat} {rc : Int}
    (freed : lspConnFree config junk fuel w sock = some (w', rc)) :
    PortsHold w' listened := by
  rcases lspConnFree_closed (remains.states sock) (remains.noServer sock)
    freed with same | same
  · rw [same]
    exact before
  · rw [same]
    exact before.modifyConn _

theorem PortsHold.lspAccept (before : PortsHold w listened)
    (remains : Remains w entered received) {rc : Int} {result : AcceptResult}
    (accepted : w.lspAccept sock rc = some (w', result)) :
    PortsHold w' listened := by
  rw [lspAccept_of_noServer (remains.noServer sock)] at accepted
  cases accepted
  exact before

theorem PortsHold.lspConnRxqPush (before : PortsHold w listened)
    {connQueuelen buffer : Nat} {wait : WaitResult} {rc : Int}
    (pushed : w.lspConnRxqPush connQueuelen sock buffer wait =
      some (w', rc)) :
    PortsHold w' listened := by
  obtain ⟨_, _, _, _, ⟨_, _, _, same⟩ | ⟨_, same⟩⟩ :=
    lspConnRxqPush_cases pushed
  · rw [same]
    exact before.same rfl rfl
  · rw [same]
    exact before

theorem portsHold_initial (links : Links ListNode) :
    PortsHold (Endpoints.initial links).layer [] := by
  constructor
  · constructor
    · intro head member
      obtain ⟨port, below, isHead⟩ := List.mem_map.mp member
      subst isHead
      exact initHeads_ring links (List.mem_range.mp below)
    · intro head member other otherMember different node inside
      obtain ⟨port, _, isHead⟩ := List.mem_map.mp member
      obtain ⟨otherPort, _, isOther⟩ := List.mem_map.mp otherMember
      subst isHead isOther
      change node ∈ [ListNode.sockets port] at inside
      change node ∉ [ListNode.sockets otherPort]
      rw [List.mem_singleton] at inside ⊢
      rw [inside]
      exact different
  · intro port
    constructor
    · intro opened
      cases opened
    · rintro ⟨call, member, _⟩
      cases member

end Calls

end SocketLayer

namespace PortUse

open SocketLayer

def layer (s : PortUse) : SocketLayer := s.endpoints.layer

def step (config : EndpointConfig) (s : PortUse) :
    PortUseCall → Option PortUse
  | .call call =>
      (s.endpoints.step config call).map fun endpoints =>
        { endpoints := endpoints
          listened := s.listened ++ s.layer.listenings call }
  | .storePriority sock priority =>
      if sock ∈ s.endpoints.use.known then
        some { s with
          endpoints := { s.endpoints with
            use := { s.endpoints.use with
              layer := s.layer.modifyConn sock (·.storePriority priority) } } }
      else none

def initial (links : Links ListNode) : PortUse :=
  { endpoints := Endpoints.initial links, listened := [] }

/-- A socket that listens is in no port list. -/
def ListensUnlinked (s : PortUse) (call : PortUseCall) : Prop :=
  ∀ sock ∈ call.listener, s.layer.InNoList sock

/-- What earlier calls leave in the slots, and what the port lists hold. -/
structure Holds (s : PortUse) : Prop where
  remains : Remains s.layer s.endpoints.entered s.endpoints.received
  ports : PortsHold s.layer s.listened

variable {config : EndpointConfig} {s s' : PortUse}

theorem step_call {call : EndpointCall}
    (stepped : s.step config (.call call) = some s') :
    s.endpoints.step config call = some s'.endpoints ∧
      s'.listened = s.listened ++ s.layer.listenings call := by
  obtain ⟨endpoints, called, same⟩ := Option.map_eq_some_iff.mp stepped
  cases same
  exact ⟨called, rfl⟩

theorem step_storePriority {sock : Nat} {priority : UInt8}
    (stepped : s.step config (.storePriority sock priority) = some s') :
    s'.layer = s.layer.modifyConn sock (·.storePriority priority) ∧
      s'.endpoints.entered = s.endpoints.entered ∧
      s'.endpoints.received = s.endpoints.received ∧
      s'.listened = s.listened := by
  simp only [step] at stepped
  split at stepped
  · cases stepped
    exact ⟨rfl, rfl, rfl, rfl⟩
  · cases stepped

private theorem portsHold_call {socketCall : SocketCall}
    (before : s.Holds)
    (unlinked : s.ListensUnlinked (.call (.call socketCall)))
    {use : SocketUse}
    (stepped : s.endpoints.use.step config.conn socketCall = some use) :
    PortsHold use.layer
      (s.listened ++ s.layer.listenings (.call socketCall)) := by
  cases socketCall with
  | socket domain type protocol answers =>
      obtain ⟨created, called, _⟩ := SocketUse.step_socket stepped
      simp only [listenings, List.append_nil]
      rcases lspSocket_cases called with ⟨_, same⟩ | allocated
      · rw [same]
        exact before.ports
      · exact before.ports.lspConnAlloc allocated
  | bind sock sockaddr beyond =>
      obtain ⟨_, layer, _⟩ := SocketUse.step_bind stepped
      simp only [listenings, List.append_nil]
      rw [layer]
      exact before.ports.lspBind beyond sockaddr
  | listen sock queue fuel =>
      obtain ⟨_, ⟨rc, called⟩, _⟩ := SocketUse.step_listen stepped
      exact before.ports.lspListen (unlinked sock rfl) called
  | connect sock sockaddr =>
      obtain ⟨_, layer, _⟩ := SocketUse.step_connect stepped
      simp only [listenings, List.append_nil]
      rw [layer]
      exact before.ports.lspConnect sockaddr
  | close sock junk fuel =>
      obtain ⟨_, ⟨rc, freed⟩, _⟩ := SocketUse.step_close stepped
      simp only [listenings, List.append_nil]
      exact before.ports.lspConnFree before.remains freed

theorem Holds.step {call : PortUseCall} (before : s.Holds)
    (unlinked : s.ListensUnlinked call)
    (stepped : s.step config call = some s') : s'.Holds := by
  cases call with
  | storePriority sock priority =>
      obtain ⟨layer, entered, received, listened⟩ :=
        step_storePriority stepped
      constructor
      · rw [layer, entered, received]
        apply before.remains.modifyConn
        · exact before.remains.states sock
        · rfl
        · rfl
      · rw [layer, listened]
        exact before.ports.modifyConn _
  | call call =>
      obtain ⟨stepped, listened⟩ := step_call stepped
      refine ⟨Endpoints.remains_step before.remains stepped, ?_⟩
      rw [listened]
      cases call with
      | call socketCall =>
          obtain ⟨called, _⟩ := Endpoints.step_call stepped
          exact portsHold_call before unlinked called
      | accept sock rc =>
          obtain ⟨_, ⟨result, accepted⟩, _⟩ := Endpoints.step_accept stepped
          simp only [listenings, List.append_nil]
          exact before.ports.lspAccept before.remains accepted
      | rxqPush sock buffer wait =>
          obtain ⟨_, rc, pushed, _⟩ := Endpoints.step_rxqPush stepped
          simp only [listenings, List.append_nil]
          exact before.ports.lspConnRxqPush pushed
      | storeLport sock port =>
          obtain ⟨_, same, _⟩ := Endpoints.step_storeLport stepped
          simp only [listenings, List.append_nil]
          change PortsHold s'.endpoints.layer s.listened
          rw [same]
          exact before.ports.modifyConn _

theorem holds_initial (links : Links ListNode) : (initial links).Holds :=
  ⟨Endpoints.remains_initial links, portsHold_initial links⟩

theorem holds_of_run {links : Links ListNode} {calls : List PortUseCall}
    (run : Run (step config) ListensUnlinked (initial links) calls s) :
    s.Holds := by
  apply run.invariant
  · exact holds_initial links
  · intro state call next before unlinked stepped
    exact before.step unlinked stepped

/-- In every run of a program whose sockets listen while they are in no port
list, each port list holds what the successful calls of `lsp_listen` on its
port registered, whatever was closed and allocated again in between. -/
theorem portsHold_of_run {links : Links ListNode} {calls : List PortUseCall}
    (run : Run (step config) ListensUnlinked (initial links) calls s) :
    PortsHold s.layer s.listened :=
  (holds_of_run run).ports

/-! ## Slots that listen once -/

/-- No socket of the slot has listened before. -/
def ListensFresh (s : PortUse) (call : PortUseCall) : Prop :=
  ∀ sock ∈ call.listener, sock ∉ s.endpoints.entered

instance (s : PortUse) (call : PortUseCall) :
    Decidable (s.ListensFresh call) :=
  inferInstanceAs (Decidable (∀ sock ∈ call.listener, _))

/-- A slot that has not listened is in no port list. -/
theorem Holds.inNoList (holds : s.Holds) {sock : Nat}
    (fresh : sock ∉ s.endpoints.entered) : s.layer.InNoList sock := by
  intro port below reached
  obtain ⟨linked, within, enclosed⟩ := holds.remains.cells
  have inside : Linkable linked (.sockets port) := below
  exact fresh (within (enclosed.of_reaches inside reached))

theorem unlinked_of_fresh {rest : PortUse → PortUseCall → Prop}
    {links : Links ListNode} {calls : List PortUseCall}
    (run : Run (step config)
      (fun s call => s.ListensFresh call ∧ rest s call) (initial links)
      calls s) :
    Run (step config) (fun s call => s.ListensUnlinked call ∧ rest s call)
      (initial links) calls s := by
  have unlinked : ∀ (state : PortUse) call, state.Holds →
      state.ListensFresh call → state.ListensUnlinked call :=
    fun _ _ holds fresh sock listens => holds.inNoList (fresh sock listens)
  apply @Run.weaken _ _ _ _ _ _ Holds ?_ ?_ ?_ _ _ run
  · exact holds_initial links
  · rintro state call next holds ⟨fresh, _⟩ stepped
    exact holds.step (unlinked state call holds fresh) stepped
  · rintro state call holds ⟨fresh, others⟩
    exact ⟨unlinked state call holds fresh, others⟩

section Examples

/-- A program gets three sockets and stores port 5 in each. -/
def threeSockets : List PortUseCall :=
  [.call (.call (.socket afLsp lspSockRaw lspProtoLsp ⟨some 0, some 0⟩)),
    .call (.call (.socket afLsp lspSockRaw lspProtoLsp ⟨some 1, some 1⟩)),
    .call (.call (.socket afLsp lspSockRaw lspProtoLsp ⟨some 2, some 2⟩)),
    .call (.storeLport 0 5), .call (.storeLport 1 5),
    .call (.storeLport 2 5)]

/-- Two sockets listen, one of them is closed, and a third one listens. -/
def thirdListens : List PortUseCall :=
  [.call (.call (.listen 0 (some 3) 4)), .call (.call (.listen 1 (some 4) 4)),
    .call (.call (.close 0 (fun _ => ⟨0, 0, 0⟩) 3)),
    .call (.call (.listen 2 (some 5) 4))]

/-- With a higher priority the third one is registered, in front of the one
that was closed. -/
theorem portsHold_of_thirdListens :
    ∃ s, Run (step ⟨⟨false, false⟩, 4⟩) ListensUnlinked (initial ⟨id, id⟩)
        (threeSockets ++ .storePriority 2 6 :: thirdListens) s ∧
      portListeners s.listened 5 = [2, 1, 0] ∧
      (s.layer.conns 0).state = .connFree ∧
      PortsHold s.layer s.listened := by
  have executed : (execute (step ⟨⟨false, false⟩, 4⟩)
      (fun s call => s.ListensFresh call ∧ Anywhere s call)
      (initial ⟨id, id⟩)
      (threeSockets ++ .storePriority 2 6 :: thirdListens)).map (fun s =>
        (portListeners s.listened 5, (s.layer.conns 0).state)) =
        some ([2, 1, 0], .connFree) := by
    decide +kernel
  obtain ⟨s, fresh, view⟩ := exists_run_of_execute executed
  simp only [Prod.mk.injEq] at view
  have run : Run (step ⟨⟨false, false⟩, 4⟩) ListensUnlinked
      (initial ⟨id, id⟩) _ s :=
    (Run.guard_iff fun _ _ _ _ => and_iff_left trivial).mp
      (unlinked_of_fresh fresh)
  exact ⟨s, run, view.1, view.2, portsHold_of_run run⟩

end Examples

end PortUse

end Liblsp
