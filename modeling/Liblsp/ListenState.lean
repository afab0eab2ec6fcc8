import Liblsp.Endpoint

/-!
# The state of a listening socket

`lsp_listen` stores first the type of a server and then, to the same field,
the state of a listener, whose value is the type of nobody.  No other call
repairs that: `lsp_accept` and `lsp_closesocket` never take a listening socket
for one.
-/

namespace Liblsp

open Base

namespace SocketLayer

variable {w w' : SocketLayer} {sock other : Nat}

/-- What the guards of `lsp_accept` and the branches of `lsp_conn_close` and
`lsp_conn_free` ask of a listening socket. -/
structure ListenAgrees (w : SocketLayer) (sock : Nat) : Prop where
  type : (w.conns sock).type = connServer
  state : (w.conns sock).state = .connListen

theorem lspListen_type {queue : Option Nat} {fuel : Nat}
    (listened : w.lspListen sock queue fuel = some (w', lspErrNone)) :
    (w'.conns sock).type = ConnState.connListen.code := by
  rcases lspListen_cases listened with
    ⟨_, _, refused⟩ | ⟨_, ⟨handle, conns⟩, _, _⟩
  · cases refused
  · rw [conns, Function.update_self]

/-- No socket becomes a server by a call on another one. -/
def NoServer (w : SocketLayer) (sock : Nat) : Prop :=
  (w.conns sock).type ≠ connServer

theorem NoServer.of_type (before : NoServer w sock)
    (same : (w'.conns sock).type = (w.conns sock).type) :
    NoServer w' sock := by
  rw [NoServer, same]
  exact before

theorem NoServer.modifyConn (before : NoServer w sock)
    {change : LspConn → LspConn}
    (kept : (change (w.conns other)).type = (w.conns other).type) :
    NoServer (w.modifyConn other change) sock :=
  before.of_type (modifyConn_field LspConn.type kept sock)

theorem NoServer.lspBind (before : NoServer w sock) (beyond : PortState)
    (sockaddr : LspSockAddr) :
    NoServer (w.lspBind beyond other sockaddr).1 sock := by
  rcases lspBind_cases w beyond other sockaddr with same | same
  · rw [same]
    exact before
  · rw [same]
    apply before.modifyConn
    rfl

theorem NoServer.lspConnect (before : NoServer w sock)
    (sockaddr : LspSockAddr) :
    NoServer (w.lspConnect other sockaddr).1 sock := by
  rcases lspConnect_cases w other sockaddr with same | ⟨attr, _, same⟩
  · rw [same]
    exact before
  · rw [same]
    apply before.modifyConn
    rfl

theorem NoServer.lspSocket (before : NoServer w sock) {config : ConnConfig}
    {domain type protocol : Int} {answers : AllocAnswers}
    {created : Option Nat}
    (called : w.lspSocket config domain type protocol answers =
      some (w', created)) : NoServer w' sock := by
  rcases lspSocket_cases called with ⟨_, same⟩ | allocated
  · rw [same]
    exact before
  · exact before.of_type (lspConnAlloc_type allocated sock)

theorem NoServer.lspListen (before : NoServer w sock) (different : sock ≠ other)
    {queue : Option Nat} {fuel : Nat} {rc : Int}
    (listened : w.lspListen other queue fuel = some (w', rc)) :
    NoServer w' sock := by
  rcases lspListen_cases listened with
    ⟨_, same, _⟩ | ⟨_, ⟨handle, conns⟩, _, _⟩
  · rw [same]
    exact before
  · apply before.of_type
    rw [conns, Function.update_of_ne different]

theorem NoServer.lspAccept (before : NoServer w sock) {rc : Int}
    {result : AcceptResult}
    (accepted : w.lspAccept other rc = some (w', result)) :
    NoServer w' sock := by
  rcases lspAccept_cases accepted with
    same | ⟨handle, child, rest, _, _, same⟩
  · rw [same]
    exact before
  · rw [same]
    by_cases here : sock = child
    · subst here
      simp [NoServer, SocketLayer.modifyConn, setConn, connChild,
        connServer]
    · simpa [NoServer, SocketLayer.modifyConn, setConn, setQueue, here] using
        before

theorem lspConnRxqPush_conns {connQueuelen buffer : Nat}
    {wait : WaitResult} {rc : Int}
    (pushed : w.lspConnRxqPush connQueuelen other buffer wait =
      some (w', rc)) :
    w'.conns = w.conns := by
  obtain ⟨_, _, _, _, ⟨_, _, _, same⟩ | ⟨_, same⟩⟩ :=
    lspConnRxqPush_cases pushed
  · rw [same]
    rfl
  · rw [same]

theorem lspConnRxqPush_links {connQueuelen buffer : Nat}
    {wait : WaitResult} {rc : Int}
    (pushed : w.lspConnRxqPush connQueuelen other buffer wait =
      some (w', rc)) :
    w'.links = w.links := by
  obtain ⟨_, _, _, _, ⟨_, _, _, same⟩ | ⟨_, same⟩⟩ :=
    lspConnRxqPush_cases pushed
  · rw [same]
    rfl
  · rw [same]

theorem lspAccept_of_noServer (noServer : NoServer w sock) (rc : Int) :
    w.lspAccept sock rc = some (w, .null) := by
  rw [SocketLayer.lspAccept]
  exact if_pos noServer

end SocketLayer

namespace Endpoints

open SocketLayer

/-- The call is not made on the given socket. -/
def OnOthers (sock : Nat) (_ : Endpoints) (call : EndpointCall) : Prop :=
  call.sock ≠ some sock

instance (sock : Nat) (e : Endpoints) (call : EndpointCall) :
    Decidable (OnOthers sock e call) :=
  inferInstanceAs (Decidable (call.sock ≠ some sock))

variable {config : EndpointConfig} {e e' : Endpoints} {sock : Nat}

private theorem noServer_call {socketCall : SocketCall} {use : SocketUse}
    (before : NoServer e.layer sock) (others : socketCall.sock ≠ some sock)
    (stepped : e.use.step config.conn socketCall = some use) :
    NoServer use.layer sock := by
  cases socketCall with
  | socket domain type protocol answers =>
      obtain ⟨created, called, _⟩ := SocketUse.step_socket stepped
      exact NoServer.lspSocket before called
  | bind other sockaddr beyond =>
      obtain ⟨_, layer, _⟩ := SocketUse.step_bind stepped
      rw [layer]
      exact NoServer.lspBind before beyond sockaddr
  | listen other queue fuel =>
      obtain ⟨_, ⟨rc, listened⟩, _⟩ := SocketUse.step_listen stepped
      have different : sock ≠ other := by
        intro isOther
        exact others (congrArg some isOther.symm)
      exact NoServer.lspListen before different listened
  | connect other sockaddr =>
      obtain ⟨_, layer, _⟩ := SocketUse.step_connect stepped
      rw [layer]
      exact NoServer.lspConnect before sockaddr
  | close other junk fuel =>
      obtain ⟨_, ⟨rc, freed⟩, _⟩ := SocketUse.step_close stepped
      exact NoServer.of_type before (lspConnFree_type freed sock)

/-- A call on another socket makes no server of this one. -/
theorem noServer_step {call : EndpointCall} (before : NoServer e.layer sock)
    (others : OnOthers sock e call)
    (stepped : e.step config call = some e') : NoServer e'.layer sock := by
  cases call with
  | call socketCall =>
      obtain ⟨called, _⟩ := step_call stepped
      exact noServer_call before others called
  | accept other rc =>
      obtain ⟨_, ⟨result, accepted⟩, _⟩ := step_accept stepped
      exact before.lspAccept accepted
  | rxqPush other buffer wait =>
      obtain ⟨_, rc, pushed, _⟩ := step_rxqPush stepped
      apply before.of_type
      rw [lspConnRxqPush_conns pushed]
  | storeLport other port =>
      obtain ⟨_, same, _⟩ := step_storeLport stepped
      rw [same]
      apply before.modifyConn
      rfl

/-- After a successful `lsp_listen` the socket never agrees with its readers,
whatever is called on other sockets: `lsp_accept` refuses it, and closing it
neither takes the branch for servers. -/
theorem never_listenAgrees {w listening : SocketLayer} {known : List Nat}
    {queue : Option Nat} {fuel : Nat}
    (listened : w.lspListen sock queue fuel = some (listening, lspErrNone))
    {entered received : List Nat} {calls : List EndpointCall}
    (run : Run (step config) (OnOthers sock)
      ⟨⟨listening, known⟩, entered, received⟩ calls e) :
    ¬ListenAgrees e.layer sock ∧
      (e.layer.conns sock).type ≠ connServer ∧
      ∀ rc, e.layer.lspAccept sock rc = some (e.layer, .null) := by
  have noServer : NoServer e.layer sock := by
    apply run.invariant
    · rw [NoServer]
      change (listening.conns sock).type ≠ connServer
      rw [lspListen_type listened]
      decide
    · intro state call next before others stepped
      exact noServer_step before others stepped
  refine ⟨?_, noServer, ?_⟩
  · intro agrees
    exact noServer agrees.type
  · intro rc
    exact lspAccept_of_noServer noServer rc

section Examples

/-- A program gets two sockets and stores port 5 in the first. -/
def portStored : List EndpointCall :=
  [.call (.socket afLsp lspSockRaw lspProtoLsp ⟨some 0, some 0⟩),
    .call (.socket afLsp lspSockRaw lspProtoLsp ⟨some 1, some 1⟩),
    .storeLport 0 5]

/-- The other socket is bound and closed while the first one listens. -/
def otherCloses : List EndpointCall :=
  [.call (.bind 1 ⟨lspPortAny, 7⟩ .portClosed),
    .call (.close 1 (fun _ => ⟨0, 0, 0⟩) 3)]

theorem never_listenAgrees_otherCloses :
    ∃ e listening e', Run (step ⟨⟨false, false⟩, 4⟩) Anywhere
        (initial ⟨id, id⟩) portStored e ∧
      e.layer.lspListen 0 (some 2) 3 = some (listening, lspErrNone) ∧
      Run (step ⟨⟨false, false⟩, 4⟩) (OnOthers 0)
        ⟨⟨listening, e.use.known⟩, [], []⟩ otherCloses e' ∧
      ¬ListenAgrees e'.layer 0 := by
  have executed :
      (execute (step ⟨⟨false, false⟩, 4⟩) Anywhere (initial ⟨id, id⟩)
        portStored).map (fun e =>
          (e.layer.lspListen 0 (some 2) 3).map fun result =>
            (result.2, (execute (step ⟨⟨false, false⟩, 4⟩) (OnOthers 0)
              ⟨⟨result.1, e.use.known⟩, [], []⟩ otherCloses).isSome)) =
        some (some (lspErrNone, true)) := by
    decide
  obtain ⟨e, run, view⟩ := exists_run_of_execute executed
  obtain ⟨⟨listening, rc⟩, listened, shown⟩ :=
    Option.map_eq_some_iff.mp view
  simp only [Prod.mk.injEq] at shown
  obtain ⟨isNone, ends⟩ := shown
  subst rc
  obtain ⟨e', reached⟩ := Option.isSome_iff_exists.mp ends
  have others := run_of_execute reached
  exact ⟨e, listening, e', run, listened, others,
    (never_listenAgrees listened others).1⟩

/-- Right after the call the socket has the type 3. -/
theorem portStored_listens_without_type :
    ∃ e listening, Run (step ⟨⟨false, false⟩, 4⟩) Anywhere
        (initial ⟨id, id⟩) portStored e ∧
      e.layer.lspListen 0 (some 2) 3 = some (listening, lspErrNone) ∧
      ¬ListenAgrees listening 0 := by
  have executed :
      (execute (step ⟨⟨false, false⟩, 4⟩) Anywhere (initial ⟨id, id⟩)
        portStored).map (fun e =>
          (e.layer.lspListen 0 (some 2) 3).map fun result =>
            (result.2, (result.1.conns 0).type)) =
        some (some (lspErrNone, 3)) := by
    decide
  obtain ⟨e, run, view⟩ := exists_run_of_execute executed
  obtain ⟨⟨listening, rc⟩, listened, shown⟩ :=
    Option.map_eq_some_iff.mp view
  simp only [Prod.mk.injEq] at shown
  obtain ⟨isNone, type⟩ := shown
  subst rc
  refine ⟨e, listening, run, listened, ?_⟩
  intro agrees
  rw [agrees.type] at type
  cases type

end Examples

end Endpoints

end Liblsp
