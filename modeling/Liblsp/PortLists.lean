import Liblsp.Base.Run
import Liblsp.Port

/-!
# The port lists of a running program

A program calls the socket functions in any order, on any sockets it has ever
got, closed ones included.  No call stores a port number that `lsp_listen`
accepts, so every port list stays empty.
-/

namespace Liblsp

open Base

/-- The socket layer and the sockets that `lsp_socket` has returned. -/
structure SocketUse where
  layer : SocketLayer
  known : List Nat

inductive SocketCall where
  | socket (domain type protocol : Int) (answers : AllocAnswers)
  | bind (sock : Nat) (sockaddr : LspSockAddr) (beyond : PortState)
  | listen (sock : Nat) (queue : Option Nat) (fuel : Nat)
  | connect (sock : Nat) (sockaddr : LspSockAddr)
  | close (sock : Nat) (junk : Nat → ConnJunk) (fuel : Nat)

namespace SocketUse

/-- A call on a socket the program knows. -/
def onSocket (s : SocketUse) (sock : Nat) (layer : Option SocketLayer) :
    Option SocketUse :=
  if sock ∈ s.known then layer.map fun layer => { s with layer := layer }
  else none

theorem onSocket_cases {s s' : SocketUse} {sock : Nat}
    {layer : Option SocketLayer}
    (called : s.onSocket sock layer = some s') :
    sock ∈ s.known ∧ ∃ w, layer = some w ∧ s' = { s with layer := w } := by
  unfold onSocket at called
  split at called
  · rename_i member
    obtain ⟨w, result, same⟩ := Option.map_eq_some_iff.mp called
    exact ⟨member, w, result, same.symm⟩
  · cases called

def step (config : ConnConfig) (s : SocketUse) :
    SocketCall → Option SocketUse
  | .socket domain type protocol answers =>
      (s.layer.lspSocket config domain type protocol answers).map
        fun (layer, sock) =>
          { layer := layer, known := sock.toList ++ s.known }
  | .bind sock sockaddr beyond =>
      s.onSocket sock (some (s.layer.lspBind beyond sock sockaddr).1)
  | .listen sock queue fuel =>
      s.onSocket sock ((s.layer.lspListen sock queue fuel).map Prod.fst)
  | .connect sock sockaddr =>
      s.onSocket sock (some (s.layer.lspConnect sock sockaddr).1)
  | .close sock junk fuel =>
      s.onSocket sock (s.layer.lspClosesocket config junk sock fuel)

/-- The ports are initialised and the pool is cleared. -/
def initial (links : Links ListNode) (queues : Nat → Option (List Nat)) :
    SocketUse :=
  { layer := SocketLayer.lspPortInit
      { conns := fun _ => SocketLayer.clearedConn
        links := links
        ports := fun _ => .portClosed
        queues := queues }
    known := [] }

section Steps

variable {config : ConnConfig} {s s' : SocketUse} {sock : Nat}

theorem step_socket {domain type protocol : Int} {answers : AllocAnswers}
    (stepped : s.step config (.socket domain type protocol answers) =
      some s') :
    ∃ created, s.layer.lspSocket config domain type protocol answers =
        some (s'.layer, created) ∧
      s'.known = created.toList ++ s.known := by
  obtain ⟨⟨layer, created⟩, called, same⟩ :=
    Option.map_eq_some_iff.mp stepped
  cases same
  exact ⟨created, called, rfl⟩

theorem step_bind {sockaddr : LspSockAddr} {beyond : PortState}
    (stepped : s.step config (.bind sock sockaddr beyond) = some s') :
    sock ∈ s.known ∧ s'.layer = (s.layer.lspBind beyond sock sockaddr).1 ∧
      s'.known = s.known := by
  obtain ⟨member, w, result, same⟩ := onSocket_cases stepped
  cases result
  rw [same]
  exact ⟨member, rfl, rfl⟩

theorem step_listen {queue : Option Nat} {fuel : Nat}
    (stepped : s.step config (.listen sock queue fuel) = some s') :
    sock ∈ s.known ∧
      (∃ rc, s.layer.lspListen sock queue fuel = some (s'.layer, rc)) ∧
      s'.known = s.known := by
  obtain ⟨member, w, result, same⟩ := onSocket_cases stepped
  obtain ⟨⟨layer, rc⟩, listened, isLayer⟩ := Option.map_eq_some_iff.mp result
  cases isLayer
  rw [same]
  exact ⟨member, ⟨rc, listened⟩, rfl⟩

theorem step_connect {sockaddr : LspSockAddr}
    (stepped : s.step config (.connect sock sockaddr) = some s') :
    sock ∈ s.known ∧ s'.layer = (s.layer.lspConnect sock sockaddr).1 ∧
      s'.known = s.known := by
  obtain ⟨member, w, result, same⟩ := onSocket_cases stepped
  cases result
  rw [same]
  exact ⟨member, rfl, rfl⟩

theorem step_close {junk : Nat → ConnJunk} {fuel : Nat}
    (stepped : s.step config (.close sock junk fuel) = some s') :
    sock ∈ s.known ∧
      (∃ rc, SocketLayer.lspConnFree config junk fuel s.layer sock =
        some (s'.layer, rc)) ∧
      s'.known = s.known := by
  obtain ⟨member, w, result, same⟩ := onSocket_cases stepped
  obtain ⟨⟨layer, rc⟩, freed, isLayer⟩ := Option.map_eq_some_iff.mp result
  cases isLayer
  rw [same]
  exact ⟨member, ⟨rc, freed⟩, rfl⟩

end Steps

end SocketUse

namespace SocketLayer

/-- The number of ports. -/
def portCount : Nat := lspPacketPortMax.toNat + 2

/-- Every port list is a ring of connections that are not free and bound to
the port, and no connection is in the lists twice. -/
structure PortListsSound (w : SocketLayer) (members : Nat → List Nat) :
    Prop where
  rings : ∀ port, port < portCount →
    w.links.IsRing (.sockets port) ((members port).map .portlist)
  owned : ∀ port, port < portCount → ∀ sock, sock ∈ members port →
    (w.conns sock).state ≠ .connFree ∧
      (w.conns sock).attr.lport.toNat = port
  once : ((List.range portCount).flatMap members).Nodup

/-- Nobody has ever got onto a port list. -/
structure Unlisted (w : SocketLayer) (known : List Nat) : Prop where
  states : ∀ i, (w.conns i).state.code ≤ ConnState.connClosed.code
  types : ∀ i, (w.conns i).type ≠ connServer
  lports : ∀ sock, sock ∈ known →
    (w.conns sock).attr.lport > lspPacketPortMax
  heads : ∀ port, port < portCount → w.links.IsRing (.sockets port) []

theorem Unlisted.portListsSound {w : SocketLayer} {known : List Nat}
    (unlisted : Unlisted w known) : PortListsSound w fun _ => [] := by
  constructor
  · exact unlisted.heads
  · exact fun _ _ _ member => nomatch member
  · have none : (List.range portCount).flatMap
        (fun _ => ([] : List Nat)) = [] :=
      List.flatMap_eq_nil_iff.mpr fun _ _ => rfl
    rw [none]
    exact .nil

theorem Unlisted.keeps {w w' : SocketLayer} {known known' : List Nat}
    (unlisted : Unlisted w known) (links : w'.links = w.links)
    (conns : ∀ i, (w'.conns i).state.code ≤ ConnState.connClosed.code ∧
      (w'.conns i).type = (w.conns i).type)
    (lports : ∀ sock, sock ∈ known' →
      (w'.conns sock).attr.lport > lspPacketPortMax) :
    Unlisted w' known' := by
  constructor
  · exact fun i => (conns i).1
  · intro i
    rw [(conns i).2]
    exact unlisted.types i
  · exact lports
  · rw [links]
    exact unlisted.heads

theorem initHeads_joined (links : Links ListNode) {port count : Nat}
    (below : port < count) :
    (initHeads links count).Joined (.sockets port) (.sockets port) := by
  induction count with
  | zero => exact absurd below (Nat.not_lt_zero port)
  | succ count induction =>
      by_cases last : port = count
      · subst last
        simp [initHeads, lspListHeadInit, Links.Joined]
      · have joined := induction (by omega)
        simpa [initHeads, lspListHeadInit, Links.Joined, last] using joined

theorem initHeads_ring (links : Links ListNode) {port count : Nat}
    (below : port < count) :
    (initHeads links count).IsRing (.sockets port) [] :=
  .empty (initHeads_joined links below)

theorem unlisted_initial (links : Links ListNode)
    (queues : Nat → Option (List Nat)) :
    Unlisted (SocketUse.initial links queues).layer [] := by
  constructor
  · exact fun _ => Nat.zero_le _
  · exact fun _ => nofun
  · exact fun _ member => nomatch member
  · intro port below
    exact initHeads_ring links below

/-! ## What the calls keep -/

section Calls

variable {w w' : SocketLayer} {known : List Nat}

theorem Unlisted.setConn (unlisted : Unlisted w known) {known' : List Nat}
    {i : Nat} {conn : LspConn}
    (state : conn.state.code ≤ ConnState.connClosed.code)
    (type : conn.type = (w.conns i).type)
    (within : ∀ sock, sock ∈ known' → sock = i ∨ sock ∈ known)
    (lport : i ∈ known' → conn.attr.lport > lspPacketPortMax) :
    Unlisted (w.setConn i conn) known' := by
  have links : (w.setConn i conn).links = w.links := rfl
  apply unlisted.keeps links
  · intro other
    by_cases same : other = i
    · subst same
      simpa [SocketLayer.setConn] using ⟨state, type⟩
    · simpa [SocketLayer.setConn, same] using unlisted.states other
  · intro sock member
    by_cases same : sock = i
    · subst same
      simpa [SocketLayer.setConn] using lport member
    · have old := (within sock member).resolve_left same
      simpa [SocketLayer.setConn, same] using unlisted.lports sock old

theorem Unlisted.modifyConn (unlisted : Unlisted w known) {i : Nat}
    {change : LspConn → LspConn}
    (state : (change (w.conns i)).state.code ≤ ConnState.connClosed.code)
    (type : (change (w.conns i)).type = (w.conns i).type)
    (lport : i ∈ known →
      (change (w.conns i)).attr.lport > lspPacketPortMax) :
    Unlisted (w.modifyConn i change) known :=
  unlisted.setConn state type (fun _ => Or.inr) lport

theorem Unlisted.lspListen (unlisted : Unlisted w known) {sock fuel : Nat}
    {queue : Option Nat} (member : sock ∈ known) :
    w.lspListen sock queue fuel = some (w, lspErrInvalid) := by
  rw [SocketLayer.lspListen, if_pos (unlisted.lports sock member)]

theorem Unlisted.lspBind (unlisted : Unlisted w known) (beyond : PortState)
    (sock : Nat) (sockaddr : LspSockAddr) :
    Unlisted (w.lspBind beyond sock sockaddr).1 known := by
  rcases lspBind_cases w beyond sock sockaddr with same | same
  · rw [same]
    exact unlisted
  · rw [same]
    apply unlisted.modifyConn
    · exact unlisted.states sock
    · rfl
    · intro _
      change lspPacketPortMax + 1 > lspPacketPortMax
      decide

theorem Unlisted.lspConnect (unlisted : Unlisted w known) (sock : Nat)
    (sockaddr : LspSockAddr) :
    Unlisted (w.lspConnect sock sockaddr).1 known := by
  rcases lspConnect_cases w sock sockaddr with same | ⟨attr, lport, same⟩
  · rw [same]
    exact unlisted
  · rw [same]
    apply unlisted.modifyConn
    · exact unlisted.states sock
    · rfl
    · intro member
      change attr.lport > lspPacketPortMax
      rw [lport]
      exact unlisted.lports sock member

theorem Unlisted.lspConnClose (unlisted : Unlisted w known)
    (config : ConnConfig) (junk : ConnJunk) (i fuel : Nat) :
    w.lspConnClose config junk i fuel = some (w, lspErrNone) := by
  rw [SocketLayer.lspConnClose, if_pos (unlisted.states i)]

theorem Unlisted.lspConnFree (unlisted : Unlisted w known)
    {config : ConnConfig} {junk : Nat → ConnJunk} {fuel i : Nat} {rc : Int}
    (freed : lspConnFree config junk fuel w i = some (w', rc)) :
    Unlisted w' known := by
  rcases lspConnFree_closed (unlisted.states i) (unlisted.types i) freed with
    same | same
  · rw [same]
    exact unlisted
  · rw [same]
    apply unlisted.modifyConn
    · exact Nat.zero_le _
    · rfl
    · exact unlisted.lports i

theorem Unlisted.ensureQueue (unlisted : Unlisted w known) {i : Nat}
    {queue : Option Nat} (ensured : w.ensureQueue i queue = some w') :
    Unlisted w' known := by
  rcases ensureQueue_cases ensured with same | ⟨handle, _, _, same⟩
  · rw [same]
    exact unlisted
  · have before : Unlisted (w.setQueue handle (some [])) known :=
      unlisted.keeps rfl (fun i => ⟨unlisted.states i, rfl⟩) unlisted.lports
    rw [same]
    apply before.modifyConn
    · exact unlisted.states i
    · rfl
    · exact unlisted.lports i

theorem Unlisted.lspConnAlloc (unlisted : Unlisted w known)
    {config : ConnConfig} {answers : AllocAnswers} {sock : Option Nat}
    (allocated : w.lspConnAlloc config answers = some (w', sock)) :
    Unlisted w' (sock.toList ++ known) := by
  rcases lspConnAlloc_cases allocated with
    ⟨none, same⟩ | ⟨i, ready, _, ensured, result⟩
  · rw [none, same]
    exact unlisted
  · have before := unlisted.ensureQueue ensured
    rcases result with ⟨none, same | same⟩ | ⟨some, _, same⟩
    · rw [none, same]
      exact before
    · rw [none, same]
      apply before.modifyConn
      · rw [LspConn.ensureEgroup_state]
        exact before.states i
      · exact LspConn.ensureEgroup_type _ _ _
      · rw [LspConn.ensureEgroup_attr]
        exact before.lports i
    · rw [some, same]
      apply before.setConn
      · exact Nat.le_refl _
      · exact LspConn.ensureEgroup_type _ _ _
      · intro other member
        exact List.mem_cons.mp member
      · intro _
        change lspPortAny > lspPacketPortMax
        decide

theorem Unlisted.lspSocket (unlisted : Unlisted w known)
    {config : ConnConfig} {domain type protocol : Int}
    {answers : AllocAnswers} {sock : Option Nat}
    (created : w.lspSocket config domain type protocol answers =
      some (w', sock)) :
    Unlisted w' (sock.toList ++ known) := by
  rcases lspSocket_cases created with ⟨none, same⟩ | allocated
  · rw [none, same]
    exact unlisted
  · exact unlisted.lspConnAlloc allocated

end Calls

end SocketLayer

namespace SocketUse

open SocketLayer

/-- No socket the program knows can get onto a port list. -/
def NothingListed (s : SocketUse) : Prop := Unlisted s.layer s.known

/-- Every call keeps the port lists empty. -/
theorem NothingListed.step {config : ConnConfig} {s s' : SocketUse}
    {call : SocketCall} (unlisted : NothingListed s)
    (stepped : s.step config call = some s') : NothingListed s' := by
  cases call with
  | socket domain type protocol answers =>
      obtain ⟨created, called, known⟩ := step_socket stepped
      rw [NothingListed, known]
      exact Unlisted.lspSocket unlisted called
  | bind sock sockaddr beyond =>
      obtain ⟨_, layer, known⟩ := step_bind stepped
      rw [NothingListed, layer, known]
      exact Unlisted.lspBind unlisted beyond sock sockaddr
  | listen sock queue fuel =>
      obtain ⟨member, ⟨rc, listened⟩, known⟩ := step_listen stepped
      rw [Unlisted.lspListen unlisted member] at listened
      have layer : s.layer = s'.layer :=
        congrArg Prod.fst (Option.some.inj listened)
      rw [NothingListed, ← layer, known]
      exact unlisted
  | connect sock sockaddr =>
      obtain ⟨_, layer, known⟩ := step_connect stepped
      rw [NothingListed, layer, known]
      exact Unlisted.lspConnect unlisted sock sockaddr
  | close sock junk fuel =>
      obtain ⟨_, ⟨rc, freed⟩, known⟩ := step_close stepped
      rw [NothingListed, known]
      exact Unlisted.lspConnFree unlisted freed

/-- In every state of a program the port lists are sound.  No list contains a
socket after it is closed, nor one that `lsp_socket` hands out again. -/
theorem portListsSound_of_run {config : ConnConfig}
    {links : Links ListNode} {queues : Nat → Option (List Nat)}
    {calls : List SocketCall} {s : SocketUse}
    (run : Run (step config) Anywhere (initial links queues) calls s) :
    (∃ members, PortListsSound s.layer members) ∧
      (∀ sock junk fuel s', s.step config (.close sock junk fuel) = some s' →
        ∃ members, PortListsSound s'.layer members ∧
          ∀ port, port < portCount → sock ∉ members port) ∧
      ∀ domain type protocol answers w sock,
        s.layer.lspSocket config domain type protocol answers =
            some (w, some sock) →
          ∃ members, PortListsSound w members ∧
            ∀ port, port < portCount → sock ∉ members port := by
  have start : NothingListed (initial links queues) :=
    unlisted_initial links queues
  have unlisted : NothingListed s := by
    apply run.invariant start
    intro state call next before _ stepped
    exact before.step stepped
  refine ⟨⟨_, unlisted.portListsSound⟩, ?_, ?_⟩
  · intro sock junk fuel s' closed
    have after := unlisted.step closed
    exact ⟨_, after.portListsSound, fun _ _ => List.not_mem_nil⟩
  · intro domain type protocol answers w sock created
    have after := Unlisted.lspSocket unlisted created
    exact ⟨_, after.portListsSound, fun _ _ => List.not_mem_nil⟩

section Examples

/-- A socket is bound, set to listen, closed, and its slot handed out
again. -/
def bindListenClose : List SocketCall :=
  [.socket afLsp lspSockRaw lspProtoLsp ⟨some 0, some 0⟩,
    .bind 0 ⟨lspPortAny, 7⟩ .portClosed,
    .listen 0 (some 1) 3,
    .connect 0 ⟨5, 7⟩,
    .close 0 (fun _ => ⟨0, 0, 0⟩) 3,
    .socket afLsp lspSockRaw lspProtoLsp ⟨none, none⟩]

theorem portListsSound_of_bindListenClose :
    ∃ s, Run (step ⟨false, false⟩) Anywhere
        (initial ⟨id, id⟩ fun _ => none) bindListenClose s ∧
      s.known = [0, 0] ∧
      (s.layer.conns 0).attr.raddr = lspAddrAny ∧
      ∃ members, PortListsSound s.layer members := by
  have executed :
      (execute (step ⟨false, false⟩) Anywhere
        (initial ⟨id, id⟩ fun _ => none) bindListenClose).map
          (fun s => (s.known, (s.layer.conns 0).attr.raddr)) =
        some ([0, 0], lspAddrAny) := by
    decide
  obtain ⟨s, run, view⟩ := exists_run_of_execute executed
  simp only [Prod.mk.injEq] at view
  exact ⟨s, run, view.1, view.2, (portListsSound_of_run run).1⟩

end Examples

end SocketUse

end Liblsp
