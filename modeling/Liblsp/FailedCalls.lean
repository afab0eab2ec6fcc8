import Liblsp.Endpoint
import Liblsp.PortFlags

/-!
# Calls on an endpoint that fail

`lsp_bind`, `lsp_connect` and `lsp_listen` test their arguments before they
store anything, with two exceptions.  `lsp_bind` stores the default port
before it looks at its entry, which is always closed; and `lsp_listen` stores
the type and the children of a socket before it has memory for the backlog.
-/

namespace Liblsp

open Base

/-- The calls on an endpoint. -/
inductive PortCall where
  | bind (sock : Nat) (sockaddr : LspSockAddr) (beyond : PortState)
  | listen (sock : Nat) (queue : Option Nat) (fuel : Nat)
  | connect (sock : Nat) (sockaddr : LspSockAddr)

namespace PortCall

def sock : PortCall → Nat
  | .bind sock .. => sock
  | .listen sock .. => sock
  | .connect sock _ => sock

def run (w : SocketLayer) : PortCall → Option (SocketLayer × Int)
  | .bind sock sockaddr beyond => some (w.lspBind beyond sock sockaddr)
  | .listen sock queue fuel => w.lspListen sock queue fuel
  | .connect sock sockaddr => some (w.lspConnect sock sockaddr)

end PortCall

namespace SocketLayer

/-- A call that fails leaves the socket, the ports and the port lists as they
were. -/
def FailsUnchanged (w : SocketLayer) (call : PortCall) : Prop :=
  ∀ w' rc, call.run w = some (w', rc) → rc ≠ lspErrNone →
    w'.conns call.sock = w.conns call.sock ∧ w'.ports = w.ports ∧
      w'.links = w.links

/-- A `lsp_listen` without memory for the backlog is refused before, or has
nothing to store. -/
def NothingToStore (w : SocketLayer) : PortCall → Prop
  | .listen sock none _ =>
      (w.conns sock).attr.lport > lspPacketPortMax ∨
        ((w.conns sock).type = ConnState.connListen.code ∧
          (w.conns sock).children = none)
  | .listen _ (some _) _ => True
  | .bind .. => True
  | .connect .. => True

/-- The entry for the default port is closed. -/
def DefaultPortClosed (w : SocketLayer) : Prop :=
  w.ports (lspPacketPortMax.toNat + 1) = .portClosed

/-! ## What the failing calls leave behind -/

section Failures

variable {w w' : SocketLayer} {sock fuel : Nat} {rc : Int}

theorem lspBind_failed (closed : w.DefaultPortClosed) {beyond : PortState}
    {sockaddr : LspSockAddr}
    (failed : (w.lspBind beyond sock sockaddr).2 ≠ lspErrNone) :
    (w.lspBind beyond sock sockaddr).1 = w := by
  by_cases any : sockaddr.port = lspPortAny
  · have reads : w.lspBindReads sock sockaddr =
        some (lspPacketPortMax.toNat + 1) := if_pos any
    exact absurd (lspBind_of_closed reads (by decide) closed beyond) failed
  · rw [lspBind, if_neg any]
    split
    · rfl
    · rfl

theorem lspConnect_failed {sockaddr : LspSockAddr}
    (failed : (w.lspConnect sock sockaddr).2 ≠ lspErrNone) :
    (w.lspConnect sock sockaddr).1 = w := by
  unfold lspConnect at failed ⊢
  split at failed
  · exact absurd rfl failed
  · rename_i notAny
    rw [if_neg notAny]
    split at failed
    · rename_i tooHigh
      rw [if_pos tooHigh]
    · exact absurd rfl failed

theorem lspListen_failed_some {queue : Nat}
    (listened : w.lspListen sock (some queue) fuel = some (w', rc))
    (failed : rc ≠ lspErrNone) : w' = w := by
  unfold lspListen at listened
  simp only at listened
  split at listened
  · cases listened
    rfl
  · obtain ⟨⟨prepared, handle⟩, preparation, result⟩ :=
      Option.bind_eq_some_iff.mp listened
    obtain ⟨_, _, _, ⟨absent, same⟩ | ⟨new, present, _, _⟩⟩ :=
      prepareListen_cases preparation
    · subst absent
      simp only [prepareListen, createQueue] at preparation
      split at preparation
      · cases preparation
      · cases preparation
    · simp only [present, Option.some_ne_none, if_false] at result
      obtain ⟨_, _, same⟩ := Option.map_eq_some_iff.mp result
      cases same
      exact absurd rfl failed

/-- Without a queue `lsp_listen` fails after its stores. -/
theorem lspListen_none
    (valid : ¬(w.conns sock).attr.lport > lspPacketPortMax) :
    w.lspListen sock none fuel =
      some (w.setConn sock
        { w.conns sock with
          type := ConnState.connListen.code
          children := none }, lspErrNomem) := by
  simp [lspListen, if_neg valid, prepareListen, createQueue, modifyConn,
    setConn]

theorem failsUnchanged_bind (closed : w.DefaultPortClosed)
    (sockaddr : LspSockAddr) (beyond : PortState) :
    w.FailsUnchanged (.bind sock sockaddr beyond) := by
  intro w' rc called failed
  have result : w.lspBind beyond sock sockaddr = (w', rc) :=
    Option.some.inj called
  have unchanged := @lspBind_failed w sock closed beyond sockaddr
  rw [result] at unchanged
  have same : w' = w := unchanged failed
  rw [same]
  exact ⟨rfl, rfl, rfl⟩

theorem failsUnchanged_connect (sockaddr : LspSockAddr) :
    w.FailsUnchanged (.connect sock sockaddr) := by
  intro w' rc called failed
  have result : w.lspConnect sock sockaddr = (w', rc) :=
    Option.some.inj called
  have unchanged := @lspConnect_failed w sock sockaddr
  rw [result] at unchanged
  have same : w' = w := unchanged failed
  rw [same]
  exact ⟨rfl, rfl, rfl⟩

/-- Without a queue only a refused socket, or one that looks like a listener
without children, is left as it was. -/
theorem failsUnchanged_listen_none_iff :
    w.FailsUnchanged (.listen sock none fuel) ↔
      w.NothingToStore (.listen sock none fuel) := by
  by_cases tooHigh : (w.conns sock).attr.lport > lspPacketPortMax
  · refine iff_of_true ?_ (.inl tooHigh)
    intro w' rc listened _
    have refused : w.lspListen sock none fuel = some (w, lspErrInvalid) :=
      if_pos tooHigh
    cases refused.symm.trans listened
    exact ⟨rfl, rfl, rfl⟩
  · have listened := @lspListen_none w sock fuel tooHigh
    rw [NothingToStore, or_iff_right tooHigh]
    constructor
    · intro unchanged
      obtain ⟨same, _⟩ := unchanged _ _ listened (by decide)
      simp only [PortCall.sock, setConn, Function.update_self] at same
      rw [← same]
      exact ⟨rfl, rfl⟩
    · rintro ⟨type, children⟩ w' rc called _
      cases listened.symm.trans called
      refine ⟨?_, rfl, rfl⟩
      simp only [PortCall.sock, setConn, Function.update_self]
      rw [← type, ← children]

theorem failsUnchanged_iff (closed : w.DefaultPortClosed)
    (call : PortCall) : w.FailsUnchanged call ↔ w.NothingToStore call := by
  cases call with
  | bind sock sockaddr beyond =>
      exact iff_of_true (failsUnchanged_bind closed sockaddr beyond) trivial
  | connect sock sockaddr =>
      exact iff_of_true (failsUnchanged_connect sockaddr) trivial
  | listen sock queue fuel =>
      cases queue with
      | none => exact failsUnchanged_listen_none_iff
      | some queue =>
          refine iff_of_true ?_ trivial
          intro w' rc listened failed
          rw [lspListen_failed_some listened failed]
          exact ⟨rfl, rfl, rfl⟩

end Failures

/-! ## The entry for the default port stays closed -/

section DefaultPort

variable {w w' : SocketLayer} {sock fuel : Nat} {rc : Int}

theorem lspListen_defaultPort {queue : Option Nat}
    (listened : w.lspListen sock queue fuel = some (w', rc)) :
    w'.ports (lspPacketPortMax.toNat + 1) =
      w.ports (lspPacketPortMax.toNat + 1) := by
  unfold lspListen at listened
  simp only at listened
  split at listened
  · cases listened
    rfl
  · rename_i valid
    obtain ⟨⟨prepared, handle⟩, preparation, result⟩ :=
      Option.bind_eq_some_iff.mp listened
    obtain ⟨_, ports, _⟩ := prepareListen_cases preparation
    simp only at result
    split at result
    · cases result
      rw [ports]
    · obtain ⟨_, _, same⟩ := Option.map_eq_some_iff.mp result
      cases same
      have inside : (w.conns sock).attr.lport.toNat ≤
          lspPacketPortMax.toNat := Nat.le_of_not_lt valid
      have other : lspPacketPortMax.toNat + 1 ≠
          (w.conns sock).attr.lport.toNat := by omega
      exact (Function.update_of_ne other _ _).trans (congrFun ports _)

theorem lspConnClose_ports {config : ConnConfig} {junk : ConnJunk} {i : Nat}
    (closed : w.lspConnClose config junk i fuel = some (w', rc)) :
    w'.ports = w.ports := by
  rcases lspConnClose_cases closed with
    ⟨_, same, _⟩ | ⟨_, same, _⟩ |
      ⟨_, _, _, handle, buffer, rest, dropped, _, _, _, same, _⟩
  · rw [same]
  · rw [same]
    rfl
  · rw [same]
    exact freeQueue_ports _ config i

theorem lspConnFree_ports {config : ConnConfig} {junk : Nat → ConnJunk}
    {i : Nat} (freed : lspConnFree config junk fuel w i = some (w', rc)) :
    w'.ports = w.ports := by
  apply lspConnFree_keeps SocketLayer.ports ?_ ?_ ?_ freed
  · intro _ _ _ _ _ _ closed
    exact lspConnClose_ports closed
  · intro _ _
    rfl
  · intro _ _ _
    rfl

theorem lspAccept_ports {result : AcceptResult}
    (accepted : w.lspAccept sock rc = some (w', result)) :
    w'.ports = w.ports := by
  rcases lspAccept_cases accepted with
    same | ⟨handle, child, rest, _, _, same⟩
  · rw [same]
  · rw [same]
    rfl

end DefaultPort

end SocketLayer

namespace Endpoints

open SocketLayer

variable {config : EndpointConfig} {e e' : Endpoints}

theorem defaultPort_step {call : EndpointCall}
    (closed : e.layer.DefaultPortClosed)
    (stepped : e.step config call = some e') :
    e'.layer.DefaultPortClosed := by
  rw [DefaultPortClosed] at closed ⊢
  rw [← closed]
  cases call with
  | call socketCall =>
      obtain ⟨called, _⟩ := step_call stepped
      cases socketCall with
      | socket domain type protocol answers =>
          obtain ⟨created, allocated, _⟩ := SocketUse.step_socket called
          exact congrFun (lspSocket_ports allocated) _
      | bind sock sockaddr beyond =>
          obtain ⟨_, layer, _⟩ := SocketUse.step_bind called
          have ports := congrArg SocketLayer.ports layer
          exact congrFun (ports.trans (lspBind_ports _ _ _ _)) _
      | listen sock queue fuel =>
          obtain ⟨_, ⟨rc, listened⟩, _⟩ := SocketUse.step_listen called
          exact lspListen_defaultPort listened
      | connect sock sockaddr =>
          obtain ⟨_, layer, _⟩ := SocketUse.step_connect called
          have ports := congrArg SocketLayer.ports layer
          exact congrFun (ports.trans (lspConnect_ports _ _ _)) _
      | close sock junk fuel =>
          obtain ⟨_, ⟨rc, freed⟩, _⟩ := SocketUse.step_close called
          exact congrFun (lspConnFree_ports freed) _
  | accept sock rc =>
      obtain ⟨_, ⟨result, accepted⟩, _⟩ := step_accept stepped
      exact congrFun (lspAccept_ports accepted) _
  | rxqPush sock buffer wait =>
      obtain ⟨_, rc, pushed, _⟩ := step_rxqPush stepped
      obtain ⟨_, _, _, _, ⟨_, _, _, same⟩ | ⟨_, same⟩⟩ :=
        lspConnRxqPush_cases pushed
      · rw [same]
        rfl
      · rw [same]
  | storeLport sock port =>
      obtain ⟨_, same, _⟩ := step_storeLport stepped
      rw [same]
      rfl

/-- In every reachable state of the ports and whatever the sockets hold, a
call fails without a change exactly if it has nothing to store before it
fails. -/
theorem failsUnchanged_iff_of_run {links : Links ListNode}
    {calls : List EndpointCall}
    (run : Run (step config) Anywhere (initial links) calls e)
    (conns : Nat → LspConn) (call : PortCall) :
    ({ e.layer with conns := conns } : SocketLayer).FailsUnchanged call ↔
      ({ e.layer with conns := conns } : SocketLayer).NothingToStore
        call := by
  have closed : e.layer.DefaultPortClosed := by
    apply run.invariant
    · rfl
    · intro state action next before _ stepped
      exact defaultPort_step before stepped
  have closed' : DefaultPortClosed { e.layer with conns := conns } := closed
  exact failsUnchanged_iff closed' call

section Examples

/-- Connections with port 5 as their local port. -/
def onPortFive : Nat → LspConn := fun _ =>
  { clearedConn with
    state := .connClosed
    attr := { defConnAttr with lport := 5 } }

/-- A bind to an invalid port fails without a change. -/
theorem failsUnchanged_invalid_bind :
    ({ (initial ⟨id, id⟩).layer with conns := onPortFive } :
      SocketLayer).FailsUnchanged (.bind 0 ⟨40, 7⟩ .portClosed) :=
  (@failsUnchanged_iff_of_run ⟨⟨false, false⟩, 4⟩ _ _ _ .nil onPortFive
    _).mpr trivial

/-- A `lsp_listen` without memory for its backlog leaves the socket with the
type 3. -/
theorem listen_without_memory_changes :
    ∃ w', PortCall.run
        { (initial ⟨id, id⟩).layer with conns := onPortFive }
        (.listen 0 none 1) = some (w', lspErrNomem) ∧
      (onPortFive 0).type = 0 ∧ (w'.conns 0).type = 3 ∧
      ¬({ (initial ⟨id, id⟩).layer with conns := onPortFive } :
        SocketLayer).FailsUnchanged (.listen 0 none 1) := by
  refine ⟨_, rfl, rfl, rfl, ?_⟩
  intro unchanged
  obtain ⟨same, _⟩ := unchanged _ lspErrNomem rfl (by decide)
  cases congrArg LspConn.type same

end Examples

end Endpoints

end Liblsp
