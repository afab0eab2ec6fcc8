import Liblsp.PortFlags

/-!
# Binding a socket and listening on it

`lsp_bind` stores a port number only for `LSP_PORT_ANY`, and `lsp_listen`
refuses the number it stores then.  For any other port it tests the entry that
the socket names already, which a new socket does not have.
-/

namespace Liblsp

open Base

namespace SocketLayer

/-- The entry of `ports` that a request stands for. -/
def boundPort (port : UInt8) : UInt8 :=
  if port = lspPortAny then lspPacketPortMax + 1 else port

/-- A listen whose queue could be created ends, with success, and links the
socket to the port. -/
structure ListensOn (w : SocketLayer) (sock port : Nat) : Prop where
  ends : ∀ handle, w.queues handle = none →
    ∃ result, Returns (w.lspListen sock (some handle)) result
  links : ∀ handle fuel layer rc,
    w.lspListen sock (some handle) fuel = some (layer, rc) →
      rc = lspErrNone ∧ ∃ members : List ListNode,
        layer.links.IsRing (.sockets port) members ∧
          .portlist sock ∈ members

/-- A bind reads allocated entries only, and after a successful one the socket
is bound to the requested port and can listen there. -/
structure BindsAndListens (w : SocketLayer) (sock : Nat)
    (sockaddr : LspSockAddr) : Prop where
  inside : ∀ port, w.lspBindReads sock sockaddr = some port →
    port ≤ lspPacketPortMax.toNat + 1
  binds : ∀ beyond bound,
    w.lspBind beyond sock sockaddr = (bound, lspErrNone) →
      (bound.conns sock).attr.lport = boundPort sockaddr.port ∧
        ListensOn bound sock (boundPort sockaddr.port).toNat

section Cases

variable {w : SocketLayer} {sock : Nat} {sockaddr : LspSockAddr}

theorem bindsAndListens_of_refused
    (tooHigh : lspPacketPortMax < sockaddr.port)
    (notAny : sockaddr.port ≠ lspPortAny) :
    BindsAndListens w sock sockaddr := by
  constructor
  · intro port reads
    simp [lspBindReads, notAny, tooHigh] at reads
  · intro beyond bound result
    simp only [lspBind, if_neg notAny, if_pos tooHigh,
      Prod.mk.injEq] at result
    cases result.2

/-- Bound to any port, a socket is refused by `lsp_listen`. -/
theorem not_bindsAndListens_of_any (any : sockaddr.port = lspPortAny)
    (closed : ∀ port, w.ports port = .portClosed) :
    ¬BindsAndListens w sock sockaddr := by
  intro listens
  have reads : w.lspBindReads sock sockaddr =
      some (lspPacketPortMax.toNat + 1) := by
    simp [lspBindReads, any]
  have success := lspBind_of_closed reads (by decide) (closed _) .portClosed
  obtain ⟨lport, linked⟩ := listens.binds .portClosed _
    (Prod.ext rfl success)
  have refused : lspPacketPortMax <
      ((w.lspBind .portClosed sock sockaddr).1.conns sock).attr.lport := by
    rw [lport, boundPort, if_pos any]
    decide
  obtain ⟨rc, _⟩ := linked.links 0 0 _ lspErrInvalid (by
    rw [lspListen, if_pos refused])
  cases rc

theorem not_bindsAndListens_of_port (small : sockaddr.port ≤ lspPacketPortMax)
    (unbound : (w.conns sock).attr.lport > lspPacketPortMax)
    (closed : ∀ port, w.ports port = .portClosed) :
    ¬BindsAndListens w sock sockaddr := by
  intro listens
  have notAny : sockaddr.port ≠ lspPortAny := by
    intro any
    rw [any] at small
    exact absurd small (by decide)
  have reads : w.lspBindReads sock sockaddr =
      some (w.conns sock).attr.lport.toNat := by
    simp [lspBindReads, notAny, UInt8.not_lt.mpr small]
  have inside := listens.inside _ reads
  have success := lspBind_of_closed reads (Nat.lt_succ_iff.mpr inside)
    (closed _) .portClosed
  have kept : (w.lspBind .portClosed sock sockaddr).1 = w := by
    simp [lspBind, notAny, UInt8.not_lt.mpr small]
  obtain ⟨lport, _⟩ := listens.binds .portClosed w (Prod.ext kept success)
  rw [boundPort, if_neg notAny] at lport
  rw [lport] at unbound
  exact absurd small (UInt8.not_le.mpr unbound)

end Cases

end SocketLayer

namespace SocketUse

open SocketLayer

/-- In every state of a program and for every socket it knows, binding and
then listening works out exactly for the port numbers that `lsp_bind`
refuses. -/
theorem bindsAndListens_iff {config : ConnConfig} {links : Links ListNode}
    {queues : Nat → Option (List Nat)} {calls : List SocketCall}
    {s : SocketUse}
    (run : Run (step config) Anywhere (initial links queues) calls s)
    {sock : Nat} (member : sock ∈ s.known) (sockaddr : LspSockAddr) :
    BindsAndListens s.layer sock sockaddr ↔
      lspPacketPortMax < sockaddr.port ∧ sockaddr.port ≠ lspPortAny := by
  have nothing := nothingOpen_of_run run
  constructor
  · intro listens
    constructor
    · apply UInt8.not_le.mp
      intro small
      exact not_bindsAndListens_of_port small
        (nothing.unlisted.lports sock member) nothing.closed listens
    · intro any
      exact not_bindsAndListens_of_any any nothing.closed listens
  · intro refused
    exact bindsAndListens_of_refused refused.1 refused.2

section Examples

/-- One socket, not bound yet. -/
def oneSocket : List SocketCall :=
  [.socket afLsp lspSockRaw lspProtoLsp ⟨some 0, some 0⟩]

theorem bindsAndListens_refused_port :
    ∃ s, Run (step ⟨false, false⟩) Anywhere
        (initial ⟨id, id⟩ fun _ => none) oneSocket s ∧
      s.known = [0] ∧ BindsAndListens s.layer 0 ⟨40, 7⟩ := by
  have executed :
      (execute (step ⟨false, false⟩) Anywhere
        (initial ⟨id, id⟩ fun _ => none) oneSocket).map SocketUse.known =
          some [0] := by
    decide
  obtain ⟨s, run, known⟩ := exists_run_of_execute executed
  have member : 0 ∈ s.known := by simp [known]
  exact ⟨s, run, known,
    (bindsAndListens_iff run member ⟨40, 7⟩).mpr (by decide)⟩

/-- The first bind of a socket reads behind the ports. -/
theorem oneSocket_reads_behind_ports :
    ∃ s, Run (step ⟨false, false⟩) Anywhere
        (initial ⟨id, id⟩ fun _ => none) oneSocket s ∧
      s.known = [0] ∧ s.layer.lspBindReads 0 ⟨5, 7⟩ = some 255 ∧
      ¬BindsAndListens s.layer 0 ⟨5, 7⟩ := by
  have executed :
      (execute (step ⟨false, false⟩) Anywhere
        (initial ⟨id, id⟩ fun _ => none) oneSocket).map
          (fun s => (s.known, s.layer.lspBindReads 0 ⟨5, 7⟩)) =
          some ([0], some 255) := by
    decide
  obtain ⟨s, run, view⟩ := exists_run_of_execute executed
  simp only [Prod.mk.injEq] at view
  refine ⟨s, run, view.1, view.2, ?_⟩
  intro listens
  exact absurd (listens.inside 255 view.2) (by decide)

end Examples

end SocketUse

end Liblsp
