import Liblsp.ConnReuse

/-!
# What every socket of a program has

The sockets that a program has ever got are connections that `lsp_conn_alloc`
prepared.  What it establishes and no call on a socket breaks holds of all of
them, the closed ones included.
-/

namespace Liblsp

open Base

/-- A property of a connection that allocating establishes and the stores of
the calls keep.  No call changes the priority but the allocation. -/
structure Lasting (property : LspConn → Prop) : Prop where
  allocated : ∀ conn : LspConn, conn.rxQueue ≠ none →
    property ({ conn with state := .connClosed } : LspConn).reset
  queue : ∀ (conn : LspConn) handle, property conn →
    property { conn with rxQueue := some handle }
  egroup : ∀ (conn : LspConn) handle, property conn →
    property { conn with egroup := handle }
  state : ∀ conn : LspConn, property conn →
    property { conn with state := .connFree }
  listens : ∀ (conn : LspConn) type children, property conn →
    property { conn with type := type, children := children }
  attr : ∀ (conn : LspConn) attr, property conn →
    attr.priority = conn.attr.priority → property { conn with attr := attr }

namespace SocketLayer

/-- All these sockets have a property. -/
def AllHave (w : SocketLayer) (known : List Nat)
    (property : LspConn → Prop) : Prop :=
  ∀ sock, sock ∈ known → property (w.conns sock)

section Calls

variable {w w' : SocketLayer} {known : List Nat} {property : LspConn → Prop}
  {sock : Nat}

theorem AllHave.modifyConn (before : w.AllHave known property)
    {change : LspConn → LspConn}
    (kept : property (w.conns sock) → property (change (w.conns sock))) :
    (w.modifyConn sock change).AllHave known property := by
  intro other member
  by_cases same : other = sock
  · subst same
    simpa [SocketLayer.modifyConn, setConn] using kept (before other member)
  · simpa [SocketLayer.modifyConn, setConn, same] using before other member

theorem lspConnect_priority (w : SocketLayer) (sock : Nat)
    (sockaddr : LspSockAddr) :
    (w.lspConnect sock sockaddr).1 = w ∨
      ∃ attr : LspConnAttr,
        attr.priority = (w.conns sock).attr.priority ∧
        (w.lspConnect sock sockaddr).1 = w.modifyConn sock fun conn =>
          { conn with attr := attr } := by
  unfold lspConnect
  split
  · right
    refine ⟨{ (w.conns sock).attr with
      rport := lspPacketPortMax + 1, raddr := sockaddr.addr }, ?_, ?_⟩
    · rfl
    · rfl
  · split
    · exact .inl rfl
    · right
      refine ⟨{ (w.conns sock).attr with raddr := sockaddr.addr }, ?_, ?_⟩
      · rfl
      · rfl

end Calls

end SocketLayer

namespace Lasting

open SocketLayer

variable {w w' : SocketLayer} {known : List Nat} {property : LspConn → Prop}
  {sock : Nat} (lasting : Lasting property)

include lasting

theorem ensureEgroup (config : ConnConfig) (conn : LspConn)
    (egroup : Option Nat) (before : property conn) :
    property (conn.ensureEgroup config egroup) := by
  unfold LspConn.ensureEgroup
  split
  · exact before
  · split
    · exact lasting.egroup conn egroup before
    · exact before

theorem ensureQueue (before : w.AllHave known property) {i : Nat}
    {queue : Option Nat} (ensured : w.ensureQueue i queue = some w') :
    w'.AllHave known property := by
  rcases ensureQueue_cases ensured with same | ⟨new, _, _, same⟩
  · rw [same]
    exact before
  · rw [same]
    have stored : (w.setQueue new (some [])).AllHave known property := before
    exact stored.modifyConn (lasting.queue _ new)

theorem lspConnAlloc (before : w.AllHave known property)
    {config : ConnConfig} {answers : AllocAnswers} {created : Option Nat}
    (allocated : w.lspConnAlloc config answers = some (w', created)) :
    w'.AllHave (created.toList ++ known) property := by
  rcases lspConnAlloc_cases allocated with
    ⟨none, same⟩ | ⟨i, ready, _, ensured, result⟩
  · rw [none, same]
    exact before
  · have prepared := lasting.ensureQueue before ensured
    rcases result with ⟨none, same | same⟩ | ⟨isNew, present, same⟩
    · rw [none, same]
      exact prepared
    · rw [none, same]
      exact prepared.modifyConn (lasting.ensureEgroup config _ _)
    · rw [isNew, same]
      have own : property
          (({ (ready.conns i).ensureEgroup config answers.egroup with
            state := .connClosed } : LspConn).reset) := by
        apply lasting.allocated
        rw [LspConn.ensureEgroup_rxQueue]
        exact present
      intro other member
      by_cases here : other = i
      · subst here
        simpa [SocketLayer.modifyConn, setConn] using own
      · have old : other ∈ known := by simpa [here] using member
        simpa [SocketLayer.modifyConn, setConn, here] using
          prepared other old

theorem lspListen (before : w.AllHave known property) {queue : Option Nat}
    {fuel : Nat} {rc : Int}
    (listened : w.lspListen sock queue fuel = some (w', rc)) :
    w'.AllHave known property := by
  rcases lspListen_cases listened with
    ⟨_, same, _⟩ | ⟨_, ⟨children, conns⟩, _, _⟩
  · rw [same]
    exact before
  · intro other member
    rw [conns]
    by_cases here : other = sock
    · subst here
      rw [Function.update_self]
      exact lasting.listens _ _ _ (before other member)
    · rw [Function.update_of_ne here]
      exact before other member

theorem lspBind (before : w.AllHave known property) (beyond : PortState)
    (sockaddr : LspSockAddr) :
    (w.lspBind beyond sock sockaddr).1.AllHave known property := by
  rcases lspBind_cases w beyond sock sockaddr with same | same
  · rw [same]
    exact before
  · rw [same]
    apply before.modifyConn
    intro own
    exact lasting.attr _ _ own rfl

theorem lspConnect (before : w.AllHave known property)
    (sockaddr : LspSockAddr) :
    (w.lspConnect sock sockaddr).1.AllHave known property := by
  rcases lspConnect_priority w sock sockaddr with same | ⟨attr, prio, same⟩
  · rw [same]
    exact before
  · rw [same]
    apply before.modifyConn
    intro own
    exact lasting.attr _ _ own prio

theorem lspConnFree (before : w.AllHave known property)
    {entered received : List Nat} (remains : Remains w entered received)
    {config : ConnConfig} {junk : Nat → ConnJunk} {fuel : Nat} {rc : Int}
    (freed : lspConnFree config junk fuel w sock = some (w', rc)) :
    w'.AllHave known property := by
  rcases lspConnFree_closed (remains.states sock) (remains.noServer sock)
    freed with same | same
  · rw [same]
    exact before
  · rw [same]
    exact before.modifyConn (lasting.state _)

end Lasting

namespace Endpoints

open SocketLayer

variable {config : EndpointConfig} {e e' : Endpoints}
  {property : LspConn → Prop}

private theorem allHave_call (lasting : Lasting property)
    {entered received : List Nat} (remains : Remains e.layer entered received)
    (before : e.layer.AllHave e.use.known property)
    {socketCall : SocketCall} {use : SocketUse}
    (stepped : e.use.step config.conn socketCall = some use) :
    use.layer.AllHave use.known property := by
  cases socketCall with
  | socket domain type protocol answers =>
      obtain ⟨created, called, known⟩ := SocketUse.step_socket stepped
      rw [known]
      rcases lspSocket_cases called with ⟨none, same⟩ | allocated
      · rw [none, same]
        exact before
      · exact lasting.lspConnAlloc before allocated
  | bind sock sockaddr beyond =>
      obtain ⟨_, layer, known⟩ := SocketUse.step_bind stepped
      rw [layer, known]
      exact lasting.lspBind before beyond sockaddr
  | listen sock queue fuel =>
      obtain ⟨_, ⟨rc, listened⟩, known⟩ := SocketUse.step_listen stepped
      rw [known]
      exact lasting.lspListen before listened
  | connect sock sockaddr =>
      obtain ⟨_, layer, known⟩ := SocketUse.step_connect stepped
      rw [layer, known]
      exact lasting.lspConnect before sockaddr
  | close sock junk fuel =>
      obtain ⟨_, ⟨rc, freed⟩, known⟩ := SocketUse.step_close stepped
      rw [known]
      exact lasting.lspConnFree before remains freed

/-- The sockets of a program keep what all of them have. -/
theorem allHave_step (lasting : Lasting property)
    (remains : Remains e.layer e.entered e.received)
    (before : e.layer.AllHave e.use.known property) {call : EndpointCall}
    (stepped : e.step config call = some e') :
    e'.layer.AllHave e'.use.known property := by
  cases call with
  | call socketCall =>
      obtain ⟨called, _⟩ := step_call stepped
      exact allHave_call lasting remains before called
  | accept sock rc =>
      simp only [step] at stepped
      split at stepped
      · rw [lspAccept_of_noServer (remains.noServer sock),
          Option.bind_some] at stepped
        cases stepped
        exact before
      · cases stepped
  | rxqPush sock buffer wait =>
      simp only [step] at stepped
      split at stepped
      · obtain ⟨⟨layer, rc⟩, pushed, same⟩ :=
          Option.map_eq_some_iff.mp stepped
        cases same
        intro other member
        change property (layer.conns other)
        rw [lspConnRxqPush_conns pushed]
        exact before other member
      · cases stepped
  | storeLport sock port =>
      simp only [step] at stepped
      split at stepped
      · cases stepped
        change (e.layer.modifyConn sock (·.storeLport port)).AllHave
          e.use.known property
        apply before.modifyConn
        intro own
        exact lasting.attr _ _ own rfl
      · cases stepped

theorem allHave_initial (links : Links ListNode) :
    (initial links).layer.AllHave (initial links).use.known property := by
  intro sock member
  cases member

end Endpoints

end Liblsp
