import Liblsp.ListenState

/-!
# What earlier uses of a slot leave in its connection

`lsp_conn_alloc` does not store to the type, the list cell and the buffers of
the connection it returns.  `lsp_conn_close` would unlink and flush it, but
`lsp_conn_free` only calls it for a connection that is not closed, and no
socket ever gets beyond that state.
-/

namespace Liblsp

open Base

namespace SocketLayer

/-- The heads of the port lists and the cells of the sockets in them. -/
def Linkable (linked : List Nat) : ListNode → Prop
  | .sockets port => port < portCount
  | .portlist sock => sock ∈ linked
  | .null => False

theorem linkable_cons (sock : Nat) (linked : List Nat) :
    Linkable (sock :: linked) = fun node =>
      node = .portlist sock ∨ Linkable linked node := by
  funext node
  cases node with
  | sockets port => simp [Linkable]
  | portlist other => simp [Linkable]
  | null => simp [Linkable]

/-- Later code finds nothing of an earlier use in a connection. -/
structure CarriesNothing (w : SocketLayer) (i : Nat) : Prop where
  type : (w.conns i).type = connClient
  state : (w.conns i).state = .connClosed
  attr : (w.conns i).attr = defConnAttr
  parent : (w.conns i).children = none
  rcvTimeout : (w.conns i).rcvTimeout = lspTimeoutMax
  sndTimeout : (w.conns i).sndTimeout = lspTimeoutMax
  options : (w.conns i).sOpt = 0
  unlinked : ∀ port, port < portCount →
    ¬w.links.Reaches (.sockets port) (.portlist i)
  empty : ∃ handle, (w.conns i).rxQueue = some handle ∧
    w.queues handle = some []

/-- A receive queue belongs to one slot, and holds buffers if the slot has
received some. -/
structure ReceiveQueues (w : SocketLayer) (received : List Nat) : Prop where
  contents : ∀ i handle, (w.conns i).rxQueue = some handle →
    ∃ buffers, w.queues handle = some buffers ∧
      (buffers = [] ↔ i ∉ received)
  owners : ∀ i other handle, (w.conns i).rxQueue = some handle →
    (w.conns other).rxQueue = some handle → i = other
  kept : ∀ i, i ∈ received → (w.conns i).rxQueue ≠ none

/-- What the slots keep of all earlier uses. -/
structure Remains (w : SocketLayer) (entered received : List Nat) :
    Prop where
  states : ∀ i, (w.conns i).state.code ≤ ConnState.connClosed.code
  types : ∀ i, (w.conns i).type =
    if i ∈ entered then ConnState.connListen.code else connClient
  cells : ∃ linked, linked ⊆ entered ∧ w.links.Encloses (Linkable linked)
  queues : ReceiveQueues w received

section Calls

variable {w w' : SocketLayer} {linked entered received : List Nat}
  {sock : Nat}

/-! ## Receive queues -/

theorem ReceiveQueues.keeps (before : ReceiveQueues w received)
    (handles : ∀ i, (w'.conns i).rxQueue = (w.conns i).rxQueue)
    (queues : ∀ handle, w.queues handle ≠ none →
      w'.queues handle = w.queues handle) :
    ReceiveQueues w' received := by
  constructor
  · intro i handle owned
    rw [handles] at owned
    obtain ⟨buffers, held, empty⟩ := before.contents i handle owned
    have same : w'.queues handle = w.queues handle := by
      apply queues
      simp [held]
    exact ⟨buffers, same.trans held, empty⟩
  · intro i other handle owned
    rw [handles] at owned ⊢
    exact before.owners i other handle owned
  · intro i member
    rw [handles]
    exact before.kept i member

theorem ReceiveQueues.apart (before : ReceiveQueues w received)
    {i handle new : Nat} (owned : (w.conns i).rxQueue = some handle)
    (unused : w.queues new = none) : handle ≠ new := by
  intro same
  obtain ⟨buffers, held, _⟩ := before.contents i handle owned
  rw [same, unused] at held
  cases held

theorem ReceiveQueues.ensureQueue (before : ReceiveQueues w received)
    {i : Nat} {queue : Option Nat}
    (ensured : w.ensureQueue i queue = some w') :
    ReceiveQueues w' received := by
  rcases ensureQueue_cases ensured with same | ⟨new, absent, unused, same⟩
  · rw [same]
    exact before
  · have own : (w'.conns i).rxQueue = some new := by
      simp [same, modifyConn, setConn]
    have others : ∀ other, other ≠ i → w'.conns other = w.conns other := by
      intro other different
      simp [same, modifyConn, setConn, setQueue, different]
    have queues : w'.queues = Function.update w.queues new (some []) := by
      rw [same]
      rfl
    constructor
    · intro other handle owned
      by_cases isNew : other = i
      · subst isNew
        rw [own] at owned
        cases owned
        refine ⟨[], ?_, ?_⟩
        · rw [queues, Function.update_self]
        · have fresh : other ∉ received :=
            fun member => before.kept other member absent
          simp [fresh]
      · rw [others other isNew] at owned
        have different := before.apart owned unused
        rw [queues, Function.update_of_ne different]
        exact before.contents other handle owned
    · intro one other handle first second
      by_cases oneNew : one = i
      · by_cases otherNew : other = i
        · rw [oneNew, otherNew]
        · rw [others other otherNew] at second
          rw [oneNew, own] at first
          cases first
          exact absurd rfl (before.apart second unused)
      · rw [others one oneNew] at first
        by_cases otherNew : other = i
        · rw [otherNew, own] at second
          cases second
          exact absurd rfl (before.apart first unused)
        · rw [others other otherNew] at second
          exact before.owners one other handle first second
    · intro other member
      by_cases isNew : other = i
      · rw [isNew, own]
        exact Option.some_ne_none new
      · rw [others other isNew]
        exact before.kept other member

theorem ReceiveQueues.lspConnRxqPush (before : ReceiveQueues w received)
    {connQueuelen buffer : Nat} {wait : WaitResult} {rc : Int}
    (pushed : w.lspConnRxqPush connQueuelen sock buffer wait =
      some (w', rc)) :
    ReceiveQueues w'
      (if rc = lspErrNone then sock :: received else received) := by
  obtain ⟨handle, buffers, owned, held,
      ⟨success, stored, filled, same⟩ | ⟨failed, same⟩⟩ :=
    lspConnRxqPush_cases pushed
  · rw [if_pos success, same]
    constructor
    · intro other otherHandle otherOwned
      change (w.conns other).rxQueue = some otherHandle at otherOwned
      by_cases same : other = sock
      · subst same
        rw [owned] at otherOwned
        cases otherOwned
        refine ⟨stored, ?_, ?_⟩
        · simp [setQueue]
        · simp [filled]
      · have different : otherHandle ≠ handle := by
          intro shared
          rw [shared] at otherOwned
          exact same (before.owners other sock handle otherOwned owned)
        obtain ⟨contents, otherHeld, empty⟩ :=
          before.contents other otherHandle otherOwned
        refine ⟨contents, ?_, ?_⟩
        · simpa [setQueue, different] using otherHeld
        · simpa [same] using empty
    · exact before.owners
    · intro other member
      change (w.conns other).rxQueue ≠ none
      rcases List.mem_cons.mp member with same | earlier
      · rw [same, owned]
        exact Option.some_ne_none handle
      · exact before.kept other earlier
  · rw [if_neg failed, same]
    exact before

/-! ## What each call leaves -/

theorem Remains.modifyConn (before : Remains w entered received)
    {change : LspConn → LspConn}
    (state : (change (w.conns sock)).state.code ≤
      ConnState.connClosed.code)
    (type : (change (w.conns sock)).type = (w.conns sock).type)
    (rxQueue : (change (w.conns sock)).rxQueue = (w.conns sock).rxQueue) :
    Remains (w.modifyConn sock change) entered received := by
  constructor
  · intro i
    by_cases same : i = sock
    · subst same
      simpa [SocketLayer.modifyConn, setConn] using state
    · simpa [SocketLayer.modifyConn, setConn, same] using before.states i
  · intro i
    rw [modifyConn_field LspConn.type type]
    exact before.types i
  · exact before.cells
  · apply before.queues.keeps
    · intro i
      exact modifyConn_field LspConn.rxQueue rxQueue i
    · exact fun _ _ => rfl

theorem Remains.lspBind (before : Remains w entered received)
    (beyond : PortState) (sockaddr : LspSockAddr) :
    Remains (w.lspBind beyond sock sockaddr).1 entered received := by
  rcases lspBind_cases w beyond sock sockaddr with same | same
  · rw [same]
    exact before
  · rw [same]
    apply before.modifyConn
    · exact before.states sock
    · rfl
    · rfl

theorem Remains.lspConnect (before : Remains w entered received)
    (sockaddr : LspSockAddr) :
    Remains (w.lspConnect sock sockaddr).1 entered received := by
  rcases lspConnect_cases w sock sockaddr with same | ⟨attr, _, same⟩
  · rw [same]
    exact before
  · rw [same]
    apply before.modifyConn
    · exact before.states sock
    · rfl
    · rfl

theorem Remains.noServer (before : Remains w entered received) (i : Nat) :
    NoServer w i := by
  rw [NoServer, before.types i]
  split
  · decide
  · decide

theorem Remains.lspConnFree (before : Remains w entered received)
    {config : ConnConfig} {junk : Nat → ConnJunk} {fuel : Nat} {rc : Int}
    (freed : lspConnFree config junk fuel w sock = some (w', rc)) :
    Remains w' entered received := by
  rcases lspConnFree_closed (before.states sock) (before.noServer sock)
    freed with same | same
  · rw [same]
    exact before
  · rw [same]
    apply before.modifyConn
    · exact Nat.zero_le _
    · rfl
    · rfl

theorem Remains.ensureQueue (before : Remains w entered received) {i : Nat}
    {queue : Option Nat} (ensured : w.ensureQueue i queue = some w') :
    Remains w' entered received := by
  have queues := before.queues.ensureQueue ensured
  rcases ensureQueue_cases ensured with same | ⟨new, _, _, same⟩
  · rw [same]
    exact before
  · constructor
    · intro other
      rw [same, modifyConn_field LspConn.state]
      · exact before.states other
      · rfl
    · intro other
      rw [same, modifyConn_field LspConn.type]
      · exact before.types other
      · rfl
    · rw [same]
      exact before.cells
    · exact queues

theorem Remains.lspConnAlloc (before : Remains w entered received)
    {config : ConnConfig} {answers : AllocAnswers} {created : Option Nat}
    (allocated : w.lspConnAlloc config answers = some (w', created)) :
    Remains w' entered received := by
  rcases lspConnAlloc_cases allocated with
    ⟨_, same⟩ | ⟨i, ready, _, ensured, result⟩
  · rw [same]
    exact before
  · have prepared := before.ensureQueue ensured
    rcases result with ⟨_, same | same⟩ | ⟨_, _, same⟩
    · rw [same]
      exact prepared
    · rw [same]
      apply prepared.modifyConn
      · rw [LspConn.ensureEgroup_state]
        exact prepared.states i
      · exact LspConn.ensureEgroup_type _ _ _
      · exact LspConn.ensureEgroup_rxQueue _ _ _
    · rw [same]
      apply prepared.modifyConn
      · exact Nat.le_refl _
      · exact LspConn.ensureEgroup_type _ _ _
      · exact LspConn.ensureEgroup_rxQueue _ _ _

/-- `lsp_listen` adds the list cell of its socket, if any, to the nodes that a
port list can lead to. -/
theorem register_encloses {conns : Nat → LspConn}
    {links registered : Links ListNode} {port fuel : Nat}
    (enclosed : links.Encloses (Linkable linked)) (below : port < portCount)
    (registers : register conns links port sock fuel = some registered) :
    registered = links ∨ registered.Encloses (Linkable (sock :: linked)) := by
  rw [linkable_cons]
  have head : Linkable linked (.sockets port) := below
  unfold register at registers
  split at registers
  · cases registers
    exact .inr (enclosed.insertBetween head (enclosed.next _ head))
  · obtain ⟨result, looped, same⟩ := Option.map_eq_some_iff.mp registers
    subst same
    rcases @lspListFor_cases _ _ _ _ id _ _ _ _ _ enclosed head
        insertByPriority_keeps looped with
      same | ⟨node, inside, inserted⟩
    · exact .inl same
    · unfold insertByPriority at inserted
      split at inserted
      · right
        rw [← congrArg Prod.fst inserted]
        exact enclosed.insertBetween (enclosed.prev node inside) inside
      · cases congrArg Prod.snd inserted

theorem Remains.lspListen (before : Remains w entered received)
    {queue : Option Nat} {fuel : Nat} {rc : Int}
    (listened : w.lspListen sock queue fuel = some (w', rc)) :
    Remains w' (Endpoints.enters w (.listen sock queue fuel) ++ entered)
      received := by
  rcases lspListen_cases listened with
    ⟨tooHigh, same, _⟩ | ⟨valid, ⟨children, conns⟩, queues, links⟩
  · rw [Endpoints.enters, if_pos tooHigh, same]
    exact before
  · rw [Endpoints.enters, if_neg valid]
    change Remains w' (sock :: entered) received
    constructor
    · intro i
      by_cases same : i = sock
      · subst same
        simpa [conns] using before.states i
      · simpa [conns, same] using before.states i
    · intro i
      by_cases same : i = sock
      · subst same
        simp [conns]
      · simpa [conns, same] using before.types i
    · obtain ⟨linked, within, enclosed⟩ := before.cells
      have wider : linked ⊆ sock :: entered :=
        List.subset_cons_of_subset sock within
      rcases links with same | registers
      · rw [same]
        exact ⟨linked, wider, enclosed⟩
      · have below : (w.conns sock).attr.lport.toNat < portCount := by
          have small := UInt8.le_iff_toNat_le.mp (UInt8.not_lt.mp valid)
          unfold portCount
          omega
        rcases register_encloses enclosed below registers with same | added
        · rw [same]
          exact ⟨linked, wider, enclosed⟩
        · exact ⟨sock :: linked, List.cons_subset_cons sock within, added⟩
    · apply before.queues.keeps
      · intro i
        by_cases same : i = sock
        · subst same
          simp [conns]
        · simp [conns, same]
      · intro handle inUse
        rcases queues with same | ⟨new, unused, same⟩
        · rw [same]
        · have different : handle ≠ new := by
            intro isNew
            rw [isNew] at inUse
            exact inUse unused
          rw [same, Function.update_of_ne different]

theorem Remains.lspAccept (before : Remains w entered received) {rc : Int}
    {result : AcceptResult}
    (accepted : w.lspAccept sock rc = some (w', result)) :
    Remains w' entered received := by
  rw [lspAccept_of_noServer (before.noServer sock)] at accepted
  cases accepted
  exact before

theorem Remains.lspConnRxqPush (before : Remains w entered received)
    {connQueuelen buffer : Nat} {wait : WaitResult} {rc : Int}
    (pushed : w.lspConnRxqPush connQueuelen sock buffer wait =
      some (w', rc)) :
    Remains w' entered
      (if rc = lspErrNone then sock :: received else received) := by
  have conns := lspConnRxqPush_conns pushed
  constructor
  · rw [conns]
    exact before.states
  · rw [conns]
    exact before.types
  · rw [lspConnRxqPush_links pushed]
    exact before.cells
  · exact before.queues.lspConnRxqPush pushed

/-- The connection that is returned is clean exactly when no earlier use got
its slot into a port list or a buffer into its queue. -/
theorem Remains.carriesNothing_iff (before : Remains w entered received)
    {config : ConnConfig} {answers : AllocAnswers} {i : Nat}
    (allocated : w.lspConnAlloc config answers = some (w', some i)) :
    CarriesNothing w' i ↔ i ∉ entered ∧ i ∉ received := by
  have after := before.lspConnAlloc allocated
  constructor
  · intro clean
    constructor
    · intro listened
      have type := after.types i
      rw [if_pos listened, clean.type] at type
      cases type
    · obtain ⟨handle, owned, empty⟩ := clean.empty
      obtain ⟨buffers, held, hasNone⟩ := after.queues.contents i handle owned
      rw [empty] at held
      cases held
      exact hasNone.mp rfl
  · rintro ⟨notListened, notReceived⟩
    rcases lspConnAlloc_cases allocated with
      ⟨none, _⟩ | ⟨slot, ready, _, _, ⟨none, _⟩ | ⟨some, queue, same⟩⟩
    · cases none
    · cases none
    · cases some
      have stored : w'.conns i =
          ({ (ready.conns i).ensureEgroup config answers.egroup with
            state := .connClosed } : LspConn).reset := by
        simp [same, SocketLayer.modifyConn, setConn]
      constructor
      · rw [after.types i, if_neg notListened]
      · rw [stored]
        rfl
      · rw [stored]
        rfl
      · rw [stored]
        rfl
      · rw [stored]
        rfl
      · rw [stored]
        rfl
      · rw [stored]
        rfl
      · intro port below reached
        obtain ⟨linked, within, enclosed⟩ := after.cells
        have inside : Linkable linked (.sockets port) := below
        exact notListened (within (enclosed.of_reaches inside reached))
      · have present : (w'.conns i).rxQueue ≠ none := by
          rw [stored]
          change ((ready.conns i).ensureEgroup config
            answers.egroup).rxQueue ≠ none
          rw [LspConn.ensureEgroup_rxQueue]
          exact queue
        obtain ⟨handle, owned⟩ := Option.ne_none_iff_exists'.mp present
        obtain ⟨buffers, held, hasNone⟩ :=
          after.queues.contents i handle owned
        refine ⟨handle, owned, ?_⟩
        rw [held, hasNone.mpr notReceived]

end Calls

end SocketLayer

namespace Endpoints

open SocketLayer

variable {config : EndpointConfig} {e e' : Endpoints}

theorem remains_initial (links : Links ListNode) :
    Remains (initial links).layer [] [] := by
  constructor
  · intro i
    exact Nat.zero_le _
  · intro i
    rfl
  · refine ⟨[], List.Subset.refl [], ?_, ?_⟩
    · intro node inside
      cases node with
      | sockets port =>
          have joined := initHeads_joined links inside
          change Linkable [] ((initHeads links portCount).next _)
          rw [joined.1]
          exact inside
      | portlist sock => cases inside
      | null => cases inside
    · intro node inside
      cases node with
      | sockets port =>
          have joined := initHeads_joined links inside
          change Linkable [] ((initHeads links portCount).prev _)
          rw [joined.2]
          exact inside
      | portlist sock => cases inside
      | null => cases inside
  · constructor
    · intro i handle owned
      cases owned
    · intro i other handle owned
      cases owned
    · intro i member
      cases member

private theorem remains_call {call : SocketCall} {use : SocketUse}
    {entered received : List Nat} (before : Remains e.layer entered received)
    (stepped : e.use.step config.conn call = some use) :
    Remains use.layer (enters e.layer call ++ entered) received := by
  cases call with
  | socket domain type protocol answers =>
      obtain ⟨created, called, _⟩ := SocketUse.step_socket stepped
      rcases lspSocket_cases called with ⟨_, same⟩ | allocated
      · rw [same]
        exact before
      · exact before.lspConnAlloc allocated
  | bind sock sockaddr beyond =>
      obtain ⟨_, layer, _⟩ := SocketUse.step_bind stepped
      rw [layer]
      exact before.lspBind beyond sockaddr
  | listen sock queue fuel =>
      obtain ⟨_, ⟨rc, listened⟩, _⟩ := SocketUse.step_listen stepped
      exact before.lspListen listened
  | connect sock sockaddr =>
      obtain ⟨_, layer, _⟩ := SocketUse.step_connect stepped
      rw [layer]
      exact before.lspConnect sockaddr
  | close sock junk fuel =>
      obtain ⟨_, ⟨rc, freed⟩, _⟩ := SocketUse.step_close stepped
      exact before.lspConnFree freed

theorem remains_step {call : EndpointCall}
    (before : Remains e.layer e.entered e.received)
    (stepped : e.step config call = some e') :
    Remains e'.layer e'.entered e'.received := by
  cases call with
  | call socketCall =>
      obtain ⟨called, entered, received⟩ := step_call stepped
      rw [entered, received]
      exact remains_call before called
  | accept sock rc =>
      obtain ⟨_, ⟨result, accepted⟩, entered, received⟩ :=
        step_accept stepped
      rw [entered, received]
      exact before.lspAccept accepted
  | rxqPush sock buffer wait =>
      obtain ⟨_, rc, pushed, entered, received⟩ := step_rxqPush stepped
      rw [entered, received]
      exact before.lspConnRxqPush pushed
  | storeLport sock port =>
      obtain ⟨_, same, entered, received⟩ := step_storeLport stepped
      rw [same, entered, received]
      apply before.modifyConn
      · exact before.states sock
      · rfl
      · rfl

theorem remains_of_run {links : Links ListNode} {calls : List EndpointCall}
    (run : Run (step config) Anywhere (initial links) calls e) :
    Remains e.layer e.entered e.received := by
  induction run with
  | nil => exact remains_initial links
  | snoc _ _ stepped induction => exact remains_step induction stepped

/-- After the calls of a program `lsp_conn_alloc` returns the given slot. -/
structure Reallocates (config : EndpointConfig) (links : Links ListNode)
    (calls : List EndpointCall) (answers : AllocAnswers) (e : Endpoints)
    (w : SocketLayer) (i : Nat) : Prop where
  run : Run (step config) Anywhere (initial links) calls e
  allocated : e.layer.lspConnAlloc config.conn answers = some (w, some i)

/-- Two histories of a slot that end with its connection free give the same
clean connection exactly when in neither of them `lsp_listen` got past its
test or a buffer was pushed. -/
theorem carryNothing_iff_of_histories {firstLinks secondLinks : Links ListNode}
    {firstCalls secondCalls : List EndpointCall}
    {firstAnswers secondAnswers : AllocAnswers} {w w' : SocketLayer} {i : Nat}
    (first : Reallocates config firstLinks firstCalls firstAnswers e w i)
    (second : Reallocates config secondLinks secondCalls secondAnswers
      e' w' i) :
    (CarriesNothing w i ∧ CarriesNothing w' i) ↔
      (i ∉ e.entered ∧ i ∉ e.received) ∧
        (i ∉ e'.entered ∧ i ∉ e'.received) := by
  have remains := remains_of_run first.run
  have remains' := remains_of_run second.run
  rw [remains.carriesNothing_iff first.allocated,
    remains'.carriesNothing_iff second.allocated]

section Examples

/-- A socket is bound to any port, connected and closed again. -/
def clientCalls : List EndpointCall :=
  [.call (.socket afLsp lspSockRaw lspProtoLsp ⟨some 0, some 0⟩),
    .call (.bind 0 ⟨lspPortAny, 7⟩ .portClosed),
    .call (.connect 0 ⟨lspPortAny, 9⟩),
    .call (.close 0 (fun _ => ⟨0, 0, 0⟩) 3)]

/-- A socket receives a buffer and is closed. -/
def receiverCalls : List EndpointCall :=
  [.call (.socket afLsp lspSockRaw lspProtoLsp ⟨some 0, some 0⟩),
    .rxqPush 0 9 .etimedout,
    .call (.close 0 (fun _ => ⟨0, 0, 0⟩) 3)]

/-- A slot that was used by a client is as good as one that never was. -/
theorem carryNothing_clientCalls :
    ∃ e w e' w', Reallocates ⟨⟨false, false⟩, 4⟩ ⟨id, id⟩ [] ⟨some 0, some 0⟩
        e w 0 ∧
      Reallocates ⟨⟨false, false⟩, 4⟩ ⟨id, id⟩ clientCalls ⟨some 1, some 1⟩
        e' w' 0 ∧
      CarriesNothing w 0 ∧ CarriesNothing w' 0 := by
  have unused : (execute (step ⟨⟨false, false⟩, 4⟩) Anywhere
      (initial ⟨id, id⟩) []).map (fun e => (e.entered, e.received,
        (e.layer.lspConnAlloc ⟨false, false⟩ ⟨some 0, some 0⟩).map
          Prod.snd)) = some ([], [], some (some 0)) := by
    decide
  have used : (execute (step ⟨⟨false, false⟩, 4⟩) Anywhere
      (initial ⟨id, id⟩) clientCalls).map (fun e => (e.entered, e.received,
        (e.layer.lspConnAlloc ⟨false, false⟩ ⟨some 1, some 1⟩).map
          Prod.snd)) = some ([], [], some (some 0)) := by
    decide
  obtain ⟨e, run, view⟩ := exists_run_of_execute unused
  obtain ⟨e', run', view'⟩ := exists_run_of_execute used
  simp only [Prod.mk.injEq] at view view'
  obtain ⟨entered, received, allocates⟩ := view
  obtain ⟨entered', received', allocates'⟩ := view'
  obtain ⟨⟨w, slot⟩, allocated, isFirst⟩ :=
    Option.map_eq_some_iff.mp allocates
  obtain ⟨⟨w', slot'⟩, allocated', isFirst'⟩ :=
    Option.map_eq_some_iff.mp allocates'
  cases isFirst
  cases isFirst'
  have first := Reallocates.mk run allocated
  have second := Reallocates.mk run' allocated'
  have clean := (carryNothing_iff_of_histories first second).mpr
    (by simp [entered, received, entered', received'])
  exact ⟨e, w, e', w', first, second, clean⟩

/-- The next owner of a slot finds the buffer of the one before. -/
theorem receiverCalls_leave_buffer :
    ∃ e w e' w', Reallocates ⟨⟨false, false⟩, 4⟩ ⟨id, id⟩ [] ⟨some 0, some 0⟩
        e w 0 ∧
      Reallocates ⟨⟨false, false⟩, 4⟩ ⟨id, id⟩ receiverCalls ⟨some 1, some 1⟩
        e' w' 0 ∧
      ((w.conns 0).rxQueue = some 0 ∧ w.queues 0 = some []) ∧
      ((w'.conns 0).rxQueue = some 0 ∧ w'.queues 0 = some [9]) ∧
      ¬(CarriesNothing w 0 ∧ CarriesNothing w' 0) := by
  have unused : (execute (step ⟨⟨false, false⟩, 4⟩) Anywhere
      (initial ⟨id, id⟩) []).map (fun e =>
        (e.layer.lspConnAlloc ⟨false, false⟩ ⟨some 0, some 0⟩).map
          fun result => (result.2, (result.1.conns 0).rxQueue,
            result.1.queues 0)) =
        some (some (some 0, some 0, some [])) := by
    decide
  have used : (execute (step ⟨⟨false, false⟩, 4⟩) Anywhere
      (initial ⟨id, id⟩) receiverCalls).map (fun e =>
        (e.layer.lspConnAlloc ⟨false, false⟩ ⟨some 1, some 1⟩).map
          fun result => (result.2, (result.1.conns 0).rxQueue,
            result.1.queues 0)) =
        some (some (some 0, some 0, some [9])) := by
    decide
  obtain ⟨e, run, view⟩ := exists_run_of_execute unused
  obtain ⟨e', run', view'⟩ := exists_run_of_execute used
  obtain ⟨⟨w, slot⟩, allocated, shown⟩ := Option.map_eq_some_iff.mp view
  obtain ⟨⟨w', slot'⟩, allocated', shown'⟩ := Option.map_eq_some_iff.mp view'
  simp only [Prod.mk.injEq] at shown shown'
  obtain ⟨isFirst, owned, held⟩ := shown
  obtain ⟨isFirst', owned', held'⟩ := shown'
  subst slot
  subst slot'
  refine ⟨e, w, e', w', ⟨run, allocated⟩, ⟨run', allocated'⟩,
    ⟨owned, held⟩, ⟨owned', held'⟩, ?_⟩
  rintro ⟨_, clean⟩
  obtain ⟨handle, own, empty⟩ := clean.empty
  rw [owned'] at own
  cases own
  rw [held'] at empty
  cases empty

end Examples

end Endpoints

end Liblsp
