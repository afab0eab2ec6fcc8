import Liblsp.PortHistories
import Liblsp.ReceiveHistories

/-!
# Every call on a socket returns

The loops of `lsp_listen` and `lsp_conn_rxq_flush` can run forever, and
`lsp_accept` can store through `NULL`.  A program never gets there: its port
lists are circular, its sockets are never open, so that closing them does not
flush anything, and none of them is a server.
-/

namespace Liblsp

open Base

/-- The queue that a call gets if it asks for one. -/
def EndpointCall.newQueue : EndpointCall → Option Nat
  | .call (.socket _ _ _ answers) => answers.queue
  | .call (.listen _ queue _) => queue
  | _ => none

/-- The same call with another bound on its loops. -/
def EndpointCall.withFuel (fuel : Nat) : EndpointCall → EndpointCall
  | .call (.listen sock queue _) => .call (.listen sock queue fuel)
  | .call (.close sock junk _) => .call (.close sock junk fuel)
  | other => other

namespace SocketLayer

section Calls

variable {w : SocketLayer} {entered received : List Nat} {sock : Nat}

theorem createQueue_returns {queue : Option Nat}
    (unused : ∀ handle ∈ queue, w.queues handle = none) :
    ∃ created, w.createQueue queue = some created := by
  cases queue with
  | none => exact ⟨_, rfl⟩
  | some handle =>
      rw [createQueue, if_pos (unused handle rfl)]
      exact ⟨_, rfl⟩

theorem lspConnAlloc_returns {config : ConnConfig} {answers : AllocAnswers}
    (unused : ∀ handle ∈ answers.queue, w.queues handle = none) :
    ∃ allocated, w.lspConnAlloc config answers = some allocated := by
  unfold lspConnAlloc
  split
  · exact ⟨_, rfl⟩
  · rename_i i _
    have ready : ∃ ready, w.ensureQueue i answers.queue = some ready := by
      unfold ensureQueue
      split
      · obtain ⟨created, made⟩ := createQueue_returns unused
        rw [made]
        exact ⟨_, rfl⟩
      · exact ⟨_, rfl⟩
    obtain ⟨ready, ensured⟩ := ready
    rw [ensured]
    exact ⟨_, rfl⟩

theorem lspSocket_returns {config : ConnConfig} {domain type protocol : Int}
    {answers : AllocAnswers}
    (unused : ∀ handle ∈ answers.queue, w.queues handle = none) :
    ∃ created, w.lspSocket config domain type protocol answers =
      some created := by
  unfold lspSocket
  split
  · exact ⟨_, rfl⟩
  · split
    · exact ⟨_, rfl⟩
    · split
      · exact ⟨_, rfl⟩
      · exact lspConnAlloc_returns unused

/-- On a port list that is circular the loop of `lsp_listen` ends. -/
theorem lspListen_returns {listened : List Listening}
    (ports : PortsHold w listened) (unlinked : w.InNoList sock)
    {queue : Option Nat}
    (unused : ∀ handle ∈ queue, w.queues handle = none) :
    ∃ bound, ∀ fuel, bound ≤ fuel →
      ∃ result, w.lspListen sock queue fuel = some result := by
  by_cases tooHigh : (w.conns sock).attr.lport > lspPacketPortMax
  · refine ⟨0, fun fuel _ => ⟨(w, lspErrInvalid), ?_⟩⟩
    rw [lspListen, if_pos tooHigh]
  · have small := UInt8.le_iff_toNat_le.mp (UInt8.not_lt.mp tooHigh)
    have below : (w.conns sock).attr.lport.toNat < portCount :=
      Nat.lt_succ_of_lt (Nat.lt_succ_of_le small)
    have ring : w.links.IsRing (.sockets (w.conns sock).attr.lport.toNat)
        ((portListeners listened (w.conns sock).attr.lport.toNat).map
          .portlist) :=
      ports.rings.ring _ (mem_portHeads.mpr below)
    have fresh : sock ∉
        portListeners listened (w.conns sock).attr.lport.toNat :=
      fun member => unlinked _ below
        (ring.reaches (List.mem_map_of_mem member))
    have prepared : ∃ prepared, w.prepareListen sock queue =
        some prepared := by
      have made : ∃ created, ((w.modifyConn sock fun conn =>
          { conn with type := connServer }).modifyConn sock fun conn =>
          { conn with type := ConnState.connListen.code }).createQueue
            queue = some created :=
        createQueue_returns unused
      obtain ⟨created, made⟩ := made
      simp only [prepareListen, made]
      exact ⟨_, rfl⟩
    obtain ⟨⟨ready, handle⟩, prepared⟩ := prepared
    obtain ⟨links, _⟩ := prepareListen_cases prepared
    rw [← links] at ring
    obtain ⟨registered, ⟨bound, ends⟩, _⟩ :=
      @register_returns ready.conns _ _ _ _ ring fresh
    refine ⟨bound, fun fuel enough => ?_⟩
    simp only [lspListen, if_neg tooHigh, prepared, Option.bind_some]
    split
    · exact ⟨_, rfl⟩
    · rw [ends fuel enough]
      exact ⟨_, rfl⟩

/-- Closing a socket that is not open gets to no loop. -/
theorem lspConnFree_returns (remains : Remains w entered received)
    (config : ConnConfig) (junk : Nat → ConnJunk) {fuel : Nat}
    (enough : 1 ≤ fuel) :
    ∃ result, lspConnFree config junk fuel w sock = some result := by
  obtain ⟨fuel, rfl⟩ := Nat.exists_eq_add_of_le' enough
  have unchanged : ∃ code, (if (w.conns sock).state ≠ .connClosed then
      w.lspConnClose config (junk fuel) sock fuel
    else some (w, (junk fuel).rc)) = some (w, code) := by
    rw [lspConnClose, if_pos (remains.states sock)]
    split
    · exact ⟨_, rfl⟩
    · exact ⟨_, rfl⟩
  obtain ⟨code, unchanged⟩ := unchanged
  rw [lspConnFree, unchanged, Option.bind_some]
  simp only
  split
  · exact ⟨_, rfl⟩
  · rw [if_neg (remains.noServer sock), Option.map_some]
    exact ⟨_, rfl⟩

theorem lspConnRxqPush_returns (remains : Remains w entered received)
    (present : (w.conns sock).rxQueue ≠ none) {connQueuelen : Nat}
    (buffer : Nat) {wait : WaitResult}
    (entries : wait = .ok → 0 < connQueuelen) :
    ∃ result, w.lspConnRxqPush connQueuelen sock buffer wait =
      some result := by
  obtain ⟨handle, owned⟩ := Option.ne_none_iff_exists'.mp present
  obtain ⟨buffers, held, _⟩ := remains.queues.contents sock handle owned
  simp only [lspConnRxqPush, owned, held, Option.bind_some]
  split
  · exact ⟨_, rfl⟩
  · cases wait with
    | ok =>
        simp only [if_neg (Nat.ne_of_gt (entries rfl))]
        exact ⟨_, rfl⟩
    | etimedout => exact ⟨_, rfl⟩
    | einval => exact ⟨_, rfl⟩

end Calls

end SocketLayer

namespace PortUse

open SocketLayer

/-- A call on a socket that the program has got.  Its socket listens while it
is in no list, a new queue is one that does not exist yet, and no push wakes
up to a receive queue without entries. -/
structure CanCall (config : EndpointConfig) (s : PortUse)
    (call : EndpointCall) : Prop where
  known : ∀ sock ∈ call.sock, sock ∈ s.endpoints.use.known
  unlinked : s.ListensUnlinked (.call call)
  unused : ∀ handle ∈ call.newQueue, s.layer.queues handle = none
  entries : ∀ sock buffer, call = .rxqPush sock buffer .ok →
    0 < config.connQueuelen

variable {config : EndpointConfig} {s s' : PortUse}

/-- Every socket of the program has a receive queue. -/
def Equipped (s : PortUse) : Prop :=
  s.layer.AllHave s.endpoints.use.known fun conn => conn.rxQueue ≠ none

theorem Equipped.step {call : PortUseCall} (before : s.Equipped)
    (holds : s.Holds) (stepped : s.step config call = some s') :
    s'.Equipped := by
  cases call with
  | call call =>
      obtain ⟨stepped, _⟩ := step_call stepped
      exact Endpoints.allHave_step Endpoints.lasting_rxQueue holds.remains
        before stepped
  | storePriority sock priority =>
      simp only [PortUse.step] at stepped
      split at stepped
      · cases stepped
        change (s.layer.modifyConn sock (·.storePriority priority)).AllHave
          s.endpoints.use.known fun conn => conn.rxQueue ≠ none
        apply AllHave.modifyConn before
        exact id
      · cases stepped

private theorem returns_call (holds : s.Holds) {socketCall : SocketCall}
    (can : s.CanCall config (.call socketCall)) :
    ∃ bound, ∀ fuel, bound ≤ fuel → ∃ endpoints,
      s.endpoints.step config
        (EndpointCall.withFuel fuel (.call socketCall)) =
        some endpoints := by
  have onSocket : ∀ sock (layer : SocketLayer),
      sock ∈ s.endpoints.use.known →
        ∃ use, s.endpoints.use.onSocket sock (some layer) = some use := by
    intro sock layer member
    exact ⟨_, if_pos member⟩
  cases socketCall with
  | socket domain type protocol answers =>
      obtain ⟨created, called⟩ :=
        @lspSocket_returns s.layer config.conn domain type protocol _
          can.unused
      refine ⟨0, fun fuel _ => ?_⟩
      simp only [EndpointCall.withFuel, Endpoints.step, SocketUse.step]
      rw [show s.endpoints.use.layer.lspSocket config.conn domain type
        protocol answers = some created from called]
      exact ⟨_, rfl⟩
  | bind sock sockaddr beyond =>
      obtain ⟨use, called⟩ := onSocket sock
        (s.layer.lspBind beyond sock sockaddr).1 (can.known sock rfl)
      refine ⟨0, fun fuel _ => ?_⟩
      simp only [EndpointCall.withFuel, Endpoints.step, SocketUse.step]
      rw [show s.endpoints.use.onSocket sock
        (some (s.endpoints.use.layer.lspBind beyond sock sockaddr).1) =
          some use from called]
      exact ⟨_, rfl⟩
  | listen sock queue fuel =>
      obtain ⟨bound, ends⟩ := lspListen_returns holds.ports
        (can.unlinked sock rfl) can.unused
      refine ⟨bound, fun fuel enough => ?_⟩
      obtain ⟨result, listened⟩ := ends fuel enough
      obtain ⟨use, called⟩ := onSocket sock result.1 (can.known sock rfl)
      simp only [EndpointCall.withFuel, Endpoints.step, SocketUse.step]
      rw [show s.endpoints.use.layer.lspListen sock queue fuel =
        some result from listened, Option.map_some, called]
      exact ⟨_, rfl⟩
  | connect sock sockaddr =>
      obtain ⟨use, called⟩ := onSocket sock
        (s.layer.lspConnect sock sockaddr).1 (can.known sock rfl)
      refine ⟨0, fun fuel _ => ?_⟩
      simp only [EndpointCall.withFuel, Endpoints.step, SocketUse.step]
      rw [show s.endpoints.use.onSocket sock
        (some (s.endpoints.use.layer.lspConnect sock sockaddr).1) =
          some use from called]
      exact ⟨_, rfl⟩
  | close sock junk fuel =>
      refine ⟨1, fun fuel enough => ?_⟩
      obtain ⟨result, freed⟩ := @lspConnFree_returns s.layer _ _ sock
        holds.remains config.conn junk fuel enough
      obtain ⟨use, called⟩ := onSocket sock result.1 (can.known sock rfl)
      simp only [EndpointCall.withFuel, Endpoints.step, SocketUse.step,
        lspClosesocket]
      rw [show lspConnFree config.conn junk fuel s.endpoints.use.layer sock =
        some result from freed, Option.map_some, called]
      exact ⟨_, rfl⟩

/-- In every state that a program reaches, every call that it can make
returns: no loop runs forever, no store goes through `NULL`, and no queue is
used that does not exist. -/
theorem returns_of_run {links : Links ListNode} {calls : List PortUseCall}
    (run : Run (step config) ListensUnlinked (initial links) calls s)
    {call : EndpointCall} (can : s.CanCall config call) :
    ∃ bound, ∀ fuel, bound ≤ fuel → ∃ s',
      s.step config (.call (call.withFuel fuel)) = some s' := by
  have reached : s.Holds ∧ s.Equipped := by
    apply run.invariant
    · exact ⟨holds_initial links, Endpoints.allHave_initial links⟩
    · rintro state call next ⟨holds, equipped⟩ unlinked stepped
      exact ⟨holds.step unlinked stepped, equipped.step holds stepped⟩
  obtain ⟨holds, equipped⟩ := reached
  have returns : ∃ bound, ∀ fuel, bound ≤ fuel → ∃ endpoints,
      s.endpoints.step config (call.withFuel fuel) = some endpoints := by
    cases call with
    | call socketCall => exact returns_call holds can
    | accept sock rc =>
        refine ⟨0, fun fuel _ => ?_⟩
        have member := can.known sock rfl
        simp only [EndpointCall.withFuel, Endpoints.step]
        rw [if_pos member, show s.endpoints.layer.lspAccept sock rc =
          some (s.layer, .null) from
            lspAccept_of_noServer (holds.remains.noServer sock) rc]
        exact ⟨_, rfl⟩
    | rxqPush sock buffer wait =>
        refine ⟨0, fun fuel _ => ?_⟩
        have member := can.known sock rfl
        obtain ⟨result, pushed⟩ := lspConnRxqPush_returns holds.remains
          (equipped sock member) buffer
          (fun woken => can.entries sock buffer (woken ▸ rfl))
        simp only [EndpointCall.withFuel, Endpoints.step]
        rw [if_pos member, show s.endpoints.layer.lspConnRxqPush
          config.connQueuelen sock buffer wait = some result from pushed]
        exact ⟨_, rfl⟩
    | storeLport sock port =>
        refine ⟨0, fun fuel _ => ?_⟩
        simp only [EndpointCall.withFuel, Endpoints.step]
        rw [if_pos (can.known sock rfl)]
        exact ⟨_, rfl⟩
  obtain ⟨bound, ends⟩ := returns
  refine ⟨bound, fun fuel enough => ?_⟩
  obtain ⟨endpoints, stepped⟩ := ends fuel enough
  simp only [step, stepped]
  exact ⟨_, rfl⟩

section Examples

/-- Two sockets listen on a port, and one of them is closed. -/
def firstCloses : List PortUseCall := threeSockets ++ thirdListens.take 3

/-- The third socket can listen there as well, and the call returns. -/
theorem returns_of_firstCloses :
    ∃ s, Run (step ⟨⟨false, false⟩, 4⟩) ListensUnlinked (initial ⟨id, id⟩)
        firstCloses s ∧
      portListeners s.listened 5 = [1, 0] ∧
      ∃ bound, ∀ fuel, bound ≤ fuel → ∃ s',
        s.step ⟨⟨false, false⟩, 4⟩ (.call (.call (.listen 2 (some 5) fuel)))
          = some s' := by
  have executed : (execute (step ⟨⟨false, false⟩, 4⟩)
      (fun s call => s.ListensFresh call ∧ Anywhere s call)
      (initial ⟨id, id⟩) firstCloses).map (fun s =>
        (portListeners s.listened 5, s.endpoints.use.known,
          s.endpoints.entered, s.layer.queues 5)) =
        some ([1, 0], [2, 1, 0], [1, 0], none) := by
    decide +kernel
  obtain ⟨s, fresh, view⟩ := exists_run_of_execute executed
  simp only [Prod.mk.injEq] at view
  obtain ⟨listeners, known, entered, unused⟩ := view
  have run : Run (step ⟨⟨false, false⟩, 4⟩) ListensUnlinked
      (initial ⟨id, id⟩) _ s :=
    (Run.guard_iff fun _ _ _ _ => and_iff_left trivial).mp
      (unlinked_of_fresh fresh)
  have can : s.CanCall ⟨⟨false, false⟩, 4⟩
      (.call (.listen 2 (some 5) 0)) := by
    constructor
    · rintro sock ⟨⟩
      simp [known]
    · rintro sock ⟨⟩
      apply (holds_of_run run).inNoList
      simp [entered]
    · rintro handle ⟨⟩
      exact unused
    · rintro sock buffer ⟨⟩
  exact ⟨s, run, listeners, returns_of_run run can⟩

end Examples

end PortUse

end Liblsp
