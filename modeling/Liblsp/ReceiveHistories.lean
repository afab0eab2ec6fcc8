import Liblsp.KnownSockets

/-!
# The receive queues in the course of a program

Buffers get into the receive queue of a slot by `lsp_conn_rxq_push`, and no
call takes one out again: a socket that is closed is never open, so its queue
is not flushed.  The queue keeps the first buffers that were pushed to its
slot, whoever owned the slot then, and once it is full it stays full.  Only a
push that wakes up although nobody has made room stores into a full queue.
-/

namespace Liblsp

open Base

/-- The buffers that a call pushes to a slot. -/
def EndpointCall.pushedTo (i : Nat) : EndpointCall → List Nat
  | .rxqPush sock buffer _ => if sock = i then [buffer] else []
  | .call _ => []
  | .accept .. => []
  | .storeLport .. => []

namespace SocketLayer

/-- No buffer moves: queues keep what they hold, new ones are empty, and a
slot keeps its receive queue or gets its first one. -/
structure MovesNone (w w' : SocketLayer) : Prop where
  kept : ∀ handle contents, w.queues handle = some contents →
    w'.queues handle = some contents
  fresh : ∀ handle contents, w.queues handle = none →
    w'.queues handle = some contents → contents = []
  handles : ∀ i, (w'.conns i).rxQueue = (w.conns i).rxQueue ∨
    ((w.conns i).rxQueue = none ∧
      ∃ new, (w'.conns i).rxQueue = some new ∧ w.queues new = none ∧
        w'.queues new = some [])

/-- Each queue of a slot holds the first buffers that were pushed to the slot,
as many as it has entries, and the other queues hold nothing. -/
structure KeepsFirst (w : SocketLayer) (connQueuelen : Nat)
    (pushedTo : Nat → List Nat) : Prop where
  contents : ∀ i handle, (w.conns i).rxQueue = some handle →
    w.queues handle = some ((pushedTo i).take connQueuelen)
  unused : ∀ i, (w.conns i).rxQueue = none → pushedTo i = []
  owners : ∀ i other handle, (w.conns i).rxQueue = some handle →
    (w.conns other).rxQueue = some handle → i = other
  others : ∀ handle contents, w.queues handle = some contents →
    (∀ i, (w.conns i).rxQueue ≠ some handle) → contents = []

/-- What a push to a slot does after the given ones.  It succeeds if there is
room.  Otherwise its wait times out or is refused, unless it wakes up although
nobody has made room: then the new buffer replaces the oldest one. -/
structure NextPush (w : SocketLayer) (connQueuelen sock : Nat)
    (pushed : List Nat) : Prop where
  room : pushed.length < connQueuelen → ∀ buffer wait, ∃ w',
    w.lspConnRxqPush connQueuelen sock buffer wait = some (w', lspErrNone)
  full : connQueuelen ≤ pushed.length → ∀ buffer,
    w.lspConnRxqPush connQueuelen sock buffer .etimedout =
        some (w, lspErrTimeout) ∧
      w.lspConnRxqPush connQueuelen sock buffer .einval =
        some (w, lspErrInvalid)
  woken : connQueuelen ≤ pushed.length → 0 < connQueuelen → ∀ buffer,
    ∃ handle oldest rest, (w.conns sock).rxQueue = some handle ∧
      pushed.take connQueuelen = oldest :: rest ∧
      w.lspConnRxqPush connQueuelen sock buffer .ok =
        some (w.setQueue handle (some (buffer :: (rest ++ [buffer]))),
          lspErrNone)

section Calls

variable {w w' w'' : SocketLayer} {entered received : List Nat}
  {sock : Nat}

namespace MovesNone

theorem refl (w : SocketLayer) : MovesNone w w := by
  constructor
  · exact fun _ _ held => held
  · intro handle contents absent held
    rw [absent] at held
    cases held
  · exact fun _ => .inl rfl

theorem trans (first : MovesNone w w') (second : MovesNone w' w'') :
    MovesNone w w'' := by
  constructor
  · intro handle contents held
    exact second.kept handle contents (first.kept handle contents held)
  · intro handle contents absent held
    cases between : w'.queues handle with
    | none => exact second.fresh handle contents between held
    | some earlier =>
        have same := second.kept handle earlier between
        rw [held] at same
        cases same
        exact first.fresh handle contents absent between
  · intro i
    rcases first.handles i with same | ⟨absent, new, owned, unused, empty⟩
    · rcases second.handles i with
        again | ⟨absent, new, owned, unused, empty⟩
      · exact .inl (again.trans same)
      · rw [same] at absent
        refine .inr ⟨absent, new, owned, ?_, empty⟩
        cases before : w.queues new with
        | none => rfl
        | some contents =>
            rw [first.kept new contents before] at unused
            cases unused
    · rcases second.handles i with again | ⟨none, _⟩
      · rw [owned] at again
        exact .inr ⟨absent, new, again, unused,
          second.kept new [] empty⟩
      · rw [owned] at none
        cases none

theorem of_same (queues : w'.queues = w.queues)
    (handles : ∀ i, (w'.conns i).rxQueue = (w.conns i).rxQueue) :
    MovesNone w w' := by
  constructor
  · intro handle contents held
    rw [queues, held]
  · intro handle contents absent held
    rw [queues, absent] at held
    cases held
  · exact fun i => .inl (handles i)

theorem modifyConn {change : LspConn → LspConn}
    (kept : (change (w.conns sock)).rxQueue = (w.conns sock).rxQueue) :
    MovesNone w (w.modifyConn sock change) := by
  apply of_same
  · rfl
  · exact modifyConn_field LspConn.rxQueue kept

theorem create {new : Nat} (unused : w.queues new = none)
    (queues : w'.queues = Function.update w.queues new (some []))
    (handles : ∀ i, (w'.conns i).rxQueue = (w.conns i).rxQueue) :
    MovesNone w w' := by
  constructor
  · intro handle contents held
    have different : handle ≠ new := by
      intro same
      rw [same, unused] at held
      cases held
    rw [queues, Function.update_of_ne different, held]
  · intro handle contents absent held
    by_cases same : handle = new
    · rw [queues, same, Function.update_self] at held
      cases held
      rfl
    · rw [queues, Function.update_of_ne same, absent] at held
      cases held
  · exact fun i => .inl (handles i)

theorem ensureQueue {i : Nat} {queue : Option Nat}
    (ensured : w.ensureQueue i queue = some w') : MovesNone w w' := by
  rcases ensureQueue_cases ensured with same | ⟨new, absent, unused, same⟩
  · rw [same]
    exact refl w
  · have created : MovesNone w (w.setQueue new (some [])) :=
      create unused rfl fun _ => rfl
    constructor
    · rw [same]
      exact created.kept
    · rw [same]
      exact created.fresh
    · intro other
      by_cases isNew : other = i
      · subst isNew
        refine .inr ⟨absent, new, ?_, unused, ?_⟩
        · simp [same, SocketLayer.modifyConn, setConn]
        · simp [same, SocketLayer.modifyConn, setConn, setQueue]
      · left
        simp [same, SocketLayer.modifyConn, setConn, setQueue, isNew]

theorem lspConnAlloc {config : ConnConfig} {answers : AllocAnswers}
    {created : Option Nat}
    (allocated : w.lspConnAlloc config answers = some (w', created)) :
    MovesNone w w' := by
  rcases lspConnAlloc_cases allocated with
    ⟨_, same⟩ | ⟨i, ready, _, ensured, result⟩
  · rw [same]
    exact refl w
  · have prepared := ensureQueue ensured
    rcases result with ⟨_, same | same⟩ | ⟨_, _, same⟩
    · rw [same]
      exact prepared
    · rw [same]
      exact prepared.trans (modifyConn (LspConn.ensureEgroup_rxQueue _ _ _))
    · rw [same]
      exact prepared.trans (modifyConn (LspConn.ensureEgroup_rxQueue _ _ _))

theorem lspListen {queue : Option Nat} {fuel : Nat} {rc : Int}
    (listened : w.lspListen sock queue fuel = some (w', rc)) :
    MovesNone w w' := by
  rcases lspListen_cases listened with
    ⟨_, same, _⟩ | ⟨_, ⟨children, conns⟩, queues, _⟩
  · rw [same]
    exact refl w
  · have handles : ∀ i, (w'.conns i).rxQueue = (w.conns i).rxQueue := by
      intro i
      by_cases same : i = sock
      · simp [conns, same]
      · simp [conns, same]
    rcases queues with same | ⟨new, unused, same⟩
    · exact of_same same handles
    · exact create unused same handles

theorem lspBind (beyond : PortState) (sockaddr : LspSockAddr) :
    MovesNone w (w.lspBind beyond sock sockaddr).1 := by
  rcases lspBind_cases w beyond sock sockaddr with same | same
  · rw [same]
    exact refl w
  · rw [same]
    exact modifyConn rfl

theorem lspConnect (sockaddr : LspSockAddr) :
    MovesNone w (w.lspConnect sock sockaddr).1 := by
  rcases lspConnect_cases w sock sockaddr with same | ⟨attr, _, same⟩
  · rw [same]
    exact refl w
  · rw [same]
    exact modifyConn rfl

theorem lspConnFree (before : Remains w entered received)
    {config : ConnConfig} {junk : Nat → ConnJunk} {fuel : Nat} {rc : Int}
    (freed : lspConnFree config junk fuel w sock = some (w', rc)) :
    MovesNone w w' := by
  rcases lspConnFree_closed (before.states sock) (before.noServer sock)
    freed with same | same
  · rw [same]
    exact refl w
  · rw [same]
    exact modifyConn rfl

end MovesNone

namespace KeepsFirst

variable {connQueuelen : Nat} {pushedTo pushedTo' : Nat → List Nat}

theorem movesNone (before : KeepsFirst w connQueuelen pushedTo)
    (moves : MovesNone w w') (queues : ReceiveQueues w' received) :
    KeepsFirst w' connQueuelen pushedTo := by
  constructor
  · intro i handle owned
    rcases moves.handles i with same | ⟨absent, new, isNew, _, empty⟩
    · rw [same] at owned
      exact moves.kept handle _ (before.contents i handle owned)
    · rw [isNew] at owned
      cases owned
      rw [before.unused i absent, List.take_nil]
      exact empty
  · intro i absent
    rcases moves.handles i with same | ⟨none, _⟩
    · rw [same] at absent
      exact before.unused i absent
    · exact before.unused i none
  · exact queues.owners
  · intro handle contents held free
    cases earlier : w.queues handle with
    | none => exact moves.fresh handle contents earlier held
    | some old =>
        have same := moves.kept handle old earlier
        rw [held] at same
        cases same
        apply before.others handle contents earlier
        intro i owned
        rcases moves.handles i with same | ⟨absent, _⟩
        · exact free i (same.trans owned)
        · rw [absent] at owned
          cases owned

/-- A slot whose queue takes one more buffer, if there is room for it. -/
theorem grows (before : KeepsFirst w connQueuelen pushedTo) {handle : Nat}
    (owned : (w.conns sock).rxQueue = some handle) (buffer : Nat) :
    KeepsFirst (w.setQueue handle
        (some ((pushedTo sock ++ [buffer]).take connQueuelen))) connQueuelen
      (Function.update pushedTo sock (pushedTo sock ++ [buffer])) := by
  constructor
  · intro i other otherOwned
    change (w.conns i).rxQueue = some other at otherOwned
    by_cases same : i = sock
    · subst same
      rw [owned] at otherOwned
      cases otherOwned
      simp [setQueue]
    · have different : other ≠ handle := by
        intro shared
        rw [shared] at otherOwned
        exact same (before.owners i sock handle otherOwned owned)
      have held := before.contents i other otherOwned
      simpa [setQueue, different, same] using held
  · intro i absent
    change (w.conns i).rxQueue = none at absent
    have different : i ≠ sock := by
      intro same
      rw [same, owned] at absent
      cases absent
    rw [Function.update_of_ne different]
    exact before.unused i absent
  · exact before.owners
  · intro other contents held free
    have different : other ≠ handle := by
      intro same
      rw [same] at free
      exact free sock owned
    apply before.others other contents _ free
    simpa [setQueue, different] using held

/-- A push that is not woken up adds its buffer if there is room for it. -/
theorem lspConnRxqPush (before : KeepsFirst w connQueuelen pushedTo)
    {buffer : Nat} {wait : WaitResult} {rc : Int} (notWoken : wait ≠ .ok)
    (pushed : w.lspConnRxqPush connQueuelen sock buffer wait =
      some (w', rc)) :
    KeepsFirst w' connQueuelen
      (Function.update pushedTo sock (pushedTo sock ++ [buffer])) := by
  obtain ⟨handle, owned, rest⟩ := Option.bind_eq_some_iff.mp pushed
  have held := before.contents sock handle owned
  have grown := before.grows owned buffer
  rw [held, Option.bind_some, List.length_take] at rest
  split at rest
  · rename_i room
    have fewer : (pushedTo sock).length < connQueuelen := by omega
    have fits : (pushedTo sock ++ [buffer]).length ≤ connQueuelen := by
      rw [List.length_append]
      exact fewer
    rw [List.take_of_length_le (Nat.le_of_lt fewer)] at rest
    rw [List.take_of_length_le fits] at grown
    cases rest
    exact grown
  · rename_i full
    have many : connQueuelen ≤ (pushedTo sock).length := by omega
    rw [List.take_append_of_le_length many, ← held, setQueue,
      Function.update_eq_self] at grown
    cases wait with
    | ok => exact absurd rfl notWoken
    | etimedout =>
        cases rest
        exact grown
    | einval =>
        cases rest
        exact grown

/-- A push to a slot with a queue finds as many buffers as fit of those that
were pushed before. -/
theorem nextPush (before : KeepsFirst w connQueuelen pushedTo)
    (present : (w.conns sock).rxQueue ≠ none) :
    NextPush w connQueuelen sock (pushedTo sock) := by
  obtain ⟨handle, owned⟩ := Option.ne_none_iff_exists'.mp present
  have held := before.contents sock handle owned
  have room : ((pushedTo sock).take connQueuelen).length < connQueuelen ↔
      (pushedTo sock).length < connQueuelen := by
    rw [List.length_take]
    omega
  constructor
  · intro fewer buffer wait
    simp only [SocketLayer.lspConnRxqPush, owned, held, Option.bind_some,
      if_pos (room.mpr fewer)]
    exact ⟨_, rfl⟩
  · intro many buffer
    have full := mt room.mp (Nat.not_lt.mpr many)
    simp only [SocketLayer.lspConnRxqPush, owned, held, Option.bind_some,
      if_neg full, and_self]
  · intro many positive buffer
    have full := mt room.mp (Nat.not_lt.mpr many)
    have entries : ((pushedTo sock).take connQueuelen).length =
        connQueuelen := by
      rw [List.length_take]
      omega
    cases first : (pushedTo sock).take connQueuelen with
    | nil =>
        rw [first, List.length_nil] at entries
        omega
    | cons oldest rest =>
        rw [first] at held full entries
        refine ⟨handle, oldest, rest, owned, rfl, ?_⟩
        simp only [SocketLayer.lspConnRxqPush, owned, held,
          Option.bind_some, if_neg full, if_neg (Nat.ne_of_gt positive),
          storeRound_of_full entries]

end KeepsFirst

end Calls

end SocketLayer

namespace Endpoints

open SocketLayer

/-- No push wakes up to a full queue.  No call takes a buffer out, so such a
wakeup is a spurious one.  A push that finds room does not wait. -/
def NotWoken (_ : Endpoints) : EndpointCall → Prop
  | .rxqPush _ _ wait => wait ≠ .ok
  | .call _ => True
  | .accept .. => True
  | .storeLport .. => True

instance (e : Endpoints) (call : EndpointCall) :
    Decidable (e.NotWoken call) :=
  match call with
  | .rxqPush _ _ wait => inferInstanceAs (Decidable (wait ≠ .ok))
  | .call _ => inferInstanceAs (Decidable True)
  | .accept .. => inferInstanceAs (Decidable True)
  | .storeLport .. => inferInstanceAs (Decidable True)

/-- The buffers that calls push to a slot, in their order. -/
def pushedTo (calls : List EndpointCall) (i : Nat) : List Nat :=
  calls.flatMap (EndpointCall.pushedTo i)

variable {config : EndpointConfig} {e e' : Endpoints}

private theorem movesNone_call {socketCall : SocketCall} {use : SocketUse}
    {entered received : List Nat} (before : Remains e.layer entered received)
    (stepped : e.use.step config.conn socketCall = some use) :
    MovesNone e.layer use.layer := by
  cases socketCall with
  | socket domain type protocol answers =>
      obtain ⟨created, called, _⟩ := SocketUse.step_socket stepped
      rcases lspSocket_cases called with ⟨_, same⟩ | allocated
      · rw [same]
        exact .refl _
      · exact .lspConnAlloc allocated
  | bind sock sockaddr beyond =>
      obtain ⟨_, layer, _⟩ := SocketUse.step_bind stepped
      rw [layer]
      exact .lspBind beyond sockaddr
  | listen sock queue fuel =>
      obtain ⟨_, ⟨rc, listened⟩, _⟩ := SocketUse.step_listen stepped
      exact .lspListen listened
  | connect sock sockaddr =>
      obtain ⟨_, layer, _⟩ := SocketUse.step_connect stepped
      rw [layer]
      exact .lspConnect sockaddr
  | close sock junk fuel =>
      obtain ⟨_, ⟨rc, freed⟩, _⟩ := SocketUse.step_close stepped
      exact .lspConnFree before freed

theorem pushedTo_snoc (calls : List EndpointCall) (call : EndpointCall) :
    pushedTo (calls ++ [call]) =
      fun i => pushedTo calls i ++ call.pushedTo i := by
  funext i
  simp [pushedTo]

theorem keepsFirst_step {calls : List EndpointCall} {call : EndpointCall}
    (remains : Remains e.layer e.entered e.received)
    (before : KeepsFirst e.layer config.connQueuelen (pushedTo calls))
    (notWoken : e.NotWoken call)
    (stepped : e.step config call = some e') :
    KeepsFirst e'.layer config.connQueuelen (pushedTo (calls ++ [call])) := by
  have after := (remains_step remains stepped).queues
  rw [pushedTo_snoc]
  cases call with
  | call socketCall =>
      obtain ⟨called, _⟩ := step_call stepped
      simp only [EndpointCall.pushedTo, List.append_nil]
      exact before.movesNone (movesNone_call remains called) after
  | accept sock rc =>
      obtain ⟨_, ⟨result, accepted⟩, _⟩ := step_accept stepped
      rw [lspAccept_of_noServer (remains.noServer sock)] at accepted
      have same := congrArg Prod.fst (Option.some.inj accepted)
      simp only [EndpointCall.pushedTo, List.append_nil]
      rw [← show e.layer = e'.layer from same]
      exact before
  | rxqPush sock buffer wait =>
      obtain ⟨_, rc, pushed, _⟩ := step_rxqPush stepped
      have grown : (fun i => pushedTo calls i ++
            (EndpointCall.rxqPush sock buffer wait).pushedTo i) =
          Function.update (pushedTo calls) sock
            (pushedTo calls sock ++ [buffer]) := by
        funext i
        by_cases same : i = sock
        · simp [EndpointCall.pushedTo, same]
        · have other : sock ≠ i := Ne.symm same
          simp [EndpointCall.pushedTo, same, other]
      rw [grown]
      exact before.lspConnRxqPush notWoken pushed
  | storeLport sock port =>
      obtain ⟨_, same, _⟩ := step_storeLport stepped
      simp only [EndpointCall.pushedTo, List.append_nil]
      apply before.movesNone _ after
      rw [same]
      exact .modifyConn rfl

theorem keepsFirst_initial (links : Links ListNode) (connQueuelen : Nat) :
    KeepsFirst (initial links).layer connQueuelen (pushedTo []) := by
  constructor
  · intro i handle owned
    cases owned
  · intro i _
    rfl
  · intro i other handle owned
    cases owned
  · intro handle contents held
    cases held

theorem lasting_rxQueue : Lasting fun conn => conn.rxQueue ≠ none := by
  constructor
  · exact fun _ present => present
  · exact fun _ handle _ => Option.some_ne_none handle
  · exact fun _ _ present => present
  · exact fun _ present => present
  · exact fun _ _ _ present => present
  · exact fun _ _ present _ => present

/-- In every run of a program in which no push wakes up to a full queue, the
receive queue of a slot holds the first buffers that were ever pushed to the
slot, in their order, across all its owners.  They decide what the next push
to a socket does. -/
theorem receives_of_run {links : Links ListNode} {calls : List EndpointCall}
    (run : Run (step config) NotWoken (initial links) calls e) :
    KeepsFirst e.layer config.connQueuelen (pushedTo calls) ∧
      ∀ sock, sock ∈ e.use.known →
        NextPush e.layer config.connQueuelen sock (pushedTo calls sock) := by
  have kept : KeepsFirst e.layer config.connQueuelen (pushedTo calls) ∧
      e.layer.AllHave e.use.known fun conn => conn.rxQueue ≠ none := by
    refine @Run.history _ _ _ _ _ (fun calls (e : Endpoints) =>
      KeepsFirst e.layer config.connQueuelen (pushedTo calls) ∧
        e.layer.AllHave e.use.known fun conn => conn.rxQueue ≠ none)
      ?_ ?_ _ _ run
    · exact ⟨keepsFirst_initial links _, allHave_initial links⟩
    · rintro actions state action next before ⟨first, equipped⟩ notWoken
        stepped
      have remains := remains_of_run (before.mono fun _ _ _ => trivial)
      exact ⟨keepsFirst_step remains first notWoken stepped,
        allHave_step lasting_rxQueue remains equipped stepped⟩
  refine ⟨kept.1, ?_⟩
  intro sock member
  exact kept.1.nextPush (kept.2 sock member)

section Examples

/-- Two owners of a slot receive three buffers, with a queue for two. -/
def receivedTwice : List EndpointCall :=
  receiverCalls ++
    [.call (.socket afLsp lspSockRaw lspProtoLsp ⟨some 1, some 1⟩),
      .rxqPush 0 8 .etimedout, .rxqPush 0 7 .etimedout]

/-- The second owner finds the buffer of the first, and no room for its
second one. -/
theorem receives_of_receivedTwice :
    ∃ e, Run (step ⟨⟨false, false⟩, 2⟩) NotWoken (initial ⟨id, id⟩)
        receivedTwice e ∧
      pushedTo receivedTwice 0 = [9, 8, 7] ∧
      e.layer.queues 0 = some [9, 8] ∧
      KeepsFirst e.layer 2 (pushedTo receivedTwice) ∧
      NextPush e.layer 2 0 [9, 8, 7] := by
  have executed : (execute (step ⟨⟨false, false⟩, 2⟩) NotWoken
      (initial ⟨id, id⟩) receivedTwice).map (fun e =>
        (e.layer.queues 0, e.use.known)) = some (some [9, 8], [0, 0]) := by
    decide
  obtain ⟨e, run, view⟩ := exists_run_of_execute executed
  simp only [Prod.mk.injEq] at view
  obtain ⟨held, known⟩ := view
  obtain ⟨first, next⟩ := receives_of_run run
  exact ⟨e, run, by decide, held, first, next 0 (by simp [known])⟩

end Examples

end Endpoints

end Liblsp
