import Liblsp.Base.Run
import Liblsp.ListenOrder

/-!
# The listeners of a port

`lsp_listen` keeps the sockets of a port a circular list and makes it the list
that `registerListener` computes.
-/

namespace Liblsp

open Base

namespace SocketLayer

/-- The priority of a socket. -/
def priority (conns : Nat → LspConn) (sock : Nat) : Nat :=
  (conns sock).attr.priority.toNat

variable {conns : Nat → LspConn} {links : Links ListNode} {port sock : Nat}
  {members : List Nat}

private theorem fresh_node (fresh : sock ∉ members) :
    ListNode.portlist sock ∉
      .sockets port :: members.map ListNode.portlist := by
  simp [fresh]

/-- The loop of `lsp_listen` over a list, as a list operation. -/
theorem foldUntil_insertByPriority (conns : Nat → LspConn)
    (links : Links ListNode) (sock : Nat) (members : List Nat) :
    (foldUntil (insertByPriority conns sock) links
        (members.map ListNode.portlist)).1 =
      match members.find? (fun other =>
          decide (priority conns other < priority conns sock)) with
      | none => links
      | some other =>
          lspListInsertBefore links (.portlist sock) (.portlist other) := by
  have body : insertByPriority conns sock = fun links sk =>
      if lowerPriority conns sock sk then
        (lspListInsertBefore links (.portlist sock) sk, true)
      else (links, false) := rfl
  rw [body, foldUntil_change, List.find?_map]
  have test : (lowerPriority conns sock ∘ ListNode.portlist) = fun other =>
      decide (priority conns other < priority conns sock) := by
    funext other
    exact decide_eq_decide.mpr UInt8.lt_iff_toNat_lt
  rw [test]
  cases members.find? fun other =>
    decide (priority conns other < priority conns sock) <;> rfl

private theorem insert_at_found
    (ring : links.IsRing (.sockets port) (members.map .portlist))
    (fresh : sock ∉ members) :
    (match members.find? (fun other =>
        decide (priority conns other < priority conns sock)) with
      | none => links
      | some other =>
          lspListInsertBefore links (.portlist sock)
            (.portlist other)).IsRing (.sockets port)
      ((insertListener (priority conns) sock members).map .portlist) := by
  have absent : ListNode.portlist sock ∉
      .sockets port :: members.map .portlist := fresh_node fresh
  rcases insertListener_cases (priority conns) sock members with
    ⟨before, other, after, shape, high, lower, result⟩ | ⟨high, result⟩
  · have hit : members.find? (fun other =>
        decide (priority conns other < priority conns sock)) =
          some other := by
      rw [List.find?_eq_some_iff_append]
      refine ⟨by simpa using lower, before, after, shape, ?_⟩
      intro earlier member
      simpa using high earlier member
    rw [hit, result, List.map_append, List.map_cons]
    subst members
    rw [List.map_append, List.map_cons] at ring absent
    have inserted := ring.insertBetween absent
    simpa [lspListInsertBefore, _lspListAdd, Links.insertBetween,
      ring.prev_member] using inserted
  · have miss : members.find? (fun other =>
        decide (priority conns other < priority conns sock)) = none := by
      rw [List.find?_eq_none]
      intro other member
      simpa using high other member
    rw [miss, result]
    exact ring

theorem register_returns
    (ring : links.IsRing (.sockets port) (members.map .portlist))
    (fresh : sock ∉ members) :
    ∃ links', Returns (register conns links port sock) links' ∧
      links'.IsRing (.sockets port)
        ((registerListener (priority conns) members sock).map
          .portlist) := by
  have emptyTest := lspListIsEmpty_iff ring
  rw [visible_eq_nil_iff, List.length_map] at emptyTest
  by_cases short : members.length ≤ 1
  · refine ⟨lspListAdd links (.portlist sock) (.sockets port), ?_, ?_⟩
    · refine ⟨0, ?_⟩
      intro fuel _
      rw [register, if_pos (emptyTest.mpr short)]
    · rw [registerListener, if_pos short]
      exact lspListAdd_ring ring (fresh_node fresh)
  · have long : (members.map ListNode.portlist).length ≠ 1 := by
      rw [List.length_map]
      omega
    have notEmpty : lspListIsEmpty links (.sockets port) = false :=
      Bool.eq_false_iff.mpr fun empty => short (emptyTest.mp empty)
    have loop := (@lspListFor_returns ListNode (Links ListNode) _
      (.sockets port) (members.map .portlist) id
      (insertByPriority conns sock) links ring
      (fun _ _ => insertByPriority_keeps _)).map Prod.fst
    rw [visible_of_length_ne_one long,
      foldUntil_insertByPriority] at loop
    have whole : register conns links port sock = fun fuel =>
        (lspListFor id (.sockets port) (insertByPriority conns sock) fuel
          links).map Prod.fst := by
      funext fuel
      simp [register, notEmpty]
    rw [whole, registerListener, if_neg short]
    exact ⟨_, loop, insert_at_found ring fresh⟩

/-! ## Sequences of calls -/

theorem priority_congr {before after : Nat → LspConn}
    (attrs : ∀ i, (after i).attr = (before i).attr) :
    priority after = priority before := by
  funext sock
  simp [priority, attrs]

theorem prepareListen_frame {w w' : SocketLayer} {queue handle : Option Nat}
    (prepared : w.prepareListen sock queue = some (w', handle)) :
    w'.links = w.links ∧ ∀ i, (w'.conns i).attr = (w.conns i).attr := by
  obtain ⟨links, _, conns, _⟩ := prepareListen_cases prepared
  refine ⟨links, ?_⟩
  intro i
  by_cases same : i = sock
  · subst same
    simp [conns]
  · simp [conns, same]

theorem register_stable {fuel : Nat} {links' : Links ListNode}
    (ended : register conns links port sock fuel = some links') :
    register conns links port sock (fuel + 1) = some links' := by
  unfold register at ended ⊢
  split
  · rename_i empty
    simpa [empty] using ended
  · rename_i notEmpty
    rw [if_neg notEmpty] at ended
    obtain ⟨result, looped, last⟩ := Option.map_eq_some_iff.mp ended
    exact Option.map_eq_some_iff.mpr
      ⟨result, cursorLoop_stable looped, last⟩

theorem lspListen_success {w w' : SocketLayer} {queue : Option Nat}
    {fuel : Nat} (valid : (w.conns sock).attr.lport ≤ lspPacketPortMax)
    (ring : w.links.IsRing (.sockets (w.conns sock).attr.lport.toNat)
      (members.map .portlist))
    (fresh : sock ∉ members)
    (called : w.lspListen sock queue fuel = some (w', lspErrNone)) :
    w'.links.IsRing (.sockets (w.conns sock).attr.lport.toNat)
        ((registerListener (priority w.conns) members sock).map
          .portlist) ∧
      ∀ i, (w'.conns i).attr = (w.conns i).attr := by
  rw [lspListen, if_neg (UInt8.not_lt.mpr valid)] at called
  obtain ⟨⟨before, handle⟩, prepared, rest⟩ :=
    Option.bind_eq_some_iff.mp called
  obtain ⟨links, attrs⟩ := prepareListen_frame prepared
  rw [← links] at ring
  obtain ⟨after, registered, ring'⟩ :=
    @register_returns before.conns _ _ _ _ ring fresh
  simp only at rest
  split at rest
  · simp [lspErrNomem, lspErrNone] at rest
  · obtain ⟨ended, linked, same⟩ := Option.map_eq_some_iff.mp rest
    have result := registered.eq_of_some (fun _ => register_stable) linked
    simp only [Prod.mk.injEq, and_true] at same
    rw [← same, result]
    rw [priority_congr attrs] at ring'
    exact ⟨ring', attrs⟩

/-- The arguments of a call of `lsp_listen`, with the queue it gets. -/
structure ListenCall where
  sock : Nat
  queue : Option Nat
  fuel : Nat

/-- A call of `lsp_listen` that succeeds. -/
def listenStep (w : SocketLayer) (call : ListenCall) : Option SocketLayer :=
  (w.lspListen call.sock call.queue call.fuel).bind fun (w', rc) =>
    if rc = lspErrNone then some w' else none

/-- What successful calls on one port leave behind. -/
theorem listeners_of_run {w w' : SocketLayer} {calls : List ListenCall}
    {port : UInt8} (run : Run listenStep Anywhere w calls w')
    (valid : port ≤ lspPacketPortMax)
    (empty : w.links.IsRing (.sockets port.toNat) [])
    (bound : ∀ call, call ∈ calls →
      (w.conns call.sock).attr.lport = port)
    (distinct : (calls.map ListenCall.sock).Nodup) :
    w'.links.IsRing (.sockets port.toNat)
        ((listeners (priority w.conns) (calls.map ListenCall.sock)).map
          .portlist) ∧
      ∀ i, (w'.conns i).attr = (w.conns i).attr := by
  induction run with
  | nil => exact ⟨empty, fun _ => rfl⟩
  | @snoc calls w' w'' call _ _ stepped induction =>
      rw [List.map_append] at distinct
      obtain ⟨earlier, _, apart⟩ := List.nodup_append.mp distinct
      have fresh : call.sock ∉ calls.map ListenCall.sock := fun member =>
        apart call.sock member call.sock (by simp) rfl
      obtain ⟨ring, attrs⟩ := induction
        (fun other member => bound other (List.mem_append_left _ member))
        earlier
      have lport : (w'.conns call.sock).attr.lport = port := by
        rw [attrs]
        exact bound call (by simp)
      rw [← lport] at valid ring
      have absent : call.sock ∉ listeners (priority w.conns)
          (calls.map ListenCall.sock) :=
        fun member => fresh (mem_listeners member)
      obtain ⟨⟨ended, rc⟩, called, last⟩ :=
        Option.bind_eq_some_iff.mp stepped
      simp only [Option.ite_none_right_eq_some, Option.some.injEq] at last
      obtain ⟨success, same⟩ := last
      subst ended rc
      obtain ⟨ring', attrs'⟩ := lspListen_success valid ring absent called
      rw [lport, priority_congr attrs, ← listeners_concat] at ring'
      rw [List.map_append]
      exact ⟨ring', fun i => (attrs' i).trans (attrs i)⟩

/-- Everybody who listens on a port is registered there, in order. -/
def RegisteredInOrder (w : SocketLayer) (port : UInt8) (socks : List Nat) :
    Prop :=
  ∃ members : List Nat,
    w.links.IsRing (.sockets port.toNat) (members.map .portlist) ∧
      ListenersInOrder (priority w.conns) socks members

/-- The listeners of a port are all registered and in order exactly when
every one after the first has a higher priority than the first. -/
theorem registeredInOrder_iff {w w' : SocketLayer}
    {calls : List ListenCall} {port : UInt8}
    (valid : port ≤ lspPacketPortMax)
    (empty : w.links.IsRing (.sockets port.toNat) [])
    (bound : ∀ call, call ∈ calls →
      (w.conns call.sock).attr.lport = port)
    (distinct : (calls.map ListenCall.sock).Nodup)
    (run : Run listenStep Anywhere w calls w') :
    RegisteredInOrder w' port (calls.map ListenCall.sock) ↔
      AboveFirst (priority w.conns) (calls.map ListenCall.sock) := by
  obtain ⟨ring, attrs⟩ := listeners_of_run run valid empty bound distinct
  rw [← listenersInOrder_iff distinct, RegisteredInOrder,
    priority_congr attrs]
  constructor
  · intro ⟨members, other, inOrder⟩
    have same := List.map_injective_iff.mpr
      (fun _ _ equal => ListNode.portlist.inj equal) (other.unique ring)
    rw [← same]
    exact inOrder
  · intro inOrder
    exact ⟨_, ring, inOrder⟩

section Examples

/-- Sockets bound to port `5` with these priorities. -/
def boundSockets (priorities : Nat → UInt8) : SocketLayer :=
  lspPortInit
    { conns := fun i =>
        { clearedConn with
          state := .connClosed
          attr := { defConnAttr with priority := priorities i, lport := 5 } }
      links := ⟨id, id⟩
      ports := fun _ => .portClosed
      queues := fun _ => none }

/-- Three sockets listen one after the other. -/
def threeListen : List ListenCall :=
  [⟨0, some 0, 5⟩, ⟨1, some 1, 5⟩, ⟨2, some 2, 5⟩]

/-- The one with the lowest priority listens first. -/
def lowFirst : SocketLayer := boundSockets fun i => [1, 3, 2].getD i 0

theorem registeredInOrder_of_lowFirst :
    ∃ w, Run listenStep Anywhere lowFirst threeListen w ∧
      RegisteredInOrder w 5 [0, 1, 2] := by
  have executed :
      ((execute listenStep Anywhere lowFirst threeListen).map fun w =>
        w.ports 5) = some .portOpen := by
    decide
  obtain ⟨w, run, _⟩ := exists_run_of_execute executed
  have empty : lowFirst.links.IsRing (.sockets 5) [] :=
    ⟨by decide, by decide⟩
  have above : ∀ sock, sock ∈ [1, 2] →
      priority lowFirst.conns 0 < priority lowFirst.conns sock := by
    decide
  refine ⟨w, run, ?_⟩
  exact (registeredInOrder_iff (by decide) empty (fun _ _ => rfl)
    (by decide) run).mpr above

/-- All have the same priority. -/
def equalPriorities : SocketLayer := boundSockets fun _ => 4

/-- The second one gets in front of the first, and the third one is not
registered although it is told so. -/
theorem equalPriorities_misplaced :
    equalPriorities.links.IsRing (.sockets 5) [] ∧
      ∃ w, Run listenStep Anywhere equalPriorities threeListen w ∧
        w.links.IsRing (.sockets 5) [.portlist 1, .portlist 0] ∧
        ¬RegisteredInOrder w 5 [0, 1, 2] := by
  have executed :
      ((execute listenStep Anywhere equalPriorities threeListen).map
        fun w => decide (([.sockets 5, .portlist 1, .portlist 0,
          .sockets 5] : List ListNode).IsChain w.links.Joined)) =
        some true := by
    decide
  obtain ⟨w, run, chain⟩ := exists_run_of_execute executed
  have ring : w.links.IsRing (.sockets 5) [.portlist 1, .portlist 0] :=
    ⟨by decide, of_decide_eq_true chain⟩
  refine ⟨⟨by decide, by decide⟩, w, run, ring, ?_⟩
  intro ⟨members, other, inOrder⟩
  have length := congrArg List.length (other.unique ring)
  rw [List.length_map, inOrder.registered.length_eq] at length
  exact absurd length (by decide)

end Examples

end SocketLayer

end Liblsp
