import Liblsp.PortHistories

/-!
# Port lists of sockets with the default priority

Nobody is inserted before sockets of the same priority, so only the first two
sockets get into the list of a port.  The later ones are told that they
listen, and nothing is linked.
-/

namespace Liblsp

open Base

namespace PortUse

open SocketLayer

variable {config : EndpointConfig} {s s' : PortUse}

/-- The sockets that listened on a port with success, in the order of the
calls. -/
def listenedOn (listened : List Listening) (port : Nat) : List Nat :=
  (listened.filter fun call => call.port = port).map Listening.sock

/-- The program does not store priorities. -/
def KeepsPriorities : PortUseCall → Prop
  | .call _ => True
  | .storePriority .. => False

instance (call : PortUseCall) : Decidable (KeepsPriorities call) :=
  match call with
  | .call _ => inferInstanceAs (Decidable True)
  | .storePriority .. => inferInstanceAs (Decidable False)

/-- Nobody is inserted before sockets of the same priority. -/
theorem registerListener_even {prio : Nat → Nat} {members : List Nat}
    {sock : Nat}
    (even : ∀ other, other ∈ members → prio other = prio sock) :
    registerListener prio members sock =
      if members.length ≤ 1 then sock :: members else members := by
  unfold registerListener
  split
  · rfl
  · rcases insertListener_cases prio sock members with
      ⟨before, other, after, shape, _, lower, _⟩ | ⟨_, same⟩
    · have member : other ∈ members := by
        rw [shape]
        simp
      exact absurd (even other member) lower.ne
    · exact same

/-- The list of a port holds the first two sockets that listened on it. -/
structure FirstTwo (s : PortUse) : Prop where
  even : s.layer.AllHave s.endpoints.use.known fun conn =>
    conn.attr.priority = defConnAttr.priority
  known : ∀ call, call ∈ s.listened → call.sock ∈ s.endpoints.use.known
  lists : ∀ port, portListeners s.listened port =
    ((listenedOn s.listened port).take 2).reverse

theorem listenedOn_snoc (listened : List Listening) (call : Listening)
    (port : Nat) :
    listenedOn (listened ++ [call]) port =
      listenedOn listened port ++ if call.port = port then [call.sock] else []
      := by
  by_cases here : call.port = port
  · simp [listenedOn, here]
  · simp [listenedOn, here]

theorem take_two_snoc (socks : List Nat) (sock : Nat) :
    ((socks ++ [sock]).take 2).reverse =
      if (socks.take 2).reverse.length ≤ 1 then
        sock :: (socks.take 2).reverse
      else (socks.take 2).reverse := by
  match socks with
  | [] => rfl
  | [first] => rfl
  | first :: second :: rest => rfl

theorem FirstTwo.record {listened : List Listening} {call : Listening}
    (lists : ∀ port, portListeners listened port =
      ((listenedOn listened port).take 2).reverse)
    (even : ∀ other, other ∈ portListeners listened call.port →
      call.prio other = call.prio call.sock) (port : Nat) :
    portListeners (listened ++ [call]) port =
      ((listenedOn (listened ++ [call]) port).take 2).reverse := by
  rw [portListeners_snoc, listenedOn_snoc]
  split
  · rename_i here
    subst here
    rw [registerListener_even even, lists, take_two_snoc]
  · rw [List.append_nil, lists]

theorem mem_listened_of_portListeners {listened : List Listening}
    (lists : ∀ port, portListeners listened port =
      ((listenedOn listened port).take 2).reverse)
    {port sock : Nat} (member : sock ∈ portListeners listened port) :
    ∃ call ∈ listened, call.sock = sock := by
  rw [lists, List.mem_reverse] at member
  obtain ⟨call, recorded, same⟩ :=
    List.mem_map.mp (List.mem_of_mem_take member)
  exact ⟨call, (List.mem_filter.mp recorded).1, same⟩

theorem lasting_priority : Lasting fun conn =>
    conn.attr.priority = defConnAttr.priority := by
  constructor
  · exact fun _ _ => rfl
  · exact fun _ _ same => same
  · exact fun _ _ same => same
  · exact fun _ same => same
  · exact fun _ _ _ same => same
  · exact fun _ _ same kept => kept.trans same

theorem known_step {e e' : Endpoints} {call : EndpointCall}
    (stepped : e.step config call = some e') {sock : Nat}
    (member : sock ∈ e.use.known) : sock ∈ e'.use.known := by
  cases call with
  | call socketCall =>
      obtain ⟨called, _⟩ := Endpoints.step_call stepped
      cases socketCall with
      | socket domain type protocol answers =>
          obtain ⟨created, _, known⟩ := SocketUse.step_socket called
          rw [known]
          exact List.mem_append_right _ member
      | bind other sockaddr beyond =>
          obtain ⟨_, _, known⟩ := SocketUse.step_bind called
          exact known ▸ member
      | listen other queue fuel =>
          obtain ⟨_, _, known⟩ := SocketUse.step_listen called
          exact known ▸ member
      | connect other sockaddr =>
          obtain ⟨_, _, known⟩ := SocketUse.step_connect called
          exact known ▸ member
      | close other junk fuel =>
          obtain ⟨_, _, known⟩ := SocketUse.step_close called
          exact known ▸ member
  | accept other rc =>
      simp only [Endpoints.step] at stepped
      split at stepped
      · obtain ⟨⟨layer, result⟩, _, rest⟩ :=
          Option.bind_eq_some_iff.mp stepped
        cases result with
        | nullWrite => cases rest
        | null =>
            cases rest
            exact member
        | child child =>
            cases rest
            exact List.mem_cons_of_mem child member
      · cases stepped
  | rxqPush other buffer wait =>
      simp only [Endpoints.step] at stepped
      split at stepped
      · obtain ⟨_, _, same⟩ := Option.map_eq_some_iff.mp stepped
        cases same
        exact member
      · cases stepped
  | storeLport other port =>
      simp only [Endpoints.step] at stepped
      split at stepped
      · cases stepped
        exact member
      · cases stepped

/-- A step records nothing, or a call of `lsp_listen` on a known socket. -/
theorem listenings_cases {e e' : Endpoints} {call : EndpointCall}
    (stepped : e.step config call = some e') :
    e.layer.listenings call = [] ∨
      ∃ record : Listening, record.sock ∈ e.use.known ∧
        record.prio = priority e.layer.conns ∧
        e.layer.listenings call = [record] := by
  cases call with
  | call socketCall =>
      cases socketCall with
      | listen sock queue fuel =>
          obtain ⟨called, _⟩ := Endpoints.step_call stepped
          obtain ⟨member, _⟩ := SocketUse.step_listen called
          simp only [listenings]
          split
          · exact .inr ⟨_, member, rfl, rfl⟩
          · exact .inl rfl
      | socket domain type protocol answers => exact .inl rfl
      | bind sock sockaddr beyond => exact .inl rfl
      | connect sock sockaddr => exact .inl rfl
      | close sock junk fuel => exact .inl rfl
  | accept sock rc => exact .inl rfl
  | rxqPush sock buffer wait => exact .inl rfl
  | storeLport sock port => exact .inl rfl

theorem FirstTwo.priority_eq (first : s.FirstTwo) {port sock other : Nat}
    (member : sock ∈ s.endpoints.use.known)
    (inList : other ∈ portListeners s.listened port) :
    priority s.layer.conns other = priority s.layer.conns sock := by
  obtain ⟨earlier, recorded, same⟩ :=
    mem_listened_of_portListeners first.lists inList
  have known : other ∈ s.endpoints.use.known :=
    same ▸ first.known earlier recorded
  have left := first.even other known
  exact congrArg UInt8.toNat (left.trans (first.even sock member).symm)

theorem FirstTwo.step {call : PortUseCall} (before : s.FirstTwo)
    (remains : Remains s.layer s.endpoints.entered s.endpoints.received)
    (keeps : KeepsPriorities call)
    (stepped : s.step config call = some s') : s'.FirstTwo := by
  cases call with
  | storePriority sock priority => cases keeps
  | call call =>
      obtain ⟨stepped, listened⟩ := step_call stepped
      have even := Endpoints.allHave_step lasting_priority remains
        before.even stepped
      have stays : ∀ record, record ∈ s.listened →
          record.sock ∈ s'.endpoints.use.known := fun record member =>
        known_step stepped (before.known record member)
      rcases listenings_cases stepped with
        none | ⟨record, member, prio, one⟩
      · rw [show s.layer.listenings call = [] from none,
          List.append_nil] at listened
        refine ⟨even, ?_, ?_⟩
        · rw [listened]
          exact stays
        · rw [listened]
          exact before.lists
      · rw [show s.layer.listenings call = [record] from one] at listened
        refine ⟨even, ?_, ?_⟩
        · rw [listened]
          intro other recorded
          rcases List.mem_append.mp recorded with old | new
          · exact stays other old
          · rw [List.mem_singleton.mp new]
            exact known_step stepped member
        · rw [listened]
          apply FirstTwo.record before.lists
          intro other inList
          rw [prio]
          exact before.priority_eq member inList

section Examples

end Examples

end PortUse

end Liblsp
