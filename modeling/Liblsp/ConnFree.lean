import Liblsp.Endpoint
import Liblsp.Base.Fuel

/-!
# Freeing a connection and its children

`lsp_conn_free` reads an `rc` that it sets only for a connection that is not
closed yet, and `lsp_conn_close` gets through only for a connection that is
linked, with a buffer to flush and an event group to destroy.  A server keeps
the pointer to its queue of children, so freeing it again pops from a queue
that is gone.
-/

namespace Liblsp

open Base

namespace SocketLayer

/-- `lsp_conn_free` run on fuel.  The junk of the calls inside is numbered by
the fuel they have used up. -/
def freeCall (config : ConnConfig) (junk : Nat → ConnJunk)
    (w : SocketLayer) (i fuel : Nat) : Option (SocketLayer × Int) :=
  lspConnFree config (fun left => junk (fuel - left)) (fuel + 1) w i

/-- The receive queue of a connection holds a buffer. -/
def RxFilled (w : SocketLayer) (i : Nat) : Prop :=
  ∃ handle buffer rest, (w.conns i).rxQueue = some handle ∧
    w.queues handle = some (buffer :: rest)

/-- A connection beyond closed can be closed: its list cell has neighbours, its
receive queue holds a buffer, there is an event group if one is destroyed, and
the last destroy seems to succeed. -/
structure Closes (config : ConnConfig) (junk : ConnJunk) (w : SocketLayer)
    (i : Nat) : Prop where
  linked : w.Linked i
  filled : w.RxFilled i
  grouped : (w.conns i).lacksEgroup config = false
  destroyed : destroyResult config junk = lspErrNone

/-- `lsp_conn_free` gets past its first test: `rc` happens to be right, or the
connection can be closed. -/
def Closable (config : ConnConfig) (junk : ConnJunk) (w : SocketLayer)
    (i : Nat) : Prop :=
  ((w.conns i).state = .connClosed ∧ junk.rc = lspErrNone) ∨
    ((w.conns i).state ≠ .connClosed ∧ Closes config junk w i)

/-- A connection in use, with the sockets in its queue of children if it is a
server. -/
structure Family (w : SocketLayer) (i : Nat) (pending : List Nat) : Prop where
  inUse : (w.conns i).state ≠ .connFree
  server : (w.conns i).type = connServer →
    ∃ handle, (w.conns i).children = some handle ∧
      w.queues handle = some pending
  alone : (w.conns i).type ≠ connServer → pending = []
  distinct : pending.Nodup
  children : ∀ child ∈ pending,
    (w.conns child).state ≠ .connFree ∧ (w.conns child).type ≠ connServer

/-- Freeing ends with success and returns the family to the pool, and freeing
the connection once more ends without a change. -/
def FreedForGood (config : ConnConfig) (junk : Nat → ConnJunk)
    (w : SocketLayer) (i : Nat) (pending : List Nat) : Prop :=
  ∃ w', Returns (w.freeCall config junk i) (w', lspErrNone) ∧
    (∀ j ∈ i :: pending, (w'.conns j).state = .connFree) ∧
    ((w.conns i).type = connServer → ∀ handle,
      (w.conns i).children = some handle → w'.queues handle = none) ∧
    (∀ j, j ∉ i :: pending → w'.conns j = w.conns j) ∧
    ∀ again, ∃ rc, Returns (w'.freeCall config again i) (w', rc)

/-! ## Closing a connection beyond closed -/

section Close

variable {w w' : SocketLayer} {config : ConnConfig} {junk : ConnJunk}
  {i fuel : Nat} {rc : Int}

theorem closes_of_lspConnClose
    (beyond : ¬(w.conns i).state.code ≤ ConnState.connClosed.code)
    (closed : w.lspConnClose config junk i fuel = some (w', lspErrNone)) :
    Closes config junk w i := by
  rcases lspConnClose_cases closed with
    ⟨already, _⟩ | ⟨_, _, failed⟩ |
      ⟨_, linked, grouped, handle, buffer, rest, dropped, owned, filled, _, _,
        result⟩
  · exact absurd already beyond
  · exact absurd failed (by decide)
  · exact ⟨linked, ⟨handle, buffer, rest, owned, filled⟩, grouped,
      result.symm⟩

theorem closedWith_conns {handle : Nat} {rest : List Nat}
    {dropped : LspConn} {j : Nat} (other : j ≠ i) :
    (w.closedWith config i handle rest dropped).conns j = w.conns j := by
  simp only [closedWith, setConn, freeQueue_conns,
    Function.update_of_ne other]
  simp [unlisted, setQueue, modifyConn, setConn, other]

end Close

/-! ## One call -/

section Calls

variable {w w' : SocketLayer} {config : ConnConfig}
  {junk : Nat → ConnJunk} {i fuel : Nat}

theorem beyond_closed (inUse : (w.conns i).state ≠ .connFree)
    (stillOpen : (w.conns i).state ≠ .connClosed) :
    ¬(w.conns i).state.code ≤ ConnState.connClosed.code := by
  cases state : (w.conns i).state with
  | connFree => exact absurd state inUse
  | connClosed => exact absurd state stillOpen
  | connOpen => decide
  | connListen => decide
  | connConnected => decide

theorem freeCall_eq (w : SocketLayer) (config : ConnConfig)
    (junk : Nat → ConnJunk) (i fuel : Nat) :
    w.freeCall config junk i fuel =
      (if (w.conns i).state ≠ .connClosed then
        w.lspConnClose config (junk 0) i fuel
      else some (w, (junk 0).rc)).bind fun (w, rc) =>
        if rc ≠ lspErrNone then some (w, rc)
        else
          (if (w.conns i).type = connServer then
            (w.conns i).children.bind fun handle =>
              freeChildren config (fun left => junk (fuel - left)) fuel w
                handle
          else some w).map fun w =>
            (w.modifyConn i fun conn => { conn with state := .connFree },
              rc) := by
  rw [freeCall, lspConnFree, Nat.sub_self]

theorem closable_of_freeCall (inUse : (w.conns i).state ≠ .connFree)
    (freed : w.freeCall config junk i fuel = some (w', lspErrNone)) :
    Closable config (junk 0) w i := by
  rw [freeCall_eq] at freed
  obtain ⟨⟨closed, rc⟩, closing, rest⟩ := Option.bind_eq_some_iff.mp freed
  have success : rc = lspErrNone := by
    by_contra failed
    simp only [if_pos failed] at rest
    cases rest
    exact failed rfl
  subst success
  by_cases already : (w.conns i).state = .connClosed
  · rw [if_neg (not_not.mpr already)] at closing
    exact .inl ⟨already, congrArg Prod.snd (Option.some.inj closing)⟩
  · rw [if_pos already] at closing
    exact .inr ⟨already,
      closes_of_lspConnClose (beyond_closed inUse already) closing⟩

theorem freeCall_of_closable (inUse : (w.conns i).state ≠ .connFree)
    (noServer : (w.conns i).type ≠ connServer)
    (closable : Closable config (junk 0) w i) :
    ∃ freed : SocketLayer,
      (∀ fuel, w.freeCall config junk i (fuel + 1) =
        some (freed, lspErrNone)) ∧
      (freed.conns i).state = .connFree ∧
      ∀ j, j ≠ i → freed.conns j = w.conns j := by
  rcases closable with ⟨already, rc⟩ | ⟨stillOpen, closes⟩
  · refine ⟨w.modifyConn i fun conn => { conn with state := .connFree },
      ?_, ?_, ?_⟩
    · intro fuel
      rw [freeCall_eq, if_neg (not_not.mpr already), rc]
      simp [noServer]
    · simp [modifyConn, setConn]
    · intro j other
      simp [modifyConn, setConn, other]
  · have beyond := beyond_closed inUse stillOpen
    obtain ⟨handle, buffer, rest, owned, holds⟩ := closes.filled
    obtain ⟨dropped, _, closing⟩ := lspConnClose_of_filled beyond
      closes.linked closes.grouped owned holds (junk 0)
    let closed := w.closedWith config i handle rest dropped
    have type : (closed.conns i).type = (w.conns i).type :=
      lspConnClose_field (fun _ => rfl) (fun _ => rfl) (fun _ => rfl)
        (closing 0) i
    have closed_noServer : (closed.conns i).type ≠ connServer := by
      rw [type]
      exact noServer
    refine ⟨closed.modifyConn i fun conn => { conn with state := .connFree },
      ?_, ?_, ?_⟩
    · intro fuel
      rw [freeCall_eq, if_pos stillOpen, closing, closes.destroyed]
      simp [closed, closed_noServer]
    · simp [modifyConn, setConn]
    · intro j other
      have kept : closed.conns j = w.conns j := closedWith_conns other
      rw [← kept]
      simp [modifyConn, setConn, other]

theorem freeCall_eq_of_free (free : (w.conns i).state = .connFree)
    (fuel : Nat) :
    w.freeCall config junk i fuel =
      (if (w.conns i).type = connServer then
        (w.conns i).children.bind fun handle =>
          freeChildren config (fun left => junk (fuel - left)) fuel w handle
      else some w).map fun w =>
        (w.modifyConn i fun conn => { conn with state := .connFree },
          lspErrNone) := by
  have stillOpen : (w.conns i).state ≠ .connClosed := by
    rw [free]
    decide
  have notBeyond : (w.conns i).state.code ≤ ConnState.connClosed.code := by
    rw [free]
    decide
  rw [freeCall_eq, if_pos stillOpen, lspConnClose, if_pos notBeyond]
  rfl

theorem freeCall_of_free (free : (w.conns i).state = .connFree)
    (noServer : (w.conns i).type ≠ connServer) (fuel : Nat) :
    w.freeCall config junk i fuel = some (w, lspErrNone) := by
  have marked : (w.modifyConn i fun conn =>
      { conn with state := .connFree }) = w := by
    apply modifyConn_self
    rw [← free]
  rw [freeCall_eq_of_free free, if_neg noServer, Option.map_some, marked]

/-- Freeing a free server pops from a queue that is gone. -/
theorem freeCall_of_destroyed (free : (w.conns i).state = .connFree)
    (server : (w.conns i).type = connServer) {handle : Nat}
    (children : (w.conns i).children = some handle)
    (destroyed : w.queues handle = none) (fuel : Nat) :
    w.freeCall config junk i fuel = none := by
  have gone : freeChildren config (fun left => junk (fuel - left)) fuel w
      handle = none := by
    cases fuel with
    | zero => rfl
    | succ fuel => simp [freeChildren, destroyed]
  rw [freeCall_eq_of_free free, if_pos server, children, Option.bind_some,
    gone]
  rfl

end Calls

/-! ## A family of closed connections -/

section Families

variable {w : SocketLayer} {config : ConnConfig} {i handle : Nat}
  {pending : List Nat}

theorem lspConnFree_now (closed : (w.conns i).state = .connClosed)
    (noServer : (w.conns i).type ≠ connServer) {junk : Nat → ConnJunk}
    {fuel : Nat} (rc : (junk fuel).rc = lspErrNone) :
    lspConnFree config junk (fuel + 1) w i =
      some (w.modifyConn i fun conn => { conn with state := .connFree },
        lspErrNone) := by
  simp [lspConnFree, closed, rc, noServer]

/-- The loop over a queue of closed connections frees them all and destroys
the queue. -/
theorem freeChildren_of_closed (queue : w.queues handle = some pending)
    (closed : ∀ child ∈ pending, (w.conns child).state = .connClosed)
    (noServers : ∀ child ∈ pending, (w.conns child).type ≠ connServer)
    (distinct : pending.Nodup) :
    ∃ w' : SocketLayer,
      (∀ junk : Nat → ConnJunk, (∀ left, (junk left).rc = lspErrNone) →
        ∀ fuel, pending.length < fuel →
          freeChildren config junk fuel w handle = some w') ∧
      (∀ child ∈ pending, (w'.conns child).state = .connFree) ∧
      (∀ j, j ∉ pending → w'.conns j = w.conns j) ∧
      w'.queues handle = none := by
  induction pending generalizing w with
  | nil =>
      refine ⟨w.setQueue handle none, ?_, ?_, ?_, ?_⟩
      · intro junk _ fuel enough
        obtain ⟨fuel, rfl⟩ := Nat.exists_eq_add_of_le' enough
        simp [freeChildren, queue]
      · intro child member
        cases member
      · intro j _
        rfl
      · simp [setQueue]
  | cons first rest ih =>
      obtain ⟨first_out, rest_distinct⟩ := List.nodup_cons.mp distinct
      let popped := w.setQueue handle (some rest)
      let next := popped.modifyConn first fun conn =>
        { conn with state := .connFree }
      have unchanged : ∀ j, j ≠ first → next.conns j = w.conns j := by
        intro j other
        simp [next, popped, modifyConn, setConn, setQueue, other]
      have apart : ∀ child ∈ rest, next.conns child = w.conns child := by
        intro child member
        apply unchanged
        intro same
        exact first_out (same ▸ member)
      have next_queue : next.queues handle = some rest := by
        simp [next, popped, modifyConn, setConn, setQueue]
      have next_closed : ∀ child ∈ rest,
          (next.conns child).state = .connClosed := by
        intro child member
        rw [apart child member]
        exact closed child (List.mem_cons_of_mem _ member)
      have next_noServers : ∀ child ∈ rest,
          (next.conns child).type ≠ connServer := by
        intro child member
        rw [apart child member]
        exact noServers child (List.mem_cons_of_mem _ member)
      obtain ⟨w', calls, free, others, destroyed⟩ := ih next_queue next_closed
        next_noServers rest_distinct
      refine ⟨w', ?_, ?_, ?_, destroyed⟩
      · intro junk rc fuel enough
        rw [List.length_cons] at enough
        obtain ⟨left, rfl⟩ : ∃ left, fuel = left + 1 + 1 :=
          ⟨fuel - 2, by omega⟩
        have closed_first : (popped.conns first).state = .connClosed :=
          closed first List.mem_cons_self
        have noServer_first : (popped.conns first).type ≠ connServer :=
          noServers first List.mem_cons_self
        have child := @lspConnFree_now popped config first closed_first
          noServer_first junk left (rc left)
        have remaining := calls junk rc (left + 1) (by omega)
        rw [freeChildren, queue]
        simp only
        rw [child]
        exact remaining
      · intro child member
        rcases List.mem_cons.mp member with same | member
        · rw [same, others first first_out]
          simp [next, modifyConn, setConn]
        · exact free child member
      · intro j outside
        rw [List.mem_cons, not_or] at outside
        rw [others j outside.2]
        exact unchanged j outside.1

/-- With zeros on the stack a family of closed connections goes to the pool
at once; but the server cannot be freed again. -/
theorem freeCall_of_closedFamily (family : w.Family i pending)
    (server : (w.conns i).type = connServer)
    (closed : ∀ j ∈ i :: pending, (w.conns j).state = .connClosed)
    {junk : Nat → ConnJunk} (zeros : ∀ call, (junk call).rc = lspErrNone) :
    ∃ w', Returns (w.freeCall config junk i) (w', lspErrNone) ∧
      (∀ j ∈ i :: pending, (w'.conns j).state = .connFree) ∧
      (∀ j, j ∉ i :: pending → w'.conns j = w.conns j) ∧
      ∀ again fuel, w'.freeCall config again i fuel = none := by
  obtain ⟨handle, children, queue⟩ := family.server server
  obtain ⟨closed_i, closed_pending⟩ := List.forall_mem_cons.mp closed
  have outside : i ∉ pending := fun member =>
    (family.children i member).2 server
  obtain ⟨drained, calls, free, others, destroyed⟩ :=
    @freeChildren_of_closed w config handle pending queue closed_pending
      (fun child member => (family.children child member).2) family.distinct
  let freed := drained.modifyConn i fun conn =>
    { conn with state := .connFree }
  have returns : ∀ fuel, pending.length < fuel →
      w.freeCall config junk i fuel = some (freed, lspErrNone) := by
    intro fuel enough
    rw [freeCall_eq, if_neg (not_not.mpr closed_i), zeros 0]
    simp [server, children, calls _ (fun _ => zeros _) fuel enough, freed]
  have freed_i : freed.conns i =
      { drained.conns i with state := .connFree } := by
    simp [freed, modifyConn, setConn]
  refine ⟨freed, ⟨pending.length + 1, returns⟩, ?_, ?_, ?_⟩
  · intro j member
    by_cases same : j = i
    · rw [same, freed_i]
    · have child := (List.mem_cons.mp member).resolve_left same
      simpa [freed, modifyConn, setConn, same] using free j child
  · intro j apart
    rw [List.mem_cons, not_or] at apart
    rw [← others j apart.2]
    simp [freed, modifyConn, setConn, apart.1]
  · intro again fuel
    have kept := others i outside
    have free_i : (freed.conns i).state = .connFree := by
      rw [freed_i]
    have server_i : (freed.conns i).type = connServer := by
      rw [freed_i, ← server, ← kept]
    have children_i : (freed.conns i).children = some handle := by
      rw [freed_i, ← children, ← kept]
    exact freeCall_of_destroyed free_i server_i children_i destroyed fuel

end Families

/-! ## For good -/

section ForGood

variable {w : SocketLayer} {config : ConnConfig} {junk : Nat → ConnJunk}
  {i : Nat} {pending : List Nat}

theorem closable_of_freedForGood (family : w.Family i pending)
    (freed : FreedForGood config junk w i pending) :
    Closable config (junk 0) w i := by
  obtain ⟨w', ⟨bound, returns⟩, _⟩ := freed
  exact closable_of_freeCall family.inUse (returns bound (Nat.le_refl _))

/-- A server still points to its queue when it is free. -/
theorem noServer_of_freedForGood (family : w.Family i pending)
    (freed : FreedForGood config junk w i pending) :
    (w.conns i).type ≠ connServer := by
  intro server
  obtain ⟨handle, children, _⟩ := family.server server
  obtain ⟨w', ⟨bound, returns⟩, free, destroyed, _, again⟩ := freed
  have ended := returns bound (Nat.le_refl _)
  have type : (w'.conns i).type = connServer :=
    (lspConnFree_type ended i).trans server
  have pointer : (w'.conns i).children = some handle :=
    (lspConnFree_field (fun _ _ => rfl) (fun _ => rfl) (fun _ => rfl)
      ended i).trans children
  obtain ⟨rc, ⟨bound', returns'⟩⟩ := again junk
  have result := returns' bound' (Nat.le_refl _)
  rw [freeCall_of_destroyed (free i List.mem_cons_self) type pointer
    (destroyed server handle children)] at result
  cases result

/-- A family is freed for good exactly when its head is no server and can be
closed. -/
theorem freedForGood_iff (family : w.Family i pending) (config : ConnConfig)
    (junk : Nat → ConnJunk) :
    FreedForGood config junk w i pending ↔
      (w.conns i).type ≠ connServer ∧ Closable config (junk 0) w i := by
  constructor
  · intro freed
    exact ⟨noServer_of_freedForGood family freed,
      closable_of_freedForGood family freed⟩
  · rintro ⟨noServer, closable⟩
    obtain ⟨freed, calls, free, others⟩ := freeCall_of_closable family.inUse
      noServer closable
    have type : (freed.conns i).type ≠ connServer := by
      rw [lspConnFree_type (calls 0) i]
      exact noServer
    rw [FreedForGood, family.alone noServer]
    refine ⟨freed, ⟨1, ?_⟩, ?_, ?_, ?_, ?_⟩
    · intro fuel enough
      obtain ⟨fuel, rfl⟩ := Nat.exists_eq_add_of_le' enough
      exact calls fuel
    · intro j member
      rw [List.mem_singleton.mp member]
      exact free
    · intro server
      exact absurd server noServer
    · intro j other
      exact others j fun same => other (same ▸ List.mem_cons_self)
    · intro again
      exact ⟨lspErrNone, 0, fun fuel _ => freeCall_of_free free type fuel⟩

end ForGood

section Examples

/-- Closed connections that were never linked, the first of which has a type
and children. -/
def closedConns (type : Nat) (children : Option Nat) : SocketLayer :=
  { conns := fun i =>
      if i = 0 then
        { clearedConn with
          type := type, state := .connClosed, children := children }
      else { clearedConn with state := .connClosed }
    links := ⟨fun _ => .null, fun _ => .null⟩
    ports := fun _ => .portClosed
    queues := Function.update (fun _ => none) 7 (some [1]) }

theorem closedClient_family : (closedConns connClient none).Family 0 [] :=
  { inUse := by decide
    server := by
      intro server
      cases server
    alone := fun _ => rfl
    distinct := by decide
    children := by
      intro child member
      cases member }

theorem closedServer_family :
    (closedConns connServer (some 7)).Family 0 [1] :=
  { inUse := by decide
    server := fun _ => ⟨7, rfl, rfl⟩
    alone := fun noServer => absurd rfl noServer
    distinct := by decide
    children := by
      intro child member
      rw [List.mem_singleton.mp member]
      decide }

/-- A closed client, with a zero on the stack. -/
theorem freedForGood_closedClient :
    FreedForGood ⟨true, false⟩ (fun _ => ⟨0, 0, 0⟩)
      (closedConns connClient none) 0 [] :=
  (freedForGood_iff closedClient_family _ _).mpr
    ⟨by decide, .inl ⟨rfl, rfl⟩⟩

/-- With a one on the stack the client stays in use; and a server with a
closed child cannot be freed twice, even with zeros. -/
theorem freedForGood_fails_twice :
    ((closedConns connClient none).freeCall ⟨true, false⟩
        (fun _ => ⟨1, 0, 0⟩) 0 5).map (fun freed =>
          (freed.2, (freed.1.conns 0).state)) =
        some (1, .connClosed) ∧
      ¬FreedForGood ⟨true, false⟩ (fun _ => ⟨1, 0, 0⟩)
        (closedConns connClient none) 0 [] ∧
      ¬FreedForGood ⟨true, false⟩ (fun _ => ⟨0, 0, 0⟩)
        (closedConns connServer (some 7)) 0 [1] := by
  refine ⟨by decide, ?_, ?_⟩
  · intro freed
    rcases closable_of_freedForGood closedClient_family freed with
      ⟨_, rc⟩ | ⟨stillOpen, _⟩
    · cases rc
    · exact stillOpen rfl
  · intro freed
    exact noServer_of_freedForGood closedServer_family freed rfl

end Examples

end SocketLayer

end Liblsp
