import Liblsp.RouteReaders

/-!
# What callers of the routing table can rely on

Over a table that has a route, any interleaving of loads and stores is as good
as one of whole searches and whole sections.  In particular `lsp_route_find`
answers as if it had searched at one instant of the call, and it never returns
an interface that was not announced for its address.
-/

namespace Liblsp

open Base

namespace RouteAccesses

open Routing

variable {Tid Iface : Type}

/-- The calls of `lsp_route_add` that have started. -/
def added (accesses : List (RouteAccess Tid Iface)) :
    List (RouteCall Iface) :=
  accesses.filterMap fun
    | .call _ (.add call) => some call
    | _ => none

theorem added_append (before after : List (RouteAccess Tid Iface)) :
    added (before ++ after) = added before ++ added after :=
  List.filterMap_append

theorem initial_refines {routing : Routing Iface} {blocks : List Nat}
    (held : routing.Holds blocks) (occupied : blocks ≠ []) :
    Refines (initial routing : RouteAccesses Tid Iface)
      (RouteThreads.initial routing) blocks := by
  constructor
  · exact RouteThreads.initial_sound held
  · exact occupied
  · intro thread
    exact ⟨fun no => absurd no Bool.false_ne_true, fun no => (nomatch no)⟩
  · exact fun _ => rfl
  · exact fun _ no => nomatch no
  · exact fun _ => .outside

/-- The interface in memory is that of the other system, or one that is being
stored for the address of the route. -/
theorem Refines.iface {s : RouteAccesses Tid Iface}
    {t : RouteThreads Tid Iface} {blocks : List Nat}
    (refines : Refines s t blocks) (address : Nat) :
    (s.routing.route address).iface = (t.routing.route address).iface ∨
      ∃ thread call, (t.point thread).call = some call ∧
        call.addr = (t.routing.route address).addr ∧
        call.iface = (s.routing.route address).iface := by
  cases owner : s.owner with
  | none =>
      rw [refines.free owner]
      exact .inl rfl
  | some thread =>
      have unfinished := refines.busy thread owner
      cases place : s.place thread with
      | linking call route next store =>
          rw [place] at unfinished
          obtain ⟨_, memory⟩ := unfinished
          rw [memory]
          left
          cases store <;> rfl
      | replacing call route store =>
          rw [place] at unfinished
          cases store with
          | iface =>
              have memory : s.routing = t.routing := unfinished
              rw [memory]
              exact .inl rfl
          | linkspeed =>
              have memory : s.routing =
                t.routing.storeRoute call route .iface := unfinished
              have point : t.point thread = .replacing call route :=
                refines.point_eq (by rw [place]; rfl)
              obtain ⟨target, _, rfl, addr⟩ :=
                refines.sound.known thread call route (by rw [point]; rfl)
              rw [memory]
              by_cases same : address = target
              · rw [same]
                refine .inr ⟨thread, call, by rw [point]; rfl, addr.symm, ?_⟩
                simp [Routing.route, storeRoute]
              · left
                simp [Routing.route, storeRoute, same]
          | timestamp =>
              have memory : t.routing =
                s.routing.storeRoute call route .timestamp := unfinished
              rw [memory]
              left
              by_cases same : RouteNode.block address = route
              · simp [Routing.route, storeRoute, ← same]
              · simp [Routing.route, storeRoute, same]
      | _ =>
          rw [place] at unfinished
          have memory : s.routing = t.routing := unfinished
          rw [memory]
          exact .inl rfl

variable [DecidableEq Tid]

theorem requested_of_run {start s : RouteAccesses Tid Iface}
    {accesses : List (RouteAccess Tid Iface)}
    (idle : ∀ thread, start.place thread = .outside)
    (run : Run step Anywhere start accesses s) {thread : Tid}
    {call : RouteCall Iface}
    (inside : (s.place thread).request = some (.add call)) :
    call ∈ added accesses := by
  have whole : ∀ thread call,
      (s.place thread).request = some (.add call) →
      call ∈ added accesses := by
    apply run.history
    · intro thread call inside
      rw [idle thread] at inside
      cases inside
    · intro accesses state action next _ property _ stepped other otherCall
        now
      rw [added_append]
      rcases step_cases stepped with
        ⟨thread, request, rfl, _, rfl⟩ | ⟨thread, outcome, rfl, goes⟩
      · rcases seen_cases RoutePlace.request now with ⟨_, new⟩ | ⟨_, old⟩
        · cases new
          exact List.mem_append_right _ (by simp [added])
        · exact List.mem_append_left _ (property other otherCall old)
      · apply List.mem_append_left
        have kept := goes.request_kept other (.add otherCall) now
        exact property other otherCall kept
  exact whole thread call inside

theorem Refines.start {s : RouteAccesses Tid Iface}
    {t : RouteThreads Tid Iface} {blocks : List Nat} {thread : Tid}
    (refines : Refines s t blocks) (place : s.place thread = .outside)
    (request : RouteRequest Iface) :
    Refines (s.moveTo thread (.loop request .start)) t blocks := by
  have point : t.point thread = .outside :=
    refines.point_eq (by rw [place]; rfl)
  apply refines.unseen (by rw [place]; rfl) rfl
  rw [point]
  exact .opens .start

/-- A run of whole searches and sections that ends alike. -/
structure Atomic (routing : Routing Iface)
    (accesses : List (RouteAccess Tid Iface)) (s : RouteAccesses Tid Iface)
    (actions : List (RouteAction Tid Iface)) (t : RouteThreads Tid Iface) :
    Prop where
  run : Run RouteThreads.step Anywhere (RouteThreads.initial routing) actions
    t
  calls : ∀ call, call ∈ RouteThreads.announced actions →
    call ∈ added accesses
  memory : s.owner = none → s.routing = t.routing
  outside : ∀ thread, s.place thread = .outside → t.point thread = .outside
  linking : ∀ thread call route, s.place thread = .lockLink call route →
    t.point thread = .linking call route
  replacing : ∀ thread call route, s.place thread = .lockReplace call route →
    t.point thread = .replacing call route

/-- The two runs at every moment. -/
theorem refines_of_run {routing : Routing Iface} {blocks : List Nat}
    (held : routing.Holds blocks) (occupied : blocks ≠ [])
    {accesses : List (RouteAccess Tid Iface)} {s : RouteAccesses Tid Iface}
    (run : Run step Anywhere (initial routing) accesses s) :
    ∃ actions t blocks',
      Run RouteThreads.step Anywhere (RouteThreads.initial routing) actions
        t ∧
      (∀ call, call ∈ RouteThreads.announced actions →
        call ∈ added accesses) ∧
      Refines s t blocks' := by
  apply run.history
  · exact ⟨[], _, blocks, .nil, fun _ member => (nomatch member),
      initial_refines held occupied⟩
  · intro accesses state action next before property _ stepped
    obtain ⟨actions, t, blocks', coarse, calls, refines⟩ := property
    rw [added_append]
    rcases step_cases stepped with
      ⟨thread, request, rfl, place, rfl⟩ | ⟨thread, outcome, rfl, goes⟩
    · refine ⟨actions, t, blocks', coarse, ?_, refines.start place request⟩
      exact fun call member => List.mem_append_left _ (calls call member)
    · obtain ⟨more, t', grown, rest, later, _, known⟩ :=
        refines.advances goes
      refine ⟨actions ++ more, t', grown ++ blocks', coarse.append rest, ?_,
        later⟩
      intro call member
      rw [RouteThreads.announced_append] at member
      apply List.mem_append_left
      rcases List.mem_append.mp member with old | new
      · exact calls call old
      · exact requested_of_run (fun _ => rfl) before (known call new)

/-- Any interleaving of loads and stores over a table that has a route does
what some interleaving of whole searches and whole locked sections does. -/
theorem atomic_of_run {routing : Routing Iface} {blocks : List Nat}
    (held : routing.Holds blocks) (occupied : blocks ≠ [])
    {accesses : List (RouteAccess Tid Iface)} {s : RouteAccesses Tid Iface}
    (run : Run step Anywhere (initial routing) accesses s) :
    ∃ actions t, Atomic routing accesses s actions t := by
  obtain ⟨actions, t, blocks', coarse, calls, refines⟩ :=
    refines_of_run held occupied run
  refine ⟨actions, t, coarse, calls, refines.free, ?_, ?_, ?_⟩
  · intro thread place
    exact refines.point_eq (by rw [place]; rfl)
  · intro thread call route place
    exact refines.point_eq (by rw [place]; rfl)
  · intro thread call route place
    exact refines.point_eq (by rw [place]; rfl)

/-! ## What a search returns -/

/-- At some instant since its call a search without interruption would have
ended with `found`. -/
def Seen (routing : Routing Iface) (accesses : List (RouteAccess Tid Iface))
    (thread : Tid) (request : RouteRequest Iface)
    (found : Option RouteNode) : Prop :=
  ∃ before after s, accesses = before ++ after ∧
    Run step Anywhere (initial routing) before s ∧
    (s.place thread).request = some request ∧
    (∀ other, RouteAccess.call thread other ∉ after) ∧
    Returns (s.routing.lookUp request.addr) found

theorem Seen.later {routing : Routing Iface}
    {accesses : List (RouteAccess Tid Iface)} {thread : Tid}
    {request : RouteRequest Iface} {found : Option RouteNode}
    (seen : Seen routing accesses thread request found)
    {access : RouteAccess Tid Iface}
    (inside : ∀ other, access ≠ .call thread other) :
    Seen routing (accesses ++ [access]) thread request found := by
  obtain ⟨before, after, s, split, run, called, same, searched⟩ := seen
  refine ⟨before, after ++ [access], s, ?_, run, called, ?_, searched⟩
  · rw [split, List.append_assoc]
  · intro other member
    rcases List.mem_append.mp member with old | new
    · exact same other old
    · exact inside other (List.mem_singleton.mp new).symm

/-- A loop that has read the first node is going to end at a route that was
right at some instant. -/
def Decided (routing t : Routing Iface) (blocks : List Nat)
    (accesses : List (RouteAccess Tid Iface)) (thread : Tid)
    (place : RoutePlace Iface) : Prop :=
  ∀ request within, place = .loop request within →
    within.Decided .rtable (nodes blocks) (t.stops request.addr)
      (Seen routing accesses thread request)

section Deciding

variable {routing : Routing Iface} {s s' : RouteAccesses Tid Iface}
  {t : RouteThreads Tid Iface} {blocks : List Nat} {thread : Tid}
  {accesses : List (RouteAccess Tid Iface)}
  {outcome : Option (RouteResult Iface)}

theorem Decided.grows {m m' : Routing Iface} {place : RoutePlace Iface}
    (decided : Decided routing m blocks accesses thread place)
    (occupied : blocks ≠ []) (grown : List Nat)
    (same : ∀ address, address ∈ blocks →
      (m'.route address).addr = (m.route address).addr) :
    Decided routing m' (grown ++ blocks) accesses thread place := by
  intro request within inLoop
  rw [nodes_append]
  apply (decided request within inLoop).grows (nodes_ne_nil occupied)
  intro ptr member
  exact stops_congr same member

theorem Decided.later {m : Routing Iface} {place : RoutePlace Iface}
    (decided : Decided routing m blocks accesses thread place)
    {access : RouteAccess Tid Iface}
    (inside : ∀ other, access ≠ .call thread other) :
    Decided routing m blocks (accesses ++ [access]) thread place := by
  intro request within inLoop
  apply (decided request within inLoop).of_seen
  intro found seen
  exact seen.later inside

theorem Refines.seen {request : RouteRequest Iface}
    (refines : Refines s t blocks)
    (run : Run step Anywhere (initial routing) accesses s)
    (called : (s.place thread).request = some request) :
    Seen routing (accesses ++ [.go thread]) thread request
      ((visible (nodes blocks)).find?
        (t.routing.stops request.addr)) := by
  refine ⟨accesses, [.go thread], s, rfl, run, called, by simp, ?_⟩
  rw [← refines.agrees.stops]
  exact lspListFor_search_forward refines.forward _

theorem Refines.decides (refines : Refines s t blocks)
    (run : Run step Anywhere (initial routing) accesses s)
    (decided : Decided routing t.routing blocks accesses thread
      (s.place thread))
    (goes : Goes s thread s' outcome) :
    Decided routing t.routing blocks (accesses ++ [.go thread]) thread
      (s'.place thread) := by
  have moved : ∀ place : RoutePlace Iface,
      Function.update s.place thread place thread = place :=
    fun place => Function.update_self thread place s.place
  cases goes with
  | @walks request place called _ =>
      change Decided _ _ _ _ _ (Function.update s.place thread _ thread)
      rw [moved, refines.agrees.stops]
      intro again within inLoop
      cases inLoop
      have known : place.Decided .rtable (nodes blocks)
          (t.routing.stops request.addr)
          (Seen routing (accesses ++ [.go thread]) thread request) :=
        decided.later (by simp) request place called
      apply known.step refines.forward
      exact refines.seen run (by rw [called]; rfl)
  | _ =>
      change Decided _ _ _ _ _ (Function.update s.place thread _ thread)
      rw [moved]
      exact fun _ _ inLoop => nomatch inLoop

end Deciding

/-- What has been decided in a run stays right. -/
theorem decided_of_run {routing : Routing Iface} {blocks : List Nat}
    (held : routing.Holds blocks) (occupied : blocks ≠ [])
    {accesses : List (RouteAccess Tid Iface)} {s : RouteAccesses Tid Iface}
    (run : Run step Anywhere (initial routing) accesses s) :
    ∃ t blocks', Refines s t blocks' ∧
      ∀ thread, Decided routing t.routing blocks' accesses thread
        (s.place thread) := by
  apply run.history
  · exact ⟨_, blocks, initial_refines held occupied,
      fun _ _ _ inLoop => nomatch inLoop⟩
  · intro accesses state action next before property _ stepped
    obtain ⟨t, blocks', refines, decided⟩ := property
    rcases step_cases stepped with
      ⟨thread, request, rfl, place, rfl⟩ | ⟨thread, outcome, rfl, goes⟩
    · refine ⟨t, blocks', refines.start place request, ?_⟩
      intro other
      change Decided _ _ _ _ _
        (Function.update state.place thread _ other)
      by_cases same : other = thread
      · rw [same, Function.update_self]
        intro again within inLoop
        cases inLoop
        exact .inl .start
      · rw [Function.update_of_ne same]
        apply (decided other).later
        intro otherRequest called
        cases called
        exact same rfl
    · obtain ⟨_, t', grown, _, later, addrs, _⟩ := refines.advances goes
      refine ⟨t', grown ++ blocks', later, ?_⟩
      intro other
      apply Decided.grows _ refines.occupied grown addrs
      by_cases same : other = thread
      · rw [same]
        exact refines.decides before (decided thread) goes
      · rw [goes.others same]
        exact (decided other).later fun _ no => nomatch no

/-- `lsp_route_find` returns the interface of the route that a search without
interruption would have found at some instant of the call. -/
theorem lspRouteFind_atomic {routing : Routing Iface} {blocks : List Nat}
    (held : routing.Holds blocks) (occupied : blocks ≠ [])
    {accesses : List (RouteAccess Tid Iface)}
    {s s' : RouteAccesses Tid Iface}
    (run : Run step Anywhere (initial routing) accesses s) {thread : Tid}
    {addr : UInt16} {iface : Option Iface}
    (returned : s.exec (.go thread) = some (s', some (.found addr iface))) :
    ∃ found, Seen routing accesses thread (.find addr) found ∧
      iface = found.map fun route => (s.routing.routes route).iface := by
  obtain ⟨t, blocks', refines, decided⟩ := decided_of_run held occupied run
  obtain ⟨ptr, place, answer⟩ := (goes_of_access returned).found
  exact ⟨ptr, (decided thread _ _ place).ended, answer⟩

/-- Whatever `lsp_route_find` returns was announced for its address. -/
theorem lspRouteFind_known {routing : Routing Iface} {blocks : List Nat}
    (held : routing.Holds blocks) (occupied : blocks ≠ [])
    {accesses : List (RouteAccess Tid Iface)}
    {s s' : RouteAccesses Tid Iface}
    (run : Run step Anywhere (initial routing) accesses s) {thread : Tid}
    {addr : UInt16} {iface : Iface}
    (returned : s.exec (.go thread) =
      some (s', some (.found addr (some iface)))) :
    (∃ address, address ∈ blocks ∧ (routing.route address).addr = addr ∧
      (routing.route address).iface = iface) ∨
    ∃ call, call ∈ added accesses ∧ call.addr = addr ∧
      call.iface = iface := by
  obtain ⟨actions, t, blocks', coarse, calls, refines⟩ :=
    refines_of_run held occupied run
  obtain ⟨grown, informed⟩ := RouteThreads.informed_of_run held coarse
  have same := refines.sound.held.unique informed.sound.held
  obtain ⟨ptr, place, answer⟩ := (goes_of_access returned).found
  have follows := refines.follows thread
  rw [place] at follows
  generalize t.point thread = point at follows
  cases follows with
  | opens opens => cases opens
  | walks walks =>
      cases walks with
      | ended known =>
          obtain ⟨route, rfl, read⟩ := Option.map_eq_some_iff.mp answer.symm
          obtain ⟨listed, stopped⟩ := known route rfl
          obtain ⟨address, member, rfl⟩ := List.mem_map.mp listed
          have mine : (t.routing.route address).addr = addr :=
            of_decide_eq_true stopped
          rw [same] at member
          rcases refines.iface address with kept | ⟨other, call, inside,
            callAddr, callIface⟩
          · have old := informed.known address member
            rcases old with ⟨first, start, addr', iface'⟩ |
              ⟨call, announced, addr', iface'⟩
            · refine .inl ⟨first, start, addr'.trans mine, ?_⟩
              exact iface'.trans (kept.symm.trans read)
            · refine .inr ⟨call, calls call announced, addr'.trans mine, ?_⟩
              exact iface'.trans (kept.symm.trans read)
          · exact .inr ⟨call, calls call (informed.calls other call inside),
              callAddr.trans mine, callIface.trans read⟩

section Examples

open Routing (emptyRtable emptyRtable_holds twoRoutes twoRoutes_holds
  announce10 announce12)

/-- A loop starts before the last store of an insertion and ends after it. -/
def readsDuringInsertion : List (RouteAccess Nat Nat) :=
  .call 0 (.add (announce12 3 500)) :: List.replicate 14 (.go 0) ++
    [.call 1 (.find 11), .go 1, .go 1, .go 1, .go 0, .go 1]

private theorem readsDuringInsertion_view :
    ∃ s, Run step Anywhere (initial twoRoutes) readsDuringInsertion s ∧
      ∃ s', s.exec (.go 1) = some (s', some (.found 11 (some 2))) := by
  have executed :
      (execute step Anywhere (initial twoRoutes) readsDuringInsertion).map
        (fun s => (s.exec (.go 1)).map Prod.snd) =
          some (some (some (.found 11 (some 2)))) := by
    decide
  obtain ⟨s, run, view⟩ := exists_run_of_execute executed
  obtain ⟨⟨s', outcome⟩, called, same⟩ := Option.map_eq_some_iff.mp view
  have result : outcome = some (.found 11 (some 2)) := same
  subst result
  exact ⟨s, run, s', called⟩

theorem atomic_of_readsDuringInsertion :
    ∃ s, Run step Anywhere (initial twoRoutes) readsDuringInsertion s ∧
      ∃ actions t, Atomic twoRoutes readsDuringInsertion s actions t := by
  obtain ⟨s, run, _⟩ := readsDuringInsertion_view
  exact ⟨s, run, atomic_of_run twoRoutes_holds (by decide) run⟩

theorem lspRouteFind_atomic_readsDuringInsertion :
    ∃ s, Run step Anywhere (initial twoRoutes) readsDuringInsertion s ∧
      ∃ found, Seen twoRoutes readsDuringInsertion 1 (.find 11) found ∧
        some 2 = found.map fun route => (s.routing.routes route).iface := by
  obtain ⟨s, run, _, returned⟩ := readsDuringInsertion_view
  exact ⟨s, run,
    lspRouteFind_atomic twoRoutes_holds (by decide) run returned⟩

theorem lspRouteFind_known_readsDuringInsertion :
    (∃ address, address ∈ [1, 0] ∧ (twoRoutes.route address).addr = 11 ∧
      (twoRoutes.route address).iface = 2) ∨
    ∃ call, call ∈ added readsDuringInsertion ∧ call.addr = 11 ∧
      call.iface = 2 := by
  obtain ⟨s, run, _, returned⟩ := readsDuringInsertion_view
  exact lspRouteFind_known twoRoutes_holds (by decide) run returned

/-- The table is empty, and the first store of an insertion has been made. -/
def readsDuringFirstInsertion : List (RouteAccess Nat Nat) :=
  .call 0 (.add announce10) :: List.replicate 6 (.go 0) ++
    [.call 1 (.find 0), .go 1, .go 1, .go 1, .go 1]

/-- The loop then takes the head for a route, and what lies behind the head in
memory for its address and interface. -/
theorem readsDuringFirstInsertion_invents :
    emptyRtable.Holds [] ∧
      ∃ s, Run step Anywhere (initial emptyRtable)
          readsDuringFirstInsertion s ∧
        (s.exec (.go 1)).map Prod.snd = some (some (.found 0 (some 0))) ∧
        ∀ call, call ∈ added readsDuringFirstInsertion →
          call.addr = 10 := by
  have executed :
      (execute step Anywhere (initial emptyRtable)
          readsDuringFirstInsertion).map
        (fun s => (s.exec (.go 1)).map Prod.snd) =
          some (some (some (.found 0 (some 0)))) := by
    decide
  obtain ⟨s, run, view⟩ := exists_run_of_execute executed
  refine ⟨emptyRtable_holds, s, run, view, ?_⟩
  simp [added, readsDuringFirstInsertion, announce10]

end Examples

end RouteAccesses

end Liblsp
