import Liblsp.RouteThreads

/-!
# What discoveries leave in the table

Threads may run into each other in `lsp_route_add` and insert an address
twice.  Whatever they do, no route is ever lost, the address of a route never
changes, and its interface is one that was announced for that address.
-/

namespace Liblsp

open Base

namespace RouteThreads

variable {Tid Iface : Type} [DecidableEq Tid]

/-- Everything one step can do. -/
inductive Moves (s : RouteThreads Tid Iface) :
    RouteAction Tid Iface → RouteThreads Tid Iface → Prop where
  | searches {thread : Tid} {call : RouteCall Iface} {fuel : Nat}
      {found : Option RouteNode} :
      s.point thread = .outside →
      s.routing.lookUp call.addr fuel = some found →
      Moves s (.search thread call fuel)
        (s.moveTo thread (.searched call found))
  | noMemory {thread : Tid} {call : RouteCall Iface} :
      s.point thread = .searched call none →
      call.block = none →
      Moves s (.prepare thread) (s.moveTo thread .outside)
  | fills {thread : Tid} {call : RouteCall Iface} {address : Nat} :
      s.point thread = .searched call none →
      call.block = some address →
      address ∉ s.routing.allocated →
      Moves s (.prepare thread)
        (({ s with
            routing := ({ s.routing with
              allocated := address :: s.routing.allocated } :
                Routing Iface).fill (.block address) call } :
          RouteThreads Tid Iface).moveTo thread
            (.linking call (.block address)))
  | improves {thread : Tid} {call : RouteCall Iface} {route : RouteNode} :
      s.point thread = .searched call (some route) →
      s.routing.better route call.linkspeed = true →
      Moves s (.prepare thread) (s.moveTo thread (.replacing call route))
  | gives {thread : Tid} {call : RouteCall Iface} {route : RouteNode} :
      s.point thread = .searched call (some route) →
      s.routing.better route call.linkspeed = false →
      Moves s (.prepare thread) (s.moveTo thread .outside)
  | links {thread : Tid} {call : RouteCall Iface} {route : RouteNode} :
      s.point thread = .linking call route →
      Moves s (.commit thread)
        (({ s with routing := s.routing.link route } :
          RouteThreads Tid Iface).moveTo thread .outside)
  | replaces {thread : Tid} {call : RouteCall Iface} {route : RouteNode} :
      s.point thread = .replacing call route →
      Moves s (.commit thread)
        (({ s with routing := s.routing.replace route call } :
          RouteThreads Tid Iface).moveTo thread .outside)

theorem moves_of_step {s s' : RouteThreads Tid Iface}
    {action : RouteAction Tid Iface} (stepped : s.step action = some s') :
    Moves s action s' := by
  cases action with
  | search thread call fuel =>
      simp only [step] at stepped
      cases place : s.point thread with
      | outside =>
          rw [place] at stepped
          obtain ⟨found, searched, same⟩ :=
            Option.map_eq_some_iff.mp stepped
          subst s'
          exact .searches place searched
      | searched | linking | replacing => simp [place] at stepped
  | prepare thread =>
      simp only [step] at stepped
      cases place : s.point thread with
      | outside | linking | replacing => simp [place] at stepped
      | searched call found =>
          cases found with
          | none =>
              rw [place] at stepped
              obtain ⟨⟨routing, route⟩, memory, same⟩ :=
                Option.map_eq_some_iff.mp stepped
              cases block : call.block with
              | none =>
                  simp only [block, Routing.lspMalloc, Option.some.injEq,
                    Prod.mk.injEq] at memory
                  rw [← memory.2] at same
                  rw [← same]
                  exact .noMemory place block
              | some address =>
                  simp only [block, Routing.lspMalloc,
                    Option.ite_none_left_eq_some, Option.some.injEq,
                    Prod.mk.injEq] at memory
                  obtain ⟨unused, room, given⟩ := memory
                  rw [← room, ← given] at same
                  rw [← same]
                  exact .fills place block unused
          | some route =>
              simp only [place] at stepped
              cases comparison : s.routing.better route call.linkspeed with
              | true =>
                  rw [comparison, if_pos rfl] at stepped
                  rw [← Option.some.inj stepped]
                  exact .improves place comparison
              | false =>
                  rw [comparison, if_neg Bool.false_ne_true] at stepped
                  rw [← Option.some.inj stepped]
                  exact .gives place comparison
  | commit thread =>
      simp only [step] at stepped
      cases place : s.point thread with
      | outside | searched => simp [place] at stepped
      | linking call route =>
          simp only [place, Option.some.injEq] at stepped
          rw [← stepped]
          exact .links place
      | replacing call route =>
          simp only [place, Option.some.injEq] at stepped
          rw [← stepped]
          exact .replaces place

theorem step_of_moves {s s' : RouteThreads Tid Iface}
    {action : RouteAction Tid Iface} (moves : Moves s action s') :
    s.step action = some s' := by
  cases moves with
  | searches place searched => simp [step, place, searched]
  | noMemory place block => simp [step, place, block, Routing.lspMalloc]
  | fills place block unused =>
      simp [step, place, block, Routing.lspMalloc, unused]
  | improves place comparison | gives place comparison =>
      simp [step, place, comparison]
  | links place | replaces place => simp [step, place]

end RouteThreads

/-! ## What the threads are about to do -/

namespace RoutePoint

variable {Iface : Type}

/-- The new route on its way to the table. -/
def carried : RoutePoint Iface → Option RouteNode
  | .linking _ route => some route
  | _ => none

/-- The route of the table that a thread has found. -/
def target : RoutePoint Iface → Option (RouteCall Iface × RouteNode)
  | .searched call (some route) => some (call, route)
  | .replacing call route => some (call, route)
  | _ => none

def call : RoutePoint Iface → Option (RouteCall Iface)
  | .outside => none
  | .searched call _ => some call
  | .linking call _ => some call
  | .replacing call _ => some call

end RoutePoint

namespace RouteThreads

variable {Tid Iface : Type}

/-- The table, the new routes on their way to it, and the routes that the
threads have found in it. -/
structure Sound (s : RouteThreads Tid Iface) (blocks : List Nat) : Prop where
  held : s.routing.Holds blocks
  filled : ∀ thread call route, s.point thread = .linking call route →
    ∃ address, route = .block address ∧ address ∉ blocks ∧
      address ∈ s.routing.allocated ∧
      (s.routing.route address).addr = call.addr ∧
      (s.routing.route address).iface = call.iface
  apart : ∀ one other route, (s.point one).carried = some route →
    (s.point other).carried = some route → one = other
  known : ∀ thread call route, (s.point thread).target = some (call, route) →
    ∃ address, address ∈ blocks ∧ route = .block address ∧
      (s.routing.route address).addr = call.addr

theorem initial_sound {routing : Routing Iface} {blocks : List Nat}
    (held : routing.Holds blocks) :
    Sound (initial routing : RouteThreads Tid Iface) blocks := by
  constructor
  · exact held
  · exact fun _ _ _ linking => nomatch linking
  · exact fun _ _ _ carried => nomatch carried
  · exact fun _ _ _ target => nomatch target

/-- The calls of `lsp_route_add` that have started. -/
def announced (actions : List (RouteAction Tid Iface)) :
    List (RouteCall Iface) :=
  actions.filterMap fun
    | .search _ call _ => some call
    | _ => none

theorem announced_append (before after : List (RouteAction Tid Iface)) :
    announced (before ++ after) = announced before ++ announced after :=
  List.filterMap_append

variable [DecidableEq Tid]

namespace Sound

variable {s : RouteThreads Tid Iface} {blocks : List Nat}

theorem keeps {routing : Routing Iface} {thread : Tid}
    {point : RoutePoint Iface} (sound : Sound s blocks)
    (held : routing.Holds blocks)
    (addrs : ∀ address, (routing.route address).addr =
      (s.routing.route address).addr)
    (others : ∀ address, address ∉ blocks →
      routing.route address = s.routing.route address)
    (allocated : routing.allocated = s.routing.allocated)
    (empty : point.carried = none)
    (known : ∀ call route, point.target = some (call, route) →
      ∃ address, address ∈ blocks ∧ route = .block address ∧
        (s.routing.route address).addr = call.addr) :
    Sound (({ s with routing := routing } :
      RouteThreads Tid Iface).moveTo thread point) blocks := by
  constructor
  · exact held
  · intro other call route linking
    rcases point_cases linking with ⟨_, new⟩ | ⟨_, old⟩
    · rw [new] at empty
      cases empty
    · obtain ⟨address, shape, fresh, mine, addr, iface⟩ :=
        sound.filled other call route old
      have same : routing.route address = s.routing.route address :=
        others address fresh
      refine ⟨address, shape, fresh, ?_, ?_, ?_⟩
      · change address ∈ routing.allocated
        rw [allocated]
        exact mine
      · exact (congrArg LspRoute.addr same).trans addr
      · exact (congrArg LspRoute.iface same).trans iface
  · intro one other route carriedOne carriedOther
    exact sound.apart one other route (seen_of_hidden empty carriedOne).2
      (seen_of_hidden empty carriedOther).2
  · intro other call route target
    have placed : ∃ address, address ∈ blocks ∧ route = .block address ∧
        (s.routing.route address).addr = call.addr := by
      rcases seen_cases RoutePoint.target target with ⟨_, new⟩ | ⟨_, old⟩
      · exact known call route new
      · exact sound.known other call route old
    obtain ⟨address, member, shape, addr⟩ := placed
    exact ⟨address, member, shape, (addrs address).trans addr⟩

theorem leaves (sound : Sound s blocks) (thread : Tid) :
    Sound (s.moveTo thread .outside) blocks :=
  sound.keeps sound.held (fun _ => rfl) (fun _ _ => rfl) rfl rfl
    (fun _ _ target => nomatch target)

theorem improves {thread : Tid} {call : RouteCall Iface} {route : RouteNode}
    (sound : Sound s blocks)
    (searched : s.point thread = .searched call (some route)) :
    Sound (s.moveTo thread (.replacing call route)) blocks := by
  have known := sound.known thread call route (by rw [searched]; rfl)
  refine sound.keeps sound.held (fun _ => rfl) (fun _ _ => rfl) rfl rfl ?_
  intro other target found
  cases found
  exact known

theorem searches {thread : Tid} {call : RouteCall Iface} {fuel : Nat}
    {found : Option RouteNode} (sound : Sound s blocks)
    (searched : s.routing.lookUp call.addr fuel = some found) :
    Sound (s.moveTo thread (.searched call found)) blocks := by
  have hidden : (RoutePoint.searched call found).carried = none := rfl
  apply sound.keeps sound.held (fun _ => rfl) (fun _ _ => rfl) rfl hidden
  intro other route target
  have answer := sound.held.found_of_lookUp searched
  cases found with
  | none => cases target
  | some node =>
      cases target
      obtain ⟨address, seen, same⟩ := Option.map_eq_some_iff.mp answer.symm
      obtain ⟨member, addr⟩ := Routing.found_some seen
      exact ⟨address, member, same.symm, addr⟩

theorem fills {thread : Tid} {call : RouteCall Iface} {address : Nat}
    (sound : Sound s blocks) (unused : address ∉ s.routing.allocated) :
    Sound (({ s with
        routing := ({ s.routing with
          allocated := address :: s.routing.allocated } :
            Routing Iface).fill (.block address) call } :
      RouteThreads Tid Iface).moveTo thread
        (.linking call (.block address))) blocks := by
  have fresh : address ∉ blocks := fun member =>
    unused (sound.held.known address member)
  have others : ∀ other, other ≠ address →
      (({ s.routing with allocated := address :: s.routing.allocated } :
        Routing Iface).fill (.block address) call).route other =
        s.routing.route other := by
    intro other different
    rw [Routing.route_fill_other different]
    rfl
  have elsewhere : ∀ other call' route,
      s.point other = .linking call' route → route ≠ .block address := by
    intro other call' route linking same
    obtain ⟨place, shape, _, mine, _⟩ := sound.filled other call' route linking
    rw [same] at shape
    cases shape
    exact unused mine
  constructor
  · refine ⟨sound.held.ring, ?_⟩
    intro other member
    exact List.mem_cons_of_mem _ (sound.held.known other member)
  · intro other otherCall route linking
    rcases point_cases linking with ⟨_, new⟩ | ⟨_, old⟩
    · cases new
      have filled := Routing.route_fill_same
        ({ s.routing with allocated := address :: s.routing.allocated } :
          Routing Iface) address call
      exact ⟨address, rfl, fresh, List.mem_cons_self,
        congrArg LspRoute.addr filled, congrArg LspRoute.iface filled⟩
    · obtain ⟨place, shape, notIn, mine, addr, iface⟩ :=
        sound.filled other otherCall route old
      have different : place ≠ address := by
        intro same
        rw [same] at mine
        exact unused mine
      have same := others place different
      exact ⟨place, shape, notIn, List.mem_cons_of_mem _ mine,
        (congrArg LspRoute.addr same).trans addr,
        (congrArg LspRoute.iface same).trans iface⟩
  · apply apart_update sound.apart
    intro route carried other _ seen
    cases carried
    cases place : s.point other with
    | linking otherCall route =>
        rw [place] at seen
        cases seen
        exact elsewhere other otherCall _ place rfl
    | outside | searched | replacing =>
        rw [place] at seen
        cases seen
  · intro other otherCall route target
    rcases seen_cases RoutePoint.target target with ⟨_, new⟩ | ⟨_, old⟩
    · cases new
    · obtain ⟨place, member, shape, addr⟩ :=
        sound.known other otherCall route old
      refine ⟨place, member, shape, ?_⟩
      refine (congrArg LspRoute.addr (others place ?_)).trans addr
      intro same
      rw [same] at member
      exact fresh member

theorem links {thread : Tid} {call : RouteCall Iface} {route : RouteNode}
    (sound : Sound s blocks)
    (linking : s.point thread = .linking call route) :
    ∃ address, route = .block address ∧
      (s.routing.route address).addr = call.addr ∧
      (s.routing.route address).iface = call.iface ∧
      Sound (({ s with routing := s.routing.link route } :
        RouteThreads Tid Iface).moveTo thread .outside)
          (address :: blocks) := by
  obtain ⟨address, shape, fresh, mine, addr, iface⟩ :=
    sound.filled thread call route linking
  subst route
  have carried : (s.point thread).carried = some (.block address) := by
    rw [linking]
    rfl
  have hidden : (RoutePoint.outside : RoutePoint Iface).carried = none := rfl
  refine ⟨address, rfl, addr, iface, ?_⟩
  constructor
  · exact sound.held.link fresh mine
  · intro other otherCall route otherLinking
    rcases point_cases otherLinking with ⟨_, new⟩ | ⟨different, old⟩
    · cases new
    · obtain ⟨place, shape, notIn, known, theirs⟩ :=
        sound.filled other otherCall route old
      refine ⟨place, shape, ?_, known, theirs⟩
      intro member
      rcases List.mem_cons.mp member with same | inOld
      · have theirRoute : (s.point other).carried =
            some (.block address) := by
          rw [old, shape, same]
          rfl
        exact different (sound.apart other thread _ theirRoute carried)
      · exact notIn inOld
  · intro one other otherRoute carriedOne carriedOther
    exact sound.apart one other otherRoute
      (seen_of_hidden hidden carriedOne).2
      (seen_of_hidden hidden carriedOther).2
  · intro other otherCall otherRoute target
    rcases seen_cases RoutePoint.target target with ⟨_, new⟩ | ⟨_, old⟩
    · cases new
    · obtain ⟨place, member, same, theirs⟩ :=
        sound.known other otherCall otherRoute old
      exact ⟨place, List.mem_cons_of_mem _ member, same, theirs⟩

theorem replaces {thread : Tid} {call : RouteCall Iface} {route : RouteNode}
    (sound : Sound s blocks)
    (replacing : s.point thread = .replacing call route) :
    Sound (({ s with routing := s.routing.replace route call } :
      RouteThreads Tid Iface).moveTo thread .outside) blocks := by
  obtain ⟨address, member, shape, _⟩ :=
    sound.known thread call route (by rw [replacing]; rfl)
  subst route
  have hidden : (RoutePoint.outside : RoutePoint Iface).carried = none := rfl
  have held : (s.routing.replace (.block address) call).Holds blocks :=
    ⟨sound.held.ring, sound.held.known⟩
  refine sound.keeps held ?_ ?_ rfl hidden ?_
  · intro other
    exact s.routing.addr_replace (.block address) other call
  · intro other outside
    apply Routing.route_replace_other
    intro same
    rw [same] at outside
    exact outside member
  · exact fun _ _ target => nomatch target

end Sound

/-- A route after a step is one from before it, or that of a call. -/
def Stems (s s' : RouteThreads Tid Iface) (blocks : List Nat)
    (address : Nat) : Prop :=
  (address ∈ blocks ∧
    (s'.routing.route address).addr = (s.routing.route address).addr ∧
    (s'.routing.route address).iface = (s.routing.route address).iface) ∨
  ∃ thread call, (s.point thread).call = some call ∧
    call.addr = (s'.routing.route address).addr ∧
    call.iface = (s'.routing.route address).iface

/-- A step adds at most one route, in front, and changes no address. -/
theorem Sound.moves {s s' : RouteThreads Tid Iface} {blocks : List Nat}
    {action : RouteAction Tid Iface} (sound : Sound s blocks)
    (moves : Moves s action s') :
    ∃ added, Sound s' (added ++ blocks) ∧
      (∀ address, address ∈ blocks → (s'.routing.route address).addr =
        (s.routing.route address).addr) ∧
      ∀ address, address ∈ added ++ blocks → Stems s s' blocks address := by
  have addrs : ∀ address, address ∈ blocks →
      (s.routing.route address).addr = (s.routing.route address).addr :=
    fun _ _ => rfl
  have stems : ∀ address, address ∈ blocks → Stems s s blocks address :=
    fun _ member => .inl ⟨member, rfl, rfl⟩
  cases moves with
  | searches _ searched =>
      exact ⟨[], sound.searches searched, addrs, stems⟩
  | @noMemory thread => exact ⟨[], sound.leaves thread, addrs, stems⟩
  | @fills _ call address _ _ unused =>
      have same : ∀ other, other ∈ blocks →
          (({ s.routing with allocated := address :: s.routing.allocated } :
            Routing Iface).fill (.block address) call).route other =
            s.routing.route other := by
        intro other member
        apply Routing.route_fill_other
        intro equal
        rw [equal] at member
        exact unused (sound.held.known address member)
      refine ⟨[], sound.fills unused, ?_, ?_⟩
      · intro other member
        exact congrArg LspRoute.addr (same other member)
      · intro other member
        exact .inl ⟨member, congrArg LspRoute.addr (same other member),
          congrArg LspRoute.iface (same other member)⟩
  | improves searched => exact ⟨[], sound.improves searched, addrs, stems⟩
  | @gives thread => exact ⟨[], sound.leaves thread, addrs, stems⟩
  | @links thread call route linking =>
      obtain ⟨address, _, addr, iface, linked⟩ := sound.links linking
      refine ⟨[address], linked, addrs, ?_⟩
      intro other member
      rcases List.mem_cons.mp member with new | old
      · subst new
        exact .inr ⟨thread, call, by rw [linking]; rfl, addr.symm,
          iface.symm⟩
      · exact .inl ⟨old, rfl, rfl⟩
  | @replaces thread call route replacing =>
      obtain ⟨address, _, shape, addr⟩ :=
        sound.known thread call route (by rw [replacing]; rfl)
      refine ⟨[], sound.replaces replacing, ?_, ?_⟩
      · intro other _
        exact s.routing.addr_replace route other call
      · intro other member
        subst shape
        have kept := s.routing.addr_replace (.block address) other call
        by_cases same : other = address
        · subst same
          refine .inr ⟨thread, call, by rw [replacing]; rfl, ?_, ?_⟩
          · exact (kept.trans addr).symm
          · exact (congrArg LspRoute.iface
              (s.routing.route_replace_same other call)).symm
        · exact .inl ⟨member, kept, congrArg LspRoute.iface
            (Routing.route_replace_other same)⟩

/-! ## Whole runs -/

/-- A table grows in front only, and its routes keep their addresses. -/
theorem Sound.grows {s s' : RouteThreads Tid Iface} {blocks : List Nat}
    {actions : List (RouteAction Tid Iface)} (sound : Sound s blocks)
    (run : Run step Anywhere s actions s') :
    ∃ added, Sound s' (added ++ blocks) ∧
      s'.routing.addresses blocks = s.routing.addresses blocks := by
  induction run with
  | nil => exact ⟨[], sound, rfl⟩
  | snoc _ _ stepped induction =>
      obtain ⟨before, middle, same⟩ := induction
      obtain ⟨more, last, kept, _⟩ := middle.moves (moves_of_step stepped)
      refine ⟨more ++ before, ?_, ?_⟩
      · rw [List.append_assoc]
        exact last
      · rw [← same]
        apply Routing.addresses_congr
        intro address member
        exact kept address (List.mem_append_right before member)

/-- The address and the interface of a route are those of a route that the
table began with, or those of a call. -/
def Known (start : Routing Iface) (blocks : List Nat)
    (calls : List (RouteCall Iface)) (route : LspRoute Iface) : Prop :=
  (∃ address, address ∈ blocks ∧
    (start.route address).addr = route.addr ∧
    (start.route address).iface = route.iface) ∨
  ∃ call, call ∈ calls ∧ call.addr = route.addr ∧ call.iface = route.iface

theorem Known.more {start : Routing Iface} {blocks : List Nat}
    {calls : List (RouteCall Iface)} {route route' : LspRoute Iface}
    (known : Known start blocks calls route) (addr : route'.addr = route.addr)
    (iface : route'.iface = route.iface) (later : List (RouteCall Iface)) :
    Known start blocks (calls ++ later) route' := by
  rcases known with ⟨address, member, theirs⟩ | ⟨call, member, theirs⟩
  · rw [← addr, ← iface] at theirs
    exact .inl ⟨address, member, theirs⟩
  · rw [← addr, ← iface] at theirs
    exact .inr ⟨call, List.mem_append_left later member, theirs⟩

theorem call_of_moves {s s' : RouteThreads Tid Iface}
    {action : RouteAction Tid Iface} (moves : Moves s action s')
    {thread : Tid} {call : RouteCall Iface}
    (inside : (s'.point thread).call = some call) :
    (s.point thread).call = some call ∨ call ∈ announced [action] := by
  cases moves with
  | @searches other started fuel found _ _ =>
      rcases seen_cases RoutePoint.call inside with ⟨_, new⟩ | ⟨_, old⟩
      · cases new
        exact .inr (by simp [announced])
      · exact .inl old
  | noMemory | gives | links | replaces =>
      have hidden : (RoutePoint.outside : RoutePoint Iface).call = none := rfl
      exact .inl (seen_of_hidden hidden inside).2
  | fills searched | improves searched =>
      refine .inl (seen_of_kept (.inr ?_) inside)
      rw [searched]
      rfl

/-- What is known of the threads and of the table. -/
structure Informed (start : Routing Iface) (blocks : List Nat)
    (calls : List (RouteCall Iface)) (s : RouteThreads Tid Iface)
    (added : List Nat) : Prop where
  sound : Sound s (added ++ blocks)
  addresses : s.routing.addresses blocks = start.addresses blocks
  known : ∀ address, address ∈ added ++ blocks →
    Known start blocks calls (s.routing.route address)
  calls : ∀ thread call, (s.point thread).call = some call → call ∈ calls

theorem informed_of_run {routing : Routing Iface} {blocks : List Nat}
    (held : routing.Holds blocks) {actions : List (RouteAction Tid Iface)}
    {s : RouteThreads Tid Iface}
    (run : Run step Anywhere (initial routing) actions s) :
    ∃ added, Informed routing blocks (announced actions) s added := by
  apply run.history
  · refine ⟨[], initial_sound held, rfl, ?_, ?_⟩
    · exact fun address member => .inl ⟨address, member, rfl, rfl⟩
    · exact fun _ _ inside => nomatch inside
  · intro actions state action next _ property _ stepped
    obtain ⟨added, sound, addresses, known, calls⟩ := property
    have moves := moves_of_step stepped
    obtain ⟨more, later, addrs, stems⟩ := sound.moves moves
    rw [announced_append]
    refine ⟨more ++ added, ?_, ?_, ?_, ?_⟩
    · rw [List.append_assoc]
      exact later
    · rw [← addresses]
      apply Routing.addresses_congr
      intro address member
      exact addrs address (List.mem_append_right added member)
    · intro address member
      rw [List.append_assoc] at member
      rcases stems address member with
        ⟨old, addr, iface⟩ | ⟨thread, call, inside, addr, iface⟩
      · exact (known address old).more addr iface _
      · exact .inr ⟨call, List.mem_append_left _
          (calls thread call inside), addr, iface⟩
    · intro thread call inside
      rcases call_of_moves moves inside with old | new
      · exact List.mem_append_left _ (calls thread call old)
      · exact List.mem_append_right _ new

theorem found_of_grown {t t' : Routing Iface} {blocks added : List Nat}
    {addr : UInt16} {address : Nat}
    (found : t.found blocks addr = some address)
    (same : t'.addresses blocks = t.addresses blocks) :
    ∃ other, t'.found (added ++ blocks) addr = some other := by
  obtain ⟨member, mine⟩ := Routing.found_some found
  have several : 2 ≤ blocks.length := by
    by_contra few
    have hidden : visible blocks = [] := visible_eq_nil_iff.mpr (by omega)
    rw [Routing.found, hidden] at found
    cases found
  have there : addr ∈ t'.addresses (added ++ blocks) := by
    have old : addr ∈ t.addresses blocks := by
      rw [← mine]
      exact List.mem_map_of_mem member
    rw [← same] at old
    rw [Routing.addresses, List.map_append]
    exact List.mem_append_right _ old
  cases answer : t'.found (added ++ blocks) addr with
  | some other => exact ⟨other, rfl⟩
  | none =>
      rw [Routing.found_eq_none, visible_of_length_ne_one] at answer
      · exact absurd there answer
      · rw [Routing.addresses, List.length_map, List.length_append]
        omega

/-- Once `lsp_route_find` knows an interface for an address it always will,
whatever the threads do, and the interface is one that was announced for the
address. -/
theorem lspRouteFind_stays {routing : Routing Iface} {blocks : List Nat}
    (held : routing.Holds blocks)
    {before after : List (RouteAction Tid Iface)}
    {s s' : RouteThreads Tid Iface}
    (run : Run step Anywhere (initial routing) before s)
    (rest : Run step Anywhere s after s') {addr : UInt16} {iface : Iface}
    (answer : Returns (s.routing.lspRouteFind addr) (some iface)) :
    ∃ route : LspRoute Iface,
      Returns (s'.routing.lspRouteFind addr) (some route.iface) ∧
      route.addr = addr ∧
      Known routing blocks (announced (before ++ after)) route := by
  obtain ⟨early, informed⟩ := informed_of_run held run
  obtain ⟨late, last, same⟩ := informed.sound.grows rest
  have sound := informed.sound
  have old := (sound.held.lspRouteFind_returns addr).unique answer
  obtain ⟨address, found, _⟩ := Option.map_eq_some_iff.mp old
  obtain ⟨other, later⟩ := found_of_grown found same
  obtain ⟨member, mine⟩ := Routing.found_some later
  obtain ⟨added, whole⟩ := informed_of_run held (run.append rest)
  refine ⟨s'.routing.route other, ?_, mine, ?_⟩
  · have returns := last.held.lspRouteFind_returns addr
    rw [later] at returns
    exact returns
  · apply whole.known
    rw [whole.sound.held.unique last.held]
    exact member

section Examples

open Routing (twoRoutes twoRoutes_holds announce12)

theorem lspRouteFind_stays_discoverTwice :
    ∃ s, Run step Anywhere (initial twoRoutes) discoverTwice s ∧
      ∃ route : LspRoute Nat,
        Returns (s.routing.lspRouteFind 11) (some route.iface) ∧
        route.addr = 11 ∧
        Known twoRoutes [1, 0] (announced ([] ++ discoverTwice)) route := by
  have executed :
      (execute step Anywhere (initial twoRoutes) discoverTwice).map
        (fun s => s.routing.addresses [3, 2, 1, 0]) =
          some [12, 12, 11, 10] := by
    decide
  obtain ⟨s, run, _⟩ := exists_run_of_execute executed
  refine ⟨s, run, ?_⟩
  exact lspRouteFind_stays twoRoutes_holds .nil run
    (twoRoutes_holds.lspRouteFind_returns 11)

end Examples

end RouteThreads

end Liblsp
