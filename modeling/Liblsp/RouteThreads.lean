import Liblsp.Base.Run
import Liblsp.Base.Threads
import Liblsp.RouteBest
import Mathlib.Data.Fintype.Basic

/-!
# Threads that discover routes

`lsp_route_add` searches the table without its mutex.  Between a search that
finds nothing and the locked insertion other threads run, and nobody repeats
the search.
-/

namespace Liblsp

open Base

/-- Where a thread is in `lsp_route_add`: outside, after the search, or
before one of the two locked sections. -/
inductive RoutePoint (Iface : Type) where
  | outside
  | searched (call : RouteCall Iface) (found : Option RouteNode)
  | linking (call : RouteCall Iface) (route : RouteNode)
  | replacing (call : RouteCall Iface) (route : RouteNode)

structure RouteThreads (Tid Iface : Type) where
  routing : Routing Iface
  point : Tid → RoutePoint Iface

inductive RouteAction (Tid Iface : Type) where
  | search (thread : Tid) (call : RouteCall Iface) (fuel : Nat)
  | prepare (thread : Tid)
  | commit (thread : Tid)

/-- The address a thread is going to insert a route for. -/
def RoutePoint.pending {Iface : Type} : RoutePoint Iface → Option UInt16
  | .searched call none => some call.addr
  | .linking call _ => some call.addr
  | _ => none

namespace RouteThreads

variable {Tid Iface : Type} [DecidableEq Tid]

def moveTo (s : RouteThreads Tid Iface) (thread : Tid)
    (point : RoutePoint Iface) : RouteThreads Tid Iface :=
  { s with point := Function.update s.point thread point }

/-- One step of `lsp_route_add`: the search, the statements up to the lock,
or a locked section. -/
def step (s : RouteThreads Tid Iface) :
    RouteAction Tid Iface → Option (RouteThreads Tid Iface)
  | .search thread call fuel =>
      match s.point thread with
      | .outside =>
          (s.routing.lookUp call.addr fuel).map fun found =>
            s.moveTo thread (.searched call found)
      | _ => none
  | .prepare thread =>
      match s.point thread with
      | .searched call none =>
          (s.routing.lspMalloc call.block).map fun
            | (_, none) => s.moveTo thread .outside
            | (routing, some route) =>
                ({ s with routing := routing.fill route call } :
                  RouteThreads Tid Iface).moveTo thread (.linking call route)
      | .searched call (some route) =>
          if s.routing.better route call.linkspeed then
            some (s.moveTo thread (.replacing call route))
          else some (s.moveTo thread .outside)
      | _ => none
  | .commit thread =>
      match s.point thread with
      | .linking _ route =>
          some (({ s with routing := s.routing.link route } :
            RouteThreads Tid Iface).moveTo thread .outside)
      | .replacing call route =>
          some (({ s with routing := s.routing.replace route call } :
            RouteThreads Tid Iface).moveTo thread .outside)
      | _ => none

/-- A search that finds nothing is made only while no other thread is on its
way to insert a route for the same address. -/
def SearchesAlone (s : RouteThreads Tid Iface) :
    RouteAction Tid Iface → Prop
  | .search _ call fuel =>
      s.routing.lookUp call.addr fuel = some none →
        ∀ other, (s.point other).pending ≠ some call.addr
  | _ => True

instance [Fintype Tid] (s : RouteThreads Tid Iface)
    (action : RouteAction Tid Iface) : Decidable (SearchesAlone s action) :=
  match action with
  | .search .. => inferInstanceAs (Decidable (_ → ∀ _, _))
  | .prepare _ | .commit _ => inferInstanceAs (Decidable True)

/-- The table and the routes on their way to it. -/
structure OnePerAddress (s : RouteThreads Tid Iface)
    (blocks : List Nat) : Prop where
  held : s.routing.Holds blocks
  several : 2 ≤ blocks.length
  distinct : (s.routing.addresses blocks).Nodup
  absent : ∀ thread addr, (s.point thread).pending = some addr →
    addr ∉ s.routing.addresses blocks
  filled : ∀ thread call route, s.point thread = .linking call route →
    ∃ address, route = .block address ∧ address ∉ blocks ∧
      address ∈ s.routing.allocated ∧
      (s.routing.route address).addr = call.addr
  apart : ∀ thread other addr, (s.point thread).pending = some addr →
    (s.point other).pending = some addr → thread = other

namespace OnePerAddress

variable {s : RouteThreads Tid Iface} {blocks : List Nat}

theorem keeps {routing : Routing Iface} {thread : Tid}
    {point : RoutePoint Iface} (invariant : OnePerAddress s blocks)
    (held : routing.Holds blocks)
    (addrs : ∀ address, (routing.route address).addr =
      (s.routing.route address).addr)
    (allocated : routing.allocated = s.routing.allocated)
    (settled : point.pending = none) :
    OnePerAddress (({ s with routing := routing } :
      RouteThreads Tid Iface).moveTo thread point) blocks := by
  have addresses : routing.addresses blocks =
      s.routing.addresses blocks :=
    Routing.addresses_congr fun address _ => addrs address
  constructor
  · exact held
  · exact invariant.several
  · change (routing.addresses blocks).Nodup
    rw [addresses]
    exact invariant.distinct
  · intro other addr pending
    change addr ∉ routing.addresses blocks
    rw [addresses]
    exact invariant.absent other addr (seen_of_hidden settled pending).2
  · intro other call route linking
    rcases point_cases linking with ⟨_, new⟩ | ⟨_, old⟩
    · rw [new] at settled
      cases settled
    · obtain ⟨address, shape, fresh, known, addr⟩ :=
        invariant.filled other call route old
      refine ⟨address, shape, fresh, ?_, ?_⟩
      · change address ∈ routing.allocated
        rw [allocated]
        exact known
      · exact (addrs address).trans addr
  · intro one other addr pendingOne pendingOther
    exact invariant.apart one other addr (seen_of_hidden settled pendingOne).2
      (seen_of_hidden settled pendingOther).2

/-- A search that finds nothing, with nobody else on the way. -/
theorem searches {thread : Tid} {call : RouteCall Iface}
    (invariant : OnePerAddress s blocks)
    (missing : s.routing.found blocks call.addr = none)
    (alone : ∀ other, (s.point other).pending ≠ some call.addr) :
    OnePerAddress (s.moveTo thread (.searched call none)) blocks := by
  have absent : call.addr ∉ s.routing.addresses blocks := by
    have several := invariant.several
    rw [Routing.found_eq_none, visible_of_length_ne_one] at missing
    · exact missing
    · rw [Routing.addresses, List.length_map]
      omega
  constructor
  · exact invariant.held
  · exact invariant.several
  · exact invariant.distinct
  · intro other addr pending
    rcases seen_cases RoutePoint.pending pending with ⟨_, new⟩ | ⟨_, old⟩
    · cases new
      exact absent
    · exact invariant.absent other addr old
  · intro other otherCall route linking
    rcases point_cases linking with ⟨_, new⟩ | ⟨_, old⟩
    · cases new
    · exact invariant.filled other otherCall route old
  · apply apart_update invariant.apart
    intro addr pending other _
    rw [← pending]
    exact alone other

theorem fills {thread : Tid} {call : RouteCall Iface} {address : Nat}
    (invariant : OnePerAddress s blocks)
    (searched : s.point thread = .searched call none)
    (unused : address ∉ s.routing.allocated) :
    OnePerAddress (({ s with
        routing := ({ s.routing with
          allocated := address :: s.routing.allocated } :
            Routing Iface).fill (.block address) call } :
      RouteThreads Tid Iface).moveTo thread
        (.linking call (.block address))) blocks := by
  have fresh : address ∉ blocks := fun member =>
    unused (invariant.held.known address member)
  have others : ∀ other, other ≠ address →
      (({ s.routing with allocated := address :: s.routing.allocated } :
        Routing Iface).fill (.block address) call).route other =
        s.routing.route other := by
    intro other different
    rw [Routing.route_fill_other different]
    rfl
  have addresses :
      (({ s.routing with allocated := address :: s.routing.allocated } :
        Routing Iface).fill (.block address) call).addresses blocks =
        s.routing.addresses blocks := by
    apply Routing.addresses_congr
    intro other member
    rw [others]
    intro same
    rw [same] at member
    exact fresh member
  have kept : (RoutePoint.linking call (.block address)).pending =
      (s.point thread).pending := by
    rw [searched]
    rfl
  constructor
  · refine ⟨invariant.held.ring, ?_⟩
    intro other member
    exact List.mem_cons_of_mem _ (invariant.held.known other member)
  · exact invariant.several
  · refine Eq.mpr (congrArg List.Nodup addresses) ?_
    exact invariant.distinct
  · intro other addr pending member
    exact invariant.absent other addr (seen_of_kept (.inr kept) pending)
      (addresses ▸ member)
  · intro other otherCall route linking
    rcases point_cases linking with ⟨_, new⟩ | ⟨_, old⟩
    · cases new
      refine ⟨address, rfl, fresh, List.mem_cons_self, ?_⟩
      exact congrArg LspRoute.addr (Routing.route_fill_same _ address call)
    · obtain ⟨place, shape, notIn, known, addr⟩ :=
        invariant.filled other otherCall route old
      refine ⟨place, shape, notIn, List.mem_cons_of_mem _ known, ?_⟩
      refine (congrArg LspRoute.addr (others place ?_)).trans addr
      intro equal
      rw [equal] at known
      exact unused known
  · intro one other addr pendingOne pendingOther
    exact invariant.apart one other addr (seen_of_kept (.inr kept) pendingOne)
      (seen_of_kept (.inr kept) pendingOther)

theorem links {thread : Tid} {call : RouteCall Iface} {route : RouteNode}
    (invariant : OnePerAddress s blocks)
    (linking : s.point thread = .linking call route) :
    ∃ blocks', OnePerAddress (({ s with
      routing := s.routing.link route } :
        RouteThreads Tid Iface).moveTo thread .outside) blocks' := by
  obtain ⟨address, shape, fresh, known, addr⟩ :=
    invariant.filled thread call route linking
  subst route
  have mine : (s.point thread).pending = some call.addr := by
    rw [linking]
    rfl
  have addresses : (s.routing.link (.block address)).addresses
      (address :: blocks) = call.addr :: s.routing.addresses blocks := by
    rw [← addr]
    rfl
  have hidden : (RoutePoint.outside : RoutePoint Iface).pending = none := rfl
  refine ⟨address :: blocks, ?_⟩
  constructor
  · exact invariant.held.link fresh known
  · have several := invariant.several
    rw [List.length_cons]
    omega
  · refine Eq.mpr (congrArg List.Nodup addresses) ?_
    exact List.nodup_cons.mpr
      ⟨invariant.absent thread call.addr mine, invariant.distinct⟩
  · intro other otherAddr pending member
    obtain ⟨different, old⟩ := seen_of_hidden hidden pending
    have inTable : otherAddr ∈ call.addr :: s.routing.addresses blocks :=
      addresses ▸ member
    rcases List.mem_cons.mp inTable with same | inOld
    · rw [same] at old
      exact different (invariant.apart other thread _ old mine)
    · exact invariant.absent other otherAddr old inOld
  · intro other otherCall route otherLinking
    rcases point_cases otherLinking with ⟨_, new⟩ | ⟨different, old⟩
    · cases new
    · obtain ⟨place, shape, notIn, placeKnown, placeAddr⟩ :=
        invariant.filled other otherCall route old
      refine ⟨place, shape, ?_, placeKnown, placeAddr⟩
      intro member
      rcases List.mem_cons.mp member with equal | inOld
      · have theirs : (s.point other).pending = some call.addr := by
          rw [old, ← addr, ← equal, placeAddr]
          rfl
        exact different (invariant.apart other thread _ theirs mine)
      · exact notIn inOld
  · intro one other addr pendingOne pendingOther
    exact invariant.apart one other addr (seen_of_hidden hidden pendingOne).2
      (seen_of_hidden hidden pendingOther).2

end OnePerAddress

/-- A step that searches alone keeps one route for each address. -/
theorem OnePerAddress.step {s s' : RouteThreads Tid Iface}
    {blocks : List Nat} {action : RouteAction Tid Iface}
    (invariant : OnePerAddress s blocks) (alone : SearchesAlone s action)
    (stepped : s.step action = some s') :
    ∃ blocks', OnePerAddress s' blocks' := by
  cases action with
  | search thread call fuel =>
      simp only [RouteThreads.step] at stepped
      split at stepped
      · obtain ⟨found, searched, same⟩ :=
          Option.map_eq_some_iff.mp stepped
        subst s'
        refine ⟨blocks, ?_⟩
        cases found with
        | none =>
            have missing := invariant.held.found_of_lookUp searched
            apply invariant.searches _ (alone searched)
            exact Option.map_eq_none_iff.mp missing.symm
        | some route =>
            exact invariant.keeps invariant.held (fun _ => rfl) rfl rfl
      · simp at stepped
  | prepare thread =>
      simp only [RouteThreads.step] at stepped
      split at stepped
      · rename_i call searched
        obtain ⟨⟨routing, route⟩, memory, same⟩ :=
          Option.map_eq_some_iff.mp stepped
        cases block : call.block with
        | none =>
            simp only [block, Routing.lspMalloc, Option.some.injEq,
              Prod.mk.injEq] at memory
            rw [← memory.2] at same
            rw [← same]
            exact ⟨blocks,
              invariant.keeps invariant.held (fun _ => rfl) rfl rfl⟩
        | some address =>
            simp only [block, Routing.lspMalloc] at memory
            split at memory
            · simp at memory
            · rename_i unused
              simp only [Option.some.injEq, Prod.mk.injEq] at memory
              rw [← memory.1, ← memory.2] at same
              rw [← same]
              exact ⟨blocks, invariant.fills searched unused⟩
      · refine ⟨blocks, ?_⟩
        split at stepped
        · rw [← Option.some.inj stepped]
          exact invariant.keeps invariant.held (fun _ => rfl) rfl rfl
        · rw [← Option.some.inj stepped]
          exact invariant.keeps invariant.held (fun _ => rfl) rfl rfl
      · simp at stepped
  | commit thread =>
      simp only [RouteThreads.step] at stepped
      split at stepped
      · rename_i linking
        rw [← Option.some.inj stepped]
        exact invariant.links linking
      · rename_i call route _
        rw [← Option.some.inj stepped]
        refine ⟨blocks, invariant.keeps ?_ ?_ rfl rfl⟩
        · exact ⟨invariant.held.ring, invariant.held.known⟩
        · intro address
          exact s.routing.addr_replace route address call
      · simp at stepped

/-- Nobody is in `lsp_route_add` yet. -/
def initial (routing : Routing Iface) : RouteThreads Tid Iface :=
  { routing := routing
    point := fun _ => .outside }

/-- Under any interleaving in which nobody searches in vain while another
thread is about to insert a route for the same address, the table has at most
one route for each address. -/
theorem oneRoutePerAddress_of_run {routing : Routing Iface}
    {blocks : List Nat} (held : routing.Holds blocks)
    (several : 2 ≤ blocks.length)
    (distinct : (routing.addresses blocks).Nodup)
    {actions : List (RouteAction Tid Iface)} {s : RouteThreads Tid Iface}
    (run : Run step SearchesAlone (initial routing) actions s) :
    ∃ blocks', s.routing.Holds blocks' ∧
      (s.routing.addresses blocks').Nodup := by
  have start : OnePerAddress (initial routing : RouteThreads Tid Iface)
      blocks := by
    constructor
    · exact held
    · exact several
    · exact distinct
    · exact fun _ _ pending => nomatch pending
    · exact fun _ _ _ linking => nomatch linking
    · exact fun _ _ _ pending => nomatch pending
  have kept : ∃ blocks', OnePerAddress s blocks' := by
    apply run.invariant ⟨blocks, start⟩
    intro state action next ⟨blocks', invariant⟩ alone stepped
    exact invariant.step alone stepped
  obtain ⟨blocks', invariant⟩ := kept
  exact ⟨blocks', invariant.held, invariant.distinct⟩

section Examples

open Routing (twoRoutes twoRoutes_holds announce12)

/-- Two threads discover different nodes at the same time. -/
def discoverBoth : List (RouteAction (Fin 2) Nat) :=
  [.search 0 (announce12 3 500) 5,
    .search 1 { announce12 4 500 with addr := 13, block := some 3 } 5,
    .prepare 0,
    .prepare 1,
    .commit 1,
    .commit 0]

theorem oneRoutePerAddress_of_discoverBoth :
    ∃ s, Run step SearchesAlone (initial twoRoutes) discoverBoth s ∧
      s.routing.addresses [2, 3, 1, 0] = [12, 13, 11, 10] ∧
      ∃ blocks, s.routing.Holds blocks ∧
        (s.routing.addresses blocks).Nodup := by
  have executed :
      (execute step SearchesAlone (initial twoRoutes) discoverBoth).map
        (fun s => s.routing.addresses [2, 3, 1, 0]) =
          some [12, 13, 11, 10] := by
    decide
  obtain ⟨s, run, view⟩ := exists_run_of_execute executed
  refine ⟨s, run, view, ?_⟩
  exact oneRoutePerAddress_of_run twoRoutes_holds (by decide) (by decide)
    run

/-- Two threads discover the same node at the same time. -/
def discoverTwice : List (RouteAction (Fin 2) Nat) :=
  [.search 0 (announce12 3 500) 5,
    .search 1 { announce12 4 500 with block := some 3 } 5,
    .prepare 0,
    .prepare 1,
    .commit 0,
    .commit 1]

/-- Both insert a route for it. -/
theorem discoverTwice_duplicates :
    twoRoutes.Holds [1, 0] ∧ (twoRoutes.addresses [1, 0]).Nodup ∧
      ∃ s, Run step Anywhere (initial twoRoutes) discoverTwice s ∧
        s.routing.Holds [3, 2, 1, 0] ∧
        s.routing.addresses [3, 2, 1, 0] = [12, 12, 11, 10] ∧
        ¬∃ blocks, s.routing.Holds blocks ∧
          (s.routing.addresses blocks).Nodup := by
  have executed :
      (execute step Anywhere (initial twoRoutes) discoverTwice).map
        (fun s => (decide (([.rtable, .block 3, .block 2, .block 1, .block 0,
            .rtable] : List RouteNode).IsChain s.routing.links.Joined),
          s.routing.addresses [3, 2, 1, 0], s.routing.allocated)) =
        some (true, [12, 12, 11, 10], [3, 2, 1, 0]) := by
    decide
  obtain ⟨s, run, view⟩ := exists_run_of_execute executed
  simp only [Prod.mk.injEq, decide_eq_true_eq] at view
  obtain ⟨chain, addresses, allocated⟩ := view
  have held : s.routing.Holds [3, 2, 1, 0] := by
    refine ⟨⟨by decide, chain⟩, ?_⟩
    rw [allocated]
    simp
  refine ⟨twoRoutes_holds, by decide, s, run, held, addresses, ?_⟩
  intro ⟨blocks, other, distinct⟩
  rw [← held.unique other, addresses] at distinct
  revert distinct
  decide

end Examples

end RouteThreads

end Liblsp
