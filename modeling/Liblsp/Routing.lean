import Liblsp.LinkedList
import Liblsp.Types
import Mathlib.Data.List.Find

/-!
# The routing table

`rtable` is a circular list of heap blocks.  `lsp_route_add` is cut into the
pieces that its mutex separates; put together in `lspRouteAdd` they are a call
that nothing interrupts.  A block that `lsp_malloc` returns has arbitrary
contents.
-/

namespace Liblsp

open Base

/-- The addresses that list cells of the table can have: the static head, and
blocks of the heap. -/
inductive RouteNode where
  | rtable
  | block (address : Nat)
  deriving DecidableEq

/-- `lsp_route_t` without its list cell.  The interface pointer is not `NULL`,
since `lsp_route_add` reads the name of the interface. -/
structure LspRoute (Iface : Type) where
  iface : Iface
  addr : UInt16
  linkspeed : UInt32
  timestamp : UInt32

/-- The memory of the routing module: the list cells, the other fields of a
route at every address, and the blocks `lsp_malloc` has given out. -/
structure Routing (Iface : Type) where
  links : Links RouteNode
  routes : RouteNode → LspRoute Iface
  allocated : List Nat

/-- The arguments of `lsp_route_add`, the answer `lsp_malloc` gives if it is
asked, and the clock. -/
structure RouteCall (Iface : Type) where
  iface : Iface
  addr : UInt16
  linkspeed : Int32
  block : Option Nat
  now : UInt32

namespace Routing

variable {Iface : Type}

/-- `lsp_malloc` fails or returns a block that is not in use. -/
def lspMalloc (t : Routing Iface) :
    Option Nat → Option (Routing Iface × Option RouteNode)
  | none => some (t, none)
  | some address =>
      if address ∈ t.allocated then none
      else some ({ t with allocated := address :: t.allocated },
        some (.block address))

/-- The loop at the start of `lsp_route_add`. -/
def lookUp (t : Routing Iface) (addr : UInt16) (fuel : Nat) :
    Option (Option RouteNode) :=
  (lspListFor (fun _ => t.links) .rtable
    (fun _ route => ((), decide ((t.routes route).addr = addr))) fuel ()).map
    Prod.snd

/-- The stores to a new route.  The statement `route->linkspeed;` stores
nothing. -/
def fill (t : Routing Iface) (route : RouteNode) (call : RouteCall Iface) :
    Routing Iface :=
  { t with
    routes := Function.update t.routes route
      { t.routes route with
        iface := call.iface
        addr := call.addr
        timestamp := call.now } }

/-- The locked section that adds a new route. -/
def link (t : Routing Iface) (route : RouteNode) : Routing Iface :=
  { t with links := lspListAdd t.links route .rtable }

/-- `linkspeed < route->linkspeed`, compared as `uint32_t`. -/
def better (t : Routing Iface) (route : RouteNode)
    (linkspeed : Int32) : Bool :=
  linkspeed.toUInt32 < (t.routes route).linkspeed

/-- The locked section that replaces a route. -/
def replace (t : Routing Iface) (route : RouteNode)
    (call : RouteCall Iface) : Routing Iface :=
  { t with
    routes := Function.update t.routes route
      { t.routes route with
        iface := call.iface
        linkspeed := call.linkspeed.toUInt32
        timestamp := call.now } }

/-- What `lsp_route_add` does with a block it got for a new route. -/
def insert (t : Routing Iface) (address : Nat) (call : RouteCall Iface) :
    Routing Iface :=
  (({ t with allocated := address :: t.allocated } : Routing Iface).fill
    (.block address) call).link (.block address)

/-- `lsp_route_add` after its loop. -/
def addFound (t : Routing Iface) (call : RouteCall Iface) :
    Option RouteNode → Option (Routing Iface × Int)
  | none =>
      (t.lspMalloc call.block).map fun
        | (t, none) => (t, lspErrNomem)
        | (t, some route) => ((t.fill route call).link route, lspErrNone)
  | some route =>
      if t.better route call.linkspeed then
        some (t.replace route call, lspErrNone)
      else some (t, lspErrNone)

def lspRouteAdd (t : Routing Iface) (call : RouteCall Iface) (fuel : Nat) :
    Option (Routing Iface × Int) :=
  (t.lookUp call.addr fuel).bind (t.addFound call)

/-- `lsp_route_find`, with `none` for `NULL`. -/
def lspRouteFind (t : Routing Iface) (addr : UInt16) (fuel : Nat) :
    Option (Option Iface) :=
  (t.lookUp addr fuel).map (Option.map fun route => (t.routes route).iface)

/-! ## The routes the table holds -/

/-- The table is a circular list of these blocks. -/
structure Holds (t : Routing Iface) (blocks : List Nat) : Prop where
  ring : t.links.IsRing .rtable (blocks.map .block)
  known : ∀ address, address ∈ blocks → address ∈ t.allocated

/-- The route in a block. -/
def route (t : Routing Iface) (address : Nat) : LspRoute Iface :=
  t.routes (.block address)

/-- The addresses the table has routes for, in the order of the list. -/
def addresses (t : Routing Iface) (blocks : List Nat) : List UInt16 :=
  blocks.map fun address => (t.route address).addr

/-- The block a loop over the table stops at. -/
def found (t : Routing Iface) (blocks : List Nat) (addr : UInt16) :
    Option Nat :=
  (visible blocks).find? fun address => (t.route address).addr = addr

variable {t : Routing Iface} {blocks : List Nat}

theorem Holds.unique {others : List Nat} (held : t.Holds blocks)
    (other : t.Holds others) : blocks = others := by
  have same := held.ring.unique other.ring
  have injective : Function.Injective RouteNode.block := by
    intro left right equality
    exact RouteNode.block.inj equality
  exact List.map_injective_iff.mpr injective same

theorem Holds.lookUp_returns (held : t.Holds blocks) (addr : UInt16) :
    Returns (t.lookUp addr)
      ((t.found blocks addr).map RouteNode.block) :=
  lspListFor_search held.ring fun node => (t.routes node).addr = addr

theorem Holds.found_of_lookUp {addr : UInt16} {fuel : Nat}
    {node : Option RouteNode} (held : t.Holds blocks)
    (searched : t.lookUp addr fuel = some node) :
    node = (t.found blocks addr).map RouteNode.block := by
  apply (held.lookUp_returns addr).eq_of_some _ searched
  intro fuel ended
  obtain ⟨result, looped, last⟩ := Option.map_eq_some_iff.mp ended
  exact Option.map_eq_some_iff.mpr
    ⟨result, cursorLoop_stable looped, last⟩

theorem Holds.lspRouteFind_returns (held : t.Holds blocks)
    (addr : UInt16) :
    Returns (t.lspRouteFind addr)
      ((t.found blocks addr).map fun address =>
        (t.route address).iface) := by
  have loop := (held.lookUp_returns addr).map
    (Option.map fun node => (t.routes node).iface)
  rw [Option.map_map] at loop
  exact loop

/-! ## What a call does to the routes -/

section Routes

variable {call : RouteCall Iface}

theorem route_fill_same (t : Routing Iface) (address : Nat)
    (call : RouteCall Iface) :
    (t.fill (.block address) call).route address =
      { t.route address with
        iface := call.iface, addr := call.addr, timestamp := call.now } := by
  simp [route, fill]

theorem route_fill_other {address other : Nat} (different : other ≠ address) :
    (t.fill (.block address) call).route other = t.route other := by
  simp [route, fill, different]

theorem route_replace_same (t : Routing Iface) (address : Nat)
    (call : RouteCall Iface) :
    (t.replace (.block address) call).route address =
      { t.route address with
        iface := call.iface
        linkspeed := call.linkspeed.toUInt32
        timestamp := call.now } := by
  simp [route, replace]

theorem route_replace_other {address other : Nat}
    (different : other ≠ address) :
    (t.replace (.block address) call).route other = t.route other := by
  simp [route, replace, different]

@[simp] theorem route_link (t : Routing Iface) (node : RouteNode)
    (address : Nat) : (t.link node).route address = t.route address := rfl

theorem route_insert_same (t : Routing Iface) (address : Nat)
    (call : RouteCall Iface) :
    (t.insert address call).route address =
      { t.route address with
        iface := call.iface, addr := call.addr, timestamp := call.now } := by
  rw [insert, route_link, route_fill_same]
  rfl

theorem route_insert_other {address other : Nat}
    (different : other ≠ address) :
    (t.insert address call).route other = t.route other := by
  rw [insert, route_link, route_fill_other different]
  rfl

theorem addr_replace (t : Routing Iface) (node : RouteNode) (other : Nat)
    (call : RouteCall Iface) :
    ((t.replace node call).route other).addr = (t.route other).addr := by
  by_cases same : RouteNode.block other = node
  · rw [← same, route_replace_same]
  · simp [route, replace, same]

@[simp] theorem addresses_replace (t : Routing Iface) (address : Nat)
    (call : RouteCall Iface) (blocks : List Nat) :
    (t.replace (.block address) call).addresses blocks =
      t.addresses blocks := by
  simp only [addresses, addr_replace]

@[simp] theorem found_replace (t : Routing Iface) (address : Nat)
    (call : RouteCall Iface) (blocks : List Nat) (addr : UInt16) :
    (t.replace (.block address) call).found blocks addr =
      t.found blocks addr := by
  simp only [found, addr_replace]

end Routes

theorem Holds.link {address : Nat} (held : t.Holds blocks)
    (fresh : address ∉ blocks) (known : address ∈ t.allocated) :
    (t.link (.block address)).Holds (address :: blocks) := by
  constructor
  · have absent : RouteNode.block address ∉
        .rtable :: blocks.map RouteNode.block := by
      simp [fresh]
    exact lspListAdd_ring held.ring absent
  · intro other member
    rcases List.mem_cons.mp member with same | old
    · rw [same]
      exact known
    · exact held.known other old

theorem Holds.insert {address : Nat} (held : t.Holds blocks)
    (unused : address ∉ t.allocated) (call : RouteCall Iface) :
    (t.insert address call).Holds (address :: blocks) := by
  have fresh : address ∉ blocks := fun member =>
    unused (held.known address member)
  have room : (({ t with allocated := address :: t.allocated } :
      Routing Iface).fill (.block address) call).Holds blocks := by
    refine ⟨held.ring, ?_⟩
    intro other member
    exact List.mem_cons_of_mem _ (held.known other member)
  exact room.link fresh List.mem_cons_self

theorem Holds.lspRouteAdd_returns {call : RouteCall Iface}
    {result : Routing Iface × Int} (held : t.Holds blocks)
    (continues : t.addFound call
      ((t.found blocks call.addr).map .block) = some result) :
    Returns (t.lspRouteAdd call) result := by
  obtain ⟨bound, looked⟩ := held.lookUp_returns call.addr
  refine ⟨bound, ?_⟩
  intro fuel enough
  rw [lspRouteAdd, looked fuel enough]
  exact continues

/-- Everything a call can do to a table. -/
inductive Adds (t : Routing Iface) (blocks : List Nat)
    (call : RouteCall Iface) : Routing Iface → List Nat → Int → Prop where
  | noMemory :
      t.found blocks call.addr = none → call.block = none →
      Adds t blocks call t blocks lspErrNomem
  | inserts {address : Nat} :
      t.found blocks call.addr = none → call.block = some address →
      address ∉ t.allocated →
      Adds t blocks call (t.insert address call) (address :: blocks)
        lspErrNone
  | replaces {address : Nat} :
      t.found blocks call.addr = some address →
      t.better (.block address) call.linkspeed = true →
      Adds t blocks call (t.replace (.block address) call) blocks lspErrNone
  | keeps {address : Nat} :
      t.found blocks call.addr = some address →
      t.better (.block address) call.linkspeed = false →
      Adds t blocks call t blocks lspErrNone

/-- A call on a table ends with a table, in one of these ways. -/
theorem Holds.adds {t' : Routing Iface} {call : RouteCall Iface} {rc : Int}
    (held : t.Holds blocks)
    (called : Returns (t.lspRouteAdd call) (t', rc)) :
    ∃ blocks', t'.Holds blocks' ∧ Adds t blocks call t' blocks' rc := by
  obtain ⟨bound, looked⟩ := held.lookUp_returns call.addr
  obtain ⟨enough, result⟩ := called
  have ended := result (max bound enough) (Nat.le_max_right _ _)
  rw [lspRouteAdd, looked _ (Nat.le_max_left _ _)] at ended
  simp only [Option.bind_some] at ended
  cases seen : t.found blocks call.addr with
  | none =>
      rw [seen, Option.map_none, addFound] at ended
      cases memory : call.block with
      | none =>
          simp only [memory, lspMalloc, Option.map_some, Option.some.injEq,
            Prod.mk.injEq] at ended
          rw [← ended.1, ← ended.2]
          exact ⟨blocks, held, .noMemory seen memory⟩
      | some address =>
          simp only [memory, lspMalloc] at ended
          split at ended
          · simp at ended
          · rename_i unused
            simp only [Option.map_some, Option.some.injEq,
              Prod.mk.injEq] at ended
            rw [← ended.1, ← ended.2]
            refine ⟨address :: blocks, ?_, .inserts seen memory unused⟩
            exact held.insert unused call
  | some address =>
      rw [seen, Option.map_some, addFound] at ended
      cases comparison : t.better (.block address) call.linkspeed with
      | true =>
          simp only [comparison, if_true, Option.some.injEq,
            Prod.mk.injEq] at ended
          rw [← ended.1, ← ended.2]
          exact ⟨blocks, ⟨held.ring, held.known⟩, .replaces seen comparison⟩
      | false =>
          simp only [comparison, Bool.false_eq_true, if_false,
            Option.some.injEq, Prod.mk.injEq] at ended
          rw [← ended.1, ← ended.2]
          exact ⟨blocks, held, .keeps seen comparison⟩

/-! ## Sequences of calls -/

/-- A sequence of calls, one after the other.  The list has the ones that
succeed. -/
inductive RouteAdds (t : Routing Iface) :
    List (RouteCall Iface) → Routing Iface → Prop where
  | start : RouteAdds t [] t
  | added {calls : List (RouteCall Iface)} {t' t'' : Routing Iface}
      {call : RouteCall Iface} :
      RouteAdds t calls t' →
      Returns (t'.lspRouteAdd call) (t'', lspErrNone) →
      RouteAdds t (calls ++ [call]) t''
  | refused {calls : List (RouteCall Iface)} {t' t'' : Routing Iface}
      {call : RouteCall Iface} {rc : Int} :
      RouteAdds t calls t' →
      Returns (t'.lspRouteAdd call) (t'', rc) →
      rc ≠ lspErrNone →
      RouteAdds t calls t''

/-- A property of the table and the successful calls holds after every
sequence, if the start has it and every successful call keeps it. -/
theorem RouteAdds.invariant
    {property : List (RouteCall Iface) → Routing Iface → List Nat → Prop}
    {calls : List (RouteCall Iface)} {t' : Routing Iface}
    (sequence : RouteAdds t calls t')
    (held : t.Holds blocks) (initial : property [] t blocks)
    (preserved : ∀ calls t' blocks' call t'' blocks'',
      property calls t' blocks' → t'.Holds blocks' →
      Adds t' blocks' call t'' blocks'' lspErrNone →
      property (calls ++ [call]) t'' blocks'') :
    ∃ blocks', t'.Holds blocks' ∧ property calls t' blocks' := by
  induction sequence with
  | start => exact ⟨blocks, held, initial⟩
  | added _ called induction =>
      obtain ⟨blocks', held', kept⟩ := induction
      obtain ⟨blocks'', held'', adds⟩ := held'.adds called
      exact ⟨blocks'', held'', preserved _ _ _ _ _ _ kept held' adds⟩
  | refused _ called failed induction =>
      obtain ⟨blocks', held', kept⟩ := induction
      obtain ⟨blocks'', held'', adds⟩ := held'.adds called
      cases adds with
      | noMemory => exact ⟨blocks', held', kept⟩
      | inserts => exact absurd rfl failed
      | replaces => exact absurd rfl failed
      | keeps => exact absurd rfl failed

end Routing

end Liblsp
