import Liblsp.ListAccesses
import Liblsp.RouteDiscoveries

/-!
# The routing table, one access at a time

`lsp_route_add` and `lsp_route_find` walk over the table without its mutex,
while the owner of the mutex links a new route with four stores or replaces a
route with three.  Here one load or one store is a step, in the order of the
source, and every thread sees the stores in that order.
-/

namespace Liblsp

open Base

/-- What a thread calls. -/
inductive RouteRequest (Iface : Type) where
  | add (call : RouteCall Iface)
  | find (addr : UInt16)

def RouteRequest.addr {Iface : Type} : RouteRequest Iface → UInt16
  | .add call => call.addr
  | .find addr => addr

/-- The stores that replace a route. -/
inductive RouteStore where
  | iface
  | linkspeed
  | timestamp

/-- The access that a thread makes next, with what it has read so far. -/
inductive RoutePlace (Iface : Type) where
  | outside
  | loop (request : RouteRequest Iface) (place : LoopPlace RouteNode)
  | lockLink (call : RouteCall Iface) (route : RouteNode)
  | readNext (call : RouteCall Iface) (route : RouteNode)
  | linking (call : RouteCall Iface) (route next : RouteNode)
      (store : LinkStore)
  | lockReplace (call : RouteCall Iface) (route : RouteNode)
  | replacing (call : RouteCall Iface) (route : RouteNode)
      (store : RouteStore)
  | unlocking

/-- The thread holds `rtable_mutex`. -/
def RoutePlace.locked {Iface : Type} : RoutePlace Iface → Bool
  | .readNext .. | .linking .. | .replacing .. | .unlocking => true
  | _ => false

/-- The call that a thread is in, as long as that matters. -/
def RoutePlace.request {Iface : Type} :
    RoutePlace Iface → Option (RouteRequest Iface)
  | .outside | .unlocking => none
  | .loop request _ => some request
  | .lockLink call _ | .readNext call _ | .linking call _ _ _
  | .lockReplace call _ | .replacing call _ _ => some (.add call)

namespace Routing

variable {Iface : Type}

/-- The test of both loops over the table. -/
def stops (t : Routing Iface) (addr : UInt16) (ptr : RouteNode) : Bool :=
  (t.routes ptr).addr = addr

/-- One store of `_lsp_list_add(route, &rtable, next)`. -/
def storeLink (t : Routing Iface) (route next : RouteNode)
    (store : LinkStore) : Routing Iface :=
  { t with links := lspListAddStore t.links route .rtable next store }

/-- One store to a route that is replaced. -/
def storeRoute (t : Routing Iface) (call : RouteCall Iface)
    (route : RouteNode) (store : RouteStore) : Routing Iface :=
  let old := t.routes route
  { t with
    routes := Function.update t.routes route
      (match store with
      | .iface => { old with iface := call.iface }
      | .linkspeed => { old with linkspeed := call.linkspeed.toUInt32 }
      | .timestamp => { old with timestamp := call.now }) }

theorem storeRoute_replace (t : Routing Iface) (call : RouteCall Iface)
    (route : RouteNode) :
    ((t.storeRoute call route .iface).storeRoute call route
        .linkspeed).storeRoute call route .timestamp =
      t.replace route call := by
  simp [storeRoute, replace]

end Routing

/-- What a call returns. -/
inductive RouteResult (Iface : Type) where
  | added (rc : Int)
  | found (addr : UInt16) (iface : Option Iface)
  deriving DecidableEq

structure RouteAccesses (Tid Iface : Type) where
  routing : Routing Iface
  owner : Option Tid
  place : Tid → RoutePlace Iface

inductive RouteAccess (Tid Iface : Type) where
  | call (thread : Tid) (request : RouteRequest Iface)
  | go (thread : Tid)

namespace RouteAccesses

variable {Tid Iface : Type}

/-- Nobody uses the table yet. -/
def initial (routing : Routing Iface) : RouteAccesses Tid Iface :=
  { routing := routing
    owner := none
    place := fun _ => .outside }

/-- A step that returns nothing yet. -/
def goesOn (s : RouteAccesses Tid Iface) :
    Option (RouteAccesses Tid Iface × Option (RouteResult Iface)) :=
  some (s, none)

private theorem goesOn_some {s s' : RouteAccesses Tid Iface}
    {outcome : Option (RouteResult Iface)}
    (gone : s.goesOn = some (s', outcome)) : s' = s ∧ outcome = none := by
  simp only [goesOn, Option.some.injEq, Prod.mk.injEq] at gone
  exact ⟨gone.1.symm, gone.2.symm⟩

variable [DecidableEq Tid]

def moveTo (s : RouteAccesses Tid Iface) (thread : Tid)
    (place : RoutePlace Iface) : RouteAccesses Tid Iface :=
  { s with place := Function.update s.place thread place }

/-- The caller gets its result. -/
def returns (s : RouteAccesses Tid Iface) (thread : Tid)
    (result : RouteResult Iface) :
    Option (RouteAccesses Tid Iface × Option (RouteResult Iface)) :=
  some (s.moveTo thread .outside, some result)

/-- `lsp_mutex_lock` without a timeout, for a mutex that is free. -/
def lock (s : RouteAccesses Tid Iface) (thread : Tid)
    (place : RoutePlace Iface) :
    Option (RouteAccesses Tid Iface × Option (RouteResult Iface)) :=
  match s.owner with
  | none =>
      (({ s with owner := some thread } :
        RouteAccesses Tid Iface).moveTo thread place).goesOn
  | some _ => none

/-- What a thread does with the result of its loop. -/
def answer (s : RouteAccesses Tid Iface) (thread : Tid)
    (ptr : Option RouteNode) :
    RouteRequest Iface →
      Option (RouteAccesses Tid Iface × Option (RouteResult Iface))
  | .find addr =>
      s.returns thread
        (.found addr (ptr.map fun route => (s.routing.routes route).iface))
  | .add call =>
      match ptr with
      | none =>
          match s.routing.lspMalloc call.block with
          | none => none
          | some (_, none) => s.returns thread (.added lspErrNomem)
          | some (routing, some route) =>
              (({ s with routing := routing.fill route call } :
                RouteAccesses Tid Iface).moveTo thread
                  (.lockLink call route)).goesOn
      | some route =>
          if s.routing.better route call.linkspeed then
            (s.moveTo thread (.lockReplace call route)).goesOn
          else s.returns thread (.added lspErrNone)

/-- The next access of a thread. -/
def access (s : RouteAccesses Tid Iface) (thread : Tid) :
    Option (RouteAccesses Tid Iface × Option (RouteResult Iface)) :=
  match s.place thread with
  | .outside => none
  | .loop request place =>
      match place.result with
      | none =>
          (s.moveTo thread (.loop request
            (place.step s.routing.links .rtable
              (s.routing.stops request.addr)))).goesOn
      | some ptr => s.answer thread ptr request
  | .lockLink call route => s.lock thread (.readNext call route)
  | .readNext call route =>
      (s.moveTo thread (.linking call route
        (s.routing.links.next .rtable) .nextPrev)).goesOn
  | .linking call route next store =>
      (({ s with routing := s.routing.storeLink route next store } :
        RouteAccesses Tid Iface).moveTo thread
          (match store.later with
          | some later => .linking call route next later
          | none => .unlocking)).goesOn
  | .lockReplace call route => s.lock thread (.replacing call route .iface)
  | .replacing call route store =>
      (({ s with routing := s.routing.storeRoute call route store } :
        RouteAccesses Tid Iface).moveTo thread
          (match store with
          | .iface => .replacing call route .linkspeed
          | .linkspeed => .replacing call route .timestamp
          | .timestamp => .unlocking)).goesOn
  | .unlocking =>
      ({ s with owner := none } : RouteAccesses Tid Iface).returns thread
        (.added lspErrNone)

def exec (s : RouteAccesses Tid Iface) :
    RouteAccess Tid Iface →
      Option (RouteAccesses Tid Iface × Option (RouteResult Iface))
  | .call thread request =>
      match s.place thread with
      | .outside => (s.moveTo thread (.loop request .start)).goesOn
      | _ => none
  | .go thread => s.access thread

def step (s : RouteAccesses Tid Iface) (action : RouteAccess Tid Iface) :
    Option (RouteAccesses Tid Iface) :=
  (s.exec action).map Prod.fst

/-- Everything the next access of a thread can be. -/
inductive Goes (s : RouteAccesses Tid Iface) (thread : Tid) :
    RouteAccesses Tid Iface → Option (RouteResult Iface) → Prop where
  | walks {request : RouteRequest Iface} {place : LoopPlace RouteNode} :
      s.place thread = .loop request place →
      place.result = none →
      Goes s thread (s.moveTo thread (.loop request
        (place.step s.routing.links .rtable
          (s.routing.stops request.addr)))) none
  | answers {addr : UInt16} {ptr : Option RouteNode} :
      s.place thread = .loop (.find addr) (.ended ptr) →
      Goes s thread (s.moveTo thread .outside)
        (some (.found addr
          (ptr.map fun route => (s.routing.routes route).iface)))
  | noMemory {call : RouteCall Iface} :
      s.place thread = .loop (.add call) (.ended none) →
      call.block = none →
      Goes s thread (s.moveTo thread .outside)
        (some (.added lspErrNomem))
  | fills {call : RouteCall Iface} {address : Nat} :
      s.place thread = .loop (.add call) (.ended none) →
      call.block = some address →
      address ∉ s.routing.allocated →
      Goes s thread
        (({ s with
            routing := ({ s.routing with
              allocated := address :: s.routing.allocated } :
                Routing Iface).fill (.block address) call } :
          RouteAccesses Tid Iface).moveTo thread
            (.lockLink call (.block address))) none
  | improves {call : RouteCall Iface} {route : RouteNode} :
      s.place thread = .loop (.add call) (.ended (some route)) →
      s.routing.better route call.linkspeed = true →
      Goes s thread (s.moveTo thread (.lockReplace call route)) none
  | gives {call : RouteCall Iface} {route : RouteNode} :
      s.place thread = .loop (.add call) (.ended (some route)) →
      s.routing.better route call.linkspeed = false →
      Goes s thread (s.moveTo thread .outside) (some (.added lspErrNone))
  | locksLink {call : RouteCall Iface} {route : RouteNode} :
      s.place thread = .lockLink call route →
      s.owner = none →
      Goes s thread
        (({ s with owner := some thread } :
          RouteAccesses Tid Iface).moveTo thread (.readNext call route)) none
  | readsNext {call : RouteCall Iface} {route : RouteNode} :
      s.place thread = .readNext call route →
      Goes s thread (s.moveTo thread (.linking call route
        (s.routing.links.next .rtable) .nextPrev)) none
  | storesLink {call : RouteCall Iface} {route next : RouteNode}
      {store later : LinkStore} :
      s.place thread = .linking call route next store →
      store.later = some later →
      Goes s thread
        (({ s with routing := s.routing.storeLink route next store } :
          RouteAccesses Tid Iface).moveTo thread
            (.linking call route next later)) none
  | links {call : RouteCall Iface} {route next : RouteNode} :
      s.place thread = .linking call route next .prevNext →
      Goes s thread
        (({ s with routing := s.routing.storeLink route next .prevNext } :
          RouteAccesses Tid Iface).moveTo thread .unlocking) none
  | locksReplace {call : RouteCall Iface} {route : RouteNode} :
      s.place thread = .lockReplace call route →
      s.owner = none →
      Goes s thread
        (({ s with owner := some thread } :
          RouteAccesses Tid Iface).moveTo thread
            (.replacing call route .iface)) none
  | storesIface {call : RouteCall Iface} {route : RouteNode} :
      s.place thread = .replacing call route .iface →
      Goes s thread
        (({ s with routing := s.routing.storeRoute call route .iface } :
          RouteAccesses Tid Iface).moveTo thread
            (.replacing call route .linkspeed)) none
  | storesLinkspeed {call : RouteCall Iface} {route : RouteNode} :
      s.place thread = .replacing call route .linkspeed →
      Goes s thread
        (({ s with routing := s.routing.storeRoute call route .linkspeed } :
          RouteAccesses Tid Iface).moveTo thread
            (.replacing call route .timestamp)) none
  | storesTimestamp {call : RouteCall Iface} {route : RouteNode} :
      s.place thread = .replacing call route .timestamp →
      Goes s thread
        (({ s with routing := s.routing.storeRoute call route .timestamp } :
          RouteAccesses Tid Iface).moveTo thread .unlocking) none
  | unlocks :
      s.place thread = .unlocking →
      Goes s thread
        (({ s with owner := none } : RouteAccesses Tid Iface).moveTo thread
          .outside) (some (.added lspErrNone))

theorem Goes.request_kept {s s' : RouteAccesses Tid Iface} {thread : Tid}
    {outcome : Option (RouteResult Iface)} (goes : Goes s thread s' outcome)
    (other : Tid) (request : RouteRequest Iface)
    (inside : (s'.place other).request = some request) :
    (s.place other).request = some request := by
  have kept : ∀ place : RoutePlace Iface,
      place.request = none ∨
        place.request = (s.place thread).request →
      (Function.update s.place thread place other).request =
        some request →
      (s.place other).request = some request :=
    fun place same seen => seen_of_kept same seen
  cases goes with
  | answers | noMemory | gives | links | storesTimestamp | unlocks =>
      exact kept _ (.inl rfl) inside
  | walks place | fills place | improves place | locksLink place
  | readsNext place | storesLink place | locksReplace place
  | storesIface place | storesLinkspeed place =>
      refine kept _ (.inr ?_) inside
      rw [place]
      rfl

theorem Goes.others {s s' : RouteAccesses Tid Iface} {thread other : Tid}
    {outcome : Option (RouteResult Iface)} (goes : Goes s thread s' outcome)
    (different : other ≠ thread) : s'.place other = s.place other := by
  cases goes <;> exact Function.update_of_ne different _ _

theorem Goes.found {s s' : RouteAccesses Tid Iface} {thread : Tid}
    {addr : UInt16} {iface : Option Iface}
    (goes : Goes s thread s' (some (.found addr iface))) :
    ∃ ptr, s.place thread = .loop (.find addr) (.ended ptr) ∧
      iface = ptr.map fun route => (s.routing.routes route).iface := by
  cases goes with
  | answers place => exact ⟨_, place, rfl⟩

section Inversion

variable {s s' : RouteAccesses Tid Iface} {thread : Tid}
  {outcome : Option (RouteResult Iface)}

private theorem returns_some {state : RouteAccesses Tid Iface}
    {result : RouteResult Iface}
    (returned : state.returns thread result = some (s', outcome)) :
    s' = state.moveTo thread .outside ∧ outcome = some result := by
  simp only [returns, Option.some.injEq, Prod.mk.injEq] at returned
  exact ⟨returned.1.symm, returned.2.symm⟩

private theorem lock_some {place : RoutePlace Iface}
    (locked : s.lock thread place = some (s', outcome)) :
    s.owner = none ∧
      s' = ({ s with owner := some thread } :
        RouteAccesses Tid Iface).moveTo thread place ∧ outcome = none := by
  unfold lock at locked
  cases owner : s.owner with
  | none =>
      rw [owner] at locked
      obtain ⟨state, returned⟩ := goesOn_some locked
      exact ⟨rfl, state, returned⟩
  | some other =>
      rw [owner] at locked
      cases locked

private theorem goes_of_answer {call : RouteCall Iface}
    {ptr : Option RouteNode}
    (place : s.place thread = .loop (.add call) (.ended ptr))
    (answered : s.answer thread ptr (.add call) = some (s', outcome)) :
    Goes s thread s' outcome := by
  unfold answer at answered
  cases ptr with
  | none =>
      cases block : call.block with
      | none =>
          simp only [block, Routing.lspMalloc] at answered
          obtain ⟨rfl, rfl⟩ := returns_some answered
          exact .noMemory place block
      | some address =>
          by_cases used : address ∈ s.routing.allocated
          · simp [block, Routing.lspMalloc, used] at answered
          · simp only [block, Routing.lspMalloc, if_neg used] at answered
            obtain ⟨rfl, rfl⟩ := goesOn_some answered
            exact .fills place block used
  | some route =>
      cases comparison : s.routing.better route call.linkspeed with
      | true =>
          simp only [comparison, if_true] at answered
          obtain ⟨rfl, rfl⟩ := goesOn_some answered
          exact .improves place comparison
      | false =>
          simp only [comparison, Bool.false_eq_true, if_false] at answered
          obtain ⟨rfl, rfl⟩ := returns_some answered
          exact .gives place comparison

private theorem ended_of_result {place : LoopPlace RouteNode}
    {ptr : Option RouteNode} (result : place.result = some ptr) :
    place = .ended ptr := by
  cases place <;> cases result
  rfl

theorem goes_of_access (accessed : s.access thread = some (s', outcome)) :
    Goes s thread s' outcome := by
  cases place : s.place thread with
  | outside => simp [access, place] at accessed
  | loop request within =>
      rw [access, place] at accessed
      cases result : within.result with
      | none =>
          simp only [result] at accessed
          obtain ⟨rfl, rfl⟩ := goesOn_some accessed
          exact .walks place result
      | some ptr =>
          simp only [result] at accessed
          rw [ended_of_result result] at place
          cases request with
          | add call => exact goes_of_answer place accessed
          | find addr =>
              obtain ⟨rfl, rfl⟩ := returns_some accessed
              exact .answers place
  | lockLink call route =>
      rw [access, place] at accessed
      obtain ⟨free, rfl, rfl⟩ := lock_some accessed
      exact .locksLink place free
  | readNext call route =>
      rw [access, place] at accessed
      obtain ⟨rfl, rfl⟩ := goesOn_some accessed
      exact .readsNext place
  | linking call route next store =>
      rw [access, place] at accessed
      obtain ⟨rfl, rfl⟩ := goesOn_some accessed
      cases store with
      | nextPrev | nNext | nPrev => exact .storesLink place rfl
      | prevNext => exact .links place
  | lockReplace call route =>
      rw [access, place] at accessed
      obtain ⟨free, rfl, rfl⟩ := lock_some accessed
      exact .locksReplace place free
  | replacing call route store =>
      rw [access, place] at accessed
      obtain ⟨rfl, rfl⟩ := goesOn_some accessed
      cases store with
      | iface => exact .storesIface place
      | linkspeed => exact .storesLinkspeed place
      | timestamp => exact .storesTimestamp place
  | unlocking =>
      rw [access, place] at accessed
      obtain ⟨rfl, rfl⟩ := returns_some accessed
      exact .unlocks place

theorem step_cases {action : RouteAccess Tid Iface}
    (stepped : s.step action = some s') :
    (∃ thread request, action = .call thread request ∧
      s.place thread = .outside ∧
      s' = s.moveTo thread (.loop request .start)) ∨
    ∃ thread outcome, action = .go thread ∧ Goes s thread s' outcome := by
  obtain ⟨⟨state, outcome⟩, executed, same⟩ :=
    Option.map_eq_some_iff.mp stepped
  have equality : state = s' := same
  subst state
  cases action with
  | call thread request =>
      simp only [exec] at executed
      cases place : s.place thread with
      | outside =>
          rw [place] at executed
          obtain ⟨state, _⟩ := goesOn_some executed
          exact .inl ⟨thread, request, rfl, place, state⟩
      | _ => simp [place] at executed
  | go thread =>
      exact .inr ⟨thread, outcome, rfl, goes_of_access executed⟩

end Inversion

end RouteAccesses

end Liblsp
