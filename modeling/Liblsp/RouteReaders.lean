import Liblsp.RouteAccesses

/-!
# Searches and sections as single steps

The system of single loads and stores does what `RouteThreads` does, where a
search is one step and so is a locked section.  A search counts as made when
its loop reads the first node for the last time, a new route as linked with
the store to the head, and a replaced route as replaced with its linkspeed.
-/

namespace Liblsp

open Base

namespace Routing

variable {Iface : Type} {t t' : Routing Iface} {blocks : List Nat}

/-- The nodes of the routes. -/
abbrev nodes (blocks : List Nat) : List RouteNode :=
  blocks.map .block

theorem nodes_append (added blocks : List Nat) :
    nodes (added ++ blocks) = nodes added ++ nodes blocks :=
  List.map_append

theorem nodes_ne_nil (occupied : blocks ≠ []) : nodes blocks ≠ [] := by
  simpa [nodes] using occupied

theorem stops_congr
    (same : ∀ address, address ∈ blocks →
      (t'.route address).addr = (t.route address).addr)
    {addr : UInt16} {ptr : RouteNode} (member : ptr ∈ nodes blocks) :
    t'.stops addr ptr = t.stops addr ptr := by
  obtain ⟨address, inside, rfl⟩ := List.mem_map.mp member
  have kept := same address inside
  simp only [route] at kept
  simp only [stops, kept]

theorem Holds.forward (held : t.Holds blocks) :
    Forward t.links .rtable (nodes blocks) :=
  .of_isRing held.ring

theorem Holds.found_stops (held : t.Holds blocks) (addr : UInt16) :
    Returns (t.lookUp addr)
      ((visible (nodes blocks)).find? (t.stops addr)) := by
  exact lspListFor_search_forward held.forward (t.stops addr)

/-! ## A change that is under way -/

/-- The stores of `_lsp_list_add` before the given one. -/
def linkedUpTo (t : Routing Iface) (route next : RouteNode)
    (store : LinkStore) : Routing Iface :=
  { t with links := t.links.insertUpTo route .rtable next store.made }

theorem linkedUpTo_later (t : Routing Iface) (route next : RouteNode)
    {store later : LinkStore} (order : store.later = some later) :
    (t.linkedUpTo route next store).storeLink route next store =
      t.linkedUpTo route next later := by
  cases store <;> cases order <;> rfl

theorem linkedUpTo_all (t : Routing Iface) (route : RouteNode) :
    (t.linkedUpTo route (t.links.next .rtable) .prevNext).storeLink route
        (t.links.next .rtable) .prevNext = t.link route := rfl

/-- What the owner of the mutex has made of the table `t` so far.  A route is
replaced when its new linkspeed is stored, and its interface is stored one
step earlier, its timestamp one step later. -/
def Unfinished (t t' : Routing Iface) : RoutePlace Iface → Prop
  | .linking _ route next store =>
      next = t.links.next .rtable ∧ t' = t.linkedUpTo route next store
  | .replacing call route .linkspeed => t' = t.storeRoute call route .iface
  | .replacing call route .timestamp =>
      t = t'.storeRoute call route .timestamp
  | _ => t' = t

/-- What threads without the mutex decide by. -/
structure Agrees (t t' : Routing Iface) : Prop where
  addr : ∀ node, (t'.routes node).addr = (t.routes node).addr
  linkspeed : ∀ node, (t'.routes node).linkspeed = (t.routes node).linkspeed
  allocated : t'.allocated = t.allocated

theorem Agrees.refl (t : Routing Iface) : t.Agrees t :=
  ⟨fun _ => rfl, fun _ => rfl, rfl⟩

theorem Agrees.symm (agrees : t.Agrees t') : t'.Agrees t :=
  ⟨fun node => (agrees.addr node).symm,
    fun node => (agrees.linkspeed node).symm, agrees.allocated.symm⟩

theorem agrees_linkedUpTo (t : Routing Iface) (route next : RouteNode)
    (store : LinkStore) : t.Agrees (t.linkedUpTo route next store) :=
  ⟨fun _ => rfl, fun _ => rfl, rfl⟩

theorem agrees_storeRoute (t : Routing Iface) (call : RouteCall Iface)
    (route : RouteNode) {store : RouteStore} (other : store ≠ .linkspeed) :
    t.Agrees (t.storeRoute call route store) := by
  constructor
  · intro node
    by_cases same : node = route
    · subst node
      cases store <;> simp [storeRoute]
    · simp [storeRoute, same]
  · intro node
    by_cases same : node = route
    · subst node
      cases store with
      | iface | timestamp => simp [storeRoute]
      | linkspeed => exact absurd rfl other
    · simp [storeRoute, same]
  · rfl

theorem Unfinished.agrees {place : RoutePlace Iface}
    (unfinished : Unfinished t t' place) : t.Agrees t' := by
  cases place with
  | linking call route next store =>
      obtain ⟨_, rfl⟩ := unfinished
      exact t.agrees_linkedUpTo route next store
  | replacing call route store =>
      cases store with
      | iface =>
          obtain rfl := unfinished
          exact .refl _
      | linkspeed =>
          obtain rfl := unfinished
          exact t.agrees_storeRoute call route (by simp)
      | timestamp =>
          obtain rfl := unfinished
          exact (t'.agrees_storeRoute call route (by simp)).symm
  | _ =>
      obtain rfl := unfinished
      exact .refl _

/-- A store to a block that nothing else uses goes with any change that is
under way. -/
theorem Unfinished.fills {m m' : Routing Iface} {place : RoutePlace Iface}
    {address : Nat} (unfinished : Unfinished m m' place)
    (apart : ∀ call route store, place = .replacing call route store →
      route ≠ .block address) (call : RouteCall Iface) :
    Unfinished
      (({ m with allocated := address :: m.allocated } :
        Routing Iface).fill (.block address) call)
      (({ m' with allocated := address :: m'.allocated } :
        Routing Iface).fill (.block address) call) place := by
  cases place with
  | linking other route next store =>
      obtain ⟨rfl, rfl⟩ := unfinished
      refine ⟨rfl, ?_⟩
      cases store <;> rfl
  | replacing other route store =>
      have different := apart other route store rfl
      cases store with
      | iface =>
          have same : m' = m := unfinished
          rw [same]
          rfl
      | linkspeed =>
          have same : m' = m.storeRoute other route .iface := unfinished
          rw [same]
          simp only [Unfinished, storeRoute, fill]
          rw [Function.update_of_ne different,
            Function.update_of_ne different.symm,
            Function.update_comm different]
      | timestamp =>
          have same : m = m'.storeRoute other route .timestamp := unfinished
          rw [same]
          simp only [Unfinished, storeRoute, fill]
          rw [Function.update_of_ne different,
            Function.update_of_ne different.symm,
            Function.update_comm different]
  | _ =>
      have same : m' = m := unfinished
      rw [same]
      rfl

theorem Agrees.stops (agrees : t.Agrees t') (addr : UInt16) :
    t'.stops addr = t.stops addr := by
  funext node
  simp only [Routing.stops, agrees.addr]

end Routing

namespace RouteAccesses

open Routing

variable {Tid Iface : Type}

/-! ## The threads and their memory -/

/-- Only `lsp_route_add` is part of the other system. -/
def answered : RouteRequest Iface → Option RouteNode → RoutePoint Iface
  | .add call, found => .searched call found
  | .find _, _ => .outside

/-- Where a thread is in the system whose searches are single steps. -/
inductive Follows (t : Routing Iface) (blocks : List Nat) :
    RoutePlace Iface → RoutePoint Iface → Prop where
  | outside : Follows t blocks .outside .outside
  | opens {request : RouteRequest Iface} {place : LoopPlace RouteNode} :
      place.Opens .rtable (nodes blocks) →
      Follows t blocks (.loop request place) .outside
  | walks {request : RouteRequest Iface} {place : LoopPlace RouteNode}
      {found : Option RouteNode} :
      place.Walks .rtable (nodes blocks) (t.stops request.addr) found →
      Follows t blocks (.loop request place) (answered request found)
  | lockLink {call : RouteCall Iface} {route : RouteNode} :
      Follows t blocks (.lockLink call route) (.linking call route)
  | readNext {call : RouteCall Iface} {route : RouteNode} :
      Follows t blocks (.readNext call route) (.linking call route)
  | linking {call : RouteCall Iface} {route next : RouteNode}
      {store : LinkStore} :
      Follows t blocks (.linking call route next store)
        (.linking call route)
  | lockReplace {call : RouteCall Iface} {route : RouteNode} :
      Follows t blocks (.lockReplace call route) (.replacing call route)
  | iface {call : RouteCall Iface} {route : RouteNode} :
      Follows t blocks (.replacing call route .iface)
        (.replacing call route)
  | linkspeed {call : RouteCall Iface} {route : RouteNode} :
      Follows t blocks (.replacing call route .linkspeed)
        (.replacing call route)
  | timestamp {call : RouteCall Iface} {address : Nat} :
      address ∈ blocks →
      Follows t blocks (.replacing call (.block address) .timestamp) .outside
  | unlocking : Follows t blocks .unlocking .outside

theorem Follows.grows {t t' : Routing Iface} {blocks : List Nat}
    {place : RoutePlace Iface} {point : RoutePoint Iface}
    (follows : Follows t blocks place point) (occupied : blocks ≠ [])
    (added : List Nat)
    (same : ∀ address, address ∈ blocks →
      (t'.route address).addr = (t.route address).addr) :
    Follows t' (added ++ blocks) place point := by
  have shown : nodes blocks ≠ [] := nodes_ne_nil occupied
  cases follows with
  | outside => exact .outside
  | opens opens =>
      apply Follows.opens
      rw [nodes_append]
      exact opens.grows shown _
  | @walks request place found walks =>
      apply Follows.walks
      rw [nodes_append]
      exact walks.grows shown _ fun _ member => stops_congr same member
  | lockLink => exact .lockLink
  | readNext => exact .readNext
  | linking => exact .linking
  | lockReplace => exact .lockReplace
  | iface => exact .iface
  | linkspeed => exact .linkspeed
  | timestamp member =>
      exact .timestamp (List.mem_append_right added member)
  | unlocking => exact .unlocking

/-- The point of a thread that is not in the middle of a loop. -/
def corresponding : RoutePlace Iface → Option (RoutePoint Iface)
  | .outside | .replacing _ _ .timestamp | .unlocking => some .outside
  | .loop request place => place.result.map (answered request)
  | .lockLink call route | .readNext call route
  | .linking call route _ _ => some (.linking call route)
  | .lockReplace call route | .replacing call route .iface
  | .replacing call route .linkspeed => some (.replacing call route)

theorem Follows.point_eq {t : Routing Iface} {blocks : List Nat}
    {place : RoutePlace Iface} {point point' : RoutePoint Iface}
    (follows : Follows t blocks place point)
    (expected : corresponding place = some point') : point = point' := by
  cases follows with
  | opens opens => cases opens <;> cases expected
  | walks walks =>
      cases walks with
      | ended => exact Option.some.inj expected
      | _ => cases expected
  | _ => exact Option.some.inj expected

/-- The memory is the other system's, but for what the owner of the mutex has
left to do, and every thread is at the corresponding point. -/
structure Refines (s : RouteAccesses Tid Iface) (t : RouteThreads Tid Iface)
    (blocks : List Nat) : Prop where
  sound : RouteThreads.Sound t blocks
  occupied : blocks ≠ []
  owned : ∀ thread, (s.place thread).locked = true ↔ s.owner = some thread
  free : s.owner = none → s.routing = t.routing
  busy : ∀ thread, s.owner = some thread →
    Unfinished t.routing s.routing (s.place thread)
  follows : ∀ thread,
    Follows t.routing blocks (s.place thread) (t.point thread)

namespace Refines

variable {s : RouteAccesses Tid Iface} {t : RouteThreads Tid Iface}
  {blocks : List Nat}

theorem agrees (refines : Refines s t blocks) :
    t.routing.Agrees s.routing := by
  cases owner : s.owner with
  | none =>
      rw [refines.free owner]
      exact .refl _
  | some thread => exact (refines.busy thread owner).agrees

/-- Readers find the routes in order at any time. -/
theorem forward (refines : Refines s t blocks) :
    Forward s.routing.links .rtable (nodes blocks) := by
  have whole := refines.sound.held.forward
  cases owner : s.owner with
  | none =>
      rw [refines.free owner]
      exact whole
  | some thread =>
      have unfinished := refines.busy thread owner
      have follows := refines.follows thread
      cases place : s.place thread with
      | linking call route next store =>
          rw [place] at unfinished follows
          obtain ⟨rfl, same⟩ := unfinished
          generalize point : t.point thread = point' at follows
          cases follows with
          | linking =>
              obtain ⟨address, rfl, fresh, _⟩ :=
                refines.sound.filled thread call route point
              rw [same]
              exact whole.insertUpTo (nodes_ne_nil refines.occupied)
                (by simpa [nodes] using fresh) store.made_le
      | replacing call route store =>
          rw [place] at unfinished
          cases store with
          | iface =>
              have same : s.routing = t.routing := unfinished
              rw [same]
              exact whole
          | linkspeed =>
              have same : s.routing =
                t.routing.storeRoute call route .iface := unfinished
              rw [same]
              exact whole
          | timestamp =>
              have same : t.routing =
                s.routing.storeRoute call route .timestamp := unfinished
              rw [same] at whole
              exact whole
      | _ =>
          rw [place] at unfinished
          have same : s.routing = t.routing := unfinished
          rw [same]
          exact whole

theorem point_eq {thread : Tid} {point : RoutePoint Iface}
    (refines : Refines s t blocks)
    (expected : corresponding (s.place thread) = some point) :
    t.point thread = point :=
  (refines.follows thread).point_eq expected

theorem replaced_mem {thread : Tid} {call : RouteCall Iface} {route : RouteNode}
    {store : RouteStore} (refines : Refines s t blocks)
    (place : s.place thread = .replacing call route store) :
    ∃ address, address ∈ blocks ∧ route = .block address := by
  cases store with
  | timestamp =>
      have follows := refines.follows thread
      rw [place] at follows
      generalize t.point thread = point at follows
      cases follows with
      | timestamp member => exact ⟨_, member, rfl⟩
  | iface | linkspeed =>
      have point : t.point thread = .replacing call route :=
        refines.point_eq (by rw [place]; rfl)
      obtain ⟨address, member, shape, _⟩ :=
        refines.sound.known thread call route (by rw [point]; rfl)
      exact ⟨address, member, shape⟩

theorem not_owner {thread : Tid} (refines : Refines s t blocks)
    (before : (s.place thread).locked = false) :
    s.owner ≠ some thread := by
  rw [ne_eq, ← refines.owned, before]
  exact Bool.false_ne_true

section Moving

variable [DecidableEq Tid] {t' : RouteThreads Tid Iface} {thread : Tid}
  {place : RoutePlace Iface}

theorem steps (refines : Refines s t blocks) {routing : Routing Iface}
    {owner : Option Tid} (added : List Nat)
    (sound : RouteThreads.Sound t' (added ++ blocks))
    (same : ∀ address, address ∈ blocks →
      (t'.routing.route address).addr = (t.routing.route address).addr)
    (others : ∀ other, other ≠ thread → t'.point other = t.point other)
    (locked : place.locked = true ↔ owner = some thread)
    (exclusive : ∀ other, other ≠ thread →
      (owner = some other ↔ s.owner = some other))
    (free : owner = none → routing = t'.routing)
    (mine : owner = some thread → Unfinished t'.routing routing place)
    (theirs : ∀ other, other ≠ thread → owner = some other →
      Unfinished t'.routing routing (s.place other))
    (follows : Follows t'.routing (added ++ blocks) place
      (t'.point thread)) :
    Refines (({ s with routing := routing, owner := owner } :
      RouteAccesses Tid Iface).moveTo thread place) t'
        (added ++ blocks) := by
  constructor
  · exact sound
  · simp [refines.occupied]
  · intro other
    change (Function.update s.place thread place other).locked = true ↔
      owner = some other
    by_cases equal : other = thread
    · rw [equal, Function.update_self]
      exact locked
    · rw [Function.update_of_ne equal, refines.owned, exclusive other equal]
  · exact free
  · intro other owned
    change Unfinished t'.routing routing
      (Function.update s.place thread place other)
    by_cases equal : other = thread
    · rw [equal, Function.update_self]
      rw [equal] at owned
      exact mine owned
    · rw [Function.update_of_ne equal]
      exact theirs other equal owned
  · intro other
    change Follows t'.routing (added ++ blocks)
      (Function.update s.place thread place other) (t'.point other)
    by_cases equal : other = thread
    · rw [equal, Function.update_self]
      exact follows
    · rw [Function.update_of_ne equal, others other equal]
      exact (refines.follows other).grows refines.occupied added same

theorem quiet (refines : Refines s t blocks)
    (before : (s.place thread).locked = false)
    (after : place.locked = false) {point : RoutePoint Iface}
    (sound : RouteThreads.Sound (t.moveTo thread point) blocks)
    (follows : Follows t.routing blocks place point) :
    Refines (s.moveTo thread place) (t.moveTo thread point) blocks := by
  have notOwner := refines.not_owner before
  refine refines.steps [] sound (fun _ _ => rfl) ?_ ?_
    (fun _ _ => Iff.rfl) refines.free ?_ ?_ ?_
  · exact fun other different => Function.update_of_ne different _ _
  · rw [after]
    exact ⟨fun no => absurd no Bool.false_ne_true,
      fun owner => absurd owner notOwner⟩
  · exact fun owner => absurd owner notOwner
  · exact fun other _ owner => refines.busy other owner
  · change Follows t.routing blocks place
      (Function.update t.point thread point thread)
    rw [Function.update_self]
    exact follows

theorem unseen (refines : Refines s t blocks)
    (before : (s.place thread).locked = false)
    (after : place.locked = false)
    (follows : Follows t.routing blocks place (t.point thread)) :
    Refines (s.moveTo thread place) t blocks := by
  have stays : t.moveTo thread (t.point thread) = t := by
    simp [RouteThreads.moveTo]
  have sound := refines.sound
  rw [← stays] at sound
  have moved := refines.quiet before after sound follows
  rw [stays] at moved
  exact moved

theorem locks (refines : Refines s t blocks) (owner : s.owner = none)
    (after : place.locked = true)
    (settled : Unfinished t.routing t.routing place)
    (follows : Follows t.routing blocks place (t.point thread)) :
    Refines (({ s with owner := some thread } :
      RouteAccesses Tid Iface).moveTo thread place) t blocks := by
  refine refines.steps [] refines.sound (fun _ _ => rfl) (fun _ _ => rfl)
    ?_ ?_ (fun no => nomatch no) ?_ ?_ follows
  · exact ⟨fun _ => rfl, fun _ => after⟩
  · intro other different
    rw [owner]
    exact ⟨fun mine => absurd (Option.some.inj mine).symm different,
      fun no => nomatch no⟩
  · intro _
    rw [refines.free owner]
    exact settled
  · intro other different mine
    exact absurd (Option.some.inj mine).symm different

theorem works (refines : Refines s t blocks) (owner : s.owner = some thread)
    {routing : Routing Iface} (added : List Nat)
    (sound : RouteThreads.Sound t' (added ++ blocks))
    (same : ∀ address, address ∈ blocks →
      (t'.routing.route address).addr = (t.routing.route address).addr)
    (others : ∀ other, other ≠ thread → t'.point other = t.point other)
    (after : place.locked = true)
    (unfinished : Unfinished t'.routing routing place)
    (follows : Follows t'.routing (added ++ blocks) place
      (t'.point thread)) :
    Refines (({ s with routing := routing } :
      RouteAccesses Tid Iface).moveTo thread place) t'
        (added ++ blocks) := by
  refine refines.steps added sound same others ?_ (fun _ _ => Iff.rfl) ?_
    (fun _ => unfinished) ?_ follows
  · exact ⟨fun _ => owner, fun _ => after⟩
  · intro free
    rw [owner] at free
    cases free
  · intro other different mine
    rw [owner] at mine
    exact absurd (Option.some.inj mine).symm different

theorem unlocks (refines : Refines s t blocks)
    (unlocking : s.place thread = .unlocking) :
    Refines (({ s with owner := none } :
      RouteAccesses Tid Iface).moveTo thread .outside) t blocks := by
  have owner : s.owner = some thread :=
    (refines.owned thread).mp (by rw [unlocking]; rfl)
  have point : t.point thread = .outside :=
    refines.point_eq (by rw [unlocking]; rfl)
  have whole := refines.busy thread owner
  rw [unlocking] at whole
  refine refines.steps [] refines.sound (fun _ _ => rfl) (fun _ _ => rfl)
    ?_ ?_ (fun _ => whole) (fun no => nomatch no)
    (fun _ _ no => nomatch no) ?_
  · exact ⟨fun no => absurd no Bool.false_ne_true,
      fun no => (nomatch no)⟩
  · intro other different
    rw [owner]
    exact ⟨fun no => (nomatch no),
      fun mine => absurd (Option.some.inj mine).symm different⟩
  · rw [point]
    exact .outside

end Moving

end Refines

/-! ## One access -/

section Matching

variable [DecidableEq Tid] {s s' : RouteAccesses Tid Iface}
  {t t' : RouteThreads Tid Iface} {blocks : List Nat} {thread : Tid}
  {outcome : Option (RouteResult Iface)}

/-- An access of a thread is matched by steps of the other system. -/
def Advances (s : RouteAccesses Tid Iface) (t : RouteThreads Tid Iface)
    (blocks : List Nat) (thread : Tid) (s' : RouteAccesses Tid Iface) :
    Prop :=
  ∃ actions t' added,
    Run RouteThreads.step Anywhere t actions t' ∧
    Refines s' t' (added ++ blocks) ∧
    (∀ address, address ∈ blocks →
      (t'.routing.route address).addr = (t.routing.route address).addr) ∧
    ∀ call, call ∈ RouteThreads.announced actions →
      (s.place thread).request = some (.add call)

theorem Advances.none (refines : Refines s' t blocks) :
    Advances s t blocks thread s' :=
  ⟨[], t, [], .nil, refines, fun _ _ => rfl, fun _ member => nomatch member⟩

theorem Advances.one {action : RouteAction Tid Iface}
    (moves : RouteThreads.Moves t action t') (added : List Nat)
    (refines : Refines s' t' (added ++ blocks))
    (same : ∀ address, address ∈ blocks →
      (t'.routing.route address).addr = (t.routing.route address).addr)
    (known : ∀ call, call ∈ RouteThreads.announced [action] →
      (s.place thread).request = some (.add call)) :
    Advances s t blocks thread s' :=
  ⟨[action], t', added,
    .single trivial (RouteThreads.step_of_moves moves), refines, same, known⟩

/-- The access at which a search counts as made. -/
theorem Refines.searches {request : RouteRequest Iface}
    {place later : LoopPlace RouteNode} (refines : Refines s t blocks)
    (called : s.place thread = .loop request place)
    (outside : t.point thread = .outside)
    (walks : later.Walks .rtable (nodes blocks)
      (t.routing.stops request.addr)
      ((visible (nodes blocks)).find? (t.routing.stops request.addr))) :
    Advances s t blocks thread
      (s.moveTo thread (.loop request later)) := by
  have before : (s.place thread).locked = false := by rw [called]; rfl
  have follows := Follows.walks walks
  cases request with
  | find addr =>
      apply Advances.none
      apply refines.unseen before rfl
      rw [outside]
      exact follows
  | add call =>
      obtain ⟨bound, looked⟩ := refines.sound.held.found_stops call.addr
      have searched := looked bound (Nat.le_refl bound)
      refine .one (.searches outside searched) [] ?_ (fun _ _ => rfl) ?_
      · exact refines.quiet before rfl (refines.sound.searches searched)
          follows
      · intro other member
        simp only [RouteThreads.announced, List.filterMap_cons,
          List.filterMap_nil, List.mem_singleton] at member
        rw [member, called]
        rfl

theorem Refines.walks {request : RouteRequest Iface}
    {place : LoopPlace RouteNode} (refines : Refines s t blocks)
    (called : s.place thread = .loop request place) :
    Advances s t blocks thread (s.moveTo thread (.loop request
      (place.step s.routing.links .rtable
        (s.routing.stops request.addr)))) := by
  have before : (s.place thread).locked = false := by rw [called]; rfl
  have follows := refines.follows thread
  rw [called] at follows
  rw [refines.agrees.stops]
  generalize point : t.point thread = point' at follows
  cases follows with
  | opens opens =>
      rcases opens.step refines.forward (t.routing.stops request.addr) with
        still | decided
      · apply Advances.none
        apply refines.unseen before rfl
        rw [point]
        exact .opens still
      · exact refines.searches called point decided
  | walks walks =>
      apply Advances.none
      apply refines.unseen before rfl
      rw [point]
      exact .walks (walks.step refines.forward)

theorem Refines.leaves (refines : Refines s t blocks)
    (before : (s.place thread).locked = false)
    (moves : RouteThreads.Moves t (.prepare thread)
      (t.moveTo thread .outside)) :
    Advances s t blocks thread (s.moveTo thread .outside) := by
  refine .one moves [] ?_ (fun _ _ => rfl) (fun _ member => nomatch member)
  exact refines.quiet before rfl (refines.sound.leaves thread) .outside

theorem Refines.fills {call : RouteCall Iface} {address : Nat}
    (refines : Refines s t blocks)
    (place : s.place thread = .loop (.add call) (.ended none))
    (block : call.block = some address)
    (unused : address ∉ s.routing.allocated) :
    Advances s t blocks thread
      (({ s with
          routing := ({ s.routing with
            allocated := address :: s.routing.allocated } :
              Routing Iface).fill (.block address) call } :
        RouteAccesses Tid Iface).moveTo thread
          (.lockLink call (.block address))) := by
  have point : t.point thread = .searched call none :=
    refines.point_eq (by rw [place]; rfl)
  have notOwner : s.owner ≠ some thread :=
    refines.not_owner (by rw [place]; rfl)
  have free : address ∉ t.routing.allocated := by
    rw [← refines.agrees.allocated]
    exact unused
  have fresh : address ∉ blocks := fun member =>
    free (refines.sound.held.known address member)
  have same : ∀ other, other ∈ blocks →
      (({ t.routing with allocated := address :: t.routing.allocated } :
        Routing Iface).fill (.block address) call).route other =
        t.routing.route other := by
    intro other member
    apply route_fill_other
    intro equal
    rw [equal] at member
    exact fresh member
  refine .one (.fills point block free) [] ?_ ?_
    (fun _ member => nomatch member)
  · refine refines.steps [] (refines.sound.fills free) ?_ ?_ ?_
      (fun _ _ => Iff.rfl) ?_ ?_ ?_ ?_
    · intro other member
      exact congrArg LspRoute.addr (same other member)
    · exact fun other different => Function.update_of_ne different _ _
    · exact ⟨fun no => absurd no Bool.false_ne_true,
        fun owner => absurd owner notOwner⟩
    · intro owner
      rw [refines.free owner]
      rfl
    · exact fun owner => absurd owner notOwner
    · intro other _ owner
      apply (refines.busy other owner).fills
      intro otherCall route store replacing equal
      obtain ⟨place, member, shape⟩ := refines.replaced_mem replacing
      rw [shape] at equal
      cases equal
      exact fresh member
    · change Follows _ blocks _ (Function.update t.point thread _ thread)
      rw [Function.update_self]
      exact .lockLink
  · intro other member
    exact congrArg LspRoute.addr (same other member)

theorem Refines.storesLink {call : RouteCall Iface} {route next : RouteNode}
    {store later : LinkStore} (refines : Refines s t blocks)
    (place : s.place thread = .linking call route next store)
    (order : store.later = some later) :
    Refines (({ s with routing := s.routing.storeLink route next store } :
      RouteAccesses Tid Iface).moveTo thread
        (.linking call route next later)) t blocks := by
  have owner : s.owner = some thread :=
    (refines.owned thread).mp (by rw [place]; rfl)
  have point : t.point thread = .linking call route :=
    refines.point_eq (by rw [place]; rfl)
  have unfinished := refines.busy thread owner
  rw [place] at unfinished
  obtain ⟨first, memory⟩ := unfinished
  refine refines.works owner [] refines.sound (fun _ _ => rfl)
    (fun _ _ => rfl) rfl ⟨first, ?_⟩ ?_
  · rw [memory]
    exact t.routing.linkedUpTo_later route next order
  · rw [point]
    exact .linking

/-- The store that shows the new route. -/
theorem Refines.links {call : RouteCall Iface} {route next : RouteNode}
    (refines : Refines s t blocks)
    (place : s.place thread = .linking call route next .prevNext) :
    Advances s t blocks thread
      (({ s with routing := s.routing.storeLink route next .prevNext } :
        RouteAccesses Tid Iface).moveTo thread .unlocking) := by
  have owner : s.owner = some thread :=
    (refines.owned thread).mp (by rw [place]; rfl)
  have point : t.point thread = .linking call route :=
    refines.point_eq (by rw [place]; rfl)
  have unfinished := refines.busy thread owner
  rw [place] at unfinished
  obtain ⟨rfl, memory⟩ := unfinished
  obtain ⟨address, _, _, _, sound⟩ := refines.sound.links point
  refine .one (.links point) [address] ?_ (fun _ _ => rfl)
    (fun _ member => nomatch member)
  refine refines.works owner [address] sound (fun _ _ => rfl) ?_ rfl ?_ ?_
  · exact fun other different => Function.update_of_ne different _ _
  · rw [memory]
    exact t.routing.linkedUpTo_all route
  · change Follows _ _ _ (Function.update t.point thread _ thread)
    rw [Function.update_self]
    exact .unlocking

/-- The store at which a route counts as replaced. -/
theorem Refines.storesLinkspeed {call : RouteCall Iface} {route : RouteNode}
    (refines : Refines s t blocks)
    (place : s.place thread = .replacing call route .linkspeed) :
    Advances s t blocks thread
      (({ s with routing := s.routing.storeRoute call route .linkspeed } :
        RouteAccesses Tid Iface).moveTo thread
          (.replacing call route .timestamp)) := by
  have owner : s.owner = some thread :=
    (refines.owned thread).mp (by rw [place]; rfl)
  have point : t.point thread = .replacing call route :=
    refines.point_eq (by rw [place]; rfl)
  have unfinished := refines.busy thread owner
  rw [place] at unfinished
  have memory : s.routing = t.routing.storeRoute call route .iface :=
    unfinished
  obtain ⟨address, member, rfl⟩ := refines.replaced_mem place
  have same : ∀ other, other ∈ blocks →
      ((t.routing.replace (.block address) call).route other).addr =
        (t.routing.route other).addr :=
    fun other _ => t.routing.addr_replace (.block address) other call
  refine .one (.replaces point) [] ?_ same (fun _ member => nomatch member)
  refine refines.works owner [] (refines.sound.replaces point) same ?_ rfl
    ?_ ?_
  · exact fun other different => Function.update_of_ne different _ _
  · rw [memory]
    exact (t.routing.storeRoute_replace call (.block address)).symm
  · change Follows _ _ _ (Function.update t.point thread _ thread)
    rw [Function.update_self]
    exact .timestamp member

theorem Refines.storesRoute {call : RouteCall Iface} {route : RouteNode}
    (refines : Refines s t blocks) {store : RouteStore}
    {later : RoutePlace Iface}
    (place : s.place thread = .replacing call route store)
    (order : (store, later) ∈
      [(RouteStore.iface, RoutePlace.replacing call route .linkspeed),
        (.timestamp, .unlocking)]) :
    Refines (({ s with routing := s.routing.storeRoute call route store } :
      RouteAccesses Tid Iface).moveTo thread later) t blocks := by
  have owner : s.owner = some thread :=
    (refines.owned thread).mp (by rw [place]; rfl)
  have unfinished := refines.busy thread owner
  rw [place] at unfinished
  simp only [List.mem_cons, Prod.mk.injEq, List.not_mem_nil,
    or_false] at order
  rcases order with ⟨rfl, rfl⟩ | ⟨rfl, rfl⟩
  · have point : t.point thread = .replacing call route :=
      refines.point_eq (by rw [place]; rfl)
    have memory : s.routing = t.routing := unfinished
    refine refines.works owner [] refines.sound (fun _ _ => rfl)
      (fun _ _ => rfl) rfl ?_ ?_
    · rw [memory]
      rfl
    · rw [point]
      exact .linkspeed
  · have point : t.point thread = .outside :=
      refines.point_eq (by rw [place]; rfl)
    have memory : t.routing = s.routing.storeRoute call route .timestamp :=
      unfinished
    refine refines.works owner [] refines.sound (fun _ _ => rfl)
      (fun _ _ => rfl) rfl memory.symm ?_
    rw [point]
    exact .unlocking

/-- Every access of a thread is matched. -/
theorem Refines.advances (refines : Refines s t blocks)
    (goes : Goes s thread s' outcome) :
    Advances s t blocks thread s' := by
  cases goes with
  | walks place _ => exact refines.walks place
  | answers place =>
      have point : t.point thread = .outside :=
        refines.point_eq (by rw [place]; rfl)
      apply Advances.none
      apply refines.unseen (by rw [place]; rfl) rfl
      rw [point]
      exact .outside
  | @noMemory call place block =>
      have point : t.point thread = .searched call none :=
        refines.point_eq (by rw [place]; rfl)
      exact refines.leaves (by rw [place]; rfl) (.noMemory point block)
  | fills place block unused => exact refines.fills place block unused
  | @improves call route place better =>
      have point : t.point thread = .searched call (some route) :=
        refines.point_eq (by rw [place]; rfl)
      have agreed : t.routing.better route call.linkspeed = true := by
        rw [Routing.better, ← refines.agrees.linkspeed]
        exact better
      refine .one (.improves point agreed) [] ?_ (fun _ _ => rfl)
        (fun _ member => absurd member List.not_mem_nil)
      exact refines.quiet (by rw [place]; rfl) rfl
        (refines.sound.improves point) .lockReplace
  | @gives call route place worse =>
      have point : t.point thread = .searched call (some route) :=
        refines.point_eq (by rw [place]; rfl)
      have agreed : t.routing.better route call.linkspeed = false := by
        rw [Routing.better, ← refines.agrees.linkspeed]
        exact worse
      exact refines.leaves (by rw [place]; rfl) (.gives point agreed)
  | @locksLink call route place owner =>
      have point : t.point thread = .linking call route :=
        refines.point_eq (by rw [place]; rfl)
      have settled : Unfinished t.routing t.routing
          (.readNext call route) := rfl
      refine .none (refines.locks owner rfl settled ?_)
      rw [point]
      exact .readNext
  | @readsNext call route place =>
      have point : t.point thread = .linking call route :=
        refines.point_eq (by rw [place]; rfl)
      have owner : s.owner = some thread :=
        (refines.owned thread).mp (by rw [place]; rfl)
      have memory := refines.busy thread owner
      rw [place] at memory
      have same : s.routing = t.routing := memory
      apply Advances.none
      refine refines.works owner [] refines.sound (fun _ _ => rfl)
        (fun _ _ => rfl) rfl ?_ ?_
      · rw [same]
        exact ⟨rfl, rfl⟩
      · rw [point]
        exact .linking
  | storesLink place order => exact .none (refines.storesLink place order)
  | links place => exact refines.links place
  | @locksReplace call route place owner =>
      have point : t.point thread = .replacing call route :=
        refines.point_eq (by rw [place]; rfl)
      have settled : Unfinished t.routing t.routing
          (.replacing call route .iface) := rfl
      refine .none (refines.locks owner rfl settled ?_)
      rw [point]
      exact .iface
  | storesIface place =>
      exact .none (refines.storesRoute place (by simp))
  | storesLinkspeed place => exact refines.storesLinkspeed place
  | storesTimestamp place =>
      exact .none (refines.storesRoute place (by simp))
  | unlocks place => exact .none (refines.unlocks place)

end Matching

end RouteAccesses

end Liblsp
