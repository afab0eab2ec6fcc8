import Liblsp.Routing

/-!
# The routing table as a map

A table with one route is as good as empty for the loops that search it.  The
first address therefore is not found by the second call.  If that call is for
the same address, the table holds two routes for it from then on; if it is for
another one, it makes the first address known to the look-up.
-/

namespace Liblsp

open Base

namespace Routing

variable {Iface : Type}

/-- The addresses in a table after a call for one more. -/
def learn (known : List UInt16) (addr : UInt16) : List UInt16 :=
  if addr ∈ visible known then known else addr :: known

/-- The addresses in a table that was empty before these calls. -/
def learned (calls : List (RouteCall Iface)) : List UInt16 :=
  (calls.map RouteCall.addr).foldl learn []

section Learning

variable {known : List UInt16}

theorem mem_learn {addr other : UInt16} :
    other ∈ learn known addr ↔ other = addr ∨ other ∈ known := by
  unfold learn
  split
  · rename_i seen
    have present := visible_subset seen
    constructor
    · exact Or.inr
    · intro member
      rcases member with same | member
      · rw [same]
        exact present
      · exact member
  · exact List.mem_cons

theorem mem_foldl_learn {addr : UInt16} {addrs : List UInt16} :
    addr ∈ addrs.foldl learn known ↔ addr ∈ known ∨ addr ∈ addrs := by
  induction addrs generalizing known with
  | nil => simp
  | cons first addrs induction =>
      rw [List.foldl_cons, induction, mem_learn, List.mem_cons, ← or_assoc]
      exact or_congr_left or_comm

theorem mem_learned {calls : List (RouteCall Iface)} {addr : UInt16} :
    addr ∈ learned calls ↔ ∃ call, call ∈ calls ∧ call.addr = addr := by
  rw [learned, mem_foldl_learn]
  simp

theorem learn_of_several (several : 2 ≤ known.length) (addr : UInt16) :
    2 ≤ (learn known addr).length ∧
      ((learn known addr).Nodup ↔ known.Nodup) := by
  unfold learn
  rw [visible_of_length_ne_one (by omega)]
  split
  · exact ⟨several, Iff.rfl⟩
  · rename_i fresh
    constructor
    · rw [List.length_cons]
      omega
    · rw [List.nodup_cons]
      exact and_iff_right fresh

theorem foldl_learn_of_several (several : 2 ≤ known.length)
    (addrs : List UInt16) :
    2 ≤ (addrs.foldl learn known).length ∧
      ((addrs.foldl learn known).Nodup ↔ known.Nodup) := by
  induction addrs generalizing known with
  | nil => exact ⟨several, Iff.rfl⟩
  | cons addr addrs induction =>
      obtain ⟨still, kept⟩ := learn_of_several several addr
      obtain ⟨long, same⟩ := induction still
      exact ⟨long, same.trans kept⟩

/-- There were no calls, or two at least and the first two of them are for
different addresses. -/
def FirstTwoDiffer : List (RouteCall Iface) → Prop
  | [] => True
  | [_] => False
  | first :: second :: _ => first.addr ≠ second.addr

/-- Exactly then the addresses are distinct and none is hidden. -/
theorem learned_iff (calls : List (RouteCall Iface)) :
    ((learned calls).Nodup ∧ (learned calls).length ≠ 1) ↔
      FirstTwoDiffer calls := by
  match calls with
  | [] => simp [learned, FirstTwoDiffer]
  | [call] => simp [learned, learn, visible, FirstTwoDiffer]
  | first :: second :: rest =>
      have two : learned (first :: second :: rest) =
          (rest.map RouteCall.addr).foldl learn
            [second.addr, first.addr] := by
        simp [learned, learn, visible]
      have pair : 2 ≤ [second.addr, first.addr].length := by simp
      obtain ⟨several, distinct⟩ :=
        foldl_learn_of_several pair (rest.map RouteCall.addr)
      rw [two, distinct, FirstTwoDiffer]
      constructor
      · intro map same
        rw [same] at map
        simp at map
      · intro different
        exact ⟨by simpa using different.symm, by omega⟩

end Learning

/-! ## The table after a sequence of calls -/

variable {t t' : Routing Iface} {blocks blocks' : List Nat}

theorem found_eq_none {addr : UInt16} :
    t.found blocks addr = none ↔ addr ∉ visible (t.addresses blocks) := by
  rw [found, addresses, visible_map, List.find?_eq_none]
  simp

theorem found_some {addr : UInt16} {address : Nat}
    (found : t.found blocks addr = some address) :
    address ∈ blocks ∧ (t.route address).addr = addr := by
  have accepted := List.find?_some found
  exact ⟨visible_subset (List.mem_of_find?_eq_some found),
    by simpa using accepted⟩

theorem addresses_congr
    (same : ∀ address, address ∈ blocks →
      (t'.route address).addr = (t.route address).addr) :
    t'.addresses blocks = t.addresses blocks :=
  List.map_congr_left same

theorem addresses_insert {call : RouteCall Iface} {address : Nat}
    (fresh : address ∉ blocks) :
    (t.insert address call).addresses (address :: blocks) =
      call.addr :: t.addresses blocks := by
  have old : (t.insert address call).addresses blocks =
      t.addresses blocks := by
    apply addresses_congr
    intro other member
    rw [route_insert_other]
    intro same
    rw [same] at member
    exact fresh member
  simp only [addresses, List.map_cons] at old ⊢
  rw [old, route_insert_same]

theorem found_insert {call : RouteCall Iface} {address : Nat}
    {other : UInt16} (fresh : address ∉ blocks)
    (shown : blocks.length ≠ 1) (different : other ≠ call.addr) :
    (t.insert address call).found (address :: blocks) other =
      t.found blocks other := by
  cases blocks with
  | nil => simp [found, visible]
  | cons first rest =>
      have long : (address :: first :: rest).length ≠ 1 := by simp
      have skip : ((t.insert address call).route address).addr ≠ other := by
        rw [route_insert_same]
        exact different.symm
      rw [found, found, visible_of_length_ne_one long,
        visible_of_length_ne_one shown, List.find?_cons_of_neg (by simpa)]
      apply List.find?_congr
      intro kept member
      rw [route_insert_other]
      intro same
      rw [same] at member
      exact fresh member

theorem Adds.addresses {call : RouteCall Iface} (held : t.Holds blocks)
    (adds : Adds t blocks call t' blocks' lspErrNone) :
    t'.addresses blocks' = learn (t.addresses blocks) call.addr := by
  generalize success : lspErrNone = rc at adds
  cases adds with
  | noMemory => exact absurd success (by decide)
  | @inserts address missing _ unused =>
      have fresh : address ∉ blocks := fun member =>
        unused (held.known address member)
      rw [learn, if_neg (found_eq_none.mp missing), addresses_insert fresh]
  | @replaces address seen _ =>
      rw [addresses_replace, learn, if_pos]
      by_contra hidden
      rw [found_eq_none.mpr hidden] at seen
      simp at seen
  | @keeps address seen _ =>
      rw [learn, if_pos]
      by_contra hidden
      rw [found_eq_none.mpr hidden] at seen
      simp at seen

/-- Every route carries the interface of a call for its address. -/
def Supplied (t : Routing Iface) (blocks : List Nat)
    (calls : List (RouteCall Iface)) : Prop :=
  ∀ address, address ∈ blocks →
    ∃ call, call ∈ calls ∧ call.addr = (t.route address).addr ∧
      call.iface = (t.route address).iface

theorem Supplied.more {calls : List (RouteCall Iface)}
    {address : Nat} (call : RouteCall Iface)
    (supplied : ∃ call, call ∈ calls ∧
      call.addr = (t.route address).addr ∧
      call.iface = (t.route address).iface)
    (same : t'.route address = t.route address) :
    ∃ other, other ∈ calls ++ [call] ∧
      other.addr = (t'.route address).addr ∧
      other.iface = (t'.route address).iface := by
  obtain ⟨other, member, addr, iface⟩ := supplied
  rw [same]
  exact ⟨other, List.mem_append_left _ member, addr, iface⟩

theorem Supplied.adds {calls : List (RouteCall Iface)}
    {call : RouteCall Iface} (supplied : Supplied t blocks calls)
    (adds : Adds t blocks call t' blocks' lspErrNone) :
    Supplied t' blocks' (calls ++ [call]) := by
  generalize success : lspErrNone = rc at adds
  cases adds with
  | noMemory => exact absurd success (by decide)
  | @inserts address missing _ unused =>
      intro other member
      by_cases same : other = address
      · subst other
        refine ⟨call, by simp, ?_, ?_⟩
        · rw [route_insert_same]
        · rw [route_insert_same]
      · have old : other ∈ blocks :=
          (List.mem_cons.mp member).resolve_left same
        exact Supplied.more call (supplied other old)
          (route_insert_other same)
  | @replaces address seen _ =>
      intro other member
      by_cases same : other = address
      · subst other
        refine ⟨call, by simp, ?_, ?_⟩
        · rw [route_replace_same]
          exact (found_some seen).2.symm
        · rw [route_replace_same]
      · exact Supplied.more call (supplied other member)
          (route_replace_other same)
  | keeps =>
      intro other member
      exact Supplied.more call (supplied other member) rfl

/-- There is one route for each address that was added, and a look-up yields
what was added for it. -/
structure MapsAddresses (t : Routing Iface)
    (calls : List (RouteCall Iface)) : Prop where
  routes : ∃ blocks, t.Holds blocks ∧ (t.addresses blocks).Nodup ∧
    ∀ addr, addr ∈ t.addresses blocks ↔
      ∃ call, call ∈ calls ∧ call.addr = addr
  find : ∀ addr, ∃ iface, Returns (t.lspRouteFind addr) iface ∧
    (iface = none ↔ ¬∃ call, call ∈ calls ∧ call.addr = addr) ∧
    ∀ supplied, iface = some supplied →
      ∃ call, call ∈ calls ∧ call.addr = addr ∧ call.iface = supplied

/-- None of the calls changes what a look-up of another address yields. -/
def AddsKeepOthers (t : Routing Iface)
    (calls : List (RouteCall Iface)) : Prop :=
  ∀ before call after, calls = before ++ call :: after →
    ∀ t' t'', RouteAdds t before t' →
      Returns (t'.lspRouteAdd call) (t'', lspErrNone) →
      ∀ other, other ≠ call.addr → ∀ iface,
        Returns (t'.lspRouteFind other) iface →
          Returns (t''.lspRouteFind other) iface

/-- The table `t'` is a map for the calls that have built it from `t`. -/
structure IsRouteMap (t t' : Routing Iface)
    (calls : List (RouteCall Iface)) : Prop where
  map : MapsAddresses t' calls
  frame : AddsKeepOthers t calls

theorem RouteAdds.learned {calls : List (RouteCall Iface)}
    (sequence : RouteAdds t calls t') (empty : t.Holds []) :
    ∃ blocks, t'.Holds blocks ∧
      t'.addresses blocks = Routing.learned calls ∧
      Supplied t' blocks calls := by
  apply sequence.invariant empty
  · exact ⟨rfl, by simp [Supplied]⟩
  · intro calls t' blocks' call t'' blocks'' before held adds
    obtain ⟨known, supplied⟩ := before
    refine ⟨?_, supplied.adds adds⟩
    rw [adds.addresses held, known]
    simp [Routing.learned]

/-- Every call of a sequence was made at a table that the calls before it had
built. -/
theorem RouteAdds.split {calls : List (RouteCall Iface)}
    (sequence : RouteAdds t calls t')
    {before after : List (RouteCall Iface)} {call : RouteCall Iface}
    (shape : calls = before ++ call :: after) :
    ∃ t1 t2, RouteAdds t before t1 ∧
      Returns (t1.lspRouteAdd call) (t2, lspErrNone) := by
  induction sequence generalizing after with
  | start => simp at shape
  | @added calls _ _ last earlier called induction =>
      rcases List.eq_nil_or_concat after with ended | ⟨rest, final, more⟩
      · subst after
        obtain ⟨same, isLast⟩ := List.append_inj' shape rfl
        cases isLast
        subst same
        exact ⟨_, _, earlier, called⟩
      · subst after
        have regrouped : calls ++ [last] =
            (before ++ call :: rest) ++ [final] := by
          rw [shape]
          simp
        exact induction (List.append_inj' regrouped rfl).1
  | refused _ _ _ induction => exact induction shape

/-- A call leaves the answers for other addresses alone in a table that does
not hide its routes. -/
theorem Holds.find_frame {call : RouteCall Iface} {other : UInt16}
    {iface : Option Iface} (held : t.Holds blocks)
    (shown : blocks.length ≠ 1)
    (called : Returns (t.lspRouteAdd call) (t', lspErrNone))
    (different : other ≠ call.addr)
    (answer : Returns (t.lspRouteFind other) iface) :
    Returns (t'.lspRouteFind other) iface := by
  obtain ⟨blocks', held', adds⟩ := held.adds called
  have before := (held.lspRouteFind_returns other).unique answer
  have after := held'.lspRouteFind_returns other
  have same : (t'.found blocks' other).map (fun address =>
        (t'.route address).iface) =
      (t.found blocks other).map (fun address =>
        (t.route address).iface) := by
    generalize success : lspErrNone = rc at adds
    cases adds with
    | noMemory => exact absurd success (by decide)
    | @inserts address _ _ unused =>
        have fresh : address ∉ blocks := fun member =>
          unused (held.known address member)
        rw [found_insert fresh shown different]
        apply Option.map_congr
        intro kept seen
        rw [route_insert_other]
        intro same
        rw [same] at seen
        exact fresh (found_some seen).1
    | @replaces address hit _ =>
        rw [found_replace]
        apply Option.map_congr
        intro kept seen
        rw [route_replace_other]
        intro same
        rw [same] at seen
        exact different ((found_some seen).2.symm.trans (found_some hit).2)
    | keeps => rfl
  rw [same, before] at after
  exact after

/-- So does a call that adds the address of the only route once more. -/
theorem Holds.find_frame_again {call : RouteCall Iface} {other : UInt16}
    {iface : Option Iface} (held : t.Holds blocks)
    (alone : t.addresses blocks = [call.addr])
    (called : Returns (t.lspRouteAdd call) (t', lspErrNone))
    (different : other ≠ call.addr)
    (answer : Returns (t.lspRouteFind other) iface) :
    Returns (t'.lspRouteFind other) iface := by
  obtain ⟨blocks', held', adds⟩ := held.adds called
  have before := (held.lspRouteFind_returns other).unique answer
  have after := held'.lspRouteFind_returns other
  have hidden : t.found blocks other = none := by
    rw [found_eq_none, alone]
    simp [visible]
  have absent : t'.found blocks' other = none := by
    rw [found_eq_none, adds.addresses held, alone]
    simpa [learn, visible] using different
  rw [hidden] at before
  rw [absent] at after
  rw [← before]
  exact after

/-- The second address uncovers the first one. -/
theorem Holds.find_uncovered {call : RouteCall Iface} {addr : UInt16}
    (held : t.Holds blocks) (alone : t.addresses blocks = [addr])
    (called : Returns (t.lspRouteAdd call) (t', lspErrNone)) :
    Returns (t.lspRouteFind addr) none ∧
      ¬Returns (t'.lspRouteFind addr) none := by
  obtain ⟨blocks', held', adds⟩ := held.adds called
  have before := held.lspRouteFind_returns addr
  have hidden : t.found blocks addr = none := by
    rw [found_eq_none, alone]
    simp [visible]
  rw [hidden] at before
  refine ⟨before, ?_⟩
  intro missing
  have none := (held'.lspRouteFind_returns addr).unique missing
  rw [Option.map_eq_none_iff, found_eq_none, adds.addresses held,
    alone] at none
  exact none (by simp [learn, visible])

theorem mapsAddresses_iff {calls : List (RouteCall Iface)}
    (empty : t.Holds []) (sequence : RouteAdds t calls t') :
    MapsAddresses t' calls ↔ FirstTwoDiffer calls := by
  obtain ⟨blocks, held, known, supplied⟩ := sequence.learned empty
  have length : (Routing.learned calls).length = blocks.length := by
    rw [← known, addresses, List.length_map]
  rw [← learned_iff, length]
  constructor
  · intro map
    obtain ⟨others, other, distinct, _⟩ := map.routes
    have same := held.unique other
    subst others
    rw [known] at distinct
    refine ⟨distinct, ?_⟩
    intro single
    obtain ⟨address, shape⟩ := List.length_eq_one_iff.mp single
    subst blocks
    have added : (t'.route address).addr ∈ Routing.learned calls := by
      rw [← known]
      exact List.mem_singleton.mpr rfl
    obtain ⟨iface, answer, missing, _⟩ := map.find (t'.route address).addr
    have hidden := (held.lspRouteFind_returns _).unique answer
    have none : iface = none := by
      rw [← hidden]
      simp [found, visible]
    exact missing.mp none (mem_learned.mp added)
  · intro differ
    obtain ⟨distinct, shown⟩ := differ
    constructor
    · refine ⟨blocks, held, ?_, ?_⟩
      · rw [known]
        exact distinct
      · intro addr
        rw [known]
        exact mem_learned
    · intro addr
      refine ⟨_, held.lspRouteFind_returns addr, ?_, ?_⟩
      · rw [Option.map_eq_none_iff, found_eq_none, known,
          visible_of_length_ne_one (by rwa [length]), mem_learned]
      · intro iface answer
        obtain ⟨address, seen, carried⟩ := Option.map_eq_some_iff.mp answer
        obtain ⟨member, route⟩ := found_some seen
        obtain ⟨call, among, addr, source⟩ := supplied address member
        exact ⟨call, among, addr.trans route, source.trans carried⟩

/-- Fewer than two calls were made, or the first two of them are for the same
address. -/
def FirstTwoAlike : List (RouteCall Iface) → Prop
  | [] => True
  | [_] => True
  | first :: second :: _ => first.addr = second.addr

theorem addsKeepOthers_iff {calls : List (RouteCall Iface)}
    (empty : t.Holds []) (sequence : RouteAdds t calls t') :
    AddsKeepOthers t calls ↔ FirstTwoAlike calls := by
  constructor
  · intro keeps
    rcases calls with _ | ⟨first, _ | ⟨second, rest⟩⟩
    · trivial
    · trivial
    · by_contra different
      have shape : first :: second :: rest =
          [first] ++ second :: rest := rfl
      obtain ⟨t1, t2, one, called⟩ := sequence.split shape
      obtain ⟨blocks, held, alone, _⟩ := one.learned empty
      obtain ⟨hidden, uncovered⟩ := held.find_uncovered alone called
      exact uncovered (keeps _ _ _ shape _ _ one called first.addr different
        none hidden)
  · intro alike before call after shape t1 t2 earlier called other different
      iface answer
    obtain ⟨blocks, held, known, _⟩ := earlier.learned empty
    have length : (Routing.learned before).length = blocks.length := by
      rw [← known, addresses, List.length_map]
    rcases before with _ | ⟨first, _ | ⟨second, rest⟩⟩
    · have none : blocks.length ≠ 1 := by
        rw [← length]
        exact Nat.zero_ne_one
      exact held.find_frame none called different answer
    · subst calls
      have again : first.addr = call.addr := alike
      rw [← again] at different
      apply held.find_frame_again _ called _ answer
      · rw [known, ← again]
        rfl
      · rw [← again]
        exact different
    · have pair : 2 ≤ ([second.addr, first.addr] : List UInt16).length := by
        simp
      have long := (foldl_learn_of_several pair (rest.map RouteCall.addr)).1
      have several : 2 ≤ (Routing.learned (first :: second :: rest)).length :=
        by simpa [Routing.learned, learn, visible] using long
      exact held.find_frame (by omega) called different answer

/-- Only the table for which no call was made is a map.  There is one route
for each address and the look-up finds it exactly when there were no calls or
the first two are for different addresses, and this is when the second call
changes the answer for the first address. -/
theorem isRouteMap_iff {calls : List (RouteCall Iface)}
    (empty : t.Holds []) (sequence : RouteAdds t calls t') :
    (IsRouteMap t t' calls ↔ calls = []) ∧
      (MapsAddresses t' calls ↔ FirstTwoDiffer calls) ∧
      (AddsKeepOthers t calls ↔ FirstTwoAlike calls) := by
  have maps := mapsAddresses_iff empty sequence
  have keeps := addsKeepOthers_iff empty sequence
  refine ⟨?_, maps, keeps⟩
  constructor
  · intro map
    have differ := maps.mp map.map
    have alike := keeps.mp map.frame
    match calls with
    | [] => rfl
    | [_] => exact differ.elim
    | first :: second :: _ => exact absurd alike differ
  · intro none
    subst calls
    exact ⟨maps.mpr trivial, keeps.mpr trivial⟩

section Examples

/-- The table at the start of the program, in a heap that is not cleared. -/
def emptyRtable : Routing Nat :=
  { links := ⟨id, id⟩
    routes := fun _ => ⟨0, 0, 900, 0⟩
    allocated := [] }

theorem emptyRtable_holds : emptyRtable.Holds [] :=
  ⟨⟨by decide, by decide⟩, by simp⟩

/-- Interface `1` announces node `10`. -/
def announce10 : RouteCall Nat :=
  { iface := 1, addr := 10, linkspeed := 500, block := some 0, now := 0 }

/-- Interface `2` announces node `11`. -/
def announce11 : RouteCall Nat :=
  { iface := 2, addr := 11, linkspeed := 500, block := some 1, now := 0 }

theorem isRouteMap_of_two_addresses :
    ∃ t, RouteAdds emptyRtable [announce10, announce11] t ∧
      MapsAddresses t [announce10, announce11] ∧
      ¬AddsKeepOthers emptyRtable [announce10, announce11] ∧
      IsRouteMap emptyRtable emptyRtable [] := by
  have held : (emptyRtable.insert 0 announce10).Holds [0] :=
    emptyRtable_holds.insert (by decide) announce10
  have first : RouteAdds emptyRtable [announce10]
      (emptyRtable.insert 0 announce10) :=
    .added .start (emptyRtable_holds.lspRouteAdd_returns rfl)
  have second : RouteAdds emptyRtable [announce10, announce11]
      ((emptyRtable.insert 0 announce10).insert 1 announce11) :=
    .added first (held.lspRouteAdd_returns rfl)
  have differ : announce10.addr ≠ announce11.addr := by decide
  obtain ⟨_, maps, keeps⟩ := isRouteMap_iff emptyRtable_holds second
  have none := (isRouteMap_iff emptyRtable_holds .start).1
  refine ⟨_, second, maps.mpr differ, ?_, none.mpr rfl⟩
  intro kept
  exact differ (keeps.mp kept)

/-- A route alone in the table is not found. -/
theorem single_route_not_found :
    emptyRtable.Holds [] ∧
      ∃ t, RouteAdds emptyRtable [announce10] t ∧
        Returns (t.lspRouteFind 10) none ∧
        ¬IsRouteMap emptyRtable t [announce10] := by
  have held : (emptyRtable.insert 0 announce10).Holds [0] :=
    emptyRtable_holds.insert (by decide) announce10
  have first : RouteAdds emptyRtable [announce10]
      (emptyRtable.insert 0 announce10) :=
    .added .start (emptyRtable_holds.lspRouteAdd_returns rfl)
  have hidden := held.lspRouteFind_returns 10
  refine ⟨emptyRtable_holds, _, first, hidden, ?_⟩
  intro map
  obtain ⟨iface, answer, missing, _⟩ := map.map.find 10
  have none := answer.unique hidden
  exact missing.mp none ⟨announce10, by simp, rfl⟩

end Examples

end Routing

end Liblsp
