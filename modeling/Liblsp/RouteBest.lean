import Liblsp.RouteMap

/-!
# The best route

A new route never gets the linkspeed of its call, and a stored linkspeed is
replaced by a smaller one.  What `lsp_route_add` keeps is the minimum of what
the block held before and of the later linkspeeds.
-/

namespace Liblsp

open Base

namespace Routing

variable {Iface : Type}

/-- Linkspeeds in the order of preference: `-1` is unknown, every other value
is in bytes/s as the field of a route has it. -/
def rank (linkspeed : Int32) : Nat :=
  if linkspeed = -1 then 0 else linkspeed.toUInt32.toNat + 1

/-- The earliest of the calls with the best linkspeed. -/
def bestAdd (first : RouteCall Iface) (later : List (RouteCall Iface)) :
    RouteCall Iface :=
  later.foldl (fun best call =>
    if rank best.linkspeed < rank call.linkspeed then call else best) first

/-- Interface and linkspeed of a route after a call that found it. -/
def settle (current : Iface × UInt32) (call : RouteCall Iface) :
    Iface × UInt32 :=
  if call.linkspeed.toUInt32 < current.2 then
    (call.iface, call.linkspeed.toUInt32)
  else current

/-- The linkspeed a new block holds before anything is stored in it. -/
def freshLinkspeed (t : Routing Iface) (call : RouteCall Iface) : UInt32 :=
  match call.block with
  | some address => (t.route address).linkspeed
  | none => 0

section Comparison

variable {first : RouteCall Iface} {later : List (RouteCall Iface)}

theorem bestAdd_concat (first call : RouteCall Iface)
    (later : List (RouteCall Iface)) :
    bestAdd first (later ++ [call]) =
      if rank (bestAdd first later).linkspeed < rank call.linkspeed then
        call
      else bestAdd first later := by
  rw [bestAdd, List.foldl_append]
  rfl

/-- No call before the chosen one is as good, and none after it is better. -/
theorem bestAdd_earliest (first : RouteCall Iface)
    (later : List (RouteCall Iface)) :
    ∃ before after, first :: later = before ++ bestAdd first later :: after ∧
      (∀ call, call ∈ before →
        rank call.linkspeed < rank (bestAdd first later).linkspeed) ∧
      ∀ call, call ∈ after →
        rank call.linkspeed ≤ rank (bestAdd first later).linkspeed := by
  induction later using List.reverseRecOn with
  | nil => exact ⟨[], [], rfl, by simp, by simp⟩
  | append_singleton later call induction =>
      obtain ⟨before, after, shape, worse, notBetter⟩ := induction
      rw [bestAdd_concat]
      by_cases better :
          rank (bestAdd first later).linkspeed < rank call.linkspeed
      · rw [if_pos better]
        refine ⟨first :: later, [], by simp, ?_, by simp⟩
        intro other member
        rw [shape] at member
        rcases List.mem_append.mp member with inBefore | rest
        · exact (worse other inBefore).trans better
        · rcases List.mem_cons.mp rest with same | inAfter
          · rw [same]
            exact better
          · exact (notBetter other inAfter).trans_lt better
      · rw [if_neg better]
        refine ⟨before, after ++ [call], ?_, worse, ?_⟩
        · rw [← List.cons_append, shape]
          simp
        · intro other member
          rcases List.mem_append.mp member with inAfter | last
          · exact notBetter other inAfter
          · rw [List.mem_singleton.mp last]
            exact Nat.le_of_not_lt better

theorem rank_le_bestAdd {call : RouteCall Iface}
    (member : call ∈ first :: later) :
    rank call.linkspeed ≤ rank (bestAdd first later).linkspeed := by
  obtain ⟨before, after, shape, worse, notBetter⟩ :=
    bestAdd_earliest first later
  rw [shape] at member
  rcases List.mem_append.mp member with inBefore | rest
  · exact (worse call inBefore).le
  · rcases List.mem_cons.mp rest with same | inAfter
    · rw [← same]
    · exact notBetter call inAfter

theorem toUInt32_injective : Function.Injective Int32.toUInt32 := by
  intro left right same
  simpa using congrArg UInt32.toInt32 same

theorem linkspeed_of_rank_le {other best : Int32}
    (notBetter : rank other ≤ rank best)
    (notSmaller : best.toUInt32 ≤ other.toUInt32) :
    other = -1 ∨ other = best := by
  by_cases unknown : other = -1
  · exact .inl unknown
  · right
    have bound := UInt32.le_iff_toNat_le.mp notSmaller
    by_cases bestUnknown : best = -1
    · simp [rank, unknown, bestUnknown] at notBetter
    · simp only [rank, unknown, bestUnknown, if_false] at notBetter
      apply toUInt32_injective
      apply UInt32.toNat_inj.mp
      omega

/-- What remains after calls that all find the route. -/
theorem foldl_settle (current : Iface × UInt32)
    (later : List (RouteCall Iface)) :
    (later.foldl settle current).2 ≤ current.2 ∧
      (∀ call, call ∈ later →
        (later.foldl settle current).2 ≤ call.linkspeed.toUInt32) ∧
      (later.foldl settle current = current ∨
        (later.foldl settle current).2 < current.2 ∧
          ∃ call, later.find? (fun call => call.linkspeed.toUInt32 =
              (later.foldl settle current).2) = some call ∧
            (later.foldl settle current).1 = call.iface) := by
  induction later generalizing current with
  | nil => exact ⟨UInt32.le_refl _, by simp, .inl rfl⟩
  | cons call later induction =>
      obtain ⟨low, least, origin⟩ := induction (settle current call)
      rw [List.foldl_cons]
      by_cases smaller : call.linkspeed.toUInt32 < current.2
      · have settled : settle current call =
            (call.iface, call.linkspeed.toUInt32) := if_pos smaller
        rw [settled] at low least origin ⊢
        have below := UInt32.lt_of_le_of_lt low smaller
        refine ⟨UInt32.le_of_lt below, ?_, .inr ⟨below, ?_⟩⟩
        · intro other member
          rcases List.mem_cons.mp member with same | later
          · rw [same]
            exact low
          · exact least other later
        · rcases origin with kept | ⟨less, found, first, iface⟩
          · rw [kept]
            exact ⟨call, by simp, rfl⟩
          · refine ⟨found, ?_, iface⟩
            rw [List.find?_cons_of_neg, first]
            simpa using (UInt32.ne_of_lt less).symm
      · have settled : settle current call = current := if_neg smaller
        rw [settled] at low least origin ⊢
        have above := UInt32.not_lt.mp smaller
        refine ⟨low, ?_, ?_⟩
        · intro other member
          rcases List.mem_cons.mp member with same | later
          · rw [same]
            exact UInt32.le_trans low above
          · exact least other later
        · rcases origin with kept | ⟨less, found, first, iface⟩
          · exact .inl kept
          · refine .inr ⟨less, found, ?_, iface⟩
            rw [List.find?_cons_of_neg, first]
            have apart := UInt32.lt_of_lt_of_le less above
            simpa using (UInt32.ne_of_lt apart).symm

/-- The minimum is the best linkspeed, and it comes with its interface. -/
structure MinimumIsBest (fresh : UInt32) (first : RouteCall Iface)
    (later : List (RouteCall Iface)) : Prop where
  laterEqual : ∀ call, call ∈ later → call.linkspeed = -1 ∨
    call.linkspeed = (bestAdd first later).linkspeed
  freshHigh : (bestAdd first later).linkspeed.toUInt32 ≤ fresh
  source :
    if fresh = (bestAdd first later).linkspeed.toUInt32 then
      first.iface = (bestAdd first later).iface
    else
      ∃ call, later.find? (fun call =>
          call.linkspeed = (bestAdd first later).linkspeed) = some call ∧
        call.iface = (bestAdd first later).iface

private theorem sameSpeed_iff (call best : RouteCall Iface) :
    decide (call.linkspeed.toUInt32 = best.linkspeed.toUInt32) =
      decide (call.linkspeed = best.linkspeed) := by
  rw [decide_eq_decide]
  exact toUInt32_injective.eq_iff

theorem MinimumIsBest.of_settled {fresh : UInt32}
    (result : later.foldl settle (first.iface, fresh) =
      ((bestAdd first later).iface,
        (bestAdd first later).linkspeed.toUInt32)) :
    MinimumIsBest fresh first later := by
  obtain ⟨low, least, origin⟩ :=
    foldl_settle (first.iface, fresh) later
  rw [result] at low least origin
  simp only [sameSpeed_iff] at origin
  refine ⟨?_, low, ?_⟩
  · intro call member
    exact linkspeed_of_rank_le
      (rank_le_bestAdd (List.mem_cons_of_mem _ member))
      (least call member)
  · rcases origin with kept | ⟨less, call, found, iface⟩
    · obtain ⟨sameIface, sameSpeed⟩ := Prod.mk.inj kept
      rw [if_pos sameSpeed.symm]
      exact sameIface.symm
    · rw [if_neg (UInt32.ne_of_lt less).symm]
      exact ⟨call, found, iface.symm⟩

theorem MinimumIsBest.best_le {fresh : UInt32} {call : RouteCall Iface}
    (minimum : MinimumIsBest fresh first later) (member : call ∈ later) :
    (bestAdd first later).linkspeed.toUInt32 ≤ call.linkspeed.toUInt32 := by
  rcases minimum.laterEqual call member with unknown | same
  · rw [unknown]
    exact UInt32.le_iff_toNat_le.mpr
      (Nat.le_of_lt_succ (UInt32.toNat_lt _))
  · rw [same]
    exact UInt32.le_refl _

theorem MinimumIsBest.settles {fresh : UInt32}
    (minimum : MinimumIsBest fresh first later) :
    later.foldl settle (first.iface, fresh) =
      ((bestAdd first later).iface,
        (bestAdd first later).linkspeed.toUInt32) := by
  obtain ⟨_, least, origin⟩ :=
    foldl_settle (first.iface, fresh) later
  have source := minimum.source
  rcases origin with kept | ⟨less, call, found, iface⟩
  · rw [kept] at least
    by_cases equal : fresh = (bestAdd first later).linkspeed.toUInt32
    · rw [if_pos equal] at source
      rw [kept, source, equal]
    · rw [if_neg equal] at source
      obtain ⟨call, found, _⟩ := source
      have stored := least call (List.mem_of_find?_eq_some found)
      have speed : call.linkspeed = (bestAdd first later).linkspeed := by
        simpa using List.find?_some found
      rw [speed] at stored
      exact absurd (UInt32.le_antisymm stored minimum.freshHigh) equal
  · have stored : call.linkspeed.toUInt32 =
        (later.foldl settle (first.iface, fresh)).2 := by
      simpa using List.find?_some found
    have above := minimum.best_le (List.mem_of_find?_eq_some found)
    rw [stored] at above
    have apart := UInt32.lt_of_le_of_lt above less
    rw [if_neg (UInt32.ne_of_lt apart).symm] at source
    obtain ⟨other, seen, sameIface⟩ := source
    have speed : other.linkspeed = (bestAdd first later).linkspeed := by
      simpa using List.find?_some seen
    have below := least other (List.mem_of_find?_eq_some seen)
    rw [speed] at below
    have reached := UInt32.le_antisymm below above
    rw [reached] at found
    simp only [sameSpeed_iff] at found
    have same : call = other := Option.some.inj (found.symm.trans seen)
    rw [← sameIface, ← same, ← iface, ← reached]

/-- A replaced linkspeed is the best one just under that condition. -/
theorem minimumIsBest_iff (fresh : UInt32) (first : RouteCall Iface)
    (later : List (RouteCall Iface)) :
    later.foldl settle (first.iface, fresh) =
        ((bestAdd first later).iface,
          (bestAdd first later).linkspeed.toUInt32) ↔
      MinimumIsBest fresh first later :=
  ⟨MinimumIsBest.of_settled, MinimumIsBest.settles⟩

end Comparison

/-! ## The table after calls for one address -/

variable {t t' : Routing Iface} {blocks blocks' : List Nat}

/-- What calls for an address leave behind in a table without it. -/
inductive Settled (t : Routing Iface) (blocks : List Nat) (addr : UInt16) :
    List (RouteCall Iface) → Routing Iface → List Nat → Prop where
  | nothing : Settled t blocks addr [] t blocks
  | route {first : RouteCall Iface} {later : List (RouteCall Iface)}
      {t' : Routing Iface} {address : Nat} :
      first.block = some address →
      t'.found (address :: blocks) addr = some address →
      ((t'.route address).iface, (t'.route address).linkspeed) =
        later.foldl settle (first.iface, freshLinkspeed t first) →
      Settled t blocks addr (first :: later) t' (address :: blocks)

theorem settle_replace {call : RouteCall Iface} {address : Nat}
    (smaller : t.better (.block address) call.linkspeed = true) :
    (((t.replace (.block address) call).route address).iface,
        ((t.replace (.block address) call).route address).linkspeed) =
      settle ((t.route address).iface, (t.route address).linkspeed)
        call := by
  rw [settle, if_pos, route_replace_same]
  simpa [better, route] using smaller

theorem settle_keep {call : RouteCall Iface} {address : Nat}
    (notSmaller : t.better (.block address) call.linkspeed = false) :
    settle ((t.route address).iface, (t.route address).linkspeed) call =
      ((t.route address).iface, (t.route address).linkspeed) := by
  rw [settle, if_neg]
  simpa [better, route] using notSmaller

theorem Settled.adds {addr : UInt16} {calls : List (RouteCall Iface)}
    {call : RouteCall Iface} {t'' : Routing Iface} {blocks'' : List Nat}
    (several : 2 ≤ blocks.length) (others : addr ∉ t.addresses blocks)
    (settled : Settled t blocks addr calls t' blocks')
    (same : call.addr = addr)
    (adds : Adds t' blocks' call t'' blocks'' lspErrNone) :
    Settled t blocks addr (calls ++ [call]) t'' blocks'' := by
  generalize success : lspErrNone = rc at adds
  cases settled with
  | nothing =>
      have missing : t.found blocks call.addr = none := by
        rw [found_eq_none, same]
        exact fun seen => others (visible_subset seen)
      cases adds with
      | noMemory => exact absurd success (by decide)
      | @inserts address _ memory unused =>
          apply Settled.route memory
          · have long : (address :: blocks).length ≠ 1 := by
              rw [List.length_cons]
              omega
            rw [found, visible_of_length_ne_one long, List.find?_cons_of_pos]
            rw [route_insert_same]
            simpa using same
          · rw [route_insert_same, freshLinkspeed, memory]
            rfl
      | replaces seen => simp [missing] at seen
      | keeps seen => simp [missing] at seen
  | @route first later _ address memory seen state =>
      rw [← same] at seen
      rw [List.cons_append]
      cases adds with
      | noMemory none => simp [seen] at none
      | inserts none => simp [seen] at none
      | replaces hit smaller =>
          have target := Option.some.inj (hit.symm.trans seen)
          subst target
          apply Settled.route memory
          · rw [found_replace, ← same]
            exact seen
          · rw [settle_replace smaller, state, List.foldl_append]
            rfl
      | keeps hit notSmaller =>
          have target := Option.some.inj (hit.symm.trans seen)
          subst target
          apply Settled.route memory
          · rw [← same]
            exact seen
          · rw [List.foldl_append, ← state]
            exact (settle_keep notSmaller).symm

theorem RouteAdds.settled {addr : UInt16} {calls : List (RouteCall Iface)}
    (sequence : RouteAdds t calls t') (held : t.Holds blocks)
    (several : 2 ≤ blocks.length) (others : addr ∉ t.addresses blocks)
    (same : ∀ call, call ∈ calls → call.addr = addr) :
    ∃ blocks', t'.Holds blocks' ∧
      Settled t blocks addr calls t' blocks' := by
  have kept : ∃ blocks', t'.Holds blocks' ∧
      ((∀ call, call ∈ calls → call.addr = addr) →
        Settled t blocks addr calls t' blocks') := by
    apply sequence.invariant held
    · exact fun _ => .nothing
    · intro calls t' blocks' call t'' blocks'' before _ adds same
      have earlier := before fun other member =>
        same other (List.mem_append_left _ member)
      exact earlier.adds several others (same call (by simp)) adds
  obtain ⟨blocks', held', settled⟩ := kept
  exact ⟨blocks', held', settled same⟩

/-- `lsp_route_find` and the stored linkspeed give the earliest call with the
best linkspeed. -/
structure KeepsBest (t : Routing Iface) (addr : UInt16)
    (first : RouteCall Iface) (later : List (RouteCall Iface)) : Prop where
  find : Returns (t.lspRouteFind addr) (some (bestAdd first later).iface)
  stored : ∃ blocks address, t.Holds blocks ∧
    t.found blocks addr = some address ∧
    (t.route address).linkspeed = (bestAdd first later).linkspeed.toUInt32

/-- The best route wins exactly when it is the minimum that the code keeps. -/
theorem keepsBest_iff {addr : UInt16} {first : RouteCall Iface}
    {later : List (RouteCall Iface)}
    (held : t.Holds blocks) (several : 2 ≤ blocks.length)
    (others : addr ∉ t.addresses blocks)
    (sequence : RouteAdds t (first :: later) t')
    (same : ∀ call, call ∈ first :: later → call.addr = addr) :
    KeepsBest t' addr first later ↔
      MinimumIsBest (freshLinkspeed t first) first later := by
  obtain ⟨blocks', held', settled⟩ := sequence.settled held several others same
  cases settled with
  | @route _ _ _ address memory seen state =>
      have answer := held'.lspRouteFind_returns addr
      rw [seen, Option.map_some] at answer
      rw [← minimumIsBest_iff, ← state, Prod.mk.injEq]
      constructor
      · intro keeps
        have iface := answer.unique keeps.find
        obtain ⟨others, place, other, hit, stored⟩ := keeps.stored
        have sameBlocks := held'.unique other
        subst others
        have samePlace := Option.some.inj (seen.symm.trans hit)
        subst place
        exact ⟨Option.some.inj iface, stored⟩
      · intro ⟨iface, stored⟩
        rw [iface] at answer
        exact ⟨answer, _, address, held', seen, stored⟩

section Examples

/-- A table with routes for the nodes `10` and `11`. -/
def twoRoutes : Routing Nat :=
  (emptyRtable.insert 0 announce10).insert 1 announce11

theorem twoRoutes_holds : twoRoutes.Holds [1, 0] :=
  (emptyRtable_holds.insert (by decide) announce10).insert (by decide)
    announce11

/-- Node `12` announced by an interface. -/
def announce12 (iface : Nat) (linkspeed : Int32) : RouteCall Nat :=
  { iface := iface, addr := 12, linkspeed := linkspeed, block := some 2
    now := 0 }

theorem keepsBest_of_same_announcement :
    ∃ t, RouteAdds twoRoutes [announce12 3 500, announce12 3 500] t ∧
      KeepsBest t 12 (announce12 3 500) [announce12 3 500] := by
  have added : RouteAdds twoRoutes [announce12 3 500]
      (twoRoutes.insert 2 (announce12 3 500)) :=
    .added .start (twoRoutes_holds.lspRouteAdd_returns rfl)
  have held : (twoRoutes.insert 2 (announce12 3 500)).Holds [2, 1, 0] :=
    twoRoutes_holds.insert (by decide) _
  have again : RouteAdds twoRoutes [announce12 3 500, announce12 3 500]
      ((twoRoutes.insert 2 (announce12 3 500)).replace (.block 2)
        (announce12 3 500)) :=
    .added added (held.lspRouteAdd_returns rfl)
  have minimum : MinimumIsBest (freshLinkspeed twoRoutes (announce12 3 500))
      (announce12 3 500) [announce12 3 500] := by
    refine ⟨by simp [bestAdd], by decide, ?_⟩
    rw [if_neg (by decide)]
    exact ⟨announce12 3 500, rfl, rfl⟩
  have others : (12 : UInt16) ∉ twoRoutes.addresses [1, 0] := by decide
  refine ⟨_, again, ?_⟩
  exact (keepsBest_iff twoRoutes_holds (by decide) others again
    (by simp [announce12])).mpr minimum

/-- The second interface is twice as fast, but the route keeps the first one
and the linkspeed that the block happened to hold. -/
theorem faster_route_ignored :
    twoRoutes.Holds [1, 0] ∧ twoRoutes.addresses [1, 0] = [11, 10] ∧
      ∃ t, RouteAdds twoRoutes [announce12 3 500, announce12 4 1000] t ∧
        Returns (t.lspRouteFind 12) (some 3) ∧
        ¬KeepsBest t 12 (announce12 3 500) [announce12 4 1000] := by
  have added : RouteAdds twoRoutes [announce12 3 500]
      (twoRoutes.insert 2 (announce12 3 500)) :=
    .added .start (twoRoutes_holds.lspRouteAdd_returns rfl)
  have held : (twoRoutes.insert 2 (announce12 3 500)).Holds [2, 1, 0] :=
    twoRoutes_holds.insert (by decide) _
  have again : RouteAdds twoRoutes [announce12 3 500, announce12 4 1000]
      (twoRoutes.insert 2 (announce12 3 500)) :=
    .added added (held.lspRouteAdd_returns rfl)
  have answer : Returns
      ((twoRoutes.insert 2 (announce12 3 500)).lspRouteFind 12) (some 3) :=
    held.lspRouteFind_returns 12
  refine ⟨twoRoutes_holds, by decide, _, again, answer, ?_⟩
  intro keeps
  have same := answer.unique keeps.find
  revert same
  decide

end Examples

end Routing

end Liblsp
