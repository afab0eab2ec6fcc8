import Liblsp.Base.Fuel
import Liblsp.Base.Links

/-!
# Intrusive circular lists

The list operations and iteration macros of `lsp_list.h` over a heap of link
cells.  A cursor of type `ptr` is the structure that contains a node, so it is
named by its node here and `container_of` is the identity; `none` is the
`NULL` that ends a loop.

The macros take a list whose head has equal `next` and `prev` for an empty
one, which a list of one member also satisfies.  `visible` is what a loop
therefore gets to see.
-/

namespace Liblsp

open Base

section Operations

variable {α : Type} [DecidableEq α]

def lspListHeadInit (links : Links α) (head : α) : Links α :=
  (links.setNext head head).setPrev head head

/-- `_lsp_list_add`: link `n` between two known neighbours. -/
def _lspListAdd (links : Links α) (n prev next : α) : Links α :=
  (((links.setPrev next n).setNext n next).setPrev n prev).setNext prev n

def lspListAdd (links : Links α) (n head : α) : Links α :=
  _lspListAdd links n head (links.next head)

def lspListAddTail (links : Links α) (n head : α) : Links α :=
  _lspListAdd links n (links.prev head) head

def lspListInsertAfter (links : Links α) (n node : α) : Links α :=
  _lspListAdd links n node (links.next node)

def lspListInsertBefore (links : Links α) (n node : α) : Links α :=
  _lspListAdd links n (links.prev node) node

def lspListDel (links : Links α) (n : α) : Links α :=
  let links := links.setPrev (links.next n) (links.prev n)
  links.setNext (links.prev n) (links.next n)

def lspListIsEmpty (links : Links α) (head : α) : Bool :=
  links.next head = links.prev head

end Operations

section Iteration

variable {α σ : Type} [DecidableEq α]

/-- The cursor a `lsp_list_for` loop starts with. -/
def lspListForInit (links : Links α) (head : α) : Option α :=
  if links.next head ≠ links.prev head then some (links.next head) else none

/-- The cursor after `ptr`. -/
def lspListForNext (head : α) (links : Links α) (ptr : α) : Option α :=
  if links.next ptr ≠ head then some (links.next ptr) else none

def lspListForBackInit (links : Links α) (head : α) : Option α :=
  if links.next head ≠ links.prev head then some (links.prev head) else none

def lspListForBackNext (head : α) (links : Links α) (ptr : α) : Option α :=
  if links.prev ptr ≠ head then some (links.prev ptr) else none

/-- A `for` statement over cursors.  The body may change the state, the links
included, and asks for a `break` with `true`.  The result holds the cursor at
the end of the loop, `NULL` when the loop ran out. -/
def cursorLoop (links : σ → Links α) (next : Links α → α → Option α)
    (body : σ → α → σ × Bool) : Nat → σ → Option α → Option (σ × Option α)
  | _, state, none => some (state, none)
  | 0, _, some _ => none
  | fuel + 1, state, some ptr =>
      match body state ptr with
      | (state, true) => some (state, some ptr)
      | (state, false) =>
          cursorLoop links next body fuel state (next (links state) ptr)

def lspListFor (links : σ → Links α) (head : α)
    (body : σ → α → σ × Bool) (fuel : Nat) (state : σ) :
    Option (σ × Option α) :=
  cursorLoop links (lspListForNext head) body fuel state
    (lspListForInit (links state) head)

def lspListForBack (links : σ → Links α) (head : α)
    (body : σ → α → σ × Bool) (fuel : Nat) (state : σ) :
    Option (σ × Option α) :=
  cursorLoop links (lspListForBackNext head) body fuel state
    (lspListForBackInit (links state) head)

end Iteration

/-! ## What a loop computes -/

section Specification

variable {α σ : Type}

/-- Run a loop body over the elements of a list up to the first `break`. -/
def foldUntil (body : σ → α → σ × Bool) : σ → List α → σ × Option α
  | state, [] => (state, none)
  | state, node :: nodes =>
      match body state node with
      | (state, true) => (state, some node)
      | (state, false) => foldUntil body state nodes

/-- The members of a list that a loop over it reaches. -/
def visible (members : List α) : List α :=
  if members.length = 1 then [] else members

theorem visible_of_length_ne_one {members : List α}
    (several : members.length ≠ 1) : visible members = members := by
  simp [visible, several]

theorem visible_eq_nil_iff {members : List α} :
    visible members = [] ↔ members.length ≤ 1 := by
  unfold visible
  split
  · simp_all
  · rw [← List.length_eq_zero_iff]
    omega

theorem visible_map {β : Type} (function : α → β) (nodes : List α) :
    visible (nodes.map function) = (visible nodes).map function := by
  unfold visible
  by_cases single : nodes.length = 1 <;> simp [single]

theorem visible_subset {members : List α} {node : α}
    (member : node ∈ visible members) : node ∈ members := by
  unfold visible at member
  split at member
  · simp at member
  · exact member

theorem foldUntil_find (test : α → Bool) (state : σ) (nodes : List α) :
    foldUntil (fun state node => (state, test node)) state nodes =
      (state, nodes.find? test) := by
  induction nodes with
  | nil => rfl
  | cons node nodes induction =>
      cases accepted : test node with
      | true => simp [foldUntil, accepted]
      | false => simp [foldUntil, accepted, induction]

theorem foldUntil_change (test : α → Bool) (change : σ → α → σ) (state : σ)
    (nodes : List α) :
    foldUntil (fun state node =>
        if test node then (change state node, true) else (state, false))
      state nodes =
      match nodes.find? test with
      | none => (state, none)
      | some node => (change state node, some node) := by
  induction nodes with
  | nil => rfl
  | cons node nodes induction =>
      cases accepted : test node with
      | true => simp [foldUntil, accepted]
      | false => simpa [foldUntil, accepted] using induction

end Specification

section Correctness

variable {α σ : Type}

/-- A cursor that follows a list of nodes runs the body over that list, as
long as the body leaves the links alone until it breaks. -/
theorem cursorLoop_follows {links : σ → Links α}
    {next : Links α → α → Option α} {body : σ → α → σ × Bool}
    {heap : Links α} {nodes : List α}
    (follows : ∀ before node after, nodes = before ++ node :: after →
      next heap node = after.head?)
    (keeps : ∀ state node, (body state node).2 = false →
      links (body state node).1 = links state)
    {before after : List α} (split : nodes = before ++ after)
    {state : σ} (current : links state = heap)
    {fuel : Nat} (enough : after.length ≤ fuel) :
    cursorLoop links next body fuel state after.head? =
      some (foldUntil body state after) := by
  induction after generalizing before state fuel with
  | nil => cases fuel <;> rfl
  | cons node after induction =>
      obtain ⟨fuel, rfl⟩ := Nat.exists_eq_add_of_lt enough
      have step := keeps state node
      simp only [List.head?_cons, cursorLoop, foldUntil]
      cases result : body state node with
      | mk state' stop =>
          cases stop with
          | true => rfl
          | false =>
              have unchanged : links state' = heap := by
                simpa [result, current] using step
              change cursorLoop links next body (after.length + fuel) state'
                (next (links state') node) = _
              rw [unchanged, follows before node after split]
              have moved : nodes = (before ++ [node]) ++ after := by
                simpa using split
              exact induction moved unchanged (by simp)

theorem cursorLoop_stable {links : σ → Links α}
    {next : Links α → α → Option α} {body : σ → α → σ × Bool}
    {fuel : Nat} {state : σ} {cursor : Option α} {result : σ × Option α}
    (ended : cursorLoop links next body fuel state cursor = some result) :
    cursorLoop links next body (fuel + 1) state cursor = some result := by
  induction fuel generalizing state cursor with
  | zero =>
      cases cursor with
      | none => simpa [cursorLoop] using ended
      | some node => simp [cursorLoop] at ended
  | succ fuel induction =>
      cases cursor with
      | none => simpa [cursorLoop] using ended
      | some node =>
          simp only [cursorLoop] at ended ⊢
          cases answer : body state node with
          | mk state' stop =>
              cases stop with
              | true => simpa [answer] using ended
              | false =>
                  simp only [answer] at ended
                  exact induction ended

/-- A body that changes the state only to break leaves it as it is, or does so
at a node the cursor can reach. -/
theorem cursorLoop_cases {links : σ → Links α}
    {next : Links α → α → Option α} {body : σ → α → σ × Bool}
    {nodes : α → Prop} {fuel : Nat} {state : σ} {cursor : Option α}
    {result : σ × Option α}
    (moves : ∀ node, nodes node →
      ∀ following, next (links state) node = some following → nodes following)
    (keeps : ∀ node, (body state node).2 = false →
      (body state node).1 = state)
    (start : ∀ node, cursor = some node → nodes node)
    (ended : cursorLoop links next body fuel state cursor = some result) :
    result.1 = state ∨
      ∃ node, nodes node ∧ body state node = (result.1, true) := by
  induction fuel generalizing cursor with
  | zero =>
      cases cursor with
      | none =>
          cases ended
          exact .inl rfl
      | some node => simp [cursorLoop] at ended
  | succ fuel induction =>
      cases cursor with
      | none =>
          cases ended
          exact .inl rfl
      | some node =>
          have inside := start node rfl
          have unchanged := keeps node
          simp only [cursorLoop] at ended
          cases answer : body state node with
          | mk state' stop =>
              cases stop with
              | true =>
                  simp only [answer, Option.some.injEq] at ended
                  rw [← ended]
                  exact .inr ⟨node, inside, answer⟩
              | false =>
                  simp only [answer] at ended unchanged
                  rw [unchanged trivial] at ended
                  exact induction (moves node inside) ended

theorem cursorLoop_invariant {links : σ → Links α}
    {next : Links α → α → Option α} {body : σ → α → σ × Bool}
    {property : σ → Prop}
    (preserved : ∀ state node, property state → property (body state node).1)
    {fuel : Nat} {state : σ} {cursor : Option α} {result : σ × Option α}
    (start : property state)
    (ended : cursorLoop links next body fuel state cursor = some result) :
    property result.1 := by
  induction fuel generalizing state cursor with
  | zero =>
      cases cursor with
      | none =>
          cases ended
          exact start
      | some node => simp [cursorLoop] at ended
  | succ fuel induction =>
      cases cursor with
      | none =>
          cases ended
          exact start
      | some node =>
          have kept := preserved state node start
          simp only [cursorLoop] at ended
          cases answer : body state node with
          | mk state' stop =>
              rw [answer] at kept
              cases stop with
              | true =>
                  simp only [answer, Option.some.injEq] at ended
                  rw [← ended]
                  exact kept
              | false =>
                  simp only [answer] at ended
                  exact induction kept ended

variable [DecidableEq α]
variable {heap : Links α} {head : α} {members : List α}

private theorem lspListForNext_of_ring
    (ring : heap.IsRing head members) {before after : List α} {node : α}
    (split : members = before ++ node :: after) :
    lspListForNext head heap node = after.head? := by
  subst members
  rw [lspListForNext, ring.next_member]
  cases after with
  | nil => simp
  | cons following after =>
      have different : following ≠ head := by
        intro same
        apply ring.head_not_mem
        simp [same]
      simp [different]

private theorem lspListForBackNext_of_ring
    (ring : heap.IsRing head members) {before after : List α} {node : α}
    (split : members = before ++ node :: after) :
    lspListForBackNext head heap node = before.getLast? := by
  subst members
  rw [lspListForBackNext, ring.prev_member]
  rcases List.eq_nil_or_concat before with empty | ⟨front, previous, shape⟩
  · simp [empty]
  · have different : previous ≠ head := by
      intro same
      apply ring.head_not_mem
      simp [shape, same]
    simp [shape, different]

/-- The emptiness test also accepts a list of one member. -/
theorem lspListIsEmpty_iff (ring : heap.IsRing head members) :
    lspListIsEmpty heap head = true ↔ visible members = [] := by
  rw [lspListIsEmpty, decide_eq_true_iff, ring.next_head, ring.prev_head,
    Links.headD_eq_getLastD ring.nodup, visible_eq_nil_iff]

private theorem lspListForInit_of_ring (ring : heap.IsRing head members) :
    lspListForInit heap head = (visible members).head? := by
  have test := lspListIsEmpty_iff ring
  rw [lspListIsEmpty, decide_eq_true_iff] at test
  by_cases same : heap.next head = heap.prev head
  · simp [lspListForInit, same, test.mp same]
  · have long := mt (test.mpr ∘ visible_eq_nil_iff.mpr) same
    rw [lspListForInit, if_pos same, ring.next_head,
      visible_of_length_ne_one (by omega)]
    cases members with
    | nil => simp at long
    | cons first rest => rfl

private theorem lspListForBackInit_of_ring
    (ring : heap.IsRing head members) :
    lspListForBackInit heap head = (visible members).getLast? := by
  have test := lspListIsEmpty_iff ring
  rw [lspListIsEmpty, decide_eq_true_iff] at test
  by_cases same : heap.next head = heap.prev head
  · simp [lspListForBackInit, same, test.mp same]
  · have long := mt (test.mpr ∘ visible_eq_nil_iff.mpr) same
    rw [lspListForBackInit, if_pos same, ring.prev_head,
      visible_of_length_ne_one (by omega)]
    rcases List.eq_nil_or_concat members with empty | ⟨front, last, shape⟩
    · simp [empty] at long
    · simp [shape]

section Loops

variable {links : σ → Links α} {body : σ → α → σ × Bool} {state : σ}

theorem lspListFor_cases {nodes : α → Prop} {fuel : Nat}
    {result : σ × Option α}
    (enclosed : (links state).Encloses nodes) (inside : nodes head)
    (keeps : ∀ node, (body state node).2 = false →
      (body state node).1 = state)
    (ended : lspListFor links head body fuel state = some result) :
    result.1 = state ∨
      ∃ node, nodes node ∧ body state node = (result.1, true) := by
  have moves : ∀ node, nodes node → ∀ following,
      lspListForNext head (links state) node = some following →
      nodes following := by
    intro node member following on
    unfold lspListForNext at on
    split at on
    · cases on
      exact enclosed.next node member
    · cases on
  have start : ∀ node, lspListForInit (links state) head = some node →
      nodes node := by
    intro node first
    unfold lspListForInit at first
    split at first
    · cases first
      exact enclosed.next head inside
    · cases first
  exact cursorLoop_cases moves keeps start ended

/-- `lsp_list_for` ends and runs its body over the visible members, when the
body changes the links only to `break` right after. -/
theorem lspListFor_returns
    (ring : (links state).IsRing head members)
    (keeps : ∀ state node, (body state node).2 = false →
      links (body state node).1 = links state) :
    Returns (fun fuel => lspListFor links head body fuel state)
      (foldUntil body state (visible members)) := by
  refine ⟨members.length, ?_⟩
  intro fuel enough
  unfold lspListFor
  rw [lspListForInit_of_ring ring]
  by_cases single : members.length = 1
  · cases fuel <;> simp [visible, single, cursorLoop, foldUntil]
  · rw [visible_of_length_ne_one single]
    have follows : ∀ before node after, members = before ++ node :: after →
        lspListForNext head (links state) node = after.head? := by
      intro before node after split
      exact lspListForNext_of_ring ring split
    have start : members = [] ++ members := rfl
    exact cursorLoop_follows follows keeps start rfl enough

theorem lspListFor_of_invisible (ring : (links state).IsRing head members)
    (invisible : visible members = []) (fuel : Nat) :
    lspListFor links head body fuel state = some (state, none) := by
  unfold lspListFor
  rw [lspListForInit_of_ring ring, invisible]
  cases fuel <;> rfl

private theorem cursorLoop_reaches {before after : List α} {node : α}
    (ring : (links state).IsRing head members)
    (quiet : ∀ other ∈ before, body state other = (state, false))
    {property : σ → Prop} (acts : property (body state node).1)
    (preserved : ∀ state node, property state → property (body state node).1)
    {passed : List α} (split : members = passed ++ (before ++ node :: after))
    {fuel : Nat} {result : σ × Option α}
    (ended : cursorLoop links (lspListForNext head) body fuel state
      (before ++ node :: after).head? = some result) :
    property result.1 := by
  induction before generalizing passed fuel with
  | nil =>
      cases fuel with
      | zero => simp [cursorLoop] at ended
      | succ fuel =>
          simp only [List.nil_append, List.head?_cons, cursorLoop] at ended
          cases answer : body state node with
          | mk state' stop =>
              rw [answer] at acts
              cases stop with
              | true =>
                  simp only [answer, Option.some.injEq] at ended
                  rw [← ended]
                  exact acts
              | false =>
                  simp only [answer] at ended
                  exact cursorLoop_invariant preserved acts ended
  | cons other before induction =>
      cases fuel with
      | zero => simp [cursorLoop] at ended
      | succ fuel =>
          have still := quiet other List.mem_cons_self
          have following := lspListForNext_of_ring ring split
          have later : members =
              (passed ++ [other]) ++ (before ++ node :: after) := by
            simpa using split
          simp only [List.cons_append, List.head?_cons, cursorLoop,
            still] at ended
          change cursorLoop links (lspListForNext head) body fuel state
            (lspListForNext head (links state) other) = _ at ended
          rw [following] at ended
          apply induction _ later ended
          intro earlier member
          exact quiet earlier (List.mem_cons_of_mem other member)

/-- A loop whose body leaves everything alone up to some node runs it on that
node, whatever it does to the links there. -/
theorem lspListFor_reaches (property : σ → Prop) {before after : List α}
    {node : α} (ring : (links state).IsRing head members)
    (several : members.length ≠ 1)
    (split : members = before ++ node :: after)
    (quiet : ∀ other ∈ before, body state other = (state, false))
    (acts : property (body state node).1)
    (preserved : ∀ state node, property state → property (body state node).1)
    {fuel : Nat} {result : σ × Option α}
    (ended : lspListFor links head body fuel state = some result) :
    property result.1 := by
  have whole : members = [] ++ (before ++ node :: after) := split
  unfold lspListFor at ended
  rw [lspListForInit_of_ring ring, visible_of_length_ne_one several,
    split] at ended
  exact cursorLoop_reaches ring quiet acts preserved whole ended

theorem lspListForBack_returns
    (ring : (links state).IsRing head members)
    (keeps : ∀ state node, (body state node).2 = false →
      links (body state node).1 = links state) :
    Returns (fun fuel => lspListForBack links head body fuel state)
      (foldUntil body state (visible members).reverse) := by
  refine ⟨members.length, ?_⟩
  intro fuel enough
  unfold lspListForBack
  rw [lspListForBackInit_of_ring ring]
  by_cases single : members.length = 1
  · cases fuel <;> simp [visible, single, cursorLoop, foldUntil]
  · rw [visible_of_length_ne_one single, ← List.head?_reverse]
    have follows : ∀ before node after,
        members.reverse = before ++ node :: after →
        lspListForBackNext head (links state) node = after.head? := by
      intro before node after split
      have mirrored :
          members = after.reverse ++ node :: before.reverse := by
        rw [← List.reverse_reverse members, split]
        simp
      simpa using lspListForBackNext_of_ring ring mirrored
    have start : members.reverse = [] ++ members.reverse := rfl
    exact cursorLoop_follows follows keeps start rfl
      (by simpa using enough)

theorem lspListFor_search {β : Type} {node : β → α} {elements : List β}
    (ring : heap.IsRing head (elements.map node)) (test : α → Bool) :
    Returns (fun fuel =>
        (lspListFor (fun _ : Unit => heap) head (fun _ ptr => ((), test ptr))
          fuel ()).map Prod.snd)
      (((visible elements).find? (test ∘ node)).map node) := by
  have unchanged : ∀ (state : Unit) ptr,
      ((fun _ ptr => ((), test ptr) : Unit → α → Unit × Bool)
        state ptr).2 = false → heap = heap := fun _ _ _ => rfl
  have loop := @lspListFor_returns α Unit _ head (elements.map node)
    (fun _ => heap) (fun _ ptr => ((), test ptr)) () ring unchanged
  rw [foldUntil_find, visible_map, List.find?_map] at loop
  exact loop.map Prod.snd

end Loops

theorem lspListHeadInit_ring (links : Links α) (head : α) :
    (lspListHeadInit links head).IsRing head [] := by
  apply Links.IsRing.empty
  simp [lspListHeadInit, Links.Joined]

theorem lspListAdd_ring {node : α} (ring : heap.IsRing head members)
    (fresh : node ∉ head :: members) :
    (lspListAdd heap node head).IsRing head (node :: members) := by
  have start : heap.IsRing head ([] ++ members) := ring
  have inserted := start.insertBetween fresh
  have first : heap.next head = members.headD head := ring.next_head
  simpa [lspListAdd, _lspListAdd, Links.insertBetween, first] using inserted

end Correctness

/-! ## Visiting every member -/

section Visits

variable {α : Type}

/-- The loop body that notes the nodes it is run on. -/
def note (seen : List α) (node : α) : List α × Bool :=
  (seen ++ [node], false)

private theorem foldUntil_note (seen nodes : List α) :
    foldUntil note seen nodes = (seen ++ nodes, none) := by
  induction nodes generalizing seen with
  | nil => simp [foldUntil]
  | cons node nodes induction => simp [foldUntil, note, induction]

variable [DecidableEq α]

/-- The nodes that a `lsp_list_for` over `head` visits, in order. -/
def forVisits (links : Links α) (head : α) (fuel : Nat) : Option (List α) :=
  (lspListFor (fun _ => links) head note fuel []).map Prod.fst

/-- The nodes that a `lsp_list_for_back` over `head` visits, in order. -/
def forBackVisits (links : Links α) (head : α) (fuel : Nat) :
    Option (List α) :=
  (lspListForBack (fun _ => links) head note fuel []).map Prod.fst

variable {links : Links α} {head : α} {members : List α}

theorem forVisits_returns (ring : links.IsRing head members) :
    Returns (forVisits links head) (visible members) := by
  have unchanged : ∀ seen node, (@note α seen node).2 = false →
      links = links := fun _ _ _ => rfl
  have loop := @lspListFor_returns α (List α) _ head members
    (fun _ => links) note [] ring unchanged
  rw [foldUntil_note] at loop
  exact loop.map Prod.fst

theorem forBackVisits_returns (ring : links.IsRing head members) :
    Returns (forBackVisits links head) (visible members).reverse := by
  have unchanged : ∀ seen node, (@note α seen node).2 = false →
      links = links := fun _ _ _ => rfl
  have loop := @lspListForBack_returns α (List α) _ head members
    (fun _ => links) note [] ring unchanged
  rw [foldUntil_note] at loop
  exact loop.map Prod.fst

/-- Both loops end after visiting exactly the members, in their order and in
the reverse one, and the emptiness test is right. -/
structure IteratesMembers (links : Links α) (head : α)
    (members : List α) : Prop where
  forward : Returns (forVisits links head) members
  backward : Returns (forBackVisits links head) members.reverse
  empty : lspListIsEmpty links head = true ↔ members = []

/-- The macros agree with the list except at length one. -/
theorem iteratesMembers_iff (ring : links.IsRing head members) :
    IteratesMembers links head members ↔ members.length ≠ 1 := by
  constructor
  · intro iterates single
    have seen := (forVisits_returns ring).unique iterates.forward
    rw [visible, if_pos single] at seen
    simp [← seen] at single
  · intro several
    have shown := visible_of_length_ne_one several
    constructor
    · simpa [shown] using forVisits_returns ring
    · simpa [shown] using forBackVisits_returns ring
    · simpa [shown] using lspListIsEmpty_iff ring

/-- The list with head `0` after adding nodes one by one at the front. -/
def addedAtFront (nodes : List Nat) : Links Nat :=
  nodes.foldl (fun links n => lspListAdd links n 0)
    (lspListHeadInit ⟨id, id⟩ 0)

theorem iteratesMembers_two_nodes :
    IteratesMembers (addedAtFront [2, 1]) 0 [1, 2] :=
  (iteratesMembers_iff ⟨by decide, by decide⟩).mpr (by decide)

/-- A loop over a list of one node does not run at all. -/
theorem iteratesMembers_one_node_fails :
    (addedAtFront [1]).IsRing 0 [1] ∧
      ¬IteratesMembers (addedAtFront [1]) 0 [1] := by
  have ring : (addedAtFront [1]).IsRing 0 [1] :=
    ⟨by decide, by decide⟩
  refine ⟨ring, ?_⟩
  intro iterates
  have seen := (forVisits_returns ring).unique iterates.forward
  simp [visible] at seen

end Visits

end Liblsp
