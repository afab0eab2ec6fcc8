import Mathlib.Data.List.Chain
import Mathlib.Data.List.Nodup
import Mathlib.Logic.Function.Basic
import Mathlib.Tactic.TypeStar

/-!
# Rings of doubly linked nodes

A heap of link cells is a pair of functions from nodes to nodes.  A ring
consists of a head and a list of members: following `next` from the head
meets exactly the members in order and comes back, and every `prev` undoes a
`next`.  The lemmas say what inserting between two neighbours and unlinking a
member do to a ring, and that other rings are left alone.  Cells that form no
ring any more still lead to nowhere but the nodes that were linked to them.
-/

namespace Base

variable {α : Type*}

/-- The `next` and `prev` cell of every node. -/
structure Links (α : Type*) where
  next : α → α
  prev : α → α

namespace Links

section Cells

variable [DecidableEq α]

def setNext (links : Links α) (node target : α) : Links α :=
  { links with next := Function.update links.next node target }

def setPrev (links : Links α) (node target : α) : Links α :=
  { links with prev := Function.update links.prev node target }

@[simp] theorem setNext_next (links : Links α) (node target other : α) :
    (links.setNext node target).next other =
      if other = node then target else links.next other := by
  simp [setNext, Function.update_apply]

@[simp] theorem setNext_prev (links : Links α) (node target : α) :
    (links.setNext node target).prev = links.prev := rfl

@[simp] theorem setPrev_prev (links : Links α) (node target other : α) :
    (links.setPrev node target).prev other =
      if other = node then target else links.prev other := by
  simp [setPrev, Function.update_apply]

@[simp] theorem setPrev_next (links : Links α) (node target : α) :
    (links.setPrev node target).next = links.next := rfl

end Cells

/-- `right` is the node after `left`, seen from both sides. -/
def Joined (links : Links α) (left right : α) : Prop :=
  links.next left = right ∧ links.prev right = left

instance [DecidableEq α] (links : Links α) : DecidableRel links.Joined :=
  fun left right =>
    inferInstanceAs (Decidable (links.next left = right ∧
      links.prev right = left))

/-- A circular list: its members in `next` order, back at the head. -/
structure IsRing (links : Links α) (head : α) (members : List α) : Prop where
  nodup : (head :: members).Nodup
  joined : ((head :: members) ++ [head]).IsChain links.Joined

namespace IsRing

variable {links : Links α} {head : α} {members : List α}

theorem empty (joined : links.Joined head head) : IsRing links head [] :=
  ⟨List.nodup_singleton head, List.isChain_pair.mpr joined⟩

theorem head_not_mem (ring : IsRing links head members) :
    head ∉ members :=
  (List.nodup_cons.mp ring.nodup).1

theorem members_nodup (ring : IsRing links head members) : members.Nodup :=
  (List.nodup_cons.mp ring.nodup).2

theorem joined_split (before after : List α) :
    ((head :: (before ++ after)) ++ [head]).IsChain links.Joined ↔
      (head :: before).IsChain links.Joined ∧
        (after ++ [head]).IsChain links.Joined ∧
        links.Joined (before.getLastD head) (after.headD head) := by
  have shape : (head :: (before ++ after)) ++ [head] =
      (head :: before) ++ (after ++ [head]) := by simp
  rw [shape, List.isChain_append]
  have last : (head :: before).getLast? = some (before.getLastD head) := by
    cases before with
    | nil => rfl
    | cons first rest => simp [List.getLast?_cons]
  have first : (after ++ [head]).head? = some (after.headD head) := by
    cases after <;> simp
  simp [last, first]

theorem next_head (ring : IsRing links head members) :
    links.next head = members.headD head := by
  have halves := (joined_split [] members).mp ring.joined
  exact halves.2.2.1

theorem prev_head (ring : IsRing links head members) :
    links.prev head = members.getLastD head := by
  have halves := (joined_split members []).mp (by
    simpa using ring.joined)
  exact halves.2.2.2

theorem next_member {before after : List α} {node : α}
    (ring : IsRing links head (before ++ node :: after)) :
    links.next node = after.headD head := by
  have halves := (joined_split (before ++ [node]) after).mp (by
    simpa using ring.joined)
  simpa using halves.2.2.1

theorem prev_member {before after : List α} {node : α}
    (ring : IsRing links head (before ++ node :: after)) :
    links.prev node = before.getLastD head := by
  have halves := (joined_split before (node :: after)).mp ring.joined
  simpa using halves.2.2.2

private theorem follow_unique {first : α} {left right : List α}
    (leftChain : (first :: (left ++ [head])).IsChain links.Joined)
    (rightChain : (first :: (right ++ [head])).IsChain links.Joined)
    (leftFresh : head ∉ left) (rightFresh : head ∉ right) :
    left = right := by
  induction left generalizing first right with
  | nil =>
      cases right with
      | nil => rfl
      | cons node right =>
          have back := (List.isChain_cons_cons.mp leftChain).1
          have on := (List.isChain_cons_cons.mp rightChain).1
          have same : head = node := back.1.symm.trans on.1
          simp [same] at rightFresh
  | cons node left induction =>
      have on := List.isChain_cons_cons.mp leftChain
      cases right with
      | nil =>
          have back := (List.isChain_cons_cons.mp rightChain).1
          have same : head = node := back.1.symm.trans on.1.1
          simp [same] at leftFresh
      | cons other right =>
          have along := List.isChain_cons_cons.mp rightChain
          have same : node = other := on.1.1.symm.trans along.1.1
          subst other
          have rest : left = right := by
            apply induction on.2 along.2
            · exact fun member => leftFresh (List.mem_cons_of_mem _ member)
            · exact fun member => rightFresh (List.mem_cons_of_mem _ member)
          rw [rest]

theorem unique {others : List α} (ring : IsRing links head members)
    (other : IsRing links head others) : members = others :=
  follow_unique ring.joined other.joined ring.head_not_mem
    other.head_not_mem

end IsRing

private theorem isChain_of_inner {R S : α → α → Prop} {nodes : List α}
    (implies : ∀ left right, left ∈ nodes.dropLast → right ∈ nodes.tail →
      R left right → S left right)
    (chain : nodes.IsChain R) : nodes.IsChain S := by
  induction chain with
  | nil => exact .nil
  | singleton node => exact .singleton node
  | @cons_cons left right rest related _ induction =>
      refine .cons_cons (implies _ _ (by simp) (by simp) related) ?_
      apply induction
      intro inner outer innerMember outerMember
      exact implies inner outer (by simp [innerMember])
        (List.mem_of_mem_tail outerMember)

private theorem getLastD_not_mem_dropLast {head : α} {members : List α}
    (nodup : (head :: members).Nodup) :
    members.getLastD head ∉ (head :: members).dropLast := by
  rcases List.eq_nil_or_concat members with empty | ⟨front, last, shape⟩
  · subst members
    simp
  · subst members
    have separated : last ∉ head :: front := by
      have distinct : ((head :: front) ++ [last]).Nodup := by
        simpa using nodup
      rw [List.nodup_append] at distinct
      intro member
      exact distinct.2.2 last member last (by simp) rfl
    have initial : (head :: (front ++ [last])).dropLast = head :: front := by
      rw [← List.cons_append, List.dropLast_concat]
    simpa [initial] using separated

private theorem headD_not_mem_tail {head : α} {members : List α}
    (nodup : (head :: members).Nodup) :
    members.headD head ∉ (members ++ [head]).tail := by
  cases members with
  | nil => simp
  | cons first rest =>
      obtain ⟨headFresh, firstFresh⟩ := by simpa using nodup
      simp [firstFresh.1, Ne.symm headFresh.1]

theorem headD_eq_getLastD {head : α} {members : List α}
    (nodup : (head :: members).Nodup) :
    members.headD head = members.getLastD head ↔ members.length ≤ 1 := by
  match members with
  | [] => simp
  | [node] => simp
  | node :: other :: rest =>
      have fresh : node ∉ other :: rest :=
        (List.nodup_cons.mp (List.nodup_cons.mp nodup).2).1
      have last : rest.getLastD other ∈ other :: rest :=
        List.getLastD_mem_cons
      constructor
      · intro same
        rw [List.headD_cons, List.getLastD_cons, List.getLastD_cons] at same
        rw [← same] at last
        exact absurd last fresh
      · intro short
        simp at short

private theorem headD_mem (head : α) (members : List α) :
    members.headD head ∈ members ++ [head] := by
  cases members <;> simp

/-- Two heaps have the same cells at the given nodes. -/
def SameCells (links others : Links α) (nodes : List α) : Prop :=
  ∀ node ∈ nodes,
    others.next node = links.next node ∧ others.prev node = links.prev node

/-- A ring depends on the cells of its own nodes only. -/
theorem IsRing.frame {links others : Links α} {head : α} {members : List α}
    (ring : IsRing links head members)
    (agree : links.SameCells others (head :: members)) :
    IsRing others head members := by
  refine ⟨ring.nodup, ?_⟩
  apply isChain_of_inner _ ring.joined
  intro left right leftMember rightMember joined
  have leftOwn : left ∈ head :: members := by
    rw [List.dropLast_concat] at leftMember
    exact leftMember
  have rightOwn : right ∈ head :: members := by
    rcases List.mem_append.mp rightMember with inside | isHead
    · exact List.mem_cons_of_mem _ inside
    · simp [List.mem_singleton.mp isHead]
  exact ⟨(agree left leftOwn).1.trans joined.1,
    (agree right rightOwn).2.trans joined.2⟩

/-- The nodes around a joint of a ring: the left neighbour closes the front
half, the right one opens the back half, and neither occurs elsewhere. -/
private theorem IsRing.joint_apart {links : Links α} {head : α}
    {before after : List α} (ring : IsRing links head (before ++ after)) :
    (∀ node, node ∈ (head :: before).dropLast →
        node ≠ before.getLastD head) ∧
      (∀ node, node ∈ before → node ≠ after.headD head) ∧
      (∀ node, node ∈ after → node ≠ before.getLastD head) ∧
      (∀ node, node ∈ (after ++ [head]).tail →
        node ≠ after.headD head) := by
  have nodupBefore : (head :: before).Nodup := ring.nodup.sublist (by simp)
  have nodupAfter : (head :: after).Nodup := ring.nodup.sublist (by simp)
  have apart := (List.nodup_append.mp ring.members_nodup).2.2
  have headFresh := ring.head_not_mem
  simp only [List.mem_append, not_or] at headFresh
  refine ⟨?_, ?_, ?_, ?_⟩
  · intro node member same
    rw [same] at member
    exact getLastD_not_mem_dropLast nodupBefore member
  · intro node member same
    have following := headD_mem head after
    rw [← same] at following
    rcases List.mem_append.mp following with inAfter | isHead
    · exact apart node member node inAfter rfl
    · rw [List.mem_singleton.mp isHead] at member
      exact headFresh.1 member
  · intro node member same
    have previous : before.getLastD head ∈ head :: before :=
      List.getLastD_mem_cons
    rw [← same] at previous
    rcases List.mem_cons.mp previous with isHead | inBefore
    · rw [isHead] at member
      exact headFresh.2 member
    · exact apart node inBefore node member rfl
  · intro node member same
    rw [same] at member
    exact headD_not_mem_tail nodupAfter member

theorem IsRing.next_apart {links : Links α} {head : α} {before after : List α}
    {node : α} (ring : IsRing links head (before ++ node :: after)) :
    links.next node ≠ node := by
  have later : IsRing links head ((before ++ [node]) ++ after) := by
    simpa using ring
  obtain ⟨_, apart, _, _⟩ := later.joint_apart
  rw [ring.next_member]
  exact (apart node (by simp)).symm

section Surgery

variable [DecidableEq α]

/-- Put a node between two neighbours: four cell writes. -/
def insertBetween (links : Links α) (node previous following : α) :
    Links α :=
  (((links.setPrev following node).setNext node following).setPrev
    node previous).setNext previous node

theorem Joined.insertBetween {links : Links α}
    {node previous following left right : α}
    (joined : links.Joined left right)
    (leftOther : left ≠ node ∧ left ≠ previous)
    (rightOther : right ≠ node ∧ right ≠ following) :
    (links.insertBetween node previous following).Joined left right := by
  simpa [Joined, Links.insertBetween, leftOther, rightOther] using joined

theorem insertBetween_left (links : Links α) (node previous following : α) :
    (links.insertBetween node previous following).Joined previous node := by
  simp [Joined, Links.insertBetween]

theorem insertBetween_right (links : Links α) {node previous following : α}
    (previousOther : previous ≠ node) (followingOther : following ≠ node) :
    (links.insertBetween node previous following).Joined node following := by
  simp [Joined, Links.insertBetween, previousOther.symm, followingOther]

theorem insertBetween_sameCells (links : Links α)
    {node previous following : α} {nodes : List α} (nodeOut : node ∉ nodes)
    (previousOut : previous ∉ nodes) (followingOut : following ∉ nodes) :
    links.SameCells (links.insertBetween node previous following) nodes := by
  intro cell inside
  have nodeOther := ne_of_mem_of_not_mem inside nodeOut
  have previousOther := ne_of_mem_of_not_mem inside previousOut
  have followingOther := ne_of_mem_of_not_mem inside followingOut
  simp [Links.insertBetween, nodeOther, previousOther, followingOther]

/-- Let the two neighbours of a node point past it. -/
def unlink (links : Links α) (node : α) : Links α :=
  let links := links.setPrev (links.next node) (links.prev node)
  links.setNext (links.prev node) (links.next node)

theorem Joined.unlink {links : Links α} {node left right : α}
    (joined : links.Joined left right)
    (apart : links.next node ≠ node)
    (leftOther : left ≠ links.prev node)
    (rightOther : right ≠ links.next node) :
    (links.unlink node).Joined left right := by
  simpa [Joined, Links.unlink, apart.symm, leftOther, rightOther] using joined

theorem unlink_sameCells (links : Links α) {node : α} {nodes : List α}
    (apart : links.next node ≠ node) (previousOut : links.prev node ∉ nodes)
    (followingOut : links.next node ∉ nodes) :
    links.SameCells (links.unlink node) nodes := by
  intro cell inside
  have previousOther := ne_of_mem_of_not_mem inside previousOut
  have followingOther := ne_of_mem_of_not_mem inside followingOut
  simp [Links.unlink, apart.symm, previousOther, followingOther]

theorem unlink_joined (links : Links α) {node : α}
    (apart : links.next node ≠ node) :
    (links.unlink node).Joined (links.prev node) (links.next node) := by
  simp [Joined, Links.unlink, apart.symm]

namespace IsRing

variable {links : Links α} {head : α} {members : List α}

/-- Insertion between the last of `before` and the first of `after`, where
the head stands for a missing neighbour. -/
theorem insertBetween {before after : List α} {node : α}
    (ring : IsRing links head (before ++ after))
    (fresh : node ∉ head :: (before ++ after)) :
    IsRing
      (links.insertBetween node (before.getLastD head) (after.headD head))
      head (before ++ node :: after) := by
  obtain ⟨chainBefore, chainAfter, _⟩ :=
    (joined_split before after).mp ring.joined
  obtain ⟨leftFront, rightFront, leftBack, rightBack⟩ := ring.joint_apart
  have absent : ∀ other, other ∈ head :: (before ++ after) →
      other ≠ node := by
    intro other member same
    rw [same] at member
    exact fresh member
  have previousOther : before.getLastD head ≠ node := by
    apply absent
    have member : before.getLastD head ∈ head :: before :=
      List.getLastD_mem_cons
    exact List.mem_append_left after member
  have absentBack : ∀ other, other ∈ after ++ [head] → other ≠ node := by
    intro other member
    apply absent
    rcases List.mem_append.mp member with inAfter | isHead
    · simp [inAfter]
    · simp [List.mem_singleton.mp isHead]
  have followingOther : after.headD head ≠ node :=
    absentBack _ (headD_mem head after)
  constructor
  · have shape : (head :: (before ++ node :: after)).Perm
        (node :: head :: (before ++ after)) :=
      (List.perm_middle.cons head).trans (.swap node head _)
    exact shape.nodup_iff.mpr (List.nodup_cons.mpr ⟨fresh, ring.nodup⟩)
  · rw [joined_split]
    refine ⟨?_, ?_, ?_⟩
    · apply isChain_of_inner _ chainBefore
      intro left right leftMember rightMember joined
      have leftBefore : left ∈ head :: before :=
        List.dropLast_subset _ leftMember
      apply joined.insertBetween
      · exact ⟨absent left (List.mem_append_left after leftBefore),
          leftFront left leftMember⟩
      · have rightBefore : right ∈ before := rightMember
        exact ⟨absent right (by simp [rightBefore]),
          rightFront right rightBefore⟩
    · rw [List.cons_append, List.isChain_cons]
      constructor
      · intro right first
        have equality : right = after.headD head := by
          cases after <;> simp_all
        rw [equality]
        exact links.insertBetween_right previousOther followingOther
      · apply isChain_of_inner _ chainAfter
        intro left right leftMember rightMember joined
        have leftAfter : left ∈ after := by simpa using leftMember
        apply joined.insertBetween
        · exact ⟨absent left (by simp [leftAfter]), leftBack left leftAfter⟩
        · exact ⟨absentBack right (List.mem_of_mem_tail rightMember),
            rightBack right rightMember⟩
    · rw [List.headD_cons]
      exact links.insertBetween_left node _ _

theorem unlink {before after : List α} {node : α}
    (ring : IsRing links head (before ++ node :: after)) :
    IsRing (links.unlink node) head (before ++ after) := by
  have previous := ring.prev_member
  have following := ring.next_member
  obtain ⟨chainBefore, chainRest, _⟩ :=
    (joined_split before (node :: after)).mp ring.joined
  have chainAfter : (after ++ [head]).IsChain links.Joined :=
    (List.isChain_cons.mp chainRest).2
  obtain ⟨leftFront, _, leftBack, _⟩ := ring.joint_apart
  have later : IsRing links head ((before ++ [node]) ++ after) := by
    simpa using ring
  obtain ⟨_, rightFront, _, rightBack⟩ := later.joint_apart
  have apart := ring.next_apart
  constructor
  · have shape : (head :: (before ++ after)).Sublist
        (head :: (before ++ node :: after)) := by simp
    exact ring.nodup.sublist shape
  · rw [joined_split]
    refine ⟨?_, ?_, ?_⟩
    · apply isChain_of_inner _ chainBefore
      intro left right leftMember rightMember joined
      have rightBefore : right ∈ before := rightMember
      apply joined.unlink apart
      · rw [previous]
        exact leftFront left leftMember
      · rw [following]
        exact rightFront right (by simp [rightBefore])
    · apply isChain_of_inner _ chainAfter
      intro left right leftMember rightMember joined
      have leftAfter : left ∈ after := by simpa using leftMember
      apply joined.unlink apart
      · rw [previous]
        exact leftBack left (by simp [leftAfter])
      · rw [following]
        exact rightBack right rightMember
    · rw [← previous, ← following]
      exact links.unlink_joined apart

end IsRing

end Surgery

/-! ## What can be reached -/

/-- A node is found by following the links from another one. -/
inductive Reaches (links : Links α) (start : α) : α → Prop where
  | refl : Reaches links start start
  | next {node : α} : Reaches links start node →
      Reaches links start (links.next node)
  | prev {node : α} : Reaches links start node →
      Reaches links start (links.prev node)

/-- No link leads out of a set of nodes. -/
structure Encloses (links : Links α) (nodes : α → Prop) : Prop where
  next : ∀ node, nodes node → nodes (links.next node)
  prev : ∀ node, nodes node → nodes (links.prev node)

variable {links : Links α} {nodes : α → Prop}

theorem Encloses.of_reaches (enclosed : links.Encloses nodes) {start node : α}
    (inside : nodes start) (reached : links.Reaches start node) :
    nodes node := by
  induction reached with
  | refl => exact inside
  | next _ induction => exact enclosed.next _ induction
  | prev _ induction => exact enclosed.prev _ induction

theorem IsRing.reaches {head node : α} {members : List α}
    (ring : links.IsRing head members) (member : node ∈ members) :
    links.Reaches head node := by
  obtain ⟨before, after, split⟩ := List.append_of_mem member
  subst split
  induction before using List.reverseRecOn generalizing node after with
  | nil =>
      have first : links.next head = node := ring.next_head
      exact first ▸ .next .refl
  | append_singleton before earlier induction =>
      rw [List.append_assoc, List.singleton_append] at ring member
      have known := induction (node :: after) ring (by simp)
      have following : links.next earlier = node := ring.next_member
      exact following ▸ .next known

theorem Encloses.insertBetween [DecidableEq α]
    (enclosed : links.Encloses nodes) {node previous following : α}
    (previousInside : nodes previous) (followingInside : nodes following) :
    (links.insertBetween node previous following).Encloses fun other =>
      other = node ∨ nodes other := by
  constructor
  · intro other inside
    simp only [Links.insertBetween, setNext_next, setPrev_next]
    split
    · exact .inl rfl
    · split
      · exact .inr followingInside
      · rename_i apart
        exact .inr (enclosed.next other (inside.resolve_left apart))
  · intro other inside
    simp only [Links.insertBetween, setNext_prev, setPrev_prev]
    split
    · exact .inr previousInside
    · rename_i apart
      split
      · exact .inl rfl
      · exact .inr (enclosed.prev other (inside.resolve_left apart))

end Links

end Base
