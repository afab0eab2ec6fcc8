import Liblsp.LinkedList
import Liblsp.Base.Rings
import Liblsp.Base.Run

/-!
# List operations refine operations on sequences

A run of list operations on a heap of link cells goes along with the same
operations on one reference sequence for each head.  Every reachable heap
reads as its reference sequences, forwards from `next` and backwards from
`prev`, and an operation touches one list only.
-/

namespace Liblsp

open Base

variable {α : Type} [DecidableEq α]

inductive ListOp (α : Type) where
  | add (n head : α)
  | addTail (n head : α)
  | insertAfter (n node : α)
  | insertBefore (n node : α)
  | del (n : α)

def ListOp.run (links : Links α) : ListOp α → Links α
  | .add n head => lspListAdd links n head
  | .addTail n head => lspListAddTail links n head
  | .insertAfter n node => lspListInsertAfter links n node
  | .insertBefore n node => lspListInsertBefore links n node
  | .del n => lspListDel links n

/-! ## The reference sequences -/

/-- Replace the first occurrence of a node by some nodes. -/
def splice (node : α) (nodes : List α) : List α → List α
  | [] => []
  | first :: rest =>
      if first = node then nodes ++ rest else first :: splice node nodes rest

theorem splice_split {node : α} {nodes before after : List α}
    (first : node ∉ before) :
    splice node nodes (before ++ node :: after) =
      before ++ (nodes ++ after) := by
  induction before with
  | nil => simp [splice]
  | cons other before induction =>
      have different : other ≠ node := by
        intro same
        apply first
        simp [same]
      have rest : node ∉ before := by
        intro member
        exact first (List.mem_cons_of_mem other member)
      simp [splice, different, induction rest]

theorem splice_of_not_mem {node : α} {nodes list : List α}
    (absent : node ∉ list) : splice node nodes list = list := by
  induction list with
  | nil => rfl
  | cons other list induction =>
      have different : other ≠ node := by
        intro same
        apply absent
        simp [same]
      have rest : node ∉ list := by
        intro member
        exact absent (List.mem_cons_of_mem other member)
      simp [splice, different, induction rest]

/-- What an operation does to the sequence of every head. -/
def ListOp.reference (lists : α → List α) : ListOp α → α → List α
  | .add n head => Function.update lists head (n :: lists head)
  | .addTail n head => Function.update lists head (lists head ++ [n])
  | .insertAfter n node => fun head => splice node [node, n] (lists head)
  | .insertBefore n node => fun head => splice node [n, node] (lists head)
  | .del n => fun head => splice n [] (lists head)

/-- The lists that an operation is meant for. -/
def ListOp.On (lists : α → List α) (target : α) : ListOp α → Prop
  | .add _ head => target = head
  | .addTail _ head => target = head
  | .insertAfter _ node => node ∈ lists target
  | .insertBefore _ node => node ∈ lists target
  | .del n => n ∈ lists target

/-! ## Histories -/

/-- A heap and, beside it, the reference sequences. -/
structure ListUse (α : Type) where
  links : Links α
  lists : α → List α

namespace ListUse

def step (use : ListUse α) (op : ListOp α) : Option (ListUse α) :=
  some { links := op.run use.links, lists := op.reference use.lists }

/-- Every head initialised, no list with a member. -/
def initial (heads : List α) (links : Links α) : ListUse α where
  links := heads.foldl lspListHeadInit links
  lists := fun _ => []

instance (heads : List α) (lists : α → List α) (node : α) :
    Decidable (Links.Free heads lists node) :=
  inferInstanceAs (Decidable (∀ head ∈ heads, node ∉ head :: lists head))

/-- What the callers owe: an inserted node is in no list, a positional or
deleted one is a member of some list. -/
def Allowed (heads : List α) (use : ListUse α) : ListOp α → Prop
  | .add n head => head ∈ heads ∧ Links.Free heads use.lists n
  | .addTail n head => head ∈ heads ∧ Links.Free heads use.lists n
  | .insertAfter n node =>
      Links.Free heads use.lists n ∧ ∃ head ∈ heads, node ∈ use.lists head
  | .insertBefore n node =>
      Links.Free heads use.lists n ∧ ∃ head ∈ heads, node ∈ use.lists head
  | .del n => ∃ head ∈ heads, n ∈ use.lists head

instance (heads : List α) (use : ListUse α) :
    (op : ListOp α) → Decidable (use.Allowed heads op)
  | .add n head => inferInstanceAs
      (Decidable (head ∈ heads ∧ Links.Free heads use.lists n))
  | .addTail n head => inferInstanceAs
      (Decidable (head ∈ heads ∧ Links.Free heads use.lists n))
  | .insertAfter n node => inferInstanceAs
      (Decidable (Links.Free heads use.lists n ∧
        ∃ head ∈ heads, node ∈ use.lists head))
  | .insertBefore n node => inferInstanceAs
      (Decidable (Links.Free heads use.lists n ∧
        ∃ head ∈ heads, node ∈ use.lists head))
  | .del n => inferInstanceAs
      (Decidable (∃ head ∈ heads, n ∈ use.lists head))

end ListUse

/-! ## Every operation replaces one list -/

section Operations

open Links

variable {links : Links α} {heads : List α} {lists : α → List α}
  {n node head : α}

omit [DecidableEq α] in
private theorem member_places (rings : links.AreRings heads lists)
    (member : head ∈ heads) (inside : node ∈ lists head) :
    (∃ before after, lists head = before ++ node :: after ∧
        node ∉ before) ∧
      ∀ other ∈ heads, other ≠ head → node ∉ lists other := by
  constructor
  · obtain ⟨before, after, split⟩ := List.append_of_mem inside
    have distinct := (rings.ring head member).members_nodup
    rw [split, List.nodup_append] at distinct
    refine ⟨before, after, split, ?_⟩
    intro earlier
    exact distinct.2.2 node earlier node (by simp) rfl
  · intro other otherMember different outside
    exact rings.apart head member other otherMember different.symm node
      (List.mem_cons_of_mem _ inside) (List.mem_cons_of_mem _ outside)

private theorem lspListAdd_replaced (rings : links.AreRings heads lists)
    (member : head ∈ heads) (free : Free heads lists n) :
    Replaced links (lspListAdd links n head) heads lists
      ((ListOp.add n head).reference lists) head := by
  have following := (rings.ring head member).next_head
  have changed : (ListOp.add n head).reference lists head =
      [] ++ n :: lists head := by simp [ListOp.reference]
  have kept : ∀ other ∈ heads, other ≠ head →
      (ListOp.add n head).reference lists other = lists other := by
    intro other _ different
    simp [ListOp.reference, different]
  have inserted := rings.insertBetween member (List.nil_append _).symm free
    changed kept
  rw [← following] at inserted
  exact inserted

private theorem lspListAddTail_replaced (rings : links.AreRings heads lists)
    (member : head ∈ heads) (free : Free heads lists n) :
    Replaced links (lspListAddTail links n head) heads lists
      ((ListOp.addTail n head).reference lists) head := by
  have previous := (rings.ring head member).prev_head
  have changed : (ListOp.addTail n head).reference lists head =
      lists head ++ n :: [] := by simp [ListOp.reference]
  have kept : ∀ other ∈ heads, other ≠ head →
      (ListOp.addTail n head).reference lists other = lists other := by
    intro other _ different
    simp [ListOp.reference, different]
  have inserted := rings.insertBetween member (List.append_nil _).symm free
    changed kept
  rw [← previous] at inserted
  exact inserted

private theorem lspListInsertAfter_replaced
    (rings : links.AreRings heads lists) (member : head ∈ heads)
    (free : Free heads lists n) (inside : node ∈ lists head) :
    Replaced links (lspListInsertAfter links n node) heads lists
      ((ListOp.insertAfter n node).reference lists) head := by
  obtain ⟨⟨before, after, split, first⟩, elsewhere⟩ :=
    member_places rings member inside
  have ring := rings.ring head member
  rw [split] at ring
  have following := ring.next_member
  have later : lists head = (before ++ [node]) ++ after := by
    simpa using split
  have changed : (ListOp.insertAfter n node).reference lists head =
      (before ++ [node]) ++ n :: after := by
    simp [ListOp.reference, split, splice_split first]
  have kept : ∀ other ∈ heads, other ≠ head →
      (ListOp.insertAfter n node).reference lists other = lists other := by
    intro other otherMember different
    exact splice_of_not_mem (elsewhere other otherMember different)
  have inserted := rings.insertBetween member later free changed kept
  rw [← following, List.getLastD_concat] at inserted
  exact inserted

private theorem lspListInsertBefore_replaced
    (rings : links.AreRings heads lists) (member : head ∈ heads)
    (free : Free heads lists n) (inside : node ∈ lists head) :
    Replaced links (lspListInsertBefore links n node) heads lists
      ((ListOp.insertBefore n node).reference lists) head := by
  obtain ⟨⟨before, after, split, first⟩, elsewhere⟩ :=
    member_places rings member inside
  have ring := rings.ring head member
  rw [split] at ring
  have previous := ring.prev_member
  have changed : (ListOp.insertBefore n node).reference lists head =
      before ++ n :: node :: after := by
    simp [ListOp.reference, split, splice_split first]
  have kept : ∀ other ∈ heads, other ≠ head →
      (ListOp.insertBefore n node).reference lists other = lists other := by
    intro other otherMember different
    exact splice_of_not_mem (elsewhere other otherMember different)
  have inserted := rings.insertBetween member split free changed kept
  rw [← previous, List.headD_cons] at inserted
  exact inserted

private theorem lspListDel_replaced (rings : links.AreRings heads lists)
    (member : head ∈ heads) (inside : n ∈ lists head) :
    Replaced links (lspListDel links n) heads lists
      ((ListOp.del n).reference lists) head := by
  obtain ⟨⟨before, after, split, first⟩, elsewhere⟩ :=
    member_places rings member inside
  have changed : (ListOp.del n).reference lists head = before ++ after := by
    simp [ListOp.reference, split, splice_split first]
  have kept : ∀ other ∈ heads, other ≠ head →
      (ListOp.del n).reference lists other = lists other := by
    intro other otherMember different
    exact splice_of_not_mem (elsewhere other otherMember different)
  exact rings.unlink member split changed kept

/-- An allowed operation replaces the one list it is meant for by what the
reference operation makes of it. -/
theorem ListOp.replaced {use : ListUse α} {op : ListOp α}
    (rings : use.links.AreRings heads use.lists)
    (allowed : use.Allowed heads op) :
    ∃ target ∈ heads, op.On use.lists target ∧
      Replaced use.links (op.run use.links) heads use.lists
        (op.reference use.lists) target := by
  cases op with
  | add n head =>
      obtain ⟨member, free⟩ := allowed
      exact ⟨head, member, rfl, lspListAdd_replaced rings member free⟩
  | addTail n head =>
      obtain ⟨member, free⟩ := allowed
      exact ⟨head, member, rfl, lspListAddTail_replaced rings member free⟩
  | insertAfter n node =>
      obtain ⟨free, head, member, inside⟩ := allowed
      exact ⟨head, member, inside,
        lspListInsertAfter_replaced rings member free inside⟩
  | insertBefore n node =>
      obtain ⟨free, head, member, inside⟩ := allowed
      exact ⟨head, member, inside,
        lspListInsertBefore_replaced rings member free inside⟩
  | del n =>
      obtain ⟨head, member, inside⟩ := allowed
      exact ⟨head, member, inside, lspListDel_replaced rings member inside⟩

end Operations

/-! ## Whole histories -/

private theorem foldl_lspListHeadInit (heads : List α) (links : Links α)
    (node : α) :
    (heads.foldl lspListHeadInit links).next node =
        (if node ∈ heads then node else links.next node) ∧
      (heads.foldl lspListHeadInit links).prev node =
        (if node ∈ heads then node else links.prev node) := by
  induction heads generalizing links with
  | nil => simp
  | cons head heads induction =>
      obtain ⟨next, prev⟩ := induction (lspListHeadInit links head)
      rw [List.foldl_cons, next, prev]
      by_cases same : node = head
      · simp [lspListHeadInit, same]
      · simp [lspListHeadInit, same]

private theorem initial_areRings (heads : List α) (links : Links α) :
    (ListUse.initial heads links).links.AreRings heads
      (ListUse.initial heads links).lists := by
  constructor
  · intro head member
    obtain ⟨next, prev⟩ := foldl_lspListHeadInit heads links head
    rw [if_pos member] at next prev
    exact .empty ⟨next, prev⟩
  · intro head _ other _ different node inside outside
    apply different
    exact (List.mem_singleton.mp inside).symm.trans
      (List.mem_singleton.mp outside)

/-- Following `cell` from `head` meets exactly the nodes, in order, and then
is back at `head`. -/
def Follows (cell : α → α) (head : α) (nodes : List α) : Prop :=
  ((head :: nodes) ++ [head]).IsChain fun node reached => cell node = reached

omit [DecidableEq α] in
private theorem isRing_follows {links : Links α} {head : α}
    {members : List α} (ring : links.IsRing head members) :
    Follows links.next head members ∧
      Follows links.prev head members.reverse := by
  constructor
  · exact ring.joined.imp fun _ _ joined => joined.1
  · have backwards : (head :: members.reverse) ++ [head] =
        ((head :: members) ++ [head]).reverse := by simp
    rw [Follows, backwards, List.isChain_reverse]
    exact ring.joined.imp fun _ _ joined => joined.2

/-- The heap reads as the reference sequences of the heads. -/
structure Represents (links : Links α) (heads : List α)
    (lists : α → List α) : Prop where
  forward : ∀ head ∈ heads, Follows links.next head (lists head)
  backward : ∀ head ∈ heads, Follows links.prev head (lists head).reverse
  distinct : ∀ head ∈ heads, (head :: lists head).Nodup
  apart : ∀ head ∈ heads, ∀ other ∈ heads, head ≠ other →
    ∀ node ∈ head :: lists head, node ∉ other :: lists other

namespace ListUse

variable {heads : List α} {links : Links α} {ops : List (ListOp α)}
  {use : ListUse α}

private theorem areRings_of_run
    (run : Run step (Allowed heads) (initial heads links) ops use) :
    use.links.AreRings heads use.lists := by
  induction run with
  | nil => exact initial_areRings heads links
  | snoc _ allowed stepped rings =>
      obtain ⟨target, _, _, replaced⟩ := ListOp.replaced rings allowed
      cases stepped
      exact replaced.rings

/-- After any history of allowed operations every head reads as its
reference sequence in both directions, no node is in two lists, and a further
operation keeps members and cells of the lists it is not meant for. -/
theorem represents_of_run
    (run : Run step (Allowed heads) (initial heads links) ops use) :
    Represents use.links heads use.lists ∧
      ∀ op, use.Allowed heads op → ∀ other ∈ heads, ¬op.On use.lists other →
        op.reference use.lists other = use.lists other ∧
        use.links.SameCells (op.run use.links) (other :: use.lists other) := by
  have rings := areRings_of_run run
  constructor
  · constructor
    · intro head member
      exact (isRing_follows (rings.ring head member)).1
    · intro head member
      exact (isRing_follows (rings.ring head member)).2
    · intro head member
      exact (rings.ring head member).nodup
    · exact rings.apart
  · intro op allowed other member elsewhere
    obtain ⟨target, _, on, replaced⟩ := ListOp.replaced rings allowed
    have different : other ≠ target := by
      intro same
      exact elsewhere (same ▸ on)
    exact ⟨replaced.kept other member different,
      replaced.frame other member different⟩

/-- Two lists with the heads `0` and `10`; node `3` changes over. -/
def nodeChangesOver : List (ListOp Nat) :=
  [.add 1 0, .addTail 2 0, .insertAfter 3 1, .add 11 10, .del 3,
    .insertBefore 3 11]

theorem represents_nodeChangesOver :
    ∃ use, Run step (Allowed [0, 10]) (initial [0, 10] ⟨id, id⟩)
        nodeChangesOver use ∧
      use.lists 0 = [1, 2] ∧ use.lists 10 = [3, 11] ∧
      Represents use.links [0, 10] use.lists := by
  have executed :
      (execute step (Allowed [0, 10]) (initial [0, 10] ⟨id, id⟩)
        nodeChangesOver).map (fun use => (use.lists 0, use.lists 10)) =
        some ([1, 2], [3, 11]) := by
    decide
  obtain ⟨use, run, view⟩ := exists_run_of_execute executed
  simp only [Prod.mk.injEq] at view
  exact ⟨use, run, view.1, view.2, (represents_of_run run).1⟩

end ListUse

end Liblsp
