import Liblsp.Base.Links

/-!
# Lists that are followed forward

Who only follows `next` sees less of a ring than its owner does: the `prev`
cells of the members do not matter, and neither does a node that no `next`
leads to.  So the ring may be in the middle of an insertion in front.
-/

namespace Base

variable {α : Type*}

/-- Following `next` from the head meets these members in order and comes
back, and the `prev` of the head is the last of them. -/
structure Forward (links : Links α) (head : α) (members : List α) :
    Prop where
  nodup : (head :: members).Nodup
  first : links.next head = members.headD head
  next : ∀ before node after, members = before ++ node :: after →
    links.next node = after.headD head
  last : links.prev head = members.getLastD head

/-- How far an insertion between two neighbours has come: the first so many
of its four stores have been made. -/
def Links.insertUpTo [DecidableEq α] (links : Links α)
    (node previous following : α) : Nat → Links α
  | 0 => links
  | 1 => links.setPrev following node
  | 2 => (links.setPrev following node).setNext node following
  | 3 =>
      ((links.setPrev following node).setNext node following).setPrev node
        previous
  | _ => links.insertBetween node previous following

namespace Forward

variable {links : Links α} {head node : α} {members : List α}

theorem of_isRing (ring : links.IsRing head members) :
    Forward links head members := by
  constructor
  · exact ring.nodup
  · exact ring.next_head
  · intro before node after split
    rw [split] at ring
    exact ring.next_member
  · exact ring.prev_head

theorem head_not_mem (forward : Forward links head members) :
    head ∉ members :=
  (List.nodup_cons.mp forward.nodup).1

theorem next_eq_head (forward : Forward links head members)
    {before after : List α} (split : members = before ++ node :: after) :
    links.next node = head ↔ after = [] := by
  rw [forward.next before node after split]
  cases after with
  | nil => simp
  | cons other after =>
      have different : other ≠ head := by
        intro same
        apply forward.head_not_mem
        rw [split, ← same]
        simp
      simp [different]

theorem getLastD_append (added : List α) (occupied : members ≠ []) :
    (added ++ members).getLastD head = members.getLastD head := by
  rw [List.getLastD_eq_getLast?, List.getLastD_eq_getLast?,
    List.getLast?_append_of_ne_nil _ occupied]

/-- Before its last store an insertion in front of a member is not seen. -/
theorem insertUpTo [DecidableEq α] (forward : Forward links head members)
    (occupied : members ≠ []) (fresh : node ∉ head :: members)
    {stores : Nat} (few : stores ≤ 3) :
    Forward (links.insertUpTo node head (links.next head) stores) head
      members := by
  have notHead : node ≠ head := fun same => fresh (by simp [same])
  have notMember : node ∉ members := fun member => fresh (by simp [member])
  have firstOther : head ≠ links.next head := by
    rw [forward.first]
    cases members with
    | nil => exact absurd rfl occupied
    | cons first rest =>
        intro same
        exact forward.head_not_mem (by rw [same]; simp)
  have nextKept : ∀ other, other ≠ node →
      (links.insertUpTo node head (links.next head) stores).next other =
        links.next other := by
    intro other different
    match stores with
    | 0 => rfl
    | 1 => rfl
    | 2 => simp [Links.insertUpTo, different]
    | 3 => simp [Links.insertUpTo, different]
  have prevKept :
      (links.insertUpTo node head (links.next head) stores).prev head =
        links.prev head := by
    match stores with
    | 0 => rfl
    | 1 => simp [Links.insertUpTo, firstOther]
    | 2 => simp [Links.insertUpTo, firstOther]
    | 3 => simp [Links.insertUpTo, firstOther, Ne.symm notHead]
  constructor
  · exact forward.nodup
  · rw [nextKept head (Ne.symm notHead)]
    exact forward.first
  · intro before other after split
    rw [nextKept other]
    · exact forward.next before other after split
    · intro same
      apply notMember
      rw [split, ← same]
      simp
  · rw [prevKept]
    exact forward.last

end Forward

end Base
