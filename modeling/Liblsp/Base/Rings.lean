import Liblsp.Base.Links
import Mathlib.Data.List.Basic

/-!
# Families of rings

Several rings on one heap that share no node.  Inserting a free node into one
of them, or unlinking a member of it, gives such a family again and leaves the
other rings alone, members and cells.
-/

namespace Base

namespace Links

variable {α : Type*}

/-- Every head opens a ring with its list, and no two rings share a node. -/
structure AreRings (links : Links α) (heads : List α)
    (lists : α → List α) : Prop where
  ring : ∀ head ∈ heads, links.IsRing head (lists head)
  apart : ∀ head ∈ heads, ∀ other ∈ heads, head ≠ other →
    ∀ node ∈ head :: lists head, node ∉ other :: lists other

/-- A node that is neither a head nor in a list. -/
def Free (heads : List α) (lists : α → List α) (node : α) : Prop :=
  ∀ head ∈ heads, node ∉ head :: lists head

/-- The list of one head was replaced, and nothing else was touched. -/
structure Replaced (links others : Links α) (heads : List α)
    (lists newLists : α → List α) (head : α) : Prop where
  rings : others.AreRings heads newLists
  kept : ∀ other ∈ heads, other ≠ head → newLists other = lists other
  frame : ∀ other ∈ heads, other ≠ head →
    links.SameCells others (other :: lists other)

namespace AreRings

variable {links others : Links α} {heads : List α}
  {lists newLists : α → List α} {head node : α}

theorem replaced (rings : links.AreRings heads lists)
    (ring : others.IsRing head (newLists head))
    (origin : ∀ node ∈ newLists head,
      node ∈ lists head ∨ Free heads lists node)
    (member : head ∈ heads)
    (kept : ∀ other ∈ heads, other ≠ head → newLists other = lists other)
    (frame : ∀ other ∈ heads, other ≠ head →
      links.SameCells others (other :: lists other)) :
    Replaced links others heads lists newLists head := by
  have outside : ∀ other ∈ heads, other ≠ head →
      ∀ node ∈ head :: newLists head, node ∉ other :: lists other := by
    intro other otherMember different node inside
    rcases List.mem_cons.mp inside with isHead | inList
    · apply rings.apart head member other otherMember different.symm
      simp [isHead]
    · rcases origin node inList with old | free
      · apply rings.apart head member other otherMember different.symm
        exact List.mem_cons_of_mem head old
      · exact free other otherMember
  refine ⟨⟨?_, ?_⟩, kept, frame⟩
  · intro other otherMember
    by_cases same : other = head
    · exact same ▸ ring
    · rw [kept other otherMember same]
      exact (rings.ring other otherMember).frame
        (frame other otherMember same)
  · intro left leftMember right rightMember different node inLeft inRight
    by_cases leftSame : left = head
    · subst left
      rw [kept right rightMember (Ne.symm different)] at inRight
      exact outside right rightMember (Ne.symm different) node inLeft inRight
    · rw [kept left leftMember leftSame] at inLeft
      by_cases rightSame : right = head
      · subst right
        exact outside left leftMember leftSame node inRight inLeft
      · rw [kept right rightMember rightSame] at inRight
        exact rings.apart left leftMember right rightMember different node
          inLeft inRight

variable [DecidableEq α]

theorem insertBetween {before after : List α}
    (rings : links.AreRings heads lists) (member : head ∈ heads)
    (split : lists head = before ++ after)
    (free : Free heads lists node)
    (changed : newLists head = before ++ node :: after)
    (kept : ∀ other ∈ heads, other ≠ head →
      newLists other = lists other) :
    Replaced links
      (links.insertBetween node (before.getLastD head) (after.headD head))
      heads lists newLists head := by
  have ring : links.IsRing head (before ++ after) :=
    split ▸ rings.ring head member
  have fresh : node ∉ head :: (before ++ after) :=
    split ▸ free head member
  have previousOwn : before.getLastD head ∈ head :: lists head := by
    have inside : before.getLastD head ∈ head :: before :=
      List.getLastD_mem_cons
    rw [split, ← List.cons_append]
    exact List.mem_append_left after inside
  have followingOwn : after.headD head ∈ head :: lists head := by
    rw [split]
    cases after <;> simp
  apply rings.replaced
  · rw [changed]
    exact ring.insertBetween fresh
  · intro other inside
    rw [changed] at inside
    rw [split]
    by_cases same : other = node
    · exact .inr (same ▸ free)
    · apply Or.inl
      simpa [same] using inside
  · exact member
  · exact kept
  · intro other otherMember different
    have apart := rings.apart head member other otherMember different.symm
    exact links.insertBetween_sameCells (free other otherMember)
      (apart _ previousOwn) (apart _ followingOwn)

theorem unlink {before after : List α}
    (rings : links.AreRings heads lists) (member : head ∈ heads)
    (split : lists head = before ++ node :: after)
    (changed : newLists head = before ++ after)
    (kept : ∀ other ∈ heads, other ≠ head →
      newLists other = lists other) :
    Replaced links (links.unlink node) heads lists newLists head := by
  have ring : links.IsRing head (before ++ node :: after) :=
    split ▸ rings.ring head member
  have previousOwn : links.prev node ∈ head :: lists head := by
    have inside : before.getLastD head ∈ head :: before :=
      List.getLastD_mem_cons
    rw [ring.prev_member, split, ← List.cons_append]
    exact List.mem_append_left _ inside
  have followingOwn : links.next node ∈ head :: lists head := by
    rw [ring.next_member, split]
    cases after <;> simp
  apply rings.replaced
  · rw [changed]
    exact ring.unlink
  · intro other inside
    rw [changed] at inside
    apply Or.inl
    rw [split]
    rcases List.mem_append.mp inside with inFront | inBack <;>
      simp [*]
  · exact member
  · exact kept
  · intro other otherMember different
    have apart := rings.apart head member other otherMember different.symm
    exact links.unlink_sameCells ring.next_apart (apart _ previousOwn)
      (apart _ followingOwn)

end AreRings

end Links

end Base
