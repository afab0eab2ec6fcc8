import Liblsp.Base.ForwardLists
import Liblsp.LinkedList

/-!
# Lists, one access at a time

The loads of `lsp_list_for` and the stores of `lsp_list_add`, each of them a
step, for threads that share a list without a mutex.  As long as nothing but
insertions in front happens to a list that is not empty, a loop that has read
the first node for the last time knows where it is going to end.
-/

namespace Liblsp

open Base

/-- The load of `lsp_list_for` that comes next, with what it has read.  The
operands of `!=` are read from left to right. -/
inductive LoopPlace (α : Type) where
  | start
  | compare (next : α)
  | enter
  | test (ptr : α)
  | advance (ptr : α)
  | move (ptr : α)
  | ended (ptr : Option α)

namespace LoopPlace

variable {α : Type} [DecidableEq α]

/-- One load of a loop whose body stops at some of the nodes. -/
def step (links : Links α) (head : α) (stops : α → Bool) :
    LoopPlace α → LoopPlace α
  | .start => .compare (links.next head)
  | .compare next => if next ≠ links.prev head then .enter else .ended none
  | .enter => .test (links.next head)
  | .test ptr => if stops ptr then .ended (some ptr) else .advance ptr
  | .advance ptr =>
      if links.next ptr ≠ head then .move ptr else .ended none
  | .move ptr => .test (links.next ptr)
  | .ended ptr => .ended ptr

/-- The cursor at the end of the loop. -/
def result : LoopPlace α → Option (Option α)
  | .ended ptr => some ptr
  | _ => none

end LoopPlace

/-- The stores of `_lsp_list_add`, in the order of the source. -/
inductive LinkStore where
  | nextPrev
  | nNext
  | nPrev
  | prevNext

namespace LinkStore

/-- How many stores come before this one. -/
def made : LinkStore → Nat
  | .nextPrev => 0
  | .nNext => 1
  | .nPrev => 2
  | .prevNext => 3

def later : LinkStore → Option LinkStore
  | .nextPrev => some .nNext
  | .nNext => some .nPrev
  | .nPrev => some .prevNext
  | .prevNext => none

theorem made_le (store : LinkStore) : store.made ≤ 3 := by
  cases store <;> decide

theorem made_later {store after : LinkStore}
    (order : store.later = some after) : after.made = store.made + 1 := by
  cases store <;> cases order <;> rfl

end LinkStore

section Stores

variable {α : Type} [DecidableEq α]

/-- One store of `_lsp_list_add`. -/
def lspListAddStore (links : Links α) (n prev next : α) :
    LinkStore → Links α
  | .nextPrev => links.setPrev next n
  | .nNext => links.setNext n next
  | .nPrev => links.setPrev n prev
  | .prevNext => links.setNext prev n

theorem lspListAddStore_insertUpTo (links : Links α) (n prev next : α)
    (store : LinkStore) :
    lspListAddStore (links.insertUpTo n prev next store.made) n prev next
        store = links.insertUpTo n prev next (store.made + 1) := by
  cases store <;> rfl

theorem insertUpTo_all (links : Links α) (n head : α) :
    links.insertUpTo n head (links.next head) 4 =
      lspListAdd links n head := rfl

end Stores

/-! ## A loop that nothing interrupts -/

section Search

variable {α : Type} {links : Links α} {head : α} {members : List α}

theorem cursorLoop_search {next : Links α → α → Option α} {nodes : List α}
    (follows : ∀ before node after, nodes = before ++ node :: after →
      next links node = after.head?) (stops : α → Bool) {fuel : Nat}
    (enough : nodes.length ≤ fuel) :
    cursorLoop (fun _ : Unit => links) next (fun _ ptr => ((), stops ptr))
      fuel () nodes.head? = some ((), nodes.find? stops) := by
  have keeps : ∀ (state : Unit) ptr,
      ((fun _ ptr => ((), stops ptr) : Unit → α → Unit × Bool)
        state ptr).2 = false → links = links := fun _ _ _ => rfl
  rw [← foldUntil_find]
  exact @cursorLoop_follows α Unit (fun _ => links) next _ links nodes
    follows keeps [] nodes rfl () rfl fuel enough

variable [DecidableEq α]

theorem lspListForNext_of_forward (forward : Forward links head members)
    {before after : List α} {node : α}
    (split : members = before ++ node :: after) :
    lspListForNext head links node = after.head? := by
  have atEnd := forward.next_eq_head split
  rw [lspListForNext]
  cases after with
  | nil => simp [atEnd.mpr rfl]
  | cons other after =>
      rw [if_pos (mt atEnd.mp (List.cons_ne_nil other after)),
        forward.next before node (other :: after) split]
      rfl

theorem lspListForInit_of_forward (forward : Forward links head members) :
    lspListForInit links head = (visible members).head? := by
  have test := Links.headD_eq_getLastD forward.nodup
  rw [lspListForInit, forward.first, forward.last]
  by_cases few : members.length ≤ 1
  · rw [visible_eq_nil_iff.mpr few, test.mpr few]
    simp
  · rw [if_pos (mt test.mp few), visible_of_length_ne_one (by omega)]
    cases members with
    | nil => simp at few
    | cons first rest => rfl

/-- A search of the members that follow one another, whatever the other cells
hold. -/
theorem lspListFor_search_forward (forward : Forward links head members)
    (stops : α → Bool) :
    Returns (fun fuel =>
        (lspListFor (fun _ : Unit => links) head
          (fun _ ptr => ((), stops ptr)) fuel ()).map Prod.snd)
      ((visible members).find? stops) := by
  refine ⟨members.length, ?_⟩
  intro fuel enough
  have shown : (visible members).length ≤ fuel := by
    unfold visible
    split
    · exact Nat.zero_le fuel
    · exact enough
  have follows : ∀ before node after,
      visible members = before ++ node :: after →
      lspListForNext head links node = after.head? := by
    intro before node after split
    refine @lspListForNext_of_forward α links head members _ forward before
      after node ?_
    unfold visible at split
    split at split
    · simp at split
    · exact split
  simp only [lspListFor, lspListForInit_of_forward forward,
    cursorLoop_search follows stops shown, Option.map_some]

end Search

/-! ## A loop that others interrupt -/

namespace LoopPlace

variable {α : Type} {head : α} {members : List α} {stops : α → Bool}

/-- The loop has not read the first node for the last time. -/
inductive Opens (head : α) (members : List α) : LoopPlace α → Prop where
  | start : Opens head members .start
  | compare {next : α} :
      2 ≤ members.length → next ≠ members.getLastD head →
      Opens head members (.compare next)
  | enter : 2 ≤ members.length → Opens head members .enter

/-- The loop is going to end with `found`. -/
inductive Walks (head : α) (members : List α) (stops : α → Bool) :
    LoopPlace α → Option α → Prop where
  | compare :
      Walks head members stops (.compare (members.getLastD head)) none
  | test {before after : List α} {ptr : α} :
      members = before ++ ptr :: after →
      Walks head members stops (.test ptr) ((ptr :: after).find? stops)
  | advance {before after : List α} {ptr : α} :
      members = before ++ ptr :: after →
      Walks head members stops (.advance ptr) (after.find? stops)
  | move {before after : List α} {ptr next : α} :
      members = before ++ ptr :: next :: after →
      Walks head members stops (.move ptr) ((next :: after).find? stops)
  | ended {found : Option α} :
      (∀ ptr, found = some ptr → ptr ∈ members ∧ stops ptr = true) →
      Walks head members stops (.ended found) found

theorem Opens.grows {place : LoopPlace α} (opens : Opens head members place)
    (occupied : members ≠ []) (added : List α) :
    Opens head (added ++ members) place := by
  have longer : 2 ≤ members.length → 2 ≤ (added ++ members).length := by
    rw [List.length_append]
    omega
  cases opens with
  | start => exact .start
  | compare several different =>
      rw [← Forward.getLastD_append added occupied] at different
      exact .compare (longer several) different
  | enter several => exact .enter (longer several)

private theorem find?_congr_mem {test test' : α → Bool} {nodes : List α}
    (same : ∀ ptr, ptr ∈ nodes → test' ptr = test ptr) :
    nodes.find? test' = nodes.find? test := by
  induction nodes with
  | nil => rfl
  | cons first rest induction =>
      have later := induction fun ptr member =>
        same ptr (List.mem_cons_of_mem first member)
      rw [List.find?_cons, List.find?_cons, same first List.mem_cons_self,
        later]

theorem Walks.grows {place : LoopPlace α} {found : Option α}
    (walks : Walks head members stops place found)
    (occupied : members ≠ []) (added : List α) {stops' : α → Bool}
    (same : ∀ ptr, ptr ∈ members → stops' ptr = stops ptr) :
    Walks head (added ++ members) stops' place found := by
  have kept : ∀ before after : List α, members = before ++ after →
      after.find? stops' = after.find? stops := by
    intro before after split
    apply find?_congr_mem
    intro ptr member
    apply same
    rw [split]
    exact List.mem_append_right before member
  cases walks with
  | compare =>
      rw [← Forward.getLastD_append added occupied]
      exact .compare
  | test split =>
      rw [← kept _ _ split]
      exact .test (by rw [split, List.append_assoc])
  | @advance before after ptr split =>
      rw [← kept (before ++ [ptr]) after (by simp [split])]
      exact .advance (by rw [split, List.append_assoc])
  | @move before after ptr next split =>
      rw [← kept (before ++ [ptr]) (next :: after) (by simp [split])]
      exact .move (by rw [split, List.append_assoc])
  | ended known =>
      apply Walks.ended
      intro ptr seen
      obtain ⟨member, stopped⟩ := known ptr seen
      exact ⟨List.mem_append_right added member,
        (same ptr member).trans stopped⟩

/-- The loop has not read the first node for the last time, or it is going to
end at a node that was seen. -/
def Decided (head : α) (members : List α) (stops : α → Bool)
    (seen : Option α → Prop) (place : LoopPlace α) : Prop :=
  place.Opens head members ∨
    ∃ found, place.Walks head members stops found ∧ seen found

section Deciding

variable {place : LoopPlace α} {seen seen' : Option α → Prop}

theorem Decided.of_seen (decided : Decided head members stops seen place)
    (still : ∀ found, seen found → seen' found) :
    Decided head members stops seen' place := by
  rcases decided with opens | ⟨found, walks, known⟩
  · exact .inl opens
  · exact .inr ⟨found, walks, still found known⟩

theorem Decided.grows (decided : Decided head members stops seen place)
    (occupied : members ≠ []) (added : List α) {stops' : α → Bool}
    (same : ∀ ptr, ptr ∈ members → stops' ptr = stops ptr) :
    Decided head (added ++ members) stops' seen place := by
  rcases decided with opens | ⟨found, walks, known⟩
  · exact .inl (opens.grows occupied added)
  · exact .inr ⟨found, walks.grows occupied added same, known⟩

theorem Decided.ended {ptr : Option α}
    (decided : Decided head members stops seen (.ended ptr)) : seen ptr := by
  rcases decided with opens | ⟨found, walks, known⟩
  · cases opens
  · cases walks
    exact known

end Deciding

variable [DecidableEq α] {links : Links α}

/-- A load of a loop that knows where it is going to end. -/
theorem Walks.step {place : LoopPlace α} {found : Option α}
    (walks : Walks head members stops place found)
    (forward : Forward links head members) :
    Walks head members stops (place.step links head stops) found := by
  cases walks with
  | compare =>
      rw [LoopPlace.step, forward.last, if_neg fun different => different rfl]
      exact .ended fun _ seen => nomatch seen
  | @test before after ptr split =>
      rw [LoopPlace.step, List.find?_cons]
      cases stopped : stops ptr with
      | true =>
          refine .ended ?_
          intro other seen
          cases seen
          exact ⟨by simp [split], stopped⟩
      | false => exact .advance split
  | @advance before after ptr split =>
      have atEnd := forward.next_eq_head split
      rw [LoopPlace.step]
      cases after with
      | nil =>
          rw [if_neg fun different => different (atEnd.mpr rfl)]
          exact .ended fun _ seen => nomatch seen
      | cons next after =>
          rw [if_pos (mt atEnd.mp (List.cons_ne_nil next after))]
          exact .move split
  | @move before after ptr next split =>
      rw [LoopPlace.step, forward.next before ptr (next :: after) split]
      have later : members = (before ++ [ptr]) ++ next :: after := by
        simp [split]
      exact .test later
  | ended known => exact .ended known

/-- A load that leaves open where the loop is going to end, or with which the
loop ends as if it were made now as a whole. -/
theorem Opens.step {place : LoopPlace α} (opens : Opens head members place)
    (forward : Forward links head members) (stops : α → Bool) :
    Opens head members (place.step links head stops) ∨
      Walks head members stops (place.step links head stops)
        ((visible members).find? stops) := by
  cases opens with
  | start =>
      rw [LoopPlace.step, forward.first]
      have test := Links.headD_eq_getLastD forward.nodup
      by_cases few : members.length ≤ 1
      · right
        rw [visible_eq_nil_iff.mpr few, test.mpr few]
        exact .compare
      · exact .inl (.compare (by omega) (mt test.mp few))
  | compare several different =>
      rw [LoopPlace.step, forward.last, if_pos different]
      exact .inl (.enter several)
  | enter several =>
      right
      rw [LoopPlace.step, forward.first,
        visible_of_length_ne_one (by omega)]
      cases members with
      | nil => simp at several
      | cons first rest => exact .test (List.nil_append _).symm

theorem Decided.step {place : LoopPlace α} {seen : Option α → Prop}
    (decided : Decided head members stops seen place)
    (forward : Forward links head members)
    (now : seen ((visible members).find? stops)) :
    Decided head members stops seen (place.step links head stops) := by
  rcases decided with opens | ⟨found, walks, known⟩
  · rcases opens.step forward stops with still | walks
    · exact .inl still
    · exact .inr ⟨_, walks, now⟩
  · exact .inr ⟨found, walks.step forward, known⟩

end LoopPlace

end Liblsp
