import Liblsp.Base.CString
import Liblsp.LinkedList
import Liblsp.Types

/-!
# The list of interfaces

Interfaces are registered at the front of a circular list, so the look-ups
meet the most recent ones first.  They search with `lsp_list_for`, which does
not see a list of one interface.
-/

namespace Liblsp

open Base

/-- The addresses that list cells can have: the static head, and the `list`
member of an interface. -/
inductive IflistNode where
  | iflist
  | list (iface : Nat)
  deriving DecidableEq

/-- The fields of `lsp_interface_t` that the look-ups read. -/
structure IflistInterface where
  ifname : Nat → UInt8
  devAddr : UInt16

/-- The list cells and the other fields of an interface at every address. -/
structure Iflist where
  links : Links IflistNode
  iface : IflistNode → IflistInterface

/-- `sizeof(iface->ifname)`. -/
def sizeofIfname : Nat := 32

namespace Iflist

def lspIflistAdd (s : Iflist) (iface : Nat) : Iflist × Int :=
  ({ s with links := lspListAdd s.links (.list iface) .iflist }, lspErrNone)

/-- `lsp_iflist_iface_byname`, with `none` for `NULL`. -/
def lspIflistIfaceByname (s : Iflist) (name : Nat → UInt8) (fuel : Nat) :
    Option (Option IflistNode) :=
  (lspListFor (fun _ => s.links) .iflist
    (fun _ iface => ((), decide
      (strncasecmp name (s.iface iface).ifname sizeofIfname = 0)))
    fuel ()).map Prod.snd

def lspIflistIfaceByaddr (s : Iflist) (addr : UInt16) (fuel : Nat) :
    Option (Option IflistNode) :=
  (lspListFor (fun _ => s.links) .iflist
    (fun _ iface => ((), decide (addr = (s.iface iface).devAddr)))
    fuel ()).map Prod.snd

/-- The statically initialised list, without an interface. -/
def empty (links : Links IflistNode) (iface : IflistNode → IflistInterface) :
    Iflist where
  links := lspListHeadInit links .iflist
  iface := iface

/-- Register some interfaces, one after the other. -/
def addAll (s : Iflist) (ifaces : List Nat) : Iflist :=
  ifaces.foldl (fun s iface => (s.lspIflistAdd iface).1) s

end Iflist

/-! ## The last element with a property -/

/-- An element of a sequence has a property, and none after it has; or there
is no such element. -/
def LastWith {β : Type} (property : β → Prop) (sequence : List β) :
    Option β → Prop
  | some last => ∃ before after, sequence = before ++ last :: after ∧
      property last ∧ ∀ later ∈ after, ¬property later
  | none => ∀ element ∈ sequence, ¬property element

theorem lastWith_find_reverse {β : Type} {property : β → Prop}
    {test : β → Bool} (decides : ∀ element, test element ↔ property element)
    (sequence : List β) :
    LastWith property sequence (sequence.reverse.find? test) := by
  cases result : sequence.reverse.find? test with
  | none =>
      intro element member
      have failed := List.find?_eq_none.mp result element
        (List.mem_reverse.mpr member)
      rw [← decides]
      exact failed
  | some last =>
      obtain ⟨passed, before, after, split, earlier⟩ :=
        List.find?_eq_some_iff_append.mp result
      refine ⟨after.reverse, before.reverse, ?_, (decides last).mp passed, ?_⟩
      · rw [← List.reverse_reverse sequence, split]
        simp
      · intro later member
        have failed := earlier later (List.mem_reverse.mp member)
        rw [← decides]
        simpa using failed

namespace Iflist

/-- For every address and every name the look-ups return the interface that
was registered last among those with that address, respectively with that
name up to case. -/
structure FindsRegistered (s : Iflist) (registered : List Nat) : Prop where
  byaddr : ∀ addr, ∃ result,
    Returns (s.lspIflistIfaceByaddr addr)
      (result.map IflistNode.list) ∧
    LastWith (fun iface => (s.iface (.list iface)).devAddr = addr)
      registered result
  byname : ∀ name, ∃ result,
    Returns (s.lspIflistIfaceByname name)
      (result.map IflistNode.list) ∧
    LastWith (fun iface => EqualUpToCase sizeofIfname
      (s.iface (.list iface)).ifname name) registered result

/-! ## What the look-ups return -/

section Lookups

variable {s : Iflist} {ifaces registered : List Nat} {iface : Nat}

theorem empty_ring (links : Links IflistNode)
    (iface : IflistNode → IflistInterface) :
    (empty links iface).links.IsRing .iflist
      (([] : List Nat).map IflistNode.list) :=
  lspListHeadInit_ring links .iflist

theorem addAll_ring
    (ring : s.links.IsRing .iflist (registered.map .list))
    (distinct : (ifaces.reverse ++ registered).Nodup) :
    (s.addAll ifaces).links.IsRing .iflist
      ((ifaces.reverse ++ registered).map .list) := by
  induction ifaces generalizing s registered with
  | nil => exact ring
  | cons first ifaces induction =>
      rw [List.reverse_cons, List.append_assoc,
        List.singleton_append] at distinct ⊢
      have fresh : first ∉ registered := by
        have suffix := (List.nodup_append.mp distinct).2.1
        exact (List.nodup_cons.mp suffix).1
      have absent : IflistNode.list first ∉
          .iflist :: registered.map IflistNode.list := by
        simp [fresh]
      have added := lspListAdd_ring ring absent
      exact induction added distinct

@[simp] theorem addAll_iface (s : Iflist) (ifaces : List Nat) :
    (s.addAll ifaces).iface = s.iface := by
  induction ifaces generalizing s with
  | nil => rfl
  | cons first ifaces induction => exact induction (s.lspIflistAdd first).1

variable (ring : s.links.IsRing .iflist (registered.reverse.map .list))

include ring

theorem byaddr_returns (addr : UInt16) :
    Returns (s.lspIflistIfaceByaddr addr)
      (((visible registered.reverse).find? fun iface =>
        decide (addr = (s.iface (.list iface)).devAddr)).map .list) :=
  lspListFor_search ring fun iface => addr = (s.iface iface).devAddr

theorem byname_returns (name : Nat → UInt8) :
    Returns (s.lspIflistIfaceByname name)
      (((visible registered.reverse).find? fun iface =>
        decide (strncasecmp name (s.iface (.list iface)).ifname
          sizeofIfname = 0)).map .list) :=
  lspListFor_search ring fun iface =>
    strncasecmp name (s.iface iface).ifname sizeofIfname = 0

/-- A list of any other length than one is searched as a whole. -/
theorem findsRegistered_of_ring (several : registered.length ≠ 1) :
    s.FindsRegistered registered := by
  have whole : visible registered.reverse = registered.reverse := by
    apply visible_of_length_ne_one
    rw [List.length_reverse]
    exact several
  constructor
  · intro addr
    have search := byaddr_returns ring addr
    rw [whole] at search
    refine ⟨_, search, lastWith_find_reverse ?_ registered⟩
    intro iface
    rw [decide_eq_true_iff]
    exact eq_comm
  · intro name
    have search := byname_returns ring name
    rw [whole] at search
    refine ⟨_, search, lastWith_find_reverse ?_ registered⟩
    intro iface
    rw [decide_eq_true_iff, strncasecmp_eq_zero_iff]
    exact eq_comm

/-- An only interface is not found by its own address. -/
theorem byaddr_of_single (single : registered = [iface]) (addr : UInt16) :
    Returns (s.lspIflistIfaceByaddr addr) none := by
  have search := byaddr_returns ring addr
  rw [single] at search
  exact search

theorem not_findsRegistered_of_single (single : registered = [iface]) :
    ¬s.FindsRegistered registered := by
  intro finds
  obtain ⟨result, found, last⟩ := finds.byaddr (s.iface (.list iface)).devAddr
  have missed := (byaddr_of_single ring single _).unique found
  have none : result = none := by
    cases result with
    | none => rfl
    | some iface => cases missed
  rw [none, single] at last
  exact last iface (List.mem_singleton.mpr rfl) rfl

end Lookups

/-- After any sequence of registrations the look-ups are right about every
address and every name exactly if the number of interfaces is not one. -/
theorem findsRegistered_iff (links : Links IflistNode)
    (iface : IflistNode → IflistInterface) {registered : List Nat}
    (distinct : registered.Nodup) :
    ((empty links iface).addAll registered).FindsRegistered registered ↔
      registered.length ≠ 1 := by
  have apart : (registered.reverse ++ []).Nodup := by
    rw [List.append_nil]
    exact List.nodup_reverse.mpr distinct
  have ring := addAll_ring (empty_ring links iface) apart
  rw [List.append_nil] at ring
  constructor
  · intro finds single
    obtain ⟨only, shape⟩ := List.length_eq_one_iff.mp single
    exact not_findsRegistered_of_single ring shape finds
  · intro several
    exact findsRegistered_of_ring ring several

section Examples

/-- Interfaces with their number as their address and `e` as their name. -/
def numberedInterface : IflistNode → IflistInterface
  | .iflist => ⟨fun _ => 0, 0⟩
  | .list iface =>
      ⟨fun place => if place = 0 then 101 else 0, UInt16.ofNat iface⟩

theorem findsRegistered_two_interfaces :
    ((empty ⟨id, id⟩ numberedInterface).addAll [5, 6]).FindsRegistered
      [5, 6] :=
  (findsRegistered_iff ⟨id, id⟩ numberedInterface (by decide)).mpr
    (by decide)

/-- The only interface is not found, neither by its address nor by its
name. -/
theorem single_interface_not_found :
    ((empty ⟨id, id⟩ numberedInterface).addAll [5]).lspIflistIfaceByaddr 5 3 =
        some none ∧
      ((empty ⟨id, id⟩ numberedInterface).addAll [5]).lspIflistIfaceByname
        (numberedInterface (.list 5)).ifname 3 = some none ∧
      ¬((empty ⟨id, id⟩ numberedInterface).addAll [5]).FindsRegistered
        [5] := by
  refine ⟨by decide, by decide, ?_⟩
  have ring : ((empty ⟨id, id⟩ numberedInterface).addAll [5]).links.IsRing
      .iflist ([5].reverse.map .list) := ⟨by decide, by decide⟩
  exact not_findsRegistered_of_single ring rfl

end Examples

end Iflist

end Liblsp
