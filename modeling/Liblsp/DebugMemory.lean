import Liblsp.Base.CInt
import Liblsp.Base.Run
import Liblsp.LinkedList
import Mathlib.Algebra.GroupWithZero.Nat

/-!
# The debug allocator

In a `DEBUG` build `lsp_malloc` and `lsp_calloc` put a record of every block
on a list, and `lsp_free` searches that list.  It frees the record of its
block without taking it off the list, and goes on from the freed record.
-/

namespace Liblsp

open Base

/-- The addresses that list cells can have: the static head, and records on
the heap. -/
inductive BlockNode where
  | head
  | block (address : Nat)
  deriving DecidableEq

/-- `struct block` without its list cell. -/
structure Block where
  size : Nat
  ptr : Nat

/-- The memory of the allocator: the list cells, the other fields of a record
at every address, and the counter.  Beside it stands what the underlying
`malloc` has given out: the records, and the blocks of the callers with their
sizes.  A read of a record that is not given out is noted. -/
structure DebugMemory where
  links : Links BlockNode
  block : BlockNode → Block
  allocBytes : UInt32
  records : List Nat
  live : List (Nat × Nat)
  readFreed : Bool

/-- A call, with the addresses that `malloc` hands out, and what `free`
leaves in the list cells of the records it gets. -/
inductive MemoryCall where
  | malloc (len : Nat) (record ptr : Nat)
  | calloc (nmemb size : Nat) (record ptr : Nat)
  | free (ptr : Nat) (junk : Links BlockNode) (fuel : Nat)

namespace DebugMemory

/-- The stores of `lsp_malloc` and `lsp_calloc` to a new record. -/
def track (s : DebugMemory) (record ptr size : Nat) : DebugMemory :=
  { s with
    block := Function.update s.block (.block record) ⟨size, ptr⟩
    links := lspListAdd s.links (.block record) .head
    allocBytes := UInt32.ofNat (s.allocBytes.toNat + size)
    records := record :: s.records }

def lspMalloc (s : DebugMemory) (len record ptr : Nat) : DebugMemory :=
  let s := s.track record ptr len
  { s with live := (ptr, len) :: s.live }

def lspCalloc (s : DebugMemory) (nmemb size record ptr : Nat) :
    DebugMemory :=
  let s := s.track record ptr (wrapSize (nmemb * size))
  { s with live := (ptr, nmemb * size) :: s.live }

/-- Note a read of a record, unless the record is given out. -/
def readRecord (s : DebugMemory) : BlockNode → DebugMemory
  | .head => s
  | .block address =>
      { s with
        readFreed := s.readFreed || decide (address ∉ s.records) }

/-- `free` of a record. -/
def freeRecord (s : DebugMemory) (junk : Links BlockNode) :
    BlockNode → DebugMemory
  | .head => s
  | .block address =>
      { s with
        links := (s.links.setNext (.block address)
          (junk.next (.block address))).setPrev (.block address)
          (junk.prev (.block address))
        records := s.records.erase address }

/-- The body of the loop in `lsp_free`, and the read of the record's `next`
that follows it. -/
def freeBody (ptr : Nat) (junk : Links BlockNode) (s : DebugMemory)
    (b : BlockNode) : DebugMemory × Bool :=
  let s := s.readRecord b
  let s :=
    if (s.block b).ptr = ptr then
      { s with
        allocBytes := toUint32 (s.allocBytes.toNat - (s.block b).size)
          }.freeRecord junk b
    else s
  (s.readRecord b, false)

def lspFree (s : DebugMemory) (ptr : Nat) (junk : Links BlockNode)
    (fuel : Nat) : Option DebugMemory :=
  (lspListFor links .head (freeBody ptr junk) fuel s).map fun (s, _) =>
    { s with live := s.live.filter fun block => block.1 ≠ ptr }

def step (s : DebugMemory) : MemoryCall → Option DebugMemory
  | .malloc len record ptr => some (s.lspMalloc len record ptr)
  | .calloc nmemb size record ptr => some (s.lspCalloc nmemb size record ptr)
  | .free ptr junk fuel => s.lspFree ptr junk fuel

/-- The empty tracking list, with nothing allocated. -/
def initial (links : Links BlockNode) (block : BlockNode → Block) :
    DebugMemory where
  links := lspListHeadInit links .head
  block := block
  allocBytes := 0
  records := []
  live := []
  readFreed := false

/-- The addresses `malloc` may not hand out. -/
def inUse (s : DebugMemory) : List Nat :=
  s.records ++ s.live.map Prod.fst

/-- `malloc` hands out addresses that are not in use, `calloc` fails for a
product that overflows, and the callers free live blocks only. -/
def Allowed (s : DebugMemory) : MemoryCall → Prop
  | .malloc _ record ptr =>
      record ∉ s.inUse ∧ ptr ∉ s.inUse ∧ record ≠ ptr
  | .calloc nmemb size record ptr =>
      nmemb * size < 18446744073709551616 ∧
        record ∉ s.inUse ∧ ptr ∉ s.inUse ∧ record ≠ ptr
  | .free ptr _ _ => ptr ∈ s.live.map Prod.fst

instance (s : DebugMemory) : (call : MemoryCall) → Decidable (s.Allowed call)
  | .malloc .. => inferInstanceAs (Decidable (_ ∧ _ ∧ _))
  | .calloc .. => inferInstanceAs (Decidable (_ ∧ _ ∧ _ ∧ _))
  | .free .. => inferInstanceAs (Decidable (_ ∈ _))

/-- The pointer and the size in a record. -/
def entry (s : DebugMemory) (record : Nat) : Nat × Nat :=
  ((s.block (.block record)).ptr, (s.block (.block record)).size)

/-- The tracking list has one record for each live block, with its size, and
no other one; the counter is the sum of the sizes; and no freed record was
read. -/
structure Exact (s : DebugMemory) : Prop where
  tracked : ∃ records : List Nat,
    s.links.IsRing .head (records.map .block) ∧
      (records.map s.entry).Perm s.live
  bytes : s.allocBytes = UInt32.ofNat (s.live.map Prod.snd).sum
  unread : s.readFreed = false

end DebugMemory

/-- A call that allocates a block. -/
def MemoryCall.Allocates : MemoryCall → Prop
  | .malloc .. => True
  | .calloc .. => True
  | .free .. => False

namespace DebugMemory

/-- What holds as long as nothing is freed: the records are on the list in
the order of the live blocks. -/
structure Tracks (s : DebugMemory) : Prop where
  ring : s.links.IsRing .head (s.records.map .block)
  entries : s.records.map s.entry = s.live
  bytes : s.allocBytes = UInt32.ofNat (s.live.map Prod.snd).sum
  unread : s.readFreed = false

namespace Tracks

variable {s s' : DebugMemory}

theorem exact (tracks : s.Tracks) : s.Exact where
  tracked := ⟨s.records, tracks.ring, .of_eq tracks.entries⟩
  bytes := tracks.bytes
  unread := tracks.unread

theorem initial (links : Links BlockNode) (block : BlockNode → Block) :
    (initial links block).Tracks :=
  ⟨lspListHeadInit_ring links .head, rfl, rfl, rfl⟩

/-! ## Allocating -/

theorem track (tracks : s.Tracks) {record ptr size : Nat}
    (fresh : record ∉ s.inUse) :
    ({ s.track record ptr size with live := (ptr, size) :: s.live } :
      DebugMemory).Tracks := by
  have unknown : record ∉ s.records := by
    intro member
    exact fresh (List.mem_append_left _ member)
  have absent : BlockNode.block record ∉
      .head :: s.records.map BlockNode.block := by
    simp [unknown]
  refine ⟨lspListAdd_ring tracks.ring absent, ?_, ?_, tracks.unread⟩
  · have kept : s.records.map (s.track record ptr size).entry =
        s.records.map s.entry := by
      apply List.map_congr_left
      intro other member
      have different : other ≠ record := ne_of_mem_of_not_mem member unknown
      simp [entry, DebugMemory.track, different]
    have new : (s.track record ptr size).entry record = (ptr, size) := by
      simp [entry, DebugMemory.track]
    change (s.track record ptr size).entry record ::
      s.records.map (s.track record ptr size).entry = (ptr, size) :: s.live
    rw [kept, new, tracks.entries]
  · change UInt32.ofNat (s.allocBytes.toNat + size) =
      UInt32.ofNat (size + (s.live.map Prod.snd).sum)
    rw [tracks.bytes, ← UInt32.toNat_inj]
    simp only [UInt32.toNat_ofNat']
    omega

theorem step (tracks : s.Tracks) {call : MemoryCall}
    (allocates : call.Allocates) (allowed : s.Allowed call)
    (stepped : s.step call = some s') : s'.Tracks := by
  cases call with
  | malloc len record ptr =>
      cases stepped
      exact tracks.track allowed.1
  | calloc nmemb size record ptr =>
      cases stepped
      have exactSize := wrapSize_of_lt allowed.1
      simp only [lspCalloc]
      rw [exactSize]
      exact tracks.track allowed.2.1
  | free ptr junk fuel => exact absurd allocates id

/-! ## Freeing -/

theorem freeBody_other {ptr record : Nat} (junk : Links BlockNode)
    (member : record ∈ s.records) (other : (s.entry record).1 ≠ ptr) :
    freeBody ptr junk s (.block record) = (s, false) := by
  have read : s.readRecord (.block record) = s := by
    simp [readRecord, member]
  have test : ¬(s.block (.block record)).ptr = ptr := other
  simp only [freeBody, read, if_neg test]

theorem readRecord_noted (node : BlockNode)
    (noted : s.readFreed = true) : (s.readRecord node).readFreed = true := by
  cases node with
  | head => exact noted
  | block address => simp [readRecord, noted]

theorem freeRecord_noted (junk : Links BlockNode) (node : BlockNode)
    (noted : s.readFreed = true) :
    (s.freeRecord junk node).readFreed = true := by
  cases node with
  | head => exact noted
  | block address => exact noted

theorem freeBody_noted {ptr : Nat} {junk : Links BlockNode}
    (node : BlockNode) (noted : s.readFreed = true) :
    (freeBody ptr junk s node).1.readFreed = true := by
  have before := readRecord_noted node noted
  apply readRecord_noted
  split
  · exact freeRecord_noted junk node before
  · exact before

/-- The record of the block is read once more after it was freed. -/
theorem freeBody_own {ptr record : Nat} (junk : Links BlockNode)
    (distinct : s.records.Nodup) (own : (s.entry record).1 = ptr) :
    (freeBody ptr junk s (.block record)).1.readFreed = true := by
  have gone : record ∉ s.records.erase record :=
    distinct.not_mem_erase
  have test : (s.block (.block record)).ptr = ptr := own
  simp [freeBody, readRecord, freeRecord, test, gone]

theorem records_nodup (tracks : s.Tracks) : s.records.Nodup :=
  tracks.ring.members_nodup.of_map _

/-- The only record stays on the list when its block is freed. -/
theorem not_exact_of_single {ptr fuel : Nat} {junk : Links BlockNode}
    (tracks : s.Tracks) (single : s.records.length = 1)
    (live : ptr ∈ s.live.map Prod.fst)
    (freed : s.lspFree ptr junk fuel = some s') : ¬s'.Exact := by
  have invisible : visible (s.records.map BlockNode.block) = [] := by
    simp [visible, single]
  have loop := @lspListFor_of_invisible BlockNode DebugMemory _ .head
    (s.records.map .block) links (freeBody ptr junk) s tracks.ring invisible
    fuel
  rw [lspFree, loop] at freed
  cases freed
  intro exactly
  obtain ⟨members, ring, entries⟩ := exactly.tracked
  have same := tracks.ring.unique ring
  have one : s.live.length = 1 := by
    rw [← tracks.entries, List.length_map]
    exact single
  have none : (s.live.filter fun block => block.1 ≠ ptr) = [] := by
    obtain ⟨block, shape⟩ := List.length_eq_one_iff.mp one
    rw [shape] at live ⊢
    have own : block.1 = ptr := by simpa [eq_comm] using live
    simp [own]
  have lengths := entries.length_eq
  have counts := congrArg List.length same
  simp only [List.length_map, none, List.length_nil] at lengths counts
  omega

/-- Among several records the one of the block is found, freed and read. -/
theorem not_exact_of_several {ptr fuel : Nat} {junk : Links BlockNode}
    (tracks : s.Tracks) (several : s.records.length ≠ 1)
    (live : ptr ∈ s.live.map Prod.fst)
    (freed : s.lspFree ptr junk fuel = some s') : ¬s'.Exact := by
  rw [← tracks.entries, List.map_map] at live
  obtain ⟨some_record, member, own⟩ := List.mem_map.mp live
  have present : (s.records.find? fun record =>
      decide ((s.entry record).1 = ptr)).isSome := by
    rw [List.find?_isSome]
    exact ⟨some_record, member, decide_eq_true own⟩
  obtain ⟨record, first⟩ := Option.isSome_iff_exists.mp present
  obtain ⟨matched, before, after, split, earlier⟩ :=
    List.find?_eq_some_iff_append.mp first
  have quiet : ∀ other ∈ before.map BlockNode.block,
      freeBody ptr junk s other = (s, false) := by
    intro other inFront
    obtain ⟨address, place, rfl⟩ := List.mem_map.mp inFront
    apply freeBody_other
    · rw [split]
      exact List.mem_append_left _ place
    · simpa using earlier address place
  have noted := freeBody_own junk tracks.records_nodup
    (of_decide_eq_true matched)
  obtain ⟨⟨last, cursor⟩, looped, result⟩ := Option.map_eq_some_iff.mp freed
  have nodes : s.records.map BlockNode.block =
      before.map .block ++ .block record :: after.map .block := by
    rw [split, List.map_append, List.map_cons]
  have long : (s.records.map BlockNode.block).length ≠ 1 := by
    rw [List.length_map]
    exact several
  have seen := lspListFor_reaches (fun s => s.readFreed = true) tracks.ring
    long nodes quiet noted (fun _ => freeBody_noted) looped
  intro exactly
  have unread := exactly.unread
  rw [← result] at unread
  exact absurd (seen.symm.trans unread) (by decide)

theorem not_exact_of_free {ptr fuel : Nat} {junk : Links BlockNode}
    (tracks : s.Tracks) (live : ptr ∈ s.live.map Prod.fst)
    (freed : s.lspFree ptr junk fuel = some s') : ¬s'.Exact := by
  by_cases single : s.records.length = 1
  · exact tracks.not_exact_of_single single live freed
  · exact tracks.not_exact_of_several single live freed

end Tracks

/-! ## Histories -/

section Histories

variable {links : Links BlockNode} {block : BlockNode → Block}
  {calls : List MemoryCall} {s : DebugMemory}

theorem tracks_of_run
    (run : Run step Allowed (initial links block) calls s)
    (allocations : ∀ call ∈ calls, call.Allocates) : s.Tracks := by
  induction run with
  | nil => exact Tracks.initial links block
  | snoc _ allowed stepped induction =>
      have tracks := induction fun call member =>
        allocations call (List.mem_append_left _ member)
      exact tracks.step (allocations _ (by simp)) allowed stepped

/-- The accounting is exact after each call of a history exactly if nothing
is freed in it. -/
theorem exactThroughout_iff
    (run : Run step Allowed (initial links block) calls s) :
    (∀ before state, before <+: calls →
        Run step Allowed (initial links block) before state → state.Exact) ↔
      ∀ call ∈ calls, call.Allocates := by
  constructor
  · intro exactly
    induction run with
    | nil =>
        intro call member
        cases member
    | @snoc calls state next last run allowed stepped induction =>
        have earlier : ∀ call ∈ calls, call.Allocates := by
          apply induction
          intro before state' front reached
          exact exactly before state' (front.trans (List.prefix_append _ _))
            reached
        have tracks := tracks_of_run run earlier
        have whole := exactly _ next (List.prefix_refl _)
          (run.snoc allowed stepped)
        intro call member
        rcases List.mem_append.mp member with old | new
        · exact earlier call old
        · rw [List.mem_singleton.mp new]
          cases last with
          | malloc len record ptr => trivial
          | calloc nmemb size record ptr => trivial
          | free ptr junk fuel =>
              exact tracks.not_exact_of_free allowed stepped whole
  · intro allocations before state front reached
    apply Tracks.exact
    apply tracks_of_run reached
    intro call member
    exact allocations call (front.subset member)

end Histories

section Examples

/-- Memory without contents. -/
def emptyMemory : DebugMemory :=
  initial ⟨id, id⟩ fun _ => ⟨0, 0⟩

/-- Two blocks are allocated. -/
def twoAllocations : List MemoryCall :=
  [.malloc 16 1 2, .calloc 3 8 3 4]

theorem exactThroughout_twoAllocations :
    ∃ s, Run step Allowed emptyMemory twoAllocations s ∧
      s.live = [(4, 24), (2, 16)] ∧ s.allocBytes = 40 ∧
      ∀ before state, before <+: twoAllocations →
        Run step Allowed emptyMemory before state → state.Exact := by
  have executed :
      (execute step Allowed emptyMemory twoAllocations).map
        (fun s => (s.live, s.allocBytes)) =
        some ([(4, 24), (2, 16)], 40) := by
    decide
  obtain ⟨s, run, view⟩ := exists_run_of_execute executed
  simp only [Prod.mk.injEq] at view
  refine ⟨s, run, view.1, view.2, (exactThroughout_iff run).mpr ?_⟩
  intro call member
  rcases List.mem_cons.mp member with first | rest
  · rw [first]
    trivial
  · rw [List.mem_singleton.mp rest]
    trivial

/-- The only block is freed, and its 16 bytes stay in the counter; of two
blocks one is freed, and its record is read after it was freed. -/
theorem free_miscounts :
    (∃ s, Run step Allowed emptyMemory
        [.malloc 16 1 2, .free 2 ⟨id, id⟩ 5] s ∧
        s.live = [] ∧ s.allocBytes = 16 ∧ ¬s.Exact) ∧
      ∃ s, Run step Allowed emptyMemory
        [.malloc 16 1 2, .malloc 8 3 4, .free 2 ⟨fun _ => .head, id⟩ 5] s ∧
        s.readFreed = true ∧ ¬s.Exact := by
  constructor
  · have executed :
        (execute step Allowed emptyMemory
          [.malloc 16 1 2, .free 2 ⟨id, id⟩ 5]).map
          (fun s => (s.live, s.allocBytes)) = some ([], 16) := by
      decide
    obtain ⟨s, run, view⟩ := exists_run_of_execute executed
    simp only [Prod.mk.injEq] at view
    refine ⟨s, run, view.1, view.2, ?_⟩
    intro exactly
    have bytes := exactly.bytes
    rw [view.1, view.2] at bytes
    exact absurd bytes (by decide)
  · have executed :
        (execute step Allowed emptyMemory
          [.malloc 16 1 2, .malloc 8 3 4,
            .free 2 ⟨fun _ => .head, id⟩ 5]).map readFreed = some true := by
      decide
    obtain ⟨s, run, noted⟩ := exists_run_of_execute executed
    refine ⟨s, run, noted, ?_⟩
    intro exactly
    exact absurd (noted.symm.trans exactly.unread) (by decide)

end Examples

end DebugMemory

end Liblsp
