import Liblsp.Port

/-!
# Initialising the connection module

Success and failure of `lsp_conn_init` run through the same labels, which free
what was allocated, and nothing resets `conn_pool`.  So every call that gets
its first block ends with a pool that is gone and a pointer to it.
-/

namespace Liblsp

open Base

/-- What the `pthread` calls of `lsp_egroup_init` return, and what its
uninitialised `rc` holds. -/
structure EgroupInitAnswers where
  setclock : Int
  condInit : Int
  rc : Int

/-- `struct lsp_egroup_handle_s`, with what is initialised of it. -/
structure EgroupBlock where
  eventBits : UInt32
  condReady : Bool
  mutexReady : Bool

/-- A block after its `memset`. -/
def EgroupBlock.zero : EgroupBlock := ⟨0, false, false⟩

def lspEgroupInit (answers : EgroupInitAnswers) (egroup : EgroupBlock) :
    EgroupBlock × Int :=
  if answers.setclock ≠ 0 then (egroup, answers.rc)
  else if answers.condInit ≠ 0 then (egroup, answers.rc)
  else (⟨0, true, true⟩, answers.rc)

/-- A block of `count` items. -/
structure PoolBlock where
  address : Nat
  count : Nat
  deriving DecidableEq

/-- The static variables of the module with what they point to, the blocks
that a call has allocated and freed, and its `rc`.  An event group of the pool
is named by its index. -/
structure ConnInit where
  connPool : Option Nat
  egroupPool : Option Nat
  conns : Nat → LspConn
  egroups : Nat → EgroupBlock
  allocated : List PoolBlock
  freed : List Nat
  rc : Int

/-- What the calls in `lsp_conn_init` yield, and what its uninitialised `rc`
holds. -/
structure ConnInitAnswers where
  conns : Option Nat
  egroups : Option Nat
  inits : Nat → EgroupInitAnswers
  rc : Int

namespace ConnInit

/-- The module before a call. -/
def enter (connPool egroupPool : Option Nat) (conns : Nat → LspConn)
    (egroups : Nat → EgroupBlock) (rc : Int) : ConnInit :=
  { connPool := connPool
    egroupPool := egroupPool
    conns := conns
    egroups := egroups
    allocated := []
    freed := []
    rc := rc }

/-- The allocation of `conn_pool` and its `memset`. -/
def allocConns (s : ConnInit) (count : Nat) (block : Option Nat) :
    ConnInit :=
  match block with
  | none => { s with connPool := none }
  | some address =>
      { s with
        connPool := some address
        conns := fun i => if i < count then SocketLayer.clearedConn else s.conns i
        allocated := s.allocated ++ [⟨address, count⟩] }

/-- The allocation of `egroup_pool` and its `memset`. -/
def allocEgroups (s : ConnInit) (count : Nat) (block : Option Nat) :
    ConnInit :=
  match block with
  | none => { s with egroupPool := none }
  | some address =>
      { s with
        egroupPool := some address
        egroups := fun i => if i < count then .zero else s.egroups i
        allocated := s.allocated ++ [⟨address, count⟩] }

def lspFree (s : ConnInit) (block : Option Nat) : ConnInit :=
  { s with freed := s.freed ++ block.toList }

/-- The loop over the event groups, from index `i` on. -/
def initEgroups (inits : Nat → EgroupInitAnswers) :
    Nat → Nat → ConnInit → ConnInit
  | 0, _, s => s
  | left + 1, i, s =>
      let (egroup, rc) := lspEgroupInit (inits i) (s.egroups i)
      let s :=
        { s with egroups := Function.update s.egroups i egroup, rc := rc }
      if rc ≠ lspErrNone then s
      else
        initEgroups inits left (i + 1)
          { s with
            conns := Function.update s.conns i
              { s.conns i with egroup := some i } }

end ConnInit

/-- `lsp_conn_init`.  The assertion at its start ends in an endless loop. -/
def lspConnInit (connMax : UInt8) (egroupPool : Bool)
    (answers : ConnInitAnswers) (s : ConnInit) : Option ConnInit :=
  if s.connPool ≠ none then none
  else
    let s := s.allocConns connMax.toNat answers.conns
    if s.connPool = none then some { s with rc := -lspErrNomem }
    else if egroupPool then
      let s := s.allocEgroups connMax.toNat answers.egroups
      if s.egroupPool = none then
        some ({ s with rc := -lspErrNomem }.lspFree s.connPool)
      else
        let s := s.initEgroups answers.inits connMax.toNat 0
        some ((s.lspFree s.egroupPool).lspFree s.connPool)
    else some (s.lspFree s.connPool)

/-- Every allocation and every initialisation succeeds. -/
structure ConnInitAnswers.Succeed (answers : ConnInitAnswers)
    (connMax : UInt8) (egroupPool : Bool) : Prop where
  conns : answers.conns ≠ none
  egroups : egroupPool = true → answers.egroups ≠ none
  inits : egroupPool = true → ∀ i < connMax.toNat,
    (answers.inits i).setclock = 0 ∧ (answers.inits i).condInit = 0

namespace ConnInit

/-- A pointer to a block of the call that is still there. -/
def Live (s : ConnInit) (pointer : Option Nat) (count : Nat) : Prop :=
  ∃ address, pointer = some address ∧ ⟨address, count⟩ ∈ s.allocated ∧
    address ∉ s.freed

/-- The pool is there, free, and each slot has its event group. -/
structure Ready (s : ConnInit) (connMax : UInt8) (egroupPool : Bool) :
    Prop where
  conns : s.Live s.connPool connMax.toNat
  free : ∀ i < connMax.toNat, (s.conns i).state = .connFree
  egroups : egroupPool = true → s.Live s.egroupPool connMax.toNat
  own : egroupPool = true → ∀ i < connMax.toNat,
    (s.conns i).egroup = some i ∧ s.egroups i = ⟨0, true, true⟩

/-- Everything that was allocated is freed once, and the module can be
initialised again. -/
structure RolledBack (s : ConnInit) : Prop where
  pointer : s.connPool = none
  once : ∀ block ∈ s.allocated, s.freed.count block.address = 1

/-- The call succeeds and the pool is ready, or it fails and leaves nothing
behind. -/
structure AllOrNothing (s : ConnInit) (connMax : UInt8) (egroupPool : Bool)
    (answers : ConnInitAnswers) : Prop where
  none_iff : s.rc = lspErrNone ↔ answers.Succeed connMax egroupPool
  ready : s.rc = lspErrNone → s.Ready connMax egroupPool
  rolledBack : s.rc ≠ lspErrNone → s.RolledBack

theorem initEgroups_connPool (inits : Nat → EgroupInitAnswers)
    (left i : Nat) (s : ConnInit) :
    (s.initEgroups inits left i).connPool = s.connPool := by
  induction left generalizing i s with
  | zero => rfl
  | succ left ih =>
      rw [initEgroups]
      dsimp only
      split
      · rfl
      · exact ih _ _

theorem not_allOrNothing_of_freed {s : ConnInit} {address : Nat}
    (pointer : s.connPool = some address) (freed : address ∈ s.freed)
    (connMax : UInt8) (egroupPool : Bool) (answers : ConnInitAnswers) :
    ¬s.AllOrNothing connMax egroupPool answers := by
  intro either
  by_cases success : s.rc = lspErrNone
  · obtain ⟨address', same, _, live⟩ := (either.ready success).conns
    cases pointer.symm.trans same
    exact live freed
  · have reset := (either.rolledBack success).pointer
    cases pointer.symm.trans reset

theorem mem_freed_lspFree {s : ConnInit} {address : Nat}
    {pointer : Option Nat} (same : pointer = some address) :
    address ∈ (s.lspFree pointer).freed := by
  simp [lspFree, same]

end ConnInit

/-- A call that gets its first block frees it and keeps the pointer. -/
theorem lspConnInit_frees {s : ConnInit} (first : s.connPool = none)
    {answers : ConnInitAnswers} {address : Nat}
    (allocated : answers.conns = some address)
    (connMax : UInt8) (egroupPool : Bool) :
    ∃ s', lspConnInit connMax egroupPool answers s = some s' ∧
      s'.connPool = some address ∧ address ∈ s'.freed := by
  have notTwice : ¬s.connPool ≠ none := not_not.mpr first
  rw [lspConnInit, if_neg notTwice, allocated]
  cases egroupPool with
  | false => exact ⟨_, rfl, rfl, ConnInit.mem_freed_lspFree rfl⟩
  | true =>
      cases second : answers.egroups with
      | none => exact ⟨_, rfl, rfl, ConnInit.mem_freed_lspFree rfl⟩
      | some pool =>
          let before := (s.allocConns connMax.toNat
            (some address)).allocEgroups connMax.toNat (some pool)
          let after := before.initEgroups answers.inits connMax.toNat 0
          have kept : after.connPool = some address :=
            before.initEgroups_connPool answers.inits connMax.toNat 0
          exact ⟨_, rfl, kept, ConnInit.mem_freed_lspFree kept⟩

/-- A call that does not get its first block has nothing to roll back. -/
theorem lspConnInit_gives_up {s : ConnInit} (first : s.connPool = none)
    {answers : ConnInitAnswers} (refused : answers.conns = none)
    (connMax : UInt8) (egroupPool : Bool) :
    lspConnInit connMax egroupPool answers s =
      some { s with connPool := none, rc := -lspErrNomem } := by
  have notTwice : ¬s.connPool ≠ none := not_not.mpr first
  rw [lspConnInit, if_neg notTwice, refused]
  rfl

/-- Initialisation is all or nothing exactly when there is no memory for the
pool. -/
theorem allOrNothing_iff (connMax : UInt8) (egroupPool : Bool)
    (answers : ConnInitAnswers) (previous : Option Nat)
    (conns : Nat → LspConn) (egroups : Nat → EgroupBlock) :
    ∃ s, lspConnInit connMax egroupPool answers
        (.enter none previous conns egroups answers.rc) = some s ∧
      (s.AllOrNothing connMax egroupPool answers ↔ answers.conns = none) := by
  have first : (ConnInit.enter none previous conns egroups
      answers.rc).connPool = none := rfl
  cases pool : answers.conns with
  | none =>
      refine ⟨_, lspConnInit_gives_up first pool connMax egroupPool, ?_⟩
      have failed : -lspErrNomem ≠ lspErrNone := by decide
      refine iff_of_true ⟨?_, ?_, ?_⟩ rfl
      · refine iff_of_false failed ?_
        intro succeed
        exact succeed.conns pool
      · intro success
        exact absurd success failed
      · intro _
        refine ⟨rfl, ?_⟩
        intro block allocated
        cases allocated
  | some address =>
      obtain ⟨s, called, pointer, freed⟩ := lspConnInit_frees first pool
        connMax egroupPool
      refine ⟨s, called, iff_of_false ?_ ?_⟩
      · exact ConnInit.not_allOrNothing_of_freed pointer freed connMax
          egroupPool answers
      · intro none
        cases none

/-- Everything succeeds, and `rc` happens to hold `LSP_ERR_NONE`. -/
def everythingSucceeds : ConnInitAnswers :=
  { conns := some 7
    egroups := some 8
    inits := fun _ => ⟨0, 0, 0⟩
    rc := 0 }

/-- The call reports success and has freed the pool. -/
theorem everythingSucceeds_frees :
    ∃ s, lspConnInit 32 false everythingSucceeds
        (.enter none none (fun _ => SocketLayer.clearedConn)
          (fun _ => .zero) 0) = some s ∧
      s.rc = lspErrNone ∧ s.connPool = some 7 ∧ s.freed = [7] ∧
      ¬s.AllOrNothing 32 false everythingSucceeds := by
  refine ⟨_, rfl, rfl, rfl, rfl, ?_⟩
  exact ConnInit.not_allOrNothing_of_freed rfl (by decide) 32 false
    everythingSucceeds

end Liblsp
