import Liblsp.Port

/-!
# The pool that allocation uses

`lsp_conn_init` allocates `conn_max` slots of the configuration, and
`lsp_conn_alloc` scans `LSP_DEFAULT_MAX_CONNECTIONS` of them.  The scan stays
in a smaller pool only as long as a slot is free, and it never sees the rest
of a larger one.
-/

namespace Liblsp

open Base

/-! ## The configuration -/

def lspErrAddrInvalid : Int := 31

/-- `LSP_PACKET_ADDR_MAX`. -/
def lspPacketAddrMax : Nat := 65535

/-- `lsp_conf_t`. -/
structure LspConf where
  addr : UInt16
  hostname : Option String
  machinename : Option String
  rev : Option String
  connMax : UInt8
  connQueuelen : UInt8

/-- The value of `_lsp_conf` before any call. -/
def defaultConf : LspConf :=
  { addr := 0xAE55
    hostname := some "LSP Hostname"
    machinename := some "LSP Machinename"
    rev := some "LSP Revision"
    connMax := 32
    connQueuelen := 4 }

/-- `lsp_conf_init`, given `_lsp_conf`. -/
def lspConfInit (current : LspConf) : Option LspConf → LspConf × Int
  | none => (current, lspErrNone)
  | some conf =>
      if conf.addr.toNat > lspPacketAddrMax then (current, lspErrAddrInvalid)
      else
        ({ addr := conf.addr
           hostname := conf.hostname
           machinename := conf.machinename
           rev := conf.rev
           connMax := conf.connMax
           connQueuelen := conf.connQueuelen }, lspErrNone)

/-- No configuration is refused: an address has no more bits than a packet
has for it. -/
theorem lspConfInit_accepts (current : LspConf) (conf : Option LspConf) :
    lspConfInit current conf = (conf.getD current, lspErrNone) := by
  cases conf with
  | none => rfl
  | some conf =>
      have inRange : ¬conf.addr.toNat > lspPacketAddrMax :=
        Nat.not_lt.mpr (Nat.le_of_lt_succ conf.addr.toNat_lt)
      rw [lspConfInit, if_neg inRange]
      rfl

/-! ## The scan -/

/-- The slots that the scan of `lsp_conn_alloc` reads, from index `i` on. -/
def scanFrom (conns : Nat → LspConn) : Nat → Nat → List Nat
  | 0, _ => []
  | count + 1, i =>
      i :: if (conns i).state = .connFree then [] else
        scanFrom conns count (i + 1)

/-- The slots that `lsp_conn_alloc` reads. -/
def slotsRead (conns : Nat → LspConn) : List Nat :=
  scanFrom conns lspDefaultMaxConnections 0

section Scan

variable {conns : Nat → LspConn} {i : Nat}

theorem mem_scanFrom {count start : Nat} :
    i ∈ scanFrom conns count start ↔
      start ≤ i ∧ i < start + count ∧
        ∀ j, start ≤ j → j < i → (conns j).state ≠ .connFree := by
  induction count generalizing start with
  | zero =>
      simp only [scanFrom, List.not_mem_nil, false_iff]
      omega
  | succ count ih =>
      rw [scanFrom, List.mem_cons]
      constructor
      · rintro (first | later)
        · subst first
          exact ⟨Nat.le_refl _, by omega, by omega⟩
        · split at later
          · cases later
          · rename_i used
            obtain ⟨above, below, unfree⟩ := ih.mp later
            refine ⟨by omega, by omega, ?_⟩
            intro j from_start before
            rcases Nat.eq_or_lt_of_le from_start with same | after
            · rw [← same]
              exact used
            · exact unfree j after before
      · rintro ⟨above, below, unfree⟩
        rcases Nat.eq_or_lt_of_le above with same | after
        · exact .inl same.symm
        · right
          rw [if_neg (unfree start (Nat.le_refl _) after)]
          apply ih.mpr
          refine ⟨after, by omega, ?_⟩
          intro j from_next before
          exact unfree j (by omega) before

theorem mem_slotsRead :
    i ∈ slotsRead conns ↔ i < lspDefaultMaxConnections ∧
      ∀ j < i, (conns j).state ≠ .connFree := by
  rw [slotsRead, mem_scanFrom]
  simp

theorem firstFree_eq_some :
    firstFree conns = some i ↔
      (conns i).state = .connFree ∧ i ∈ slotsRead conns := by
  rw [firstFree, List.find?_range_eq_some, mem_slotsRead]
  simp

theorem firstFree_eq_none :
    firstFree conns = none ↔
      ∀ i < lspDefaultMaxConnections, (conns i).state ≠ .connFree := by
  rw [firstFree, List.find?_range_eq_none]
  simp

end Scan

/-! ## Allocation from a pool -/

/-- Allocation stays inside the pool, finds every free slot of it, and
changes no slot's state when it fails. -/
structure UsesPool (config : ConnConfig) (connMax : Nat) (w : SocketLayer) :
    Prop where
  reads : ∀ i ∈ slotsRead w.conns, i < connMax
  writes : ∀ answers w' sock,
    w.lspConnAlloc config answers = some (w', sock) →
      ∀ i, w'.conns i ≠ w.conns i → i < connMax
  full_iff : ∀ answers w' sock,
    w.lspConnAlloc config answers = some (w', sock) →
      answers.queue ≠ none → answers.egroup ≠ none →
        (sock = none ↔ ∀ i < connMax, (w.conns i).state ≠ .connFree)
  kept : ∀ answers w',
    w.lspConnAlloc config answers = some (w', none) →
      ∀ i, (w'.conns i).state = (w.conns i).state

/-- A slot is free where the scan gets to it, or the pool is as large as the
scan and has no free slot behind it. -/
def FreeInReach (connMax : Nat) (conns : Nat → LspConn) : Prop :=
  (∃ i < connMax, i < lspDefaultMaxConnections ∧
      (conns i).state = .connFree) ∨
    (lspDefaultMaxConnections ≤ connMax ∧
      ∀ i < connMax, lspDefaultMaxConnections ≤ i →
        (conns i).state ≠ .connFree)

namespace SocketLayer

variable {w w' : SocketLayer} {config : ConnConfig} {answers : AllocAnswers}
  {sock : Option Nat}

theorem ensureQueue_rxQueue {i : Nat} {queue : Option Nat}
    (answered : queue ≠ none) (ensured : w.ensureQueue i queue = some w') :
    (w'.conns i).rxQueue ≠ none := by
  unfold ensureQueue at ensured
  split at ensured
  · rename_i absent
    obtain ⟨⟨created, handle⟩, creates, same⟩ :=
      Option.map_eq_some_iff.mp ensured
    cases queue with
    | none => exact absurd rfl answered
    | some queue =>
        simp only [createQueue] at creates
        split at creates
        · cases creates
          rw [← same]
          simp [modifyConn, setConn, setQueue, LspConn.ensureQueue, absent]
        · cases creates
  · rename_i present
    cases ensured
    exact present

theorem ensureQueue_conns {i : Nat} {queue : Option Nat}
    (ensured : w.ensureQueue i queue = some w') {other : Nat}
    (different : other ≠ i) : w'.conns other = w.conns other := by
  rcases ensureQueue_cases ensured with same | ⟨handle, _, _, created⟩
  · rw [same]
  · simp [created, modifyConn, setConn, setQueue, different]

theorem ensureQueue_state {i : Nat} {queue : Option Nat}
    (ensured : w.ensureQueue i queue = some w') (other : Nat) :
    (w'.conns other).state = (w.conns other).state := by
  rcases ensureQueue_cases ensured with same | ⟨handle, _, _, created⟩
  · rw [same]
  · rw [created]
    exact modifyConn_field LspConn.state rfl other

theorem lspConnAlloc_writes
    (allocated : w.lspConnAlloc config answers = some (w', sock)) {i : Nat}
    (changed : w'.conns i ≠ w.conns i) : firstFree w.conns = some i := by
  rcases lspConnAlloc_cases allocated with
    ⟨_, same⟩ | ⟨first, ready, found, ensured, result⟩
  · rw [same] at changed
    exact absurd rfl changed
  · by_cases here : i = first
    · rw [here]
      exact found
    · have before := ensureQueue_conns ensured here
      refine absurd ?_ changed
      rw [← before]
      rcases result with ⟨_, same | same⟩ | ⟨_, _, same⟩
      · rw [same]
      · simp [same, modifyConn, setConn, here]
      · simp [same, modifyConn, setConn, here]

theorem lspConnAlloc_kept
    (failed : w.lspConnAlloc config answers = some (w', none)) (i : Nat) :
    (w'.conns i).state = (w.conns i).state := by
  rcases lspConnAlloc_cases failed with
    ⟨_, same⟩ | ⟨first, ready, _, ensured, result⟩
  · rw [same]
  · rw [← ensureQueue_state ensured i]
    rcases result with ⟨_, same | same⟩ | ⟨found, _⟩
    · rw [same]
    · rw [same]
      exact modifyConn_field LspConn.state (by simp) i
    · cases found

theorem lspConnAlloc_of_answers
    (allocated : w.lspConnAlloc config answers = some (w', sock))
    (queue : answers.queue ≠ none) (egroup : answers.egroup ≠ none) :
    sock = firstFree w.conns := by
  unfold lspConnAlloc at allocated
  split at allocated
  · rename_i none_free
    cases allocated
    exact none_free.symm
  · rename_i first found
    obtain ⟨ready, ensured, result⟩ := Option.map_eq_some_iff.mp allocated
    rw [if_neg (ensureQueue_rxQueue queue ensured)] at result
    have grouped : ((ready.conns first).ensureEgroup config
        answers.egroup).lacksEgroup config = false := by
      cases pooled : config.egroupPool with
      | true => simp [LspConn.lacksEgroup, pooled]
      | false =>
          by_cases absent : (ready.conns first).egroup = none
          · simp [LspConn.lacksEgroup, LspConn.ensureEgroup, pooled, absent,
              egroup]
          · simp [LspConn.lacksEgroup, LspConn.ensureEgroup, pooled, absent]
    simp only [grouped, Bool.false_eq_true, if_false] at result
    cases result
    exact found.symm

end SocketLayer

section Pools

variable {connMax : Nat} {w : SocketLayer}

/-- The scan stays in the pool if it meets a free slot or is no longer. -/
theorem slotsRead_inside_iff :
    (∀ i ∈ slotsRead w.conns, i < connMax) ↔
      (∃ i < connMax, i < lspDefaultMaxConnections ∧
          (w.conns i).state = .connFree) ∨
        lspDefaultMaxConnections ≤ connMax := by
  constructor
  · intro inside
    by_contra outside
    obtain ⟨noFree, smaller⟩ := not_or.mp outside
    have read : connMax ∈ slotsRead w.conns := by
      refine mem_slotsRead.mpr ⟨Nat.lt_of_not_le smaller, ?_⟩
      intro j before free
      exact noFree ⟨j, before, by omega, free⟩
    exact Nat.lt_irrefl _ (inside connMax read)
  · rintro (⟨free, inPool, inScan, isFree⟩ | larger) i read
    · have upTo : i ≤ free := by
        apply Nat.le_of_not_lt
        intro before
        exact (mem_slotsRead.mp read).2 free before isFree
      omega
    · exact Nat.lt_of_lt_of_le (mem_slotsRead.mp read).1 larger

theorem slotsRead_inside_of_reach (reach : FreeInReach connMax w.conns) :
    ∀ i ∈ slotsRead w.conns, i < connMax := by
  apply slotsRead_inside_iff.mpr
  rcases reach with free | ⟨larger, _⟩
  · exact .inl free
  · exact .inr larger

theorem firstFree_eq_none_of_reach (reach : FreeInReach connMax w.conns) :
    firstFree w.conns = none ↔
      ∀ i < connMax, (w.conns i).state ≠ .connFree := by
  rw [firstFree_eq_none]
  rcases reach with ⟨free, inPool, inScan, isFree⟩ | ⟨larger, behind⟩
  · refine iff_of_false ?_ ?_
    · intro none_free
      exact none_free free inScan isFree
    · intro none_free
      exact none_free free inPool isFree
  · constructor
    · intro none_free i inPool
      by_cases inScan : i < lspDefaultMaxConnections
      · exact none_free i inScan
      · exact behind i inPool (Nat.le_of_not_lt inScan)
    · intro none_free i inScan
      exact none_free i (Nat.lt_of_lt_of_le inScan larger)

theorem UsesPool.full {config : ConnConfig} (uses : UsesPool config connMax w)
    (none_free : firstFree w.conns = none) :
    ∀ i < connMax, (w.conns i).state ≠ .connFree := by
  have fails : w.lspConnAlloc config ⟨some 0, some 0⟩ = some (w, none) := by
    simp [SocketLayer.lspConnAlloc, none_free]
  exact (uses.full_iff _ _ _ fails (by simp) (by simp)).mp rfl

/-- Allocation uses the configured pool exactly when a slot is free in reach
of its scan. -/
theorem usesPool_iff (current : LspConf) (conf : Option LspConf)
    (config : ConnConfig) (w : SocketLayer) :
    UsesPool config (lspConfInit current conf).1.connMax.toNat w ↔
      FreeInReach (lspConfInit current conf).1.connMax.toNat w.conns := by
  generalize (lspConfInit current conf).1.connMax.toNat = connMax
  constructor
  · intro uses
    rcases slotsRead_inside_iff.mp uses.reads with free | larger
    · exact .inl free
    · by_cases none_free : firstFree w.conns = none
      · right
        refine ⟨larger, ?_⟩
        intro i inPool _
        exact uses.full none_free i inPool
      · left
        obtain ⟨first, found⟩ := Option.ne_none_iff_exists'.mp none_free
        obtain ⟨free, read⟩ := firstFree_eq_some.mp found
        exact ⟨first, uses.reads first read, (mem_slotsRead.mp read).1, free⟩
  · intro reach
    have inside := slotsRead_inside_of_reach reach
    constructor
    · exact inside
    · intro answers w' sock allocated i changed
      have found := SocketLayer.lspConnAlloc_writes allocated changed
      exact inside i (firstFree_eq_some.mp found).2
    · intro answers w' sock allocated queue egroup
      rw [SocketLayer.lspConnAlloc_of_answers allocated queue egroup]
      exact firstFree_eq_none_of_reach reach
    · intro answers w' failed i
      exact SocketLayer.lspConnAlloc_kept failed i

end Pools

section Examples

/-- A pool whose first `used` slots are in use. -/
def usedSlots (used : Nat) : SocketLayer :=
  { conns := fun i =>
      if i < used then
        { SocketLayer.clearedConn with state := .connClosed }
      else SocketLayer.clearedConn
    links := ⟨id, id⟩
    ports := fun _ => .portClosed
    queues := fun _ => none }

def confOfSize (connMax : UInt8) : Option LspConf :=
  some { defaultConf with connMax := connMax }

/-- The scan of a full pool of two reads, and hands out, the slot behind it;
the scan of a pool of forty overlooks its last eight slots. -/
theorem usesPool_fails_twice :
    (firstFree (usedSlots 2).conns = some 2 ∧
        ¬UsesPool ⟨true, false⟩
          (lspConfInit defaultConf (confOfSize 2)).1.connMax.toNat
          (usedSlots 2)) ∧
      (firstFree (usedSlots 32).conns = none ∧
        ((usedSlots 32).conns 32).state = .connFree ∧
        ¬UsesPool ⟨true, false⟩
          (lspConfInit defaultConf (confOfSize 40)).1.connMax.toNat
          (usedSlots 32)) := by
  have small : firstFree (usedSlots 2).conns = some 2 := by decide
  have large : firstFree (usedSlots 32).conns = none := by decide
  refine ⟨⟨small, ?_⟩, large, by decide, ?_⟩
  · intro uses
    have inside := uses.reads 2 (firstFree_eq_some.mp small).2
    exact absurd inside (by decide)
  · intro uses
    exact uses.full large 32 (by decide) (by decide)

end Examples

end Liblsp
