import Liblsp.Base.Run
import Liblsp.Base.Threads
import Liblsp.ConnOwners
import Liblsp.Port
import Mathlib.Data.Fintype.Basic

/-!
# Threads on the connection pool

`lsp_conn_alloc` picks a slot under its mutex and marks it taken only after
the unlock.  `lsp_conn_free` runs without the mutex, and for a server again on
every child.  Here both run one statement after the other, in any number of
threads.
-/

namespace Liblsp

open Base

/-- How far `lsp_conn_alloc` is with its slot. -/
inductive AllocPoint where
  | picked
  | queued
  | grouped
  | marked
  deriving DecidableEq

/-- How far `lsp_conn_free` is with a connection, the part in
`lsp_conn_close` included. -/
inductive FreePoint where
  | entered
  | closing
  | marking
  | flushing
  | dropping
  | decided (rc : Int)
  | draining
  | freeing
  deriving DecidableEq

/-- Where a thread is.  The calls of `lsp_conn_free` that have not returned
form a stack, with the innermost one first. -/
inductive ConnPoint where
  | outside
  | allocating (slot : Nat) (point : AllocPoint)
  | freeing (frames : List (Nat × FreePoint))
  deriving DecidableEq

/-- The slot a thread has picked and not returned yet. -/
def ConnPoint.inFlight : ConnPoint → Option Nat
  | .allocating slot _ => some slot
  | _ => none

/-- The slot a thread has marked as taken and not returned yet. -/
def ConnPoint.isMarked : ConnPoint → Option Nat
  | .allocating slot .marked => some slot
  | _ => none

structure ConnThreads (Tid : Type) where
  conns : Nat → LspConn
  point : Tid → ConnPoint
  trace : List ConnEvent

inductive ConnAction (Tid : Type) where
  | scan (thread : Tid)
  | makeQueue (thread : Tid) (queue : Option Nat)
  | makeEgroup (thread : Tid) (egroup : Option Nat)
  | mark (thread : Tid)
  | finish (thread : Tid)
  | free (thread : Tid) (slot : Nat)
  | freeStep (thread : Tid) (junk : ConnJunk) (child : Option Nat)

/-- One statement of `lsp_conn_free` on a slot: its new contents, the calls
that take the place of this one, and whether the slot was set free.  The
queue of children yields `child`; without a result the program ends there. -/
def freeStatement (config : ConnConfig) (junk : ConnJunk)
    (child : Option Nat) (slot : Nat) (conn : LspConn) :
    FreePoint → Option (LspConn × List (Nat × FreePoint) × Bool)
  | .entered =>
      if conn.state ≠ .connClosed then
        some (conn, [(slot, .closing)], false)
      else some (conn, [(slot, .decided junk.rc)], false)
  | .closing =>
      if conn.state.code ≤ ConnState.connClosed.code then
        some (conn, [(slot, .decided lspErrNone)], false)
      else some (conn, [(slot, .marking)], false)
  | .marking =>
      some ({ conn with state := .connClosed }, [(slot, .flushing)], false)
  | .flushing =>
      if conn.rxQueue = none then
        some (conn, [(slot, .decided lspErrInvalid)], false)
      else some (conn, [(slot, .dropping)], false)
  | .dropping =>
      (conn.dropHandles config junk).map fun (conn, rc) =>
        (conn, [(slot, .decided rc)], false)
  | .decided rc =>
      if rc ≠ lspErrNone then some (conn, [], false)
      else if conn.type = connServer then
        some (conn, [(slot, .draining)], false)
      else some (conn, [(slot, .freeing)], false)
  | .draining =>
      match child with
      | some sock =>
          some (conn, [(sock, .entered), (slot, .draining)], false)
      | none => some (conn, [(slot, .freeing)], false)
  | .freeing => some ({ conn with state := .connFree }, [], true)

/-- Only the last statement sets a slot free. -/
theorem freeStatement_keeps {config : ConnConfig} {junk : ConnJunk}
    {child : Option Nat} {slot : Nat} {conn next : LspConn}
    {point : FreePoint} {calls : List (Nat × FreePoint)} {freed : Bool}
    (ran : freeStatement config junk child slot conn point =
      some (next, calls, freed))
    (early : point ≠ .freeing) :
    (next.state = .connFree → conn.state = .connFree) ∧ freed = false := by
  cases point with
  | entered =>
      simp only [freeStatement] at ran
      split at ran <;> cases ran <;> exact ⟨id, rfl⟩
  | closing =>
      simp only [freeStatement] at ran
      split at ran <;> cases ran <;> exact ⟨id, rfl⟩
  | marking =>
      cases ran
      exact ⟨(fun free => nomatch free), rfl⟩
  | flushing =>
      simp only [freeStatement] at ran
      split at ran <;> cases ran <;> exact ⟨id, rfl⟩
  | dropping =>
      obtain ⟨⟨dropped, rc⟩, drops, same⟩ := Option.map_eq_some_iff.mp ran
      cases same
      have state : next.state = conn.state :=
        LspConn.dropHandles_field (fun _ => rfl) (fun _ => rfl) drops
      rw [state]
      exact ⟨id, rfl⟩
  | decided rc =>
      simp only [freeStatement] at ran
      split at ran
      · cases ran
        exact ⟨id, rfl⟩
      · split at ran <;> cases ran <;> exact ⟨id, rfl⟩
  | draining =>
      cases child with
      | none =>
          cases ran
          exact ⟨id, rfl⟩
      | some sock =>
          cases ran
          exact ⟨id, rfl⟩
  | freeing => exact absurd rfl early

namespace ConnThreads

variable {Tid : Type}

/-- Nobody has called the pool yet. -/
def initial (conns : Nat → LspConn) : ConnThreads Tid :=
  { conns := conns
    point := fun _ => .outside
    trace := [] }

def setConn (s : ConnThreads Tid) (slot : Nat) (conn : LspConn) :
    ConnThreads Tid :=
  { s with conns := Function.update s.conns slot conn }

def emit (s : ConnThreads Tid) (event : ConnEvent) : ConnThreads Tid :=
  { s with trace := s.trace ++ [event] }

section Steps

variable [DecidableEq Tid]

def moveTo (s : ConnThreads Tid) (thread : Tid) (point : ConnPoint) :
    ConnThreads Tid :=
  { s with point := Function.update s.point thread point }

/-- One step of a thread.  A call of `lsp_conn_alloc` that gives up returns
`NULL`. -/
def step (config : ConnConfig) (s : ConnThreads Tid) :
    ConnAction Tid → Option (ConnThreads Tid)
  | .scan thread =>
      match s.point thread with
      | .outside =>
          match firstFree s.conns with
          | none => some s
          | some slot => some (s.moveTo thread (.allocating slot .picked))
      | _ => none
  | .makeQueue thread queue =>
      match s.point thread with
      | .allocating slot .picked =>
          let conn := (s.conns slot).ensureQueue queue
          if conn.rxQueue = none then
            some ((s.setConn slot conn).moveTo thread .outside)
          else
            some ((s.setConn slot conn).moveTo thread
              (.allocating slot .queued))
      | _ => none
  | .makeEgroup thread egroup =>
      match s.point thread with
      | .allocating slot .queued =>
          let conn := (s.conns slot).ensureEgroup config egroup
          if conn.lacksEgroup config then
            some ((s.setConn slot conn).moveTo thread .outside)
          else
            some ((s.setConn slot conn).moveTo thread
              (.allocating slot .grouped))
      | _ => none
  | .mark thread =>
      match s.point thread with
      | .allocating slot .grouped =>
          let conn := { s.conns slot with state := .connClosed }
          some ((s.setConn slot conn).moveTo thread
            (.allocating slot .marked))
      | _ => none
  | .finish thread =>
      match s.point thread with
      | .allocating slot .marked =>
          some (((s.setConn slot (s.conns slot).reset).emit
            (.returned slot)).moveTo thread .outside)
      | _ => none
  | .free thread slot =>
      match s.point thread with
      | .outside => some (s.moveTo thread (.freeing [(slot, .entered)]))
      | _ => none
  | .freeStep thread junk child =>
      match s.point thread with
      | .freeing [] => some (s.moveTo thread .outside)
      | .freeing ((slot, point) :: frames) =>
          (freeStatement config junk child slot (s.conns slot) point).map
            fun (conn, calls, freed) =>
              let s := s.setConn slot conn
              let s := if freed then s.emit (.freed slot) else s
              s.moveTo thread (.freeing (calls ++ frames))
      | _ => none

end Steps

/-- The slot that the next statement of a thread sets free. -/
def setsFree (s : ConnThreads Tid) (thread : Tid) : Option Nat :=
  match s.point thread with
  | .freeing ((slot, .freeing) :: _) => some slot
  | _ => none

/-- No scan picks a slot that some `lsp_conn_alloc` has picked and not
returned yet, and no call sets such a slot free once it is marked. -/
def LeavesInFlight (s : ConnThreads Tid) : ConnAction Tid → Prop
  | .scan _ => ∀ thread, (s.point thread).inFlight = none ∨
      (s.point thread).inFlight ≠ firstFree s.conns
  | .freeStep thread _ _ => ∀ other, (s.point other).isMarked = none ∨
      (s.point other).isMarked ≠ s.setsFree thread
  | _ => True

instance [Fintype Tid] (s : ConnThreads Tid) (action : ConnAction Tid) :
    Decidable (LeavesInFlight s action) :=
  match action with
  | .scan _ | .freeStep _ _ _ => inferInstanceAs (Decidable (∀ _, _ ∨ _))
  | .makeQueue _ _ | .makeEgroup _ _ | .mark _ | .finish _ | .free _ _ =>
      inferInstanceAs (Decidable True)

private theorem apart_of_none_or_ne {mine given : Option Nat} {slot : Nat}
    (different : mine = none ∨ mine ≠ given) (target : given = some slot) :
    mine ≠ some slot := by
  intro same
  rcases different with none | other
  · rw [none] at same
    cases same
  · rw [same, target] at other
    exact other rfl

/-- Slots in flight have one owner to be, and slots in the hands of callers
are not free. -/
structure OwnerInvariant (s : ConnThreads Tid) : Prop where
  apart : ∀ thread other slot, (s.point thread).inFlight = some slot →
    (s.point other).inFlight = some slot → thread = other
  unheld : ∀ thread slot, (s.point thread).inFlight = some slot →
    slot ∉ held s.trace
  taken : ∀ slot, slot ∈ held s.trace →
    (s.conns slot).state ≠ .connFree
  marked : ∀ thread slot, s.point thread = .allocating slot .marked →
    (s.conns slot).state ≠ .connFree
  sound : NeverTwoOwners s.trace

namespace OwnerInvariant

variable {s : ConnThreads Tid}

theorem setConn {slot : Nat} {conn : LspConn} (invariant : OwnerInvariant s)
    (state : conn.state = .connFree →
      (s.conns slot).state = .connFree) :
    OwnerInvariant (s.setConn slot conn) := by
  have kept : ∀ other, (s.conns other).state ≠ .connFree →
      ((s.setConn slot conn).conns other).state ≠ .connFree := by
    intro other taken
    by_cases same : other = slot
    · subst same
      simpa [ConnThreads.setConn] using mt state taken
    · simpa [ConnThreads.setConn, same] using taken
  constructor
  · exact invariant.apart
  · exact invariant.unheld
  · exact fun other member => kept other (invariant.taken other member)
  · exact fun thread other point =>
      kept other (invariant.marked thread other point)
  · exact invariant.sound

theorem frees {slot : Nat} (invariant : OwnerInvariant s)
    (alone : ∀ other, (s.point other).isMarked ≠ some slot) :
    OwnerInvariant ((s.setConn slot
      { s.conns slot with state := .connFree }).emit (.freed slot)) := by
  have others : ∀ place, place ≠ slot →
      ((s.setConn slot { s.conns slot with state := .connFree }).conns
        place) = s.conns place := by
    intro place different
    simp [ConnThreads.setConn, different]
  constructor
  · exact invariant.apart
  · intro other place picked member
    change place ∈ held (s.trace ++ [.freed slot]) at member
    rw [held_concat] at member
    exact invariant.unheld other place picked (List.mem_of_mem_filter member)
  · intro place member
    change place ∈ held (s.trace ++ [.freed slot]) at member
    rw [held_concat] at member
    obtain ⟨inHeld, different⟩ := List.mem_filter.mp member
    change ((s.setConn slot _).conns place).state ≠ _
    rw [others place (by simpa using different)]
    exact invariant.taken place inHeld
  · intro other place isMarked
    have different : place ≠ slot := by
      intro same
      apply alone other
      change s.point other = _ at isMarked
      rw [isMarked, same]
      rfl
    change ((s.setConn slot _).conns place).state ≠ _
    rw [others place different]
    exact invariant.marked other place isMarked
  · exact invariant.sound.freed slot

variable [DecidableEq Tid]

theorem moveTo {thread : Tid} {point : ConnPoint}
    (invariant : OwnerInvariant s)
    (flight : point.inFlight = none ∨
      point.inFlight = (s.point thread).inFlight)
    (marked : ∀ slot, point = .allocating slot .marked →
      (s.conns slot).state ≠ .connFree) :
    OwnerInvariant (s.moveTo thread point) := by
  constructor
  · intro one other slot pickedOne pickedOther
    exact invariant.apart one other slot (seen_of_kept flight pickedOne)
      (seen_of_kept flight pickedOther)
  · intro other slot picked
    exact invariant.unheld other slot (seen_of_kept flight picked)
  · exact invariant.taken
  · intro other slot isMarked
    rcases point_cases isMarked with ⟨_, new⟩ | ⟨_, old⟩
    · exact marked slot new
    · exact invariant.marked other slot old
  · exact invariant.sound

/-- A slot in flight was given a handle, or the thread gives up for want of
one. -/
theorem ensures {s' : ConnThreads Tid} {thread : Tid} {slot : Nat}
    {conn : LspConn} {here next : AllocPoint} {gaveUp : Prop}
    [Decidable gaveUp]
    (invariant : OwnerInvariant s)
    (current : s.point thread = .allocating slot here)
    (state : conn.state = (s.conns slot).state)
    (stepped : (if gaveUp then
        some ((s.setConn slot conn).moveTo thread .outside)
      else some ((s.setConn slot conn).moveTo thread
        (.allocating slot next))) = some s')
    (unmarked : next ≠ .marked) : OwnerInvariant s' := by
  have stored : OwnerInvariant (s.setConn slot conn) :=
    invariant.setConn (fun free => state.symm.trans free)
  split at stepped
  · rw [← Option.some.inj stepped]
    exact stored.moveTo (.inl rfl) (fun _ marked => nomatch marked)
  · rw [← Option.some.inj stepped]
    apply stored.moveTo
    · exact .inr (congrArg ConnPoint.inFlight current).symm
    · intro other marked
      exact absurd (ConnPoint.allocating.inj marked).2 unmarked

theorem picks {thread : Tid} {slot : Nat} (invariant : OwnerInvariant s)
    (free : (s.conns slot).state = .connFree)
    (alone : ∀ other, (s.point other).inFlight ≠ some slot) :
    OwnerInvariant (s.moveTo thread (.allocating slot .picked)) := by
  constructor
  · apply apart_update invariant.apart
    intro place picked other _
    rw [← picked]
    exact alone other
  · intro other place picked member
    rcases seen_cases ConnPoint.inFlight picked with ⟨_, new⟩ | ⟨_, old⟩
    · cases new
      exact invariant.taken slot member free
    · exact invariant.unheld other place old member
  · exact invariant.taken
  · intro other place isMarked
    rcases point_cases isMarked with ⟨_, new⟩ | ⟨_, old⟩
    · cases new
    · exact invariant.marked other place old
  · exact invariant.sound

theorem returns {thread : Tid} {slot : Nat} (invariant : OwnerInvariant s)
    (isMarked : s.point thread = .allocating slot .marked) :
    OwnerInvariant ((s.emit (.returned slot)).moveTo thread .outside) := by
  have mine : (s.point thread).inFlight = some slot := by
    rw [isMarked]
    rfl
  have hidden : ConnPoint.inFlight .outside = none := rfl
  have free := invariant.unheld thread slot mine
  have heldAfter : held (s.trace ++ [.returned slot]) =
      slot :: held s.trace := held_concat _ _
  constructor
  · intro one other place pickedOne pickedOther
    exact invariant.apart one other place (seen_of_hidden hidden pickedOne).2
      (seen_of_hidden hidden pickedOther).2
  · intro other place picked member
    obtain ⟨different, old⟩ := seen_of_hidden hidden picked
    rcases List.mem_cons.mp (heldAfter ▸ member) with same | inHeld
    · rw [same] at old
      exact different (invariant.apart other thread slot old mine)
    · exact invariant.unheld other place old inHeld
  · intro place member
    rcases List.mem_cons.mp (heldAfter ▸ member) with same | inHeld
    · rw [same]
      exact invariant.marked thread slot isMarked
    · exact invariant.taken place inHeld
  · intro other place nowMarked
    rcases point_cases nowMarked with ⟨_, new⟩ | ⟨_, old⟩
    · cases new
    · exact invariant.marked other place old
  · exact invariant.sound.returned free

end OwnerInvariant

theorem ownerInvariant_initial (conns : Nat → LspConn) :
    OwnerInvariant (@initial Tid conns) := by
  constructor
  · exact fun _ _ _ picked => nomatch picked
  · exact fun _ _ picked => nomatch picked
  · exact fun _ member => nomatch member
  · exact fun _ _ point => nomatch point
  · exact neverTwoOwners_nil

section Runs

variable [DecidableEq Tid] {s s' : ConnThreads Tid} {config : ConnConfig}

theorem OwnerInvariant.freeStep {thread : Tid} {junk : ConnJunk}
    {child : Option Nat} (invariant : OwnerInvariant s)
    (leaves : LeavesInFlight s (.freeStep thread junk child))
    (stepped : s.step config (.freeStep thread junk child) = some s') :
    OwnerInvariant s' := by
  simp only [step] at stepped
  split at stepped
  · rw [← Option.some.inj stepped]
    exact invariant.moveTo (.inl rfl) (fun _ marked => nomatch marked)
  · rename_i slot point frames current
    obtain ⟨⟨conn, calls, freed⟩, ran, same⟩ :=
      Option.map_eq_some_iff.mp stepped
    rw [← same]
    apply OwnerInvariant.moveTo
    · by_cases last : point = .freeing
      · subst point
        cases ran
        apply invariant.frees
        intro other
        apply apart_of_none_or_ne (leaves other)
        simp only [setsFree, current]
      · obtain ⟨state, quiet⟩ := freeStatement_keeps ran last
        subst quiet
        exact invariant.setConn state
    · exact .inl rfl
    · exact fun _ marked => nomatch marked
  · simp at stepped

/-- A step that leaves the slots in flight alone keeps the invariant. -/
theorem OwnerInvariant.step {action : ConnAction Tid}
    (invariant : OwnerInvariant s) (leaves : LeavesInFlight s action)
    (stepped : s.step config action = some s') : OwnerInvariant s' := by
  cases action with
  | scan thread =>
      simp only [ConnThreads.step] at stepped
      split at stepped
      · split at stepped
        · rw [← Option.some.inj stepped]
          exact invariant
        · rename_i slot found
          rw [← Option.some.inj stepped]
          exact invariant.picks (state_of_firstFree found)
            (fun other => apart_of_none_or_ne (leaves other) found)
      · simp at stepped
  | makeQueue thread queue =>
      simp only [ConnThreads.step] at stepped
      split at stepped
      · rename_i slot current
        exact invariant.ensures current (LspConn.ensureQueue_state _ _)
          stepped nofun
      · simp at stepped
  | makeEgroup thread egroup =>
      simp only [ConnThreads.step] at stepped
      split at stepped
      · rename_i slot current
        exact invariant.ensures current (LspConn.ensureEgroup_state _ _ _)
          stepped nofun
      · simp at stepped
  | mark thread =>
      simp only [ConnThreads.step] at stepped
      split at stepped
      · rename_i slot current
        have stored : OwnerInvariant (s.setConn slot
            { s.conns slot with state := .connClosed }) :=
          invariant.setConn (fun free => nomatch free)
        rw [← Option.some.inj stepped]
        apply stored.moveTo
        · exact .inr (congrArg ConnPoint.inFlight current).symm
        · intro other marked
          obtain ⟨same, _⟩ := ConnPoint.allocating.inj marked
          subst other
          simp [ConnThreads.setConn]
      · simp at stepped
  | finish thread =>
      simp only [ConnThreads.step] at stepped
      split at stepped
      · rename_i slot current
        have stored : OwnerInvariant (s.setConn slot
            (s.conns slot).reset) :=
          invariant.setConn (by simp)
        rw [← Option.some.inj stepped]
        exact stored.returns current
      · simp at stepped
  | free thread slot =>
      simp only [ConnThreads.step] at stepped
      split at stepped
      · rw [← Option.some.inj stepped]
        exact invariant.moveTo (.inl rfl) (fun _ marked => nomatch marked)
      · simp at stepped
  | freeStep thread junk child => exact invariant.freeStep leaves stepped

theorem OwnerInvariant.of_run {conns : Nat → LspConn}
    {actions : List (ConnAction Tid)}
    (run : Run (ConnThreads.step config) LeavesInFlight (initial conns)
      actions s) : OwnerInvariant s := by
  apply run.invariant (ownerInvariant_initial conns)
  intro state action next invariant leaves stepped
  exact invariant.step leaves stepped

/-- No slot has two owners in a run that leaves the slots in flight alone. -/
theorem neverTwoOwners_of_run {conns : Nat → LspConn}
    {actions : List (ConnAction Tid)}
    (run : Run (ConnThreads.step config) LeavesInFlight (initial conns)
      actions s) : NeverTwoOwners s.trace :=
  (OwnerInvariant.of_run run).sound

end Runs

section Examples

/-- A thread allocates a connection in a pool without event groups. -/
def allocate (thread : Fin 3) (queue : Option Nat) :
    List (ConnAction (Fin 3)) :=
  [.makeQueue thread queue, .makeEgroup thread none, .mark thread,
    .finish thread]

/-- The connections of the tests take their event groups from the pool. -/
def pooled : ConnConfig :=
  { egroupPool := true
    persistentRxqueue := false }

def junk : ConnJunk :=
  { rc := 0
    queueDestroyed := 0
    egroupDestroyed := 0 }

/-- One thread allocates the first connection, the other one waits until it
is free again. -/
def oneAfterTheOther : List (ConnAction (Fin 3)) :=
  .scan 0 :: allocate 0 (some 5) ++
    [.free 0 0, .freeStep 0 junk none, .freeStep 0 junk none,
      .freeStep 0 junk none, .freeStep 0 junk none, .scan 1] ++
    allocate 1 none

theorem neverTwoOwners_of_oneAfterTheOther :
    ∃ s, Run (step pooled) LeavesInFlight
        (initial fun _ => SocketLayer.clearedConn) oneAfterTheOther s ∧
      s.trace = [.returned 0, .freed 0, .returned 0] ∧
      NeverTwoOwners s.trace := by
  have executed :
      (execute (step pooled) LeavesInFlight
        (initial fun _ => SocketLayer.clearedConn)
        oneAfterTheOther).map ConnThreads.trace =
          some [.returned 0, .freed 0, .returned 0] := by
    decide
  obtain ⟨s, run, view⟩ := exists_run_of_execute executed
  exact ⟨s, run, view, neverTwoOwners_of_run run⟩

/-- Two threads scan before either has marked its slot. -/
def scanTwice : List (ConnAction (Fin 3)) :=
  .scan 0 :: .scan 1 :: allocate 0 (some 5) ++ allocate 1 (some 6)

/-- The first connection goes to both of them. -/
theorem scanTwice_two_owners :
    ∃ s, Run (step pooled) Anywhere
        (initial fun _ => SocketLayer.clearedConn) scanTwice s ∧
      s.trace = [.returned 0, .returned 0] ∧
      ¬NeverTwoOwners s.trace := by
  have executed :
      (execute (step pooled) Anywhere
        (initial fun _ => SocketLayer.clearedConn)
        scanTwice).map ConnThreads.trace =
          some [.returned 0, .returned 0] := by
    decide
  obtain ⟨s, run, view⟩ := exists_run_of_execute executed
  refine ⟨s, run, view, ?_⟩
  intro sound
  have distinct := sound.distinct
  rw [view] at distinct
  revert distinct
  decide

end Examples

end ConnThreads

end Liblsp
