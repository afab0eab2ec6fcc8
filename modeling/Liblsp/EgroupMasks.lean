import Liblsp.Base.Threads
import Liblsp.EgroupThreads
import Mathlib.Data.List.Basic

/-!
# The view of a waiter with its own mask

A waiter that clears only its own bits looks at no other bit.  Its view of an
event group has its bits and nobody else blocked; its own sections and the
sets do to the view what they do to the group, and waiters with other bits do
nothing to it.
-/

namespace Liblsp

open Base

variable {Tid : Type}

namespace EgroupAction

/-- The thread whose wait an action starts or continues. -/
def waiter : EgroupAction Tid → Option Tid
  | .wait thread .. => some thread
  | .waitLockFails thread _ => some thread
  | .resume thread .. => some thread
  | .set .. | .setLockFails _ => none

/-- What an action is to one waiter and its mask. -/
def restrict [DecidableEq Tid] (thread : Tid) (mask : UInt32) :
    EgroupAction Tid → Option (EgroupAction Tid)
  | .set setter bits => some (.set setter (bits &&& mask))
  | action => if action.waiter = some thread then some action else none

end EgroupAction

namespace EgroupThreads

/-- Every waiter waits for its own mask, without a timeout, clears only that
mask, and gets its lock and its wakeups. -/
def MaskedCalls (masks : Tid → UInt32) (_ : EgroupThreads Tid) :
    EgroupAction Tid → Prop
  | .wait thread bits clearOnExit _ timeout _ _ _ =>
      bits = masks thread ∧ clearOnExit = false ∧ timeout = lspTimeoutMax
  | .resume _ result _ _ => result = .ok
  | .set .. => True
  | .waitLockFails .. | .setLockFails .. => False

instance (masks : Tid → UInt32) (s : EgroupThreads Tid)
    (action : EgroupAction Tid) : Decidable (MaskedCalls masks s action) :=
  match action with
  | .wait .. => inferInstanceAs (Decidable (_ ∧ _ ∧ _))
  | .resume .. => inferInstanceAs (Decidable (_ = _))
  | .set .. => inferInstanceAs (Decidable True)
  | .waitLockFails .. | .setLockFails .. => inferInstanceAs (Decidable False)

/-- The call that an action starts or continues. -/
def callOf (s : EgroupThreads Tid) : EgroupAction Tid → Option EgroupCall
  | .wait _ bits clearOnExit waitAll timeout start _ _ =>
      some (.enter bits clearOnExit waitAll timeout start)
  | .resume thread .. => s.call thread
  | .waitLockFails .. | .set .. | .setLockFails _ => none

/-- A wait for a mask as `MaskedCalls` admits it. -/
structure Masked (mask : UInt32) (call : EgroupCall) : Prop where
  bits : call.bits = mask
  keeps : call.clearOnExit = false
  forever : call.timeout = lspTimeoutMax

def CallsMasked (masks : Tid → UInt32) (s : EgroupThreads Tid) : Prop :=
  ∀ thread call, s.call thread = some call → Masked (masks thread) call

/-! ## Sections of masked waiters -/

private theorem or_and_mask (left right mask : UInt32) :
    (left ||| right) &&& mask = (left &&& mask) ||| (right &&& mask) := by
  apply UInt32.toBitVec_inj.1
  exact BitVec.and_or_distrib_right

private theorem not_and_of_disjoint {own other : UInt32}
    (disjoint : own &&& other = 0) : ~~~other &&& own = own := by
  apply UInt32.toBitVec_inj.1
  have none := congrArg UInt32.toBitVec disjoint
  ext index below
  have bit := congrArg (fun bits => bits.getLsbD index) none
  simp only [UInt32.toBitVec_and, UInt32.toBitVec_not, BitVec.getLsbD_and,
    UInt32.toBitVec_ofNat, BitVec.getLsbD_zero] at bit ⊢
  simp [below] at bit ⊢
  grind

/-- What the end of a section is to a waiter with a mask. -/
def restrictEnd (mask : UInt32) : UInt32 × EgroupEnd → UInt32 × EgroupEnd
  | (eventBits, .wait call) => (eventBits &&& mask, .wait call)
  | (eventBits, .ret ebits) => (eventBits &&& mask, .ret (ebits &&& mask))

variable {mask : UInt32} {call : EgroupCall}

private theorem exit_masked (masked : Masked mask call)
    (eventBits : UInt32) :
    call.exit eventBits = (eventBits &&& ~~~mask, .ret eventBits) := by
  simp [EgroupCall.exit, masked.keeps, masked.bits]

private theorem egroupHolds_restrict (eventBits mask : UInt32)
    (waitAll : Bool) :
    egroupHolds (eventBits &&& mask) mask waitAll =
      egroupHolds eventBits mask waitAll := by
  simp only [egroupHolds, UInt32.and_assoc, UInt32.and_self]

theorem loop_restrict (masked : Masked mask call) (eventBits : UInt32)
    (now clock : Option Timespec) :
    call.loop (eventBits &&& mask) now clock =
      restrictEnd mask (call.loop eventBits now clock) := by
  rw [EgroupCall.loop_forever masked.forever,
    EgroupCall.loop_forever masked.forever, masked.bits,
    egroupHolds_restrict, exit_masked masked, exit_masked masked]
  split
  · simp only [restrictEnd, UInt32.and_assoc,
      UInt32.and_comm mask (~~~mask)]
  · rfl

theorem loop_disjoint {own : UInt32} (masked : Masked mask call)
    (disjoint : own &&& mask = 0) (eventBits : UInt32)
    (now clock : Option Timespec) :
    (call.loop eventBits now clock).1 &&& own = eventBits &&& own := by
  rw [EgroupCall.loop_forever masked.forever, exit_masked masked]
  split
  · rw [UInt32.and_assoc, not_and_of_disjoint disjoint]
  · rfl

/-- A waiter returns only when its condition holds, and until then leaves all
bits alone. -/
theorem loop_masked (masked : Masked mask call) (eventBits : UInt32)
    (now clock : Option Timespec) :
    (∃ blocked, Masked mask blocked ∧
        call.loop eventBits now clock = (eventBits, .wait blocked)) ∨
      (call.loop eventBits now clock =
          (eventBits &&& ~~~mask, .ret eventBits) ∧
        egroupHolds eventBits mask call.waitAll = true) := by
  rw [EgroupCall.loop_forever masked.forever, exit_masked masked]
  cases present : egroupHolds eventBits call.bits call.waitAll with
  | true => exact .inr ⟨rfl, masked.bits ▸ present⟩
  | false =>
      exact .inl ⟨{ call with deadline := none },
        ⟨masked.bits, masked.keeps, masked.forever⟩, rfl⟩

/-! ## The view of one waiter -/

variable [DecidableEq Tid] {masks : Tid → UInt32} {s s' : EgroupThreads Tid}
  {action : EgroupAction Tid} {thread other : Tid}

/-- The event group as one waiter sees it. -/
def restrictTo (s : EgroupThreads Tid) (thread : Tid) (mask : UInt32) :
    EgroupThreads Tid :=
  { eventBits := s.eventBits &&& mask
    cond := s.cond.only thread
    call := fun other => if other = thread then s.call other else none }

private theorem endSection_restrict (s : EgroupThreads Tid) (thread : Tid)
    (mask : UInt32) (ending : UInt32 × EgroupEnd) :
    (s.restrictTo thread mask).endSection thread (restrictEnd mask ending) =
      ((s.endSection thread ending).1.restrictTo thread mask,
        (s.endSection thread ending).2.map (· &&& mask)) := by
  have calls : ∀ place : Option EgroupCall,
      Function.update
          (fun other => if other = thread then s.call other else none)
          thread place =
        fun other => if other = thread then
          Function.update s.call thread place other else none := by
    intro place
    funext other
    by_cases same : other = thread
    · simp [same]
    · simp [same]
  obtain ⟨eventBits, ending⟩ := ending
  cases ending with
  | wait call =>
      simp only [endSection, restrictEnd, restrictTo, calls,
        CondVar.only_wait_self, Option.map_none]
  | ret ebits =>
      simp only [endSection, restrictEnd, restrictTo, calls,
        Option.map_some]

private theorem endSection_other (different : other ≠ thread)
    {ending : UInt32 × EgroupEnd}
    (kept : ending.1 &&& mask = s.eventBits &&& mask) :
    (s.endSection other ending).1.restrictTo thread mask =
      s.restrictTo thread mask := by
  have calls : ∀ place : Option EgroupCall,
      (fun one => if one = thread then
          Function.update s.call other place one else none) =
        fun one => if one = thread then s.call one else none := by
    intro place
    funext one
    by_cases same : one = thread
    · simp [same, different.symm]
    · simp [same]
  obtain ⟨eventBits, ending⟩ := ending
  cases ending with
  | wait call =>
      simp only [endSection, restrictTo, calls]
      rw [s.cond.only_wait_other different, kept]
  | ret ebits =>
      simp only [endSection, restrictTo, calls]
      rw [kept]

theorem exec_masked {outcome : Option UInt32}
    (calls : CallsMasked masks s) (allowed : MaskedCalls masks s action)
    (waits : action.waiter = some thread)
    (executed : s.exec action = some (s', outcome)) :
    ∃ call cond now clock, s.callOf action = some call ∧
      Masked (masks thread) call ∧
      (cond = s.cond ∨ s.cond.resume thread = some cond) ∧
      ({ s with cond := cond } : EgroupThreads Tid).endSection thread
        (call.loop s.eventBits now clock) = (s', outcome) := by
  cases action with
  | wait waiter bits clearOnExit waitAll timeout start now clock =>
      cases waits
      obtain ⟨own, keeps, forever⟩ := allowed
      obtain ⟨_, ended⟩ := exec_wait.mp executed
      exact ⟨_, s.cond, now, clock, rfl, ⟨own, keeps, forever⟩, .inl rfl,
        ended⟩
  | resume waiter result now clock =>
      cases waits
      cases allowed
      obtain ⟨call, cond, place, resumed, ended⟩ := exec_resume.mp executed
      have masked := calls thread call place
      refine ⟨call, cond, now, clock, place, masked, .inr resumed, ?_⟩
      rw [← ended, lspEgroupWaitResumed_forever masked.forever]
  | waitLockFails => cases allowed
  | set => cases waits
  | setLockFails => cases allowed

private theorem callsMasked_section (calls : CallsMasked masks s)
    {cond : CondVar Tid} {call : EgroupCall}
    (masked : Masked (masks thread) call) (now clock : Option Timespec) :
    CallsMasked masks
      (({ s with cond := cond } : EgroupThreads Tid).endSection thread
        (call.loop s.eventBits now clock)).1 := by
  intro one later waits
  rcases loop_masked masked s.eventBits now clock with
    ⟨blocked, again, result⟩ | ⟨result, _⟩
  · rw [result] at waits
    rcases point_cases waits with ⟨same, latest⟩ | ⟨_, earlier⟩
    · cases latest
      exact same ▸ again
    · exact calls one later earlier
  · rw [result] at waits
    rcases point_cases waits with ⟨_, none⟩ | ⟨_, earlier⟩
    · cases none
    · exact calls one later earlier

omit [DecidableEq Tid] in
theorem masked_action_cases
    (allowed : MaskedCalls masks s action) :
    (∃ thread, action.waiter = some thread) ∨
      ∃ setter bits, action = .set setter bits := by
  cases action with
  | wait thread => exact .inl ⟨thread, rfl⟩
  | resume thread => exact .inl ⟨thread, rfl⟩
  | set setter bits => exact .inr ⟨setter, bits, rfl⟩
  | waitLockFails => cases allowed
  | setLockFails => cases allowed

theorem CallsMasked.exec {outcome : Option UInt32}
    (calls : CallsMasked masks s) (allowed : MaskedCalls masks s action)
    (executed : s.exec action = some (s', outcome)) :
    CallsMasked masks s' := by
  rcases masked_action_cases allowed with
    ⟨thread, waits⟩ | ⟨setter, bits, isSet⟩
  · obtain ⟨call, cond, now, clock, _, masked, _, ended⟩ :=
      exec_masked calls allowed waits executed
    have next := @callsMasked_section _ _ masks s thread calls cond call
      masked now clock
    rw [ended] at next
    exact next
  · subst isSet
    obtain ⟨_, ended⟩ := exec_set.mp executed
    cases ended
    exact calls

theorem restrict_of_waiter {thread : Tid} {mask : UInt32}
    (waits : action.waiter = some thread) :
    action.restrict thread mask = some action := by
  cases action with
  | set => cases waits
  | setLockFails => cases waits
  | wait => exact if_pos waits
  | resume => exact if_pos waits
  | waitLockFails => exact if_pos waits

theorem restrict_of_other (waits : action.waiter = some other)
    (different : other ≠ thread) (mask : UInt32) :
    action.restrict thread mask = none := by
  have elsewhere : ¬action.waiter = some thread := by
    rw [waits]
    intro same
    exact different (Option.some.inj same)
  cases action with
  | set => cases waits
  | setLockFails => cases waits
  | wait => exact if_neg elsewhere
  | resume => exact if_neg elsewhere
  | waitLockFails => exact if_neg elsewhere

theorem exec_restrictTo {outcome : Option UInt32}
    (calls : CallsMasked masks s) (allowed : MaskedCalls masks s action)
    (waits : action.waiter = some thread)
    (executed : s.exec action = some (s', outcome)) :
    (s.restrictTo thread (masks thread)).exec action =
      some (s'.restrictTo thread (masks thread),
        outcome.map (· &&& masks thread)) := by
  cases action with
  | wait waiter bits clearOnExit waitAll timeout start now clock =>
      cases waits
      obtain ⟨own, keeps, forever⟩ := allowed
      obtain ⟨outside, ended⟩ := exec_wait.mp executed
      have masked : Masked (masks thread)
          (.enter bits clearOnExit waitAll timeout start) :=
        ⟨own, keeps, forever⟩
      apply exec_wait.mpr
      constructor
      · simp [restrictTo, outside]
      · rw [lspEgroupWaitLocked] at ended ⊢
        change (s.restrictTo thread (masks thread)).endSection thread
          (EgroupCall.loop _ (s.eventBits &&& masks thread) now clock) = _
        rw [loop_restrict masked, endSection_restrict, ended]
  | resume waiter result now clock =>
      cases waits
      cases allowed
      obtain ⟨call, cond, place, resumed, ended⟩ := exec_resume.mp executed
      have masked := calls thread call place
      apply exec_resume.mpr
      refine ⟨call, cond.only thread, ?_, ?_, ?_⟩
      · simp [restrictTo, place]
      · have sees := s.cond.only_resume_self thread
        change s.cond.resume thread = some cond at resumed
        rw [resumed] at sees
        exact sees
      · rw [lspEgroupWaitResumed_forever masked.forever] at ended ⊢
        change (({ s with cond := cond } :
          EgroupThreads Tid).restrictTo thread (masks thread)).endSection
            thread (call.loop (s.eventBits &&& masks thread) now clock) = _
        rw [loop_restrict masked, endSection_restrict, ended]
  | waitLockFails => cases allowed
  | set => cases waits
  | setLockFails => cases allowed

theorem restrictTo_of_other {outcome : Option UInt32}
    (disjoint : masks thread &&& masks other = 0)
    (calls : CallsMasked masks s) (allowed : MaskedCalls masks s action)
    (waits : action.waiter = some other) (different : other ≠ thread)
    (executed : s.exec action = some (s', outcome)) :
    s'.restrictTo thread (masks thread) =
      s.restrictTo thread (masks thread) := by
  obtain ⟨call, cond, now, clock, _, masked, woken, ended⟩ :=
    exec_masked calls allowed waits executed
  have kept := loop_disjoint masked disjoint s.eventBits now clock
  have same := @endSection_other _ (masks thread) _ { s with cond := cond }
    thread other different _ kept
  rw [ended] at same
  have seen : cond.only thread = s.cond.only thread := by
    rcases woken with unchanged | resumed
    · rw [unchanged]
    · exact CondVar.only_resume_other different resumed
  rw [same]
  simp only [restrictTo, seen]

theorem restrictTo_set {setter : Tid} {bits : UInt32}
    (executed : s.exec (.set setter bits) = some (s', none)) (thread : Tid)
    (mask : UInt32) :
    (s.restrictTo thread mask).exec (.set setter (bits &&& mask)) =
      some (s'.restrictTo thread mask, none) := by
  obtain ⟨outside, ended⟩ := exec_set.mp executed
  cases ended
  apply exec_set.mpr
  constructor
  · simp [restrictTo, outside]
  · simp only [restrictTo, lspEgroupSetLocked, or_and_mask,
      CondVar.only_broadcast]

end EgroupThreads

end Liblsp
