import Mathlib.Tactic.TypeStar

/-!
# Condition variables

A condition variable keeps the threads blocked on it in two groups: those
that no signal has reached, and those that a signal has marked and that have
not resumed yet.  A thread may resume without a signal, and a timed wait may
expire.
-/

namespace Base

variable {τ : Type*}

/-- The threads blocked on a condition variable. -/
structure CondVar (τ : Type*) where
  sleeping : List τ
  signalled : List τ

namespace CondVar

def empty : CondVar τ := ⟨[], []⟩

def waiters (cond : CondVar τ) : Nat :=
  cond.sleeping.length + cond.signalled.length

def wait (cond : CondVar τ) (thread : τ) : CondVar τ :=
  { cond with sleeping := thread :: cond.sleeping }

/-- Mark every thread that no signal has reached. -/
def broadcast (cond : CondVar τ) : CondVar τ :=
  { sleeping := []
    signalled := cond.sleeping ++ cond.signalled }

section Wakeups

variable [DecidableEq τ]

/-- Mark one thread that no signal has reached, `pick`, if there is any. -/
def signal (cond : CondVar τ) (pick : τ) : Option (CondVar τ) :=
  if cond.sleeping = [] then some cond
  else if pick ∈ cond.sleeping then
    some { sleeping := cond.sleeping.erase pick
           signalled := pick :: cond.signalled }
  else none

/-- The wait of a thread ends with success, because of a signal or
spuriously. -/
def resume (cond : CondVar τ) (thread : τ) : Option (CondVar τ) :=
  if thread ∈ cond.signalled then
    some { cond with signalled := cond.signalled.erase thread }
  else if thread ∈ cond.sleeping then
    some { cond with sleeping := cond.sleeping.erase thread }
  else none

/-- The wait of a thread that no signal has reached times out. -/
def expire (cond : CondVar τ) (thread : τ) : Option (CondVar τ) :=
  if thread ∈ cond.sleeping then
    some { cond with sleeping := cond.sleeping.erase thread }
  else none

/-- What one thread sees of a condition variable: whether it is blocked. -/
def only (cond : CondVar τ) (thread : τ) : CondVar τ :=
  { sleeping := cond.sleeping.filter (· = thread)
    signalled := cond.signalled.filter (· = thread) }

end Wakeups

@[simp] theorem wait_sleeping (cond : CondVar τ) (thread : τ) :
    (cond.wait thread).sleeping = thread :: cond.sleeping := rfl

@[simp] theorem wait_signalled (cond : CondVar τ) (thread : τ) :
    (cond.wait thread).signalled = cond.signalled := rfl

@[simp] theorem broadcast_sleeping (cond : CondVar τ) :
    cond.broadcast.sleeping = [] := rfl

@[simp] theorem broadcast_signalled (cond : CondVar τ) :
    cond.broadcast.signalled = cond.sleeping ++ cond.signalled := rfl

/-- A thread has not come back from its wait. -/
def Blocked (cond : CondVar τ) (thread : τ) : Prop :=
  thread ∈ cond.sleeping ∨ thread ∈ cond.signalled

theorem blocked_wait (cond : CondVar τ) (thread : τ) :
    (cond.wait thread).Blocked thread :=
  .inl List.mem_cons_self

theorem Blocked.wait {cond : CondVar τ} {thread other : τ}
    (blocked : cond.Blocked thread) : (cond.wait other).Blocked thread :=
  blocked.imp_left (List.mem_cons_of_mem other)

theorem waiters_wait (cond : CondVar τ) (thread : τ) :
    (cond.wait thread).waiters = cond.waiters + 1 := by
  simp only [waiters, wait_sleeping, wait_signalled, List.length_cons]
  omega

variable [DecidableEq τ]

private theorem length_erase_add_one {thread : τ} {threads : List τ}
    (member : thread ∈ threads) :
    (threads.erase thread).length + 1 = threads.length := by
  have positive : 0 < threads.length := List.length_pos_of_mem member
  rw [List.length_erase_of_mem member]
  omega

/-- A signal moves one sleeping thread over, unless there is none. -/
theorem signal_counts {cond after : CondVar τ} {pick : τ}
    (signalled : cond.signal pick = some after) :
    (cond.sleeping.length = 0 ∧ after = cond) ∨
      (after.sleeping.length + 1 = cond.sleeping.length ∧
        after.signalled.length = cond.signalled.length + 1) := by
  unfold signal at signalled
  split at signalled
  · rename_i none
    left
    simp_all
  · split at signalled
    · rename_i member
      right
      simp only [Option.some.injEq] at signalled
      subst after
      exact ⟨length_erase_add_one member, rfl⟩
    · simp at signalled

theorem signal_only {cond after : CondVar τ} {thread pick : τ}
    (alone : cond.sleeping = [thread])
    (signalled : cond.signal pick = some after) :
    after = ⟨[], thread :: cond.signalled⟩ := by
  simp only [signal, alone, List.cons_ne_nil, if_false, List.mem_singleton]
    at signalled
  split at signalled
  · rename_i picked
    subst pick
    rw [List.erase_cons_head] at signalled
    exact (Option.some.inj signalled).symm
  · cases signalled

theorem waiters_signal {cond after : CondVar τ} {pick : τ}
    (signalled : cond.signal pick = some after) :
    after.waiters = cond.waiters := by
  rcases signal_counts signalled with ⟨_, same⟩ | ⟨fewer, more⟩
  · rw [same]
  · simp only [waiters]
    omega

/-- A wait ends for one signalled thread or for one sleeping thread. -/
theorem resume_counts {cond after : CondVar τ} {thread : τ}
    (resumed : cond.resume thread = some after) :
    (after.sleeping.length = cond.sleeping.length ∧
        after.signalled.length + 1 = cond.signalled.length) ∨
      (after.sleeping.length + 1 = cond.sleeping.length ∧
        after.signalled.length = cond.signalled.length) := by
  unfold resume at resumed
  split at resumed
  · rename_i member
    simp only [Option.some.injEq] at resumed
    subst after
    exact .inl ⟨rfl, length_erase_add_one member⟩
  · split at resumed
    · rename_i member
      simp only [Option.some.injEq] at resumed
      subst after
      exact .inr ⟨length_erase_add_one member, rfl⟩
    · simp at resumed

theorem resume_sleeping {cond after : CondVar τ} {thread other : τ}
    (resumed : cond.resume thread = some after)
    (asleep : other ∈ after.sleeping) : other ∈ cond.sleeping := by
  unfold resume at resumed
  split at resumed
  · cases resumed
    exact asleep
  · split at resumed
    · cases resumed
      exact List.mem_of_mem_erase asleep
    · cases resumed

theorem expire_sleeping {cond after : CondVar τ} {thread other : τ}
    (expired : cond.expire thread = some after)
    (asleep : other ∈ after.sleeping) : other ∈ cond.sleeping := by
  unfold expire at expired
  split at expired
  · cases expired
    exact List.mem_of_mem_erase asleep
  · cases expired

theorem waiters_resume {cond after : CondVar τ} {thread : τ}
    (resumed : cond.resume thread = some after) :
    after.waiters + 1 = cond.waiters := by
  have counts := resume_counts resumed
  simp only [waiters]
  omega

theorem expire_counts {cond after : CondVar τ} {thread : τ}
    (expired : cond.expire thread = some after) :
    after.sleeping.length + 1 = cond.sleeping.length ∧
      after.signalled.length = cond.signalled.length := by
  unfold expire at expired
  split at expired
  · rename_i member
    simp only [Option.some.injEq] at expired
    subst after
    exact ⟨length_erase_add_one member, rfl⟩
  · simp at expired

theorem waiters_expire {cond after : CondVar τ} {thread : τ}
    (expired : cond.expire thread = some after) :
    after.waiters + 1 = cond.waiters := by
  have counts := expire_counts expired
  simp only [waiters]
  omega

section Blocked

variable {cond after : CondVar τ} {thread other : τ}

theorem Blocked.signal (blocked : cond.Blocked thread)
    (signalled : cond.signal other = some after) : after.Blocked thread := by
  unfold CondVar.signal at signalled
  split at signalled
  · cases signalled
    exact blocked
  · split at signalled
    · cases signalled
      rcases blocked with asleep | marked
      · by_cases picked : thread = other
        · subst other
          exact .inr List.mem_cons_self
        · exact .inl ((List.mem_erase_of_ne picked).mpr asleep)
      · exact .inr (List.mem_cons_of_mem other marked)
    · cases signalled

theorem Blocked.resume (blocked : cond.Blocked thread)
    (different : thread ≠ other) (resumed : cond.resume other = some after) :
    after.Blocked thread := by
  unfold CondVar.resume at resumed
  split at resumed
  · cases resumed
    exact blocked.imp_right (List.mem_erase_of_ne different).mpr
  · split at resumed
    · cases resumed
      exact blocked.imp_left (List.mem_erase_of_ne different).mpr
    · cases resumed

theorem Blocked.expire (blocked : cond.Blocked thread)
    (different : thread ≠ other) (expired : cond.expire other = some after) :
    after.Blocked thread := by
  unfold CondVar.expire at expired
  split at expired
  · cases expired
    exact blocked.imp_left (List.mem_erase_of_ne different).mpr
  · cases expired

end Blocked

section Only

variable {cond after : CondVar τ} {thread other : τ}

theorem only_wait_self (cond : CondVar τ) (thread : τ) :
    (cond.wait thread).only thread = (cond.only thread).wait thread := by
  simp [only, wait]

theorem only_wait_other (cond : CondVar τ) (different : other ≠ thread) :
    (cond.wait other).only thread = cond.only thread := by
  simp [only, wait, different]

theorem only_broadcast (cond : CondVar τ) (thread : τ) :
    cond.broadcast.only thread = (cond.only thread).broadcast := by
  simp [only, broadcast]

theorem only_resume_self (cond : CondVar τ) (thread : τ) :
    (cond.only thread).resume thread =
      (cond.resume thread).map fun after => after.only thread := by
  by_cases marked : thread ∈ cond.signalled
  · simp [resume, only, marked, List.erase_filter]
  · by_cases asleep : thread ∈ cond.sleeping
    · simp [resume, only, marked, asleep, List.erase_filter]
    · simp [resume, only, marked, asleep]

private theorem filter_erase_other {threads : List τ}
    (different : other ≠ thread) :
    (threads.erase other).filter (· = thread) =
      threads.filter (· = thread) := by
  rw [← List.erase_filter]
  apply List.erase_of_not_mem
  simp [different]

theorem only_resume_other (different : other ≠ thread)
    (resumed : cond.resume other = some after) :
    after.only thread = cond.only thread := by
  unfold resume at resumed
  split at resumed
  · cases resumed
    simp only [only, filter_erase_other different]
  · split at resumed
    · cases resumed
      simp only [only, filter_erase_other different]
    · cases resumed

end Only

end CondVar

end Base
