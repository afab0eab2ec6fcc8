import Liblsp.Port
import Mathlib.Data.List.Perm.Basic
import Mathlib.Order.Lattice

/-!
# The order of the listeners

Listeners of a port should stand in the order of their priorities, and in the
order of their calls where these are equal.  `lsp_listen` puts the first two
at the front unseen, and later leaves out who finds nobody of lower priority.
-/

namespace Liblsp

open Base

section Registration

variable {α π : Type} [LinearOrder π]

/-- Everybody who called is registered once, by falling priority, and in the
order of the calls where priorities are equal. -/
structure ListenersInOrder (prio : α → π) (calls members : List α) :
    Prop where
  registered : members.Perm calls
  ordered : members.Pairwise fun before after => prio after ≤ prio before
  stable : ∀ level, members.filter (fun sock => prio sock = level) =
    calls.filter (fun sock => prio sock = level)

/-- Insert before the first listener of lower priority, if there is one. -/
def insertListener (prio : α → π) (sock : α) : List α → List α
  | [] => []
  | other :: rest =>
      if prio other < prio sock then sock :: other :: rest
      else other :: insertListener prio sock rest

/-- What a call of `lsp_listen` does to the listeners of a port. -/
def registerListener (prio : α → π) (members : List α) (sock : α) : List α :=
  if members.length ≤ 1 then sock :: members
  else insertListener prio sock members

/-- The listeners of a port that had none before these calls. -/
def listeners (prio : α → π) (calls : List α) : List α :=
  calls.foldl (registerListener prio) []

/-- Everybody but the first has a higher priority than the first. -/
def AboveFirst (prio : α → π) : List α → Prop
  | [] => True
  | first :: later => ∀ sock, sock ∈ later → prio first < prio sock

variable {prio : α → π} {calls members before after : List α} {sock : α}

/-- A call inserts its socket between listeners that are not lower and a
lower one, or it inserts nothing. -/
theorem insertListener_cases (prio : α → π) (sock : α) (members : List α) :
    (∃ before other after, members = before ++ other :: after ∧
        (∀ earlier, earlier ∈ before → prio sock ≤ prio earlier) ∧
        prio other < prio sock ∧
        insertListener prio sock members =
          before ++ sock :: other :: after) ∨
      ((∀ other, other ∈ members → prio sock ≤ prio other) ∧
        insertListener prio sock members = members) := by
  induction members with
  | nil => exact .inr ⟨by simp, rfl⟩
  | cons first rest induction =>
      unfold insertListener
      by_cases lower : prio first < prio sock
      · rw [if_pos lower]
        exact .inl ⟨[], first, rest, rfl, by simp, lower, rfl⟩
      · rw [if_neg lower]
        have high := not_lt.mp lower
        rcases induction with ⟨before, other, after, shape, notLower,
          lowerOther, result⟩ | ⟨notLower, result⟩
        · left
          refine ⟨first :: before, other, after, ?_, ?_, lowerOther, ?_⟩
          · rw [shape, List.cons_append]
          · intro earlier member
            rcases List.mem_cons.mp member with same | later
            · rw [same]
              exact high
            · exact notLower earlier later
          · rw [result, List.cons_append]
        · right
          refine ⟨?_, by rw [result]⟩
          intro other member
          rcases List.mem_cons.mp member with same | later
          · rw [same]
            exact high
          · exact notLower other later

theorem mem_registerListener {other : α}
    (member : other ∈ registerListener prio members sock) :
    other = sock ∨ other ∈ members := by
  unfold registerListener at member
  split at member
  · exact List.mem_cons.mp member
  · rcases insertListener_cases prio sock members with
      ⟨before, lower, after, shape, _, _, result⟩ | ⟨_, result⟩
    · rw [result] at member
      rw [shape]
      simp only [List.mem_append, List.mem_cons] at member ⊢
      rcases member with early | same | late
      · exact .inr (.inl early)
      · exact .inl same
      · exact .inr (.inr late)
    · rw [result] at member
      exact .inr member

theorem listeners_concat (prio : α → π) (calls : List α) (sock : α) :
    listeners prio (calls ++ [sock]) =
      registerListener prio (listeners prio calls) sock := by
  rw [listeners, List.foldl_append]
  rfl

theorem mem_listeners {other : α}
    (member : other ∈ listeners prio calls) : other ∈ calls := by
  induction calls using List.reverseRecOn with
  | nil => exact member
  | append_singleton calls sock induction =>
      rw [listeners_concat] at member
      rcases mem_registerListener member with same | old
      · simp [same]
      · exact List.mem_append_left _ (induction old)

theorem filter_below_eq_nil
    (low : ∀ other, other ∈ after → prio other < prio sock) :
    after.filter (fun other => prio other = prio sock) = [] := by
  rw [List.filter_eq_nil_iff]
  intro other member same
  exact (low other member).ne (by simpa using same)

/-- One more caller that is split in between the others is in order just if
they are and it splits them by priority. -/
theorem listenersInOrder_concat (fresh : sock ∉ calls) :
    ListenersInOrder prio (calls ++ [sock]) (before ++ sock :: after) ↔
      ListenersInOrder prio calls (before ++ after) ∧
        (∀ other, other ∈ before → prio sock ≤ prio other) ∧
        ∀ other, other ∈ after → prio other < prio sock := by
  have rotated : (calls ++ [sock]).Perm (sock :: calls) :=
    List.perm_append_singleton sock calls
  have middle : (before ++ sock :: after).Perm (sock :: (before ++ after)) :=
    List.perm_middle
  constructor
  · intro ⟨registered, ordered, stable⟩
    have pairs := List.pairwise_append.mp ordered
    obtain ⟨_, belowSock, across⟩ := pairs
    have none : after.filter (fun other => prio other = prio sock) = [] := by
      have level := stable (prio sock)
      simp only [List.filter_append, List.filter_cons, decide_true, if_true,
        List.filter_nil] at level
      rcases List.eq_nil_or_concat
        (after.filter fun other => prio other = prio sock) with
        empty | ⟨front, last, shape⟩
      · exact empty
      · rw [shape, List.concat_eq_append, ← List.cons_append,
          ← List.append_assoc] at level
        have shorter := (List.append_inj' level rfl).1
        have early : sock ∈ calls.filter fun other =>
            prio other = prio sock := by
          rw [← shorter]
          simp
        exact absurd (List.mem_of_mem_filter early) fresh
    refine ⟨⟨?_, ?_, ?_⟩, ?_, ?_⟩
    · exact ((middle.symm.trans registered).trans rotated).cons_inv
    · apply List.Pairwise.sublist _ ordered
      exact (List.sublist_cons_self sock after).append_left before
    · intro level
      have whole := stable level
      simp only [List.filter_append, List.filter_cons,
        List.filter_nil] at whole ⊢
      by_cases same : prio sock = level
      · subst level
        rw [none] at whole ⊢
        simpa using whole
      · simpa [same] using whole
    · intro other member
      exact across other member sock List.mem_cons_self
    · intro other member
      have notHigher := (List.pairwise_cons.mp belowSock).1 other member
      apply lt_of_le_of_ne notHigher
      intro same
      have listed : other ∈ after.filter fun other =>
          prio other = prio sock := by
        simp [member, same]
      rw [none] at listed
      cases listed
  · intro ⟨⟨registered, ordered, stable⟩, high, low⟩
    obtain ⟨first, last, across⟩ := List.pairwise_append.mp ordered
    refine ⟨?_, ?_, ?_⟩
    · exact (middle.trans (registered.cons sock)).trans rotated.symm
    · rw [List.pairwise_append, List.pairwise_cons]
      refine ⟨first, ⟨fun other member => (low other member).le, last⟩, ?_⟩
      intro earlier inBefore other member
      rcases List.mem_cons.mp member with same | inAfter
      · rw [same]
        exact high earlier inBefore
      · exact across earlier inBefore other inAfter
    · intro level
      have whole := stable level
      simp only [List.filter_append, List.filter_cons,
        List.filter_nil] at whole ⊢
      by_cases same : prio sock = level
      · subst level
        rw [filter_below_eq_nil low] at whole ⊢
        simpa using whole
      · simpa [same] using whole

theorem AboveFirst.first_le {first : α} {later : List α}
    (above : AboveFirst prio (first :: later)) {other : α}
    (member : other ∈ first :: later) : prio first ≤ prio other := by
  rcases List.mem_cons.mp member with same | inLater
  · rw [same]
  · exact (above other inLater).le

theorem aboveFirst_concat {first : α} {later : List α} :
    AboveFirst prio (first :: later ++ [sock]) ↔
      AboveFirst prio (first :: later) ∧ prio first < prio sock := by
  constructor
  · intro above
    refine ⟨fun other member => above other (by simp [member]), ?_⟩
    exact above sock (by simp)
  · intro ⟨above, last⟩ other member
    have split : other ∈ later ∨ other = sock := by simpa using member
    rcases split with inLater | same
    · exact above other inLater
    · rw [same]
      exact last

private theorem eq_singleton_of_mem {first : α}
    (short : members.length ≤ 1) (member : first ∈ members) :
    members = [first] := by
  cases members with
  | nil => cases member
  | cons other rest =>
      have none : rest = [] :=
        List.length_eq_zero_iff.mp
          (Nat.le_zero.mp (Nat.le_of_succ_le_succ short))
      rw [none] at member ⊢
      rw [List.mem_singleton.mp member]

theorem listenersInOrder_front {first : α} (fresh : sock ∉ calls)
    (listed : ListenersInOrder prio calls members → first ∈ members)
    (short : members.length ≤ 1) :
    ListenersInOrder prio (calls ++ [sock]) (sock :: members) ↔
      ListenersInOrder prio calls members ∧ prio first < prio sock := by
  have front : ListenersInOrder prio (calls ++ [sock])
        ([] ++ sock :: members) ↔ _ :=
    listenersInOrder_concat fresh
  rw [List.nil_append, List.nil_append] at front
  rw [front]
  constructor
  · intro ⟨before, _, lower⟩
    exact ⟨before, lower first (listed before)⟩
  · intro ⟨before, last⟩
    refine ⟨before, by simp, ?_⟩
    intro other member
    rw [eq_singleton_of_mem short (listed before)] at member
    rw [List.mem_singleton.mp member]
    exact last

theorem listenersInOrder_insert {first : α} (fresh : sock ∉ calls)
    (known : ∀ other, other ∈ members → other ∈ calls)
    (lowest : ListenersInOrder prio calls members →
      first ∈ members ∧ ∀ other, other ∈ members → prio first ≤ prio other) :
    ListenersInOrder prio (calls ++ [sock])
        (insertListener prio sock members) ↔
      ListenersInOrder prio calls members ∧ prio first < prio sock := by
  rcases insertListener_cases prio sock members with
    ⟨front, other, rest, shape, high, lower, result⟩ | ⟨high, result⟩
  · rw [result, listenersInOrder_concat fresh, ← shape]
    constructor
    · intro ⟨before, _, _⟩
      refine ⟨before, ((lowest before).2 other ?_).trans_lt lower⟩
      rw [shape]
      simp
    · intro ⟨before, _⟩
      refine ⟨before, high, ?_⟩
      have ordered := before.ordered
      rw [shape] at ordered
      have tail := (List.pairwise_append.mp ordered).2.1
      intro low member
      rcases List.mem_cons.mp member with same | inRest
      · rw [same]
        exact lower
      · exact ((List.pairwise_cons.mp tail).1 low inRest).trans_lt lower
  · rw [result]
    constructor
    · intro inOrder
      have listed : sock ∈ members :=
        inOrder.registered.mem_iff.mpr (by simp)
      exact absurd (known sock listed) fresh
    · intro ⟨before, last⟩
      exact absurd last (high first (lowest before).1).not_gt

theorem listenersInOrder_register {first : α} {later : List α}
    (fresh : sock ∉ first :: later)
    (before : ListenersInOrder prio (first :: later)
        (listeners prio (first :: later)) ↔
      AboveFirst prio (first :: later)) :
    ListenersInOrder prio (first :: later ++ [sock])
        (registerListener prio (listeners prio (first :: later)) sock) ↔
      AboveFirst prio (first :: later) ∧ prio first < prio sock := by
  have known : ∀ other, other ∈ listeners prio (first :: later) →
      other ∈ first :: later := fun _ => mem_listeners
  generalize listeners prio (first :: later) = members at before known
  have listed : ListenersInOrder prio (first :: later) members →
      first ∈ members := by
    intro inOrder
    exact inOrder.registered.mem_iff.mpr List.mem_cons_self
  unfold registerListener
  rw [← before]
  by_cases short : members.length ≤ 1
  · rw [if_pos short]
    exact listenersInOrder_front fresh listed short
  · rw [if_neg short]
    apply listenersInOrder_insert fresh known
    intro inOrder
    refine ⟨listed inOrder, ?_⟩
    intro other member
    exact (before.mp inOrder).first_le (known other member)

/-- The listeners are all in order exactly when nobody after the first caller
has a priority as low as the first. -/
theorem listenersInOrder_iff (distinct : calls.Nodup) :
    ListenersInOrder prio calls (listeners prio calls) ↔
      AboveFirst prio calls := by
  induction calls using List.reverseRecOn with
  | nil =>
      have inOrder : ListenersInOrder prio ([] : List α) [] :=
        ⟨.nil, .nil, fun _ => rfl⟩
      exact ⟨fun _ => trivial, fun _ => inOrder⟩
  | append_singleton calls sock induction =>
      obtain ⟨distinct, _, apart⟩ := List.nodup_append.mp distinct
      have fresh : sock ∉ calls := fun member =>
        apart sock member sock List.mem_cons_self rfl
      rw [listeners_concat]
      match calls with
      | [] =>
          have inOrder : ListenersInOrder prio [sock] [sock] :=
            ⟨.refl _, List.pairwise_singleton _ _, fun _ => rfl⟩
          exact ⟨fun _ => nofun, fun _ => inOrder⟩
      | first :: later =>
          rw [aboveFirst_concat]
          exact listenersInOrder_register fresh (induction distinct)

end Registration

end Liblsp
