import Mathlib.Data.List.Induction
import TaskKernel.Scheduler

namespace TaskKernel.Kernel

structure Survey.Sees (k : Kernel) (s : Survey) (xs : List TaskId) : Prop where
  unready : s.best = none → ∀ t ∈ xs, k.isCandidate t = false
  best : ∀ b, s.best = some b → b ∈ xs ∧ k.isCandidate b = true ∧
    ∀ t ∈ xs, k.isCandidate t = true → (k.task b).priority ≤ (k.task t).priority
  awake : s.suspended = none → ∀ t ∈ xs, (k.task t).wait ≠ .suspended
  suspended : ∀ b, s.suspended = some b → b ∈ xs ∧ (k.task b).wait = .suspended

/-- The task that runs next: a most urgent candidate, a suspended task for want of candidates, or
the idle task for want of both. -/
inductive Chosen (k : Kernel) (xs : List TaskId) : TaskId → Prop where
  | candidate {b : TaskId} (member : b ∈ xs) (ready : k.isCandidate b = true)
      (least : ∀ t ∈ xs, k.isCandidate t = true → (k.task b).priority ≤ (k.task t).priority) :
      Chosen k xs b
  | suspended {b : TaskId} (member : b ∈ xs) (waits : (k.task b).wait = .suspended)
      (unready : ∀ t ∈ xs, k.isCandidate t = false) : Chosen k xs b
  | idle (unready : ∀ t ∈ xs, k.isCandidate t = false)
      (awake : ∀ t ∈ xs, (k.task t).wait ≠ .suspended) : Chosen k xs TaskId.idle

variable {k : Kernel} {s : Survey} {xs : List TaskId}

theorem isCandidate_of_suspended {t : TaskId} (h : (k.task t).wait = .suspended) :
    k.isCandidate t = false := by
  unfold isCandidate
  rw [h]

theorem forall_mem_concat {p : TaskId → Prop} {t : TaskId} (h : ∀ u ∈ xs, p u) (ht : p t) :
    ∀ u ∈ xs ++ [t], p u :=
  List.forall_mem_append.mpr ⟨h, List.forall_mem_singleton.mpr ht⟩

/-- The step of the walk. -/
theorem Survey.Sees.visit (h : s.Sees k xs) (t : TaskId) : (s.visit k t).Sees k (xs ++ [t]) := by
  have earlier : ∀ b, s.suspended = some b → b ∈ xs ++ [t] ∧ (k.task b).wait = .suspended :=
    fun b hb => ⟨List.mem_append_left _ (h.suspended b hb).1, (h.suspended b hb).2⟩
  unfold Survey.visit
  by_cases ready : k.isCandidate t = true
  · have awake : (k.task t).wait ≠ .suspended := by
      intro waits
      rw [isCandidate_of_suspended waits] at ready
      cases ready
    rw [if_pos ready]
    cases best : s.best with
    | none =>
      refine ⟨by simp [Kernel.outranks], fun b hb => ?_,
        fun none => forall_mem_concat (h.awake none) awake, earlier⟩
      cases hb
      refine ⟨by simp, ready, forall_mem_concat (fun u hu hc => ?_) fun _ => Nat.le_refl _⟩
      rw [h.unready best u hu] at hc
      cases hc
    | some b =>
      obtain ⟨member, candidate, least⟩ := h.best b best
      unfold Kernel.outranks
      by_cases outranks : (k.task t).priority < (k.task b).priority
      · simp only [outranks, decide_true, if_true]
        refine ⟨by simp, fun c hc => ?_, fun none => forall_mem_concat (h.awake none) awake,
          earlier⟩
        cases hc
        refine ⟨by simp, ready, forall_mem_concat (fun u hu hc => ?_) fun _ => Nat.le_refl _⟩
        exact Nat.le_trans (Nat.le_of_lt outranks) (least u hu hc)
      · simp only [outranks, decide_false, Bool.false_eq_true, if_false]
        refine ⟨by simp [best], fun c hc => ?_, fun none => forall_mem_concat (h.awake none) awake,
          earlier⟩
        cases best.symm.trans hc
        exact ⟨List.mem_append_left _ member, candidate,
          forall_mem_concat least fun _ => Nat.le_of_not_lt outranks⟩
  · have unready : k.isCandidate t = false := by simpa using ready
    have same : ∀ b, s.best = some b → b ∈ xs ++ [t] ∧ k.isCandidate b = true ∧
        ∀ u ∈ xs ++ [t], k.isCandidate u = true →
          (k.task b).priority ≤ (k.task u).priority := by
      intro b hb
      obtain ⟨member, candidate, least⟩ := h.best b hb
      exact ⟨List.mem_append_left _ member, candidate,
        forall_mem_concat least fun hc => absurd hc ready⟩
    rw [if_neg ready]
    by_cases waits : (k.task t).wait = .suspended
    · rw [if_pos waits]
      refine ⟨fun none => forall_mem_concat (h.unready none) unready, same, ?_, fun b hb => ?_⟩
      · simp
      · cases suspended : s.suspended with
        | none =>
          rw [suspended] at hb
          cases hb
          exact ⟨by simp, waits⟩
        | some c =>
          rw [suspended] at hb
          cases hb
          exact earlier _ suspended
    · rw [if_neg waits]
      exact ⟨fun none => forall_mem_concat (h.unready none) unready, same,
        fun none => forall_mem_concat (h.awake none) waits, earlier⟩

theorem Survey.sees_foldl (h : s.Sees k xs) (ys : List TaskId) :
    (ys.foldl (Survey.visit k) s).Sees k (xs ++ ys) := by
  induction ys generalizing s xs with
  | nil => simpa using h
  | cons y ys ih =>
    have := ih (h.visit y)
    rwa [List.append_assoc, List.singleton_append] at this

def Survey.Leads (k : Kernel) (s : Survey) (xs : List TaskId) : Prop :=
  ∀ a, s.best = some a → ∃ pre post, xs = pre ++ a :: post ∧
    ∀ t ∈ pre, k.isCandidate t = true → (k.task a).priority < (k.task t).priority

theorem Survey.Leads.visit (leads : s.Leads k xs) (sees : s.Sees k xs) (t : TaskId) :
    (s.visit k t).Leads k (xs ++ [t]) := by
  have kept : s.Leads k (xs ++ [t]) := by
    intro a best
    obtain ⟨pre, post, rfl, least⟩ := leads a best
    exact ⟨pre, post ++ [t], by simp, least⟩
  unfold Survey.visit
  split
  · split
    · rename_i outranks
      intro a best
      cases best
      refine ⟨xs, [], rfl, ?_⟩
      intro u member ready
      cases before : s.best with
      | none =>
        rw [sees.unready before u member] at ready
        cases ready
      | some b =>
        rw [before] at outranks
        obtain ⟨-, -, least⟩ := sees.best b before
        exact Nat.lt_of_lt_of_le (of_decide_eq_true outranks) (least u member ready)
    · exact kept
  · split <;> exact kept

theorem Survey.leads_foldl (leads : s.Leads k xs) (sees : s.Sees k xs) (ys : List TaskId) :
    (ys.foldl (Survey.visit k) s).Leads k (xs ++ ys) := by
  induction ys generalizing s xs with
  | nil => simpa using leads
  | cons y ys ih =>
    have onward := ih (leads.visit sees y) (sees.visit y)
    rwa [List.append_assoc, List.singleton_append] at onward

theorem Survey.sees_all (k : Kernel) (xs : List TaskId) :
    (xs.foldl (Survey.visit k) {}).Sees k xs := by
  have nothing : Survey.Sees k {} [] := ⟨by simp, by simp, by simp, by simp⟩
  simpa using Survey.sees_foldl nothing xs

theorem Survey.leads_all (k : Kernel) (xs : List TaskId) :
    (xs.foldl (Survey.visit k) {}).Leads k xs := by
  have nobody : Survey.Leads k {} [] := by
    intro a best
    cases best
  have nothing : Survey.Sees k {} [] := Survey.sees_all k []
  simpa using Survey.leads_foldl nobody nothing xs

/-- The walk looks at nothing but the entries of the tasks it meets. -/
theorem Survey.foldl_congr {k' : Kernel} (task : ∀ t ∈ xs, k'.task t = k.task t)
    (ready : ∀ t ∈ xs, k'.isCandidate t = k.isCandidate t) :
    xs.foldl (Survey.visit k') {} = xs.foldl (Survey.visit k) {} := by
  induction xs using List.reverseRecOn with
  | nil => rfl
  | append_singleton xs t ih =>
    have earlier : ∀ u ∈ xs, u ∈ xs ++ [t] := fun u member => List.mem_append_left _ member
    have last : t ∈ xs ++ [t] := List.mem_append_right _ List.mem_cons_self
    have sees := Survey.sees_all k xs
    rw [List.foldl_append, List.foldl_append,
      ih (fun u member => task u (earlier u member)) fun u member => ready u (earlier u member)]
    simp only [List.foldl_cons, List.foldl_nil]
    generalize xs.foldl (Survey.visit k) {} = s at sees ⊢
    have outranks : k'.outranks t s.best = k.outranks t s.best := by
      cases best : s.best with
      | none => rfl
      | some b =>
        simp only [Kernel.outranks, task t last, task b (earlier b (sees.best b best).1)]
    unfold Survey.visit
    rw [ready t last, task t last, outranks]

/-- If anybody is a candidate, a candidate is chosen, and those before it are less urgent. -/
theorem first_choice {b : TaskId} (member : b ∈ xs) (ready : k.isCandidate b = true) :
    ∃ pre post, xs = pre ++ (xs.foldl (Survey.visit k) {}).choice :: post ∧
      k.isCandidate (xs.foldl (Survey.visit k) {}).choice = true ∧
      ∀ t ∈ pre, k.isCandidate t = true →
        (k.task (xs.foldl (Survey.visit k) {}).choice).priority < (k.task t).priority := by
  have sees := Survey.sees_all k xs
  have leads := Survey.leads_all k xs
  generalize xs.foldl (Survey.visit k) {} = s at sees leads ⊢
  unfold Survey.choice
  cases best : s.best with
  | none =>
    rw [sees.unready best b member] at ready
    cases ready
  | some a =>
    obtain ⟨pre, post, split, least⟩ := leads a best
    exact ⟨pre, post, split, (sees.best a best).2.1, least⟩

theorem chosen_choice (k : Kernel) (xs : List TaskId) :
    Chosen k xs (xs.foldl (Survey.visit k) {}).choice := by
  have sees := Survey.sees_all k xs
  generalize xs.foldl (Survey.visit k) {} = s at sees
  unfold Survey.choice
  cases best : s.best with
  | some b =>
    obtain ⟨member, ready, least⟩ := sees.best b best
    exact .candidate member ready least
  | none =>
    cases suspended : s.suspended with
    | some b =>
      obtain ⟨member, waits⟩ := sees.suspended b suspended
      exact .suspended member waits (sees.unready best)
    | none => exact .idle (sees.unready best) (sees.awake suspended)

end TaskKernel.Kernel
