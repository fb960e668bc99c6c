import TaskKernel.Proofs.Schedule.Enrolment
import TaskKernel.Proofs.Schedule.Rotation

namespace TaskKernel

def IsFirst (p : TaskId → Prop) (xs : List TaskId) (t : TaskId) : Prop :=
  ∃ pre post, xs = pre ++ t :: post ∧ p t ∧ ∀ u ∈ pre, ¬ p u

namespace Kernel

/-- The task is ready to run, or it waits for a condition that holds or whose timeout has run
out. -/
def Contends (k : Kernel) (t : TaskId) : Prop :=
  (k.task t).wait = .run ∨ (k.task t).wait ≠ .run ∧ (k.task t).wait ≠ .suspended ∧
    ((k.task t).timeout = Ticks.expired ∨ k.holds (k.task t).wait = true)

structure MostUrgent (k : Kernel) (xs : List TaskId) (t : TaskId) : Prop where
  contends : k.Contends t
  least : ∀ u ∈ xs, k.Contends u → (k.task t).priority ≤ (k.task u).priority

inductive Picks (k : Kernel) (xs : List TaskId) : TaskId → Prop where
  | urgent {t : TaskId} (first : IsFirst (k.MostUrgent xs) xs t) : Picks k xs t
  | suspended {t : TaskId} (idle : ∀ u ∈ xs, ¬ k.Contends u)
      (first : IsFirst (fun u => (k.task u).wait = .suspended) xs t) : Picks k xs t
  | idle (idle : ∀ u ∈ xs, ¬ k.Contends u) (awake : ∀ u ∈ xs, (k.task u).wait ≠ .suspended) :
      Picks k xs TaskId.idle

/-- The running task is the one that the queue picks. Apart from that, from its wait, from the links
of the queue and from the log entry on a change, the kernel is as it was. -/
structure Picked (k : Kernel) (xs : List TaskId) (k' : Kernel) : Prop where
  choice : k.Picks xs k'.running
  queue : k'.Walks xs
  task (u : TaskId) : k'.task u =
    if k'.running ≠ TaskId.idle ∧ k'.running = u then { k.task u with wait := .run } else k.task u
  unlinked (u : TaskId) : u ∉ xs → k'.links.get u = k.links.get u
  journal : k'.journal = if k'.running = k.running then k.journal
    else .dispatch k.running k'.running :: k.journal
  rest : ∃ tasks links runQueue running journal,
    k' = { k with tasks, links, runQueue, running, journal }

variable {k : Kernel} {xs : List TaskId} {t : TaskId}

theorem isCandidate_iff (k : Kernel) (t : TaskId) : k.isCandidate t = true ↔ k.Contends t := by
  unfold isCandidate Contends
  cases (k.task t).wait with
  | run | suspended => simp
  | timer | mutex | event | queueFull | queueEmpty | multi => simp

theorem Contends.of_candidates (none : ∀ u ∈ xs, k.isCandidate u = false) :
    ∀ u ∈ xs, ¬ k.Contends u := by
  intro u member contends
  have ready := (k.isCandidate_iff u).mpr contends
  rw [none u member] at ready
  cases ready

/-- The suspended task found is the first one. -/
theorem Survey.first_suspended (k : Kernel) (xs : List TaskId) {a : TaskId}
    (found : (xs.foldl (Survey.visit k) {}).suspended = some a) :
    ∃ pre post, xs = pre ++ a :: post ∧ ∀ t ∈ pre, (k.task t).wait ≠ .suspended := by
  induction xs using List.reverseRecOn with
  | nil => cases found
  | append_singleton xs t ih =>
    have sees := Survey.sees_all k xs
    rw [List.foldl_append, List.foldl_cons, List.foldl_nil] at found
    generalize xs.foldl (Survey.visit k) {} = s at sees ih found
    have kept : s.suspended = some a →
        ∃ pre post, xs ++ [t] = pre ++ a :: post ∧ ∀ u ∈ pre, (k.task u).wait ≠ .suspended := by
      intro earlier
      obtain ⟨pre, post, rfl, awake⟩ := ih earlier
      exact ⟨pre, post ++ [t], by simp, awake⟩
    unfold Survey.visit at found
    split at found
    · split at found <;> exact kept found
    · split at found
      · cases earlier : s.suspended with
        | some b =>
          rw [earlier] at found
          exact kept (earlier.trans found)
        | none =>
          rw [earlier] at found
          cases found
          exact ⟨xs, [], rfl, sees.awake earlier⟩
      · exact kept found

/-- Those before the best candidate are less urgent, so that it is the first of the most urgent. -/
theorem Survey.picks_best {s : Survey} (sees : s.Sees k xs) (leads : s.Leads k xs)
    (best : s.best = some t) : IsFirst (k.MostUrgent xs) xs t := by
  obtain ⟨member, ready, least⟩ := sees.best t best
  obtain ⟨pre, post, split, less⟩ := leads t best
  have most : k.MostUrgent xs t :=
    ⟨(k.isCandidate_iff t).mp ready, fun u among contends =>
      least u among ((k.isCandidate_iff u).mpr contends)⟩
  refine ⟨pre, post, split, most, ?_⟩
  intro u before also
  have lower := less u before ((k.isCandidate_iff u).mpr also.contends)
  exact Nat.not_le_of_lt lower (also.least t member most.contends)

theorem picks_choice (k : Kernel) (xs : List TaskId) :
    k.Picks xs (xs.foldl (Survey.visit k) {}).choice := by
  have sees := Survey.sees_all k xs
  have leads := Survey.leads_all k xs
  have first := fun a => Survey.first_suspended k xs (a := a)
  generalize xs.foldl (Survey.visit k) {} = s at sees leads first ⊢
  unfold Survey.choice
  cases best : s.best with
  | some b => exact .urgent (Survey.picks_best sees leads best)
  | none =>
    have idle := Contends.of_candidates (sees.unready best)
    cases suspended : s.suspended with
    | some b =>
      obtain ⟨pre, post, split, awake⟩ := first b suspended
      exact .suspended idle ⟨pre, post, split, (sees.suspended b suspended).2, awake⟩
    | none => exact .idle idle (sees.awake suspended)

theorem journal_switchTo (k : Kernel) (t : TaskId) : (k.switchTo t).journal =
    if t = k.running then k.journal else .dispatch k.running t :: k.journal := by
  unfold switchTo
  dsimp only
  by_cases idle : t = TaskId.idle
  · rw [if_pos idle]
    split <;> rfl
  · rw [if_neg idle]
    change (if t = k.running then _ else _ : Kernel).journal = _
    split <;> rfl

theorem journal_dispatch (k : Kernel) : k.dispatch.journal =
    if k.dispatch.running = k.running then k.journal
    else .dispatch k.running k.dispatch.running :: k.journal := by
  obtain ⟨_, _, rotated⟩ := k.rotate_eq
  have running : k.rotate.running = k.running := by rw [rotated]
  have journal : k.rotate.journal = k.journal := by rw [rotated]
  rw [← running, ← journal]
  exact k.rotate.journal_switchTo _

/-- What a dispatch does to a kernel whose run queue is in order. -/
theorem Lined.picked (h : k.Lined xs) (old : k.running ≤ k.taskCount) :
    k.Picked (k.rotation xs) k.dispatch := by
  have dispatched := h.dispatched old
  have survey : (k.rotation xs).foldl (Survey.visit k.rotate) {} =
      (k.rotation xs).foldl (Survey.visit k) {} :=
    Survey.foldl_congr (fun u _ => k.task_rotate u) fun u _ => k.isCandidate_rotate u
  constructor
  · rw [h.choice_eq old, survey]
    exact k.picks_choice _
  · exact dispatched.lined.walks
  · exact dispatched.task
  · intro u outside
    refine h.get_dispatch old fun member => outside ?_
    rw [(h.rotate old).mem_iff, k.taskCount_rotate]
    exact h.mem_iff.mp member
  · exact k.journal_dispatch
  · exact k.dispatch_eq

end Kernel

namespace Machine

variable {m : Machine} {h : History} {config : Config} {k : Kernel}

/-- In every state of a run, and when the boot code ends, a dispatch moves the running task to the
end of the run queue, gives the processor to the task that the queue then picks, and leaves all else
as it is. -/
theorem Run.picks (run : Run config m h) (found : k = m.kernel ∨ k = m.kernel.booted) :
    ∃ xs, k.Walks xs ∧ xs.Perm (List.range' 1 k.taskCount) ∧
      k.Picked (k.rotation xs) k.dispatch := by
  have orderly := run.orderly
  obtain ⟨xs, lined⟩ := orderly.lined
  rcases found with rfl | rfl
  · exact ⟨xs, lined.walks, lined.members, lined.picked orderly.running⟩
  · exact ⟨xs, lined.booted.walks, lined.members, lined.booted.picked orderly.running⟩

def retiring : Option (Machine × History) :=
  follow (initial { maxTasks := 3, arenaStart := 4096, arenaSize := 512, timeSlice := 0 }, [])
    [.call (.createTask "first" 256 5 0 0), .steps 4, .call (.createTask "second" 256 5 0 0),
      .steps 4, .call (.createTask "urgent" 256 1 0 0), .steps 4, .launch, .steps 1,
      .call .suspend, .steps 3]

theorem picks_retiring : ∃ (m : Machine) (h : History) (config : Config) (xs : List TaskId),
    Run config m h ∧ m.kernel.running = 3 ∧ (m.kernel.task 3).wait = .suspended ∧
      xs.Perm [1, 2, 3] ∧ m.kernel.Picked (m.kernel.rotation xs) m.kernel.dispatch ∧
      m.kernel.dispatch.running = 1 := by
  obtain ⟨⟨m, h⟩, hx⟩ :=
    Option.isSome_iff_exists.mp (show retiring.isSome = true by decide +kernel)
  have facts : retiring.map (fun x => (x.1.kernel.running, (x.1.kernel.task 3).wait,
      x.1.kernel.taskCount, x.1.kernel.dispatch.running)) = some (3, .suspended, 3, 1) := by
    decide +kernel
  rw [hx] at facts
  simp only [Option.map_some, Option.some.injEq, Prod.mk.injEq] at facts
  obtain ⟨running, waits, count, next⟩ := facts
  have run := run_of_follow hx
  obtain ⟨xs, -, members, picked⟩ := run.picks (.inl rfl)
  rw [count] at members
  exact ⟨m, h, _, xs, run, running, waits, members, picked, next⟩

end Machine

end TaskKernel
