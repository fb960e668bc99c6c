import TaskKernel.Proofs.Wait.Entries

namespace TaskKernel

variable {h h' past : History} {t : TaskId} {wait : WaitState} {x : Happening}

namespace History

/-- What the task was waiting for when its timeout ran out, if no dispatch has chosen it since. -/
def overdue (t : TaskId) : History → Option WaitState
  | [] => none
  | .ran _ s .tick :: h =>
    if 0 < t ∧ t ≤ s.kernel.taskCount ∧ (s.kernel.task t).timeout.runsOut = true then
      some (s.kernel.task t).wait
    else overdue t h
  | .dispatched k :: h => if k.dispatch.running = t then none else overdue t h
  | _ :: h => overdue t h

theorem overdue_cons (late : overdue t (x :: h) = some wait) :
    (∃ c s, x = .ran c s .tick ∧ 0 < t ∧ t ≤ s.kernel.taskCount ∧
        (s.kernel.task t).timeout.runsOut = true ∧ (s.kernel.task t).wait = wait) ∨
      h.overdue t = some wait ∧ ∀ k, x = .dispatched k → k.dispatch.running ≠ t := by
  cases x with
  | ran c s sec =>
    cases sec with
    | tick =>
      unfold overdue at late
      split at late
      · rename_i last
        obtain ⟨pos, old, last⟩ := last
        exact .inl ⟨c, s, rfl, pos, old, last, Option.some.inj late⟩
      · exact .inr ⟨late, by simp⟩
    | _ => exact .inr ⟨late, by simp⟩
  | dispatched k =>
    unfold overdue at late
    split at late
    · cases late
    · rename_i other
      refine .inr ⟨late, ?_⟩
      intro k' same
      cases same
      exact other
  | called | returned | entered => exact .inr ⟨late, by simp⟩

end History

structure Kernel.Late (k : Kernel) (t : TaskId) (wait : WaitState) : Prop where
  pos : 0 < t
  old : t ≤ k.taskCount
  wait : (k.task t).wait = wait
  timeout : (k.task t).timeout = Ticks.expired

namespace Kernel.Late

variable {k : Kernel}

theorem competes (late : k.Late t wait) (awake : wait ≠ .suspended) : k.Competes t := by
  refine ⟨late.pos, late.old, ?_⟩
  unfold isCandidate
  rw [late.wait, late.timeout]
  cases wait with
  | suspended => exact absurd rfl awake
  | _ => simp

/-- A suspended task has to wait for a dispatch without candidates. -/
theorem unready (late : k.Late t .suspended) : k.isCandidate t = false :=
  isCandidate_of_suspended late.wait

end Kernel.Late

namespace Machine

variable {m m' : Machine} {config : Config}

/-- A tick lets the timeout run out. -/
theorem WaitStep.late (step : WaitStep m h m' h' t) {c : Context}
    (new : h' = .ran c m.system .tick :: h) (pos : 0 < t) (old : t ≤ m'.kernel.taskCount)
    (last : (m.kernel.task t).timeout.runsOut = true) :
    m'.kernel.Late t (m.kernel.task t).wait := by
  cases step with
  | kept wait timeout still => exact absurd new (still _ _)
  | ticked _ wait timeout =>
    refine ⟨pos, old, wait, ?_⟩
    rw [timeout, show (m.kernel.task t).timeout = 1 by simpa [Ticks.runsOut] using last]
    rfl
  | chosen other =>
    rw [new] at other
    cases other

/-- A task that is late stays late until it is chosen. -/
theorem WaitStep.still_late (step : WaitStep m h m' h' t) (late : m.kernel.Late t wait)
    (old : t ≤ m'.kernel.taskCount)
    (passed : ∀ k, h' = .dispatched k :: h → k.dispatch.running ≠ t) :
    m'.kernel.Late t wait := by
  cases step with
  | kept wait timeout => exact ⟨late.pos, old, wait.trans late.wait, timeout.trans late.timeout⟩
  | ticked new wait timeout =>
    refine ⟨late.pos, old, wait.trans late.wait, ?_⟩
    rw [timeout, late.timeout]
    rfl
  | chosen new choice => exact absurd choice (passed _ new)

theorem Change.late (run : Run config m h) (change : Change m h m' h')
    (before : h.overdue t = some wait → m.kernel.Late t wait) (blocked : wait ≠ .run)
    (late : h'.overdue t = some wait) : m'.kernel.Late t wait := by
  have count := (change.keeps run).old
  have onward : m.kernel.Late t wait → (∀ k, h' = .dispatched k :: h → k.dispatch.running ≠ t) →
      m'.kernel.Late t wait := by
    intro late passed
    have waits : m.kernel.running ≠ t ∨ (m.kernel.task t).wait ≠ .run := by
      right
      rw [late.wait]
      exact blocked
    have step := change.waitStep run late.pos late.old waits
    exact step.still_late late (Nat.le_trans late.old count) passed
  rcases change.older with rfl | ⟨x, rfl⟩
  · apply onward (before late)
    intro k same
    exact absurd same.symm (List.cons_ne_self _ _)
  · rcases History.overdue_cons late with ⟨c, s, rfl, pos, old, last, rfl⟩ | ⟨earlier, passed⟩
    · rcases change.executes run with ⟨-, idle⟩ | ⟨c', sec, call, s', next, executes⟩
      · exact absurd rfl (idle _ _ _)
      · cases executes.new
        have step := change.waitStep run pos old (.inr blocked)
        exact step.late rfl pos (Nat.le_trans old count) last
    · apply onward (before earlier)
      intro k new
      cases new
      exact passed k rfl

theorem Run.late (run : Run config m h) (blocked : wait ≠ .run)
    (late : h.overdue t = some wait) : m.kernel.Late t wait := by
  refine Run.induct (P := fun m h => h.overdue t = some wait → m.kernel.Late t wait) ?_ ?_ run late
  · intro none
    cases none
  · intro m m' h h' run ih change
    exact change.late run ih blocked

structure Punctual (h : History) : Prop where
  competes (t : TaskId) (wait : WaitState) (k : Kernel) (past : History) :
    .dispatched k :: past <:+ h → past.overdue t = some wait → wait ≠ .run →
      wait ≠ .suspended → k.Competes t ∧ k.Competes k.dispatch.running ∧
        (k.task k.dispatch.running).priority ≤ (k.task t).priority
  /-- A suspended task is as late as before: any candidate goes first. -/
  suspended (t u : TaskId) (k : Kernel) (past : History) : .dispatched k :: past <:+ h →
    past.overdue t = some .suspended → k.Competes u → k.dispatch.running ≠ t

/-- From the tick at which its timeout runs out to the dispatch that chooses it, a task competes
by its priority in every dispatch, unless it is suspended. -/
theorem Run.punctual (run : Run config m h) : Punctual h := by
  constructor
  · intro t wait k past dispatched late blocked awake
    obtain ⟨m₀, run₀, rfl⟩ := run.of_dispatched dispatched
    obtain ⟨xs, lined⟩ := run₀.orderly.lined
    have competes := (run₀.late blocked late).competes awake
    exact ⟨competes, lined.chosen_of_competes run₀.orderly.running competes⟩
  · intro t u k past dispatched late competes chosen
    obtain ⟨m₀, run₀, rfl⟩ := run.of_dispatched dispatched
    obtain ⟨xs, lined⟩ := run₀.orderly.lined
    have ready := (lined.chosen_of_competes run₀.orderly.running competes).1.ready
    rw [chosen, (run₀.late (by simp) late).unready] at ready
    cases ready

def oversleeping : Option (Machine × History) :=
  follow (initial { maxTasks := 2, arenaStart := 4096, arenaSize := 512, timeSlice := 0 }, [])
    [.call (.createTask "late" 256 5 0 0), .steps 4, .call (.createTask "urgent" 256 1 0 0),
      .steps 4, .launch, .steps 1, .call (.sleep 1), .steps 6, .call (.sleep 1), .steps 6,
      .pend timerLine, .steps 8]

def lastChoice (t : TaskId) (x : Machine × History) :
    Option (Option WaitState × TaskId × Nat × Nat) :=
  match x.2 with
  | .dispatched k :: past =>
    some (History.overdue t past, k.dispatch.running, (k.task t).priority,
      (k.task k.dispatch.running).priority)
  | _ => none

theorem dispatched_of_lastChoice {x : Machine × History} {late : Option WaitState} {u : TaskId}
    {n n' : Nat} (last : lastChoice t x = some (late, u, n, n')) : ∃ k past,
      x.2 = .dispatched k :: past ∧ History.overdue t past = late ∧ k.dispatch.running = u ∧
        (k.task t).priority = n ∧ (k.task k.dispatch.running).priority = n' := by
  unfold lastChoice at last
  split at last
  · rename_i k past new
    simp only [Option.some.injEq, Prod.mk.injEq] at last
    exact ⟨k, past, new, last⟩
  · cases last

theorem punctual_oversleeping : ∃ (m : Machine) (k : Kernel) (past : History) (config : Config),
    Run config m (.dispatched k :: past) ∧ past.overdue 1 = some .timer ∧
      k.dispatch.running = 2 ∧ k.Competes 1 ∧
      (k.task k.dispatch.running).priority ≤ (k.task 1).priority := by
  obtain ⟨x, hx⟩ :=
    Option.isSome_iff_exists.mp (show oversleeping.isSome = true by decide +kernel)
  have facts : oversleeping.bind (lastChoice 1) = some (some .timer, 2, 5, 1) := by
    decide +kernel
  rw [hx] at facts
  obtain ⟨k, past, new, late, chosen, -, -⟩ := dispatched_of_lastChoice facts
  have run := run_of_follow hx
  rw [new] at run
  obtain ⟨competes, -, least⟩ :=
    run.punctual.competes 1 .timer k past (List.suffix_refl _) late (by simp) (by simp)
  exact ⟨x.1, k, past, _, run, late, chosen, competes, least⟩

def suspending : Option (Machine × History) :=
  follow (initial { maxTasks := 2, arenaStart := 4096, arenaSize := 512, timeSlice := 0 }, [])
    [.call (.createTask "late" 256 5 0 0), .steps 4, .call (.createTask "other" 256 9 0 0),
      .steps 4, .launch, .steps 1, .call (.blockOn .suspended 1), .steps 6, .pend timerLine,
      .call .currentTask, .steps 9]

/-- A timeout does not help a suspended task: a less urgent one runs on. -/
theorem passed_over : ∃ (m : Machine) (k : Kernel) (past : History) (config : Config),
    Run config m (.dispatched k :: past) ∧ past.overdue 1 = some .suspended ∧ ¬ k.Competes 1 ∧
      k.dispatch.running = 2 ∧ (k.task 1).priority < (k.task 2).priority := by
  obtain ⟨x, hx⟩ := Option.isSome_iff_exists.mp (show suspending.isSome = true by decide +kernel)
  have facts : suspending.bind (lastChoice 1) = some (some .suspended, 2, 5, 9) := by
    decide +kernel
  rw [hx] at facts
  obtain ⟨k, past, new, late, chosen, urgent, other⟩ := dispatched_of_lastChoice facts
  have run := run_of_follow hx
  rw [new] at run
  obtain ⟨m₀, run₀, rfl⟩ := run.of_dispatched (List.suffix_refl _)
  refine ⟨x.1, _, past, _, run, late, ?_, chosen, ?_⟩
  · intro competes
    have unready := (run₀.late (by simp) late).unready
    rw [competes.ready] at unready
    cases unready
  · rw [chosen] at other
    rw [urgent, other]
    decide

end Machine

end TaskKernel
