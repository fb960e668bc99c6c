import TaskKernel.Proofs.Schedule.Resting
import TaskKernel.Proofs.Schedule.Rotation

namespace TaskKernel

variable {s s' : System} {sec : Section} {next : Stage} {c : Context} {t : TaskId}
  {xs : List TaskId} {h h' past since : History}

/-- A look at the wait that does not find the task chosen changes nothing. -/
theorem Section.Left.eq_of_waiting {w : Waiter} (left : (Section.wake t w).Left s s' next)
    (waits : (s.kernel.task t).wait ≠ .run) : s' = s := by
  cases left with
  | plain simple => cases simple
  | sought seeks =>
    cases seeks with
    | wake chosen => exact absurd chosen waits
  | failed | asleep => rfl
  | woken chosen | exited chosen => exact absurd chosen waits

/-- A wait for a time that never comes is no reason to run. -/
theorem Kernel.not_eligible {k : Kernel} (wait : (k.task t).wait = .timer)
    (timeout : (k.task t).timeout = Ticks.forever) :
    ¬ (k.isCandidate t = true ∨ (k.task t).wait = .suspended) := by
  unfold Kernel.isCandidate
  rw [wait, timeout]
  simp [Kernel.holds, Ticks.forever, Ticks.expired]

/-- The last section of a task blocks it for ever. -/
theorem Section.exit_blocks (ran : Section.exit.run s = (s', .leave next)) :
    s'.kernel.taskCount = s.kernel.taskCount ∧
      (s'.kernel.task s.kernel.running).wait = .timer ∧
      (s'.kernel.task s.kernel.running).timeout = Ticks.forever := by
  obtain ⟨-, rfl, -⟩ := Section.block_forever ran
  have entry := System.running_recorded
    (s.log (.taskExited (s.kernel.task s.kernel.running).name)) .timer Ticks.forever
  change Kernel.task _ s.kernel.running = _ at entry
  rw [entry]
  exact ⟨rfl, rfl, rfl⟩

theorem History.not_mem_choices {news : History} (older : news ++ h = h ∨ ∃ x, news ++ h = x :: h)
    (passed : ∀ k, news ++ h = .dispatched k :: h → k.dispatch.running ≠ t) :
    t ∉ news.choices := by
  rcases older with same | ⟨x, new⟩
  · have none : news = [] := by simpa using same
    rw [none]
    exact List.not_mem_nil
  · have one : news = [x] := List.append_cancel_right (new.trans List.singleton_append.symm)
    subst one
    cases x with
    | dispatched k =>
      simp only [choices, dispatches, List.filterMap_cons, Happening.dispatch]
      simpa using (passed k rfl).symm
    | _ => exact List.not_mem_nil

namespace Machine

variable {m m' : Machine} {config : Config}

/-- What a step does to the wait of a task that does not run, or that waits. -/
inductive WaitStep (m : Machine) (h : History) (m' : Machine) (h' : History) (t : TaskId) : Prop
  | kept (wait : (m'.kernel.task t).wait = (m.kernel.task t).wait)
      (timeout : (m'.kernel.task t).timeout = (m.kernel.task t).timeout)
      (still : ∀ c s, h' ≠ .ran c s .tick :: h)
      (passed : ∀ k, h' = .dispatched k :: h → k.dispatch.running ≠ t)
  | ticked {c : Context} (new : h' = .ran c m.system .tick :: h)
      (wait : (m'.kernel.task t).wait = (m.kernel.task t).wait)
      (timeout : (m'.kernel.task t).timeout = (m.kernel.task t).timeout.countDown)
  | chosen (new : h' = .dispatched m.kernel :: h) (choice : m.kernel.dispatch.running = t)
      (eligible : m.kernel.isCandidate t = true ∨ (m.kernel.task t).wait = .suspended)
      (wait : (m'.kernel.task t).wait = .run)
      (timeout : (m'.kernel.task t).timeout = (m.kernel.task t).timeout)

namespace WaitStep

theorem of_task (same : m'.kernel.task t = m.kernel.task t)
    (still : ∀ c s, h' ≠ .ran c s .tick :: h) (quiet : ∀ k, h' ≠ .dispatched k :: h) :
    WaitStep m h m' h' t := by
  apply kept
  · rw [same]
  · rw [same]
  · exact still
  · intro k new
    exact absurd new (quiet k)

theorem of_tick (new : h' = .ran c m.system .tick :: h) (kernel : m'.kernel = m.kernel.tick.1)
    (pos : 0 < t) (old : t ≤ m.kernel.taskCount) : WaitStep m h m' h' t := by
  obtain ⟨slice, after⟩ := m.kernel.task_tick t
  rw [if_pos ⟨pos, old⟩, ← kernel] at after
  apply ticked new
  · rw [after]
  · rw [after]

theorem of_dispatch {k : Kernel} (lined : m.kernel.Lined xs)
    (running : m.kernel.running ≤ m.kernel.taskCount) (origin : k = m.kernel ∨ k = m.kernel.booted)
    (kernel : m'.kernel = k.dispatch) (pos : 0 < t) :
    WaitStep m h m' (.dispatched m.kernel :: h) t := by
  have choice := (lined.onward running origin).2
  have dispatched : k.Dispatched (k.rotation xs) := by
    rcases origin with rfl | rfl
    · exact lined.dispatched running
    · exact lined.booted.dispatched running
  have same : k.task t = m.kernel.task t := by
    rcases origin with rfl | rfl
    · rfl
    · exact m.kernel.task_booted (Nat.ne_of_gt pos)
  have entry := dispatched.task t
  rw [choice, ← kernel, same] at entry
  by_cases chosen : m.kernel.dispatch.running = t
  · rw [if_pos ⟨chosen ▸ Nat.ne_of_gt pos, chosen⟩] at entry
    apply WaitStep.chosen rfl chosen
    · have reason := (lined.dispatched running).chosen
      rw [chosen] at reason
      cases reason with
      | candidate member ready => exact .inl ready
      | suspended member waits => exact .inr waits
      | idle => exact absurd pos (Nat.lt_irrefl 0)
    · rw [entry]
    · rw [entry]
  · rw [if_neg fun both => chosen both.2] at entry
    apply kept
    · rw [entry]
    · rw [entry]
    · simp
    · intro k' new
      cases new
      exact chosen

end WaitStep

/-- A task that waits executes nothing but looks at its wait. -/
theorem Run.wakes (run : Run config m h) (waits : (m.kernel.task t).wait ≠ .run)
    (here : m.stageOf (.task t) = some (.enter sec)) : ∃ w, sec = .wake t w := by
  have unsettled : (Stage.enter sec).isSettled = false := by
    cases settled : (Stage.enter sec).isSettled with
    | false => rfl
    | true =>
      refine absurd (run.rests t ?_).wait waits
      intro stage here'
      cases here.symm.trans here'
      exact settled
  cases sec with
  | wake u w =>
    obtain ⟨call, -, runs⟩ := run.runs_of_enter here
    cases runs
    exact ⟨w, rfl⟩
  | _ => cases unsettled

/-- A section leaves the entry of a task alone that does not run, or that waits, ticks apart. -/
theorem Run.task_ran (run : Run config m h) (here : m.stageOf m.context = some (.enter sec))
    (ran : sec.run m.system = (s, .leave next)) (old : t ≤ m.kernel.taskCount)
    (waits : m.kernel.running ≠ t ∨ (m.kernel.task t).wait ≠ .run) (still : sec ≠ .tick) :
    s.kernel.task t = m.kernel.task t := by
  obtain ⟨call, -, runs⟩ := run.runs_of_enter here
  have runsAs := run.orderly.runsAs
  have left := Section.left_of_run ran
  by_cases mine : m.context = .task t
  · have blocked := waits.resolve_left fun other => other (runsAs.task t mine)
    rw [mine] at here
    obtain ⟨w, rfl⟩ := run.wakes blocked here
    rw [left.eq_of_waiting blocked]
    rfl
  · exact left.task_other runs runsAs mine old still

theorem Change.waitStep (run : Run config m h) (change : Change m h m' h') (pos : 0 < t)
    (old : t ≤ m.kernel.taskCount)
    (waits : m.kernel.running ≠ t ∨ (m.kernel.task t).wait ≠ .run) : WaitStep m h m' h' t := by
  have orderly := run.orderly
  obtain ⟨xs, lined⟩ := orderly.lined
  have same : ∀ x, h ≠ x :: h := fun x => (List.cons_ne_self x h).symm
  cases change with
  | code here ran =>
    have board := Kernel.board_of_bare (Stage.frame_of_run ran).1
    exact .of_task (Kernel.task_of_board board t) (fun _ _ => same _) fun _ => same _
  | @ran _ sec next s here ran system =>
    by_cases tick : sec = .tick
    · subst tick
      exact .of_tick rfl ((kernel_of_left system).trans (Section.tick_eq ran).1) pos old
    · apply WaitStep.of_task
      · rw [kernel_of_left system]
        exact run.task_ran here ran old waits tick
      · simp [tick]
      · simp
  | called call legal here system =>
    exact .of_task (congrArg (·.kernel.task t) system) (by simp) (by simp)
  | returned here kernel | entered here kernel =>
    exact .of_task (congrArg (Kernel.task · t) kernel) (by simp) (by simp)
  | dispatched kernel => exact .of_dispatch lined orderly.running (.inl rfl) kernel pos
  | launched here booting kernel =>
    exact .of_dispatch lined orderly.running (.inr rfl) kernel pos
  | idled here system =>
    exact .of_task (congrArg (·.kernel.task t) system) (fun _ _ => same _) fun _ => same _
  | quiet kernel =>
    exact .of_task (congrArg (Kernel.task · t) kernel) (fun _ _ => same _) fun _ => same _
  | wrote => exact .of_task rfl (fun _ _ => same _) fun _ => same _

/-- How far a task is that has called `exit`, and what has happened since. -/
inductive Leaving (m : Machine) (since : History) (t : TaskId) : Prop
  | calls (here : m.context = .task t) (quick : since.choices = [])
      (doing : m.activity = .running (.enter .exit) ∨ m.activity = .inside .exit)
  | gone (old : t ≤ m.kernel.taskCount) (wait : (m.kernel.task t).wait = .timer)
      (timeout : (m.kernel.task t).timeout = Ticks.forever) (never : t ∉ since.choices)

theorem free_of_alive (doing : m.activity = .running (.enter sec))
    (alive : ∀ halt, m.step.2 ≠ .halted halt) : m.cpu.cpuLock = false := by
  cases locked : m.system.cpu.cpuLock with
  | false => exact locked
  | true =>
    unfold step at alive
    simp [doing, Stage.run, locked] at alive

theorem left_of_alive (doing : m.activity = .inside sec)
    (alive : ∀ halt, m.step.2 ≠ .halted halt) :
    ∃ s next, sec.run m.system = (s, .leave next) := by
  unfold step at alive
  simp only [doing] at alive
  cases ran : sec.run m.system with
  | mk s e =>
    rw [ran] at alive
    cases e with
    | leave next => exact ⟨s, next, rfl⟩
    | halt halt => exact absurd rfl (alive halt)

namespace Leaving

/-- Lines that are pended or get handlers make no difference. -/
theorem of_lines {lines : List Line} (leaving : m.Leaving since t) :
    (m.setCpu { m.cpu with lines }).Leaving since t := by
  cases leaving with
  | calls here quick doing => exact .calls here quick doing
  | gone old wait timeout never => exact .gone old wait timeout never

/-- The task enters its last section. -/
theorem of_enter (here : m.context = .task t) (quick : since.choices = [])
    (doing : m.activity = .running (.enter .exit)) (alive : ∀ halt, m.step.2 ≠ .halted halt) :
    m.step.1.Leaving (m.happens ++ since) t := by
  have happens : m.happens = [] := happens_running doing (by simp)
  rw [happens, step_enter doing (free_of_alive doing alive)]
  apply calls
  · rw [← here]
    exact context_setActivity ..
  · exact quick
  · right
    apply activity_setActivity

/-- The task blocks for ever. -/
theorem of_inside (run : Run config m h) (here : m.context = .task t) (quick : since.choices = [])
    (doing : m.activity = .inside .exit) (alive : ∀ halt, m.step.2 ≠ .halted halt) :
    m.step.1.Leaving (m.happens ++ since) t := by
  obtain ⟨s, next, ran⟩ := left_of_alive doing alive
  have happens : m.happens = [.ran m.context m.system .exit] := by
    unfold Machine.happens
    rw [doing]
  have running : m.kernel.running = t := run.orderly.runsAs.task t here
  obtain ⟨count, wait, timeout⟩ := Section.exit_blocks ran
  have kernel : m.step.1.kernel = s.kernel := by
    rw [step_inside doing ran]
    exact kernel_of_left (system_setActivity ..)
  rw [happens]
  apply gone
  · rw [kernel, count, ← running]
    exact run.orderly.running
  · rw [kernel, ← running]
    exact wait
  · rw [kernel, ← running]
    exact timeout
  · rw [List.singleton_append, History.choices_of_quiet (.inr ⟨_, rfl⟩) (by simp), quick]
    exact List.not_mem_nil

/-- No step brings the task back. -/
theorem of_next (news : History) (run : Run config m h) (leaving : m.Leaving since t) (pos : 0 < t)
    (next : Next m h m' (news ++ h)) : m'.Leaving (news ++ since) t := by
  cases leaving with
  | calls here quick doing =>
    have busy : m.activity ≠ .application := by
      rcases doing with doing | doing <;> simp [doing]
    generalize new : news ++ h = h' at next
    cases next with
    | step _ alive =>
      rw [List.append_cancel_right new]
      rcases doing with doing | doing
      · exact of_enter here quick doing alive
      · exact of_inside run here quick doing alive
    | call free | leaveHandler free | launch free | write free => exact absurd free busy
    | pend line pended | setHandler line id pended =>
      have none : news = [] := by simpa using new
      obtain ⟨lines, rfl⟩ := lines_of_outside pended
      subst none
      exact of_lines (.calls here quick doing)
  | gone old wait timeout never =>
    have waits : m.kernel.running ≠ t ∨ (m.kernel.task t).wait ≠ .run := by simp [wait]
    have change := next.change run
    have old' := Nat.le_trans old (change.keeps run).old
    cases change.waitStep run pos old waits with
    | kept wait' timeout' still passed =>
      refine .gone old' (wait'.trans wait) (timeout'.trans timeout) ?_
      rw [History.choices_append, List.mem_append]
      exact not_or.mpr ⟨History.not_mem_choices change.older passed, never⟩
    | ticked new wait' timeout' =>
      have one := List.append_cancel_right (new.trans List.singleton_append.symm)
      subst one
      refine .gone old' (wait'.trans wait) ?_ never
      rw [timeout', timeout]
      rfl
    | chosen new choice eligible =>
      exact absurd eligible (Kernel.not_eligible wait timeout)

end Leaving

/-- Calls are the application's doing. -/
theorem happens_ne_called (c : Context) (call : Call) :
    .called c call :: h ≠ m.happens ++ h := by
  unfold happens
  cases m.activity with
  | running stage => cases stage <;> simp
  | point stage => cases m.cpu.preemption <;> simp
  | dormant | application | inside => simp

theorem Leaving.of_called (next : Next m h m' (.called (.task t) .exit :: h)) :
    m'.Leaving [] t := by
  generalize new : Happening.called (.task t) .exit :: h = h' at next
  cases next with
  | call free c legal =>
    obtain ⟨called, -⟩ := List.cons.inj new
    obtain ⟨mine, rfl⟩ := Happening.called.inj called
    apply calls
    · rw [mine]
      exact context_setActivity ..
    · rfl
    · left
      apply activity_setActivity
  | step => exact absurd new (happens_ne_called _ _)
  | launch => cases new
  | leaveHandler | pend | setHandler | write =>
    exact absurd new (List.cons_ne_self _ _)

/-- Once a task has called `exit`, it is on its way out or gone. -/
theorem Run.leaving (run : Run config m h) (pos : 0 < t)
    (exited : h = since ++ .called (.task t) .exit :: past) : m.Leaving since t := by
  refine Run.induct_next (P := fun m h => ∀ since : History,
    h = since ++ .called (.task t) .exit :: past → m.Leaving since t) ?_ ?_ run since exited
  · intro since exited
    simp at exited
  · intro m m' h h' run ih next since exited
    rcases (next.change run).older with rfl | ⟨x, rfl⟩
    · exact (ih since exited).of_next [] run pos next
    · cases since with
      | nil =>
        obtain ⟨rfl, rfl⟩ := List.cons.inj exited
        exact .of_called next
      | cons y since =>
        obtain ⟨rfl, earlier⟩ := List.cons.inj exited
        exact (ih since earlier).of_next [x] run pos next

structure Undisturbed (m : Machine) (h : History) : Prop where
  waits (t : TaskId) (m' : Machine) (h' : History) : Next m h m' h' → 0 < t →
    t ≤ m.kernel.taskCount → m.kernel.running ≠ t ∨ (m.kernel.task t).wait ≠ .run →
      WaitStep m h m' h' t
  exited (t : TaskId) (since past : History) : 0 < t →
    h = since ++ .called (.task t) .exit :: past →
      t ∉ since.choices ∧ m.kernel.queued.count t = 1

/-- The wait and the timeout of a task that does not run change with the ticks and with the
dispatch that chooses it, and a task that has called `exit` is chosen no more, while it keeps its
one place in the run queue. -/
theorem Run.undisturbed (run : Run config m h) : m.Undisturbed h := by
  constructor
  · intro t m' h' next pos old waits
    exact (next.change run).waitStep run pos old waits
  · intro t since past pos exited
    have orderly := run.orderly
    obtain ⟨xs, lined⟩ := orderly.lined
    have once : t ≤ m.kernel.taskCount → m.kernel.queued.count t = 1 := by
      intro old
      rw [lined.queued_eq]
      exact List.count_eq_one_of_mem lined.holds.nodup (lined.mem_iff.mpr ⟨pos, old⟩)
    cases run.leaving pos exited with
    | calls here quick =>
      refine ⟨by simp [quick], once ?_⟩
      rw [← orderly.runsAs.task t here]
      exact orderly.running
    | gone old wait timeout never => exact ⟨never, once old⟩

/-- A task has ended. The other one raises an event and creates a third, which sleeps while time
passes. -/
def exiting : Option (Machine × History) :=
  follow (initial { maxTasks := 3, arenaStart := 4096, arenaSize := 512, timeSlice := 0 }, [])
    [.call (.createTask "first" 256 5 0 0), .steps 4, .call (.createTask "second" 256 9 0 0),
      .steps 4, .launch, .steps 1, .call .exit, .steps 6, .call (.raise 0 1 true), .steps 5,
      .call (.createTask "third" 256 9 0 0), .steps 4, .pend timerLine, .call (.sleep 3), .steps 13]

theorem undisturbed_exiting : ∃ (m : Machine) (since past : History) (config : Config),
    Run config m (since ++ .called (.task 1) .exit :: past) ∧ past.choices = [1] ∧
      since.choices = [2, 3, 2, 2] ∧ 1 ∉ since.choices ∧ m.kernel.queued = [1, 2, 3] ∧
      m.kernel.queued.count 1 = 1 := by
  obtain ⟨⟨m, h⟩, hx⟩ := Option.isSome_iff_exists.mp (show exiting.isSome = true by decide +kernel)
  have facts : exiting.map (fun x => (History.choices (x.2.take 16), x.1.kernel.queued)) =
      some ([2, 3, 2, 2], [1, 2, 3]) := by decide +kernel
  have called : exiting.map (fun x => match x.2.drop 16 with
      | .called c call :: past => some (c, call, History.choices past)
      | _ => none) = some (some (.task 1, .exit, [1])) := by decide +kernel
  rw [hx] at facts called
  simp only [Option.map_some, Option.some.injEq, Prod.mk.injEq] at facts called
  obtain ⟨later, queued⟩ := facts
  have run := run_of_follow hx
  rw [show (m, h).2 = h.take 16 ++ h.drop 16 from (List.take_append_drop 16 h).symm] at run
  generalize h.take 16 = since at run later
  generalize h.drop 16 = before at run called
  clear hx
  cases before with
  | nil => cases called
  | cons x past =>
    cases x with
    | called c call =>
      simp only [Option.some.injEq, Prod.mk.injEq] at called
      obtain ⟨rfl, rfl, earlier⟩ := called
      obtain ⟨never, once⟩ := run.undisturbed.exited 1 since past (by decide) rfl
      exact ⟨m, since, past, _, run, earlier, later, never, queued, once⟩
    | _ => cases called

end Machine

end TaskKernel
