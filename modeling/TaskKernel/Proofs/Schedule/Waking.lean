import TaskKernel.Proofs.Schedule.Urgency
import TaskKernel.Proofs.Wait.Entries

namespace TaskKernel

variable {s s' : System} {sec : Section} {next : Stage} {c : Context} {q : Nat} {t : TaskId}
  {h : History}

/-- A queue gets its ring once, and nobody is asked to dispatch. -/
theorem Section.ring_of_opens (ran : sec.run s = (s', .leave next)) (opens : sec.opens q = true) :
    s.kernel.ring q = none ∧ s'.cpu = s.cpu := by
  cases sec with
  | installRing i slots payload base =>
    have same : i = q := of_decide_eq_true opens
    subst same
    simp only [run] at ran
    split at ran <;> cases ran
    rename_i fresh
    exact ⟨by simpa using fresh, rfl⟩
  | _ => cases opens

namespace Machine

variable {m m' : Machine} {config : Config}

structure Readies (m m' : Machine) (t : TaskId) : Prop where
  idle : ¬ m.kernel.Competes t
  competes : m'.kernel.Competes t

instance (m m' : Machine) (t : TaskId) : Decidable (Readies m m' t) :=
  decidable_of_iff (¬ m.kernel.Competes t ∧ m'.kernel.Competes t)
    ⟨fun x => ⟨x.1, x.2⟩, fun x => ⟨x.idle, x.competes⟩⟩

/-- The task that executes a section does not become ready by it. -/
theorem Run.not_readies_self (run : Run config m h) (mine : m.context = .task t) (pos : 0 < t)
    (here : m.stageOf m.context = some (.enter sec)) (ran : sec.run m.system = (s, .leave next))
    (kernel : m'.kernel = s.kernel) : ¬ Readies m m' t := by
  intro readies
  have order := run.orderly
  have old : t ≤ m.kernel.taskCount := order.runsAs.task t mine ▸ order.running
  by_cases ready : (m.kernel.task t).wait = .run
  · refine readies.idle ⟨pos, old, ?_⟩
    unfold Kernel.isCandidate
    rw [ready]
  · rw [mine] at here
    obtain ⟨w, rfl⟩ := run.wakes ready here
    have same := (Section.left_of_run ran).eq_of_waiting ready
    have still : m'.kernel = m.kernel := kernel.trans (congrArg System.kernel same)
    exact readies.idle (still ▸ readies.competes)

/-- A task can become ready unannounced in a section whose caller wants it so, and in the one that
gives its ring to a queue the task waits for. -/
theorem Run.readies_cases (run : Run config m h) (started : m.cpu.started = true)
    {before : System} (step : Next m h m' (.ran c before sec :: h)) (readies : Readies m m' t) :
    m'.cpu.dispatchPended = true ∨ sec.isSilent = true ∨
      ∃ q, sec.opens q = true ∧ m.kernel.ring q = none ∧
        (m.kernel.task t).wait.isOn q = true ∧
        m'.cpu.dispatchPended = m.cpu.dispatchPended := by
  obtain ⟨rfl, rfl, here, s, next, ran, system⟩ := (step.change run).of_ran
  obtain ⟨call, -, runs⟩ := run.runs_of_enter here
  have order := run.orderly
  have left := Section.left_of_run ran
  have kernel : m'.kernel = s.kernel := kernel_of_left system
  have cpu : m'.cpu.dispatchPended = s.cpu.dispatchPended := by
    unfold Machine.cpu
    rw [system]
    rfl
  have launched : m.kernel.started = true := order.started.trans started
  obtain ⟨pos, old', ready'⟩ := readies.competes
  rw [kernel] at old' ready'
  rw [cpu]
  by_cases mine : m.context = .task t
  · exact absurd readies (run.not_readies_self mine pos here ran kernel)
  rcases left.rests_or_asks runs order.runsAs order.running launched with pended | rests
  · exact .inl pended
  cases loud : sec.isSilent with
  | true => exact .inr (.inl rfl)
  | false =>
    have old : t ≤ m.kernel.taskCount := Kernel.taskCount_of_lineup rests.lineup ▸ old'
    have unready : ¬ m.kernel.isCandidate t = true := fun was => readies.idle ⟨pos, old, was⟩
    refine (left.ready runs order.runsAs launched run.bounded loud mine pos old).imp_right ?_
    rintro ⟨ready, -⟩
    right
    by_contra none
    refine unready (ready (fun q opens => ?_) ready')
    obtain ⟨fresh, same⟩ := Section.ring_of_opens ran opens
    rw [← Bool.not_eq_true]
    exact fun awaited =>
      none ⟨q, opens, fresh, awaited, congrArg Processor.dispatchPended same⟩

def followOn (config : Config) (cues : List Cue) :
    Option ((Machine × History) × Machine × History) :=
  (follow (initial config, []) cues).bind fun x => (followStep x).map fun y => (x, y)

theorem next_of_followOn {cues : List Cue} {x y : Machine × History}
    (followed : followOn config cues = some (x, y)) (doing : x.1.activity = .inside sec) :
    Run config x.1 x.2 ∧ Next x.1 x.2 y.1 (.ran x.1.context x.1.system sec :: x.2) := by
  obtain ⟨z, reached, stepped⟩ := Option.bind_eq_some_iff.mp followed
  obtain ⟨y', step, same⟩ := Option.map_eq_some_iff.mp stepped
  obtain ⟨rfl, rfl⟩ := Prod.mk.inj same
  have next : Next z.1 z.2 y'.1 y'.2 := steps_of_followStep step
  have happens : y'.2 = .ran z.1.context z.1.system sec :: z.2 := by
    unfold followStep at step
    rw [if_neg (by simp [doing])] at step
    split at step <;> cases step
    unfold Machine.happens
    rw [doing]
    rfl
  rw [happens] at next
  exact ⟨run_of_follow reached, next⟩

def raising : Option ((Machine × History) × Machine × History) :=
  followOn { maxTasks := 2, arenaStart := 4096, arenaSize := 512, timeSlice := 0 }
    [.call (.createTask "urgent" 256 5 0 0), .steps 4, .call (.createTask "other" 256 9 0 0),
      .steps 4, .launch, .steps 1, .call (.waitEvent 0 1 {} 0), .steps 6,
      .call (.raise 0 1 true), .steps 1]

theorem readies_cases_raising : ∃ (m m' : Machine) (h : History) (config : Config) (c : Context)
    (before : System), Run config m h ∧ Next m h m' (.ran c before (.raise 0 1 true) :: h) ∧
      m.cpu.started = true ∧ Readies m m' 1 ∧ m'.cpu.dispatchPended = true := by
  obtain ⟨⟨x, y⟩, found⟩ :=
    Option.isSome_iff_exists.mp (show raising.isSome = true by decide +kernel)
  have facts : raising.map (fun z => (decide (z.1.1.activity = .inside (.raise 0 1 true)),
      z.1.1.cpu.started, decide (Readies z.1.1 z.2.1 1))) = some (true, true, true) := by
    decide +kernel
  rw [found] at facts
  simp only [Option.map_some, Option.some.injEq, Prod.mk.injEq, decide_eq_true_eq] at facts
  obtain ⟨doing, started, readies⟩ := facts
  obtain ⟨run, next⟩ := next_of_followOn found doing
  refine ⟨_, _, _, _, _, _, run, next, started, readies, ?_⟩
  rcases run.readies_cases started next readies with pended | silent | ⟨q, opens, -⟩
  · exact pended
  · cases silent
  · cases opens

/-- A task creates the queue that a more urgent one waits to have room. -/
def opening : Option ((Machine × History) × Machine × History) :=
  followOn { maxTasks := 2, arenaStart := 4096, arenaSize := 512, timeSlice := 0 }
    [.call (.createTask "urgent" 256 5 0 0), .steps 4, .call (.createTask "other" 256 9 0 0),
      .steps 4, .launch, .steps 1, .call (.blockOn (.queueFull 0) 0), .steps 6,
      .call (.createQueue 0 2 4), .steps 13]

/-- The queue comes to be, and the more urgent task is left waiting. -/
theorem overlooked_opening : ∃ (m m' : Machine) (h : History) (config : Config) (c : Context)
    (before : System) (base : Nat), Run config m h ∧
      Next m h m' (.ran c before (.installRing 0 2 4 base) :: h) ∧ m.cpu.started = true ∧
      Readies m m' 1 ∧ m'.kernel.running = 2 ∧
      (m'.kernel.task 1).priority < (m'.kernel.task 2).priority ∧
      m'.cpu.dispatchPended = false := by
  obtain ⟨⟨x, y⟩, found⟩ :=
    Option.isSome_iff_exists.mp (show opening.isSome = true by decide +kernel)
  have facts : opening.map (fun z => (decide (z.1.1.activity = .inside (.installRing 0 2 4 4120)),
      z.1.1.cpu.started, decide (Readies z.1.1 z.2.1 1), z.2.1.kernel.running,
      decide ((z.2.1.kernel.task 1).priority < (z.2.1.kernel.task 2).priority),
      z.2.1.cpu.dispatchPended)) = some (true, true, true, 2, true, false) := by
    decide +kernel
  rw [found] at facts
  simp only [Option.map_some, Option.some.injEq, Prod.mk.injEq, decide_eq_true_eq] at facts
  obtain ⟨doing, started, readies, running, urgent, idle⟩ := facts
  obtain ⟨run, next⟩ := next_of_followOn found doing
  exact ⟨_, _, _, _, _, _, _, run, next, started, readies, running, urgent, idle⟩

end Machine

end TaskKernel
