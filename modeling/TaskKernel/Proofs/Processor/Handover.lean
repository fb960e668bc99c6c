import TaskKernel.Proofs.Processor.Locking
import TaskKernel.Proofs.Schedule.Rotation

namespace TaskKernel

namespace Machine

variable {m m' : Machine} {h h' : History} {config : Config} {t : TaskId}

/-- The processor and the kernel agree on who runs, and everybody else waits for the processor. -/
structure Agreed (m : Machine) : Prop where
  owner : m.cpu.owner = .task m.kernel.running
  booted : m.context ≠ .boot
  others (t : TaskId) : t ≠ m.kernel.running →
    m.activityOf (.task t) = .dormant ∨ ∃ stage, m.activityOf (.task t) = .point stage
  interrupted : m.context = .handler →
    ∃ stage, m.activityOf (.task m.kernel.running) = .point stage

theorem Run.agreed (run : Run config m h) (dispatched : ∃ k, .dispatched k ∈ h) : m.Agreed := by
  have settled := run.settled
  have owner := run.orderly.owner (settled.started.mpr dispatched)
  refine ⟨owner, ?_, ?_, ?_⟩
  · intro booting
    rw [(of_booting booting).2] at owner
    cases owner
  · intro t other
    refine settled.parked t ?_
    rw [owner]
    intro same
    cases same
    exact other rfl
  · intro serving
    have inside : m.cpu.inInterrupt = true := by
      by_contra outside
      rw [context_eq, if_neg outside] at serving
      exact m.cpu.owner.context_ne serving
    have here := settled.interrupted inside
    rwa [owner] at here

structure Switches (m m' : Machine) : Prop where
  chosen : m'.cpu.owner = .task m.kernel.dispatch.running
  recorded : m'.kernel.running = m.kernel.dispatch.running
  resumes : m'.activity = m.activityOf (.task m.kernel.dispatch.running)
  left (t : TaskId) : m.cpu.owner = .task t →
    m.activityOf (.task t) = m.activity ∧ ∃ stage, m.activity = .point stage
  still (t : TaskId) : m'.activityOf (.task t) = m.activityOf (.task t)
  free : m'.cpu.cpuLock = false

theorem HandsOver.switches (handed : HandsOver m m' t) (chosen : m.kernel.dispatch.running = t)
    (recorded : m'.kernel.running = t) (free : m'.cpu.cpuLock = false) : Switches m m' := by
  subst chosen
  refine ⟨handed.owner, recorded, handed.activity, ?_, handed.same, free⟩
  intro t owned
  have mine : m.activityOf (.task t) = m.activity := by
    rw [activity_eq, context_eq, if_neg (by simp [handed.before]), owned]
    rfl
  exact ⟨mine, mine ▸ handed.here t owned⟩

/-- The kernel as the end of the boot code leaves it makes the same choice. -/
theorem Run.chosen_launch (run : Run config m h) (alive : m.launch.2 = .none) :
    m.launch.1.kernel.running = m.kernel.dispatch.running := by
  have orderly := run.orderly
  obtain ⟨xs, lined⟩ := orderly.lined
  rw [launch_eq (free_of_launch alive)]
  exact (lined.onward orderly.running (.inr rfl)).2

theorem Next.switches {k : Kernel} (run : Run config m h) (next : Next m h m' h')
    (new : h' = .dispatched k :: h) : Switches m m' := by
  cases next.turn.taking new rfl with
  | takes taken =>
    cases taken with
    | line => cases new
    | dispatch due => exact (HandsOver.of_dispatch due).switches rfl rfl due.free
  | launches booting alive =>
    have chosen := run.chosen_launch alive
    exact (HandsOver.of_launch booting alive).switches chosen.symm rfl (cpuLock_launch alive)

/-- Nothing but a dispatch takes the processor from its owner. -/
theorem Turn.dispatches (turn : Turn m h m' h') (changed : m'.cpu.owner ≠ m.cpu.owner) :
    h' = .dispatched m.kernel :: h := by
  cases turn with
  | onward away onward quiet =>
    cases onward with
    | moves a stays =>
      rw [cpu_setActivity] at changed
      exact absurd stays.owner changed
    | stays stays => exact absurd stays.owner changed
    | leaves => exact absurd rfl changed
  | check here check =>
    cases check with
    | closed | clear =>
      rw [cpu_setActivity] at changed
      exact absurd rfl changed
    | takes taken =>
      cases taken with
      | @line n handler => cases handler <;> exact absurd rfl changed
      | dispatch => rfl
  | outside only =>
    subst only
    exact absurd rfl changed
  | launch => rfl

/-- A task without the processor stays where it is. -/
theorem Turn.waits (turn : Turn m h m' h') (lost : m.cpu.owner ≠ .task t) :
    m'.activityOf (.task t) = m.activityOf (.task t) := by
  have away := context_ne_of_lost lost
  cases turn with
  | onward _ onward =>
    cases onward with
    | moves a stays =>
      rw [activityOf_setActivity, context_of_stays stays, if_neg away, activityOf_of_stays stays]
    | stays stays => exact activityOf_of_stays stays _
    | leaves => rfl
  | check here check =>
    cases check with
    | closed | clear => rw [activityOf_setActivity, if_neg away]
    | takes taken =>
      cases taken with
      | line => exact activityOf_enterHandler (by simp)
      | dispatch due => exact (HandsOver.of_dispatch due).same t
  | outside only =>
    subst only
    rfl
  | launch free booting alive => exact (HandsOver.of_launch booting alive).same t

def Without (t : TaskId) (x y : Machine × History) : Prop := Steps x y ∧ y.1.cpu.owner ≠ .task t

theorem path_of_without {x y : Machine × History} (away : Relation.ReflTransGen (Without t) x y) :
    Path x y := by
  induction away with
  | refl => exact .refl
  | tail _ without ih => exact ih.tail without.1

theorem waits_without {x y : Machine × History} (away : Relation.ReflTransGen (Without t) x y)
    (lost : x.1.cpu.owner ≠ .task t) :
    y.1.activityOf (.task t) = x.1.activityOf (.task t) ∧ y.1.cpu.owner ≠ .task t := by
  induction away with
  | refl => exact ⟨rfl, lost⟩
  | tail _ without ih => exact ⟨(without.1.turn.waits ih.2).trans ih.1, without.2⟩

/-- On a path to a state in which the task has the processor again, it gets it back in some
step. -/
theorem Path.regained {x z : Machine × History} (path : Path x z)
    (lost : x.1.cpu.owner ≠ .task t) (has : z.1.cpu.owner = .task t) :
    ∃ v w, Relation.ReflTransGen (Without t) x v ∧ Steps v w ∧ w.1.cpu.owner = .task t ∧
      Path w z := by
  induction path using Relation.ReflTransGen.head_induction_on with
  | refl => exact absurd has lost
  | @head x y first rest ih =>
    by_cases back : y.1.cpu.owner = .task t
    · exact ⟨x, y, .refl, first, back, rest⟩
    · obtain ⟨v, w, away, regaining, owner, later⟩ := ih back
      exact ⟨v, w, .head ⟨first, back⟩ away, regaining, owner, later⟩

/-- A task that has lost the processor and got it back goes on where it was, chosen by the
dispatch. -/
structure Regains (t : TaskId) (x u v z : Machine × History) : Prop where
  lost : u.2 = .dispatched x.1.kernel :: x.2
  regained : z.2 = .dispatched v.1.kernel :: v.2
  chosen : v.1.kernel.dispatch.running = t
  resumes : ∃ stage, x.1.activity = .point stage ∧ z.1.activity = .point stage

theorem Run.regains {u v z : Machine × History} (run : Run config m h)
    (had : m.cpu.owner = .task t) (losing : Without t (m, h) u)
    (away : Relation.ReflTransGen (Without t) u v) (back : Steps v z)
    (has : z.1.cpu.owner = .task t) : Regains t (m, h) u v z := by
  have gone : u.1.cpu.owner ≠ m.cpu.owner := by
    rw [had]
    exact losing.2
  have lost := losing.1.turn.dispatches gone
  have switched := Next.switches run losing.1 lost
  obtain ⟨mine, stage, here⟩ := switched.left t had
  obtain ⟨same, still⟩ := waits_without away losing.2
  have later : Run config v.1 v.2 := (run.next losing.1).path (path_of_without away)
  have got : z.1.cpu.owner ≠ v.1.cpu.owner := by
    rw [has]
    exact still.symm
  have regained := back.turn.dispatches got
  have switched' := Next.switches later back regained
  have chosen : v.1.kernel.dispatch.running = t := by
    have owner := switched'.chosen.symm.trans has
    cases owner
    rfl
  refine ⟨lost, regained, chosen, stage, here, ?_⟩
  calc z.1.activity = v.1.activityOf (.task t) := chosen ▸ switched'.resumes
    _ = u.1.activityOf (.task t) := same
    _ = m.activityOf (.task t) := switched.still t
    _ = .point stage := mine.trans here

structure InStep (m : Machine) (h : History) : Prop where
  agreed : (∃ k, .dispatched k ∈ h) → m.Agreed
  dispatches (m' : Machine) (h' : History) : Next m h m' h' → m'.cpu.owner ≠ m.cpu.owner →
    h' = .dispatched m.kernel :: h
  switches (m' : Machine) (k : Kernel) : Next m h m' (.dispatched k :: h) → Switches m m'
  waits (t : TaskId) (m' : Machine) (h' : History) : Next m h m' h' → m.cpu.owner ≠ .task t →
    m'.activityOf (.task t) = m.activityOf (.task t)
  /-- A task that loses the processor in the next step gets it back in a dispatch that chooses it,
  and goes on where it is now. -/
  regains (t : TaskId) (u v z : Machine × History) : m.cpu.owner = .task t →
    Without t (m, h) u → Relation.ReflTransGen (Without t) u v → Steps v z →
    z.1.cpu.owner = .task t → Regains t (m, h) u v z
  disciplined : h.LeavesLock → m.Disciplined h

theorem Run.inStep (run : Run config m h) : m.InStep h := by
  refine ⟨run.agreed, ?_, ?_, ?_, ?_, run.disciplined⟩
  · intro m' h' next changed
    exact next.turn.dispatches changed
  · intro m' k next
    exact next.switches run rfl
  · intro t m' h' next lost
    exact next.turn.waits lost
  · intro t u v z had losing away back has
    exact run.regains had losing away back has

def dozing : Option (Machine × History) :=
  follow (initial { maxTasks := 1, arenaStart := 4096, arenaSize := 512, timeSlice := 0 }, [])
    [.call (.createTask "a" 256 5 0 0), .steps 4, .launch, .steps 1, .call (.sleep 1), .steps 4]

/-- The timer wakes it up, and the boot code, the two tasks and the handler have left the lock
alone. -/
theorem inStep_dozing : ∃ (config : Config) (m : Machine) (h : History)
    (u v z : Machine × History), Run config m h ∧ m.Agreed ∧ m.Disciplined h ∧
      Without 1 (m, h) u ∧ u.1.cpu.owner = .task TaskId.idle ∧
      Relation.ReflTransGen (Without 1) u v ∧ Steps v z ∧ Regains 1 (m, h) u v z := by
  obtain ⟨x, hx⟩ := Option.isSome_iff_exists.mp (show dozing.isSome = true by decide +kernel)
  have before : dozing.map (fun x => (x.1.cpu.started, x.1.cpu.owner, decide x.2.LeavesLock)) =
      some (true, .task 1, true) := by
    decide +kernel
  have loses : (dozing.bind followStep).map (·.1.cpu.owner) = some (.task TaskId.idle) := by
    decide +kernel
  have wakes : ((dozing.bind followStep).bind
      (follow · [.steps 1, .pend timerLine, .steps 8])).map (·.1.cpu.owner) =
        some (.task 1) := by
    decide +kernel
  rw [hx] at before loses wakes
  simp only [Option.map_some, Option.some.injEq, Prod.mk.injEq, decide_eq_true_eq] at before
  obtain ⟨started, had, leaves⟩ := before
  obtain ⟨u, hu, lost⟩ := Option.map_eq_some_iff.mp loses
  simp only [Option.bind_some] at hu wakes
  rw [hu] at wakes
  obtain ⟨z, hz, has⟩ := Option.map_eq_some_iff.mp wakes
  have run := run_of_follow hx
  have inStep := run.inStep
  have gone : u.1.cpu.owner ≠ .task 1 := by
    rw [lost]
    decide
  have losing : Without 1 x u := ⟨steps_of_followStep hu, gone⟩
  obtain ⟨v, w, away, back, owner, -⟩ := Path.regained (path_of_follow hz) gone has
  refine ⟨_, x.1, x.2, u, v, w, run, ?_, inStep.disciplined leaves, losing, lost, away, back, ?_⟩
  · exact inStep.agreed (run.settled.started.mp started)
  · exact inStep.regains 1 u v w had losing away back owner

end Machine

end TaskKernel
