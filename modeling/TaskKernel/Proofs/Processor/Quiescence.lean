import TaskKernel.Proofs.Processor.Timekeeping
import TaskKernel.Proofs.Schedule.Slices
import TaskKernel.Proofs.Schedule.Urgency
import TaskKernel.Proofs.Wait.Entries

namespace TaskKernel

namespace Kernel

variable {k k' : Kernel} {xs : List TaskId} {t : TaskId}

structure Sleeps (k : Kernel) (t : TaskId) : Prop where
  blocked : (k.task t).wait ≠ .run
  awake : (k.task t).wait ≠ .suspended
  early : (k.task t).timeout ≠ Ticks.expired

theorem Sleeps.of_eq (sleeps : k.Sleeps t) (wait : (k'.task t).wait = (k.task t).wait)
    (timeout : (k'.task t).timeout = (k.task t).timeout) : k'.Sleeps t :=
  ⟨wait ▸ sleeps.blocked, wait ▸ sleeps.awake, timeout ▸ sleeps.early⟩

theorem Sleeps.of_unready (unready : k.isCandidate t = false)
    (awake : (k.task t).wait ≠ .suspended) : k.Sleeps t := by
  unfold isCandidate at unready
  refine ⟨?_, awake, ?_⟩
  · intro ready
    rw [ready] at unready
    cases unready
  · intro expired
    rw [expired] at unready
    cases wait : (k.task t).wait with
    | run =>
      rw [wait] at unready
      cases unready
    | suspended => exact awake wait
    | timer | mutex | event | queueFull | queueEmpty | multi =>
      rw [wait] at unready
      simp at unready

/-- A dispatch chooses the idle task if all others sleep. -/
theorem Dispatched.sleeps (dispatched : k.Dispatched xs) (idle : k.dispatch.running = TaskId.idle)
    (pos : 0 < t) (old : t ≤ k.dispatch.taskCount) : k.dispatch.Sleeps t := by
  have positive : ∀ u ∈ xs, u ≠ TaskId.idle := fun u member =>
    Nat.ne_of_gt (dispatched.lined.mem_iff.mp member).1
  have member : t ∈ xs := dispatched.lined.mem_iff.mpr ⟨pos, old⟩
  have same : k.dispatch.task t = k.task t :=
    (dispatched.task t).trans (if_neg fun busy => busy.1 idle)
  have chosen := dispatched.chosen
  generalize k.dispatch.running = b at chosen idle
  have sleeps : k.Sleeps t := by
    cases chosen with
    | candidate first | suspended first => exact absurd idle (positive b first)
    | idle unready awake => exact .of_unready (unready t member) (awake t member)
  exact sleeps.of_eq (congrArg Task.wait same) (congrArg Task.timeout same)

/-- A tick that wakes a task asks for a dispatch. -/
theorem Sleeps.tick (sleeps : k.Sleeps t) (bounded : k.Bounded) (pos : 0 < t)
    (old : t ≤ k.taskCount) (wait : (k'.task t).wait = (k.task t).wait)
    (timeout : (k'.task t).timeout = (k.task t).timeout.countDown) :
    k.tick.2 = true ∨ k'.Sleeps t := by
  cases asked : k.tick.2 with
  | true => exact .inl rfl
  | false =>
    refine .inr ⟨wait ▸ sleeps.blocked, wait ▸ sleeps.awake, fun elapsed => ?_⟩
    rw [timeout] at elapsed
    refine sleeps.early (Ticks.eq_expired_of_countDown (bounded t) ?_ elapsed)
    refine Bool.eq_false_iff.mpr fun out => ?_
    have none := (Bool.or_eq_false_iff.mp asked).1
    rw [timeoutRunsOut_iff.mpr ⟨t, pos, old, out⟩] at none
    cases none

end Kernel

namespace Processor

variable {p : Processor}

theorem isQuiescent_iff :
    p.isQuiescent = true ↔ p.idleWaiting = true ∧ p.hasPendingWork = false := by
  simp [isQuiescent]

/-- Nothing can be taken. -/
theorem not_asks (none : p.hasPendingWork = false) (r : Request) : p.asks r = false := by
  refine Bool.eq_false_iff.mpr fun asked => ?_
  rw [hasPendingWork_of_asks asked] at none
  cases none

end Processor

variable {s s' : System} {stage : Stage} {move : Move} {h h' : History}

theorem Stage.idleWaiting_of_run (ran : stage.run s = (s', move)) (busy : stage ≠ .idle) :
    s'.cpu.idleWaiting = s.cpu.idleWaiting := by
  by_cases timer : stage = .timer
  · subst timer
    cases ran
    rfl
  · exact (Stage.timeless_of_run ran timer busy).idleWaiting

namespace Machine

variable {m m' : Machine} {config : Config} {t : TaskId}

/-- Requests to dispatch are dropped by dispatches only. -/
theorem Turn.kept (turn : Turn m h m' h') (none : ∀ k, h' ≠ .dispatched k :: h) :
    m'.cpu.started = m.cpu.started ∧
      (m.cpu.dispatchPended = true → m'.cpu.dispatchPended = true) := by
  cases turn with
  | onward away onward =>
    cases onward with
    | moves a stays =>
      rw [cpu_setActivity]
      exact ⟨stays.started, stays.kept⟩
    | stays stays => exact ⟨stays.started, stays.kept⟩
    | leaves => exact ⟨rfl, id⟩
  | check here check =>
    cases check with
    | closed | clear =>
      rw [cpu_setActivity]
      exact ⟨rfl, id⟩
    | takes taken =>
      cases taken with
      | @line n handler => cases handler <;> exact ⟨rfl, id⟩
      | dispatch => exact absurd rfl (none _)
  | outside same =>
    subst same
    exact ⟨rfl, id⟩
  | launch => exact absurd rfl (none _)

theorem pended_of_left (system : m'.system = s.setCpuLock false)
    (pended : s.cpu.dispatchPended = true) : m'.cpu.dispatchPended = true := by
  unfold Machine.cpu
  rw [system]
  exact pended

/-- The tick's section asks for a dispatch where the tick does. -/
theorem Next.tick_asks {c : Context} (run : Run config m h)
    (next : Next m h m' (.ran c m.system .tick :: h)) (started : m.cpu.started = true)
    (asked : m.kernel.tick.2 = true) : m'.cpu.dispatchPended = true := by
  obtain ⟨-, -, -, s, stage, ran, system⟩ := (next.change run).of_ran
  obtain ⟨-, -, rfl⟩ := Section.tick_eq ran
  refine pended_of_left system ?_
  rw [show m.system.kernel.tick.2 = true from asked]
  refine System.requestReschedule_pended ?_
  exact m.kernel.tick_ordered.started.trans (run.orderly.started.trans started)

/-- While the idle task runs and no dispatch is asked for, the other tasks sleep. -/
def Calm (m : Machine) : Prop :=
  m.cpu.started = true → m.cpu.dispatchPended = false → m.kernel.running = TaskId.idle →
    ∀ t, 0 < t → t ≤ m.kernel.taskCount → m.kernel.Sleeps t

theorem Next.calm_of_rests (run : Run config m h) (calm : m.Calm) (next : Next m h m' h')
    (rests : m.kernel.Rests m'.kernel) (none : ∀ k, h' ≠ .dispatched k :: h) : m'.Calm := by
  obtain ⟨launched, kept⟩ := next.turn.kept none
  intro started quiet idle t pos old
  rw [launched] at started
  rw [rests.running] at idle
  rw [Kernel.taskCount_of_lineup rests.lineup] at old
  have unasked : m.cpu.dispatchPended = false := by
    refine Bool.eq_false_iff.mpr fun pended => ?_
    rw [kept pended] at quiet
    cases quiet
  have sleeps := calm started unasked idle t pos old
  have other : m.kernel.running ≠ t := fun same => Nat.ne_of_gt pos (same.symm.trans idle)
  cases (next.change run).waitStep run pos old (.inl other) with
  | kept wait timeout => exact sleeps.of_eq wait timeout
  | ticked new wait timeout =>
    subst new
    rcases sleeps.tick run.bounded pos old wait timeout with asked | sleeps
    · rw [next.tick_asks run started asked] at quiet
      cases quiet
    · exact sleeps
  | chosen new => exact absurd new (none _)

theorem Next.calm (run : Run config m h) (calm : m.Calm) (next : Next m h m' h') : m'.Calm := by
  have orderly := run.orderly
  obtain ⟨xs, lined⟩ := orderly.lined
  cases (next.change run).regroups run with
  | rests rests none => exact next.calm_of_rests run calm rests none
  | enters room new kernel =>
    subst new
    obtain ⟨-, -, -, s, stage, ran, system⟩ := (next.change run).of_ran
    have count : s.kernel.taskCount = m.kernel.taskCount + 1 :=
      congrArg Kernel.taskCount ((kernel_of_left system).symm.trans kernel)
    intro started quiet
    rcases Section.createTask_cases ran with ⟨same, -⟩ | ⟨-, -, pended⟩
    · rw [same] at count
      exact absurd count (Nat.ne_of_lt (Nat.lt_succ_self _))
    · have launched := (next.turn.kept (by simp)).1.symm.trans started
      rw [pended_of_left system (pended (orderly.started.trans launched))] at quiet
      cases quiet
  | @dispatches k origin kernel new =>
    intro _ _ idle t pos old
    rw [kernel] at idle old ⊢
    rcases origin with rfl | rfl
    · obtain ⟨ys, dispatched⟩ := lined.dispatch orderly.running
      exact dispatched.sleeps idle pos old
    · obtain ⟨ys, dispatched⟩ := lined.booted.dispatch orderly.running
      exact dispatched.sleeps idle pos old

theorem Run.calm (run : Run config m h) : m.Calm :=
  run.induct_next (fun started => by cases started) fun run calm next => next.calm run calm

/-- Only the idle task falls asleep or wakes up. -/
theorem Next.idleWaiting_eq (next : Next m h m' h') (busy : m.activity ≠ .running .idle) :
    m'.cpu.idleWaiting = m.cpu.idleWaiting := by
  have ran {stage : Stage} {s : System} {move : Move} (doing : m.activity = .running stage)
      (ran : stage.run m.system = (s, move)) : s.cpu.idleWaiting = m.cpu.idleWaiting :=
    Stage.idleWaiting_of_run ran fun idle => busy (idle ▸ doing)
  cases next with
  | step _ alive =>
    have stepped := stepped_of_alive alive
    generalize m.step.1 = m' at stepped ⊢
    generalize m.happens = news at stepped
    cases stepped with
    | starts =>
      unfold start
      split
      · rw [cpu_setActivity]
      · rfl
    | stays => rfl
    | goes doing moved =>
      rw [cpu_setActivity]
      exact ran doing moved
    | sleeps doing moved => exact ran doing moved
    | returns =>
      unfold finishCall
      split
      · rfl
      · rw [cpu_setActivity]
    | runs doing ran =>
      rw [cpu_setActivity]
      exact (Section.left_of_run ran).asks.timeless.idleWaiting
    | point doing =>
      have check := check_step (h := h) doing
      generalize m.step.1 = m' at check ⊢
      generalize m.happens ++ h = h' at check
      cases check with
      | closed | clear => rw [cpu_setActivity]
      | takes taken =>
        cases taken with
        | @line n handler => cases handler <;> rfl
        | dispatch => rfl
  | call => exact congrArg Processor.idleWaiting (cpu_setActivity ..)
  | leaveHandler => rfl
  | launch free booting alive =>
    rw [launch_eq (free_of_launch alive)]
    rfl
  | pend line pended | setHandler line id pended =>
    obtain ⟨lines, rfl⟩ := lines_of_outside pended
    rfl
  | write => rfl

/-- The idle task wakes up when there is something to take. -/
theorem step_idle_pended (doing : m.activity = .running .idle)
    (work : m.cpu.hasPendingWork = true) : m.step =
      ((m.setCpu { m.cpu with idleWaiting := false }).setActivity (.point .idle), .none) := by
  have ran : Stage.run m.system .idle =
      ({ m.system with cpu := { m.cpu with idleWaiting := false } }, .point .idle) := if_pos work
  unfold step
  simp only [doing, ran]
  rfl

theorem step_idle_quiet (doing : m.activity = .running .idle)
    (none : m.cpu.hasPendingWork = false) : m.step =
      (m.setCpu { m.cpu with idleWaiting := true }, .none) := by
  have ran : Stage.run m.system .idle =
      ({ m.system with cpu := { m.cpu with idleWaiting := true } }, .sleep) :=
    if_neg (Bool.eq_false_iff.mp none)
  unfold step
  simp only [doing, ran]
  rfl

theorem Next.dozes (next : Next m h m' h')
    (dozes : m.cpu.idleWaiting = true → m.activity = .running .idle)
    (asleep : m'.cpu.idleWaiting = true) : m'.activity = .running .idle := by
  by_cases doing : m.activity = .running .idle
  · cases next with
    | step =>
      cases work : m.cpu.hasPendingWork with
      | true =>
        rw [step_idle_pended doing work, cpu_setActivity] at asleep
        cases asleep
      | false =>
        rw [step_idle_quiet doing work]
        exact doing
    | call free | leaveHandler free | launch free | write free =>
      rw [free] at doing
      cases doing
    | pend line pended | setHandler line id pended =>
      obtain ⟨lines, rfl⟩ := lines_of_outside pended
      exact doing
  · rw [next.idleWaiting_eq doing] at asleep
    exact absurd (dozes asleep) doing

/-- The idle task sleeps in its own loop only. -/
theorem Run.dozes (run : Run config m h) : m.cpu.idleWaiting = true →
    m.activity = .running .idle :=
  run.induct_next (fun asleep => by cases asleep) fun _ dozes next => next.dozes dozes

theorem Run.idle_context (run : Run config m h) (here : m.activity.stage = some .idle) :
    m.context = .task TaskId.idle := by
  have conforms := run.conforms m.context
  rw [stageOf_context rfl, here] at conforms
  rcases conforms.stage with ⟨here, -⟩ | ⟨call, -, stays⟩
  · exact here
  · generalize m.context = c at stays
    cases stays

structure Asleep (m : Machine) (h : History) : Prop where
  context : m.context = .task TaskId.idle
  idle : m.activity = .running .idle
  running : m.kernel.running = TaskId.idle
  none (r : Request) : m.cpu.asks r = false
  counted : m.cpu.tickCount = h.interrupts
  ticked : h.ticks = h.interrupts
  sleeps (t : TaskId) : 0 < t → t ≤ m.kernel.taskCount → m.kernel.Sleeps t
  parked (t : TaskId) : 0 < t → t ≤ m.kernel.taskCount →
    ∃ stage, m.activityOf (.task t) = .point stage ∧ stage.isSettled = false
  heeded : h.neglected = false → ∀ t, 0 < t → t ≤ m.kernel.taskCount →
    m.kernel.isCandidate t = false

theorem Run.asleep (run : Run config m h) (quiescent : m.cpu.isQuiescent = true) :
    m.Asleep h := by
  obtain ⟨waiting, none⟩ := Processor.isQuiescent_iff.mp quiescent
  have doing := run.dozes waiting
  have context := run.idle_context (congrArg Activity.stage doing)
  have orderly := run.orderly
  have settled := run.settled
  have outside : m.cpu.inInterrupt = false := by
    refine Bool.eq_false_iff.mpr fun inside => ?_
    rw [context_handler inside] at context
    cases context
  have running := orderly.runsAs.task _ context
  have owner : m.cpu.owner.context = .task TaskId.idle := by
    rwa [context_eq, if_neg (Bool.eq_false_iff.mp outside)] at context
  have started : m.cpu.started = true := by
    by_contra early
    rw [(orderly.booting (Bool.eq_false_iff.mpr early)).1] at owner
    cases owner
  have quiet : m.cpu.dispatchPended = false := Processor.not_asks none .dispatch
  have sleeps := run.calm started quiet running
  have away (t : TaskId) (pos : 0 < t) : m.cpu.owner ≠ .task t := by
    intro owned
    rw [owned] at owner
    cases owner
    exact Nat.lt_irrefl 0 pos
  have time := run.unserved (by simp [context])
  refine ⟨context, doing, running, Processor.not_asks none, time.counted, time.ticked, sleeps,
    ?_, ?_⟩
  · intro t pos old
    have unsettled : ¬ ∀ stage, m.stageOf (.task t) = some stage → stage.isSettled = true :=
      fun rests => (sleeps t pos old).blocked (run.rests t rests).wait
    rcases settled.parked t (away t pos) with fresh | ⟨stage, here⟩
    · refine absurd (fun stage here => ?_) unsettled
      rw [stageOf, fresh] at here
      cases here
    · refine ⟨stage, here, Bool.eq_false_iff.mpr fun rests => unsettled fun stage' here' => ?_⟩
      rw [stageOf, here] at here'
      cases here'
      exact rests
  · intro heeded t pos old
    have order := run.heeding started quiet heeded
    refine Bool.eq_false_iff.mpr fun ready => ?_
    have other : m.kernel.running ≠ t := fun same => Nat.ne_of_gt pos (same.symm.trans running)
    exact (order.urgent t ⟨pos, old, other⟩ ready).1 running

end Machine

end TaskKernel
