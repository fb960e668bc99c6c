import TaskKernel.Proofs.Run.Executions
import TaskKernel.Proofs.Run.Tasks

namespace TaskKernel

namespace Kernel

/-- No task was created or chosen. The entries that belong to no task were left alone. -/
structure Rests (k k' : Kernel) : Prop where
  lineup : k'.lineup = k.lineup
  running : k'.running = k.running
  priority (t : TaskId) : (k'.task t).priority = (k.task t).priority
  blank (t : TaskId) : k.taskCount < t → k'.task t = k.task t

variable {k k' k'' : Kernel}

theorem Rests.of_board (h : k'.board = k.board) : k.Rests k' :=
  ⟨lineup_of_board h, running_of_board h, fun t => congrArg Task.priority (task_of_board h t),
    fun t _ => task_of_board h t⟩

theorem rests_log (k : Kernel) (msg : Message) : k.Rests (k.log msg) := .of_board rfl

theorem Rests.trans (h : k.Rests k') (h' : k'.Rests k'') : k.Rests k'' := by
  refine ⟨h'.lineup.trans h.lineup, h'.running.trans h.running, ?_, ?_⟩
  · intro t
    exact (h'.priority t).trans (h.priority t)
  · intro t above
    refine (h'.blank t ?_).trans (h.blank t above)
    rw [taskCount_of_lineup h.lineup]
    exact above

/-- An update of a task that exists, which keeps its priority. -/
theorem Rests.updateTask {f : Task → Task} {t : TaskId} (old : t ≤ k.taskCount)
    (priority : ∀ task : Task, (f task).priority = task.priority) : k.Rests (k.updateTask t f) := by
  refine ⟨rfl, rfl, ?_, ?_⟩
  · intro u
    rw [task_updateTask]
    split
    · exact priority _
    · rfl
  · intro u above
    rw [task_updateTask, if_neg]
    intro he
    subst he
    exact Nat.not_lt_of_le old above

theorem spendSlice_rests (old : k.running ≤ k.taskCount) : k.Rests k.spendSlice := by
  unfold spendSlice
  split
  · refine (k.rests_log (.sliceUsedUp k.running)).trans ?_
    exact .updateTask old fun _ => rfl
  · split
    · exact .updateTask old fun _ => rfl
    · exact .of_board rfl

theorem countDown_rests (k : Kernel) : k.Rests k.countDown := by
  have tasks : ∃ tasks, k.countDown = { k with tasks } := ⟨_, foldl_updateTask ..⟩
  obtain ⟨tasks, same⟩ := tasks
  refine ⟨by rw [same]; rfl, by rw [same], ?_, ?_⟩
  · intro t
    rw [task_countDown]
    split <;> rfl
  · intro t above
    rw [task_countDown, if_neg]
    intro within
    exact Nat.not_lt_of_le within.2 above

theorem tick_rests (old : k.running ≤ k.taskCount) : k.Rests k.tick.1 := by
  have counted := k.countDown_rests
  refine counted.trans (spendSlice_rests ?_)
  rw [counted.running, taskCount_of_lineup counted.lineup]
  exact old

end Kernel

variable {s s' s₀ : System} {sec : Section} {next : Stage} {call : Call} {c : Context}
  {h h' : History}

theorem System.recorded_rests (s : System) (wait : WaitState) (timeout : Ticks)
    (old : s.kernel.running ≤ s.kernel.taskCount) :
    s.kernel.Rests (s.recorded wait timeout).kernel := by
  refine (s.kernel.rests_log (.blocks s.kernel.running wait timeout)).trans ?_
  exact .updateTask old fun _ => rfl

theorem System.roused_rests (s : System) {t : TaskId} (old : t ≤ s.kernel.taskCount) :
    s.kernel.Rests (s.roused t).kernel := by
  refine Kernel.Rests.trans ?_ (Kernel.rests_log _ _)
  exact .updateTask old fun _ => rfl

theorem Section.createTask_room {name : String} {stack priority param entry : Nat} {r : Reply}
    (ran : (Section.createTask name stack priority param entry).run s = (s', .leave (.return r))) :
    s.kernel.taskCount < s.kernel.config.maxTasks := by
  simp only [run] at ran
  split at ran
  · cases ran
  · rename_i room
    exact Nat.lt_of_not_le room

/-- A task that goes on after a wait is the running one. -/
theorem Section.Seeks.rests {g : Goal} {nowait : Bool} {timeout : Ticks}
    (seeks : sec.Seeks s s₀ g nowait timeout) (runs : call.Runs c sec) (here : Call.RunsAs s c)
    (old : s.kernel.running ≤ s.kernel.taskCount) : s.kernel.Rests s₀.kernel := by
  cases seeks with
  | seek | add | flush | multi => exact .of_board rfl
  | @wake t =>
    cases runs
    rw [here.task t rfl] at old
    exact s.roused_rests old

theorem Sought.rests {g : Goal} {nowait : Bool} {timeout : Ticks}
    (sought : Sought s g nowait timeout s' next) (old : s.kernel.running ≤ s.kernel.taskCount) :
    s.kernel.Rests s'.kernel := by
  cases sought with
  | reached now => exact .of_board now.frame.1
  | refused | late => exact .of_board rfl
  | blocks => exact s.recorded_rests _ _ old

/-- A section lets the tasks rest, but for one that creates a task. -/
theorem Section.Left.rests (left : sec.Left s s' next) (runs : call.Runs c sec)
    (here : Call.RunsAs s c) (old : s.kernel.running ≤ s.kernel.taskCount) :
    s.kernel.Rests s'.kernel ∨ ∃ name stack priority param entry,
      sec = .createTask name stack priority param entry ∧
      s.kernel.taskCount < s.kernel.config.maxTasks ∧
      s'.kernel = (s.kernel.enterTask name priority param entry).1.log
        (.taskCreated name (s.kernel.taskCount + 1) priority stack) := by
  cases left with
  | plain simple ran =>
    cases same : sec.changesTasks with
    | false => exact .inl (.of_board (plain_board simple same ran))
    | true =>
      cases sec with
      | createTask name stack priority param entry =>
        rcases createTask_cases ran with ⟨rfl, -⟩ | ⟨kernel, rfl, -⟩
        · exact .inl (.of_board rfl)
        · exact .inr ⟨_, _, _, _, _, rfl, createTask_room ran, kernel⟩
      | tick =>
        rw [(tick_eq ran).1]
        exact .inl (Kernel.tick_rests old)
      | _ => cases same
  | sought seeks sought =>
    have before := seeks.rests runs here old
    refine .inl (before.trans (sought.rests ?_))
    rw [before.running, Kernel.taskCount_of_lineup before.lineup]
    exact old
  | failed | late | asleep => exact .inl (.of_board rfl)
  | pauses | lateExit => exact .inl (s.recorded_rests _ _ old)
  | exits =>
    have logged := s.kernel.rests_log (.taskExited (s.kernel.task s.kernel.running).name)
    have recorded := (s.log (.taskExited (s.kernel.task s.kernel.running).name)).recorded_rests
      .timer Ticks.forever old
    exact .inl (logged.trans recorded)
  | @woken t =>
    cases runs
    rw [here.task t rfl] at old
    exact .inl (s.roused_rests old)
  | @exited t =>
    cases runs
    have same := here.task t rfl
    refine .inl ((s.roused_rests (same ▸ old)).trans (System.recorded_rests _ _ _ ?_))
    exact old

namespace Machine

variable {m m' : Machine} {config : Config}

inductive Regroups (m : Machine) (h : History) (m' : Machine) (h' : History) : Prop where
  | rests (rests : m.kernel.Rests m'.kernel) (quiet : ∀ k, h' ≠ .dispatched k :: h) :
      Regroups m h m' h'
  | enters {c : Context} {name : String} {stack priority param entry : Nat}
      (room : m.kernel.taskCount < m.kernel.config.maxTasks)
      (new : h' = .ran c m.system (.createTask name stack priority param entry) :: h)
      (kernel : m'.kernel = (m.kernel.enterTask name priority param entry).1.log
        (.taskCreated name (m.kernel.taskCount + 1) priority stack)) : Regroups m h m' h'
  | dispatches {k : Kernel} (origin : k = m.kernel ∨ k = m.kernel.booted)
      (kernel : m'.kernel = k.dispatch) (new : h' = .dispatched m.kernel :: h) :
      Regroups m h m' h'

theorem Change.regroups (run : Run config m h) (change : Change m h m' h') :
    Regroups m h m' h' := by
  have same : ∀ k, h ≠ .dispatched k :: h := fun _ => (List.cons_ne_self _ _).symm
  cases change with
  | code here ran =>
    exact .rests (.of_board (Kernel.board_of_bare (Stage.frame_of_run ran).1)) same
  | ran here ran system =>
    obtain ⟨call, -, runs⟩ := run.runs_of_enter here
    have orderly := run.orderly
    have kernel := kernel_of_left system
    rcases (Section.left_of_run ran).rests runs orderly.runsAs orderly.running with
      rests | ⟨name, stack, priority, param, entry, rfl, room, entered⟩
    · refine .rests ?_ (by simp)
      rw [kernel]
      exact rests
    · exact .enters room rfl (kernel.trans entered)
  | called call legal here system =>
    exact .rests (.of_board (congrArg (·.kernel.board) system)) (by simp)
  | returned here kernel | entered here kernel =>
    exact .rests (.of_board (congrArg Kernel.board kernel)) (by simp)
  | quiet kernel => exact .rests (.of_board (congrArg Kernel.board kernel)) same
  | dispatched kernel => exact .dispatches (.inl rfl) kernel rfl
  | launched here booting kernel => exact .dispatches (.inr rfl) kernel rfl
  | idled here system => exact .rests (.of_board (congrArg (·.kernel.board) system)) same
  | wrote => exact .rests (.of_board rfl) same

end Machine

end TaskKernel
