import TaskKernel.Proofs.Run.Changes
import TaskKernel.Proofs.Schedule.RunQueue

namespace TaskKernel

namespace Kernel

structure Ordered (k k' : Kernel) : Prop where
  running : k'.running = k.running
  started : k'.started = k.started
  taskCount : k.taskCount ≤ k'.taskCount
  lined : (∃ xs, k.Lined xs) → ∃ xs, k'.Lined xs

variable {k k' k'' : Kernel}

theorem Ordered.of_lineup (lineup : k'.lineup = k.lineup) (running : k'.running = k.running)
    (started : k'.started = k.started) : k.Ordered k' :=
  ⟨running, started, Nat.le_of_eq (taskCount_of_lineup lineup).symm,
    fun ⟨xs, hx⟩ => ⟨xs, hx.of_lineup lineup⟩⟩

theorem Ordered.of_board (h : k'.board = k.board) : k.Ordered k' :=
  .of_lineup (lineup_of_board h) (running_of_board h) (started_of_board h)

theorem Ordered.trans (h : k.Ordered k') (h' : k'.Ordered k'') : k.Ordered k'' :=
  ⟨h'.running.trans h.running, h'.started.trans h.started,
    Nat.le_trans h.taskCount h'.taskCount, fun hx => h'.lined (h.lined hx)⟩

end Kernel

theorem Kernel.Lined.booted {k : Kernel} {xs : List TaskId} (h : k.Lined xs) :
    k.booted.Lined xs := by
  have idle : TaskId.idle ∉ xs := fun member => Nat.lt_irrefl 0 (h.mem_iff.mp member).1
  exact (h.resetTask idle "idle" 255 0 0).of_lineup rfl

variable {s s' s₀ : System} {sec : Section} {next : Stage}

theorem System.recorded_ordered (s : System) (wait : WaitState) (timeout : Ticks) :
    s.kernel.Ordered (s.recorded wait timeout).kernel := .of_lineup rfl rfl rfl

theorem System.roused_ordered (s : System) (t : TaskId) :
    s.kernel.Ordered (s.roused t).kernel := .of_lineup rfl rfl rfl

theorem Sought.ordered {g : Goal} {nowait : Bool} {timeout : Ticks}
    (h : Sought s g nowait timeout s' next) : s.kernel.Ordered s'.kernel := by
  cases h with
  | reached now => exact .of_board now.frame.1
  | refused | late => exact .of_board rfl
  | blocks => exact s.recorded_ordered ..

theorem Section.Seeks.ordered {g : Goal} {nowait : Bool} {timeout : Ticks}
    (seeks : sec.Seeks s s₀ g nowait timeout) : s.kernel.Ordered s₀.kernel := by
  obtain ⟨tasks, journal, rfl⟩ := seeks.state
  exact .of_lineup rfl rfl rfl

theorem Kernel.tick_ordered (k : Kernel) : k.Ordered k.tick.1 := by
  obtain ⟨tasks, journal, ht⟩ := k.tick_eq
  rw [ht]
  exact .of_lineup rfl rfl rfl

theorem Kernel.enterTask_ordered (k : Kernel) (name : String) (priority param entry : Nat) :
    k.Ordered (k.enterTask name priority param entry).1 :=
  ⟨rfl, rfl, Nat.le_succ _, fun ⟨_, hx⟩ => ⟨_, hx.enterTask name priority param entry⟩⟩

theorem Section.createTask_cases {name : String} {stack priority param entry : Nat}
    (ran : (Section.createTask name stack priority param entry).run s = (s', .leave next)) :
    (s' = s ∧ next = .fail (.taskTableFull name s.kernel.config.maxTasks)) ∨
      s'.kernel = (s.kernel.enterTask name priority param entry).1.log
        (.taskCreated name (s.kernel.taskCount + 1) priority stack) ∧
      next = .return (.task (s.kernel.taskCount + 1)) ∧
      (s.kernel.started = true → s'.cpu.dispatchPended = true) := by
  simp only [run] at ran
  split at ran
  · cases ran
    exact .inl ⟨rfl, rfl⟩
  · cases ran
    exact .inr ⟨System.requestReschedule_kernel _, rfl, fun started =>
      System.requestReschedule_pended started⟩

theorem Section.tick_eq (ran : Section.tick.run s = (s', .leave next)) :
    s'.kernel = s.kernel.tick.1 ∧ next = .return .unit ∧
      s' = System.requestRescheduleIf { s with kernel := s.kernel.tick.1 } s.kernel.tick.2 := by
  simp only [run] at ran
  cases ran
  exact ⟨System.requestRescheduleIf_kernel .., rfl, rfl⟩

/-- A section leaves the running task and the order of the run queue alone. -/
theorem Section.Left.ordered (left : sec.Left s s' next) : s.kernel.Ordered s'.kernel := by
  cases left with
  | plain simple ran =>
    cases same : sec.changesTasks with
    | false => exact .of_board (plain_board simple same ran)
    | true =>
      cases sec with
      | createTask name stack priority param entry =>
        rcases createTask_cases ran with ⟨rfl, -⟩ | ⟨hk, -⟩
        · exact .of_board rfl
        · rw [hk]
          exact (s.kernel.enterTask_ordered name priority param entry).trans (.of_board rfl)
      | tick => exact (tick_eq ran).1 ▸ s.kernel.tick_ordered
      | _ => cases same
  | sought seeks sought => exact seeks.ordered.trans sought.ordered
  | failed | late | asleep => exact .of_board rfl
  | pauses | lateExit => exact s.recorded_ordered ..
  | exits => exact .of_lineup rfl rfl rfl
  | woken => exact s.roused_ordered _
  | exited => exact (s.roused_ordered _).trans (System.recorded_ordered ..)

namespace Machine

structure Orderly (m : Machine) : Prop where
  lined : ∃ xs, m.kernel.Lined xs
  running : m.kernel.running ≤ m.kernel.taskCount
  started : m.kernel.started = m.cpu.started
  booting : m.cpu.started = false → m.cpu.owner = .boot ∧ m.kernel.running = TaskId.idle
  owner : m.cpu.started = true → m.cpu.owner = .task m.kernel.running

variable {m m' : Machine} {h : History} {config : Config}

theorem orderly_initial (config : Config) : (initial config).Orderly :=
  ⟨⟨[], .nil, .refl _, Nat.le_refl _⟩, Nat.le_refl _, rfl, fun _ => ⟨rfl, rfl⟩, fun h => by cases h⟩

theorem Orderly.of_ordered (hm : m.Orderly) (kernel : m.kernel.Ordered m'.kernel)
    (owner : m'.cpu.owner = m.cpu.owner) (started : m'.cpu.started = m.cpu.started) :
    m'.Orderly := by
  refine ⟨kernel.lined hm.lined, ?_, ?_, fun hs => ?_, fun hs => ?_⟩
  · rw [kernel.running]
    exact Nat.le_trans hm.running kernel.taskCount
  · rw [kernel.started, started, hm.started]
  · rw [owner, kernel.running]
    exact hm.booting (started ▸ hs)
  · rw [owner, kernel.running]
    exact hm.owner (started ▸ hs)

theorem Orderly.of_system (hm : m.Orderly) (system : m'.system = m.system) : m'.Orderly :=
  hm.of_ordered (.of_board (congrArg (·.kernel.board) system))
    (congrArg (·.cpu.owner) system) (congrArg (·.cpu.started) system)

theorem Orderly.of_dispatch {k : Kernel} (lined : ∃ xs, k.Lined xs)
    (running : k.running ≤ k.taskCount) (started : k.started = true)
    (kernel : m'.kernel = k.dispatch) (cpu : m'.cpu.Handed m'.kernel.running) : m'.Orderly := by
  obtain ⟨xs, hx⟩ := lined
  obtain ⟨ys, dispatched⟩ := hx.dispatch running
  refine ⟨⟨ys, kernel ▸ dispatched.lined⟩, kernel ▸ dispatched.running, ?_, fun hs => ?_,
    fun _ => cpu.owner⟩
  · rw [kernel, Kernel.started_dispatch, started, cpu.started]
  · rw [cpu.started] at hs
    cases hs

theorem Change.orderly (hm : m.Orderly) (change : Change m h m' h') : m'.Orderly := by
  cases change with
  | code here ran goes stages =>
    have frame := Stage.frame_of_run ran
    exact hm.of_ordered (.of_board (Kernel.board_of_bare frame.1)) frame.2.owner frame.2.started
  | ran here ran system stages =>
    have left := Section.left_of_run ran
    refine hm.of_ordered ?_ ?_ ?_
    · rw [kernel_of_left system]
      exact left.ordered
    · unfold cpu
      rw [system]
      exact left.stays.owner
    · unfold cpu
      rw [system]
      exact left.stays.started
  | called call legal here system stages => exact hm.of_system system
  | returned here kernel cpu stages =>
    exact hm.of_ordered (.of_board (congrArg _ kernel)) cpu.owner cpu.started
  | entered here kernel cpu stages =>
    exact hm.of_ordered (.of_board (congrArg _ kernel)) cpu.owner cpu.started
  | dispatched kernel started cpu stages =>
    exact .of_dispatch hm.lined hm.running (hm.started.trans started) kernel cpu
  | launched here booting kernel cpu stages =>
    obtain ⟨xs, hx⟩ := hm.lined
    exact .of_dispatch ⟨xs, hx.booted⟩ hm.running rfl kernel cpu
  | idled here system stages => exact hm.of_system system
  | quiet kernel cpu stages =>
    exact hm.of_ordered (.of_board (congrArg _ kernel)) cpu.owner cpu.started
  | wrote => exact hm.of_ordered (.of_board rfl) rfl rfl

theorem Run.orderly (run : Run config m h) : m.Orderly :=
  run.induct (orderly_initial config) fun _ ih change => change.orderly ih

end Machine

end TaskKernel
