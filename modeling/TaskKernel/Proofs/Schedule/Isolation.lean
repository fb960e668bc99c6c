import TaskKernel.Proofs.Run.Cells
import TaskKernel.Proofs.Schedule.Rotation

namespace TaskKernel

structure Task.Agrees (x y : Task) : Prop where
  priority : y.priority = x.priority
  wait : y.wait = x.wait
  timeout : y.timeout = x.timeout

namespace Kernel

structure Urgent (p : Nat) (k : Kernel) (t : TaskId) : Prop where
  pos : 0 < t
  old : t ≤ k.taskCount
  above : (k.task t).priority < p

/-- The urgent tasks differ in priority, and none of them is suspended. -/
structure Distinct (p : Nat) (k : Kernel) : Prop where
  apart (t u : TaskId) : k.Urgent p t → k.Urgent p u →
    (k.task t).priority = (k.task u).priority → t = u
  awake (t : TaskId) : k.Urgent p t → (k.task t).wait ≠ .suspended

structure Agrees (p : Nat) (k k' : Kernel) : Prop where
  urgent (t : TaskId) : k'.Urgent p t ↔ k.Urgent p t
  task (t : TaskId) : k.Urgent p t → (k.task t).Agrees (k'.task t)
  cells (t : TaskId) (cell : Cell) : k.Urgent p t → cell ∈ (k.task t).wait.cells →
    k'.read cell = k.read cell
  running : k.Urgent p k.running ∨ k'.Urgent p k'.running → k'.running = k.running

variable {p : Nat} {k k' k'' j j' : Kernel} {t : TaskId} {xs ys : List TaskId}

instance (x y : Task) : Decidable (x.Agrees y) :=
  decidable_of_iff (y.priority = x.priority ∧ y.wait = x.wait ∧ y.timeout = x.timeout)
    ⟨fun same => ⟨same.1, same.2.1, same.2.2⟩, fun same => ⟨same.priority, same.wait, same.timeout⟩⟩

instance (p : Nat) (k : Kernel) (t : TaskId) : Decidable (k.Urgent p t) :=
  decidable_of_iff (0 < t ∧ t ≤ k.taskCount ∧ (k.task t).priority < p)
    ⟨fun x => ⟨x.1, x.2.1, x.2.2⟩, fun x => ⟨x.pos, x.old, x.above⟩⟩

def urgents (p : Nat) (k : Kernel) : List TaskId :=
  (List.range' 1 k.taskCount).filter fun t => k.Urgent p t

theorem mem_urgents : t ∈ k.urgents p ↔ k.Urgent p t := by
  unfold urgents
  rw [List.mem_filter, decide_eq_true_eq, List.mem_range'_1]
  constructor
  · intro found
    exact found.2
  · intro urgent
    exact ⟨⟨urgent.pos, Nat.lt_one_add_iff.mpr urgent.old⟩, urgent⟩

instance (p : Nat) (k : Kernel) : Decidable (k.Distinct p) :=
  decidable_of_iff ((∀ t ∈ k.urgents p, ∀ u ∈ k.urgents p,
      (k.task t).priority = (k.task u).priority → t = u) ∧
      ∀ t ∈ k.urgents p, (k.task t).wait ≠ .suspended) <| by
    constructor
    · intro ⟨apart, awake⟩
      exact ⟨fun t u first second => apart t (mem_urgents.mpr first) u (mem_urgents.mpr second),
        fun t urgent => awake t (mem_urgents.mpr urgent)⟩
    · intro distinct
      exact ⟨fun t first u second =>
        distinct.apart t u (mem_urgents.mp first) (mem_urgents.mp second),
        fun t urgent => distinct.awake t (mem_urgents.mp urgent)⟩

instance (p : Nat) (k k' : Kernel) : Decidable (k.Agrees p k') :=
  decidable_of_iff ((∀ t ∈ k'.urgents p, k.Urgent p t) ∧ (∀ t ∈ k.urgents p, k'.Urgent p t ∧
      (k.task t).Agrees (k'.task t) ∧ ∀ cell ∈ (k.task t).wait.cells, k'.read cell = k.read cell) ∧
      (k.Urgent p k.running ∨ k'.Urgent p k'.running → k'.running = k.running)) <| by
    constructor
    · intro ⟨back, same, running⟩
      refine ⟨?_, ?_, ?_, running⟩
      · intro t
        exact ⟨fun urgent => back t (mem_urgents.mpr urgent),
          fun urgent => (same t (mem_urgents.mpr urgent)).1⟩
      · intro t urgent
        exact (same t (mem_urgents.mpr urgent)).2.1
      · intro t cell urgent
        exact (same t (mem_urgents.mpr urgent)).2.2 cell
    · intro agrees
      refine ⟨?_, ?_, agrees.running⟩
      · intro t member
        exact (agrees.urgent t).mp (mem_urgents.mp member)
      · intro t member
        have urgent := mem_urgents.mp member
        exact ⟨(agrees.urgent t).mpr urgent, agrees.task t urgent,
          fun cell => agrees.cells t cell urgent⟩

theorem urgent_of_task (old : t ≤ k'.taskCount ↔ t ≤ k.taskCount)
    (priority : (k'.task t).priority = (k.task t).priority) :
    k'.Urgent p t ↔ k.Urgent p t := by
  constructor
  · intro urgent
    exact ⟨urgent.pos, old.mp urgent.old, priority ▸ urgent.above⟩
  · intro urgent
    exact ⟨urgent.pos, old.mpr urgent.old, priority ▸ urgent.above⟩

namespace Agrees

theorem symm (agrees : k.Agrees p k') : k'.Agrees p k := by
  constructor
  · intro t
    exact (agrees.urgent t).symm
  · intro t urgent
    have same := agrees.task t ((agrees.urgent t).mp urgent)
    exact ⟨same.priority.symm, same.wait.symm, same.timeout.symm⟩
  · intro t cell urgent within
    have urgent := (agrees.urgent t).mp urgent
    rw [(agrees.task t urgent).wait] at within
    exact (agrees.cells t cell urgent within).symm
  · intro urgent
    exact (agrees.running urgent.symm).symm

theorem trans (agrees : k.Agrees p k') (agrees' : k'.Agrees p k'') : k.Agrees p k'' := by
  constructor
  · intro t
    exact (agrees'.urgent t).trans (agrees.urgent t)
  · intro t urgent
    have first := agrees.task t urgent
    have second := agrees'.task t ((agrees.urgent t).mpr urgent)
    exact ⟨second.priority.trans first.priority, second.wait.trans first.wait,
      second.timeout.trans first.timeout⟩
  · intro t cell urgent within
    refine (agrees'.cells t cell ((agrees.urgent t).mpr urgent) ?_).trans
      (agrees.cells t cell urgent within)
    rw [(agrees.task t urgent).wait]
    exact within
  · have between : k.Urgent p k.running ∨ k''.Urgent p k''.running →
        k'.Urgent p k'.running := by
      intro urgent
      rcases urgent with first | last
      · rw [agrees.running (.inl first)]
        exact (agrees.urgent _).mpr first
      · have middle := (agrees'.urgent _).mp last
        rwa [agrees'.running (.inr last)] at middle
    intro urgent
    exact (agrees'.running (.inl (between urgent))).trans
      (agrees.running (.inr (between urgent)))

/-- The urgent tasks compete in both states or in none. -/
theorem isCandidate (agrees : k.Agrees p k') (urgent : k.Urgent p t) :
    k'.isCandidate t = k.isCandidate t := by
  have same := agrees.task t urgent
  have holds := holds_of_cells fun cell within => agrees.cells t cell urgent within
  unfold Kernel.isCandidate
  rw [same.wait, same.timeout]
  generalize (k.task t).wait = w at holds
  cases w <;> simp only [holds]

theorem distinct (agrees : k.Agrees p k') (distinct : k.Distinct p) : k'.Distinct p := by
  constructor
  · intro t u urgent urgent' same
    have first := (agrees.urgent t).mp urgent
    have second := (agrees.urgent u).mp urgent'
    apply distinct.apart t u first second
    rw [← (agrees.task t first).priority, ← (agrees.task u second).priority]
    exact same
  · intro t urgent
    have urgent := (agrees.urgent t).mp urgent
    rw [(agrees.task t urgent).wait]
    exact distinct.awake t urgent

end Agrees

/-- The urgent task that a dispatch chooses is the first by priority among the urgent candidates,
wherever they stand in the run queue. -/
theorem Lined.urgent_choice (lined : k.Lined xs) (old : k.running ≤ k.taskCount)
    (distinct : k.Distinct p) (urgent : k.Urgent p t) :
    k.dispatch.running = t ↔ k.isCandidate t = true ∧ ∀ u, k.Urgent p u →
      k.isCandidate u = true → (k.task t).priority ≤ (k.task u).priority := by
  constructor
  · intro chosen
    have reason := (lined.dispatched old).chosen
    rw [chosen] at reason
    cases reason with
    | candidate member ready least =>
      refine ⟨ready, ?_⟩
      intro u urgent' ready'
      exact least u (lined.mem_rotation old ⟨urgent'.pos, urgent'.old, ready'⟩) ready'
    | suspended member waits => exact absurd waits (distinct.awake t urgent)
    | idle => exact absurd urgent.pos (Nat.lt_irrefl 0)
  · intro ⟨ready, least⟩
    obtain ⟨competes, most⟩ := lined.chosen_of_competes old ⟨urgent.pos, urgent.old, ready⟩
    have above : k.Urgent p k.dispatch.running :=
      ⟨competes.pos, competes.old, Nat.lt_of_le_of_lt most urgent.above⟩
    apply distinct.apart _ _ above urgent
    exact Nat.le_antisymm most (least _ above competes.ready)

theorem Agrees.choice (agrees : k.Agrees p k') (distinct : k.Distinct p) (lined : k.Lined xs)
    (lined' : k'.Lined ys) (old : k.running ≤ k.taskCount) (old' : k'.running ≤ k'.taskCount)
    (urgent : k.Urgent p t) : k'.dispatch.running = t ↔ k.dispatch.running = t := by
  have urgent' := (agrees.urgent t).mpr urgent
  rw [lined.urgent_choice old distinct urgent,
    lined'.urgent_choice old' (agrees.distinct distinct) urgent', agrees.isCandidate urgent]
  refine and_congr_right fun _ => forall_congr' fun u => ?_
  rw [agrees.urgent u]
  refine imp_congr_right fun above => ?_
  rw [agrees.isCandidate above, (agrees.task t urgent).priority, (agrees.task u above).priority]

/-- Two states that agree go on agreeing if their objects stay as they are, and if what happens to
the urgent tasks is the same in both. -/
theorem Agrees.onward (agrees : k.Agrees p k') (urgent : ∀ t, j.Urgent p t ↔ k.Urgent p t)
    (urgent' : ∀ t, j'.Urgent p t ↔ k'.Urgent p t) (read : ∀ cell, j.read cell = k.read cell)
    (read' : ∀ cell, j'.read cell = k'.read cell)
    (task : ∀ t, k.Urgent p t → (j.task t).Agrees (j'.task t))
    (within : ∀ t, k.Urgent p t → (j.task t).wait.cells ⊆ (k.task t).wait.cells)
    (running : j.Urgent p j.running ∨ j'.Urgent p j'.running → j'.running = j.running) :
    j.Agrees p j' := by
  constructor
  · intro t
    rw [urgent', urgent]
    exact agrees.urgent t
  · intro t above
    exact task t ((urgent t).mp above)
  · intro t cell above member
    have above := (urgent t).mp above
    rw [read', read]
    exact agrees.cells t cell above (within t above member)
  · exact running

theorem read_dispatch (k : Kernel) (cell : Cell) : k.dispatch.read cell = k.read cell :=
  read_of_objects k.objects_dispatch k.multiWaits_dispatch cell

theorem read_tick (k : Kernel) (cell : Cell) : k.tick.1.read cell = k.read cell := by
  obtain ⟨tasks, journal, same⟩ := k.tick_eq
  rw [same]
  exact read_of_objects rfl rfl cell

theorem Lined.urgent_dispatch (lined : k.Lined xs) (old : k.running ≤ k.taskCount) (t : TaskId) :
    k.dispatch.Urgent p t ↔ k.Urgent p t := by
  apply urgent_of_task
  · rw [k.taskCount_dispatch]
  · rw [(lined.dispatched old).task]
    split <;> rfl

theorem urgent_tick (k : Kernel) (t : TaskId) : k.tick.1.Urgent p t ↔ k.Urgent p t := by
  apply urgent_of_task
  · obtain ⟨tasks, journal, same⟩ := k.tick_eq
    rw [same]
  · obtain ⟨slice, after⟩ := k.task_tick t
    rw [after]

/-- Dispatches in two states that agree choose the same urgent task, or none in both. -/
theorem Agrees.dispatch (agrees : k.Agrees p k') (distinct : k.Distinct p) (lined : k.Lined xs)
    (lined' : k'.Lined ys) (old : k.running ≤ k.taskCount) (old' : k'.running ≤ k'.taskCount) :
    k.dispatch.Agrees p k'.dispatch := by
  have choice := fun t urgent => agrees.choice (t := t) distinct lined lined' old old' urgent
  have task := (lined.dispatched old).task
  have task' := (lined'.dispatched old').task
  apply agrees.onward (lined.urgent_dispatch old) (lined'.urgent_dispatch old') k.read_dispatch
    k'.read_dispatch
  · intro t urgent
    have same := agrees.task t urgent
    have busy : ∀ b, b = t → b ≠ TaskId.idle := fun b he => he ▸ Nat.ne_of_gt urgent.pos
    rw [task, task']
    by_cases chosen : k.dispatch.running = t
    · have chosen' := (choice t urgent).mpr chosen
      rw [if_pos ⟨busy _ chosen, chosen⟩, if_pos ⟨busy _ chosen', chosen'⟩]
      exact ⟨same.priority, rfl, same.timeout⟩
    · have other : k'.dispatch.running ≠ t := fun he => chosen ((choice t urgent).mp he)
      rw [if_neg fun both => chosen both.2, if_neg fun both => other both.2]
      exact same
  · intro t urgent
    rw [task]
    split
    · simp [WaitState.cells]
    · exact List.Subset.refl _
  · intro urgent
    rcases urgent with first | second
    · exact (choice _ ((lined.urgent_dispatch old _).mp first)).mpr rfl
    · have above := (agrees.urgent _).mp ((lined'.urgent_dispatch old' _).mp second)
      exact ((choice _ above).mp rfl).symm

theorem Agrees.tick (agrees : k.Agrees p k') : k.tick.1.Agrees p k'.tick.1 := by
  have running : ∀ k : Kernel, k.tick.1.running = k.running := by
    intro k
    obtain ⟨tasks, journal, same⟩ := k.tick_eq
    rw [same]
  apply agrees.onward k.urgent_tick k'.urgent_tick k.read_tick k'.read_tick
  · intro t urgent
    have urgent' := (agrees.urgent t).mpr urgent
    have same := agrees.task t urgent
    obtain ⟨slice, after⟩ := k.task_tick t
    obtain ⟨slice', after'⟩ := k'.task_tick t
    rw [if_pos ⟨urgent.pos, urgent.old⟩] at after
    rw [if_pos ⟨urgent'.pos, urgent'.old⟩] at after'
    rw [after, after']
    exact ⟨same.priority, same.wait, congrArg Ticks.countDown same.timeout⟩
  · intro t urgent
    obtain ⟨slice, after⟩ := k.task_tick t
    rw [after]
    exact List.Subset.refl _
  · rw [k.urgent_tick, k'.urgent_tick, running, running]
    exact agrees.running

/-- The first dispatch finds the tasks as the boot code has left them. -/
theorem agrees_booted (p : Nat) (k : Kernel) : k.Agrees p k.booted := by
  have task : ∀ t, 0 < t → k.booted.task t = k.task t :=
    fun t pos => k.task_booted (Nat.ne_of_gt pos)
  constructor
  · intro t
    constructor
    · intro urgent
      exact ⟨urgent.pos, urgent.old, task t urgent.pos ▸ urgent.above⟩
    · intro urgent
      exact ⟨urgent.pos, urgent.old, (task t urgent.pos).symm ▸ urgent.above⟩
  · intro t urgent
    rw [task t urgent.pos]
    exact ⟨rfl, rfl, rfl⟩
  · intro t cell urgent within
    exact read_of_objects rfl rfl cell
  · intro urgent
    rfl

theorem Agrees.refl (p : Nat) (k : Kernel) : k.Agrees p k :=
  ⟨fun _ => Iff.rfl, fun _ _ => ⟨rfl, rfl, rfl⟩, fun _ _ _ _ => rfl, fun _ => rfl⟩

end Kernel

def Section.createsUrgent (p : Nat) : Section → Bool
  | .createTask _ _ priority _ _ => priority < p
  | _ => false

/-- A section is no concern of the urgent tasks: it is not theirs, it is no tick, it creates none of
them, and it changes nothing that one of them waits on. -/
structure Section.Spares (p : Nat) (k : Kernel) (c : Context) (sec : Section) : Prop where
  other (t : TaskId) : k.Urgent p t → c ≠ .task t
  still : sec ≠ .tick
  modest : sec.createsUrgent p = false
  apart (t : TaskId) (cell : Cell) : k.Urgent p t → cell ∈ (k.task t).wait.cells →
    cell ∉ sec.targets k

variable {p : Nat} {s s' : System} {sec : Section} {next : Stage} {call : Call} {c : Context}

/-- A section creates no urgent task unless it says so. -/
theorem Section.Left.urgent (left : sec.Left s s' next) (runs : call.Runs c sec)
    (here : Call.RunsAs s c) (old : s.kernel.running ≤ s.kernel.taskCount)
    (modest : sec.createsUrgent p = false) (t : TaskId) :
    s'.kernel.Urgent p t ↔ s.kernel.Urgent p t := by
  rcases left.rests runs here old with
    rests | ⟨name, stack, priority, param, entry, rfl, -, entered⟩
  · apply Kernel.urgent_of_task
    · rw [Kernel.taskCount_of_lineup rests.lineup]
    · exact rests.priority t
  · have less : p ≤ priority := by simpa [createsUrgent] using modest
    have others : t ≠ s.kernel.taskCount + 1 → s'.kernel.task t = s.kernel.task t := by
      intro other
      rw [entered]
      exact s.kernel.task_enterTask name priority param entry other
    have count : s'.kernel.taskCount = s.kernel.taskCount + 1 := by
      rw [entered]
      rfl
    constructor
    · intro urgent
      have other : t ≠ s.kernel.taskCount + 1 := by
        intro new
        have above := urgent.above
        rw [entered, new, show (((s.kernel.enterTask name priority param entry).1.log _).task
          (s.kernel.taskCount + 1)) = _ from Table.get_set_self ..] at above
        exact Nat.not_lt_of_le less above
      refine ⟨urgent.pos, ?_, others other ▸ urgent.above⟩
      have within := urgent.old
      rw [count] at within
      exact Nat.le_of_lt_succ (Nat.lt_of_le_of_ne within other)
    · intro urgent
      have other := Nat.ne_of_lt (Nat.lt_succ_of_le urgent.old)
      refine ⟨urgent.pos, ?_, (others other).symm ▸ urgent.above⟩
      rw [count]
      exact Nat.le_succ_of_le urgent.old

/-- A section that spares the urgent tasks leads to a state that agrees. -/
theorem Section.Left.keeps_agreement (left : sec.Left s s' next) (runs : call.Runs c sec)
    (here : Call.RunsAs s c) (old : s.kernel.running ≤ s.kernel.taskCount)
    (spares : sec.Spares p s.kernel c) : s.kernel.Agrees p s'.kernel := by
  constructor
  · exact left.urgent runs here old spares.modest
  · intro t urgent
    rw [left.task_other runs here (spares.other t urgent) urgent.old spares.still]
    exact ⟨rfl, rfl, rfl⟩
  · intro t cell urgent within
    exact left.read_eq (spares.apart t cell urgent within)
  · intro _
    exact left.ordered.running

namespace Machine

variable {m m' n n' : Machine} {h h' g g' : History} {config config' : Config}

theorem Change.keeps_agreement (run : Run config m h) {before : System}
    (change : Change m h m' (.ran c before sec :: h)) (spares : sec.Spares p m.kernel c) :
    m.kernel.Agrees p m'.kernel := by
  obtain ⟨rfl, rfl, here, s, next, ran, system⟩ := change.of_ran
  obtain ⟨call, -, runs⟩ := run.runs_of_enter here
  have orderly := run.orderly
  rw [kernel_of_left system]
  exact (Section.left_of_run ran).keeps_agreement runs orderly.runsAs orderly.running spares

theorem Change.kernel_tick {before : System} (change : Change m h m' (.ran c before .tick :: h)) :
    m'.kernel = m.kernel.tick.1 := by
  obtain ⟨rfl, rfl, here, s, next, ran, system⟩ := change.of_ran
  rw [kernel_of_left system]
  exact (Section.tick_eq ran).1

theorem Change.kernel_dispatch (run : Run config m h) {k : Kernel}
    (change : Change m h m' (.dispatched k :: h)) :
    ∃ k, (k = m.kernel ∨ k = m.kernel.booted) ∧ m'.kernel = k.dispatch := by
  cases change.regroups run with
  | rests rests quiet => exact absurd rfl (quiet k)
  | enters room new => cases new
  | dispatches origin kernel => exact ⟨_, origin, kernel⟩

theorem Change.agrees_dispatch (run : Run config m h) (run' : Run config' n g)
    (distinct : m.kernel.Distinct p) (agrees : m.kernel.Agrees p n.kernel) {k k' : Kernel}
    (change : Change m h m' (.dispatched k :: h)) (change' : Change n g n' (.dispatched k' :: g)) :
    m'.kernel.Agrees p n'.kernel := by
  have start : ∀ {config : Config} {m m' : Machine} {h : History} {k : Kernel},
      Run config m h → Change m h m' (.dispatched k :: h) → ∃ k xs, m.kernel.Agrees p k ∧
        k.Lined xs ∧ k.running ≤ k.taskCount ∧ m'.kernel = k.dispatch := by
    intro config m m' h k run change
    obtain ⟨xs, lined⟩ := run.orderly.lined
    obtain ⟨k, origin, kernel⟩ := change.kernel_dispatch run
    rcases origin with rfl | rfl
    · exact ⟨_, xs, .refl p _, lined, run.orderly.running, kernel⟩
    · exact ⟨_, xs, Kernel.agrees_booted p _, lined.booted, run.orderly.running, kernel⟩
  obtain ⟨j, xs, from_m, lined, old, kernel⟩ := start run change
  obtain ⟨j', ys, from_n, lined', old', kernel'⟩ := start run' change'
  rw [kernel, kernel']
  exact (from_m.symm.trans (agrees.trans from_n)).dispatch (from_m.distinct distinct) lined
    lined' old old'

structure Isolates (p : Nat) (m : Machine) (h : History) (n : Machine) (g : History) : Prop where
  dispatch (m' n' : Machine) (k k' : Kernel) : Next m h m' (.dispatched k :: h) →
    Next n g n' (.dispatched k' :: g) → m'.kernel.Agrees p n'.kernel ∧
      ((m'.kernel.Urgent p m'.kernel.running ∧ n'.kernel.running = m'.kernel.running) ∨
        ¬ m'.kernel.Urgent p m'.kernel.running ∧ ¬ n'.kernel.Urgent p n'.kernel.running)
  tick (m' n' : Machine) (c c' : Context) (s s' : System) : Next m h m' (.ran c s .tick :: h) →
    Next n g n' (.ran c' s' .tick :: g) → m'.kernel.Agrees p n'.kernel
  spares (m' : Machine) (c : Context) (s : System) (sec : Section) :
    Next m h m' (.ran c s sec :: h) → sec.Spares p m.kernel c →
      m.kernel.Agrees p m'.kernel ∧ m'.kernel.Agrees p n.kernel

/-- Less urgent tasks do not disturb more urgent ones: states that agree on the tasks above a
priority cannot be told apart by what the kernel does with these. -/
theorem Run.isolates (run : Run config m h) (run' : Run config' n g)
    (distinct : m.kernel.Distinct p) (agrees : m.kernel.Agrees p n.kernel) :
    Isolates p m h n g := by
  constructor
  · intro m' n' k k' next next'
    have after := Change.agrees_dispatch run run' distinct agrees (next.change run)
      (next'.change run')
    refine ⟨after, ?_⟩
    by_cases urgent : m'.kernel.Urgent p m'.kernel.running
    · exact .inl ⟨urgent, after.running (.inl urgent)⟩
    · refine .inr ⟨urgent, ?_⟩
      intro urgent'
      have same := after.running (.inr urgent')
      rw [same] at urgent'
      exact urgent ((after.urgent _).mp urgent')
  · intro m' n' c c' s s' next next'
    rw [(next.change run).kernel_tick, (next'.change run').kernel_tick]
    exact agrees.tick
  · intro m' c s sec next spares
    have after := (next.change run).keeps_agreement run spares
    exact ⟨after, after.symm.trans agrees⟩

def isDispatching (m : Machine) : Bool :=
  match m.activity, m.cpu.preemption with
  | .point _, .dispatch _ => true
  | _, _ => false

theorem next_of_isDispatching (dispatching : m.isDispatching = true) :
    Next m h m.step.1 (.dispatched m.kernel :: h) := by
  unfold isDispatching at dispatching
  split at dispatching
  · rename_i stage cpu doing taken
    have happens : m.happens = [.dispatched m.kernel] := by
      simp only [Machine.happens, doing, taken]
    have next : Next m h m.step.1 (m.happens ++ h) := by
      apply Next.step
      · simp [doing]
      · simp [step, doing, taken]
    rwa [happens] at next
  · cases dispatching

def signalled : Option (Machine × History) :=
  follow (initial { maxTasks := 2, arenaStart := 4096, arenaSize := 512, timeSlice := 0 }, [])
    [.call (.createTask "urgent" 256 1 0 0), .steps 4, .call (.createTask "low" 256 5 0 0),
      .steps 4, .launch, .steps 1, .call (.waitEvent 0 1 {} 0), .steps 6,
      .call (.raise 0 1 true), .steps 2]

def signalledAmongOthers : Option (Machine × History) :=
  follow (initial { maxTasks := 4, arenaStart := 4096, arenaSize := 512, timeSlice := 5 }, [])
    [.call (.createTask "urgent" 256 1 0 0), .steps 4, .call (.createTask "idler" 256 7 0 0),
      .steps 4, .call (.createTask "low" 256 9 0 0), .steps 4, .launch, .steps 1,
      .call (.waitEvent 0 1 {} 0), .steps 6, .call .suspend, .steps 6, .call (.raise 0 1 true),
      .steps 2]

theorem isolates_signalled : ∃ (m n : Machine) (h g : History) (config config' : Config),
    Run config m h ∧ Run config' n g ∧ m.kernel.queued = [2, 1] ∧ n.kernel.queued = [3, 1, 2] ∧
      m.kernel.Agrees 3 n.kernel ∧ Next m h m.step.1 (.dispatched m.kernel :: h) ∧
        Next n g n.step.1 (.dispatched n.kernel :: g) ∧ m.step.1.kernel.running = 1 ∧
          n.step.1.kernel.running = 1 ∧ m.step.1.kernel.Agrees 3 n.step.1.kernel := by
  obtain ⟨x, hx⟩ := Option.isSome_iff_exists.mp (show signalled.isSome = true by decide +kernel)
  obtain ⟨y, hy⟩ :=
    Option.isSome_iff_exists.mp (show signalledAmongOthers.isSome = true by decide +kernel)
  have facts : signalled.map (fun x => (x.1.kernel.queued, decide (x.1.kernel.Distinct 3),
      x.1.isDispatching, x.1.step.1.kernel.running, decide (x.1.step.1.kernel.Urgent 3 1))) =
      some ([2, 1], true, true, 1, true) := by decide +kernel
  have facts' : signalledAmongOthers.map (fun y => (y.1.kernel.queued, y.1.isDispatching)) =
      some ([3, 1, 2], true) := by decide +kernel
  have agrees : signalled.bind (fun x => signalledAmongOthers.map fun y =>
      decide (x.1.kernel.Agrees 3 y.1.kernel)) = some true := by decide +kernel
  rw [hx] at facts agrees
  rw [hy] at facts' agrees
  simp only [Option.map_some, Option.bind_some, Option.some.injEq, Prod.mk.injEq,
    decide_eq_true_eq] at facts facts' agrees
  obtain ⟨queue, distinct, dispatching, running, urgent⟩ := facts
  obtain ⟨queue', dispatching'⟩ := facts'
  have run := run_of_follow hx
  have run' := run_of_follow hy
  have next := next_of_isDispatching (h := x.2) dispatching
  have next' := next_of_isDispatching (h := y.2) dispatching'
  obtain ⟨after, choice⟩ := (run.isolates run' distinct agrees).dispatch _ _ _ _ next next'
  rw [← running] at urgent
  have same := (choice.resolve_right fun neither => neither.1 urgent).2
  exact ⟨x.1, y.1, x.2, y.2, _, _, run, run', queue, queue', agrees, next, next', running,
    same.trans running, after⟩

end Machine

end TaskKernel
