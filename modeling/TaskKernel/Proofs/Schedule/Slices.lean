import TaskKernel.Proofs.Schedule.Enrolment

namespace TaskKernel

/-- What is left of a slice of `n` ticks after `k` of them, a new slice following on the last. -/
def Ticks.leftOf (n k : Nat) : Nat := n - k % n

def Task.quota (task : Task) : Ticks × Ticks := (task.slice, task.reload)

def Task.spend (task : Task) : Ticks := if task.slice ≤ 1 then task.reload else task.slice - 1

/-- A tick is charged to the running task, unless that is about to block. -/
def Kernel.charges (k : Kernel) (t : TaskId) : Prop :=
  k.running = t ∧ (k.task t).wait = .run

instance (k : Kernel) (t : TaskId) : Decidable (k.charges t) :=
  inferInstanceAs (Decidable (k.running = t ∧ (k.task t).wait = .run))

def History.spent (t : TaskId) : History → Nat
  | [] => 0
  | .ran _ before .tick :: h => if before.kernel.charges t then spent t h + 1 else spent t h
  | _ :: h => spent t h

namespace Ticks

variable {n k : Nat}

theorem succ_mod_cases (hn : 0 < n) :
    (k % n + 1 = n ∧ (k + 1) % n = 0) ∨ (k % n + 1 < n ∧ (k + 1) % n = k % n + 1) := by
  have less : k % n < n := Nat.mod_lt k hn
  rw [← Nat.mod_add_mod k n 1]
  rcases Nat.lt_or_eq_of_le (Nat.succ_le_of_lt less) with within | ends
  · exact .inr ⟨within, Nat.mod_eq_of_lt within⟩
  · refine .inl ⟨ends, ?_⟩
    rw [show k % n + 1 = n from ends, Nat.mod_self]

theorem leftOf_succ (hn : 0 < n) :
    leftOf n (k + 1) = if leftOf n k ≤ 1 then n else leftOf n k - 1 := by
  unfold leftOf
  rcases succ_mod_cases (k := k) hn with ⟨ends, next⟩ | ⟨within, next⟩ <;> rw [next] <;>
    split <;> omega

end Ticks

namespace Kernel

structure Spares (k k' : Kernel) : Prop where
  count : k'.taskCount = k.taskCount
  quota (t : TaskId) : t ≠ TaskId.idle → (k'.task t).quota = (k.task t).quota

variable {k k' k'' : Kernel} {t : TaskId}

theorem Spares.of_board (h : k'.board = k.board) : k.Spares k' :=
  ⟨taskCount_of_board h, fun t _ => congrArg Task.quota (task_of_board h t)⟩

theorem Spares.trans (h : k.Spares k') (h' : k'.Spares k'') : k.Spares k'' :=
  ⟨h'.count.trans h.count, fun t busy => (h'.quota t busy).trans (h.quota t busy)⟩

theorem Spares.dispatch {xs : List TaskId} (dispatched : k.Dispatched xs) :
    k.Spares k.dispatch := by
  refine ⟨k.taskCount_dispatch, fun t _ => ?_⟩
  rw [dispatched.task]
  split <;> rfl

theorem spares_booted (k : Kernel) : k.Spares k.booted :=
  ⟨rfl, fun _ busy => congrArg Task.quota (k.task_booted busy)⟩

theorem usesSlice_iff : k.usesSlice = true ↔
    k.running ≠ TaskId.idle ∧ (k.task k.running).reload ≠ 0 ∧ k.charges k.running := by
  simp [usesSlice, charges, and_assoc]

theorem sliceEnds_iff : k.sliceEnds = true ↔
    k.usesSlice = true ∧ (k.task k.running).slice ≤ 1 := by
  simp [sliceEnds]

theorem timeoutRunsOut_iff : k.timeoutRunsOut = true ↔
    ∃ t, 0 < t ∧ t ≤ k.taskCount ∧ (k.task t).timeout.runsOut = true := by
  unfold timeoutRunsOut
  rw [List.any_eq_true]
  constructor
  · rintro ⟨i, within, out⟩
    exact ⟨i + 1, Nat.succ_pos i, List.mem_range.mp within, out⟩
  · rintro ⟨t, pos, old, out⟩
    obtain ⟨i, rfl⟩ := Nat.exists_eq_add_one_of_ne_zero (Nat.ne_of_gt pos)
    exact ⟨i, List.mem_range.mpr old, out⟩

/-- A tick spends a slice, if the running task has one, and reports its end. -/
theorem spendSlice_eq (k : Kernel) : k.spendSlice.journal =
      (if k.sliceEnds then .sliceUsedUp k.running :: k.journal else k.journal) ∧
    ∀ t, k.spendSlice.task t = if k.usesSlice = true ∧ k.running = t then
      { k.task t with slice := (k.task t).spend } else k.task t := by
  unfold spendSlice
  by_cases ends : k.sliceEnds = true
  · obtain ⟨uses, short⟩ := sliceEnds_iff.mp ends
    rw [if_pos ends, if_pos ends]
    refine ⟨rfl, fun t => ?_⟩
    rw [task_updateTask]
    by_cases here : k.running = t
    · subst here
      rw [if_pos rfl, if_pos ⟨uses, rfl⟩, Task.spend, if_pos short]
      rfl
    · rw [if_neg here, if_neg fun h => here h.2]
      rfl
  · rw [if_neg ends, if_neg ends]
    by_cases uses : k.usesSlice = true
    · rw [if_pos uses]
      refine ⟨rfl, fun t => ?_⟩
      rw [task_updateTask]
      by_cases here : k.running = t
      · subst here
        have long : ¬ (k.task k.running).slice ≤ 1 := fun short =>
          ends (sliceEnds_iff.mpr ⟨uses, short⟩)
        rw [if_pos rfl, if_pos ⟨uses, rfl⟩, Task.spend, if_neg long]
      · rw [if_neg here, if_neg fun h => here h.2]
    · rw [if_neg uses]
      refine ⟨rfl, fun t => ?_⟩
      rw [if_neg fun h => uses h.1]

/-- Counting the timeouts down leaves the rest of the task table. -/
theorem countDown_slices (k : Kernel) : k.countDown.running = k.running ∧
    k.countDown.journal = k.journal ∧ k.countDown.usesSlice = k.usesSlice ∧
    k.countDown.sliceEnds = k.sliceEnds := by
  have same : ∃ tasks, k.countDown = { k with tasks } := ⟨_, foldl_updateTask ..⟩
  obtain ⟨tasks, same⟩ := same
  have running : k.countDown.running = k.running := by rw [same]
  have entry : ∀ t, ∃ timeout, k.countDown.task t = { k.task t with timeout } := by
    intro t
    rw [task_countDown]
    split <;> exact ⟨_, rfl⟩
  obtain ⟨timeout, entry⟩ := entry k.running
  have uses : k.countDown.usesSlice = k.usesSlice := by
    unfold usesSlice
    rw [running, entry]
  refine ⟨running, by rw [same], uses, ?_⟩
  unfold sliceEnds
  rw [uses, running, entry]

/-- What a tick does to the time slices. -/
theorem slice_tick (k : Kernel) (t : TaskId) : (k.tick.1.task t).quota =
    if k.usesSlice = true ∧ k.running = t then ((k.task t).spend, (k.task t).reload)
    else (k.task t).quota := by
  obtain ⟨running, -, uses, -⟩ := k.countDown_slices
  have counted : ∃ timeout, k.countDown.task t = { k.task t with timeout } := by
    rw [task_countDown]
    split <;> exact ⟨_, rfl⟩
  obtain ⟨timeout, counted⟩ := counted
  rw [tick, k.countDown.spendSlice_eq.2, uses, running, counted]
  split <;> rfl

end Kernel

variable {s s' s₀ : System} {sec : Section} {next : Stage} {c : Context} {h h' : History}

theorem System.spares_recorded (s : System) (wait : WaitState) (timeout : Ticks) :
    s.kernel.Spares (s.recorded wait timeout).kernel := by
  refine ⟨rfl, fun t _ => ?_⟩
  rw [s.task_recorded]
  split <;> rfl

theorem System.spares_roused (s : System) (u : TaskId) :
    s.kernel.Spares (s.roused u).kernel := by
  refine ⟨rfl, fun t _ => ?_⟩
  rw [s.task_roused]
  split <;> rfl

theorem Section.Seeks.spares {g : Goal} {nowait : Bool} {timeout : Ticks}
    (seeks : sec.Seeks s s₀ g nowait timeout) : s.kernel.Spares s₀.kernel := by
  cases seeks with
  | seek | add | flush | multi => exact .of_board rfl
  | wake => exact s.spares_roused _

theorem Sought.spares {g : Goal} {nowait : Bool} {timeout : Ticks}
    (sought : Sought s g nowait timeout s' next) : s.kernel.Spares s'.kernel := by
  cases sought with
  | reached now => exact .of_board now.frame.1
  | refused | late => exact .of_board rfl
  | blocks => exact s.spares_recorded ..

/-- Waiting and waking spend no slice. -/
theorem Section.Left.spares (left : sec.Left s s' next) (still : sec ≠ .tick) :
    s.kernel.Spares s'.kernel ∨ ∃ name stack priority param entry,
      s'.kernel = (s.kernel.enterTask name priority param entry).1.log
        (.taskCreated name (s.kernel.taskCount + 1) priority stack) := by
  cases left with
  | plain simple ran =>
    cases same : sec.changesTasks with
    | false => exact .inl (.of_board (plain_board simple same ran))
    | true =>
      cases sec with
      | createTask name stack priority param entry =>
        rcases createTask_cases ran with ⟨rfl, -⟩ | ⟨kernel, -, -⟩
        · exact .inl (.of_board rfl)
        · exact .inr ⟨_, _, _, _, _, kernel⟩
      | tick => exact absurd rfl still
      | _ => cases same
  | sought seeks sought => exact .inl (seeks.spares.trans sought.spares)
  | failed | late | asleep => exact .inl (.of_board rfl)
  | pauses | lateExit => exact .inl (s.spares_recorded ..)
  | exits =>
    have logged : s.kernel.Spares
        (s.log (.taskExited (s.kernel.task s.kernel.running).name)).kernel := .of_board rfl
    exact .inl (logged.trans (System.spares_recorded ..))
  | woken => exact .inl (s.spares_roused _)
  | exited => exact .inl ((s.spares_roused _).trans (System.spares_recorded ..))

theorem History.spent_ran {before : System} (t : TaskId) (still : sec ≠ .tick) :
    spent t (.ran c before sec :: h) = spent t h := by
  cases sec with
  | tick => exact absurd rfl still
  | _ => rfl

namespace Machine

variable {m m' : Machine} {config : Config}

inductive Charges (m : Machine) (h : History) (m' : Machine) (h' : History) : Prop where
  | spares (spares : m.kernel.Spares m'.kernel) (spent : ∀ t, h'.spent t = h.spent t) :
      Charges m h m' h'
  | enters {name : String} {stack priority param entry : Nat}
      (kernel : m'.kernel = (m.kernel.enterTask name priority param entry).1.log
        (.taskCreated name (m.kernel.taskCount + 1) priority stack))
      (spent : ∀ t, h'.spent t = h.spent t) : Charges m h m' h'
  | ticks {c : Context} (kernel : m'.kernel = m.kernel.tick.1)
      (new : h' = .ran c m.system .tick :: h) : Charges m h m' h'

theorem Change.charges (run : Run config m h) (change : Change m h m' h') :
    Charges m h m' h' := by
  cases change with
  | code here ran =>
    exact .spares (.of_board (Kernel.board_of_bare (Stage.frame_of_run ran).1)) fun _ => rfl
  | @ran _ sec next s here ran system =>
    have kernel := kernel_of_left system
    by_cases tick : sec = .tick
    · subst tick
      exact .ticks (kernel.trans (Section.tick_eq ran).1) rfl
    · have spent : ∀ t, History.spent t (.ran m.context m.system sec :: h) = h.spent t :=
        fun t => History.spent_ran t tick
      rcases (Section.left_of_run ran).spares tick with spares | ⟨_, _, _, _, _, entered⟩
      · refine .spares ?_ spent
        rw [kernel]
        exact spares
      · exact .enters (kernel.trans entered) spent
  | called call legal here system =>
    exact .spares (.of_board (congrArg (·.kernel.board) system)) fun _ => rfl
  | returned here kernel | entered here kernel | quiet kernel =>
    exact .spares (.of_board (congrArg Kernel.board kernel)) fun _ => rfl
  | dispatched kernel =>
    have order := run.orderly
    obtain ⟨xs, lined⟩ := order.lined
    refine .spares ?_ fun _ => rfl
    rw [kernel]
    exact .dispatch (lined.dispatched order.running)
  | launched here booting kernel =>
    have order := run.orderly
    obtain ⟨xs, lined⟩ := order.lined
    refine .spares ?_ fun _ => rfl
    rw [kernel]
    exact m.kernel.spares_booted.trans (.dispatch (lined.booted.dispatched order.running))
  | idled here system =>
    exact .spares (.of_board (congrArg (·.kernel.board) system)) fun _ => rfl
  | wrote => exact .spares (.of_board rfl) fun _ => rfl

structure Slices (slice : Ticks) (m : Machine) (h : History) : Prop where
  quota (t : TaskId) : 0 < t → t ≤ m.kernel.taskCount →
    (m.kernel.task t).quota = (Ticks.leftOf slice (h.spent t), slice)
  fresh (t : TaskId) : m.kernel.taskCount < t → h.spent t = 0

/-- A tick is charged to the running task. -/
theorem Slices.tick {slice : Ticks} (slices : Slices slice m h)
    (old : m.kernel.running ≤ m.kernel.taskCount) (kernel : m'.kernel = m.kernel.tick.1) :
    Slices slice m' (.ran c m.system .tick :: h) := by
  have count : m'.kernel.taskCount = m.kernel.taskCount := by
    obtain ⟨tasks, journal, same⟩ := m.kernel.tick_eq
    rw [kernel, same]
  constructor
  · intro t pos within
    rw [count] at within
    have before := slices.quota t pos within
    have reload : (m.kernel.task t).reload = slice := congrArg Prod.snd before
    have left : (m.kernel.task t).slice = Ticks.leftOf slice (h.spent t) :=
      congrArg Prod.fst before
    rw [kernel, Kernel.slice_tick]
    unfold History.spent
    by_cases charged : m.kernel.charges t
    · rw [if_pos (show m.system.kernel.charges t from charged)]
      rcases Nat.eq_zero_or_pos slice with none | some
      · rw [if_neg, before, none]
        · simp [Ticks.leftOf]
        · rintro ⟨uses, rfl⟩
          exact (Kernel.usesSlice_iff.mp uses).2.1 (reload.trans none)
      · rw [if_pos, Task.spend, left, reload, Ticks.leftOf_succ some]
        have here := charged.1
        subst here
        refine ⟨Kernel.usesSlice_iff.mpr ⟨Nat.ne_of_gt pos, ?_, charged⟩, rfl⟩
        rw [reload]
        exact Nat.ne_of_gt some
    · rw [if_neg (show ¬ m.system.kernel.charges t from charged), if_neg, before]
      rintro ⟨uses, rfl⟩
      exact charged (Kernel.usesSlice_iff.mp uses).2.2
  · intro t above
    rw [count] at above
    have idle : ¬ m.system.kernel.charges t := by
      rintro ⟨rfl, -⟩
      exact Nat.not_lt_of_le old above
    exact (if_neg idle).trans (slices.fresh t above)

theorem Change.slices {slice : Ticks} (run : Run config m h)
    (length : m.kernel.config.timeSlice = slice) (slices : Slices slice m h)
    (change : Change m h m' h') : Slices slice m' h' := by
  cases change.charges run with
  | spares spares spent =>
    refine ⟨fun t pos within => ?_, fun t above => ?_⟩
    · rw [spares.quota t (Nat.ne_of_gt pos), spent]
      exact slices.quota t pos (spares.count ▸ within)
    · rw [spent]
      exact slices.fresh t (spares.count ▸ above)
  | @enters name stack priority param entry kernel spent =>
    have count : m'.kernel.taskCount = m.kernel.taskCount + 1 := by
      rw [kernel]
      rfl
    refine ⟨fun t pos within => ?_, fun t above => ?_⟩
    · rw [count] at within
      rw [spent]
      rcases Nat.lt_or_eq_of_le within with old | rfl
      · have same : m'.kernel.task t = m.kernel.task t := by
          rw [kernel]
          exact m.kernel.task_enterTask name priority param entry (Nat.ne_of_lt old)
        rw [same]
        exact slices.quota t pos (Nat.le_of_lt_succ old)
      · have new : m'.kernel.task (m.kernel.taskCount + 1) =
            m.kernel.config.newTask name priority param entry := by
          rw [kernel]
          exact Table.get_set_self ..
        rw [new, slices.fresh _ (Nat.lt_succ_self _), ← length]
        simp [Task.quota, Config.newTask, Ticks.leftOf]
    · rw [count] at above
      rw [spent]
      exact slices.fresh t (Nat.lt_of_succ_lt above)
  | ticks kernel new =>
    subst new
    exact slices.tick run.orderly.running kernel

theorem Run.slices (run : Run config m h) : Slices config.timeSlice m h := by
  refine Run.induct ?_ ?_ run
  · exact ⟨fun t pos old => absurd old (Nat.not_le_of_lt pos), fun _ _ => rfl⟩
  · intro m m' h h' run ih change
    exact change.slices run (congrArg Config.timeSlice run.config_eq) ih

end Machine

end TaskKernel
