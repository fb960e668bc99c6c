import TaskKernel.Proofs.Run.Frames
import TaskKernel.Proofs.Schedule.Choice
import TaskKernel.Proofs.Schedule.Roster

namespace TaskKernel.Kernel

structure Lined (k : Kernel) (xs : List TaskId) : Prop where
  holds : k.runQueue.Holds k.links xs
  members : xs.Perm (List.range' 1 k.taskCount)
  room : k.taskCount ≤ k.links.size

/-- The order in which a dispatch looks at the tasks. -/
def rotation (k : Kernel) (xs : List TaskId) : List TaskId :=
  if k.running = TaskId.idle then xs else xs.erase k.running ++ [k.running]

def lineup (k : Kernel) : Kernel :=
  { config := k.config, links := k.links, runQueue := k.runQueue, taskCount := k.taskCount }

variable {k k' : Kernel} {xs : List TaskId} {t : TaskId}

theorem lineup_of_board (h : k'.board = k.board) : k'.lineup = k.lineup := by
  have := congrArg lineup h
  exact this

theorem taskCount_of_lineup (h : k'.lineup = k.lineup) : k'.taskCount = k.taskCount :=
  show k'.lineup.taskCount = _ by rw [h]; rfl

theorem config_of_lineup (h : k'.lineup = k.lineup) : k'.config = k.config :=
  show k'.lineup.config = _ by rw [h]; rfl

theorem links_of_lineup (h : k'.lineup = k.lineup) : k'.links = k.links :=
  show k'.lineup.links = _ by rw [h]; rfl

theorem Lined.of_lineup (h : k.Lined xs) (same : k'.lineup = k.lineup) : k'.Lined xs := by
  have queue : k'.runQueue = k.runQueue := show k'.lineup.runQueue = _ by rw [same]; rfl
  have links := links_of_lineup same
  have count := taskCount_of_lineup same
  constructor
  · rw [queue, links]
    exact h.holds
  · rw [count]
    exact h.members
  · rw [count, links]
    exact h.room

namespace Lined

theorem mem_iff (h : k.Lined xs) : t ∈ xs ↔ 0 < t ∧ t ≤ k.taskCount := by
  rw [h.members.mem_iff, List.mem_range'_1, Nat.add_comm 1, Nat.lt_succ_iff]
  rfl

theorem queued_eq (h : k.Lined xs) : k.queued = xs := by
  refine h.holds.toList_eq ?_
  rw [h.members.length_eq, List.length_range']
  exact h.room

/-- The running task moves to the end of the run queue. -/
theorem rotate (h : k.Lined xs) (hr : k.running ≤ k.taskCount) :
    k.rotate.Lined (k.rotation xs) := by
  unfold Kernel.rotate rotation
  split
  · exact h
  · rename_i busy
    have member : k.running ∈ xs := h.mem_iff.mpr ⟨Nat.pos_of_ne_zero busy, hr⟩
    obtain ⟨pre, post, rfl⟩ := List.append_of_mem member
    have moved : (pre ++ post ++ [k.running]).Perm (pre ++ k.running :: post) := by
      rw [List.append_assoc]
      exact (List.perm_append_singleton _ _).append_left pre
    rw [Roster.erase_split h.holds.nodup]
    exact ⟨h.holds.moveToBack, moved.trans h.members,
      Nat.le_trans h.room (Roster.le_size_moveToBack ..)⟩

/-- The table gets a new entry for a task that is not in the run queue. -/
theorem resetTask (h : k.Lined xs) (ht : t ∉ xs) (name : String)
    (priority param entry : Nat) : (k.resetTask t name priority param entry).Lined xs := by
  refine ⟨{ h.holds with linked := h.holds.linked.congr fun y hy => ?_ }, h.members, ?_⟩
  · rw [show (k.resetTask t name priority param entry).links = k.links.set t {} from rfl,
      Table.get_set, if_neg]
    intro he
    subst he
    exact ht hy
  · refine Nat.le_trans h.room ?_
    rw [show (k.resetTask t name priority param entry).links = k.links.set t {} from rfl,
      Table.size_set]
    exact Nat.le_max_left ..

/-- A new task enters at the end of the run queue. -/
theorem enterTask (h : k.Lined xs) (name : String) (priority param entry : Nat) :
    (k.enterTask name priority param entry).1.Lined (xs ++ [k.taskCount + 1]) := by
  have fresh : k.taskCount + 1 ∉ xs := by
    intro member
    exact Nat.not_succ_le_self _ (h.mem_iff.mp member).2
  have reset := h.resetTask fresh name priority param entry
  refine ⟨reset.holds.pushBack fresh, ?_, Nat.le_of_lt (Roster.le_size_pushBack ..).2⟩
  change (xs ++ [k.taskCount + 1]).Perm (List.range' 1 (k.taskCount + 1))
  rw [List.range'_concat, Nat.one_mul, Nat.add_comm 1]
  exact h.members.append_right _

end Lined

theorem lineup_switchTo (k : Kernel) (t : TaskId) : (k.switchTo t).lineup = k.lineup := by
  unfold switchTo
  dsimp only
  split <;> split <;> rfl

theorem task_updateTask (k : Kernel) (t u : TaskId) (f : Task → Task) :
    (k.updateTask t f).task u = if t = u then f (k.task u) else k.task u :=
  Table.get_modify ..

theorem task_switchTo (k : Kernel) (t u : TaskId) :
    (k.switchTo t).task u =
      if t ≠ TaskId.idle ∧ t = u then { k.task u with wait := .run } else k.task u := by
  have logged : (k.switchTo t).task u = (if t = TaskId.idle then k
      else k.updateTask t fun task => { task with wait := .run }).task u := by
    unfold switchTo
    dsimp only
    split <;> split <;> rfl
  rw [logged]
  by_cases idle : t = TaskId.idle
  · simp [idle]
  · simp [idle, task_updateTask]

theorem task_rotate (k : Kernel) (t : TaskId) : k.rotate.task t = k.task t := by
  unfold rotate
  split <;> rfl

theorem foldl_updateTask (k : Kernel) (is : List Nat) (f : Task → Task) :
    is.foldl (fun k i => k.updateTask (i + 1) f) k =
      { k with tasks := is.foldl (fun ts i => ts.modify (i + 1) f) k.tasks } := by
  induction is generalizing k with
  | nil => rfl
  | cons i is ih => exact ih (k.updateTask (i + 1) f)

/-- A tick writes to the task table only. -/
theorem tick_eq (k : Kernel) : ∃ tasks journal, k.tick.1 = { k with tasks, journal } := by
  unfold tick countDown
  rw [foldl_updateTask]
  unfold spendSlice
  dsimp only
  split
  · exact ⟨_, _, rfl⟩
  · split <;> exact ⟨_, _, rfl⟩

theorem task_countDown (k : Kernel) (t : Nat) :
    k.countDown.task t = if 0 < t ∧ t ≤ k.taskCount then
      { k.task t with timeout := (k.task t).timeout.countDown } else k.task t := by
  have counted : ∀ n, ((List.range n).foldl (fun k i => k.updateTask (i + 1) fun task =>
      { task with timeout := task.timeout.countDown }) k).task t =
      if 0 < t ∧ t ≤ n then { k.task t with timeout := (k.task t).timeout.countDown }
      else k.task t := by
    intro n
    induction n with
    | zero =>
      rw [if_neg fun h : 0 < t ∧ t ≤ 0 => absurd h.1 (Nat.not_lt_of_le h.2)]
      rfl
    | succ n ih =>
      rw [List.range_succ, List.foldl_append, List.foldl_cons, List.foldl_nil, task_updateTask, ih]
      by_cases here : n + 1 = t
      · subst here
        have outside : ¬ (0 < n + 1 ∧ n + 1 ≤ n) := by omega
        rw [if_pos rfl, if_neg outside, if_pos ⟨Nat.succ_pos n, Nat.le_refl _⟩]
      · have : 0 < t ∧ t ≤ n + 1 ↔ 0 < t ∧ t ≤ n := by omega
        rw [if_neg here]
        simp only [this]
  exact counted k.taskCount

/-- A tick counts the timeout of every task down, and the slice of the running one. -/
theorem task_tick (k : Kernel) (t : Nat) :
    ∃ slice, k.tick.1.task t = { k.task t with
      timeout := if 0 < t ∧ t ≤ k.taskCount then (k.task t).timeout.countDown
        else (k.task t).timeout
      slice } := by
  have counted := task_countDown k t
  have sliced : ∃ slice, k.countDown.spendSlice.task t =
      { k.countDown.task t with slice } := by
    unfold spendSlice
    split
    · rw [task_updateTask]
      split <;> exact ⟨_, rfl⟩
    · split
      · rw [task_updateTask]
        split <;> exact ⟨_, rfl⟩
      · exact ⟨_, rfl⟩
  obtain ⟨slice, hs⟩ := sliced
  refine ⟨slice, hs.trans ?_⟩
  rw [counted]
  split <;> rfl

theorem isCandidate_rotate (k : Kernel) (t : TaskId) :
    k.rotate.isCandidate t = k.isCandidate t := by
  unfold rotate
  split <;> rfl

theorem taskCount_rotate (k : Kernel) : k.rotate.taskCount = k.taskCount := by
  obtain ⟨_, _, same⟩ := k.rotate_eq
  rw [same]

theorem Chosen.congr {b : TaskId} (h : Chosen k xs b) (task : ∀ t, k'.task t = k.task t)
    (ready : ∀ t, k'.isCandidate t = k.isCandidate t) : Chosen k' xs b := by
  cases h with
  | candidate member candidate least =>
    refine .candidate member ((ready b).trans candidate) fun t ht hc => ?_
    rw [task, task]
    exact least t ht ((ready t).symm.trans hc)
  | suspended member waits unready =>
    exact .suspended member (by rw [task, waits]) fun t ht => (ready t).trans (unready t ht)
  | idle unready awake =>
    exact .idle (fun t ht => (ready t).trans (unready t ht)) fun t ht => by
      rw [task]
      exact awake t ht

theorem Chosen.mem_or_idle {b : TaskId} (h : Chosen k xs b) : b ∈ xs ∨ b = TaskId.idle := by
  cases h with
  | candidate member => exact .inl member
  | suspended member => exact .inl member
  | idle => exact .inr rfl

theorem taskCount_dispatch (k : Kernel) : k.dispatch.taskCount = k.taskCount :=
  (taskCount_of_lineup (lineup_switchTo k.rotate _)).trans (taskCount_rotate k)

theorem started_dispatch (k : Kernel) : k.dispatch.started = k.started := by
  obtain ⟨_, _, _, _, _, same⟩ := k.dispatch_eq
  rw [same]

structure Dispatched (k : Kernel) (xs : List TaskId) : Prop where
  lined : k.dispatch.Lined xs
  running : k.dispatch.running ≤ k.dispatch.taskCount
  chosen : Chosen k xs k.dispatch.running
  task (u : TaskId) : k.dispatch.task u =
    if k.dispatch.running ≠ TaskId.idle ∧ k.dispatch.running = u then
      { k.task u with wait := .run } else k.task u

theorem Lined.dispatched (h : k.Lined xs) (hr : k.running ≤ k.taskCount) :
    k.Dispatched (k.rotation xs) := by
  have lined := h.rotate hr
  have chosen : Chosen k (k.rotation xs) k.dispatch.running := by
    have := chosen_choice k.rotate (k.rotation xs)
    rw [← lined.queued_eq] at this
    exact lined.queued_eq ▸ this.congr (fun t => (task_rotate k t).symm)
      fun t => (isCandidate_rotate k t).symm
  have after : k.dispatch.Lined (k.rotation xs) := lined.of_lineup (lineup_switchTo k.rotate _)
  refine ⟨after, ?_, chosen, fun u => ?_⟩
  · rcases chosen.mem_or_idle with member | idle
    · exact (after.mem_iff.mp member).2
    · rw [idle]
      exact Nat.zero_le _
  · refine (task_switchTo k.rotate _ u).trans ?_
    rw [task_rotate]
    rfl

theorem Lined.dispatch (h : k.Lined xs) (hr : k.running ≤ k.taskCount) :
    ∃ ys, k.Dispatched ys := ⟨_, h.dispatched hr⟩

end TaskKernel.Kernel
