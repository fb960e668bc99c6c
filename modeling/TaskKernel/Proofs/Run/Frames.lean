import TaskKernel.Proofs.Run.Sections

namespace TaskKernel

structure Processor.Stays (p p' : Processor) : Prop where
  owner : p'.owner = p.owner
  started : p'.started = p.started
  inInterrupt : p'.inInterrupt = p.inInterrupt
  lines : p'.lines = p.lines
  kept : p.dispatchPended = true → p'.dispatchPended = true

namespace Processor.Stays

variable {p p' : Processor}

theorem refl (p : Processor) : p.Stays p := ⟨rfl, rfl, rfl, rfl, id⟩

theorem of_eq (h : p' = p) : p.Stays p' := h ▸ refl p

end Processor.Stays

/-- Nothing has happened to the processor but that a dispatch may have been asked for. -/
inductive Processor.Asks (p : Processor) : Processor → Prop where
  | none : Asks p p
  | dispatch : Asks p { p with dispatchPended := true }

namespace Processor.Asks

variable {p p' : Processor}

theorem of_eq (h : p' = p) : p.Asks p' := h ▸ .none

theorem pended (h : p.Asks p') : p.Asks { p' with dispatchPended := true } := by
  cases h <;> exact .dispatch

theorem stays (h : p.Asks p') : p.Stays p' := by
  cases h with
  | none => exact .refl p
  | dispatch => exact ⟨rfl, rfl, rfl, rfl, fun _ => rfl⟩

theorem cpuLock (h : p.Asks p') : p'.cpuLock = p.cpuLock := by
  cases h <;> rfl

end Processor.Asks

namespace Kernel

def board (k : Kernel) : Kernel :=
  { config := k.config, tasks := k.tasks, links := k.links, runQueue := k.runQueue,
    running := k.running, taskCount := k.taskCount, started := k.started }

def bare (k : Kernel) : Kernel := { k with heap := {}, memory := {}, journal := [] }

variable {k k' : Kernel}

theorem board_of_bare (h : k'.bare = k.bare) : k'.board = k.board := by
  have := congrArg board h
  exact this

theorem task_of_board (h : k'.board = k.board) (t : TaskId) : k'.task t = k.task t := by
  have := congrArg (task · t) h
  exact this

theorem running_of_board (h : k'.board = k.board) : k'.running = k.running := by
  have := congrArg running h
  exact this

theorem taskCount_of_board (h : k'.board = k.board) : k'.taskCount = k.taskCount := by
  have := congrArg taskCount h
  exact this

theorem started_of_board (h : k'.board = k.board) : k'.started = k.started := by
  have := congrArg started h
  exact this

@[simp] theorem board_setMutex (k : Kernel) (m : MutexName) (w : Word) :
    (k.setMutex m w).board = k.board := by
  cases m <;> rfl

@[simp] theorem board_unlock (k : Kernel) (m : MutexName) (mask : Word) :
    (k.unlock m mask).board = k.board := board_setMutex ..

theorem foldl_events {α : Type} (f : Kernel → α → Kernel)
    (hf : ∀ k a, ∃ events, f k a = { k with events }) (as : List α) (k : Kernel) :
    ∃ events, as.foldl f k = { k with events } := by
  induction as generalizing k with
  | nil => exact ⟨k.events, rfl⟩
  | cons a as ih =>
    obtain ⟨events, first⟩ := hf k a
    obtain ⟨events', rest⟩ := ih (f k a)
    refine ⟨events', rest.trans ?_⟩
    rw [first]

theorem rotate_eq (k : Kernel) : ∃ runQueue links, k.rotate = { k with runQueue, links } := by
  unfold rotate
  split
  · exact ⟨k.runQueue, k.links, rfl⟩
  · exact ⟨_, _, rfl⟩

theorem switchTo_eq (k : Kernel) (t : TaskId) :
    ∃ tasks journal, k.switchTo t = { k with tasks, running := t, journal } := by
  unfold switchTo
  dsimp only
  split <;> split <;> exact ⟨_, _, rfl⟩

/-- A dispatch concerns the tasks, their order and the log. -/
theorem dispatch_eq (k : Kernel) : ∃ tasks links runQueue running journal,
    k.dispatch = { k with tasks, links, runQueue, running, journal } := by
  obtain ⟨runQueue, links, rotated⟩ := k.rotate_eq
  obtain ⟨tasks, journal, switched⟩ := k.rotate.switchTo_eq k.rotate.surveyQueue.choice
  refine ⟨tasks, links, runQueue, k.rotate.surveyQueue.choice, journal, switched.trans ?_⟩
  rw [rotated]

/-- What multi-waits clear are events. -/
theorem consume_eq (k : Kernel) (ready : ReadySet) (entries : List SubWait) :
    ∃ events, k.consume ready entries = { k with events } := by
  refine foldl_events _ (fun k x => ?_) _ k
  rcases x with ⟨_ | _, i⟩
  · dsimp only
    split
    · exact ⟨_, rfl⟩
    · exact ⟨k.events, rfl⟩
  · exact ⟨k.events, rfl⟩

@[simp] theorem board_consume (k : Kernel) (ready : ReadySet) (entries : List SubWait) :
    (k.consume ready entries).board = k.board := by
  obtain ⟨events, same⟩ := k.consume_eq ready entries
  rw [same]
  rfl

end Kernel

namespace System

variable {s s' : System}

@[simp] theorem requestReschedule_kernel (s : System) :
    s.requestReschedule.kernel = s.kernel := by
  unfold requestReschedule
  split <;> rfl

@[simp] theorem requestRescheduleIf_kernel (s : System) (b : Bool) :
    (s.requestRescheduleIf b).kernel = s.kernel := by
  cases b
  · rfl
  · exact requestReschedule_kernel s

theorem requestReschedule_asks {p : Processor} (h : p.Asks s.cpu) :
    p.Asks s.requestReschedule.cpu := by
  unfold requestReschedule
  split
  · exact h.pended
  · exact h

theorem requestRescheduleIf_asks {p : Processor} {b : Bool} (h : p.Asks s.cpu) :
    p.Asks (s.requestRescheduleIf b).cpu := by
  cases b
  · exact h
  · exact requestReschedule_asks h

theorem requestReschedule_pended (hs : s.kernel.started = true) :
    s.requestReschedule.cpu.dispatchPended = true := by
  unfold requestReschedule
  rw [if_pos hs]
  rfl

theorem emptyQueue_board (s : System) (q : Nat) :
    (s.emptyQueue q).kernel.board = s.kernel.board := by
  unfold emptyQueue
  cases s.kernel.ring q <;> simp only [requestReschedule_kernel] <;> rfl

theorem emptyQueue_asks (s : System) (q : Nat) : s.cpu.Asks (s.emptyQueue q).cpu := by
  unfold emptyQueue
  cases s.kernel.ring q <;> exact requestReschedule_asks .none

@[simp] theorem locked_cpu (s : System) (m : MutexName) (mask : Word) :
    (s.locked m mask).cpu = s.cpu := by
  unfold locked update
  rfl

theorem locked_board (s : System) (m : MutexName) (mask : Word) :
    (s.locked m mask).kernel.board = s.kernel.board :=
  Kernel.board_setMutex s.kernel m _

theorem logHeap_bare (s : System) (reports : List Heap.Report) :
    (s.logHeap reports).kernel.bare = s.kernel.bare ∧ (s.logHeap reports).cpu = s.cpu := by
  unfold logHeap
  induction reports generalizing s with
  | nil => exact ⟨rfl, rfl⟩
  | cons r rs ih => exact ih (s.log (.heap r))

theorem logFailure_bare (s : System) (c : Cause) :
    (s.logFailure c).kernel.bare = s.kernel.bare ∧ (s.logFailure c).cpu = s.cpu := by
  unfold logFailure
  split <;> exact ⟨rfl, rfl⟩

end System

/-- Reaching a goal leaves the tasks and the processor alone. -/
theorem Goal.Reached.frame {s s' : System} {g : Goal} {next : Stage} (h : g.Reached s s' next) :
    s'.kernel.board = s.kernel.board ∧ s.cpu.Asks s'.cpu := by
  cases h with
  | event =>
    refine ⟨?_, .none⟩
    dsimp only
    split <;> rfl
  | multi => exact ⟨Kernel.board_consume s.kernel _ _, .none⟩
  | @flush q =>
    have asks := System.emptyQueue_asks (s.locked (.queue q) internalLock) q
    rw [System.locked_cpu] at asks
    exact ⟨(System.emptyQueue_board ..).trans (s.locked_board ..), asks⟩
  | lock | add | remove | heap => exact ⟨s.locked_board .., .of_eq (s.locked_cpu ..)⟩

theorem Sought.asks {s s' : System} {g : Goal} {nowait : Bool} {timeout : Ticks} {next : Stage}
    (h : Sought s g nowait timeout s' next) : s.cpu.Asks s'.cpu := by
  cases h with
  | reached now => exact now.frame.2
  | refused | late | blocks => exact .none

namespace Section

variable {s s' s₀ : System} {sec : Section} {next : Stage}

theorem Seeks.cpu {g : Goal} {nowait : Bool} {timeout : Ticks}
    (seeks : sec.Seeks s s₀ g nowait timeout) : s₀.cpu = s.cpu := by
  obtain ⟨tasks, journal, rfl⟩ := seeks.state
  rfl

/-- What a section that cannot wait makes of the kernel. -/
inductive Makes (k : Kernel) : Section → Kernel → Prop where
  | same {sec : Section} : Makes k sec k
  | created {name : String} {stack priority param entry t : Nat} :
      Makes k (.createTask name stack priority param entry)
        ((k.enterTask name priority param entry).1.log (.taskCreated name t priority stack))
  | ticked : Makes k .tick k.tick.1
  | unlocked {m : MutexName} {mask : Word} {reschedule : Bool} :
      Makes k (.unlock m mask reschedule) (k.unlock m mask)
  | raised {e : Nat} {mask : Word} {reschedule : Bool} :
      Makes k (.raise e mask reschedule) (k.setEvent e (k.event e ||| mask))
  | cleared {e : Nat} {mask : Word} : Makes k (.clear e mask) (k.clearEvent e mask)
  | installed {q slots payload base : Nat} : Makes k (.installRing q slots payload base)
      ((k.setRing q (some (.ofSlots base slots payload))).log (.queueCreated q slots payload))
  | added {q : Nat} : Makes k (.commitAdd q)
      ((k.setRing q ((k.ring q).map Ring.commitWrite)).unlock (.queue q) internalLock)
  | removed {q n : Nat} {buffer : List UInt8} : Makes k (.commitRemove q n buffer)
      ((k.setRing q ((k.ring q).map Ring.commitRead)).unlock (.queue q) internalLock)
  | sized {w count : Nat} : Makes k (.createMultiWait w count)
      { k with multiWaits := k.multiWaits.set w { capacity := count } }
  | extended {w : Nat} {entry : SubWait} {o : MultiWait} (present : o = k.multiWaits.get w)
      (room : o.entries.length < o.capacity) : Makes k (.addSubWait w entry)
      { k with multiWaits := k.multiWaits.set w { o with entries := o.entries ++ [entry] } }
  | released {h : HeapTask} {r : HeapResult} :
      Makes k (.leaveHeap h r) (k.unlock .heap internalLock)

theorem makes_of_run (simple : sec.isPlain = true) (ran : sec.run s = (s', .leave next)) :
    sec.Makes s.kernel s'.kernel := by
  cases sec with
  | createTask =>
    simp only [run] at ran
    split at ran <;> cases ran
    · exact .same
    · rw [System.requestReschedule_kernel]
      exact .created
  | tick =>
    simp only [run] at ran
    cases ran
    rw [System.requestRescheduleIf_kernel]
    exact .ticked
  | requestReschedule =>
    cases ran
    rw [System.requestReschedule_kernel]
    exact .same
  | unlock =>
    simp only [run] at ran
    cases ran
    rw [System.requestRescheduleIf_kernel]
    exact .unlocked
  | raise =>
    simp only [run] at ran
    cases ran
    rw [System.requestRescheduleIf_kernel]
    exact .raised
  | clear =>
    cases ran
    exact .cleared
  | checkNoRing =>
    simp only [run] at ran
    split at ran <;> cases ran <;> exact .same
  | installRing =>
    simp only [run] at ran
    split at ran <;> cases ran
    exact .installed
  | commitAdd =>
    simp only [run] at ran
    cases ran
    rw [System.requestReschedule_kernel]
    exact .added
  | commitRemove =>
    simp only [run] at ran
    cases ran
    rw [System.requestReschedule_kernel]
    exact .removed
  | createMultiWait =>
    cases ran
    exact .sized
  | addSubWait =>
    simp only [run] at ran
    split at ran <;> cases ran
    · exact .same
    · rename_i full
      exact .extended rfl (Nat.lt_of_not_le full)
  | leaveHeap =>
    simp only [run] at ran
    cases ran
    rw [System.requestReschedule_kernel]
    exact .released
  | pause | exit | seek | wake | startAdd | startFlush | startMulti => cases simple
  | _ =>
    cases ran
    exact .same

theorem plain_asks (simple : sec.isPlain = true) (ran : sec.run s = (s', .leave next)) :
    s.cpu.Asks s'.cpu := by
  cases sec with
  | createTask name stack priority param entry =>
    simp only [run] at ran
    split at ran <;> cases ran
    · exact .none
    · exact System.requestReschedule_asks .none
  | tick =>
    simp only [run] at ran
    cases ran
    exact System.requestRescheduleIf_asks .none
  | requestReschedule =>
    cases ran
    exact System.requestReschedule_asks .none
  | unlock m mask reschedule =>
    simp only [run] at ran
    cases ran
    exact System.requestRescheduleIf_asks .none
  | raise e mask reschedule =>
    simp only [run] at ran
    cases ran
    exact System.requestRescheduleIf_asks .none
  | checkNoRing q slots payload =>
    simp only [run] at ran
    split at ran <;> cases ran <;> exact .none
  | installRing q slots payload base =>
    simp only [run] at ran
    split at ran <;> cases ran
    exact .none
  | commitAdd | commitRemove | leaveHeap =>
    simp only [run] at ran
    cases ran
    exact System.requestReschedule_asks .none
  | addSubWait w entry =>
    simp only [run] at ran
    split at ran <;> cases ran <;> exact .none
  | pause | exit | seek | wake | startAdd | startFlush | startMulti => cases simple
  | _ =>
    cases ran
    exact .none

def changesTasks : Section → Bool
  | .createTask .. => true
  | .tick => true
  | _ => false

theorem plain_board (simple : sec.isPlain = true) (same : sec.changesTasks = false)
    (ran : sec.run s = (s', .leave next)) : s'.kernel.board = s.kernel.board := by
  have made := makes_of_run simple ran
  generalize s'.kernel = k' at made ⊢
  cases made with
  | created | ticked => cases same
  | unlocked => exact Kernel.board_unlock ..
  | _ => rfl

/-- A section does nothing to the processor but ask for a dispatch. -/
theorem Left.asks (left : Left s sec s' next) : s.cpu.Asks s'.cpu := by
  cases left with
  | plain simple ran => exact plain_asks simple ran
  | sought seeks sought => exact seeks.cpu ▸ sought.asks
  | failed | pauses | late | lateExit | exits | asleep | woken | exited => exact .none

/-- A section leaves the processor to the code that has it. -/
theorem Left.stays (left : Left s sec s' next) : s.cpu.Stays s'.cpu := left.asks.stays

end Section

namespace System

variable {s : System}

theorem prepareHeap_bare (s : System) :
    s.prepareHeap.kernel.bare = s.kernel.bare ∧ s.prepareHeap.cpu = s.cpu := by
  unfold prepareHeap
  split <;> exact ⟨rfl, rfl⟩

theorem applyHeap_bare {α : Type} (s : System) (o : Heap.Outcome α) (ok : α → HeapResult) :
    (s.applyHeap o ok).1.kernel.bare = s.kernel.bare ∧ (s.applyHeap o ok).1.cpu = s.cpu := by
  have logged := logHeap_bare (s.update fun k => { k with heap := o.heap, memory := o.memory })
    o.reports
  unfold applyHeap
  dsimp only
  split <;> exact logged

theorem heapStats_bare (s : System) :
    s.heapStats.1.kernel.bare = s.kernel.bare ∧ s.heapStats.1.cpu = s.cpu := by
  unfold heapStats
  generalize s.kernel.heap.check s.kernel.memory = checked
  obtain ⟨result, reports⟩ := checked
  have logged := logHeap_bare s reports
  cases result with
  | ok stats => exact logged
  | error e =>
    cases e with
    | refused e =>
      have failed := logFailure_bare (s.logHeap reports) (.heap e)
      exact ⟨failed.1.trans logged.1, failed.2.trans logged.2⟩
    | overflow => exact logged
    | underflow => exact logged
    | endless => exact logged

theorem useHeap_bare (s : System) (h : HeapTask) :
    (s.useHeap h).1.kernel.bare = s.kernel.bare ∧ (s.useHeap h).1.cpu = s.cpu := by
  have prepared := prepareHeap_bare s
  unfold useHeap
  cases h with
  | alloc size =>
    have applied := applyHeap_bare s.prepareHeap
      (s.prepareHeap.kernel.heap.alloc s.prepareHeap.kernel.memory size) .allocated
    exact ⟨applied.1.trans prepared.1, applied.2.trans prepared.2⟩
  | free a =>
    have applied := applyHeap_bare s.prepareHeap
      (s.prepareHeap.kernel.heap.free s.prepareHeap.kernel.memory a) fun _ => .freed
    exact ⟨applied.1.trans prepared.1, applied.2.trans prepared.2⟩
  | stats =>
    have walked := heapStats_bare s.prepareHeap
    exact ⟨walked.1.trans prepared.1, walked.2.trans prepared.2⟩
  | ring q slots payload =>
    have applied := applyHeap_bare s.prepareHeap (s.prepareHeap.kernel.heap.alloc
      s.prepareHeap.kernel.memory (slots * (Ring.lengthSize + payload))) .allocated
    exact ⟨applied.1.trans prepared.1, applied.2.trans prepared.2⟩

theorem leftHeap_bare (s : System) (h : HeapTask) (r : HeapResult) :
    (s.leftHeap h r).1.kernel.bare = s.kernel.bare ∧ (s.leftHeap h r).1.cpu = s.cpu := by
  unfold leftHeap
  split
  · exact ⟨rfl, rfl⟩
  · exact ⟨rfl, rfl⟩
  · exact ⟨rfl, rfl⟩
  · exact ⟨rfl, rfl⟩
  · exact logFailure_bare s _
  · exact ⟨rfl, rfl⟩

end System

/-- Open code changes nothing but memory, and leaves the processor to the code that has it. -/
theorem Stage.run_frame (stage : Stage) (s : System) :
    (stage.run s).1.kernel.bare = s.kernel.bare ∧ s.cpu.Stays (stage.run s).1.cpu := by
  cases stage with
  | enter sec =>
    simp only [run]
    split
    · have failed := s.logFailure_bare .reentered
      exact ⟨failed.1, .of_eq failed.2⟩
    · exact ⟨rfl, rfl, rfl, rfl, rfl, id⟩
  | reenter t w =>
    simp only [run]
    split <;> exact ⟨rfl, rfl, rfl, rfl, rfl, id⟩
  | yield t w => exact ⟨rfl, rfl, rfl, rfl, rfl, fun _ => rfl⟩
  | useHeap h =>
    have used := s.useHeap_bare h
    simp only [run]
    split
    · rename_i s' r he
      rw [he] at used
      exact ⟨used.1, .of_eq used.2⟩
    · rename_i s' halt he
      rw [he] at used
      exact ⟨used.1, .of_eq used.2⟩
  | leftHeap h r =>
    have left := s.leftHeap_bare h r
    exact ⟨left.1, .of_eq left.2⟩
  | removed q n buffer =>
    simp only [run]
    split <;> exact ⟨rfl, .refl _⟩
  | readCells cells seen =>
    cases cells with
    | nil => exact ⟨rfl, .refl _⟩
    | cons cell rest =>
      simp only [run]
      split <;> exact ⟨rfl, rfl, rfl, rfl, rfl, id⟩
  | enterCpuLock =>
    simp only [run]
    split <;> exact ⟨rfl, rfl, rfl, rfl, rfl, id⟩
  | leaveCpuLock =>
    simp only [run]
    split <;> exact ⟨rfl, rfl, rfl, rfl, rfl, id⟩
  | yieldCpu => exact ⟨rfl, rfl, rfl, rfl, rfl, fun _ => rfl⟩
  | idle =>
    simp only [run]
    split <;> exact ⟨rfl, rfl, rfl, rfl, rfl, id⟩
  | fail c =>
    have failed := s.logFailure_bare c
    exact ⟨failed.1, .of_eq failed.2⟩
  | _ => exact ⟨rfl, rfl, rfl, rfl, rfl, id⟩

theorem Stage.frame_of_run {stage : Stage} {s s' : System} {move : Move}
    (ran : stage.run s = (s', move)) : s'.kernel.bare = s.kernel.bare ∧ s.cpu.Stays s'.cpu := by
  have frame := stage.run_frame s
  rwa [ran] at frame

theorem Stage.eq_of_return {stage : Stage} {s s' : System} {r : Reply}
    (h : stage.run s = (s', .return r)) : stage = .return r ∧ s' = s := by
  cases stage with
  | «return» r' =>
    cases h
    exact ⟨rfl, rfl⟩
  | leftHeap task result =>
    simp only [run, System.leftHeap] at h
    split at h <;> cases h
  | readCells cells seen =>
    cases cells with
    | nil => cases h
    | cons cell rest =>
      simp only [run] at h
      split at h <;> cases h
  | enter | reenter | useHeap | enterCpuLock | leaveCpuLock | idle =>
    simp only [run] at h
    split at h <;> cases h
  | _ => cases h

def Move.next (stage : Stage) : Move → Option Stage
  | .goto next => some next
  | .inside sec => some (.enter sec)
  | .point next => some next
  | .sleep => some stage
  | .return _ => none
  | .halt _ => none

inductive Stage.Goes : Stage → Stage → Prop where
  | enter {sec : Section} : Goes (.enter sec) (.enter sec)
  | reenter {t : TaskId} {w : Waiter} : Goes (.reenter t w) (.enter (.wake t w))
  | yield {t : TaskId} {w : Waiter} : Goes (.yield t w) (.reenter t w)
  | useHeap {task : HeapTask} {r : HeapResult} : Goes (.useHeap task) (.enter (.leaveHeap task r))
  | leftHeap {task : HeapTask} {result : HeapResult} {r : Reply} (succeeds : ∀ e, r ≠ .failed e) :
      Goes (.leftHeap task result) (.return r)
  | leftRing {q slots payload a : Nat} :
      Goes (.leftHeap (.ring q slots payload) (.allocated a))
        (.enter (.installRing q slots payload a))
  | copyIn {q : Nat} {r : Ring} {payload : List UInt8} :
      Goes (.copyIn q r payload) (.enter (.commitAdd q))
  | copyOut {q n : Nat} {r : Ring} {buffer out : List UInt8} :
      Goes (.copyOut q r buffer) (.enter (.commitRemove q n out))
  | removed {q n : Nat} {out : List UInt8} :
      Goes (.removed q n out) (.return (.received (min n out.length) out))
  | read {seen : List (Option CellValue)} : Goes (.readCells [] seen) (.return (.cells seen))
  | skip {cell : Cell} {rest : List Cell} {seen : List (Option CellValue)} :
      Goes (.readCells (cell :: rest) seen) (.readCells rest (seen ++ [none]))
  | readCell {cell : Cell} {rest : List Cell} {seen : List (Option CellValue)} :
      Goes (.readCells (cell :: rest) seen) (.enter (.readCell cell rest seen))
  | cpu {stage : Stage} {r : Reply} (succeeds : ∀ e, r ≠ .failed e)
      (lock : stage = .enterCpuLock ∨ stage = .tryEnterCpuLock ∨ stage = .leaveCpuLock ∨
        stage = .yieldCpu) : Goes stage (.return r)
  | timer : Goes .timer (.enter .tick)
  | idle : Goes .idle .idle

/-- Open code that goes on takes one of the paths. -/
theorem Stage.goes_of_run {stage next : Stage} {s s' : System} {move : Move}
    (ran : stage.run s = (s', move)) (goes : move.next stage = some next) : stage.Goes next := by
  cases stage with
  | enter sec =>
    simp only [run] at ran
    split at ran <;> cases ran <;> cases goes
    exact .enter
  | reenter t w =>
    simp only [run] at ran
    split at ran <;> cases ran <;> cases goes
    exact .reenter
  | yield t w => cases ran; cases goes; exact .yield
  | useHeap task =>
    simp only [run] at ran
    split at ran <;> cases ran <;> cases goes
    exact .useHeap
  | leftHeap task result =>
    simp only [run, System.leftHeap] at ran
    split at ran <;> cases ran <;> cases goes
    · exact .leftHeap (by simp)
    · exact .leftRing
    · exact .leftHeap (by simp)
    · exact .leftHeap (by simp)
    · exact .leftHeap (by simp)
  | copyIn => cases ran; cases goes; exact .copyIn
  | copyOut => cases ran; cases goes; exact .copyOut
  | removed => cases ran; cases goes; exact .removed
  | readCells cells seen =>
    cases cells with
    | nil => cases ran; cases goes; exact .read
    | cons cell rest =>
      simp only [run] at ran
      split at ran <;> cases ran <;> cases goes
      · exact .skip
      · exact .readCell
  | enterCpuLock =>
    simp only [run] at ran
    split at ran <;> cases ran <;> cases goes
    exact .cpu (by simp) (by simp)
  | tryEnterCpuLock => cases ran; cases goes; exact .cpu (by simp) (by simp)
  | leaveCpuLock =>
    simp only [run] at ran
    split at ran <;> cases ran <;> cases goes
    exact .cpu (by simp) (by simp)
  | yieldCpu => cases ran; cases goes; exact .cpu (by simp) (by simp)
  | timer => cases ran; cases goes; exact .timer
  | idle =>
    simp only [run] at ran
    split at ran <;> cases ran <;> cases goes <;> exact .idle
  | fail => cases ran; cases goes
  | «return» => cases ran; cases goes

end TaskKernel
