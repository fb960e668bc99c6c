import TaskKernel.Proofs.Run.Calls

namespace TaskKernel

namespace Kernel

def storage (k : Kernel) : Kernel :=
  { config := k.config, heap := k.heap, memory := k.memory }

variable {k k' : Kernel}

theorem config_of_storage (h : k'.storage = k.storage) : k'.config = k.config := by
  have := congrArg config h
  exact this

theorem heap_of_storage (h : k'.storage = k.storage) : k'.heap = k.heap := by
  have := congrArg heap h
  exact this

theorem memory_of_storage (h : k'.storage = k.storage) : k'.memory = k.memory := by
  have := congrArg memory h
  exact this

theorem storage_setMutex (k : Kernel) (m : MutexName) (w : Word) :
    (k.setMutex m w).storage = k.storage := by
  cases m <;> rfl

theorem storage_consume (k : Kernel) (ready : ReadySet) (entries : List SubWait) :
    (k.consume ready entries).storage = k.storage := by
  obtain ⟨events, same⟩ := k.consume_eq ready entries
  rw [same]
  rfl

theorem storage_dispatch (k : Kernel) : k.dispatch.storage = k.storage := by
  obtain ⟨_, _, _, _, _, same⟩ := k.dispatch_eq
  rw [same]
  rfl

end Kernel

variable {s s' s₀ : System} {sec : Section} {stage next : Stage} {move : Move} {g : Goal}

namespace System

theorem emptyQueue_storage (s : System) (q : Nat) :
    (s.emptyQueue q).kernel.storage = s.kernel.storage := by
  unfold emptyQueue
  cases s.kernel.ring q <;> simp only [requestReschedule_kernel] <;> rfl

theorem locked_storage (s : System) (m : MutexName) (mask : Word) :
    (s.locked m mask).kernel.storage = s.kernel.storage := Kernel.storage_setMutex ..

theorem logFailure_storage (s : System) (c : Cause) :
    (s.logFailure c).kernel.storage = s.kernel.storage := by
  unfold logFailure
  split <;> rfl

theorem leftHeap_storage (s : System) (task : HeapTask) (r : HeapResult) :
    (s.leftHeap task r).1.kernel.storage = s.kernel.storage := by
  unfold leftHeap
  split
  · rfl
  · rfl
  · rfl
  · rfl
  · exact logFailure_storage ..
  · rfl

end System

theorem Goal.Reached.storage (h : g.Reached s s' next) : s'.kernel.storage = s.kernel.storage := by
  cases h with
  | event =>
    dsimp only
    split <;> rfl
  | multi => exact Kernel.storage_consume ..
  | flush => exact (System.emptyQueue_storage ..).trans (s.locked_storage ..)
  | lock | add | remove | heap => exact s.locked_storage ..

namespace Section

theorem plain_storage (simple : sec.isPlain = true) (ran : sec.run s = (s', .leave next)) :
    s'.kernel.storage = s.kernel.storage := by
  have made := makes_of_run simple ran
  generalize s'.kernel = k' at made ⊢
  cases made with
  | ticked =>
    obtain ⟨tasks, journal, same⟩ := s.kernel.tick_eq
    rw [same]
    rfl
  | unlocked => exact Kernel.storage_setMutex ..
  | _ => rfl

/-- Sections leave the heap and the memory alone. -/
theorem storage_of_run (ran : sec.run s = (s', .leave next)) :
    s'.kernel.storage = s.kernel.storage := by
  cases left_of_run ran with
  | plain simple ran => exact plain_storage simple ran
  | sought seeks sought =>
    obtain ⟨tasks, journal, rfl⟩ := seeks.state
    cases sought with
    | reached now => exact now.storage
    | refused | late | blocks => rfl
  | failed | pauses | late | lateExit | exits | asleep | woken | exited => rfl

end Section

def Stage.stores : Stage → Bool
  | .useHeap _ => true
  | .copyIn .. => true
  | _ => false

/-- The other open code leaves the heap and the memory alone. -/
theorem Stage.storage_of_run (ran : stage.run s = (s', move)) (idle : stage.stores = false) :
    s'.kernel.storage = s.kernel.storage := by
  cases stage with
  | useHeap | copyIn => cases idle
  | enter sec =>
    simp only [run] at ran
    split at ran <;> cases ran
    · exact s.logFailure_storage _
    · rfl
  | leftHeap task r =>
    have left := s.leftHeap_storage task r
    rw [show s.leftHeap task r = (s', move) from ran] at left
    exact left
  | removed =>
    simp only [run] at ran
    cases ran
    split <;> rfl
  | readCells cells seen =>
    cases cells with
    | nil => cases ran; rfl
    | cons cell rest =>
      simp only [run] at ran
      split at ran <;> cases ran <;> rfl
  | reenter | enterCpuLock | leaveCpuLock | idle =>
    simp only [run] at ran
    split at ran <;> cases ran <;> rfl
  | fail cause =>
    cases ran
    exact s.logFailure_storage _
  | _ =>
    cases ran
    rfl

namespace System

theorem logHeap_storage (s : System) (reports : List Heap.Report) :
    (s.logHeap reports).kernel.storage = s.kernel.storage := by
  unfold logHeap
  induction reports generalizing s with
  | nil => rfl
  | cons r rs ih => exact ih (s.log (.heap r))

/-- The heap is the same, or the first use has just given it its region. -/
theorem prepareHeap_of_storage (same : s'.kernel.storage = s.kernel.storage) :
    s'.prepareHeap.kernel.storage = s.prepareHeap.kernel.storage := by
  unfold prepareHeap
  rw [Kernel.heap_of_storage same]
  split
  · exact same
  · unfold update
    dsimp only [Kernel.storage]
    rw [Kernel.config_of_storage same, Kernel.memory_of_storage same]

theorem prepareHeap_heap (s : System) : s.prepareHeap.kernel.heap =
    if s.kernel.heap.hasRegion then s.kernel.heap
    else Heap.ofRegion s.kernel.config.arenaStart s.kernel.config.arenaSize := by
  unfold prepareHeap
  split <;> rfl

theorem prepareHeap_memory (s : System) : s.prepareHeap.kernel.memory = s.kernel.memory := by
  unfold prepareHeap
  split <;> rfl

theorem prepareHeap_config (s : System) : s.prepareHeap.kernel.config = s.kernel.config := by
  unfold prepareHeap
  split <;> rfl

theorem prepareHeap_of_hasRegion (h : s.kernel.heap.hasRegion = true) : s.prepareHeap = s :=
  if_pos h

end System

def HeapTask.size : HeapTask → Nat
  | .alloc n => n
  | .ring _ slots payload => slots * (Ring.lengthSize + payload)
  | _ => 0

structure System.Keeps {α : Type} (s s' : System) (o : Heap.Outcome α) : Prop where
  config : s'.kernel.config = s.kernel.config
  heap : s'.kernel.heap = o.heap
  memory : s'.kernel.memory = o.memory

/-- What a use of the heap comes to that does not halt the system. -/
inductive System.Uses (s : System) : HeapTask → System → HeapResult → Prop where
  | allocates {task : HeapTask} {s' : System} {a : Nat} {o : Heap.Outcome Nat}
      (outcome : o = s.kernel.heap.alloc s.kernel.memory task.size) (keeps : s.Keeps s' o)
      (result : o.result = .ok a) (asks : ∀ a, task ≠ .free a) : Uses s task s' (.allocated a)
  | fails {task : HeapTask} {s' : System} {e : FatalError} {o : Heap.Outcome Nat}
      (outcome : o = s.kernel.heap.alloc s.kernel.memory task.size) (keeps : s.Keeps s' o)
      (result : o.result = .error (.refused e)) (asks : ∀ a, task ≠ .free a) :
      Uses s task s' (.refused e)
  | frees {s' : System} {a : Nat} {r : HeapResult} {o : Heap.Outcome Unit}
      (outcome : o = s.kernel.heap.free s.kernel.memory a) (keeps : s.Keeps s' o)
      (result : ∀ b, r ≠ .allocated b) : Uses s (.free a) s' r
  | walks {s' : System} {stats : Heap.Stats}
      (same : s'.kernel.storage = s.kernel.storage) : Uses s .stats s' (.stats stats)

namespace System

theorem applyHeap_ok {α : Type} {o : Heap.Outcome α} {ok : α → HeapResult} {r : HeapResult}
    (applied : s.applyHeap o ok = (s', .ok r)) :
    s.Keeps s' o ∧
      ((∃ a, o.result = .ok a ∧ r = ok a) ∨
        ∃ e, o.result = .error (.refused e) ∧ r = .refused e) := by
  have same := logHeap_storage (s.update fun k => { k with heap := o.heap, memory := o.memory })
    o.reports
  have config := Kernel.config_of_storage same
  have heap := Kernel.heap_of_storage same
  have memory := Kernel.memory_of_storage same
  have keeps : s.Keeps ((s.update fun k => { k with heap := o.heap, memory := o.memory }).logHeap
      o.reports) o := ⟨config, heap, memory⟩
  unfold applyHeap at applied
  dsimp only at applied
  split at applied
  · rename_i a result
    cases applied
    exact ⟨keeps, .inl ⟨a, result, rfl⟩⟩
  · rename_i e result
    cases applied
    exact ⟨keeps, .inr ⟨e, result, rfl⟩⟩
  all_goals cases applied

theorem uses_of_useHeap {task : HeapTask} {r : HeapResult} (used : s.useHeap task = (s', .ok r)) :
    s.prepareHeap.Uses task s' r := by
  have asks : ∀ (task : HeapTask) {o : Heap.Outcome Nat},
      o = s.prepareHeap.kernel.heap.alloc s.prepareHeap.kernel.memory task.size →
      (∀ a, task ≠ .free a) → s.prepareHeap.applyHeap o .allocated = (s', .ok r) →
      s.prepareHeap.Uses task s' r := by
    intro task o outcome asks applied
    obtain ⟨keeps, ⟨a, result, rfl⟩ | ⟨e, result, rfl⟩⟩ := applyHeap_ok applied
    · exact .allocates outcome keeps result asks
    · exact .fails outcome keeps result asks
  cases task with
  | alloc size => exact asks (.alloc size) rfl (by simp) used
  | ring q slots payload => exact asks (.ring q slots payload) rfl (by simp) used
  | free a =>
    obtain ⟨keeps, result⟩ := applyHeap_ok used
    refine .frees rfl keeps ?_
    rcases result with ⟨_, -, rfl⟩ | ⟨_, -, rfl⟩ <;> simp
  | stats =>
    simp only [useHeap, heapStats] at used
    split at used
    · cases used
      exact .walks (logHeap_storage ..)
    all_goals cases used

end System

end TaskKernel
