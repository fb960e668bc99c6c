import TaskKernel.Proofs.Heap.Tenancy
import TaskKernel.Proofs.Mutex.Internal
import TaskKernel.Proofs.Run.Leads
import TaskKernel.Proofs.Run.Script
import TaskKernel.Proofs.Schedule.Enrolment

namespace TaskKernel

variable {s s' : System} {sec : Section} {c : Context} {n : MutexName}

namespace Heap

theorem base_carve (x : Heap) (m : Memory) : (x.carve m).heap.base = x.base := by
  unfold carve
  split <;> rfl

theorem heap_allocAligned (x : Heap) (m : Memory) (want : Nat) :
    (x.allocAligned m want).heap = x := by
  unfold allocAligned
  repeat' split
  all_goals rfl

/-- A heap keeps its region when it allocates. -/
theorem base_alloc (x : Heap) (m : Memory) (size : Nat) : (x.alloc m size).heap.base = x.base := by
  have carved := x.base_carve m
  unfold alloc
  split
  · rfl
  · split
    · dsimp only
      split
      · exact carved
      · exact (congrArg base (heap_allocAligned ..)).trans carved
    · exact congrArg base (heap_allocAligned ..)

theorem heap_free (x : Heap) (m : Memory) (a : Nat) : (x.free m a).heap = x := by
  unfold free
  dsimp only
  repeat' split
  all_goals rfl

end Heap

/-- The kernel heap has its region after every use. -/
theorem System.hasRegion_of_useHeap {task : HeapTask} {r : HeapResult}
    (used : s.useHeap task = (s', .ok r)) (placed : 0 < s.kernel.config.arenaStart) :
    s'.kernel.heap.hasRegion = true := by
  have prepared : s.prepareHeap.kernel.heap.hasRegion = true := by
    rw [prepareHeap_heap]
    split
    · assumption
    · have start := (Heap.le_alignUp s.kernel.config.arenaStart).1
      exact decide_eq_true (Nat.ne_of_gt (Nat.lt_of_lt_of_le placed start))
  have same : s'.kernel.heap.base = s.prepareHeap.kernel.heap.base := by
    cases uses_of_useHeap used with
    | allocates outcome keeps | fails outcome keeps =>
      rw [keeps.heap, outcome, Heap.base_alloc]
    | frees outcome keeps => rw [keeps.heap, outcome, Heap.heap_free]
    | walks storage => rw [Kernel.heap_of_storage storage]
  unfold Heap.hasRegion at *
  rw [same]
  exact prepared

namespace Machine

variable {m m' : Machine} {h h' : History} {config : Config}

/-- The heap changes by its uses only. -/
theorem Change.heap (run : Run config m h) (change : Change m h m' h') :
    m'.kernel.heap = m.kernel.heap ∨ ∃ c task r, UsesHeap m h m' h' c task r := by
  cases change.stores run with
  | rests storage => exact .inl (Kernel.heap_of_storage storage)
  | uses uses => exact .inr ⟨_, _, _, uses⟩
  | copies here after kernel => exact .inl (kernel ▸ rfl)
  | writes a bytes may write => exact .inl (write ▸ rfl)

/-- Once the heap has its region, no use gives it one again. -/
theorem Leads.hasRegion (leads : Leads config m h m' h') (placed : 0 < config.arenaStart)
    (has : m.kernel.heap.hasRegion = true) : m'.kernel.heap.hasRegion = true := by
  induction leads with
  | refl => exact has
  | @step m₁ m₂ h₁ h₂ before run change ih =>
    rcases change.heap run with same | ⟨c, task, r, uses⟩
    · rw [same]
      exact ih
    · refine System.hasRegion_of_useHeap uses.used ?_
      change 0 < m₁.kernel.config.arenaStart
      rw [run.config_eq]
      exact placed

structure Internal (m : Machine) (h : History) (n : MutexName) : Prop where
  set : (m.kernel.mutex n).isClear internalLock = false ↔ ∃! c, m.lockOf c = some n
  holder (c : Context) : m.lockOf c = some n ↔ h.keeper n = some c
  inside (c : Context) : h.keeper n = some c → ∃ call, h.calling c = some call ∧ call.Locks n
  gives (c : Context) (before : System) (sec : Section) (past : History) :
    .ran c before sec :: past <:+ h → past.keeper n = some c →
      History.keeper n (.ran c before sec :: past) = none
  stays (c c' : Context) (before : System) (sec : Section) (past : History) :
    .ran c before sec :: past <:+ h → past.keeper n = some c' → c' ≠ c →
      History.keeper n (.ran c before sec :: past) = some c'
  waiting (c : Context) (stage : Stage) : m.stageOf c = some stage → stage.isWaiting = true →
    h.keeper n ≠ some c
  returned (c : Context) (r : Reply) (past : History) : .returned c r :: past <:+ h →
    past.keeper n ≠ some c

structure Serialised (config : Config) (m : Machine) (h : History) : Prop where
  internal (n : MutexName) : n.isInternal = true → m.Internal h n
  alone (c : Context) (task : HeapTask) (r : HeapResult) (m' : Machine) (h' : History) :
    UsesHeap m h m' h' c task r →
      h.keeper .heap = some c ∧ ∀ c', c' ≠ c → m.lockOf c' ≠ some .heap
  only (m' : Machine) (h' : History) : Change m h m' h' → m'.kernel.heap = m.kernel.heap ∨
    ∃ c task r, UsesHeap m h m' h' c task r
  /-- After a use of the heap no other one initialises it. -/
  once (c : Context) (task : HeapTask) (r : HeapResult) (m₁ m₂ : Machine) (h₁ h₂ : History) :
    0 < config.arenaStart → UsesHeap m h m₁ h₁ c task r → Leads config m₁ h₁ m₂ h₂ →
      m₂.system.prepareHeap = m₂.system

theorem Run.internal (run : Run config m h) (internal : n.isInternal = true) : m.Internal h n := by
  have keeps := run.lock_kept internal
  refine ⟨?_, keeps.holder, ?_, ?_, ?_, ?_, ?_⟩
  · rw [keeps.word]
    constructor
    · intro held
      obtain ⟨c, hc⟩ := Option.isSome_iff_exists.mp (by simpa using held)
      refine ⟨c, (keeps.holder c).mpr hc, ?_⟩
      intro c' hc'
      exact Option.some.inj (((keeps.holder c').mp hc').symm.trans hc)
    · intro one
      obtain ⟨c, hc, -⟩ := one
      rw [(keeps.holder c).mp hc]
      rfl
  · intro c held
    exact run.locks_of_keeper internal held
  · intro c before sec past ran mine
    exact run.keeper_gives internal ran mine
  · intro c c' before sec past ran held other
    exact run.keeper_stays internal ran held other
  · intro c stage here waits
    exact run.not_keeper internal here (Stage.lock_of_isWaiting waits)
  · intro c r past returned
    obtain ⟨m₀, run₀, here⟩ := run.of_returned returned
    exact run₀.not_keeper internal here rfl

/-- A lock of the kernel's own is set exactly while one context is between taking it and giving it
back. No call that waits or has returned holds one, and the kernel heap is used by one context at
a time, the first of which initialises it. -/
theorem Run.serialised (run : Run config m h) : Serialised config m h := by
  refine ⟨fun n internal => run.internal internal, ?_, ?_, ?_⟩
  · intro c task r m' h' uses
    have keeps := run.lock_kept (n := .heap) rfl
    have mine := (keeps.holder c).mp (lockOf_eq uses.here)
    refine ⟨mine, ?_⟩
    intro c' other held
    exact other (Option.some.inj (((keeps.holder c').mp held).symm.trans mine))
  · intro m' h' change
    exact change.heap run
  · intro c task r m₁ m₂ h₁ h₂ placed uses leads
    refine System.prepareHeap_of_hasRegion (leads.hasRegion placed ?_)
    refine System.hasRegion_of_useHeap uses.used ?_
    change 0 < m.kernel.config.arenaStart
    rw [run.config_eq]
    exact placed

def copying : Option (Machine × History) :=
  follow (initial { maxTasks := 2, arenaStart := 4096, arenaSize := 512, timeSlice := 0 }, [])
    [.call (.createTask "first" 256 5 0 0), .steps 4, .call (.createTask "second" 256 9 0 0),
      .steps 4, .launch, .steps 1, .call (.createQueue 0 2 4), .steps 16,
      .call (.add 0 {} 0 [1, 2]), .steps 2, .pend 31, .steps 3]

theorem serialised_copying : ∃ m h config, Run config m h ∧ m.context = .handler ∧
    h.calling (.task 1) = some (.add 0 {} 0 [1, 2]) ∧
    h.keeper (.queue 0) = some (.task 1) ∧
    (m.kernel.mutex (.queue 0)).isClear internalLock = false ∧
    (m.kernel.mutex .heap).isClear internalLock = true ∧
    ∀ c r, ∀ past : History, .returned c r :: past <:+ h → past.keeper .heap ≠ some c := by
  have script : copying.map (fun x => (x.1.context, x.2.calling (.task 1), x.2.keeper (.queue 0),
      x.2.keeper .heap)) =
      some (.handler, some (.add 0 {} 0 [1, 2]), some (.task 1), none) := by
    decide +kernel
  obtain ⟨x, hx, facts⟩ := Option.map_eq_some_iff.mp script
  simp only [Prod.mk.injEq] at facts
  obtain ⟨here, calling, keeper, free⟩ := facts
  have run := run_of_follow hx
  have serialised := run.serialised
  have queue := serialised.internal (.queue 0) rfl
  have heap := serialised.internal .heap rfl
  refine ⟨_, _, _, run, here, calling, keeper, queue.set.mpr ?_, ?_, heap.returned⟩
  · refine ⟨.task 1, (queue.holder _).mpr keeper, ?_⟩
    intro c held
    exact Option.some.inj (((queue.holder c).mp held).symm.trans keeper)
  · rw [← Bool.not_eq_false]
    intro set
    obtain ⟨c, held, -⟩ := heap.set.mp set
    have taken := (heap.holder c).mp held
    rw [free] at taken
    cases taken

end Machine

end TaskKernel
