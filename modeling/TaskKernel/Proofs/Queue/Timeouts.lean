import TaskKernel.Proofs.Mutex.Internal
import TaskKernel.Proofs.Run.Script
import TaskKernel.Proofs.Wait.Failing

namespace TaskKernel

def Call.isServed (k : Kernel) : Call → Bool
  | .add q _ _ _ => k.hasRoom q
  | .remove q _ _ _ => k.hasMessage q
  | _ => false

variable {s s₀ : System} {sec : Section} {call : Call} {c : Context} {g : Goal}
  {wait : WaitState} {q : Nat} {h past : History}

theorem Kernel.isServed_of_objects {k k' : Kernel} (same : k'.objects = k.objects) (call : Call) :
    call.isServed k' = call.isServed k := by
  have ring := ring_of_queues (queues_of_objects same)
  cases call with
  | add | remove => simp only [Call.isServed, hasRoom, hasMessage, ring]
  | _ => rfl

/-- A queue operation is blocked by the lock of the queue or by what the queue holds. -/
theorem Goal.Blocked.of_queue (later : g.Blocked s wait) (goal : call.Seeks g)
    (uses : call.Locks (.queue q)) :
    (s.kernel.mutex (.queue q)).isClear internalLock = false ∨ call.isServed s.kernel = false := by
  cases uses with
  | add =>
    cases goal
    cases later with
    | queue taken same =>
      refine .inl ?_
      rcases same with he | ⟨_, he⟩ | ⟨_, he⟩ <;> cases he
      exact taken
    | full clear ring full =>
      refine .inr ?_
      simp only [Call.isServed, Kernel.hasRoom, ring, Option.any_some, full]
  | remove =>
    cases goal
    cases later with
    | queue taken same =>
      refine .inl ?_
      rcases same with he | ⟨_, he⟩ | ⟨_, he⟩ <;> cases he
      exact taken
    | empty clear ring empty =>
      refine .inr ?_
      simp only [Call.isServed, Kernel.hasMessage, ring, Option.any_some, empty]

/-- A section fails a queue operation only if the lock of the queue is taken, or for what the queue
holds. -/
theorem Section.Fails.of_queue {s' : System} {e : WaitError} (fails : sec.Fails s call c s' e)
    (uses : call.Locks (.queue q)) : (Stage.enter sec).lock = none ∧
      ((s.kernel.mutex (.queue q)).isClear internalLock = false ∨
        call.isServed s.kernel = false) := by
  cases fails with
  | refused goal seeks later | late goal seeks later =>
    refine ⟨seeks.lock, ?_⟩
    have same := seeks.objects
    rw [← Kernel.mutex_of_objects same, ← Kernel.isServed_of_objects same]
    exact later.of_queue goal uses
  | paused blocks | woken blocks =>
    subst blocks
    cases uses

namespace Machine

variable {m : Machine} {config : Config}

/-- Another context is between taking the lock of the queue and giving it back. -/
def Occupied (h : History) (q : Nat) (c : Context) : Prop :=
  ∃ c' call, c' ≠ c ∧ h.keeper (.queue q) = some c' ∧ h.calling c' = some call ∧
    call.Locks (.queue q)

/-- A queue operation times out in a section in which the queue has no room or no message for it,
or another context is in the middle of an operation on the queue. -/
theorem Run.times_out (run : Run config m h)
    (returned : .returned c (.failed .timeout) :: past <:+ h)
    (calling : past.calling c = some call) (uses : call.Locks (.queue q)) :
    ∃ (s : System) (sec : Section) (older : History), .ran c s sec :: older <:+ past ∧
      past.sectionsBy c = (s, sec) :: older.sectionsBy c ∧
      (sec.run s).2 = .leave (.return (.failed .timeout)) ∧
      (call.isServed s.kernel = false ∨ Occupied older q c) := by
  obtain ⟨m₀, run₀, here⟩ := run.of_returned returned
  obtain ⟨s, sec, older, failed⟩ := run₀.failed here calling
  refine ⟨s, sec, older, failed.ran, failed.last, failed.ends, ?_⟩
  obtain ⟨free, taken | unserved⟩ := failed.fails.of_queue uses
  · obtain ⟨m₁, m₂, _, _, _, run₁, rfl, executes⟩ := run₀.of_ran failed.ran
    have keeps := run₁.lock_kept (n := .queue q) rfl
    have word := keeps.word
    rw [show m₁.kernel = m₁.system.kernel from rfl, taken] at word
    obtain ⟨c', keeper⟩ := Option.isSome_iff_exists.mp (by simpa using word.symm)
    obtain ⟨call', calling', uses'⟩ := run₁.locks_of_keeper rfl keeper
    refine .inr ⟨c', call', ?_, keeper, calling', uses'⟩
    intro he
    subst he
    exact run₁.not_keeper rfl executes.here free keeper
  · exact .inl unserved

def starving : Option (Machine × History) :=
  follow (initial { maxTasks := 2, arenaStart := 4096, arenaSize := 512, timeSlice := 0 }, [])
    [.call (.createTask "only" 256 5 0 0), .steps 4, .launch, .steps 1,
      .call (.createQueue 0 2 4), .steps 16, .call (.remove 0 {} Ticks.expired [0, 0]), .steps 4]

theorem times_out_starving : ∃ (m : Machine) (h past : History) (config : Config),
    Run config m h ∧ h = .returned (.task 1) (.failed .timeout) :: past ∧
    past.calling (.task 1) = some (.remove 0 {} Ticks.expired [0, 0]) ∧
    ∃ (s : System) (sec : Section) (older : History), .ran (.task 1) s sec :: older <:+ past ∧
      (sec.run s).2 = .leave (.return (.failed .timeout)) ∧
      (s.kernel.hasMessage 0 = false ∨ Occupied older 0 (.task 1)) := by
  have script : starving.map (fun x => x.2.lastReturn (·.kernel.hasMessage 0)) =
      some (some (.task 1, .failed .timeout, some (.remove 0 {} Ticks.expired [0, 0]),
        some false)) := by
    decide +kernel
  obtain ⟨x, hx, facts⟩ := Option.map_eq_some_iff.mp script
  obtain ⟨past, -, -, -, returned, calling, -⟩ := History.returned_of_lastReturn facts
  have run := run_of_follow hx
  obtain ⟨s, sec, older, ran, -, ends, cause⟩ :=
    run.times_out (returned ▸ List.suffix_refl _) calling .remove
  exact ⟨_, _, past, _, run, returned, calling, s, sec, older, ran, ends, cause⟩

/-- A task loses the processor while it takes a message out of a queue that holds another one.
The urgent task waits for the queue until its timeout is over. -/
def overtaking : Option (Machine × History) :=
  follow (initial { maxTasks := 2, arenaStart := 4096, arenaSize := 512, timeSlice := 0 }, [])
    [.call (.createTask "urgent" 256 5 0 0), .steps 4, .call (.createTask "other" 256 9 0 0),
      .steps 4, .launch, .steps 1, .call (.createQueue 0 2 4), .steps 16,
      .call (.add 0 {} 0 [1, 2]), .steps 9, .call (.add 0 {} 0 [3, 4]), .steps 9, .call (.sleep 1),
      .steps 6, .call (.remove 0 {} 0 [0, 0]), .steps 2, .pend 31, .steps 12,
      .call (.remove 0 {} 1 [0, 0]), .steps 5, .pend 31, .steps 12]

/-- A call can time out in a section in which its queue holds a message. -/
theorem served_overtaking : ∃ (m : Machine) (h past : History) (config : Config) (s : System)
    (sec : Section) (rest : List (System × Section)), Run config m h ∧
      h = .returned (.task 1) (.failed .timeout) :: past ∧
      past.calling (.task 1) = some (.remove 0 {} 1 [0, 0]) ∧
      past.sectionsBy (.task 1) = (s, sec) :: rest ∧ s.kernel.hasMessage 0 = true := by
  have script : overtaking.map (fun x => x.2.lastReturn (·.kernel.hasMessage 0)) =
      some (some (.task 1, .failed .timeout, some (.remove 0 {} 1 [0, 0]), some true)) := by
    decide +kernel
  obtain ⟨x, hx, facts⟩ := Option.map_eq_some_iff.mp script
  obtain ⟨past, s, sec, rest, returned, calling, sections, message⟩ :=
    History.returned_of_lastReturn facts
  exact ⟨_, _, past, _, s, sec, rest, run_of_follow hx, returned, calling, sections, message⟩

end Machine

end TaskKernel
