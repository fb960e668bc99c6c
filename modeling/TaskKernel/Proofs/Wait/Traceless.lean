import TaskKernel.Proofs.Mutex.Internal
import TaskKernel.Proofs.Run.Leads
import TaskKernel.Proofs.Run.Script
import TaskKernel.Proofs.Run.Storage
import TaskKernel.Proofs.Run.Writes
import TaskKernel.Proofs.Schedule.Resting
import TaskKernel.Proofs.Wait.Failing

namespace TaskKernel

def Kernel.assets (k : Kernel) : Kernel :=
  { config := k.config, mutexes := k.mutexes, events := k.events, queues := k.queues,
    multiWaits := k.multiWaits, heapLock := k.heapLock, heap := k.heap, memory := k.memory }

def Call.mayFail : Call → Bool
  | .blockOn .. => true
  | .lock .. => true
  | .waitEvent .. => true
  | .waitMulti .. => true
  | .add .. => true
  | .remove .. => true
  | _ => false

def Stage.succeeds : Stage → Bool
  | .copyIn .. => true
  | .copyOut .. => true
  | .removed .. => true
  | .enter (.commitAdd _) => true
  | .enter (.commitRemove ..) => true
  | .return (.failed _) => false
  | .return _ => true
  | _ => false

/-- The call may not wait, or has no time to. -/
def Call.Hurries (call : Call) : Prop := call.nowait = true ∨ call.budget = Ticks.expired

/-- A call that does not wait is decided in its first section, which changes nothing if the call
fails. -/
inductive AtOnce : Stage → List (System × Section) → Prop where
  | starts {sec : Section} (early : sec.isEarly = true) : AtOnce (.enter sec) []
  | fails {s : System} {sec : Section} {e : WaitError}
      (ran : sec.run s = (s, .leave (.return (.failed e)))) :
      AtOnce (.return (.failed e)) [(s, sec)]
  | ends {stage : Stage} {past : List (System × Section)}
      (decided : stage.succeeds = true ∨ ∃ cause, stage = .fail cause) : AtOnce stage past

variable {s s' s₀ : System} {sec : Section} {stage next : Stage} {call : Call} {c : Context}
  {h h' : History} {g : Goal} {e : WaitError} {move : Move} {past : List (System × Section)}

namespace Kernel

variable {k k' : Kernel}

theorem assets_of_bare (bare : k'.bare = k.bare) (storage : k'.storage = k.storage) :
    k'.assets = k.assets := by
  have split : ∀ k : Kernel,
      k.assets = { k.bare.assets with heap := k.heap, memory := k.memory } := fun _ => rfl
  rw [split k', split k, bare, heap_of_storage storage, memory_of_storage storage]

end Kernel

theorem Section.Seeks.assets {nowait : Bool} {timeout : Ticks}
    (seeks : sec.Seeks s s₀ g nowait timeout) : s₀.kernel.assets = s.kernel.assets := by
  obtain ⟨tasks, journal, rfl⟩ := seeks.state
  rfl

/-- The first section of a call seeks the goal on the terms of the call. -/
theorem Section.Seeks.terms {nowait : Bool} {timeout : Ticks}
    (seeks : sec.Seeks s s₀ g nowait timeout) (runs : call.Runs c sec)
    (early : sec.isEarly = true) : s₀ = s ∧ nowait = call.nowait ∧ timeout = call.budget := by
  cases seeks with
  | wake => cases early
  | _ =>
    cases runs
    exact ⟨rfl, rfl, rfl⟩

theorem Call.Hurries.not_waits (hurries : call.Hurries) (may : call.nowait = false)
    (left : call.budget ≠ Ticks.expired) : False := by
  rcases hurries with must | expired
  · rw [must] at may
    cases may
  · exact left expired

namespace Stage

theorem Goes.succeeds (goes : stage.Goes next) (got : stage.succeeds = true) :
    next.succeeds = true := by
  cases goes with
  | copyIn | copyOut | removed => rfl
  | enter => exact got
  | cpu succeeds lock => rcases lock with rfl | rfl | rfl | rfl <;> cases got
  | _ => cases got

/-- Open code that does not use the heap or the memory leaves all objects alone. -/
theorem assets_of_run (ran : stage.run s = (s', move)) (idle : stage.stores = false) :
    s'.kernel.assets = s.kernel.assets :=
  Kernel.assets_of_bare (frame_of_run ran).1 (storage_of_run ran idle)

/-- A call that has got nothing yet stores nothing. -/
theorem stores_of_mayFail (stays : call.At c stage) (may : call.mayFail = true)
    (none : stage.succeeds = false) : stage.stores = false := by
  cases stays with
  | useHeap seeks => cases seeks <;> cases may
  | copyIn => cases none
  | _ => rfl

end Stage

namespace Call.Runs

/-- A section that gives back the lock of a queue ends a call that has got what it wanted. -/
theorem succeeds (ran : sec.run s = (s', .leave next)) (got : (Stage.enter sec).succeeds = true) :
    next.succeeds = true := by
  cases sec with
  | commitAdd | commitRemove =>
    cases ran
    rfl
  | _ => cases got

theorem plain_succeeds (runs : call.Runs c sec) (may : call.mayFail = true)
    (simple : sec.isPlain = true) : (Stage.enter sec).succeeds = true := by
  cases runs with
  | commitAdd | commitRemove => rfl
  | leaveHeap seeks => cases seeks <;> cases may
  | pause | exit | seek | wake | startAdd | startFlush | startMulti => cases simple
  | _ => cases may

theorem reached_succeeds (goal : call.Seeks g) (may : call.mayFail = true)
    (now : g.Reached s s' next) : next.succeeds = true := by
  cases goal with
  | lock | event | multi | add | remove =>
    cases now
    rfl
  | _ => cases may

/-- A section of a call leaves all objects alone, or the call gets what it wanted. -/
theorem assets (runs : call.Runs c sec) (may : call.mayFail = true)
    (ran : sec.run s = (s', .leave next)) :
    s'.kernel.assets = s.kernel.assets ∨ next.succeeds = true := by
  cases Section.left_of_run ran with
  | plain simple ran => exact .inr (succeeds ran (runs.plain_succeeds may simple))
  | sought seeks sought =>
    cases sought with
    | reached now => exact .inr (reached_succeeds (goal_of_seeks runs seeks) may now)
    | refused | late | blocks => exact .inl seeks.assets
  | _ => exact .inl rfl

end Call.Runs

namespace AtOnce

theorem of_goes (atOnce : AtOnce stage past) (goes : stage.Goes next) : AtOnce next past := by
  cases atOnce with
  | starts early =>
    cases goes with
    | enter => exact .starts early
    | cpu succeeds lock => simp at lock
  | fails =>
    cases goes with
    | cpu succeeds lock => simp at lock
  | ends decided =>
    rcases decided with got | ⟨cause, rfl⟩
    · exact .ends (.inl (goes.succeeds got))
    · cases goes with
      | cpu succeeds lock => simp at lock

/-- The first section of a call that does not wait. -/
theorem of_first (runs : call.Runs c sec) (may : call.mayFail = true) (hurries : call.Hurries)
    (early : sec.isEarly = true) (ran : sec.run s = (s', .leave next)) :
    AtOnce next [(s, sec)] := by
  cases Section.left_of_run ran with
  | plain simple =>
    have got := runs.plain_succeeds may simple
    cases sec with
    | commitAdd | commitRemove => cases early
    | _ => cases got
  | sought seeks sought =>
    obtain ⟨rfl, rfl, rfl⟩ := seeks.terms runs early
    cases sought with
    | reached now =>
      exact .ends (.inl (Call.Runs.reached_succeeds (Call.goal_of_seeks runs seeks) may now))
    | refused | late => exact .fails ran
    | blocks later must able left => exact (hurries.not_waits must left).elim
  | failed => exact .ends (.inr ⟨_, rfl⟩)
  | pauses able left =>
    obtain ⟨pauses, rfl⟩ := Call.pauses_of_runs runs
    cases pauses with
    | blockOn => exact (hurries.not_waits rfl left).elim
    | _ => cases may
  | late able =>
    cases (Call.pauses_of_runs runs).1 with
    | blockOn => exact .fails ran
    | _ => cases may
  | lateExit => cases (Call.pauses_of_runs runs).1
  | exits =>
    cases runs
    cases may
  | asleep | woken | exited => cases early

theorem of_runs (atOnce : AtOnce (.enter sec) past) (runs : call.Runs c sec)
    (may : call.mayFail = true) (hurries : call.Hurries) (ran : sec.run s = (s', .leave next)) :
    AtOnce next ((s, sec) :: past) := by
  cases atOnce with
  | starts early => exact of_first runs may hurries early ran
  | ends decided =>
    rcases decided with got | ⟨cause, he⟩
    · exact .ends (.inl (Call.Runs.succeeds ran got))
    · cases he

theorem of_start (config : Config) (may : call.mayFail = true) : AtOnce (call.start config) [] := by
  cases call with
  | blockOn | lock | waitEvent | waitMulti | add | remove => exact .starts rfl
  | _ => cases may

end AtOnce

namespace Section.Fails

theorem lock {m : MutexName} {mask : Word} {flags : WaitFlags} {n : Ticks}
    (fails : sec.Fails s (.lock m mask flags n) c s' e) : s.kernel.mutex m &&& mask ≠ 0 := by
  cases fails with
  | refused goal seeks later | late goal seeks later =>
    cases goal
    cases later with
    | lock taken =>
      rw [Kernel.mutex_of_objects seeks.objects] at taken
      exact of_decide_eq_false taken
    | queue taken uses => simp at uses
  | paused blocks | woken blocks => cases blocks

theorem event {i : Nat} {mask : Word} {flags : WaitFlags} {n : Ticks}
    (fails : sec.Fails s (.waitEvent i mask flags n) c s' e) : s.kernel.event i &&& mask = 0 := by
  cases fails with
  | refused goal seeks later | late goal seeks later =>
    cases goal
    cases later with
    | event unset =>
      rw [Kernel.matched, Kernel.event_of_words (Kernel.words_of_objects seeks.objects)] at unset
      exact unset
    | queue taken uses => simp at uses
  | paused blocks | woken blocks => cases blocks

end Section.Fails

namespace Machine

variable {m m' : Machine} {config : Config}

/-- A call that has got nothing yet has left all objects alone. -/
theorem Run.unmarked (run : Run config m h) (here : m.stageOf c = some stage)
    (calling : h.calling c = some call) (may : call.mayFail = true)
    (none : stage.succeeds = false) :
    ∀ x ∈ h.sectionsBy c, (x.2.run x.1).1.kernel.assets = x.1.kernel.assets := by
  -- what holds of a call that has got nothing holds of it before, when it had got nothing either
  have earlier : ∀ {stage next : Stage}, (stage.succeeds = true → next.succeeds = true) →
      next.succeeds = false → stage.succeeds = false := by
    intro stage next onward none
    refine Bool.eq_false_iff.mpr fun got => ?_
    rw [onward got] at none
    cases none
  refine Run.induct_call (P := fun stage past => stage.succeeds = false →
    ∀ x ∈ past, (x.2.run x.1).1.kernel.assets = x.1.kernel.assets) ?_ ?_ ?_ ?_
    run here calling none
  · simp
  · simp
  · intro stage next past stays goes before none
    exact before (earlier goes.succeeds none)
  · intro s s' sec next past runs ran before none x hx
    rcases List.mem_cons.mp hx with rfl | hx
    · rcases runs.assets may ran with same | got
      · rw [ran]
        exact same
      · cases none.symm.trans got
    · exact before (earlier (Call.Runs.succeeds ran) none) x hx

theorem Run.atOnce (run : Run config m h) (here : m.stageOf c = some stage)
    (calling : h.calling c = some call) (may : call.mayFail = true) (hurries : call.Hurries) :
    AtOnce stage (h.sectionsBy c) := by
  refine Run.induct_call (P := AtOnce) ?_ ?_ ?_ ?_ run here calling
  · intro config
    exact .of_start config may
  · intro tick
    subst tick
    cases may
  · intro stage next past stays goes atOnce
    exact atOnce.of_goes goes
  · intro s s' sec next past runs ran atOnce
    exact atOnce.of_runs runs may hurries ran

/-- No other call fails. -/
theorem Run.mayFail (run : Run config m h) (here : m.stageOf c = some (.return (.failed e)))
    (calling : h.calling c = some call) : call.mayFail = true := by
  have answers := (run.timed c _ call here calling).answers _ rfl
  obtain ⟨s, sec, older, failed⟩ := run.failed here calling
  have fails := failed.fails
  generalize (sec.run s).1 = s' at fails
  cases fails with
  | refused goal | late goal =>
    cases goal with
    | lock | event | multi | add | remove => rfl
    | flush | alloc | free | stats | ring => exact absurd rfl (answers.not_failed rfl rfl _)
  | paused blocks | woken blocks =>
    subst blocks
    rfl

structure Traceless (config : Config) (m : Machine) (h : History) (c : Context) (call : Call)
    (e : WaitError) : Prop where
  sections (s : System) (sec : Section) :
    (s, sec) ∈ h.sectionsBy c → (sec.run s).1.kernel.assets = s.kernel.assets
  code (m₁ : Machine) (h₁ : History) (stage : Stage) : Run config m₁ h₁ →
    Leads config m₁ h₁ m h → History.During c h₁ h → m₁.stageOf c = some stage →
      (stage.run m₁.system).1.kernel.assets = m₁.kernel.assets
  rests (t : TaskId) : c = .task t → (m.kernel.task t).Rests
  last : ∃ s sec older, h.sectionsBy c = (s, sec) :: older ∧
    (sec.run s).2 = .leave (.return (.failed e)) ∧
    (∀ m mask flags n, call = .lock m mask flags n → s.kernel.mutex m &&& mask ≠ 0) ∧
    ∀ i mask flags n, call = .waitEvent i mask flags n → s.kernel.event i &&& mask = 0
  hurried : call.Hurries → ∃ s sec, h.sectionsBy c = [(s, sec)] ∧
    sec.run s = (s, .leave (.return (.failed e)))

/-- A call that returns an error leaves no trace. -/
theorem Run.traceless (run : Run config m h) (here : m.stageOf c = some (.return (.failed e)))
    (calling : h.calling c = some call) : Traceless config m h c call e := by
  have may := run.mayFail here calling
  refine ⟨?_, ?_, ?_, ?_, ?_⟩
  · intro s sec member
    exact run.unmarked here calling may rfl (s, sec) member
  · intro m₁ h₁ stage run₁ leads during here₁
    have calling₁ : h₁.calling c = some call := during.calling_eq.symm.trans calling
    refine Stage.assets_of_run rfl
      (Stage.stores_of_mayFail (run₁.at_of_calling here₁ calling₁) may ?_)
    refine Bool.eq_false_iff.mpr fun got => ?_
    obtain ⟨stage', here', got'⟩ := leads.keeps (P := fun stage => stage.succeeds = true)
      during calling₁ (fun _ _ _ goes => goes.succeeds)
      (fun _ _ _ _ _ ran => Call.Runs.succeeds ran) here₁ got
    cases here.symm.trans here'
    cases got'
  · intro t mine
    refine run.rests t fun stage here' => ?_
    cases here.symm.trans (mine ▸ here')
    rfl
  · obtain ⟨s, sec, older, failed⟩ := run.failed here calling
    refine ⟨s, sec, _, failed.last, failed.ends, ?_, ?_⟩
    · intro m mask flags n he
      subst he
      exact failed.fails.lock
    · intro i mask flags n he
      subst he
      exact failed.fails.event
  · intro hurries
    have atOnce := run.atOnce here calling may hurries
    generalize h.sectionsBy c = past at atOnce ⊢
    cases atOnce with
    | fails ran => exact ⟨_, _, rfl, ran⟩
    | ends decided => simp [Stage.succeeds] at decided

def waitingInVain : Option (Machine × History) :=
  follow (initial { maxTasks := 2, arenaStart := 4096, arenaSize := 512, timeSlice := 0 }, [])
    [.call (.createTask "only" 256 5 0 0), .steps 4, .launch, .steps 1,
      .call (.waitEvent 0 1 {} 1), .steps 6, .pend timerLine, .steps 11]

theorem traceless_waitingInVain : ∃ m h config, Run config m h ∧
    m.stageOf (.task 1) = some (.return (.failed .timeout)) ∧
    h.calling (.task 1) = some (.waitEvent 0 1 {} 1) ∧ (h.sectionsBy (.task 1)).length = 2 ∧
    (∀ s sec, (s, sec) ∈ h.sectionsBy (.task 1) →
      (sec.run s).1.kernel.assets = s.kernel.assets) ∧
    (m.kernel.task 1).Rests := by
  have script : waitingInVain.map (fun x => (x.1.stageOf (.task 1), x.2.calling (.task 1),
      (x.2.sectionsBy (.task 1)).length)) =
      some (some (.return (.failed .timeout)), some (.waitEvent 0 1 {} 1), 2) := by
    decide +kernel
  obtain ⟨x, hx, facts⟩ := Option.map_eq_some_iff.mp script
  simp only [Prod.mk.injEq] at facts
  obtain ⟨here, calling, count⟩ := facts
  have run := run_of_follow hx
  have traceless := run.traceless here calling
  exact ⟨_, _, _, run, here, calling, count, traceless.sections, traceless.rests 1 rfl⟩

end Machine

end TaskKernel
