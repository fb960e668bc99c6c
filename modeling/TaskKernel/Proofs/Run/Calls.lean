import TaskKernel.Proofs.Run.Order

namespace TaskKernel

namespace Call

def nowait : Call → Bool
  | lock _ _ flags _ => flags.nowait
  | waitEvent _ _ flags _ => flags.nowait
  | add _ flags _ _ => flags.nowait
  | remove _ flags _ _ => flags.nowait
  | _ => false

inductive Seeks : Call → Goal → Prop where
  | lock {m : MutexName} {mask : Word} {flags : WaitFlags} {n : Ticks} :
      Seeks (.lock m mask flags n) (.lock m mask)
  | event {e : Nat} {mask : Word} {flags : WaitFlags} {n : Ticks} :
      Seeks (.waitEvent e mask flags n) (.event e mask flags.clear)
  | multi {w : Nat} {combinator : Combinator} {n : Ticks} {entries : List SubWait} :
      Seeks (.waitMulti w combinator n) (.multi { entries, combinator })
  | add {q : Nat} {flags : WaitFlags} {n : Ticks} {payload : List UInt8} :
      Seeks (.add q flags n payload) (.add q payload)
  | remove {q : Nat} {flags : WaitFlags} {n : Ticks} {buffer : List UInt8} :
      Seeks (.remove q flags n buffer) (.remove q buffer)
  | flush {q : Nat} : Seeks (.flush q) (.flush q)
  | alloc {size : Nat} : Seeks (.alloc size) (.heap (.alloc size))
  | free {a : Nat} : Seeks (.free a) (.heap (.free a))
  | stats : Seeks .heapStats (.heap .stats)
  | ring {q slots payload : Nat} :
      Seeks (.createQueue q slots payload) (.heap (.ring q slots payload))

inductive Pauses : Call → Pause → WaitState → Prop where
  | sleep {n : Ticks} (some : n ≠ Ticks.forever) : Pauses (.sleep n) .sleep .timer
  | suspend : Pauses .suspend .suspend .suspended
  | blockOn {wait : WaitState} {n : Ticks} : Pauses (.blockOn wait n) .blockOn wait

inductive WaitsIn : Call → Waiter → Prop where
  | goal {call : Call} {g : Goal} (seeks : call.Seeks g) : WaitsIn call (.goal g)
  | pause {call : Call} {p : Pause} {wait : WaitState} (pauses : call.Pauses p wait) :
      WaitsIn call (.pause p)
  | exit : WaitsIn .exit (.pause .exit)

inductive Runs : Call → Context → Section → Prop where
  | createTask {c : Context} {name : String} {stack priority param entry : Nat} :
      Runs (.createTask name stack priority param entry) c
        (.createTask name stack priority param entry)
  | currentTask {c : Context} : Runs .currentTask c .currentTask
  | currentParam {c : Context} : Runs .currentParam c .currentParam
  | requestReschedule {c : Context} : Runs .requestReschedule c .requestReschedule
  | tick {c : Context} : Runs .tick c .tick
  | pause {call : Call} {c : Context} {p : Pause} {wait : WaitState}
      (pauses : call.Pauses p wait) : Runs call c (.pause p wait call.budget)
  | exit {c : Context} : Runs .exit c .exit
  | seek {call : Call} {c : Context} {g : Goal} (seeks : call.Seeks g) :
      Runs call c (.seek g call.nowait call.budget)
  | wake {call : Call} {t : TaskId} {w : Waiter} (waits : call.WaitsIn w) :
      Runs call (.task t) (.wake t w)
  | unlock {c : Context} {m : MutexName} {mask : Word} {reschedule : Bool} :
      Runs (.unlock m mask reschedule) c (.unlock m mask reschedule)
  | isLocked {c : Context} {m : MutexName} {mask : Word} :
      Runs (.isLocked m mask) c (.isLocked m mask)
  | raise {c : Context} {e : Nat} {mask : Word} {reschedule : Bool} :
      Runs (.raise e mask reschedule) c (.raise e mask reschedule)
  | clear {c : Context} {e : Nat} {mask : Word} : Runs (.clear e mask) c (.clear e mask)
  | getEvent {c : Context} {e : Nat} : Runs (.getEvent e) c (.getEvent e)
  | checkNoRing {c : Context} {q slots payload : Nat} :
      Runs (.createQueue q slots payload) c (.checkNoRing q slots payload)
  | installRing {c : Context} {q slots payload base : Nat} :
      Runs (.createQueue q slots payload) c (.installRing q slots payload base)
  | startAdd {c : Context} {q : Nat} {flags : WaitFlags} {n : Ticks} {payload : List UInt8} :
      Runs (.add q flags n payload) c (.startAdd q flags n payload)
  | startFlush {c : Context} {q : Nat} : Runs (.flush q) c (.startFlush q)
  | startMulti {c : Context} {w : Nat} {combinator : Combinator} {n : Ticks} :
      Runs (.waitMulti w combinator n) c (.startMulti w combinator n)
  | commitAdd {c : Context} {q : Nat} {flags : WaitFlags} {n : Ticks} {payload : List UInt8} :
      Runs (.add q flags n payload) c (.commitAdd q)
  | commitRemove {c : Context} {q length : Nat} {flags : WaitFlags} {n : Ticks}
      {buffer out : List UInt8} :
      Runs (.remove q flags n buffer) c (.commitRemove q length out)
  | length {c : Context} {q : Nat} : Runs (.length q) c (.length q)
  | isFull {c : Context} {q : Nat} : Runs (.isFull q) c (.isFull q)
  | createMultiWait {c : Context} {w count : Nat} :
      Runs (.createMultiWait w count) c (.createMultiWait w count)
  | addSubWait {c : Context} {w : Nat} {entry : SubWait} :
      Runs (.addSubWait w entry) c (.addSubWait w entry)
  | leaveHeap {call : Call} {c : Context} {task : HeapTask} {r : HeapResult}
      (seeks : call.Seeks (.heap task)) : Runs call c (.leaveHeap task r)
  | readCell {c : Context} {cells rest : List Cell} {cell : Cell}
      {seen : List (Option CellValue)} : Runs (.inspect cells) c (.readCell cell rest seen)

inductive At : Call → Context → Stage → Prop where
  | enter {call : Call} {c : Context} {sec : Section} (runs : call.Runs c sec) :
      At call c (.enter sec)
  | reenter {call : Call} {t : TaskId} {w : Waiter} (waits : call.WaitsIn w) :
      At call (.task t) (.reenter t w)
  | yield {call : Call} {t : TaskId} {w : Waiter} (waits : call.WaitsIn w) :
      At call (.task t) (.yield t w)
  | useHeap {call : Call} {c : Context} {task : HeapTask} (seeks : call.Seeks (.heap task)) :
      At call c (.useHeap task)
  | leftHeap {call : Call} {c : Context} {task : HeapTask} {r : HeapResult}
      (seeks : call.Seeks (.heap task)) : At call c (.leftHeap task r)
  | copyIn {c : Context} {q : Nat} {flags : WaitFlags} {n : Ticks} {payload : List UInt8}
      {r : Ring} : At (.add q flags n payload) c (.copyIn q r payload)
  | copyOut {c : Context} {q : Nat} {flags : WaitFlags} {n : Ticks} {buffer : List UInt8}
      {r : Ring} : At (.remove q flags n buffer) c (.copyOut q r buffer)
  | removed {c : Context} {q length : Nat} {flags : WaitFlags} {n : Ticks}
      {buffer out : List UInt8} : At (.remove q flags n buffer) c (.removed q length out)
  | readCells {c : Context} {cells rest : List Cell} {seen : List (Option CellValue)} :
      At (.inspect cells) c (.readCells rest seen)
  | enterCpuLock {c : Context} : At .enterCpuLock c .enterCpuLock
  | tryEnterCpuLock {c : Context} : At .tryEnterCpuLock c .tryEnterCpuLock
  | leaveCpuLock {c : Context} : At .leaveCpuLock c .leaveCpuLock
  | yieldCpu {c : Context} : At .yieldCpu c .yieldCpu
  | timer {c : Context} : At .tick c .timer
  | fail {call : Call} {c : Context} {cause : Cause} : At call c (.fail cause)
  | «return» {call : Call} {c : Context} {r : Reply} : At call c (.return r)

theorem at_start (config : Config) (call : Call) (c : Context) : call.At c (call.start config) := by
  cases call with
  | createTask name stack priority param entry =>
    simp only [start]
    split
    · exact .fail
    · exact .enter .createTask
  | sleep n =>
    simp only [start]
    split
    · exact .return
    · rename_i some
      exact .enter (.pause (.sleep some))
  | createQueue q slots payload =>
    simp only [start]
    split
    · exact .fail
    · split
      · exact .fail
      · exact .enter .checkNoRing
  | createMultiWait w count =>
    simp only [start]
    split
    · exact .fail
    · exact .enter .createMultiWait
  | suspend => exact .enter (.pause .suspend)
  | blockOn wait n => exact .enter (.pause .blockOn)
  | lock m mask flags n => exact .enter (.seek .lock)
  | waitEvent e mask flags n => exact .enter (.seek .event)
  | remove q flags n buffer => exact .enter (.seek .remove)
  | alloc size => exact .enter (.seek .alloc)
  | free a => exact .enter (.seek .free)
  | heapStats => exact .enter (.seek .stats)
  | inspect cells => exact .readCells
  | enterCpuLock => exact .enterCpuLock
  | tryEnterCpuLock => exact .tryEnterCpuLock
  | leaveCpuLock => exact .leaveCpuLock
  | yieldCpu => exact .yieldCpu
  | _ => exact .enter (by constructor)

variable {call : Call} {c : Context} {s s' s₀ : System} {g : Goal} {stage next : Stage}

theorem at_of_reached (seeks : call.Seeks g) (reached : g.Reached s s' next) :
    call.At c next := by
  cases reached with
  | lock | event | multi | flush => exact .return
  | add => cases seeks; exact .copyIn
  | remove => cases seeks; exact .copyOut
  | heap => exact .useHeap seeks

/-- The context's code runs: a task's as the running task, and only a task's can block. -/
structure RunsAs (s : System) (c : Context) : Prop where
  task (t : TaskId) : c = .task t → s.kernel.running = t
  able : s.canBlock = true → c = .task s.kernel.running

theorem at_yield {w : Waiter} {t : TaskId} (waits : call.WaitsIn w) (here : c = .task t) :
    call.At c (.yield t w) := here ▸ .yield waits

theorem at_of_sought {nowait : Bool} {timeout : Ticks} (seeks : call.Seeks g)
    (here : RunsAs s c) (sought : Sought s g nowait timeout s' next) : call.At c next := by
  cases sought with
  | reached now => exact at_of_reached seeks now
  | refused | late => exact .return
  | blocks later may able left => exact at_yield (.goal seeks) (here.able able)

theorem goal_of_seeks {nowait : Bool} {timeout : Ticks} {sec : Section} (runs : call.Runs c sec)
    (seeks : sec.Seeks s s₀ g nowait timeout) : call.Seeks g := by
  cases seeks with
  | seek => cases runs; assumption
  | add => cases runs; exact .add
  | flush => cases runs; exact .flush
  | multi => cases runs; exact .multi
  | wake =>
    cases runs with
    | wake waits =>
      cases waits
      assumption

theorem runsAs_of_seeks {nowait : Bool} {timeout : Ticks} {sec : Section} (here : RunsAs s c)
    (seeks : sec.Seeks s s₀ g nowait timeout) : RunsAs s₀ c := by
  cases seeks <;> exact ⟨here.task, here.able⟩

theorem at_of_plain {sec : Section} (runs : call.Runs c sec) (simple : sec.isPlain = true)
    (ran : sec.run s = (s', .leave next)) : call.At c next := by
  cases runs with
  | createTask =>
    rcases Section.createTask_cases ran with ⟨-, rfl⟩ | ⟨-, rfl, -⟩
    · exact .fail
    · exact .return
  | checkNoRing =>
    simp only [Section.run] at ran
    split at ran <;> cases ran
    · exact .fail
    · rename_i q slots payload none
      have seeks : Seeks (.createQueue q slots payload) _ := .ring
      exact .enter (.seek seeks)
  | installRing =>
    simp only [Section.run] at ran
    split at ran <;> cases ran
    exact .return
  | addSubWait =>
    simp only [Section.run] at ran
    split at ran <;> cases ran
    · exact .fail
    · exact .return
  | commitRemove => cases ran; exact .removed
  | leaveHeap seeks => cases ran; exact .leftHeap seeks
  | readCell => cases ran; exact .readCells
  | pause | exit | seek | wake | startAdd | startFlush | startMulti => cases simple
  | _ => cases ran; exact .return

theorem pauses_of_runs {p : Pause} {wait : WaitState} {n : Ticks}
    (runs : call.Runs c (.pause p wait n)) : call.Pauses p wait ∧ n = call.budget := by
  cases runs with
  | pause pauses => exact ⟨pauses, rfl⟩

/-- A section leads from a stage of a call to another one. -/
theorem at_of_left {sec : Section} (runs : call.Runs c sec) (here : RunsAs s c)
    (left : sec.Left s s' next) : call.At c next := by
  cases left with
  | plain simple ran => exact at_of_plain runs simple ran
  | sought seeks sought =>
    exact at_of_sought (goal_of_seeks runs seeks) (runsAs_of_seeks here seeks) sought
  | failed => exact .fail
  | late | woken => exact .return
  | pauses able left =>
    cases runs with
    | pause pauses => exact at_yield (.pause pauses) (here.able able)
  | lateExit able => cases (pauses_of_runs runs).1
  | exits able =>
    cases runs
    exact at_yield .exit (here.able able)
  | asleep =>
    cases runs with
    | wake waits => exact .yield waits
  | @exited t chosen =>
    cases runs with
    | wake waits =>
      rw [here.task t rfl]
      exact .yield waits

/-- Open code leads from a stage of a call to another one. -/
theorem at_of_goes (stays : call.At c stage) (goes : stage.Goes next) : call.At c next := by
  cases goes with
  | enter => exact stays
  | reenter =>
    cases stays with
    | reenter waits => exact .enter (.wake waits)
  | yield =>
    cases stays with
    | yield waits => exact .reenter waits
  | useHeap =>
    cases stays with
    | useHeap seeks => exact .enter (.leaveHeap seeks)
  | leftRing =>
    cases stays with
    | leftHeap seeks => cases seeks; exact .enter .installRing
  | copyIn => cases stays; exact .enter .commitAdd
  | copyOut => cases stays; exact .enter .commitRemove
  | skip => cases stays; exact .readCells
  | readCell => cases stays; exact .enter .readCell
  | timer => cases stays; exact .enter .tick
  | idle => cases stays
  | leftHeap | removed | read | cpu => exact .return

theorem runs_of_at {sec : Section} (stays : call.At c (.enter sec)) : call.Runs c sec := by
  cases stays
  assumption

end Call

namespace Machine

/-- Where a context is, given its call in progress. -/
inductive Conforms : Context → Option Stage → Option Call → Prop where
  | out {c : Context} : Conforms c none none
  | idle : Conforms (.task TaskId.idle) (some .idle) none
  | at {c : Context} {stage : Stage} {call : Call} (stays : call.At c stage) :
      Conforms c (some stage) (some call)

variable {m m' : Machine} {h h' : History} {config : Config}

theorem Orderly.runsAs (hm : m.Orderly) : Call.RunsAs m.system m.context := by
  have owned : ∀ t, m.cpu.owner = .task t → m.kernel.running = t := by
    intro t ht
    cases started : m.cpu.started with
    | false =>
      rw [(hm.booting started).1] at ht
      cases ht
    | true =>
      rw [hm.owner started] at ht
      cases ht
      rfl
  constructor
  · intro t ht
    refine owned t ?_
    unfold context at ht
    split at ht
    · cases ht
    · cases owner : m.cpu.owner with
      | boot =>
        rw [owner] at ht
        cases ht
      | task u =>
        rw [owner] at ht
        cases ht
        rfl
  · intro able
    have inTask : m.cpu.inTask = true := (Bool.and_eq_true_iff.mp able).1
    obtain ⟨outside, owner⟩ := Bool.and_eq_true_iff.mp inTask
    unfold context
    rw [if_neg (by simpa using outside)]
    cases ho : m.cpu.owner with
    | boot => simp [ho] at owner
    | task t =>
      rw [← owned t ho]
      rfl

theorem Conforms.stage {c : Context} {stage : Stage} {call : Option Call}
    (h : Conforms c (some stage) call) :
    (c = .task TaskId.idle ∧ stage = .idle ∧ call = none) ∨
      ∃ call', call = some call' ∧ call'.At c stage := by
  cases h with
  | idle => exact .inl ⟨rfl, rfl, rfl⟩
  | «at» stays => exact .inr ⟨_, rfl, stays⟩

theorem Conforms.free {c : Context} {call : Option Call} (h : Conforms c none call) :
    call = none := by
  cases h
  rfl

theorem Change.conforms (ordered : m.Orderly)
    (hm : ∀ c, Conforms c (m.stageOf c) (h.calling c)) (change : Change m h m' h') :
    ∀ c, Conforms c (m'.stageOf c) (h'.calling c) := by
  intro c
  have before := hm c
  cases change with
  | code here ran goes stages =>
    rw [stages]
    split
    · rename_i hc
      subst hc
      rw [here] at before
      rcases before.stage with ⟨hc, rfl, hcall⟩ | ⟨call, hcall, stays⟩
      · rw [hcall, hc]
        cases goes with
        | idle => exact .idle
        | cpu _ lock => simp at lock
      · rw [hcall]
        exact .at (Call.at_of_goes stays goes)
    · exact before
  | ran here ran system stages =>
    rw [stages]
    split
    · rename_i hc
      subst hc
      rw [here] at before
      rcases before.stage with ⟨-, hs, -⟩ | ⟨call, hcall, stays⟩
      · cases hs
      · have left := Section.left_of_run ran
        unfold History.calling
        rw [hcall]
        exact .at (Call.at_of_left (Call.runs_of_at stays) ordered.runsAs left)
    · exact before
  | called call legal here system stages =>
    rw [stages]
    unfold History.calling
    split
    · rename_i hc
      rw [if_pos hc.symm]
      exact .at (Call.at_start ..)
    · rename_i hc
      rw [if_neg (Ne.symm hc)]
      exact before
  | returned here kernel cpu stages =>
    rw [stages]
    unfold History.calling
    split
    · rename_i hc
      rw [if_pos hc.symm]
      exact .out
    · rename_i hc
      rw [if_neg (Ne.symm hc)]
      exact before
  | @entered _ handler here kernel cpu stages =>
    rw [stages]
    cases handler with
    | timer =>
      unfold History.calling
      by_cases hc : c = .handler
      · simp only [hc]
        exact .at .timer
      · simp only [hc]
        exact before
    | application id =>
      unfold History.calling
      simpa using before
  | dispatched kernel started cpu stages =>
    rw [stages]
    exact before
  | launched here booting kernel cpu stages =>
    rw [stages]
    exact before
  | idled here system stages =>
    rw [stages]
    split
    · rename_i hc
      subst hc
      rw [here] at before
      rw [before.free]
      exact .idle
    · exact before
  | quiet kernel cpu stages =>
    rw [stages]
    exact before
  | wrote => exact before

/-- Every context is at a stage of its call. -/
theorem Run.conforms (run : Run config m h) (c : Context) :
    Conforms c (m.stageOf c) (h.calling c) := by
  revert c
  refine run.induct (fun c => ?_) fun run ih change => change.conforms run.orderly ih
  cases c <;> exact .out

/-- What the contracts of the calls say holds of every call in progress. -/
theorem Run.called {P : Call → Prop} (legal : ∀ h call, Call.Legal h call → P call)
    (tick : P .tick) (run : Run config m h) {c : Context} {call : Call}
    (calling : h.calling c = some call) : P call := by
  refine Run.induct (P := fun _ h => ∀ c call, h.calling c = some call → P call)
    (fun _ _ calling => ?_) ?_ run c call calling
  · cases calling
  intro m m' h h' run ih change c call calling
  cases change with
  | called call' allowed =>
    unfold History.calling at calling
    split at calling
    · cases calling
      exact legal h call allowed
    · exact ih c call calling
  | returned =>
    unfold History.calling at calling
    split at calling
    · cases calling
    · exact ih c call calling
  | @entered _ handler =>
    cases handler with
    | timer =>
      unfold History.calling at calling
      split at calling
      · cases calling
        exact tick
      · exact ih c call calling
    | application => exact ih c call calling
  | _ => exact ih c call calling

theorem Run.fits (run : Run config m h) {c : Context} {call : Call}
    (calling : h.calling c = some call) : call.budget ≤ Ticks.expired :=
  run.called (fun _ _ legal => legal.fits) (Nat.zero_le _) calling

theorem Run.at_of_calling (run : Run config m h) {c : Context} {stage : Stage} {call : Call}
    (here : m.stageOf c = some stage) (calling : h.calling c = some call) : call.At c stage := by
  have conforms := run.conforms c
  rw [here, calling] at conforms
  cases conforms
  assumption

inductive Progress (m : Machine) (h : History) (m' : Machine) (h' : History) (c : Context) :
    Stage → Call → Prop where
  | begins {call : Call} (legal : call.Legal h) (new : h' = .called c call :: h)
      (system : m'.system = m.system) : Progress m h m' h' c (call.start m.kernel.config) call
  | serves (new : h' = .entered .timer :: h) (interrupts : c = .handler)
      (kernel : m'.kernel = m.kernel) : Progress m h m' h' c .timer .tick
  | codes {stage next : Stage} {call : Call} {move : Move} (here : m.stageOf c = some stage)
      (calling : h.calling c = some call) (stays : call.At c stage)
      (ran : stage.run m.system = (m'.system, move)) (goes : stage.Goes next)
      (moves : move.next stage = some next) (same : h' = h) : Progress m h m' h' c next call
  | runs {sec : Section} {next : Stage} {call : Call} {s : System}
      (here : m.stageOf c = some (.enter sec)) (calling : h.calling c = some call)
      (runs : call.Runs c sec) (ran : sec.run m.system = (s, .leave next))
      (system : m'.system = s.setCpuLock false) (new : h' = .ran c m.system sec :: h)
      (active : c = m.context) : Progress m h m' h' c next call
  | waits {stage : Stage} {call : Call} (here : m.stageOf c = some stage)
      (calling : h.calling c = some call)
      (other : h' = h ∨ ∃ x, h' = x :: h ∧ x.context ≠ some c) : Progress m h m' h' c stage call

/-- A change takes a context on in its call, or leaves it where it is. -/
theorem Change.progress (run : Run config m h) (change : Change m h m' h') {c : Context}
    {stage : Stage} {call : Call} (here' : m'.stageOf c = some stage)
    (calling : h'.calling c = some call) : Progress m h m' h' c stage call := by
  cases change with
  | code here ran goes stages moves =>
    rw [stages] at here'
    split at here'
    · rename_i hc
      subst hc
      cases here'
      exact .codes here calling (run.at_of_calling here calling) ran goes moves rfl
    · exact .waits here' calling (.inl rfl)
  | ran here ran system stages =>
    rw [stages] at here'
    split at here'
    · rename_i hc
      subst hc
      cases here'
      have runs := Call.runs_of_at (run.at_of_calling here calling)
      exact .runs here calling runs ran system rfl rfl
    · rename_i other
      exact .waits here' calling (.inr ⟨_, rfl, fun he => other (Option.some.inj he).symm⟩)
  | called call' legal here system stages =>
    rw [stages] at here'
    unfold History.calling at calling
    split at here'
    · rename_i hc
      subst hc
      rw [if_pos rfl] at calling
      cases calling
      cases here'
      exact .begins legal rfl system
    · rename_i other
      rw [if_neg (Ne.symm other)] at calling
      exact .waits here' calling (.inr ⟨_, rfl, fun he => other (Option.some.inj he).symm⟩)
  | returned here kernel cpu stages =>
    rw [stages] at here'
    unfold History.calling at calling
    split at here'
    · cases here'
    · rename_i other
      rw [if_neg (Ne.symm other)] at calling
      exact .waits here' calling (.inr ⟨_, rfl, fun he => other (Option.some.inj he).symm⟩)
  | @entered _ handler here kernel cpu stages =>
    rw [stages] at here'
    split at here'
    · rename_i timer
      obtain ⟨rfl, rfl⟩ := timer
      cases here'
      cases calling
      exact .serves rfl rfl kernel
    · have outside : c ≠ .handler := by
        intro he
        subst he
        rw [here] at here'
        cases here'
      cases handler with
      | timer =>
        unfold History.calling at calling
        rw [if_neg outside] at calling
        exact .waits here' calling (.inr ⟨_, rfl, fun he => outside (Option.some.inj he).symm⟩)
      | application => exact .waits here' calling (.inr ⟨_, rfl, fun he => by cases he⟩)
  | dispatched kernel started cpu stages | launched here booting kernel cpu stages =>
    rw [stages] at here'
    exact .waits here' calling (.inr ⟨_, rfl, fun he => by cases he⟩)
  | idled here system stages =>
    rw [stages] at here'
    split at here'
    · rename_i hc
      subst hc
      have conforms := run.conforms (.task TaskId.idle)
      rw [here] at conforms
      rw [conforms.free] at calling
      cases calling
    · exact .waits here' calling (.inl rfl)
  | quiet kernel cpu stages =>
    rw [stages] at here'
    exact .waits here' calling (.inl rfl)
  | wrote => exact .waits here' calling (.inl rfl)

/-- The section that a context executes belongs to its call. -/
theorem Run.runs_of_enter (run : Run config m h) {c : Context} {sec : Section}
    (here : m.stageOf c = some (.enter sec)) :
    ∃ call, h.calling c = some call ∧ call.Runs c sec := by
  have conforms := run.conforms c
  rw [here] at conforms
  rcases conforms.stage with ⟨-, hs, -⟩ | ⟨call, hcall, stays⟩
  · cases hs
  · exact ⟨call, hcall, Call.runs_of_at stays⟩

/-- A call that has returned was at its end. -/
theorem Run.of_returned {c : Context} {r : Reply} {past : History} (run : Run config m h)
    (returned : .returned c r :: past <:+ h) :
    ∃ m₀, Run config m₀ past ∧ m₀.stageOf c = some (.return r) := by
  refine Run.induct (P := fun _ h => .returned c r :: past <:+ h →
    ∃ m₀, Run config m₀ past ∧ m₀.stageOf c = some (.return r)) ?_ ?_ run returned
  · intro returned
    cases List.suffix_nil.mp returned
  · intro m m' h h' run ih change returned
    cases change with
    | returned here =>
      rcases List.suffix_cons_iff.mp returned with he | earlier
      · cases he
        exact ⟨m, run, here⟩
      · exact ih earlier
    | code | idled | quiet | wrote => exact ih returned
    | _ =>
      rcases List.suffix_cons_iff.mp returned with he | earlier
      · cases he
      · exact ih earlier

end Machine

end TaskKernel
