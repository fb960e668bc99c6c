import TaskKernel.Proofs.Processor.Requests
import TaskKernel.Proofs.Run.Frames
import TaskKernel.Proofs.Run.History

namespace TaskKernel

def Activity.stage : Activity → Option Stage
  | .dormant => none
  | .application => none
  | .running stage => some stage
  | .inside sec => some (.enter sec)
  | .point stage => some stage

def Owner.context : Owner → Context
  | .boot => .boot
  | .task t => .task t

theorem Owner.context_ne (o : Owner) : o.context ≠ .handler := by
  cases o <;> simp [context]

structure Processor.Same (p p' : Processor) : Prop where
  owner : p'.owner = p.owner
  started : p'.started = p.started
  dispatchPended : p'.dispatchPended = p.dispatchPended

structure Processor.Handed (p' : Processor) (t : TaskId) : Prop where
  owner : p'.owner = .task t
  started : p'.started = true
  dispatchPended : p'.dispatchPended = false

theorem Processor.Same.of_eq {p p' : Processor} (h : p' = p) : p.Same p' := h ▸ ⟨rfl, rfl, rfl⟩

def Kernel.booted (k : Kernel) : Kernel :=
  { k.resetTask TaskId.idle "idle" 255 0 0 with started := true }.log (.bootEnds k.taskCount)

theorem Kernel.task_booted (k : Kernel) {t : TaskId} (busy : t ≠ TaskId.idle) :
    k.booted.task t = k.task t := Table.get_set_ne _ _ busy.symm

namespace Processor

variable {p p' : Processor}

theorem interrupt_of_preemption {h : Handler} (hp : p.preemption = .interrupt h p') :
    p.inInterrupt = false ∧ ∃ lines, p' = { p with lines, inInterrupt := true } := by
  have check := p.check
  rw [hp] at check
  cases check with
  | line unlocked => exact ⟨(isOpen_iff.mp unlocked).2.2, _, rfl⟩

theorem dispatch_of_preemption (hp : p.preemption = .dispatch p') :
    p.started = true ∧ p.inInterrupt = false ∧ p' = { p with dispatchPended := false } := by
  have check := p.check
  rw [hp] at check
  cases check with
  | dispatch unlocked =>
    obtain ⟨started, -, outside⟩ := isOpen_iff.mp unlocked
    exact ⟨started, outside, rfl⟩

end Processor

namespace Machine

def stageOf (m : Machine) (c : Context) : Option Stage := (m.activityOf c).stage

inductive Change (m : Machine) (h : History) : Machine → History → Prop
  | code {m' : Machine} {stage next : Stage} {move : Move}
      (here : m.stageOf m.context = some stage)
      (ran : stage.run m.system = (m'.system, move)) (goes : stage.Goes next)
      (stages : ∀ c, m'.stageOf c = if c = m.context then some next else m.stageOf c)
      (moves : move.next stage = some next) : Change m h m' h
  | ran {m' : Machine} {sec : Section} {next : Stage} {s : System}
      (here : m.stageOf m.context = some (.enter sec))
      (ran : sec.run m.system = (s, .leave next)) (system : m'.system = s.setCpuLock false)
      (stages : ∀ c, m'.stageOf c = if c = m.context then some next else m.stageOf c) :
      Change m h m' (.ran m.context m.system sec :: h)
  | called {m' : Machine} (call : Call) (legal : call.Legal h)
      (here : m.stageOf m.context = none) (system : m'.system = m.system)
      (stages : ∀ c, m'.stageOf c =
        if c = m.context then some (call.start m.kernel.config) else m.stageOf c) :
      Change m h m' (.called m.context call :: h)
  | returned {m' : Machine} {r : Reply} (here : m.stageOf m.context = some (.return r))
      (kernel : m'.kernel = m.kernel) (cpu : m.cpu.Same m'.cpu)
      (stages : ∀ c, m'.stageOf c = if c = m.context then none else m.stageOf c) :
      Change m h m' (.returned m.context r :: h)
  | entered {m' : Machine} {handler : Handler} (here : m.stageOf .handler = none)
      (kernel : m'.kernel = m.kernel) (cpu : m.cpu.Same m'.cpu)
      (stages : ∀ c, m'.stageOf c =
        if c = .handler ∧ handler = .timer then some .timer else m.stageOf c) :
      Change m h m' (.entered handler :: h)
  | dispatched {m' : Machine} (kernel : m'.kernel = m.kernel.dispatch)
      (started : m.cpu.started = true) (cpu : m'.cpu.Handed m'.kernel.running)
      (stages : ∀ c, m'.stageOf c = m.stageOf c) :
      Change m h m' (.dispatched m.kernel :: h)
  | launched {m' : Machine} (here : m.stageOf .boot = none) (booting : m.cpu.owner = .boot)
      (kernel : m'.kernel = m.kernel.booted.dispatch) (cpu : m'.cpu.Handed m'.kernel.running)
      (stages : ∀ c, m'.stageOf c = m.stageOf c) :
      Change m h m' (.dispatched m.kernel :: h)
  | idled {m' : Machine} (here : m.stageOf (.task TaskId.idle) = none)
      (system : m'.system = m.system)
      (stages : ∀ c, m'.stageOf c =
        if c = .task TaskId.idle then some .idle else m.stageOf c) :
      Change m h m' h
  | quiet {m' : Machine} (kernel : m'.kernel = m.kernel) (cpu : m.cpu.Same m'.cpu)
      (stages : ∀ c, m'.stageOf c = m.stageOf c) : Change m h m' h
  | wrote (a : Nat) (bytes : List UInt8) (may : m.MayWrite h a bytes.length) :
      Change m h (m.write a bytes) h

variable {m m' : Machine} {h h' : History} {config : Config} {sec : Section} {next : Stage}

theorem activity_eq (m : Machine) : m.activity = m.activityOf m.context := by
  unfold activity activityOf context
  cases hi : m.cpu.inInterrupt
  · cases m.cpu.owner <;> rfl
  · simp

theorem activityOf_setActivity (m : Machine) (a : Activity) (c : Context) :
    (m.setActivity a).activityOf c = if c = m.context then a else m.activityOf c := by
  unfold setActivity activityOf context cpu
  cases hi : m.system.cpu.inInterrupt with
  | true => cases c <;> simp [hi]
  | false => cases ho : m.system.cpu.owner <;> cases c <;> simp [hi, eq_comm]

@[simp] theorem system_setActivity (m : Machine) (a : Activity) :
    (m.setActivity a).system = m.system := by
  unfold setActivity
  split
  · rfl
  · split <;> rfl

@[simp] theorem cpu_setActivity (m : Machine) (a : Activity) : (m.setActivity a).cpu = m.cpu :=
  congrArg System.cpu (system_setActivity m a)

theorem serving_setActivity (m : Machine) (a : Activity) :
    (m.setActivity a).serving = m.serving := by
  unfold setActivity
  split
  · rfl
  · split <;> rfl

theorem context_eq (m : Machine) :
    m.context = if m.cpu.inInterrupt then .handler else m.cpu.owner.context := by
  unfold context
  cases m.cpu.owner <;> rfl

theorem of_booting (booting : m.context = .boot) :
    m.cpu.inInterrupt = false ∧ m.cpu.owner = .boot := by
  rw [context_eq] at booting
  split at booting
  · cases booting
  · rename_i outside
    refine ⟨Bool.eq_false_iff.mpr outside, ?_⟩
    cases owned : m.cpu.owner with
    | boot => rfl
    | task t =>
      rw [owned] at booting
      cases booting

theorem context_setActivity (m : Machine) (a : Activity) :
    (m.setActivity a).context = m.context := by
  unfold context cpu
  rw [system_setActivity]

theorem activity_setActivity (m : Machine) (a : Activity) : (m.setActivity a).activity = a := by
  rw [activity_eq, activityOf_setActivity, if_pos (context_setActivity m a)]

theorem kernel_of_left {s : System} (system : m'.system = s.setCpuLock false) :
    m'.kernel = s.kernel := by
  unfold kernel
  rw [system]
  rfl

theorem handler_setActivity {a : Activity} (ha : a ≠ .dormant) (hm : m.handler ≠ .dormant) :
    (m.setActivity a).handler ≠ .dormant := by
  unfold setActivity
  split
  · exact ha
  · split <;> exact hm

theorem step_handler (hm : m.handler ≠ .dormant) : m.step.1.handler ≠ .dormant := by
  unfold step
  split
  · unfold start
    split
    · refine handler_setActivity ?_ hm
      split <;> simp
    · exact hm
  · exact hm
  · split
    · exact handler_setActivity (by simp) hm
    · exact handler_setActivity (by simp) hm
    · exact handler_setActivity (by simp) hm
    · exact hm
    · unfold finishCall
      split
      · exact hm
      · exact handler_setActivity (by simp) hm
    · exact hm
  · split
    · exact handler_setActivity (by simp) hm
    · exact hm
  · split
    · exact handler_setActivity (by simp) hm
    · unfold enterHandler
      split <;> simp
    · exact hm

theorem Run.handler_awake (run : Run config m h) : m.handler ≠ .dormant := by
  induction run with
  | initial => exact fun he => Activity.noConfusion he
  | step _ _ _ ih => exact step_handler ih
  | call _ _ _ _ ih => exact handler_setActivity (by simp) ih
  | leaveHandler _ _ _ ih => exact ih
  | @launch m _ _ _ _ alive ih =>
    unfold Machine.launch at alive ⊢
    split <;> exact ih
  | @pend m _ _ _ line pended ih =>
    obtain ⟨cpu, -, rfl⟩ := Option.map_eq_some_iff.mp pended
    exact ih
  | @setHandler m _ _ _ line id set ih =>
    obtain ⟨cpu, -, rfl⟩ := Option.map_eq_some_iff.mp set
    exact ih
  | write _ _ _ _ _ ih => exact ih

theorem stageOf_setActivity (m : Machine) (a : Activity) (c : Context) :
    (m.setActivity a).stageOf c = if c = m.context then a.stage else m.stageOf c := by
  unfold stageOf
  rw [activityOf_setActivity]
  split <;> rfl

theorem stageOf_context {a : Activity} (ha : m.activity = a) : m.stageOf m.context = a.stage := by
  unfold stageOf
  rw [← activity_eq, ha]

/-- The same code has the processor. -/
theorem context_of_stays {s : System} (hs : m.cpu.Stays s.cpu) :
    { m with system := s }.context = m.context := by
  unfold context cpu at *
  dsimp only
  rw [hs.owner, hs.inInterrupt]

theorem activityOf_of_stays {s : System} (hs : m.cpu.Stays s.cpu) (c : Context) :
    { m with system := s }.activityOf c = m.activityOf c := by
  unfold activityOf cpu at *
  dsimp only
  rw [hs.inInterrupt]

theorem stageOf_of_stays {s : System} (hs : m.cpu.Stays s.cpu) (c : Context) :
    { m with system := s }.stageOf c = m.stageOf c :=
  congrArg Activity.stage (activityOf_of_stays hs c)

theorem stageOf_moved {s : System} (hs : m.cpu.Stays s.cpu) (a : Activity) (c : Context) :
    ({ m with system := s }.setActivity a).stageOf c =
      if c = m.context then a.stage else m.stageOf c := by
  rw [stageOf_setActivity, context_of_stays hs, stageOf_of_stays hs]

theorem stageOf_leaveHandler (inside : m.cpu.inInterrupt = true) (c : Context) :
    m.leaveHandler.stageOf c = if c = m.context then none else m.stageOf c := by
  have here : m.context = .handler := by
    unfold context
    rw [inside]
    rfl
  rw [here]
  cases c <;> rfl

/-- The end of a call. A handler of the timer ends with it. -/
theorem change_finishCall {r : Reply} (here : m.stageOf m.context = some (.return r)) :
    Change m h (m.finishCall r).1 (.returned m.context r :: h) := by
  unfold finishCall
  split
  · rename_i inside
    exact .returned here rfl ⟨rfl, rfl, rfl⟩ (stageOf_leaveHandler inside.1)
  · refine .returned here (congrArg System.kernel (system_setActivity ..)) ?_
      (stageOf_setActivity m .application)
    exact .of_eq (cpu_setActivity ..)

/-- A preemption point, after which the call goes on or another takes the processor. -/
theorem change_point {stage : Stage} (doing : m.activity = .point stage) :
    Change m h m.step.1 (m.happens ++ h) := by
  unfold step happens
  simp only [doing]
  cases taken : m.cpu.preemption with
  | nothing =>
    refine .quiet (congrArg System.kernel (system_setActivity ..))
      (.of_eq (cpu_setActivity ..)) fun c => ?_
    rw [stageOf_setActivity]
    split
    · rename_i hc
      rw [hc, stageOf_context doing]
      rfl
    · rfl
  | interrupt handler cpu =>
    obtain ⟨outside, lines, rfl⟩ := Processor.interrupt_of_preemption taken
    have none : m.stageOf .handler = none := by
      simp [stageOf, activityOf, outside, Activity.stage]
    cases handler with
    | timer =>
      refine .entered none rfl ⟨rfl, rfl, rfl⟩ fun c => ?_
      cases c <;> rfl
    | application id =>
      refine .entered none rfl ⟨rfl, rfl, rfl⟩ fun c => ?_
      cases c with
      | handler => rw [none]; rfl
      | _ => rfl
  | dispatch cpu =>
    obtain ⟨started, outside, rfl⟩ := Processor.dispatch_of_preemption taken
    exact .dispatched rfl started ⟨rfl, started, rfl⟩ fun _ => rfl

theorem change_start (awake : m.handler ≠ .dormant) (doing : m.activity = .dormant) :
    Change m h m.start h := by
  unfold start
  cases owner : m.cpu.owner with
  | boot => exact .quiet rfl (.of_eq rfl) fun _ => rfl
  | task t =>
    have outside : m.cpu.inInterrupt = false := by
      cases inside : m.cpu.inInterrupt with
      | false => rfl
      | true =>
        unfold activity at doing
        rw [if_pos inside] at doing
        exact absurd doing awake
    have here : m.context = .task t := by
      unfold context
      rw [outside, owner]
      rfl
    have none := stageOf_context doing
    rw [here] at none
    dsimp only
    split
    · rename_i idle
      subst idle
      refine .idled none (system_setActivity ..) fun c => ?_
      rw [stageOf_setActivity, here]
      rfl
    · refine .quiet (congrArg System.kernel (system_setActivity ..))
        (.of_eq (cpu_setActivity ..)) fun c => ?_
      rw [stageOf_setActivity, here]
      split
      · rename_i hc
        rw [hc, none]
        rfl
      · rfl

theorem change_code {s : System} {stage next : Stage} {move : Move} {a : Activity}
    (here : m.stageOf m.context = some stage) (ran : stage.run m.system = (s, move))
    (goes : move.next stage = some next) (at_next : a.stage = some next) :
    Change m h ({ m with system := s }.setActivity a) h := by
  have frame := (stage.run_frame m.system).2
  rw [ran] at frame
  refine .code here (by rw [system_setActivity]; exact ran) (Stage.goes_of_run ran goes)
    (fun c => ?_) goes
  rw [stageOf_moved frame, at_next]

theorem happens_running {stage : Stage} (doing : m.activity = .running stage)
    (more : ∀ r, stage ≠ .return r) : m.happens = [] := by
  unfold happens
  rw [doing]
  cases stage with
  | «return» r => exact absurd rfl (more r)
  | _ => rfl

theorem step_enter (doing : m.activity = .running (.enter sec)) (free : m.cpu.cpuLock = false) :
    m.step =
      ({ m with system := m.system.setCpuLock true }.setActivity (.inside sec), .none) := by
  have enters : Stage.run m.system (.enter sec) = (m.system.setCpuLock true, .inside sec) := by
    refine if_neg ?_
    intro locked
    exact Bool.noConfusion (free.symm.trans locked)
  unfold step
  rw [doing]
  simp only [enters]

theorem step_inside {s : System} (doing : m.activity = .inside sec)
    (ran : sec.run m.system = (s, .leave next)) :
    m.step = ({ m with system := s.setCpuLock false }.setActivity (.point next), .none) := by
  unfold step
  rw [doing]
  simp only [ran]

inductive Stepped (m : Machine) : Machine → History → Prop
  | starts (doing : m.activity = .dormant) : Stepped m m.start []
  | stays (doing : m.activity = .application) : Stepped m m []
  | goes {stage next : Stage} {s : System} {move : Move} {a : Activity}
      (doing : m.activity = .running stage) (ran : stage.run m.system = (s, move))
      (goes : move.next stage = some next) (at_next : a.stage = some next) :
      Stepped m ({ m with system := s }.setActivity a) []
  | sleeps {stage : Stage} {s : System} (doing : m.activity = .running stage)
      (ran : stage.run m.system = (s, .sleep)) : Stepped m { m with system := s } []
  | returns {r : Reply} (doing : m.activity = .running (.return r)) :
      Stepped m (m.finishCall r).1 [.returned m.context r]
  | runs {sec : Section} {s : System} {next : Stage} (doing : m.activity = .inside sec)
      (ran : sec.run m.system = (s, .leave next)) :
      Stepped m ({ m with system := s.setCpuLock false }.setActivity (.point next))
        [.ran m.context m.system sec]
  | point {stage : Stage} (doing : m.activity = .point stage) : Stepped m m.step.1 m.happens

theorem stepped_running {stage : Stage} (doing : m.activity = .running stage)
    (alive : ∀ halt, m.step.2 ≠ .halted halt) : Stepped m m.step.1 m.happens := by
  have more : (∀ r, (stage.run m.system).2 ≠ .return r) → m.happens = [] := by
    intro hr
    refine happens_running doing ?_
    intro r he
    subst he
    exact hr r rfl
  unfold step at *
  simp only [doing] at alive ⊢
  cases ran : stage.run m.system with
  | mk s move =>
    simp only [ran] at alive more ⊢
    cases move with
    | goto next =>
      rw [more (by simp)]
      exact .goes doing ran rfl rfl
    | inside sec =>
      rw [more (by simp)]
      exact .goes doing ran rfl rfl
    | point next =>
      rw [more (by simp)]
      exact .goes doing ran rfl rfl
    | sleep =>
      rw [more (by simp)]
      exact .sleeps doing ran
    | «return» r =>
      obtain ⟨rfl, rfl⟩ := Stage.eq_of_return ran
      unfold happens
      rw [doing]
      exact .returns doing
    | halt halt => exact absurd rfl (alive halt)

theorem stepped_of_alive (alive : ∀ halt, m.step.2 ≠ .halted halt) :
    Stepped m m.step.1 m.happens := by
  cases doing : m.activity with
  | dormant =>
    unfold step happens
    simp only [doing]
    exact .starts doing
  | application =>
    unfold step happens
    simp only [doing]
    exact .stays doing
  | running stage => exact stepped_running doing alive
  | inside sec =>
    unfold step happens at *
    simp only [doing] at alive ⊢
    cases ran : sec.run m.system with
    | mk s e =>
      simp only [ran] at alive ⊢
      cases e with
      | leave next => exact .runs doing ran
      | halt halt => exact absurd rfl (alive halt)
  | point stage => exact .point doing

/-- The processor is not lost in a section. -/
theorem stays_of_left {s : System} (ran : sec.run m.system = (s, .leave next)) :
    m.cpu.Stays (s.setCpuLock false).cpu := by
  have stays := (Section.left_of_run ran).stays
  exact ⟨stays.owner, stays.started, stays.inInterrupt, stays.lines, stays.kept⟩

theorem Stepped.change {news : History} (stepped : Stepped m m' news)
    (awake : m.handler ≠ .dormant) (busy : m.activity ≠ .application) :
    Change m h m' (news ++ h) := by
  cases stepped with
  | starts doing => exact change_start awake doing
  | stays doing => exact absurd doing busy
  | goes doing ran goes at_next => exact change_code (stageOf_context doing) ran goes at_next
  | sleeps doing ran =>
    have here := stageOf_context doing
    refine .code here ran (Stage.goes_of_run ran rfl) (fun c => ?_) rfl
    rw [stageOf_of_stays (Stage.frame_of_run ran).2]
    split
    · rename_i hc
      rw [hc]
      exact here
    · rfl
  | returns doing => exact change_finishCall (stageOf_context doing)
  | runs doing ran =>
    exact .ran (stageOf_context doing) ran (system_setActivity ..)
      (stageOf_moved (stays_of_left ran) _)
  | point doing => exact change_point doing

/-- The boot code ends with the first dispatch, if it has not kept the CPU lock. -/
theorem launch_eq (free : m.cpu.cpuLock = false) : m.launch =
    (dispatch { m with system :=
      { kernel := m.kernel.booted
        cpu := { m.cpu with started := true, dispatchPended := false } } }, .none) := by
  unfold launch
  rw [free]
  rfl

theorem free_of_launch (alive : m.launch.2 = .none) : m.cpu.cpuLock = false := by
  unfold launch at alive
  split at alive
  · cases alive
  · rename_i free
    exact Bool.eq_false_iff.mpr free

theorem change_launch (free : m.activity = .application) (booting : m.context = .boot)
    (alive : m.launch.2 = .none) : Change m h m.launch.1 (.dispatched m.kernel :: h) := by
  have here : m.stageOf .boot = none := booting ▸ stageOf_context free
  have owner := (of_booting booting).2
  rw [launch_eq (free_of_launch alive)]
  exact .launched here owner rfl ⟨rfl, rfl, rfl⟩ fun _ => rfl

/-- What is done from outside changes the lines alone. -/
theorem lines_of_outside {n : Nat} {f : Line → Line}
    (changed : (m.cpu.updateLine n f).map m.setCpu = some m') :
    ∃ lines, m' = m.setCpu { m.cpu with lines } := by
  obtain ⟨cpu, updated, rfl⟩ := Option.map_eq_some_iff.mp changed
  obtain ⟨lines, rfl⟩ := Processor.lines_of_updateLine updated
  exact ⟨lines, rfl⟩

/-- Every step of a run is a change. -/
theorem Next.change (run : Run config m h) (next : Next m h m' h') : Change m h m' h' := by
  cases next with
  | step busy alive => exact (stepped_of_alive alive).change run.handler_awake busy
  | call free c legal =>
    refine .called c legal (stageOf_context free) (system_setActivity ..) ?_
    exact stageOf_setActivity m _
  | leaveHandler free inside =>
    refine .quiet rfl ⟨rfl, rfl, rfl⟩ fun c => ?_
    rw [stageOf_leaveHandler inside]
    split
    · rename_i hc
      rw [hc, stageOf_context free]
      rfl
    · rfl
  | launch free booting alive => exact change_launch free booting alive
  | pend line pended | setHandler line id pended =>
    obtain ⟨lines, rfl⟩ := lines_of_outside pended
    exact .quiet rfl ⟨rfl, rfl, rfl⟩ fun _ => rfl
  | write free a bytes may => exact .wrote a bytes may

/-- A property of all runs holds at the start and survives every change. -/
theorem Run.induct {P : Machine → History → Prop} (start : P (Machine.initial config) [])
    (change : ∀ {m m' : Machine} {h h' : History}, Run config m h → P m h → Change m h m' h' →
      P m' h') (run : Run config m h) : P m h :=
  run.induct_next start fun run before next => change run before (next.change run)

end Machine

end TaskKernel
