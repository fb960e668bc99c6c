import TaskKernel.Proofs.Processor.Preemption
import TaskKernel.Proofs.Run.Calls

namespace TaskKernel

namespace History

def interrupts : History → Nat
  | [] => 0
  | .entered .timer :: h => interrupts h + 1
  | _ :: h => interrupts h

def latest : History → Option Handler
  | [] => none
  | .entered handler :: _ => some handler
  | _ :: h => latest h

def ticks : History → Nat
  | [] => 0
  | .ran .handler _ .tick :: h => if latest h = some .timer then ticks h + 1 else ticks h
  | _ :: h => ticks h

variable {h h' : History} {c : Context} {before : System} {sec : Section}

theorem Quiet.entries (quiet : Quiet h h') :
    h'.interrupts = h.interrupts ∧ h'.latest = h.latest := by
  cases quiet with
  | refl => exact ⟨rfl, rfl⟩
  | @cons x quiet =>
    cases x with
    | called | ran | returned => exact ⟨rfl, rfl⟩
    | entered | dispatched => cases quiet

/-- The ticks of other handlers are not the timer's. -/
theorem Quiet.ticks (quiet : Quiet h h')
    (other : ∀ before sec, h' = .ran .handler before sec :: h → h.latest ≠ some .timer) :
    h'.ticks = h.ticks := by
  cases quiet with
  | refl => rfl
  | @cons x quiet =>
    cases x with
    | ran c before sec =>
      cases c with
      | handler =>
        cases sec with
        | tick => exact if_neg (other before .tick rfl)
        | _ => rfl
      | boot | task => rfl
    | called | returned => rfl
    | entered | dispatched => cases quiet

end History

structure Processor.Timeless (p p' : Processor) : Prop where
  tickCount : p'.tickCount = p.tickCount
  idleWaiting : p'.idleWaiting = p.idleWaiting

theorem Processor.Timeless.refl (p : Processor) : p.Timeless p := ⟨rfl, rfl⟩

theorem Processor.Asks.timeless {p p' : Processor} (asks : p.Asks p') : p.Timeless p' := by
  cases asks <;> exact ⟨rfl, rfl⟩

variable {s s' : System} {stage next : Stage} {move : Move} {sec : Section} {h h' : History}

/-- Only the timer's handler counts, and only the idle task sleeps. -/
theorem Stage.timeless_of_run (ran : stage.run s = (s', move)) (other : stage ≠ .timer)
    (busy : stage ≠ .idle) : s.cpu.Timeless s'.cpu := by
  have of_eq : s'.cpu = s.cpu → s.cpu.Timeless s'.cpu := fun same => same ▸ .refl _
  cases stage with
  | timer => exact absurd rfl other
  | idle => exact absurd rfl busy
  | enter sec =>
    simp only [run] at ran
    split at ran <;> cases ran
    · exact of_eq (s.logFailure_bare .reentered).2
    · exact ⟨rfl, rfl⟩
  | useHeap task =>
    have used := (s.useHeap_bare task).2
    simp only [run] at ran
    split at ran <;> rename_i result <;> cases ran <;> rw [result] at used <;> exact of_eq used
  | leftHeap task result =>
    have left := (s.leftHeap_bare task result).2
    rw [show s.leftHeap task result = (s', move) from ran] at left
    exact of_eq left
  | removed q n buffer =>
    simp only [run] at ran
    split at ran <;> cases ran <;> exact .refl _
  | readCells cells seen =>
    cases cells with
    | nil =>
      cases ran
      exact .refl _
    | cons cell rest =>
      simp only [run] at ran
      split at ran <;> cases ran <;> exact ⟨rfl, rfl⟩
  | reenter | enterCpuLock | leaveCpuLock =>
    simp only [run] at ran
    split at ran <;> cases ran <;> exact ⟨rfl, rfl⟩
  | fail cause =>
    cases ran
    exact of_eq (s.logFailure_bare cause).2
  | _ =>
    cases ran
    exact ⟨rfl, rfl⟩

theorem Stage.Goes.ne_timer (goes : stage.Goes next) : next ≠ .timer := by
  cases goes <;> simp

theorem Call.start_ne_timer (config : Config) (call : Call) : call.start config ≠ .timer := by
  cases call with
  | createTask | sleep | createMultiWait =>
    simp only [start]
    split <;> simp
  | createQueue =>
    simp only [start]
    split
    · simp
    · split <;> simp
  | _ => simp [start]

theorem Call.Runs.ne_timer {call : Call} {c : Context} (runs : call.Runs c sec)
    (here : Call.RunsAs s c) (ran : sec.run s = (s', .leave next)) : next ≠ .timer := by
  intro same
  subst same
  cases Call.at_of_left runs here (Section.left_of_run ran)
  cases runs with
  | tick => cases ran
  | seek seeks | leaveHeap seeks => cases seeks
  | pause pauses => cases pauses
  | wake waits =>
    cases waits with
    | goal seeks => cases seeks
    | pause pauses => cases pauses

namespace Machine

variable {m m' : Machine} {config : Config}

theorem handler_stage_setActivity {a : Activity} (other : a.stage ≠ some .timer)
    (before : m.handler.stage ≠ some .timer) : (m.setActivity a).handler.stage ≠ some .timer := by
  unfold setActivity
  split
  · exact other
  · split <;> exact before

/-- Only the handler gets to the timer's stage. -/
theorem Run.timer_stage (run : Run config m h) (c : Context)
    (here : m.stageOf c = some .timer) : c = .handler := by
  refine Run.induct (P := fun m _ => ∀ c, m.stageOf c = some .timer → c = .handler) ?_ ?_
    run c here
  · intro c here
    cases c <;> cases here
  · intro m m' h h' run ih change c here
    cases change with
    | code here' ran goes stages =>
      rw [stages] at here
      split at here
      · exact absurd (Option.some.inj here) goes.ne_timer
      · exact ih c here
    | ran here' ran system stages =>
      rw [stages] at here
      split at here
      · obtain ⟨call, -, runs⟩ := run.runs_of_enter here'
        exact absurd (Option.some.inj here) (runs.ne_timer run.orderly.runsAs ran)
      · exact ih c here
    | called call legal here' system stages =>
      rw [stages] at here
      split at here
      · exact absurd (Option.some.inj here) (call.start_ne_timer _)
      · exact ih c here
    | returned here' kernel cpu stages =>
      rw [stages] at here
      split at here
      · cases here
      · exact ih c here
    | entered here' kernel cpu stages =>
      rw [stages] at here
      split at here
      · rename_i timer
        exact timer.1
      · exact ih c here
    | idled here' system stages =>
      rw [stages] at here
      split at here
      · cases here
      · exact ih c here
    | dispatched kernel started cpu stages | launched here' booting kernel cpu stages
    | quiet kernel cpu stages =>
      rw [stages] at here
      exact ih c here
    | wrote => exact ih c here

/-- What the timer's handler has yet to do: to count the interrupt, and to execute the tick. -/
inductive Service : Activity → Nat → Nat → Prop
  | starts : Service (.running .timer) 1 1
  | counted : Service (.running (.enter .tick)) 0 1
  | inside : Service (.inside .tick) 0 1
  | ticked : Service (.point (.return .unit)) 0 0
  | ends : Service (.running (.return .unit)) 0 0

/-- The timer's handler does not run, and nothing is left of what it had to do. -/
structure Unserved (m : Machine) (h : History) : Prop where
  serving : m.serving ≠ some .timer
  latest : m.cpu.inInterrupt = true → h.latest ≠ some .timer
  elsewhere : m.handler.stage ≠ some .timer
  counted : m.cpu.tickCount = h.interrupts
  ticked : h.ticks = h.interrupts

structure Serves (m : Machine) (h : History) (counts ticks : Nat) : Prop where
  serving : m.serving = some .timer
  inside : m.cpu.inInterrupt = true
  latest : h.latest = some .timer
  service : Service m.handler counts ticks
  counted : m.cpu.tickCount + counts = h.interrupts
  ticked : h.ticks + ticks = h.interrupts

inductive Timekeeping (m : Machine) (h : History) : Prop
  | unserved (unserved : m.Unserved h) : Timekeeping m h
  | serves {counts ticks : Nat} (serves : m.Serves h counts ticks) : Timekeeping m h

theorem context_handler (inside : m.cpu.inInterrupt = true) : m.context = .handler := by
  rw [context_eq, if_pos inside]

theorem inside_of_context (here : m.context = .handler) : m.cpu.inInterrupt = true := by
  by_contra outside
  rw [context_eq, if_neg outside] at here
  exact m.cpu.owner.context_ne here

theorem activity_handler (inside : m.cpu.inInterrupt = true) : m.activity = m.handler :=
  if_pos inside

namespace Unserved

/-- What neither enters nor leaves a handler leaves the time alone. -/
theorem onward (unserved : m.Unserved h) (serving : m'.serving = m.serving)
    (inside : m'.cpu.inInterrupt = m.cpu.inInterrupt)
    (elsewhere : m'.handler.stage ≠ some .timer) (count : m'.cpu.tickCount = m.cpu.tickCount)
    (quiet : History.Quiet h h')
    (here : ∀ c before sec, h' = .ran c before sec :: h → c = m.context) : m'.Unserved h' := by
  have ticks : h'.ticks = h.ticks := by
    refine quiet.ticks fun before sec new => ?_
    exact unserved.latest (inside_of_context (here _ before sec new).symm)
  refine ⟨serving ▸ unserved.serving, ?_, elsewhere, ?_, ?_⟩
  · rw [inside, quiet.entries.2]
    exact unserved.latest
  · rw [count, quiet.entries.1]
    exact unserved.counted
  · rw [ticks, quiet.entries.1]
    exact unserved.ticked

/-- Where the timer's handler does not run, nobody is at its stage. -/
theorem ne_timer (unserved : m.Unserved h) (run : Run config m h) :
    m.activity.stage ≠ some .timer := by
  intro here
  have inside := inside_of_context (run.timer_stage _ ((stageOf_context rfl).trans here))
  refine unserved.elsewhere ?_
  rw [← activity_handler inside]
  exact here

theorem setActivity {a : Activity} (unserved : m.Unserved h) (stays : m.cpu.Stays s.cpu)
    (count : s.cpu.tickCount = m.cpu.tickCount) (other : a.stage ≠ some .timer)
    (quiet : History.Quiet h h')
    (here : ∀ c before sec, h' = .ran c before sec :: h → c = m.context) :
    ({ m with system := s }.setActivity a).Unserved h' := by
  have same : ({ m with system := s }.setActivity a).cpu = s.cpu := cpu_setActivity ..
  refine unserved.onward (serving_setActivity ..) ?_
    (handler_stage_setActivity other unserved.elsewhere) ?_ quiet here
  · rw [same]
    exact stays.inInterrupt
  · rw [same]
    exact count

end Unserved

/-- An interrupt is taken. -/
theorem Unserved.taken {r : Request} (unserved : m.Unserved h) (taken : Taken m h r m' h') :
    m'.Timekeeping h' := by
  cases taken with
  | @line n handler due registered =>
    have elsewhere : (m.setCpu (m.cpu.grant (.line n))).handler.stage ≠ some .timer :=
      unserved.elsewhere
    cases handler with
    | timer =>
      exact .serves ⟨rfl, rfl, rfl, .starts, congrArg (· + 1) unserved.counted,
        congrArg (· + 1) unserved.ticked⟩
    | application id =>
      exact .unserved ⟨by simp [enterHandler], by simp [History.latest], by
        simp [enterHandler, Activity.stage], unserved.counted, unserved.ticked⟩
  | dispatch due =>
    have outside : (m.setCpu (m.cpu.grant .dispatch)).dispatch.cpu.inInterrupt = false :=
      due.outside
    refine .unserved ⟨unserved.serving, ?_, unserved.elsewhere, unserved.counted,
      unserved.ticked⟩
    simp [outside]

theorem tickCount_of_run {move : Move} (unserved : m.Unserved h) (run : Run config m h)
    (doing : m.activity = .running stage) (ran : stage.run m.system = (s, move)) :
    s.cpu.tickCount = m.cpu.tickCount := by
  by_cases idle : stage = .idle
  · subst idle
    simp only [Stage.run] at ran
    split at ran <;> cases ran <;> rfl
  · refine (Stage.timeless_of_run ran (fun timer => ?_) idle).tickCount
    refine unserved.ne_timer run ?_
    rw [doing, timer]
    rfl

theorem Unserved.stepped {news : History} (unserved : m.Unserved h) (run : Run config m h)
    (stepped : Stepped m m' news) : m'.Timekeeping (news ++ h) := by
  have none : ∀ c before sec, h = .ran c before sec :: h → c = m.context :=
    fun _ _ _ new => absurd new.symm (List.cons_ne_self _ _)
  cases stepped with
  | starts doing =>
    refine .unserved ?_
    change Unserved (start m) h
    unfold start
    split
    · refine unserved.setActivity (s := m.system) (.refl _) rfl ?_ .refl none
      split <;> simp [Activity.stage]
    · exact unserved
  | stays => exact .unserved unserved
  | goes doing ran goes at_next =>
    refine .unserved (unserved.setActivity (Stage.frame_of_run ran).2
      (tickCount_of_run unserved run doing ran) ?_ .refl none)
    rw [at_next]
    exact fun same => (Stage.goes_of_run ran goes).ne_timer (Option.some.inj same)
  | sleeps doing ran =>
    exact .unserved (unserved.onward rfl (Stage.frame_of_run ran).2.inInterrupt
      unserved.elsewhere (tickCount_of_run unserved run doing ran) .refl none)
  | returns doing =>
    refine .unserved ?_
    unfold finishCall
    rw [if_neg fun both => unserved.serving both.2]
    exact unserved.setActivity (s := m.system) (.refl _) rfl (by simp [Activity.stage])
      (.cons rfl) (by simp)
  | @runs sec s next doing ran =>
    have asks := (Section.left_of_run ran).asks
    obtain ⟨call, -, runs⟩ := run.runs_of_enter (stageOf_context doing)
    refine .unserved (unserved.setActivity (stays_of_left ran) asks.timeless.tickCount ?_
      (.cons rfl) ?_)
    · exact fun same => runs.ne_timer run.orderly.runsAs ran (Option.some.inj same)
    · intro c before sec' new
      cases new
      rfl
  | @point stage doing =>
    have check := check_step (h := h) doing
    generalize m.step.1 = m'' at check ⊢
    generalize m.happens ++ h = h'' at check ⊢
    cases check with
    | closed | clear =>
      refine .unserved (unserved.setActivity (s := m.system) (.refl _) rfl ?_ .refl none)
      have other := unserved.ne_timer run
      rwa [doing] at other
    | takes taken => exact unserved.taken taken

theorem Unserved.timekeeping (unserved : m.Unserved h) (run : Run config m h)
    (next : Next m h m' h') : m'.Timekeeping h' := by
  have none : ∀ c before sec, h = .ran c before sec :: h → c = m.context :=
    fun _ _ _ new => absurd new.symm (List.cons_ne_self _ _)
  cases next with
  | step busy alive => exact unserved.stepped run (stepped_of_alive alive)
  | call free call =>
    refine .unserved (unserved.setActivity (s := m.system) (.refl _) rfl ?_ (.cons rfl) (by simp))
    exact fun same => call.start_ne_timer _ (Option.some.inj same)
  | leaveHandler free inside =>
    exact .unserved ⟨by simp [Machine.leaveHandler], fun still => Bool.noConfusion still,
      unserved.elsewhere, unserved.counted, unserved.ticked⟩
  | launch free booting alive =>
    have outside := (of_booting booting).1
    rw [launch_eq (free_of_launch alive)]
    refine .unserved ⟨unserved.serving, ?_, unserved.elsewhere, unserved.counted,
      unserved.ticked⟩
    intro inside
    exact Bool.noConfusion (inside.symm.trans outside)
  | pend line pended | setHandler line id pended =>
    obtain ⟨lines, rfl⟩ := lines_of_outside pended
    exact .unserved (unserved.onward rfl rfl unserved.elsewhere rfl .refl none)
  | write => exact .unserved (unserved.onward rfl rfl unserved.elsewhere rfl .refl none)

namespace Serves

variable {counts ticks : Nat}

theorem outside (serves : m.Serves h counts ticks) {lines : List Line} :
    (m.setCpu { m.cpu with lines }).Serves h counts ticks :=
  ⟨serves.serving, serves.inside, serves.latest, serves.service, serves.counted, serves.ticked⟩

theorem doing (serves : m.Serves h counts ticks) : Service m.activity counts ticks := by
  rw [activity_handler serves.inside]
  exact serves.service

/-- The timer's handler goes on. -/
theorem goes (serves : m.Serves h counts ticks) {a : Activity} {counts' ticks' : Nat}
    (stays : m.cpu.Stays s.cpu) (latest : h'.latest = h.latest) (service : Service a counts' ticks')
    (counted : s.cpu.tickCount + counts' = h'.interrupts)
    (ticked : h'.ticks + ticks' = h'.interrupts) :
    ({ m with system := s }.setActivity a).Serves h' counts' ticks' := by
  have inside : s.cpu.inInterrupt = true := stays.inInterrupt.trans serves.inside
  have here : { m with system := s }.setActivity a = { m with system := s, handler := a } :=
    if_pos inside
  rw [here]
  exact ⟨serves.serving, inside, latest.trans serves.latest, service, counted, ticked⟩

/-- The handler leaves when it has counted and ticked. -/
theorem leaves (serves : m.Serves h 0 0) (quiet : History.Quiet h h') (ticks : h'.ticks = h.ticks) :
    m.leaveHandler.Unserved h' := by
  refine ⟨by simp [leaveHandler], fun still => Bool.noConfusion still, ?_, ?_, ?_⟩
  · have service := serves.service
    change m.handler.stage ≠ some .timer
    generalize m.handler = a at service
    cases service <;> simp [Activity.stage]
  · rw [quiet.entries.1]
    exact serves.counted
  · rw [ticks, quiet.entries.1]
    exact serves.ticked

/-- Each step of the timer's handler takes it on to the next of its stages. -/
theorem step (serves : m.Serves h counts ticks) (alive : ∀ halt, m.step.2 ≠ .halted halt) :
    m.step.1.Timekeeping (m.happens ++ h) := by
  have service := serves.doing
  have here := context_handler serves.inside
  generalize doing : m.activity = a at service
  cases service with
  | starts =>
    have stepped : m.step = ({ m with system := { m.system with
        cpu := { m.cpu with tickCount := m.cpu.tickCount + 1 } } }.setActivity
          (.running (.enter .tick)), .none) := by
      unfold Machine.step
      rw [doing]
      rfl
    rw [stepped, happens_running doing (by simp)]
    exact .serves (serves.goes ⟨rfl, rfl, rfl, rfl, id⟩ rfl .counted serves.counted serves.ticked)
  | counted =>
    have free : m.cpu.cpuLock = false := by
      refine Bool.eq_false_iff.mpr fun locked => ?_
      unfold Machine.step at alive
      simp only [doing, Stage.run] at alive
      rw [if_pos (show m.system.cpu.cpuLock = true from locked)] at alive
      exact alive _ rfl
    rw [step_enter doing free, happens_running doing (by simp)]
    exact .serves (serves.goes (s := m.system.setCpuLock true) ⟨rfl, rfl, rfl, rfl, id⟩ rfl
      .inside serves.counted serves.ticked)
  | inside =>
    have ran : Section.tick.run m.system =
        ((Section.tick.run m.system).1, .leave (.return .unit)) := rfl
    have asks := (Section.left_of_run ran).asks
    have happens : m.happens = [.ran .handler m.system .tick] := by
      unfold Machine.happens
      rw [doing, here]
    have ticked : History.ticks (.ran .handler m.system .tick :: h) = h.ticks + 1 :=
      if_pos serves.latest
    rw [step_inside doing ran, happens]
    refine .serves (serves.goes (stays_of_left ran) rfl .ticked ?_ ?_)
    · exact (congrArg (· + 0) asks.timeless.tickCount).trans serves.counted
    · exact ticked.trans serves.ticked
  | ticked =>
    have check := check_step (h := h) doing
    generalize m.step.1 = m'' at check ⊢
    generalize m.happens ++ h = h'' at check ⊢
    cases check with
    | closed =>
      exact .serves (serves.goes (s := m.system) (.refl _) rfl .ends serves.counted serves.ticked)
    | clear unlocked =>
      exact Bool.noConfusion (serves.inside.symm.trans (Processor.isOpen_iff.mp unlocked).2.2)
    | takes taken =>
      exact Bool.noConfusion (serves.inside.symm.trans (Due.of_taken taken).outside)
  | ends =>
    have stepped : m.step = (m.leaveHandler, .none) := by
      unfold Machine.step
      rw [doing]
      exact if_pos ⟨serves.inside, serves.serving⟩
    have happens : m.happens = [.returned .handler .unit] := by
      unfold Machine.happens
      rw [doing, here]
    rw [stepped, happens]
    exact .unserved (serves.leaves (.cons rfl) rfl)

theorem timekeeping (serves : m.Serves h counts ticks) (next : Next m h m' h') :
    m'.Timekeeping h' := by
  have busy : m.activity ≠ .application := by
    intro free
    have service := serves.doing
    rw [free] at service
    cases service
  cases next with
  | step _ alive => exact serves.step alive
  | call free | leaveHandler free | launch free | write free => exact absurd free busy
  | pend line pended | setHandler line id pended =>
    obtain ⟨lines, rfl⟩ := lines_of_outside pended
    exact .serves serves.outside

end Serves

theorem Run.timekeeping (run : Run config m h) : m.Timekeeping h := by
  refine run.induct_next ?_ ?_
  · refine .unserved ⟨?_, ?_, ?_, rfl, rfl⟩
    · exact fun timer => by cases timer
    · exact fun inside => Bool.noConfusion inside
    · exact fun timer => by cases timer
  · intro m m' h h' run kept next
    cases kept with
    | unserved unserved => exact unserved.timekeeping run next
    | serves serves => exact serves.timekeeping next

/-- Outside the handlers the timer's has nothing left to do. -/
theorem Run.unserved (run : Run config m h) (outside : m.context ≠ .handler) : m.Unserved h := by
  cases run.timekeeping with
  | unserved unserved => exact unserved
  | serves serves => exact absurd (context_handler serves.inside) outside

end Machine

end TaskKernel
