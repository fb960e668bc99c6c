import TaskKernel.Proofs.Processor.Preemption
import TaskKernel.Proofs.Run.Executions

namespace TaskKernel

inductive LockUse
  | enter
  | leave
  | seize
  | release
  | needsHeld
  | needsFree

/-- The lock after a use of it, unless it is not as it must be. -/
def LockUse.apply (held : Bool) : LockUse → Option Bool
  | enter => if held then none else some true
  | leave => if held then some false else none
  | seize => some true
  | release => some false
  | needsHeld => if held then some true else none
  | needsFree => if held then none else some false

def LockUse.all (held : Bool) (uses : List LockUse) : Option Bool := uses.foldlM apply held

def Call.handlesLock : Call → Bool
  | .enterCpuLock => true
  | .tryEnterCpuLock => true
  | .leaveCpuLock => true
  | _ => false

def Happening.handlesLock : Happening → Bool
  | .called _ call => call.handlesLock
  | .ran _ _ _ => false
  | .returned _ _ => false
  | .entered _ => false
  | .dispatched _ => false

/-- The application leaves the CPU lock to the kernel. -/
def History.LeavesLock (h : History) : Prop := ∀ x ∈ h, x.handlesLock = false

instance (h : History) : Decidable h.LeavesLock :=
  inferInstanceAs (Decidable (∀ x ∈ h, x.handlesLock = false))

theorem History.LeavesLock.of_subset {h h' : History} (leaves : h'.LeavesLock) (older : h ⊆ h') :
    h.LeavesLock := fun x happened => leaves x (older happened)

/-- Only the timer's handler is in a call that nobody made. -/
theorem History.called_of_calling {h : History} {c : Context} {call : Call}
    (calling : h.calling c = some call) : .called c call ∈ h ∨ call = .tick := by
  induction h with
  | nil => cases calling
  | cons x h ih =>
    have older (calling : History.calling c h = some call) :
        .called c call ∈ x :: h ∨ call = .tick := (ih calling).imp_left (List.mem_cons_of_mem x)
    cases x with
    | called c' call' =>
      unfold History.calling at calling
      split at calling
      · rename_i same
        cases same
        cases calling
        exact .inl List.mem_cons_self
      · exact older calling
    | returned c' r =>
      unfold History.calling at calling
      split at calling
      · cases calling
      · exact older calling
    | entered handler =>
      cases handler with
      | timer =>
        unfold History.calling at calling
        split at calling
        · cases calling
          exact .inr rfl
        · exact older calling
      | application id => exact older calling
    | ran | dispatched => exact older calling

def Exit.isFair : Exit → Bool
  | .halt .misuse => false
  | _ => true

theorem System.attemptQueue_fair {s s' : System} {q : Nat} {condition : Ring → Bool}
    {wait : WaitState} {next : Ring → Stage} {e : Exit}
    (done : s.attemptQueue q condition wait next = .done s' e) : e.isFair = true := by
  unfold attemptQueue at done
  split at done
  · cases done
  · dsimp only at done
    split at done
    · cases done
      rfl
    · split at done <;> cases done
      rfl

theorem Goal.attempt_fair {s s' : System} {g : Goal} {e : Exit} (done : g.attempt s = .done s' e) :
    e.isFair = true := by
  cases g with
  | add | remove => exact System.attemptQueue_fair done
  | multi c =>
    simp only [attempt] at done
    split at done <;> cases done
    rfl
  | lock | event | flush | heap =>
    simp only [attempt] at done
    split at done <;> cases done
    rfl

theorem Waiter.timedOut_fair (s : System) (w : Waiter) : (w.timedOut s).2.isFair = true := by
  cases w with
  | pause p => cases p <;> rfl
  | goal g =>
    simp only [timedOut]
    split
    · rename_i done
      exact Goal.attempt_fair done
    · rfl

theorem System.block_fair (s : System) (w : Waiter) (wait : WaitState) (timeout : Ticks) :
    (s.block w wait timeout).2.isFair = true := by
  unfold block
  split
  · rfl
  · split
    · exact Waiter.timedOut_fair ..
    · rfl

theorem Goal.seek_fair (s : System) (g : Goal) (nowait : Bool) (timeout : Ticks) :
    (g.seek s nowait timeout).2.isFair = true := by
  unfold seek
  split
  · rename_i done
    exact Goal.attempt_fair done
  · split
    · rfl
    · split
      · rfl
      · exact System.block_fair ..

theorem System.wake_fair (s : System) (t : TaskId) (w : Waiter) : (s.wake t w).2.isFair = true := by
  unfold wake
  dsimp only
  split
  · split
    · exact Waiter.timedOut_fair ..
    · cases w with
      | pause p =>
        cases p with
        | exit => exact System.block_fair ..
        | _ => rfl
      | goal g => exact Goal.seek_fair ..
  · rfl

/-- A section leaves the rules for the use of the processor to the open code. -/
theorem Section.run_fair (s : System) (sec : Section) : (sec.run s).2.isFair = true := by
  cases sec with
  | pause | exit => exact System.block_fair ..
  | seek => exact Goal.seek_fair ..
  | wake => exact System.wake_fair ..
  | createTask | checkNoRing | installRing | addSubWait =>
    simp only [run]
    split <;> rfl
  | startAdd q flags timeout payload =>
    simp only [run]
    split
    · rfl
    · split
      · rfl
      · exact Goal.seek_fair ..
  | startFlush q =>
    simp only [run]
    split
    · rfl
    · exact Goal.seek_fair ..
  | startMulti w combinator timeout =>
    simp only [run]
    split
    · rfl
    · exact Goal.seek_fair ..
  | _ => rfl

namespace System

theorem applyHeap_fair {α : Type} (s : System) (o : Heap.Outcome α) (ok : α → HeapResult) :
    (s.applyHeap o ok).2 ≠ .error .misuse := by
  unfold applyHeap
  dsimp only
  split <;> simp

theorem heapStats_fair (s : System) : s.heapStats.2 ≠ .error .misuse := by
  unfold heapStats
  dsimp only
  split <;> simp

/-- Nothing in the heap breaks a rule for the use of the processor. -/
theorem useHeap_fair (s : System) (task : HeapTask) : (s.useHeap task).2 ≠ .error .misuse := by
  cases task with
  | alloc | free | ring => apply applyHeap_fair
  | stats => exact heapStats_fair _

end System

namespace Stage

variable {s s' : System} {stage : Stage} {move : Move}

def handlesLock : Stage → Bool
  | .enterCpuLock => true
  | .tryEnterCpuLock => true
  | .leaveCpuLock => true
  | _ => false

/-- What open code does with the CPU lock. The inspection of an object does without a cell that it
finds locked. -/
def lockUses (s : System) : Stage → List LockUse
  | .enter _ => [.enter]
  | .reenter _ _ => [.enter]
  | .readCells cells _ => if cells.isEmpty || s.cpu.cpuLock then [] else [.enter]
  | .enterCpuLock => [.enter]
  | .tryEnterCpuLock => if s.cpu.cpuLock then [] else [.enter]
  | .leaveCpuLock => [.leave]
  | _ => []

theorem handlesLock_of_at {call : Call} {c : Context} (stays : call.At c stage)
    (leaves : call.handlesLock = false) : stage.handlesLock = false := by
  cases stays with
  | enterCpuLock | tryEnterCpuLock | leaveCpuLock => cases leaves
  | _ => rfl

inductive Locks (s : System) (stage : Stage) : System → Move → Prop where
  | enters (sec : Section) (uses : stage.lockUses s = [.enter]) :
      Locks s stage (s.setCpuLock true) (.inside sec)
  | apart {s' : System} {move : Move} (uses : stage.lockUses s = [])
      (same : s'.cpu.cpuLock = s.cpu.cpuLock) (outside : ∀ sec, move ≠ .inside sec)
      (fair : move ≠ .halt .misuse) : Locks s stage s' move

theorem locks_of_run (free : s.cpu.cpuLock = false) (leaves : stage.handlesLock = false)
    (ran : stage.run s = (s', move)) : stage.Locks s s' move := by
  have unlocked : ¬ s.cpu.cpuLock = true := by simp [free]
  cases stage with
  | enter sec =>
    simp only [run, if_neg unlocked] at ran
    cases ran
    exact .enters sec rfl
  | reenter t w =>
    simp only [run, if_neg unlocked] at ran
    cases ran
    exact .enters (.wake t w) rfl
  | useHeap task =>
    have same := (s.useHeap_bare task).2
    have fair := s.useHeap_fair task
    simp only [run] at ran
    split at ran
    · rename_i s₁ r used
      rw [used] at same
      cases ran
      exact .apart rfl (congrArg Processor.cpuLock same) (by simp) (by simp)
    · rename_i s₁ halt used
      rw [used] at same fair
      cases ran
      exact .apart rfl (congrArg Processor.cpuLock same) (by simp) (by simpa using fair)
  | leftHeap task r =>
    have same := (s.leftHeap_bare task r).2
    simp only [run] at ran
    rw [ran] at same
    refine .apart rfl (congrArg Processor.cpuLock same) ?_ ?_
    all_goals
      unfold System.leftHeap at ran
      split at ran <;> cases ran <;> simp
  | readCells cells seen =>
    cases cells with
    | nil =>
      cases ran
      exact .apart rfl rfl (by simp) (by simp)
    | cons cell rest =>
      simp only [run, if_neg unlocked] at ran
      cases ran
      exact .enters (.readCell cell rest seen) (if_neg unlocked)
  | removed q length buffer =>
    simp only [run] at ran
    cases ran
    refine .apart rfl ?_ (by simp) (by simp)
    split <;> rfl
  | idle =>
    simp only [run] at ran
    split at ran <;> cases ran <;> exact .apart rfl rfl (by simp) (by simp)
  | fail cause =>
    have same := (s.logFailure_bare cause).2
    cases ran
    exact .apart rfl (congrArg Processor.cpuLock same) (by simp) (by simp)
  | enterCpuLock | tryEnterCpuLock | leaveCpuLock => cases leaves
  | yield | copyIn | copyOut | yieldCpu | timer | «return» =>
    cases ran
    exact .apart rfl rfl (by simp) (by simp)

end Stage

namespace Machine

variable {m m' : Machine} {h h' : History} {config : Config} {stage : Stage}

/-- What the next step of the code that has the processor does with the CPU lock. -/
def lockUses (m : Machine) : List LockUse :=
  match m.activity with
  | .dormant => [.needsFree]
  | .application => []
  | .running stage => stage.lockUses m.system
  | .inside _ => [.leave]
  | .point _ =>
    match m.cpu.preemption with
    | .dispatch _ => [.seize, .needsHeld, .release]
    | _ => []

/-- What the end of the boot code does with it: the kernel takes it, and the first dispatch and the
scheduler's choice must have it. -/
def launchUses : List LockUse := [.enter, .needsHeld, .needsHeld, .release]

/-- The CPU lock is held while a critical section is executed, and only then. -/
def HeldInside (m : Machine) : Prop := m.cpu.cpuLock = true ↔ ∃ sec, m.activity = .inside sec

theorem HeldInside.of_free (free : m.cpu.cpuLock = false)
    (outside : ∀ sec, m.activity ≠ .inside sec) : m.HeldInside := by
  constructor
  · intro held
    exact Bool.noConfusion (free.symm.trans held)
  · rintro ⟨sec, here⟩
    exact absurd here (outside sec)

theorem HeldInside.free (held : m.HeldInside) (outside : ∀ sec, m.activity ≠ .inside sec) :
    m.cpu.cpuLock = false := by
  refine Bool.eq_false_iff.mpr ?_
  intro locked
  obtain ⟨sec, here⟩ := held.mp locked
  exact outside sec here

theorem heldInside_initial (config : Config) : (initial config).HeldInside :=
  .of_free rfl fun _ here => Activity.noConfusion here

theorem heldInside_setActivity {a : Activity} (free : m.cpu.cpuLock = false)
    (outside : ∀ sec, a ≠ .inside sec) : (m.setActivity a).HeldInside := by
  refine .of_free ?_ ?_
  · rw [cpu_setActivity]
    exact free
  · rw [activity_setActivity]
    exact outside

/-- Where no section is executed, the call goes on at a preemption point or has not begun. -/
theorem HeldInside.of_waiting (free : m.cpu.cpuLock = false)
    (waits : m.activity = .dormant ∨ ∃ stage, m.activity = .point stage) : m.HeldInside := by
  refine .of_free free ?_
  intro sec here
  rcases waits with dormant | ⟨stage, point⟩
  · cases dormant.symm.trans here
  · cases point.symm.trans here

theorem Run.leavesLock (run : Run config m h) (leaves : h.LeavesLock)
    (doing : m.activity = .running stage) : stage.handlesLock = false := by
  have conforms := run.conforms m.context
  rw [stageOf_context doing] at conforms
  rcases conforms.stage with ⟨-, rfl, -⟩ | ⟨call, calling, stays⟩
  · rfl
  · rcases History.called_of_calling calling with called | rfl
    · exact Stage.handlesLock_of_at stays (leaves _ called)
    · exact Stage.handlesLock_of_at stays rfl

section Running

variable {s : System} {move : Move}

/-- Open code leaves to its end what it does with the lock. -/
theorem cpuLock_step (doing : m.activity = .running stage)
    (ran : stage.run m.system = (s, move)) : m.step.1.cpu.cpuLock = s.cpu.cpuLock := by
  unfold step
  simp only [doing, ran]
  cases move with
  | goto | inside | point => rw [cpu_setActivity]; rfl
  | sleep | halt => rfl
  | «return» r =>
    dsimp only
    unfold finishCall
    split
    · rfl
    · rw [cpu_setActivity]
      rfl

theorem halt_of_step {halt : Halt} (doing : m.activity = .running stage)
    (ran : stage.run m.system = (s, move)) (halted : m.step.2 = .halted halt) :
    move = .halt halt := by
  unfold step at halted
  simp only [doing, ran] at halted
  cases move with
  | «return» r =>
    dsimp only at halted
    unfold finishCall at halted
    split at halted <;> cases halted
  | halt =>
    cases halted
    rfl
  | _ => cases halted

theorem outside_step (settled : m.Settled h) (doing : m.activity = .running stage)
    (ran : stage.run m.system = (s, move)) (outside : ∀ sec, move ≠ .inside sec) (sec : Section) :
    m.step.1.activity ≠ .inside sec := by
  have stays : m.cpu.Stays s.cpu := (Stage.frame_of_run ran).2
  have still : { m with system := s }.activity = m.activity := by
    rw [activity_eq, activity_eq, context_of_stays stays, activityOf_of_stays stays]
  unfold step
  simp only [doing, ran]
  cases move with
  | inside sec => exact absurd rfl (outside sec)
  | goto | point => simp [activity_setActivity]
  | sleep | halt =>
    rw [still, doing]
    simp
  | «return» r =>
    obtain ⟨-, rfl⟩ := Stage.eq_of_return ran
    dsimp only
    unfold finishCall
    split
    · rename_i ends
      obtain ⟨next, here⟩ := settled.resumes ends.1
      rw [here]
      simp
    · simp [activity_setActivity]

theorem heldInside_running (settled : m.Settled h) (free : m.cpu.cpuLock = false)
    (leaves : stage.handlesLock = false) (doing : m.activity = .running stage) :
    m.step.1.HeldInside := by
  cases ran : stage.run m.system with
  | mk s move =>
    have lock := cpuLock_step doing ran
    cases Stage.locks_of_run free leaves ran with
    | enters sec =>
      refine ⟨fun _ => ⟨sec, ?_⟩, fun _ => lock⟩
      unfold step
      simp only [doing, ran]
      exact activity_setActivity ..
    | apart uses same outside =>
      refine .of_free ?_ (outside_step settled doing ran outside)
      rw [lock, same]
      exact free

end Running

theorem heldInside_start (free : m.cpu.cpuLock = false) (doing : m.activity = .dormant) :
    m.start.HeldInside := by
  unfold start
  cases m.cpu.owner with
  | boot => exact .of_waiting free (.inl doing)
  | task t =>
    refine heldInside_setActivity free ?_
    intro sec
    split <;> simp

theorem HandsOver.heldInside {t : TaskId} (handed : HandsOver m m' t) (settled : m.Settled h)
    (free : m'.cpu.cpuLock = false) : m'.HeldInside := .of_waiting free (handed.resumes settled)

theorem Check.heldInside (check : Check m h stage m' h') (settled : m.Settled h)
    (free : m.cpu.cpuLock = false) : m'.HeldInside := by
  cases check with
  | closed | clear => exact heldInside_setActivity free (by simp)
  | takes taken =>
    cases taken with
    | @line n handler due =>
      cases handler with
      | timer => exact .of_free free fun sec here => by cases here
      | application id => exact .of_free free fun sec here => by cases here
    | dispatch due => exact (HandsOver.of_dispatch due).heldInside settled free

/-- What is done from outside does not reach the lock. -/
theorem HeldInside.of_same (held : m.HeldInside) (lock : m'.cpu.cpuLock = m.cpu.cpuLock)
    (activity : m'.activity = m.activity) : m'.HeldInside := by
  unfold HeldInside
  rw [lock, activity]
  exact held

theorem cpuLock_launch (alive : m.launch.2 = .none) : m.launch.1.cpu.cpuLock = false := by
  have free := free_of_launch alive
  rw [launch_eq free]
  exact free

theorem Next.heldInside (run : Run config m h) (leaves : h'.LeavesLock) (held : m.HeldInside)
    (next : Next m h m' h') : m'.HeldInside := by
  have settled := run.settled
  cases next with
  | step busy alive =>
    have leaves : h.LeavesLock := leaves.of_subset (List.subset_append_right ..)
    cases doing : m.activity with
    | application => exact absurd doing busy
    | dormant =>
      have free := held.free (by simp [doing])
      unfold Machine.step
      simp only [doing]
      exact heldInside_start free doing
    | running stage =>
      have free := held.free (by simp [doing])
      exact heldInside_running settled free (run.leavesLock leaves doing) doing
    | inside sec =>
      cases ran : sec.run m.system with
      | mk s exit =>
        cases exit with
        | halt halt =>
          refine absurd ?_ (alive halt)
          unfold Machine.step
          simp only [doing, ran]
        | leave next =>
          rw [step_inside doing ran]
          exact heldInside_setActivity rfl (by simp)
    | point stage =>
      have free := held.free (by simp [doing])
      exact (check_step doing).heldInside settled free
  | call free c legal => exact heldInside_setActivity (held.free (by simp [free])) (by simp)
  | leaveHandler free inside =>
    exact .of_waiting (held.free (by simp [free])) (.inr (settled.resumes inside))
  | launch free booting alive =>
    exact (HandsOver.of_launch booting alive).heldInside settled (cpuLock_launch alive)
  | pend line pended | setHandler line id pended =>
    obtain ⟨lines, rfl⟩ := lines_of_outside pended
    exact held.of_same rfl rfl
  | write free a bytes may => exact held.of_same rfl rfl

/-- While the application leaves the CPU lock alone, the kernel's sections hold it, and nothing
else. -/
theorem Run.heldInside (run : Run config m h) (leaves : h.LeavesLock) : m.HeldInside := by
  refine run.induct_next (P := fun m h => h.LeavesLock → m.HeldInside)
    (fun _ => heldInside_initial config) ?_ leaves
  intro m m' h h' run ih next leaves
  have older : h ⊆ h' := by
    rcases (next.change run).older with rfl | ⟨x, rfl⟩
    · exact List.Subset.refl _
    · exact List.subset_cons_self x h
  exact next.heldInside run leaves (ih (leaves.of_subset older))

structure Uses (m : Machine) : Prop where
  fair : m.step.2 ≠ .halted .misuse
  passes : ∃ held, LockUse.all m.cpu.cpuLock m.lockUses = some held ∧
    ((∀ halt, m.step.2 ≠ .halted halt) → m.step.1.cpu.cpuLock = held)

theorem Uses.of_step {m₁ : Machine} {e : Event} {uses : List LockUse} (stepped : m.step = (m₁, e))
    (listed : m.lockUses = uses) (fair : e ≠ .halted .misuse)
    (passes : LockUse.all m.cpu.cpuLock uses = some m₁.cpu.cpuLock) : m.Uses := by
  refine ⟨?_, m₁.cpu.cpuLock, ?_, fun _ => ?_⟩
  · rw [stepped]
    exact fair
  · rw [listed]
    exact passes
  · rw [stepped]

theorem cpu_start (m : Machine) : m.start.cpu = m.cpu := by
  unfold start
  split
  · exact cpu_setActivity ..
  · rfl

theorem uses_dormant (free : m.cpu.cpuLock = false) (doing : m.activity = .dormant) : m.Uses := by
  have stepped : m.step = (m.start, .none) := by
    unfold step
    simp only [doing]
  have listed : m.lockUses = [.needsFree] := by
    unfold lockUses
    simp only [doing]
  refine .of_step stepped listed Event.noConfusion ?_
  rw [cpu_start, free]
  rfl

theorem uses_application (doing : m.activity = .application) : m.Uses := by
  have stepped : m.step = (m, .none) := by
    unfold step
    simp only [doing]
  have listed : m.lockUses = [] := by
    unfold lockUses
    simp only [doing]
  exact .of_step stepped listed Event.noConfusion rfl

theorem uses_running (free : m.cpu.cpuLock = false) (leaves : stage.handlesLock = false)
    (doing : m.activity = .running stage) : m.Uses := by
  have listed : m.lockUses = stage.lockUses m.system := by
    unfold lockUses
    simp only [doing]
  have stepped : m.step = (m.step.1, m.step.2) := rfl
  cases ran : stage.run m.system with
  | mk s move =>
    have lock := cpuLock_step doing ran
    have halted : m.step.2 = .halted .misuse → move = .halt .misuse := halt_of_step doing ran
    cases Stage.locks_of_run free leaves ran with
    | enters sec uses =>
      have fair : m.step.2 ≠ .halted .misuse := fun broken => Move.noConfusion (halted broken)
      refine .of_step stepped (listed.trans uses) fair ?_
      rw [free, lock]
      rfl
    | apart uses same outside fair =>
      refine .of_step stepped (listed.trans uses) (fun broken => fair (halted broken)) ?_
      rw [lock, same]
      rfl

theorem uses_inside {sec : Section} (held : m.cpu.cpuLock = true)
    (doing : m.activity = .inside sec) : m.Uses := by
  have fair := sec.run_fair m.system
  have listed : m.lockUses = [.leave] := by
    unfold lockUses
    simp only [doing]
  cases ran : sec.run m.system with
  | mk s exit =>
    rw [ran] at fair
    cases exit with
    | leave next =>
      refine .of_step (step_inside doing ran) listed Event.noConfusion ?_
      rw [held, cpu_setActivity]
      rfl
    | halt halt =>
      have stepped : m.step = ({ m with system := s }, .halted halt) := by
        unfold step
        simp only [doing, ran]
      refine ⟨?_, false, ?_, fun alive => absurd (congrArg Prod.snd stepped) (alive halt)⟩
      · rw [stepped]
        intro broken
        cases broken
        cases fair
      · rw [listed, held]
        rfl

theorem uses_point (free : m.cpu.cpuLock = false) (doing : m.activity = .point stage) : m.Uses := by
  cases taken : m.cpu.preemption with
  | nothing =>
    have stepped : m.step = (m.setActivity (.running stage), .none) := by
      unfold step
      simp only [doing, taken]
    have listed : m.lockUses = [] := by
      unfold lockUses
      simp only [doing, taken]
    refine .of_step stepped listed Event.noConfusion ?_
    rw [cpu_setActivity]
    rfl
  | interrupt handler cpu =>
    obtain ⟨-, lines, rfl⟩ := Processor.interrupt_of_preemption taken
    have stepped : m.step =
        (m.setCpu { m.cpu with lines, inInterrupt := true }).enterHandler handler := by
      unfold step
      simp only [doing, taken]
    have listed : m.lockUses = [] := by
      unfold lockUses
      simp only [doing, taken]
    refine .of_step stepped listed ?_ ?_
    · cases handler <;> exact Event.noConfusion
    · cases handler <;> rfl
  | dispatch cpu =>
    obtain ⟨-, -, rfl⟩ := Processor.dispatch_of_preemption taken
    have stepped : m.step =
        ((m.setCpu { m.cpu with dispatchPended := false }).dispatch, .none) := by
      unfold step
      simp only [doing, taken]
    have listed : m.lockUses = [.seize, .needsHeld, .release] := by
      unfold lockUses
      simp only [doing, taken]
    refine .of_step stepped listed Event.noConfusion ?_
    exact congrArg some free.symm

/-- While the application leaves the CPU lock alone, the code that has the processor uses it as it
must. -/
theorem Run.uses (run : Run config m h) (leaves : h.LeavesLock) : m.Uses := by
  have held := run.heldInside leaves
  cases doing : m.activity with
  | dormant => exact uses_dormant (held.free (by simp [doing])) doing
  | application => exact uses_application doing
  | running stage =>
    exact uses_running (held.free (by simp [doing])) (run.leavesLock leaves doing) doing
  | inside sec => exact uses_inside (held.mpr ⟨sec, doing⟩) doing
  | point stage => exact uses_point (held.free (by simp [doing])) doing

/-- The end of the boot code goes through, and uses the lock as it must. -/
theorem launch_of_free (free : m.cpu.cpuLock = false) :
    m.launch.2 = .none ∧
      LockUse.all m.cpu.cpuLock launchUses = some m.launch.1.cpu.cpuLock := by
  rw [launch_eq free, free]
  exact ⟨rfl, congrArg some free.symm⟩

theorem running_of_returned {c : Context} {r : Reply} (ends : m.happens = [.returned c r]) :
    m.activity = .running (.return r) := by
  unfold happens at ends
  split at ends
  · cases ends
  · rename_i doing
    cases ends
    exact doing
  · split at ends <;> cases ends
  · cases ends

/-- A call returns without the lock, whatever it returns. -/
theorem Next.free_of_returned {c : Context} {r : Reply} (next : Next m h m' h')
    (new : h' = .returned c r :: h) (held : m.HeldInside) :
    m.cpu.cpuLock = false ∧ m'.cpu.cpuLock = false := by
  cases next with
  | step busy alive =>
    have doing : m.activity = .running (.return r) :=
      running_of_returned ((List.append_left_inj h).mp new)
    have free := held.free (by simp [doing])
    exact ⟨free, (cpuLock_step doing rfl).trans free⟩
  | call | launch => cases new
  | leaveHandler | pend | setHandler | write => exact absurd new.symm (List.cons_ne_self _ _)

/-- While the application leaves the CPU lock alone, no call keeps it and nothing that uses it finds
it in the wrong state. -/
structure Disciplined (m : Machine) (h : History) : Prop where
  held : m.HeldInside
  uses : m.Uses
  launches : m.activity = .application → m.context = .boot → m.launch.2 = .none ∧
    LockUse.all m.cpu.cpuLock launchUses = some m.launch.1.cpu.cpuLock
  returns (m' : Machine) (c : Context) (r : Reply) : Next m h m' (.returned c r :: h) →
    m.cpu.cpuLock = false ∧ m'.cpu.cpuLock = false

theorem Run.disciplined (run : Run config m h) (leaves : h.LeavesLock) : m.Disciplined h := by
  have held := run.heldInside leaves
  refine ⟨held, run.uses leaves, ?_, ?_⟩
  · intro free booting
    exact launch_of_free (held.free (by simp [free]))
  · intro m' c r next
    exact next.free_of_returned rfl held

end Machine

end TaskKernel
