import TaskKernel.Proofs.Schedule.Enrolment
import TaskKernel.Proofs.Wait.Budget

namespace TaskKernel

structure Task.Rests (x : Task) : Prop where
  wait : x.wait = .run
  timeout : x.timeout = Ticks.forever

def Stage.isSettled : Stage → Bool
  | .fail _ => false
  | stage => !stage.isWaiting

variable {s s' s₀ : System} {sec : Section} {stage next : Stage} {call : Call} {c : Context}
  {t : TaskId}

theorem Stage.Goes.isSettled (goes : stage.Goes next) : next.isSettled = stage.isSettled := by
  cases goes with
  | cpu succeeds lock => rcases lock with rfl | rfl | rfl | rfl <;> rfl
  | _ => rfl

namespace Task.Rests

variable {k k' : Kernel} {xs : List TaskId}

theorem blank : ({} : Task).Rests := ⟨rfl, rfl⟩

theorem of_task (rests : (k.task t).Rests) (same : k'.task t = k.task t) : (k'.task t).Rests :=
  same ▸ rests

theorem tick (rests : (k.task t).Rests) : (k.tick.1.task t).Rests := by
  obtain ⟨slice, after⟩ := k.task_tick t
  rw [after]
  refine ⟨rests.wait, ?_⟩
  dsimp only
  rw [rests.timeout]
  split <;> rfl

theorem roused (chosen : (s.kernel.task t).wait = .run) : ((s.roused t).kernel.task t).Rests := by
  rw [s.task_roused, if_pos rfl]
  exact ⟨chosen, rfl⟩

theorem dispatch (rests : (k.task t).Rests) (dispatched : k.Dispatched xs) :
    (k.dispatch.task t).Rests := by
  rw [dispatched.task]
  split
  · exact ⟨rfl, rests.timeout⟩
  · exact rests

theorem booted (rests : (k.task t).Rests) : (k.booted.task t).Rests := by
  by_cases idle : t = TaskId.idle
  · subst idle
    have entry : k.booted.task TaskId.idle = (k.resetTask TaskId.idle "idle" 255 0 0).task
        TaskId.idle := rfl
    rw [entry, show (k.resetTask TaskId.idle "idle" 255 0 0).task TaskId.idle = _ from
      Table.get_set_self ..]
    exact ⟨rfl, rfl⟩
  · exact rests.of_task (k.task_booted idle)

end Task.Rests

namespace Section

/-- A task that goes on after a section does not wait any more. -/
theorem rests_own (ran : sec.run s = (s', .leave next)) (runs : call.Runs (.task t) sec)
    (old : t ≤ s.kernel.taskCount) (settled : next.isSettled = true)
    (before : (Stage.enter sec).isSettled = true → (s.kernel.task t).Rests) :
    (s'.kernel.task t).Rests := by
  cases left_of_run ran with
  | plain simple ran =>
    have rests : (s.kernel.task t).Rests := by
      refine before ?_
      cases sec with
      | wake => cases simple
      | _ => rfl
    cases same : sec.changesTasks with
    | false => exact rests.of_task (Kernel.task_of_board (plain_board simple same ran) t)
    | true =>
      cases sec with
      | createTask name stack priority param entry =>
        rcases createTask_cases ran with ⟨rfl, -⟩ | ⟨hk, -⟩
        · exact rests
        · rw [hk]
          exact rests.of_task (s.kernel.task_enterTask name priority param entry fun he =>
            Nat.not_succ_le_self _ (he ▸ old))
      | tick =>
        rw [(tick_eq ran).1]
        exact rests.tick
      | _ => cases same
  | @sought _ s₀ _ _ _ _ _ seeks sought =>
    have rests : (s₀.kernel.task t).Rests := by
      cases seeks with
      | wake chosen =>
        cases runs
        exact .roused chosen
      | seek | add | flush | multi => exact before rfl
    cases sought with
    | reached now => exact rests.of_task (Kernel.task_of_board now.frame.1 t)
    | refused | late => exact rests
    | blocks => cases settled
  | late => exact before rfl
  | woken chosen =>
    cases runs
    exact .roused chosen
  | failed | pauses | lateExit | exits | asleep | exited => cases settled

/-- The sections of other contexts leave a task alone that does not wait. -/
theorem rests_other (ran : sec.run s = (s', .leave next)) (runs : call.Runs c sec)
    (here : Call.RunsAs s c) (running : s.kernel.running ≤ s.kernel.taskCount)
    (lined : ∃ xs, s.kernel.Lined xs) (other : c ≠ .task t) (rests : (s.kernel.task t).Rests) :
    (s'.kernel.task t).Rests := by
  have left := left_of_run ran
  by_cases tick : sec = .tick
  · subst tick
    rw [(tick_eq ran).1]
    exact rests.tick
  · by_cases old : t ≤ s.kernel.taskCount
    · exact rests.of_task (left.task_other runs here other old tick)
    · rcases left.rests runs here running with
        same | ⟨name, stack, priority, param, entry, -, room, entered⟩
      · exact rests.of_task (same.blank t (Nat.lt_of_not_le old))
      · obtain ⟨xs, lined⟩ := lined
        have enters := (lined.enters name priority param entry).log
          (.taskCreated name (s.kernel.taskCount + 1) priority stack)
        rw [← entered] at enters
        by_cases new : t = s.kernel.taskCount + 1
        · subst new
          rw [enters.entry]
          exact ⟨rfl, rfl⟩
        · exact rests.of_task (enters.others t new)

end Section

namespace Machine

variable {m m' : Machine} {h h' : History} {config : Config}

theorem Change.rests (run : Run config m h) (change : Change m h m' h')
    (before : ∀ t, (∀ stage, m.stageOf (.task t) = some stage → stage.isSettled = true) →
      (m.kernel.task t).Rests)
    (t : TaskId) (settled : ∀ stage, m'.stageOf (.task t) = some stage → stage.isSettled = true) :
    (m'.kernel.task t).Rests := by
  have orderly := run.orderly
  obtain ⟨xs, lined⟩ := orderly.lined
  obtain ⟨ys, dispatched⟩ := lined.dispatch orderly.running
  have stays : m'.stageOf (.task t) = m.stageOf (.task t) → (m.kernel.task t).Rests := by
    intro same
    exact before t fun stage here => settled stage (same.trans here)
  cases change with
  | @code _ stage next move here ran goes stages =>
    refine (before t fun stage' here' => ?_).of_task
      (Kernel.task_of_board (Kernel.board_of_bare (Stage.frame_of_run ran).1) t)
    by_cases mine : .task t = m.context
    · rw [← mine] at here
      cases here.symm.trans here'
      rw [← goes.isSettled]
      exact settled next ((stages _).trans (if_pos mine))
    · exact settled stage' (((stages _).trans (if_neg mine)).trans here')
  | @ran _ sec next s here ran system stages =>
    rw [kernel_of_left system]
    obtain ⟨call, -, runs⟩ := run.runs_of_enter here
    by_cases mine : .task t = m.context
    · have own := orderly.runsAs.task t mine.symm
      rw [← mine] at runs here
      refine Section.rests_own ran runs (own ▸ orderly.running)
        (settled next ((stages _).trans (if_pos mine))) fun was => before t fun stage here' => ?_
      cases here.symm.trans here'
      exact was
    · exact Section.rests_other ran runs orderly.runsAs orderly.running orderly.lined
        (fun he => mine he.symm) (stays ((stages _).trans (if_neg mine)))
  | called call legal here system stages =>
    have same : m'.kernel.task t = m.kernel.task t := congrArg (·.kernel.task t) system
    refine (before t fun stage here' => ?_).of_task same
    by_cases mine : .task t = m.context
    · rw [mine, here] at here'
      cases here'
    · exact settled stage (((stages _).trans (if_neg mine)).trans here')
  | returned here kernel cpu stages =>
    refine (before t fun stage here' => ?_).of_task (congrArg (Kernel.task · t) kernel)
    by_cases mine : .task t = m.context
    · rw [mine, here] at here'
      cases here'
      rfl
    · exact settled stage (((stages _).trans (if_neg mine)).trans here')
  | entered here kernel cpu stages =>
    exact (stays ((stages _).trans (if_neg (by simp)))).of_task (congrArg (Kernel.task · t) kernel)
  | dispatched kernel started cpu stages =>
    rw [kernel]
    exact (stays (stages _)).dispatch dispatched
  | launched here booting kernel cpu stages =>
    rw [kernel]
    obtain ⟨zs, after⟩ := lined.booted.dispatch orderly.running
    exact (stays (stages _)).booted.dispatch after
  | idled here system stages =>
    have same : m'.kernel.task t = m.kernel.task t := congrArg (·.kernel.task t) system
    refine (before t fun stage here' => ?_).of_task same
    by_cases mine : Context.task t = .task TaskId.idle
    · rw [mine, here] at here'
      cases here'
    · exact settled stage (((stages _).trans (if_neg mine)).trans here')
  | quiet kernel cpu stages => exact (stays (stages _)).of_task (congrArg (Kernel.task · t) kernel)
  | wrote => exact stays rfl

/-- A task that is outside its waits has no wait and no timeout in its entry. -/
theorem Run.rests (run : Run config m h) (t : TaskId)
    (settled : ∀ stage, m.stageOf (.task t) = some stage → stage.isSettled = true) :
    (m.kernel.task t).Rests := by
  refine Run.induct (P := fun m _ => ∀ t, (∀ stage, m.stageOf (.task t) = some stage →
    stage.isSettled = true) → (m.kernel.task t).Rests) ?_ ?_ run t settled
  · intro t _
    exact .blank
  · intro m m' h h' run ih change
    exact change.rests run ih

end Machine

end TaskKernel
