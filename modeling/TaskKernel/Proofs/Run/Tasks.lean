import TaskKernel.Proofs.Run.Calls

namespace TaskKernel

variable {s s' s₀ : System} {sec : Section} {next : Stage} {call : Call} {c : Context} {t : TaskId}

theorem System.task_recorded (s : System) (wait : WaitState) (timeout : Ticks) (t : TaskId) :
    (s.recorded wait timeout).kernel.task t =
      if s.kernel.running = t then { s.kernel.task t with wait, timeout } else s.kernel.task t :=
  Kernel.task_updateTask ..

theorem System.running_recorded (s : System) (wait : WaitState) (timeout : Ticks) :
    (s.recorded wait timeout).kernel.task s.kernel.running =
      { s.kernel.task s.kernel.running with wait, timeout } :=
  (s.task_recorded ..).trans (if_pos rfl)

theorem System.task_roused (s : System) (u t : TaskId) :
    (s.roused u).kernel.task t =
      if u = t then { s.kernel.task t with timeout := Ticks.forever } else s.kernel.task t :=
  Kernel.task_updateTask ..

theorem Kernel.task_enterTask (k : Kernel) (name : String) (priority param entry : Nat)
    (ht : t ≠ k.taskCount + 1) :
    (k.enterTask name priority param entry).1.task t = k.task t :=
  Table.get_set_ne _ _ (Ne.symm ht)

theorem Call.not_running_of_other (here : Call.RunsAs s c) (other : c ≠ .task t)
    (able : s.canBlock = true) : s.kernel.running ≠ t := by
  intro he
  subst he
  exact other (here.able able)

theorem Section.Seeks.task_other {g : Goal} {nowait : Bool} {timeout : Ticks}
    (seeks : sec.Seeks s s₀ g nowait timeout) (runs : call.Runs c sec) (other : c ≠ .task t) :
    s₀.kernel.task t = s.kernel.task t := by
  cases seeks with
  | seek | add | flush | multi => rfl
  | @wake u =>
    cases runs
    exact (s.task_roused u t).trans (if_neg fun he => other (congrArg _ he))

theorem Sought.task_other {g : Goal} {nowait : Bool} {timeout : Ticks}
    (sought : Sought s g nowait timeout s' next) (here : Call.RunsAs s c) (other : c ≠ .task t) :
    s'.kernel.task t = s.kernel.task t := by
  cases sought with
  | reached now => exact Kernel.task_of_board now.frame.1 t
  | refused | late => rfl
  | blocks later may able left =>
    exact (s.task_recorded ..).trans (if_neg (Call.not_running_of_other here other able))

/-- The sections of one context leave the entries of the others' tasks alone, ticks apart. -/
theorem Section.Left.task_other (left : sec.Left s s' next) (runs : call.Runs c sec)
    (here : Call.RunsAs s c) (other : c ≠ .task t) (old : t ≤ s.kernel.taskCount)
    (still : sec ≠ .tick) : s'.kernel.task t = s.kernel.task t := by
  have running := Call.not_running_of_other here other
  cases left with
  | plain simple ran =>
    cases same : sec.changesTasks with
    | false => exact Kernel.task_of_board (plain_board simple same ran) t
    | true =>
      cases sec with
      | createTask name stack priority param entry =>
        rcases createTask_cases ran with ⟨rfl, -⟩ | ⟨hk, -⟩
        · rfl
        · rw [hk]
          exact s.kernel.task_enterTask name priority param entry fun he =>
            Nat.not_succ_le_self _ (he ▸ old)
      | tick => exact absurd rfl still
      | _ => cases same
  | sought seeks sought =>
    exact (sought.task_other (Call.runsAs_of_seeks here seeks) other).trans
      (seeks.task_other runs other)
  | failed | late | asleep => rfl
  | pauses able => exact (s.task_recorded _ _ t).trans (if_neg (running able))
  | lateExit able => exact (s.task_recorded _ _ t).trans (if_neg (running able))
  | exits able => exact (System.task_recorded ..).trans (if_neg (running able))
  | @woken u =>
    cases runs
    exact (s.task_roused u t).trans (if_neg fun he => other (congrArg _ he))
  | @exited u =>
    cases runs
    have ne : u ≠ t := fun he => other (congrArg _ he)
    refine ((s.roused u).task_recorded ..).trans ?_
    rw [if_neg, s.task_roused, if_neg ne]
    exact fun he => ne ((here.task u rfl).symm.trans he)

end TaskKernel
