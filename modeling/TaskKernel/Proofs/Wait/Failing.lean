import TaskKernel.Proofs.Run.Executions

namespace TaskKernel

/-- A section ends its call with an error. The goal is out of reach, or a pause is over. -/
inductive Section.Fails (s : System) (call : Call) (c : Context) :
    Section → System → WaitError → Prop where
  | refused {sec : Section} {s₀ : System} {g : Goal} {wait : WaitState} {timeout : Ticks}
      (goal : call.Seeks g) (seeks : sec.Seeks s s₀ g true timeout)
      (later : g.Blocked s₀ wait) : Fails s call c sec s₀ .wouldBlock
  | late {sec : Section} {s₀ : System} {g : Goal} {wait : WaitState}
      (goal : call.Seeks g) (seeks : sec.Seeks s s₀ g false Ticks.expired)
      (later : g.Blocked s₀ wait) : Fails s call c sec s₀ .timeout
  | paused {wait : WaitState} (blocks : call = .blockOn wait Ticks.expired) :
      Fails s call c (.pause .blockOn wait Ticks.expired) s .timeout
  | woken {t : TaskId} {wait : WaitState} {n : Ticks} (blocks : call = .blockOn wait n)
      (mine : c = .task t) (chosen : (s.kernel.task t).wait = .run)
      (expired : (s.kernel.task t).timeout = Ticks.expired) :
      Fails s call c (.wake t (.pause .blockOn)) (s.roused t) .timeout

structure History.Failed (h : History) (c : Context) (call : Call) (e : WaitError) (s : System)
    (sec : Section) (older : History) : Prop where
  ran : .ran c s sec :: older <:+ h
  last : h.sectionsBy c = (s, sec) :: older.sectionsBy c
  calling : older.calling c = some call
  ends : (sec.run s).2 = .leave (.return (.failed e))
  fails : sec.Fails s call c (sec.run s).1 e

variable {s s' s₀ : System} {sec : Section} {stage next : Stage} {call : Call} {c : Context}
  {h h' : History} {e : WaitError} {r : Reply}

theorem Pause.reply_failed {p : Pause} {left : Ticks} (failed : p.reply left = .failed e) :
    p = .blockOn ∧ left = Ticks.expired ∧ e = .timeout := by
  cases p with
  | blockOn =>
    simp only [reply] at failed
    split at failed <;> cases failed
    rename_i expired
    exact ⟨rfl, expired, rfl⟩
  | _ => cases failed

namespace Section

theorem plain_succeeds (simple : sec.isPlain = true) (ran : sec.run s = (s', .leave (.return r)))
    (e : WaitError) : r ≠ .failed e := by
  cases sec with
  | createTask =>
    rcases createTask_cases ran with ⟨-, he⟩ | ⟨-, he, -⟩
    · cases he
    · cases he
      simp
  | tick =>
    obtain ⟨-, he, -⟩ := tick_eq ran
    cases he
    simp
  | checkNoRing | installRing | addSubWait =>
    simp only [run] at ran
    split at ran <;> cases ran <;> simp
  | pause | exit | seek | wake | startAdd | startFlush | startMulti => cases simple
  | _ => cases ran <;> simp

theorem fails_of_run (ran : sec.run s = (s', .leave (.return (.failed e))))
    (runs : call.Runs c sec) : sec.Fails s call c s' e := by
  generalize ends : Stage.return (.failed e) = next at ran
  cases left_of_run ran with
  | plain simple ran =>
    subst ends
    exact absurd rfl (plain_succeeds simple ran e)
  | sought seeks sought =>
    have goal := Call.goal_of_seeks runs seeks
    cases sought with
    | reached now =>
      cases now <;> cases ends
    | refused later must =>
      cases ends
      subst must
      exact .refused goal seeks later
    | late later may expired =>
      cases ends
      subst may expired
      exact .late goal seeks later
    | blocks => cases ends
  | late able =>
    obtain ⟨rfl, -, rfl⟩ := Pause.reply_failed (Stage.return.inj ends).symm
    obtain ⟨pauses, budget⟩ := Call.pauses_of_runs runs
    cases pauses
    cases budget
    exact .paused rfl
  | woken chosen =>
    obtain ⟨rfl, expired, rfl⟩ := Pause.reply_failed (Stage.return.inj ends).symm
    cases runs with
    | wake waits =>
      cases waits with
      | pause pauses =>
        cases pauses
        exact .woken rfl rfl chosen expired
  | failed | pauses | lateExit | exits | asleep | exited => cases ends

end Section

namespace Stage

/-- Only sections end a call with an error. -/
theorem Goes.not_failed (goes : stage.Goes next) (e : WaitError) : next ≠ .return (.failed e) := by
  intro he
  subst he
  cases goes with
  | leftHeap succeeds | cpu succeeds => exact succeeds e rfl

theorem start_not_failed (config : Config) (call : Call) (e : WaitError) :
    call.start config ≠ .return (.failed e) := by
  cases call with
  | createTask | sleep | createQueue | createMultiWait =>
    simp only [Call.start]
    repeat' split
    all_goals simp
  | _ => simp [Call.start]

end Stage

namespace History.Failed

variable {older : History} {x : Happening}

theorem cons (failed : h.Failed c call e s sec older) (other : x.context ≠ some c) :
    History.Failed (x :: h) c call e s sec older :=
  { failed with
    ran := failed.ran.trans (List.suffix_cons ..)
    last := (sectionsBy_other other).trans failed.last }

end History.Failed

namespace Machine

variable {m m' : Machine} {config : Config}

/-- A call that fails does so in its last section. -/
theorem Run.failed (run : Run config m h) (here : m.stageOf c = some (.return (.failed e)))
    (calling : h.calling c = some call) :
    ∃ s sec older, h.Failed c call e s sec older := by
  refine Run.induct (P := fun m h => ∀ c e call, m.stageOf c = some (.return (.failed e)) →
    h.calling c = some call → ∃ s sec older, h.Failed c call e s sec older) ?_ ?_
    run c e call here calling
  · intro c e call _ calling
    cases calling
  intro m m' h h' run ih change c e call here' calling'
  generalize ends : Stage.return (.failed e) = stage at here'
  cases change.progress run here' calling' with
  | begins => exact absurd ends.symm (Stage.start_not_failed _ call e)
  | serves => cases ends
  | codes here calling stays ran goes => exact absurd ends.symm (goes.not_failed e)
  | runs here calling runs ran system new =>
    subst ends new
    refine ⟨m.system, _, h, List.suffix_refl _, if_pos rfl, calling, ?_, ?_⟩
    · rw [ran]
    · rw [ran]
      exact Section.fails_of_run ran runs
  | waits here calling other =>
    subst ends
    obtain ⟨s, sec, older, failed⟩ := ih c e call here calling
    rcases other with rfl | ⟨x, rfl, other⟩
    · exact ⟨s, sec, older, failed⟩
    · exact ⟨s, sec, older, failed.cons other⟩

end Machine

end TaskKernel
