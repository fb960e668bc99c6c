import TaskKernel.Proofs.Processor.Quiescence
import Mathlib.Data.List.GetD

namespace TaskKernel

namespace Machine

variable {m m' m₀ : Machine} {h h' : History} {config : Config} {n : Nat} {r : Request}

/-- No other thread has its hands in this step. The lines change as an interrupt is taken, and as
the code of the application wants that has the processor. It leaves the timer's line alone. -/
inductive Alone (m : Machine) (h : History) (m' : Machine) (h' : History) : Prop
  | lines (same : m'.cpu.lines = m.cpu.lines)
  | taken (handler : Handler) (new : h' = .entered handler :: h)
  | application (free : m.activity = .application)
      (timer : m'.cpu.line timerLine = m.cpu.line timerLine)

/-- Outside the code of the application nobody changes the lines from outside. -/
theorem Alone.eq_of_outside {lines : List Line}
    (alone : Alone m h (m.setCpu { m.cpu with lines }) h) (busy : m.activity ≠ .application) :
    m.setCpu { m.cpu with lines } = m := by
  cases alone with
  | lines same =>
    have here : lines = m.cpu.lines := same
    rw [here]
    rfl
  | taken handler new => exact absurd new.symm (List.cons_ne_self _ _)
  | application free => exact absurd free busy

theorem Taken.cpu_line (taken : Taken m h (.line n) m' h') :
    m'.cpu = m.cpu.grant (.line n) := by
  cases taken with
  | @line n handler => cases handler <;> rfl

theorem Taken.alone (taken : Taken m h (.line n) m' h') : Alone m h m' h' := by
  cases taken with
  | line due registered => exact .taken _ rfl

theorem Onward.lines (onward : Onward m m') : m'.cpu.lines = m.cpu.lines := by
  cases onward with
  | moves a stays =>
    rw [cpu_setActivity]
    exact stays.lines
  | stays stays => exact stays.lines
  | leaves => rfl

/-- Code leaves the lines alone until one is taken. -/
theorem Stepped.lines {news : History} (stepped : Stepped m m' news) :
    m'.cpu.lines = m.cpu.lines ∨ ∃ n, Taken m h (.line n) m' (news ++ h) := by
  cases stepped with
  | starts => exact .inl onward_start.lines
  | stays => exact .inl rfl
  | goes doing ran =>
    rw [cpu_setActivity]
    exact .inl (Stage.frame_of_run ran).2.lines
  | sleeps doing ran => exact .inl (Stage.frame_of_run ran).2.lines
  | returns => exact .inl (onward_finishCall _).lines
  | runs doing ran =>
    rw [cpu_setActivity]
    exact .inl (stays_of_left ran).lines
  | point doing =>
    have check := check_step (h := h) doing
    generalize m.step.1 = m' at check ⊢
    generalize m.happens ++ h = h' at check ⊢
    cases check with
    | closed | clear =>
      rw [cpu_setActivity]
      exact .inl rfl
    | @takes r _ _ taken =>
      cases r with
      | line n => exact .inr ⟨n, taken⟩
      | dispatch =>
        cases taken
        exact .inl rfl

def HasTimer (m : Machine) (n : Nat) : Prop := (m.cpu.line n).handler = some .timer

theorem HasTimer.of_lines (timer : m'.HasTimer n) (same : m'.cpu.lines = m.cpu.lines) :
    m.HasTimer n := by
  have line : m'.cpu.line n = m.cpu.line n := congrArg (·.getD n {}) same
  exact (congrArg Line.handler line).symm.trans timer

/-- There is a line at which the timer's handler is called. -/
theorem HasTimer.pend (timer : m.HasTimer n) : ∃ cpu, m.cpu.pend n = some cpu := by
  by_cases inside : n < m.cpu.lines.length
  · exact ⟨_, if_pos inside⟩
  · have blank : m.cpu.line n = {} := List.getD_eq_default _ _ (Nat.not_lt.mp inside)
    unfold HasTimer at timer
    rw [blank] at timer
    cases timer

theorem Next.hasTimer (next : Next m h m' h') (timer : m'.HasTimer n) : m.HasTimer n := by
  cases next with
  | step busy alive =>
    rcases (stepped_of_alive alive).lines (h := h) with same | ⟨i, taken⟩
    · exact timer.of_lines same
    · unfold HasTimer at *
      rw [taken.cpu_line, Processor.line_grant] at timer
      split at timer <;> exact timer
  | call => exact timer.of_lines (congrArg Processor.lines (cpu_setActivity ..))
  | leaveHandler | write => exact timer
  | launch free booting alive =>
    rw [launch_eq (free_of_launch alive)] at timer
    exact timer
  | pend i pended =>
    obtain ⟨cpu, updated, rfl⟩ := Option.map_eq_some_iff.mp pended
    have line : cpu.line n = _ := Processor.line_updateLine updated n
    change (cpu.line n).handler = some .timer at timer
    rw [line] at timer
    split at timer <;> exact timer
  | setHandler i id set =>
    obtain ⟨cpu, updated, rfl⟩ := Option.map_eq_some_iff.mp set
    have line : cpu.line n = _ := Processor.line_updateLine updated n
    change (cpu.line n).handler = some .timer at timer
    rw [line] at timer
    split at timer
    · cases timer
    · exact timer

/-- No line but the timer's has the timer's handler. -/
theorem Run.hasTimer (run : Run config m h) (timer : m.HasTimer n) : n = timerLine := by
  refine Run.induct_next (P := fun m _ => ∀ n, m.HasTimer n → n = timerLine) ?_ ?_ run n timer
  · intro n timer
    have set : ({} : Processor).setHandler timerLine (some .timer) =
        some (Machine.initial config).cpu := rfl
    have line := Processor.line_updateLine set n
    unfold HasTimer at timer
    rw [line] at timer
    split at timer
    · rename_i here
      exact here.symm
    · have blank : ({} : Processor).line n = {} :=
        (List.getD_eq_getElem?_getD ..).trans (List.getElem?_getD_replicate_default_eq ..)
      rw [blank] at timer
      cases timer
  · intro m m' h h' run only next n timer
    exact only n (next.hasTimer timer)

inductive Lined (m : Machine) (h : History) (m' : Machine) (h' : History) : Prop
  | taken (new : h' = .entered .timer :: h) (pended : (m.cpu.line timerLine).pended = true)
      (cleared : m'.cpu.line timerLine = { m.cpu.line timerLine with pended := false })
  | kept (interrupts : h'.interrupts = h.interrupts)
      (same : m'.cpu.line timerLine = m.cpu.line timerLine)

theorem Next.lined (run : Run config m h) (next : Next m h m' h') (alone : Alone m h m' h')
    (timer : m.HasTimer timerLine) : Lined m h m' h' := by
  by_cases entered : ∃ handler, h' = .entered handler :: h
  · obtain ⟨handler, rfl⟩ := entered
    obtain ⟨n, registered, taken⟩ := next.turn.entered rfl
    have line := Processor.line_grant m.cpu n timerLine
    rw [← taken.cpu_line] at line
    by_cases here : n = timerLine
    · subst here
      cases registered.symm.trans timer
      rw [if_pos rfl] at line
      exact .taken rfl (Processor.isEligible_iff.mp (Due.of_taken taken).first.asked).1 line
    · rw [if_neg here] at line
      refine .kept ?_ line
      cases handler with
      | timer => exact absurd (run.hasTimer registered) here
      | application => rfl
  · have interrupts : h'.interrupts = h.interrupts := by
      rcases (next.change run).older with rfl | ⟨x, rfl⟩
      · rfl
      · cases x with
        | entered handler => exact absurd ⟨handler, rfl⟩ entered
        | called | ran | returned | dispatched => rfl
    cases alone with
    | lines same => exact .kept interrupts (congrArg (·.getD timerLine {}) same)
    | taken handler new => exact absurd ⟨handler, new⟩ entered
    | application free same => exact .kept interrupts same

theorem Lined.of_entered (lined : Lined m h m' (.entered .timer :: h)) :
    (m.cpu.line timerLine).pended = true ∧ ¬ (m'.cpu.line timerLine).pended = true := by
  cases lined with
  | taken _ pended cleared => exact ⟨pended, by simp [cleared]⟩
  | kept same =>
    have more : History.interrupts (.entered .timer :: h) = h.interrupts + 1 := rfl
    exact absurd (more.symm.trans same) (Nat.succ_ne_self _)

theorem Lined.of_clear (lined : Lined m h m' h')
    (clear : ¬ (m.cpu.line timerLine).pended = true) :
    h'.interrupts = h.interrupts ∧ ¬ (m'.cpu.line timerLine).pended = true := by
  cases lined with
  | taken _ pended => exact absurd pended clear
  | kept interrupts same => exact ⟨interrupts, same ▸ clear⟩

/-- The line stays as it is, unless its interrupt is taken. -/
theorem Lined.still (lined : Lined m h m' h) : m'.cpu.line timerLine = m.cpu.line timerLine := by
  cases lined with
  | taken new => exact absurd new.symm (List.cons_ne_self _ _)
  | kept _ same => exact same

theorem Lined.hasTimer (lined : Lined m h m' h') (timer : m.HasTimer timerLine) :
    m'.HasTimer timerLine := by
  cases lined with
  | taken _ _ cleared => exact (congrArg Line.handler cleared).trans timer
  | kept _ same => exact (congrArg Line.handler same).trans timer

/-- The same code has the processor, and nothing has happened but that the timer's line was pended
and that the idle task may be awake. -/
structure Roused (m₀ m : Machine) : Prop where
  cpu : ∃ cpu awake, m₀.cpu.pend timerLine = some cpu ∧ m.cpu = { cpu with idleWaiting := awake }
  kernel : m.kernel = m₀.kernel
  others (c : Context) : c ≠ .task TaskId.idle → m.activityOf c = m₀.activityOf c
  idle : m.activity = .running .idle ∨ m.activity = .point .idle

namespace Roused

theorem stage (roused : Roused m₀ m) : m.activity.stage = some .idle := by
  rcases roused.idle with doing | doing <;> rw [doing] <;> rfl

theorem busy (roused : Roused m₀ m) : m.activity ≠ .application := by
  rcases roused.idle with doing | doing <;> rw [doing] <;> simp

/-- Nothing but the timer's line has come up since. -/
theorem eq_timer (roused : Roused m₀ m) (none : m₀.cpu.hasPendingWork = false)
    (asked : m.cpu.asks r = true) : r = .line timerLine := by
  obtain ⟨cpu, awake, pended, same⟩ := roused.cpu
  obtain ⟨lines, rfl⟩ := Processor.lines_of_updateLine pended
  have before := Processor.not_asks none r
  rw [same] at asked
  cases r with
  | dispatch => exact Bool.noConfusion (asked.symm.trans before)
  | line n =>
    by_contra other
    have away : timerLine ≠ n := fun same => other (congrArg _ same.symm)
    have line := Processor.line_updateLine pended n
    rw [if_neg away] at line
    have asked' : (m₀.cpu.line n).isEligible = true := line ▸ asked
    exact Bool.noConfusion (asked'.symm.trans before)

theorem setCpu (roused : Roused m₀ m) (awake : Bool) :
    Roused m₀ (m.setCpu { m.cpu with idleWaiting := awake }) := by
  obtain ⟨cpu, _, pended, same⟩ := roused.cpu
  refine ⟨⟨cpu, awake, pended, ?_⟩, roused.kernel, ?_, roused.idle⟩
  · exact congrArg (fun cpu : Processor => { cpu with idleWaiting := awake }) same
  · exact fun c other => (by cases c <;> rfl : _ = m.activityOf c).trans (roused.others c other)

theorem setActivity (roused : Roused m₀ m) (context : m.context = .task TaskId.idle) {a : Activity}
    (idle : a = .running .idle ∨ a = .point .idle) : Roused m₀ (m.setActivity a) := by
  refine ⟨?_, (congrArg System.kernel (system_setActivity ..)).trans roused.kernel, ?_, ?_⟩
  · rw [cpu_setActivity]
    exact roused.cpu
  · intro c other
    rw [activityOf_setActivity, context, if_neg other]
    exact roused.others c other
  · rw [activity_setActivity]
    exact idle

/-- The idle task comes to its preemption point and takes the timer's interrupt there. -/
theorem next (roused : Roused m₀ m) (run : Run config m h)
    (none : m₀.cpu.hasPendingWork = false) (timer : m.HasTimer timerLine)
    (next : Next m h m' h') (alone : Alone m h m' h') :
    Roused m₀ m' ∧ h' = h ∨ h' = .entered .timer :: h := by
  have context := run.idle_context roused.stage
  cases next with
  | step _ alive =>
    rcases roused.idle with doing | doing
    · left
      rw [happens_running doing (by simp)]
      cases work : m.cpu.hasPendingWork with
      | true =>
        rw [step_idle_pended doing work]
        exact ⟨(roused.setCpu false).setActivity context (.inr rfl), rfl⟩
      | false =>
        rw [step_idle_quiet doing work]
        exact ⟨roused.setCpu true, rfl⟩
    · have check := check_step (h := h) doing
      generalize m.step.1 = m' at check ⊢
      generalize m.happens ++ h = h' at check ⊢
      cases check with
      | closed | clear =>
        exact .inl ⟨roused.setActivity context (.inl rfl), rfl⟩
      | takes taken =>
        have asked := roused.eq_timer none (Due.of_taken taken).first.asked
        subst asked
        cases taken with
        | line due registered =>
          cases registered.symm.trans timer
          exact .inr rfl
  | call free | leaveHandler free | launch free | write free => exact absurd free roused.busy
  | pend line pended | setHandler line id pended =>
    obtain ⟨lines, rfl⟩ := lines_of_outside pended
    rw [alone.eq_of_outside roused.busy]
    exact .inl ⟨roused, rfl⟩

end Roused

/-- Nothing happens on a processor on which nothing goes on. -/
theorem Next.eq_of_quiescent (run : Run config m h) (quiescent : m.cpu.isQuiescent = true)
    (next : Next m h m' h') (alone : Alone m h m' h') : m' = m ∧ h' = h := by
  obtain ⟨waiting, none⟩ := Processor.isQuiescent_iff.mp quiescent
  have doing := run.dozes waiting
  have busy : m.activity ≠ .application := by simp [doing]
  cases next with
  | step _ alive =>
    rw [step_idle_quiet doing none, happens_running doing (by simp), ← waiting]
    exact ⟨rfl, rfl⟩
  | call free | leaveHandler free | launch free | write free => exact absurd free busy
  | pend line pended | setHandler line id pended =>
    obtain ⟨lines, rfl⟩ := lines_of_outside pended
    exact ⟨alone.eq_of_outside busy, rfl⟩

end Machine

end TaskKernel
