import TaskKernel.Advance
import TaskKernel.Proofs.Processor.Solitude
import Mathlib.Order.Monotone.Basic

namespace TaskKernel

inductive Advance.Goes (p : Processor) : Advance → Advance → Processor → Prop
  | settles {left : Nat} (quiescent : p.isQuiescent = true) (more : 0 < left) :
      Goes p (.settle left) (.aim left) p
  | ends (quiescent : p.isQuiescent = true) : Goes p (.settle 0) .done p
  | aims {left : Nat} : Goes p (.aim left) (.deliver (p.tickCount + 1) left) p
  | delivers {target left : Nat} {p' : Processor} (pended : p.pend timerLine = some p') :
      Goes p (.deliver target left) (.await target left) p'
  | arrives {target left : Nat} (counted : target ≤ p.tickCount) :
      Goes p (.await target left) (.settle (left - 1)) p

def Advance.rank : Advance → Nat
  | settle left => 4 * left + 1
  | aim left => 4 * left
  | deliver _ left => 4 * left - 1
  | await _ left => 4 * left - 2
  | done => 0

theorem Advance.goes_of_step {p p' : Processor} {a a' : Advance} (goes : a.step p = some (a', p')) :
    a.Goes p a' p' := by
  cases a with
  | settle left =>
    simp only [step] at goes
    split at goes <;> cases goes
    rename_i quiescent
    split
    · rename_i none
      subst none
      exact .ends quiescent
    · rename_i more
      exact .settles quiescent (Nat.pos_of_ne_zero more)
  | aim left =>
    cases goes
    exact .aims
  | deliver target left =>
    obtain ⟨q, pended, same⟩ := Option.map_eq_some_iff.mp goes
    cases same
    exact .delivers pended
  | await target left =>
    simp only [step] at goes
    split at goes <;> cases goes
    rename_i counted
    exact .arrives counted
  | done => cases goes

theorem Advance.Goes.ne {p p' : Processor} {a a' : Advance} (goes : a.Goes p a' p') : a' ≠ a := by
  cases goes <;> simp

/-- The machine with its history, and the thread that lets time pass. -/
structure Advancing where
  machine : Machine
  history : History
  thread : Advance

namespace Advancing

inductive Step (x : Advancing) : Advancing → Prop
  | machine {m : Machine} {h : History} (next : x.machine.Next x.history m h)
      (alone : x.machine.Alone x.history m h) : Step x ⟨m, h, x.thread⟩
  | thread {a : Advance} {cpu : Processor} (goes : x.thread.step x.machine.cpu = some (a, cpu)) :
      Step x ⟨x.machine.setCpu cpu, x.history, a⟩

abbrev Reaches : Advancing → Advancing → Prop := Relation.ReflTransGen Step

variable {x₀ x y w : Advancing} {config : Config} {n : Nat}

/-- The thread does nothing that may not be done from outside. -/
theorem Step.run (run : Machine.Run config x.machine x.history) (step : Step x y) :
    Machine.Run config y.machine y.history := by
  obtain ⟨m, h, a⟩ := x
  cases step with
  | machine next => exact run.next next
  | thread goes =>
    cases Advance.goes_of_step goes with
    | settles | ends | aims | arrives => exact run
    | delivers pended => exact run.pend timerLine (congrArg (Option.map _) pended)

theorem Step.hasTimer (run : Machine.Run config x.machine x.history) (step : Step x y)
    (timer : x.machine.HasTimer timerLine) : y.machine.HasTimer timerLine := by
  obtain ⟨m, h, a⟩ := x
  cases step with
  | machine next alone => exact (next.lined run alone timer).hasTimer timer
  | thread goes =>
    cases Advance.goes_of_step goes with
    | settles | ends | aims | arrives => exact timer
    | delivers pended =>
      exact (congrArg Line.handler (Processor.line_pend pended)).trans timer

structure Ready (config : Config) (x : Advancing) : Prop where
  run : Machine.Run config x.machine x.history
  timer : x.machine.HasTimer timerLine

theorem Reaches.ready (reaches : Reaches x y) (ready : Ready config x) : Ready config y := by
  induction reaches with
  | refl => exact ready
  | tail _ step ih => exact ⟨step.run ih.run, step.hasTimer ih.run ih.timer⟩

def Pended (x : Advancing) : Prop := (x.machine.cpu.line timerLine).pended = true

/-- In the last state in which nothing went on the thread has pended the timer's line. -/
structure Rises (x₀ w x : Advancing) : Prop where
  reached : Reaches x₀ w
  later : Reaches w x
  quiescent : w.machine.cpu.isQuiescent = true
  asleep : w.machine.Asleep w.history
  delivers : ∃ target left, w.thread = .deliver target left
  history : x.history = w.history
  roused : w.machine.Roused x.machine

/-- How far the delivery of `n` interrupts has come that began in `x₀`. -/
inductive Progress (x₀ : Advancing) (n : Nat) (x : Advancing) : Prop
  | settles {left : Nat} (thread : x.thread = .settle left) (clear : ¬ x.Pended)
      (taken : x.history.interrupts + left = x₀.history.interrupts + n)
  | aims {left : Nat} (thread : x.thread = .aim left) (more : 0 < left) (clear : ¬ x.Pended)
      (quiescent : x.machine.cpu.isQuiescent = true)
      (taken : x.history.interrupts + left = x₀.history.interrupts + n)
  | delivers {target left : Nat} (thread : x.thread = .deliver target left) (more : 0 < left)
      (clear : ¬ x.Pended) (quiescent : x.machine.cpu.isQuiescent = true)
      (next : target = x.history.interrupts + 1)
      (taken : x.history.interrupts + left = x₀.history.interrupts + n)
  | pended {target left : Nat} {w : Advancing} (thread : x.thread = .await target left)
      (more : 0 < left) (pended : x.Pended) (rises : Rises x₀ w x)
      (next : target = x.history.interrupts + 1)
      (taken : x.history.interrupts + left = x₀.history.interrupts + n)
  | taken {target left : Nat} (thread : x.thread = .await target left) (more : 0 < left)
      (clear : ¬ x.Pended) (now : target = x.history.interrupts)
      (taken : x.history.interrupts + left = x₀.history.interrupts + n + 1)
  | done (thread : x.thread = .done) (clear : ¬ x.Pended)
      (quiescent : x.machine.cpu.isQuiescent = true)
      (taken : x.history.interrupts = x₀.history.interrupts + n)

theorem Ready.pended_asks (ready : Ready config x) (pended : x.Pended) :
    x.machine.cpu.asks (.line timerLine) = true :=
  Processor.isEligible_iff.mpr ⟨pended, _, ready.timer⟩

/-- The processor goes on. -/
theorem Progress.machine {m' : Machine} {h' : History} (progress : Progress x₀ n x)
    (ready : Ready config x) (next : x.machine.Next x.history m' h')
    (alone : x.machine.Alone x.history m' h') : Progress x₀ n ⟨m', h', x.thread⟩ := by
  have lined := next.lined ready.run alone ready.timer
  have still (quiescent : x.machine.cpu.isQuiescent = true) : Progress x₀ n ⟨m', h', x.thread⟩ := by
    obtain ⟨rfl, rfl⟩ := next.eq_of_quiescent ready.run quiescent alone
    exact progress
  cases progress with
  | aims _ _ _ quiescent | delivers _ _ _ quiescent | done _ _ quiescent => exact still quiescent
  | settles thread clear taken =>
    obtain ⟨interrupts, clear'⟩ := lined.of_clear clear
    exact .settles thread clear' (interrupts ▸ taken)
  | taken thread more clear now taken =>
    obtain ⟨interrupts, clear'⟩ := lined.of_clear clear
    exact .taken thread more clear' (interrupts ▸ now) (interrupts ▸ taken)
  | pended thread more pended rises target taken =>
    have none := (Processor.isQuiescent_iff.mp rises.quiescent).2
    rcases rises.roused.next ready.run none ready.timer next alone with ⟨roused, rfl⟩ | rfl
    · have pended' : Pended ⟨m', x.history, x.thread⟩ :=
        (congrArg Line.pended lined.still).trans pended
      exact .pended thread more pended'
        { rises with later := rises.later.tail (.machine next alone), roused } target taken
    · refine .taken thread more lined.of_entered.2 target ?_
      change x.history.interrupts + 1 + _ = _
      omega

/-- The thread goes on. -/
theorem Progress.thread {a : Advance} {cpu : Processor} (progress : Progress x₀ n x)
    (ready : Ready config x) (reached : Reaches x₀ x)
    (goes : x.thread.step x.machine.cpu = some (a, cpu)) :
    Progress x₀ n ⟨x.machine.setCpu cpu, x.history, a⟩ := by
  have moves := Advance.goes_of_step goes
  cases progress with
  | settles thread clear taken =>
    rw [thread] at moves
    cases moves with
    | settles quiescent more => exact .aims rfl more clear quiescent taken
    | ends quiescent => exact .done rfl clear quiescent taken
  | aims thread more clear quiescent taken =>
    rw [thread] at moves
    cases moves with
    | aims =>
      have counted := (ready.run.asleep quiescent).counted
      exact .delivers rfl more clear quiescent (congrArg (· + 1) counted) taken
  | delivers thread more clear quiescent target taken =>
    rw [thread] at moves
    cases moves with
    | delivers pended =>
      have line := Processor.line_pend pended
      have asleep := ready.run.asleep quiescent
      have roused : x.machine.Roused (x.machine.setCpu cpu) := by
        obtain ⟨lines, rfl⟩ := Processor.lines_of_updateLine pended
        exact ⟨⟨_, _, pended, rfl⟩, rfl, fun c _ => by cases c <;> rfl, .inl asleep.idle⟩
      exact .pended rfl more (congrArg Line.pended line)
        ⟨reached, .single (.thread goes), quiescent, asleep, ⟨_, _, thread⟩, rfl, roused⟩ target
        taken
  | pended thread more pended rises target taken =>
    rw [thread] at moves
    cases moves with
    | arrives counted =>
      have context := ready.run.idle_context rises.roused.stage
      have before := (ready.run.unserved (by simp [context])).counted
      exact absurd counted (by omega)
  | @taken _ left thread more clear now taken =>
    rw [thread] at moves
    cases moves with
    | arrives counted =>
      have rest : x.history.interrupts + (left - 1) = x₀.history.interrupts + n := by omega
      exact .settles rfl clear rest
  | done thread =>
    rw [thread] at moves
    cases moves

theorem Reaches.progress (ready : Ready config x₀) (start : Progress x₀ n x₀)
    (reaches : Reaches x₀ x) : Progress x₀ n x := by
  induction reaches with
  | refl => exact start
  | tail reached step progress =>
    have ready' := Reaches.ready reached ready
    cases step with
    | machine next alone => exact progress.machine ready' next alone
    | thread goes => exact progress.thread ready' reached goes

/-- The timer's interrupt is taken from an idle task that slept when the thread pended its line. -/
theorem Progress.rises {m' : Machine} (progress : Progress x₀ n x) (ready : Ready config x)
    (next : x.machine.Next x.history m' (.entered .timer :: x.history))
    (alone : x.machine.Alone x.history m' (.entered .timer :: x.history)) :
    ∃ w, Rises x₀ w x := by
  have due : x.Pended := (next.lined ready.run alone ready.timer).of_entered.1
  cases progress with
  | pended thread more pended rises => exact ⟨_, rises⟩
  | settles _ clear | aims _ _ clear | delivers _ _ clear | taken _ _ clear | done _ clear =>
    exact absurd due clear

structure Delivered (n : Nat) (x₀ x : Advancing) : Prop where
  interrupts : x.history.interrupts = x₀.history.interrupts + n
  counted : x.machine.cpu.tickCount = x₀.machine.cpu.tickCount + n
  ticked : x.history.ticks = x₀.history.ticks + n
  quiescent : x.machine.cpu.isQuiescent = true
  asleep : x.machine.Asleep x.history

theorem Progress.delivered (progress : Progress x₀ n x) (ready : Ready config x)
    (time : x₀.machine.Unserved x₀.history) (ended : x.thread = .done) : Delivered n x₀ x := by
  cases progress with
  | done thread clear quiescent taken =>
    have asleep := ready.run.asleep quiescent
    refine ⟨taken, ?_, ?_, quiescent, asleep⟩
    · rw [asleep.counted, taken, time.counted]
    · rw [asleep.ticked, taken, time.ticked]
  | settles thread | aims thread | delivers thread | pended thread | taken thread =>
    cases thread.symm.trans ended

/-- No more interrupts are taken than were asked for. -/
theorem Progress.taken_le (progress : Progress x₀ n x) :
    x.history.interrupts ≤ x₀.history.interrupts + n := by
  cases progress <;> omega

/-- Each step of the thread brings it nearer to its end. -/
theorem Progress.rank_lt {a : Advance} {p : Processor} (progress : Progress x₀ n x)
    (goes : x.thread.Goes x.machine.cpu a p) : a.rank < x.thread.rank := by
  cases progress with
  | settles thread | aims thread | delivers thread | pended thread | taken thread | done thread =>
    rw [thread] at goes ⊢
    cases goes <;> simp only [Advance.rank] <;> omega

/-- A thread that waits for nothing but the processor goes on where nothing goes on there. -/
theorem Progress.goes (progress : Progress x₀ n x) (ready : Ready config x)
    (quiescent : x.machine.cpu.isQuiescent = true) (more : x.thread ≠ .done) :
    x.thread.step x.machine.cpu ≠ none := by
  cases progress with
  | settles thread | aims thread => simp [thread, Advance.step, quiescent]
  | delivers thread =>
    obtain ⟨cpu, pended⟩ := ready.timer.pend
    simp [thread, Advance.step, pended]
  | pended thread more pended =>
    have none := (Processor.isQuiescent_iff.mp quiescent).2
    exact Bool.noConfusion ((ready.pended_asks pended).symm.trans (Processor.not_asks none _))
  | taken thread more clear now =>
    have counted := (ready.run.asleep quiescent).counted
    simp [thread, Advance.step, now, counted]
  | done thread => exact absurd thread more

/-- A course of events in which neither is kept waiting for ever: the thread goes on where it can,
and the processor settles while the thread waits. -/
structure Course (σ : Nat → Advancing) : Prop where
  steps (i : Nat) : Step (σ i) (σ (i + 1)) ∨ σ (i + 1) = σ i
  fair (i : Nat) : ∃ j, i ≤ j ∧ ((σ j).thread.step (σ j).machine.cpu = none ∨
    (σ (j + 1)).thread ≠ (σ j).thread)
  settles (i : Nat) : ∃ j, i ≤ j ∧ ((σ j).machine.cpu.isQuiescent = true ∨
    (σ (j + 1)).thread ≠ (σ j).thread)

/-- Nothing happens on a processor on which nothing goes on, unless the thread moves. -/
theorem Step.eq_of_quiescent (run : Machine.Run config x.machine x.history)
    (quiescent : x.machine.cpu.isQuiescent = true) (step : Step x y)
    (same : y.thread = x.thread) : y = x := by
  cases step with
  | machine next alone =>
    obtain ⟨rfl, rfl⟩ := next.eq_of_quiescent run quiescent alone
    rfl
  | thread goes => exact absurd same (Advance.goes_of_step goes).ne

namespace Course

variable {σ : Nat → Advancing}

theorem reaches (course : Course σ) (i : Nat) : Reaches (σ 0) (σ i) := by
  induction i with
  | zero => exact .refl
  | succ i ih =>
    rcases course.steps i with step | same
    · exact ih.tail step
    · rw [same]
      exact ih

theorem rank_succ (course : Course σ) (progress : ∀ i, Progress x₀ n (σ i)) (i : Nat) :
    (σ (i + 1)).thread = (σ i).thread ∨ (σ (i + 1)).thread.rank < (σ i).thread.rank := by
  rcases course.steps i with step | same
  · generalize σ (i + 1) = y at step ⊢
    cases step with
    | machine => exact .inl rfl
    | thread goes => exact .inr ((progress i).rank_lt (Advance.goes_of_step goes))
  · exact .inl (congrArg thread same)

theorem rank_le (course : Course σ) (progress : ∀ i, Progress x₀ n (σ i)) {i j : Nat}
    (later : i ≤ j) : (σ j).thread.rank ≤ (σ i).thread.rank := by
  refine antitone_nat_of_succ_le (f := fun i => (σ i).thread.rank) (fun i => ?_) later
  rcases course.rank_succ progress i with same | less
  · exact Nat.le_of_eq (congrArg Advance.rank same)
  · exact Nat.le_of_lt less

/-- The thread does not wait for ever. -/
theorem moves (course : Course σ) (ready : ∀ i, Ready config (σ i))
    (progress : ∀ i, Progress x₀ n (σ i)) {i : Nat} (more : (σ i).thread ≠ .done) :
    ∃ j, i ≤ j ∧ (σ (j + 1)).thread ≠ (σ j).thread := by
  by_contra never
  have waits (j : Nat) (later : i ≤ j) : (σ (j + 1)).thread = (σ j).thread := by
    by_contra moved
    exact never ⟨j, later, moved⟩
  have thread (j : Nat) (later : i ≤ j) : (σ j).thread = (σ i).thread := by
    induction j, later using Nat.le_induction with
    | base => rfl
    | succ j later ih => exact (waits j later).trans ih
  obtain ⟨j, later, settled⟩ := course.settles i
  have quiescent := settled.resolve_right fun moved => moved (waits j later)
  have still (k : Nat) (after : j ≤ k) : σ k = σ j := by
    induction k, after using Nat.le_induction with
    | base => rfl
    | succ k after ih =>
      rcases course.steps k with step | same
      · refine (step.eq_of_quiescent (ready k).run ?_ (waits k (Nat.le_trans later after))).trans ih
        rw [ih]
        exact quiescent
      · exact same.trans ih
  obtain ⟨k, after, none | moved⟩ := course.fair j
  · rw [still k after] at none
    exact (progress j).goes (ready j) quiescent ((thread j later).symm ▸ more) none
  · exact moved (waits k (Nat.le_trans later after))

theorem ends (course : Course σ) (ready : ∀ i, Ready config (σ i))
    (progress : ∀ i, Progress x₀ n (σ i)) : ∃ i, (σ i).thread = .done := by
  have bounded (rank i : Nat) (within : (σ i).thread.rank < rank) :
      ∃ i, (σ i).thread = .done := by
    induction rank generalizing i with
    | zero => exact absurd within (Nat.not_lt_zero _)
    | succ rank ih =>
      by_cases more : (σ i).thread = .done
      · exact ⟨i, more⟩
      · obtain ⟨j, later, moved⟩ := course.moves ready progress more
        have before := course.rank_le progress later
        have after := (course.rank_succ progress j).resolve_left moved
        exact ih (j + 1) (by omega)
  exact bounded _ 0 (Nat.lt_succ_self _)

end Course

/-- The thread has the timer's handler run as often as it was asked to. Each time the processor was
asleep when the line was pended, and all that came of the last time is over when the thread ends. It
ends in every course of events, if the processor settles whenever the thread waits for it. -/
theorem advances (run : Machine.Run config x₀.machine x₀.history) (begins : x₀.thread = .settle n)
    (timer : x₀.machine.HasTimer timerLine) (clear : ¬ x₀.Pended)
    (idle : x₀.machine.serving ≠ some .timer) :
    (∀ x, Reaches x₀ x → x.history.interrupts ≤ x₀.history.interrupts + n ∧
      (∀ m, x.machine.Next x.history m (.entered .timer :: x.history) →
        x.machine.Alone x.history m (.entered .timer :: x.history) → ∃ w, Rises x₀ w x) ∧
      (x.thread = .done → Delivered n x₀ x)) ∧
    ∀ σ, σ 0 = x₀ → Course σ → ∃ i, (σ i).thread = .done := by
  have ready : Ready config x₀ := ⟨run, timer⟩
  have start : Progress x₀ n x₀ := .settles begins clear rfl
  have time : x₀.machine.Unserved x₀.history := by
    cases run.timekeeping with
    | unserved unserved => exact unserved
    | serves serves => exact absurd serves.serving idle
  constructor
  · intro x reached
    have progress := reached.progress ready start
    have ready' := reached.ready ready
    refine ⟨progress.taken_le, fun m next alone => ?_, fun ended => ?_⟩
    · exact progress.rises ready' next alone
    · exact progress.delivered ready' time ended
  · rintro σ rfl course
    have ready' (i : Nat) := (course.reaches i).ready ready
    exact course.ends ready' fun i => (course.reaches i).progress ready start

def turn (x : Advancing) : Advancing :=
  match x.thread.step x.machine.cpu with
  | some (a, cpu) => ⟨x.machine.setCpu cpu, x.history, a⟩
  | none =>
    if x.machine.cpu.isQuiescent then x
    else if x.machine.activity = .application then
      ⟨x.machine.call (.sleep 1), .called x.machine.context (.sleep 1) :: x.history, x.thread⟩
    else match Machine.followStep (x.machine, x.history) with
      | some y => ⟨y.1, y.2, x.thread⟩
      | none => x

theorem step_turn (x : Advancing) : Step x x.turn ∨ x.turn = x := by
  unfold turn
  split
  · rename_i goes
    exact .inl (.thread goes)
  · split
    · exact .inr rfl
    · split
      · rename_i free
        refine .inl (.machine (.call free (.sleep 1) ⟨trivial, by decide⟩) (.lines ?_))
        exact congrArg Processor.lines (Machine.cpu_setActivity ..)
      · split
        · rename_i followed
          obtain ⟨busy, alive, rfl⟩ := Machine.step_of_followStep followed
          refine .inl (.machine (.step busy alive) ?_)
          rcases (Machine.stepped_of_alive alive).lines (h := x.history) with same | ⟨_, taken⟩
          · exact .lines same
          · exact taken.alone
        · exact .inr rfl

/-- Taking turns keeps nobody waiting, if in the end there is nothing left to do. -/
theorem course_turn {i : Nat} (ended : (turn^[i] x).thread = .done)
    (quiescent : (turn^[i] x).machine.cpu.isQuiescent = true) : Course fun i => turn^[i] x := by
  have last : (turn^[i] x).turn = turn^[i] x := by simp [turn, ended, Advance.step, quiescent]
  have still (j : Nat) (later : i ≤ j) : turn^[j] x = turn^[i] x := by
    obtain ⟨k, rfl⟩ := Nat.exists_eq_add_of_le' later
    rw [Function.iterate_add_apply, Function.iterate_fixed last]
  refine ⟨fun j => ?_, fun j => ⟨max i j, Nat.le_max_right i j, .inl ?_⟩,
    fun j => ⟨max i j, Nat.le_max_right i j, .inl ?_⟩⟩
  · simp only [Function.iterate_succ_apply']
    exact step_turn _
  · simp only [still _ (Nat.le_max_left i j), ended, Advance.step]
  · simp only [still _ (Nat.le_max_left i j), quiescent]

def sleepy : Option (Machine × History) :=
  Machine.follow (Machine.initial
    { maxTasks := 1, arenaStart := 4096, arenaSize := 512, timeSlice := 0 }, [])
    [.call (.createTask "sleeper" 256 5 0 0), .steps 4, .launch, .steps 1]

theorem advances_sleepy : ∃ x₀ σ, Machine.Run
    { maxTasks := 1, arenaStart := 4096, arenaSize := 512, timeSlice := 0 }
    x₀.machine x₀.history ∧ x₀.thread = .settle 2 ∧ x₀.machine.HasTimer timerLine ∧
    ¬ x₀.Pended ∧ x₀.machine.serving ≠ some .timer ∧ σ 0 = x₀ ∧ Course σ ∧
    ∃ i, (σ i).thread = .done ∧ Delivered 2 x₀ (σ i) := by
  obtain ⟨x, hx⟩ := Option.isSome_iff_exists.mp (show sleepy.isSome = true by decide +kernel)
  have facts : sleepy.map (fun x => (x.1.cpu.line timerLine, x.1.serving)) =
      some ({ pended := false, handler := some .timer }, none) := by decide +kernel
  have last : sleepy.map (fun x => ((turn^[59] ⟨x.1, x.2, .settle 2⟩).thread,
      (turn^[59] ⟨x.1, x.2, .settle 2⟩).machine.cpu.isQuiescent)) =
      some (.done, true) := by decide +kernel
  rw [hx] at facts last
  obtain ⟨line, serving⟩ := Prod.mk.inj (Option.some.inj facts)
  obtain ⟨ended, quiescent⟩ := Prod.mk.inj (Option.some.inj last)
  have run := Machine.run_of_follow hx
  have timer : x.1.HasTimer timerLine := congrArg Line.handler line
  have clear : ¬ Pended ⟨x.1, x.2, .settle 2⟩ := by simp [Pended, line]
  have idle : x.1.serving ≠ some .timer := by simp [serving]
  have course := course_turn ended quiescent
  obtain ⟨always, ends⟩ := advances run rfl timer clear idle
  obtain ⟨i, ended⟩ := ends _ rfl course
  obtain ⟨-, -, delivered⟩ := always _ (course.reaches i)
  exact ⟨_, _, run, rfl, timer, clear, idle, rfl, course, i, ended, delivered ended⟩

end Advancing

end TaskKernel
