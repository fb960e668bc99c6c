import TaskKernel.Proofs.Run.Script
import TaskKernel.Proofs.Run.Tasks

namespace TaskKernel

structure Clock where
  ticks : Nat := 0
  runs : Bool := true
  deriving DecidableEq

def Clock.tick (k : Clock) : Clock := if k.runs then { k with ticks := k.ticks + 1 } else k

def Exit.clock (k : Option Clock) : Exit → Option Clock
  | .leave (.yield ..) => some { k.getD {} with runs := true }
  | _ => k.map fun k => { k with runs := false }

/-- The clock of the call of a context, from the moment the call first blocks. -/
def History.clock (c : Context) : History → Option Clock
  | [] => none
  | .called c' _ :: h => if c' = c then none else clock c h
  | .entered _ :: h => if c = .handler then none else clock c h
  | .ran c' before sec :: h =>
    if c' = c then (sec.run before).2.clock (clock c h)
    else if sec = .tick then (clock c h).map Clock.tick
    else clock c h
  | _ :: h => clock c h

def Ticks.after (n k : Nat) : Ticks :=
  if n = forever then forever else if k < n then n - k else expired

/-- The call has blocked and has not gone on. -/
def Stage.isWaiting : Stage → Bool
  | .yield .. => true
  | .reenter .. => true
  | .enter (.wake ..) => true
  | _ => false

def Section.isEarly : Section → Bool
  | .pause .. => true
  | .exit => true
  | .seek .. => true
  | .startAdd .. => true
  | .startFlush .. => true
  | .startMulti .. => true
  | .checkNoRing .. => true
  | _ => false

/-- What a call may return, given the ticks for which it waited. -/
structure Call.Answers (call : Call) (clock : Option Clock) (r : Reply) : Prop where
  timeout : r = .failed .timeout → call.budget ≠ Ticks.forever ∧
    (call.budget = Ticks.expired ∨ ∃ k, clock = some k ∧ call.budget ≤ k.ticks)
  wouldBlock : r = .failed .wouldBlock → call.nowait = true
  sleep (n : Ticks) : call = .sleep n → n ≠ Ticks.forever →
    ∃ k, clock = some k ∧ call.budget ≤ k.ticks
  blockOn (wait : WaitState) (n : Ticks) (x : Nat) : call = .blockOn wait n → n ≠ Ticks.forever →
    r = .number x → ∃ k, clock = some k ∧ k.ticks < n ∧ x = n - k.ticks

structure Call.Timed (call : Call) (k : Kernel) (h : History) (c : Context) (stage : Stage) :
    Prop where
  waiting : stage.isWaiting = true → ∃ t ticks, c = .task t ∧ t ≠ TaskId.idle ∧
    t ≤ k.taskCount ∧ h.clock c = some { ticks, runs := true } ∧ call.budget < Ticks.expired ∧
    (k.task t).timeout = Ticks.after call.budget ticks ∧
    ∀ n, call = .sleep n → (k.task t).wait = .timer ∨
      ((k.task t).wait = .run ∧ (k.task t).timeout = Ticks.expired)
  resting : stage.isWaiting = false → ∀ k, h.clock c = some k → k.runs = false
  early (sec : Section) : stage = .enter sec → sec.isEarly = true → h.clock c = none
  answers (r : Reply) : stage = .return r → call.Answers (h.clock c) r

namespace Ticks

theorem after_forever (k : Nat) : after forever k = forever := if_pos rfl

theorem after_of_lt {n k : Nat} (hk : k < n) : after n k = n - k := by
  unfold after
  rw [if_neg (show n ≠ forever from Nat.ne_of_gt (Nat.zero_lt_of_lt hk)), if_pos hk]

theorem after_of_le {n k : Nat} (hn : n ≠ forever) (hk : n ≤ k) : after n k = expired := by
  unfold after
  rw [if_neg hn, if_neg (Nat.not_lt_of_le hk)]

theorem after_zero (n : Nat) : after n 0 = n := by
  rcases Nat.eq_zero_or_pos n with rfl | hn
  · exact after_forever 0
  · exact after_of_lt hn

theorem countDown_of_lt {n : Nat} (some : n ≠ forever) (left : n < expired) :
    countDown n = if n = 1 then expired else n - 1 :=
  if_neg fun h => h.elim some (Nat.ne_of_lt left)

/-- A tick takes one off. -/
theorem countDown_after {n k : Nat} (hn : n < expired) :
    countDown (after n k) = after n (k + 1) := by
  by_cases h0 : n = forever
  · subst h0
    rw [after_forever, after_forever]
    rfl
  by_cases hk : k < n
  · have some : n - k ≠ forever := Nat.sub_ne_zero_of_lt hk
    have left : n - k < expired := Nat.lt_of_le_of_lt (Nat.sub_le n k) hn
    rw [after_of_lt hk, countDown_of_lt some left]
    by_cases last : n - k = 1
    · rw [if_pos last, after_of_le h0]
      omega
    · rw [if_neg last, after_of_lt (by omega)]
      exact Nat.sub_sub n k 1
  · have elapsed := Nat.le_of_not_lt hk
    rw [after_of_le h0 elapsed, after_of_le h0 (Nat.le_succ_of_le elapsed)]
    rfl

theorem after_eq_expired {n k : Nat} (hn : n < expired) (h : after n k = expired) :
    n ≠ forever ∧ n ≤ k := by
  by_cases h0 : n = forever
  · subst h0
    rw [after_forever] at h
    cases h
  refine ⟨h0, Nat.le_of_not_lt fun hk => ?_⟩
  rw [after_of_lt hk] at h
  exact Nat.ne_of_lt (Nat.lt_of_le_of_lt (Nat.sub_le n k) hn) h

theorem after_eq_left {n k : Nat} (hn : n ≠ forever) (h : after n k ≠ expired) :
    k < n ∧ after n k = n - k := by
  have hk : k < n := Nat.lt_of_not_le fun elapsed => h (after_of_le hn elapsed)
  exact ⟨hk, after_of_lt hk⟩

end Ticks

variable {call : Call} {k k' : Kernel} {h h' : History} {c c₀ : Context} {stage next : Stage}
  {s s' s₀ : System} {sec : Section} {g : Goal} {r : Reply}

namespace Call

/-- A reply that is not a failure, to a call that does not wait for the time alone. -/
theorem Answers.of_success {clock : Option Clock} (succeeds : ∀ e, r ≠ .failed e)
    (awake : ∀ n, call = .sleep n → n = Ticks.forever) (brief : ∀ wait n, call ≠ .blockOn wait n) :
    call.Answers clock r :=
  ⟨fun he => absurd he (succeeds _), fun he => absurd he (succeeds _),
    fun n hn some => absurd (awake n hn) some, fun wait n _ hn => absurd hn (brief wait n)⟩

theorem Answers.not_failed {clock : Option Clock} (answers : call.Answers clock r)
    (free : call.budget = Ticks.forever) (must : call.nowait = false) (e : WaitError) :
    r ≠ .failed e := by
  intro failed
  cases e with
  | timeout => exact (answers.timeout failed).1 free
  | wouldBlock =>
    rw [answers.wouldBlock failed] at must
    cases must

theorem ne_of_seeks (seeks : call.Seeks g) :
    (∀ n, call = .sleep n → n = Ticks.forever) ∧ ∀ wait n, call ≠ .blockOn wait n := by
  cases seeks <;> exact ⟨fun n hn => (by cases hn), fun wait n hn => (by cases hn)⟩

theorem Answers.of_seeks {clock : Option Clock} (seeks : call.Seeks g)
    (succeeds : ∀ e, r ≠ .failed e) : call.Answers clock r :=
  .of_success succeeds (ne_of_seeks seeks).1 (ne_of_seeks seeks).2

/-- The same task entries but for those of other tasks, and the same clock. -/
theorem Timed.carry (timed : call.Timed k h c stage) (clock : h'.clock c = h.clock c)
    (count : k.taskCount ≤ k'.taskCount)
    (task : ∀ t, c = .task t → t ≠ TaskId.idle → t ≤ k.taskCount →
      (k'.task t).timeout = (k.task t).timeout ∧ ((k'.task t).wait = (k.task t).wait ∨
        (k'.task t).wait = .run ∧
          ((k.task t).wait = .timer → (k.task t).timeout = Ticks.expired))) :
    call.Timed k' h' c stage := by
  constructor
  · intro waits
    obtain ⟨t, ticks, hc, busy, old, hclock, left, timeout, asleep⟩ := timed.waiting waits
    obtain ⟨same, wait⟩ := task t hc busy old
    refine ⟨t, ticks, hc, busy, Nat.le_trans old count, clock.trans hclock, left,
      same.trans timeout, fun n hn => ?_⟩
    rw [same]
    rcases wait with hw | ⟨hw, chosen⟩
    · rw [hw]
      exact asleep n hn
    · rcases asleep n hn with timer | ⟨-, elapsed⟩
      · exact .inr ⟨hw, chosen timer⟩
      · exact .inr ⟨hw, elapsed⟩
  · rw [clock]
    exact timed.resting
  · rw [clock]
    exact timed.early
  · rw [clock]
    exact timed.answers

theorem Timed.of_board (timed : call.Timed k h c stage) (clock : h'.clock c = h.clock c)
    (board : k'.board = k.board) : call.Timed k' h' c stage := by
  refine timed.carry clock (Nat.le_of_eq (Kernel.taskCount_of_board board).symm) fun t _ _ _ => ?_
  rw [Kernel.task_of_board board]
  exact ⟨rfl, .inl rfl⟩

/-- A dispatch ends a wait for the time alone only when the time is over. -/
theorem Timed.dispatch {xs : List TaskId} (timed : call.Timed k h c stage)
    (clock : h'.clock c = h.clock c) (dispatched : k.Dispatched xs)
    (count : k.taskCount ≤ k.dispatch.taskCount) : call.Timed k.dispatch h' c stage := by
  refine timed.carry clock count fun t _ busy _ => ?_
  rw [dispatched.task]
  split
  · rename_i chosen
    refine ⟨rfl, .inr ⟨rfl, fun timer => ?_⟩⟩
    have choice := dispatched.chosen
    rw [chosen.2] at choice
    cases choice with
    | candidate member ready least =>
      unfold Kernel.isCandidate at ready
      rw [timer] at ready
      simpa [Kernel.holds] using ready
    | suspended member waits unready =>
      rw [timer] at waits
      cases waits
    | idle => exact absurd rfl busy
  · exact ⟨rfl, .inl rfl⟩

end Call

theorem Stage.Goes.isWaiting (goes : stage.Goes next) : next.isWaiting = stage.isWaiting := by
  cases goes with
  | cpu succeeds lock => rcases lock with rfl | rfl | rfl | rfl <;> rfl
  | _ => rfl

namespace Call

/-- Open code leaves the clock alone and returns no failure. -/
theorem Timed.code (timed : call.Timed k h c stage) (stays : call.At c stage)
    (goes : stage.Goes next) : call.Timed k h c next := by
  refine ⟨fun waits => timed.waiting (goes.isWaiting ▸ waits), fun rests => timed.resting
    (goes.isWaiting ▸ rests), fun sec hs early => ?_, fun r hr => ?_⟩
  · subst hs
    cases goes with
    | enter => exact timed.early sec rfl early
    | reenter | useHeap | leftRing | copyIn | copyOut | readCell | timer => cases early
  · subst hr
    cases goes with
    | leftHeap succeeds =>
      cases stays with
      | leftHeap seeks => exact .of_seeks seeks succeeds
    | removed =>
      cases stays
      exact .of_seeks .remove (by simp)
    | read =>
      cases stays
      exact .of_success (by simp) (by simp) (by simp)
    | cpu succeeds lock =>
      rcases lock with rfl | rfl | rfl | rfl <;> cases stays <;>
        exact .of_success succeeds (by simp) (by simp)

theorem clock_ran (other : c₀ ≠ c) :
    History.clock c (.ran c₀ s sec :: h) =
      if sec = .tick then (h.clock c).map Clock.tick else h.clock c := if_neg other

theorem clock_ran_self (ran : sec.run s = (s', .leave next)) :
    History.clock c (.ran c s sec :: h) = (Exit.leave next).clock (h.clock c) := by
  refine (if_pos rfl).trans ?_
  rw [ran]

/-- A tick takes one off what the waiting calls have left. -/
theorem Timed.tick (timed : call.Timed s.kernel h c stage) (other : c₀ ≠ c) :
    call.Timed s.kernel.tick.1 (.ran c₀ s .tick :: h) c stage := by
  have clock : History.clock c (.ran c₀ s .tick :: h) = (h.clock c).map Clock.tick :=
    clock_ran other
  have count : s.kernel.tick.1.taskCount = s.kernel.taskCount :=
    Kernel.taskCount_of_lineup (by
      obtain ⟨tasks, journal, ht⟩ := s.kernel.tick_eq
      rw [ht]
      rfl)
  cases waits : stage.isWaiting with
  | true =>
    refine ⟨fun _ => ?_, fun rests => (by rw [waits] at rests; cases rests), ?_, ?_⟩
    · obtain ⟨t, ticks, hc, busy, old, hclock, left, timeout, asleep⟩ := timed.waiting waits
      obtain ⟨slice, after⟩ := s.kernel.task_tick t
      rw [if_pos ⟨Nat.pos_of_ne_zero busy, old⟩, timeout, Ticks.countDown_after left] at after
      refine ⟨t, ticks + 1, hc, busy, count ▸ old, ?_, left, by rw [after], fun n hn => ?_⟩
      · rw [clock, hclock]
        rfl
      · rw [after]
        refine (asleep n hn).imp id fun ⟨run, elapsed⟩ => ⟨run, ?_⟩
        rw [timeout] at elapsed
        have spent := Ticks.after_eq_expired left elapsed
        exact Ticks.after_of_le spent.1 (Nat.le_succ_of_le spent.2)
    · intro sec he early
      subst he
      rw [clock, timed.early sec rfl early]
      rfl
    · intro r he
      subst he
      cases waits
  | false =>
    have same : History.clock c (.ran c₀ s .tick :: h) = h.clock c := by
      rw [clock]
      cases hk : h.clock c with
      | none => rfl
      | some k =>
        have := timed.resting waits k hk
        simp [Clock.tick, this]
    refine ⟨fun hw => (by rw [waits] at hw; cases hw), fun _ => ?_, ?_, ?_⟩
    · rw [same]
      exact timed.resting waits
    · rw [same]
      exact timed.early
    · rw [same]
      exact timed.answers

/-- The sections of other contexts. -/
theorem Timed.ran_other {call₀ : Call} (timed : call.Timed s.kernel h c stage)
    (runs : call₀.Runs c₀ sec) (here : RunsAs s c₀) (other : c₀ ≠ c)
    (ran : sec.run s = (s', .leave next)) :
    call.Timed s'.kernel (.ran c₀ s sec :: h) c stage := by
  by_cases tick : sec = .tick
  · subst tick
    rw [(Section.tick_eq ran).1]
    exact timed.tick other
  · have left := Section.left_of_run ran
    refine timed.carry ((clock_ran other).trans (if_neg tick)) left.ordered.taskCount
      fun t hc _ old => ?_
    rw [left.task_other runs here (fun he => other (he.trans hc.symm)) old tick]
    exact ⟨rfl, .inl rfl⟩

/-- The call blocks, or blocks again. -/
theorem Timed.blocked {t : TaskId} {w : Waiter} {ticks : Nat}
    (clock : h'.clock (.task t) = some { ticks, runs := true }) (busy : t ≠ TaskId.idle)
    (old : t ≤ k.taskCount) (left : call.budget < Ticks.expired)
    (timeout : (k.task t).timeout = Ticks.after call.budget ticks)
    (asleep : ∀ n, call = .sleep n → (k.task t).wait = .timer ∨
      ((k.task t).wait = .run ∧ (k.task t).timeout = Ticks.expired)) :
    call.Timed k h' (.task t) (.yield t w) := by
  refine ⟨fun _ => ⟨t, ticks, rfl, busy, old, clock, left, timeout, asleep⟩, ?_, ?_, ?_⟩
  · intro rests
    cases rests
  · intro sec hs
    cases hs
  · intro r hr
    cases hr

/-- The call goes on without waiting. -/
theorem Timed.gone (rests : next.isWaiting = false)
    (clock : h'.clock c = (h.clock c).map fun k => { k with runs := false })
    (early : ∀ sec, next = .enter sec → sec.isEarly = true → h.clock c = none)
    (answers : ∀ r, next = .return r →
      call.Answers ((h.clock c).map fun k => { k with runs := false }) r) :
    call.Timed k h' c next := by
  refine ⟨fun waits => ?_, fun _ k hk => ?_, fun sec hs he => ?_, fun r hr => ?_⟩
  · rw [rests] at waits
    cases waits
  · rw [clock] at hk
    obtain ⟨k', -, rfl⟩ := Option.map_eq_some_iff.mp hk
    rfl
  · rw [clock, early sec hs he]
    rfl
  · rw [clock]
    exact answers r hr

theorem clock_leave {clock : Option Clock} (rests : next.isWaiting = false) :
    (Exit.leave next).clock clock = clock.map fun k => { k with runs := false } := by
  cases next with
  | yield => cases rests
  | _ => rfl

theorem reached_rests {call : Call} (seeks : call.Seeks g) (reached : g.Reached s s' next) :
    next.isWaiting = false ∧ (∀ sec, next ≠ .enter sec) ∧
      ∀ clock r, next = .return r → call.Answers clock r := by
  have answers : ∀ r, (∀ e, r ≠ .failed e) → next = .return r →
      ∀ clock r, next = .return r → call.Answers clock r := by
    intro r succeeds hr clock r' hr'
    cases hr.symm.trans hr'
    exact .of_seeks seeks succeeds
  cases reached with
  | lock | event | multi | flush => exact ⟨rfl, by simp, answers _ (by simp) rfl⟩
  | add | remove | heap => exact ⟨rfl, by simp, by simp⟩

theorem busy_of_canBlock (able : s.canBlock = true) : s.kernel.running ≠ TaskId.idle := by
  simpa using (Bool.and_eq_true_iff.mp able).2

/-- An attempt at a goal, given the ticks for which the call has waited. -/
theorem Timed.sought {nowait : Bool} {timeout : Ticks} {ticks : Nat} (seeks : call.Seeks g)
    (here : RunsAs s₀ c) (count : s₀.kernel.running ≤ s₀.kernel.taskCount)
    (sought : Sought s₀ g nowait timeout s' next)
    (clock : h'.clock c = (Exit.leave next).clock (h.clock c))
    (waited : ((h.clock c).getD {}).ticks = ticks) (left : timeout = Ticks.after call.budget ticks)
    (hurry : nowait = true → call.nowait = true)
    (elapsed : timeout = Ticks.expired → call.budget ≠ Ticks.forever ∧
      (call.budget = Ticks.expired ∨
        ∃ k, (h.clock c).map (fun k => { k with runs := false }) = some k ∧ call.budget ≤ k.ticks))
    (some : timeout ≠ Ticks.expired → call.budget < Ticks.expired) :
    call.Timed s'.kernel h' c next := by
  have awake := ne_of_seeks seeks
  cases sought with
  | reached now =>
    obtain ⟨rests, open_, answers⟩ := reached_rests seeks now
    exact .gone rests (clock.trans (clock_leave rests)) (fun sec hs => absurd hs (open_ sec))
      (answers _)
  | refused later must =>
    refine .gone rfl clock (by simp) fun r hr => ?_
    cases hr
    exact ⟨by simp, fun _ => hurry must, fun n hn some => absurd (awake.1 n hn) some, by simp⟩
  | late later may expired =>
    refine .gone rfl clock (by simp) fun r hr => ?_
    cases hr
    exact ⟨fun _ => elapsed expired, by simp, fun n hn some => absurd (awake.1 n hn) some, by simp⟩
  | blocks later may able alive =>
    rw [here.able able] at clock waited ⊢
    have going : h'.clock (.task s₀.kernel.running) = .some { ticks, runs := true } := by
      rw [clock, ← waited]
      rfl
    refine .blocked going (busy_of_canBlock able) count (some alive) ?_ ?_
    · rw [System.running_recorded]
      exact left
    · intro n hn
      have idle : n = Ticks.forever := awake.1 n hn
      subst hn
      cases seeks

theorem Timed.pauses {p : Pause} {wait : WaitState} (pauses : call.Pauses p wait)
    (fresh : h.clock c = none) (fits : call.budget ≤ Ticks.expired) (here : RunsAs s c)
    (count : s.kernel.running ≤ s.kernel.taskCount) (able : s.canBlock = true)
    (left : call.budget ≠ Ticks.expired)
    (clock : h'.clock c = some { (h.clock c).getD {} with runs := true }) :
    call.Timed (s.recorded wait call.budget).kernel h' c
      (.yield s.kernel.running (.pause p)) := by
  rw [fresh] at clock
  rw [here.able able] at clock ⊢
  refine .blocked clock (busy_of_canBlock able) count (Nat.lt_of_le_of_ne fits left) ?_ ?_
  · rw [System.running_recorded]
    exact (Ticks.after_zero _).symm
  · intro n he
    subst he
    rw [System.running_recorded]
    cases pauses
    exact .inl rfl

/-- What a pause that is over returns. -/
theorem Answers.of_pauses {p : Pause} {wait : WaitState} {timeout : Ticks} {k : Clock}
    (pauses : call.Pauses p wait) (left : call.budget < Ticks.expired)
    (spent : timeout = Ticks.after call.budget k.ticks)
    (awake : ∀ n, call = .sleep n → timeout = Ticks.expired) :
    call.Answers (some k) (p.reply timeout) := by
  cases pauses with
  | sleep some =>
    have spent := Ticks.after_eq_expired left (spent.symm.trans (awake _ rfl))
    exact ⟨by simp [Pause.reply], by simp [Pause.reply], fun _ _ _ => ⟨k, rfl, spent.2⟩, by simp⟩
  | suspend => exact .of_success (by simp [Pause.reply]) (by simp) (by simp)
  | @blockOn wait n =>
    unfold Pause.reply
    by_cases elapsed : timeout = Ticks.expired
    · have spent := Ticks.after_eq_expired left (spent.symm.trans elapsed)
      rw [if_pos elapsed]
      exact ⟨fun _ => ⟨spent.1, .inr ⟨k, rfl, spent.2⟩⟩, by simp, by simp, by simp⟩
    · rw [if_neg elapsed]
      refine ⟨by simp, by simp, by simp, fun _ _ x he some hx => ?_⟩
      cases he
      cases hx
      obtain ⟨less, rest⟩ := Ticks.after_eq_left some (spent ▸ elapsed)
      exact ⟨k, rfl, less, spent.trans rest⟩

theorem Answers.of_late {p : Pause} {wait : WaitState} {clock : Option Clock}
    (pauses : call.Pauses p wait) (elapsed : call.budget = Ticks.expired) :
    call.Answers clock (p.reply Ticks.expired) := by
  cases pauses with
  | @sleep n =>
    have less : min n (Ticks.expired - 1) < Ticks.expired :=
      Nat.lt_of_le_of_lt (Nat.min_le_right ..) (by decide)
    exact absurd elapsed (Nat.ne_of_lt less)
  | suspend => cases elapsed
  | @blockOn wait n =>
    rw [show Pause.blockOn.reply Ticks.expired = .failed .timeout from rfl]
    refine ⟨fun _ => ⟨?_, .inl elapsed⟩, by simp, by simp, by simp⟩
    rw [elapsed]
    decide

/-- The terms on which a section seeks its goal, before the first wait or after one. -/
theorem Timed.ran_sought {nowait : Bool} {timeout : Ticks}
    (timed : call.Timed s.kernel h c (.enter sec)) (fits : call.budget ≤ Ticks.expired)
    (runs : call.Runs c sec) (here : RunsAs s c) (count : s.kernel.running ≤ s.kernel.taskCount)
    (seeks : sec.Seeks s s₀ g nowait timeout) (sought : Sought s₀ g nowait timeout s' next)
    (clock : h'.clock c = (Exit.leave next).clock (h.clock c)) :
    call.Timed s'.kernel h' c next := by
  have goal := goal_of_seeks runs seeks
  have rightly := runsAs_of_seeks here seeks
  have before : s₀.kernel.running ≤ s₀.kernel.taskCount := by
    rw [seeks.ordered.running]
    exact Nat.le_trans count seeks.ordered.taskCount
  have first : sec.isEarly = true → timeout = call.budget → (nowait = true → call.nowait = true) →
      call.Timed s'.kernel h' c next := by
    intro early whole hurry
    have fresh := timed.early sec rfl early
    refine .sought goal rightly before sought clock (by rw [fresh]; rfl)
       (whole.trans (Ticks.after_zero _).symm) hurry (fun elapsed => ?_)
      fun some => Nat.lt_of_le_of_ne fits (whole ▸ some)
    have elapsed : call.budget = Ticks.expired := whole.symm.trans elapsed
    exact ⟨by rw [elapsed]; decide, .inl elapsed⟩
  cases seeks with
  | seek =>
    cases runs
    exact first rfl rfl id
  | add =>
    cases runs
    exact first rfl rfl id
  | flush =>
    cases runs
    exact first rfl rfl id
  | multi =>
    cases runs
    exact first rfl rfl id
  | @wake t g chosen =>
    cases runs with
    | wake waits =>
      obtain ⟨u, ticks, hc, busy, old, hclock, left, timeout, -⟩ := timed.waiting rfl
      cases hc
      refine .sought goal rightly before sought clock (by rw [hclock]; rfl) timeout (by simp)
        (fun elapsed => ?_) fun _ => left
      have spent := Ticks.after_eq_expired left (timeout.symm.trans elapsed)
      exact ⟨spent.1, .inr ⟨_, by rw [hclock]; rfl, spent.2⟩⟩

/-- A section that cannot wait returns no failure. -/
theorem plain_rests (runs : call.Runs c sec) (simple : sec.isPlain = true)
    (ran : sec.run s = (s', .leave next)) :
    next.isWaiting = false ∧
      (∀ sec', next = .enter sec' → sec'.isEarly = true → sec.isEarly = true) ∧
      ∀ clock r, next = .return r → call.Answers clock r := by
  have returns : ∀ {r : Reply}, (∀ clock, call.Answers clock r) →
      (Stage.return r).isWaiting = false ∧
        (∀ sec', .return r = Stage.enter sec' → sec'.isEarly = true → sec.isEarly = true) ∧
        ∀ clock r', Stage.return r = .return r' → call.Answers clock r' := by
    intro r answers
    refine ⟨rfl, by simp, fun clock r' hr => ?_⟩
    cases hr
    exact answers clock
  cases runs with
  | createTask =>
    rcases Section.createTask_cases ran with ⟨-, rfl⟩ | ⟨-, rfl, -⟩
    · exact ⟨rfl, by simp, by simp⟩
    · exact returns fun _ => .of_success (by simp) (by simp) (by simp)
  | checkNoRing =>
    simp only [Section.run] at ran
    split at ran <;> cases ran
    · exact ⟨rfl, by simp, by simp⟩
    · exact ⟨rfl, fun _ _ _ => rfl, by simp⟩
  | installRing =>
    simp only [Section.run] at ran
    split at ran <;> cases ran
    exact returns fun _ => .of_success (by simp) (by simp) (by simp)
  | addSubWait =>
    simp only [Section.run] at ran
    split at ran <;> cases ran
    · exact ⟨rfl, by simp, by simp⟩
    · exact returns fun _ => .of_success (by simp) (by simp) (by simp)
  | commitRemove | readCell => cases ran; exact ⟨rfl, by simp, by simp⟩
  | leaveHeap => cases ran; exact ⟨rfl, by simp, by simp⟩
  | pause | exit | seek | wake | startAdd | startFlush | startMulti => cases simple
  | _ =>
    cases ran
    exact returns fun _ => .of_success (by simp) (by simp) (by simp)

/-- The section of the call itself. -/
theorem Timed.ran (timed : call.Timed s.kernel h c (.enter sec))
    (fits : call.budget ≤ Ticks.expired) (runs : call.Runs c sec) (here : RunsAs s c)
    (count : s.kernel.running ≤ s.kernel.taskCount) (ran : sec.run s = (s', .leave next)) :
    call.Timed s'.kernel (.ran c s sec :: h) c next := by
  have clock := clock_ran_self (h := h) (c := c) ran
  cases Section.left_of_run ran with
  | plain simple ran =>
    obtain ⟨rests, early, answers⟩ := plain_rests runs simple ran
    refine .gone rests (clock.trans (clock_leave rests)) (fun sec' hs he => ?_) (answers _)
    exact timed.early sec rfl (early sec' hs he)
  | sought seeks sought => exact timed.ran_sought fits runs here count seeks sought clock
  | failed => exact .gone rfl clock (by simp) (by simp)
  | pauses able left =>
    obtain ⟨pauses, rfl⟩ := pauses_of_runs runs
    exact .pauses pauses (timed.early _ rfl rfl) fits here count able left clock
  | late able ends =>
    obtain ⟨pauses, elapsed⟩ := pauses_of_runs runs
    refine .gone rfl clock (by simp) fun r hr => ?_
    cases hr
    exact .of_late pauses elapsed.symm
  | lateExit able => cases (pauses_of_runs runs).1
  | exits able =>
    cases runs
    have fresh := timed.early _ rfl rfl
    rw [fresh] at clock
    rw [here.able able] at clock ⊢
    refine .blocked clock (busy_of_canBlock able) count (by decide) ?_ (by simp)
    exact congrArg Task.timeout (System.running_recorded ..)
  | asleep waiting =>
    cases runs
    obtain ⟨t, ticks, hc, busy, old, hclock, left, timeout, asleep⟩ := timed.waiting rfl
    cases hc
    rw [hclock] at clock
    exact .blocked clock busy old left timeout asleep
  | woken chosen ends =>
    cases runs with
    | wake waits =>
      obtain ⟨t, ticks, hc, busy, old, hclock, left, timeout, asleep⟩ := timed.waiting rfl
      cases hc
      refine .gone rfl clock (by simp) fun r hr => ?_
      cases hr
      rw [hclock]
      cases waits with
      | pause pauses =>
        refine .of_pauses pauses left timeout fun n hn => ?_
        rcases asleep n hn with timer | ⟨-, elapsed⟩
        · rw [chosen] at timer
          cases timer
        · exact elapsed
      | exit => exact absurd rfl ends
  | exited chosen =>
    cases runs with
    | wake waits =>
      obtain ⟨t, ticks, hc, busy, old, hclock, left, timeout, asleep⟩ := timed.waiting rfl
      cases hc
      rw [hclock] at clock
      have runs := here.task _ rfl
      subst runs
      cases waits with
      | pause pauses => cases pauses
      | exit =>
        refine .blocked clock busy old left ?_ (by simp)
        exact congrArg Task.timeout (System.running_recorded ..)

theorem Timed.at_start (config : Config) (call : Call) (k : Kernel) (h : History) (c : Context) :
    call.Timed k (.called c call :: h) c (call.start config) := by
  have fresh : History.clock c (.called c call :: h) = none := if_pos rfl
  have rests : (call.start config).isWaiting = false ∧
      ∀ clock r, call.start config = .return r → call.Answers clock r := by
    cases call with
    | createTask | createQueue | createMultiWait =>
      simp only [start]
      repeat' split
      all_goals exact ⟨rfl, by simp⟩
    | sleep n =>
      simp only [start]
      split
      · rename_i none
        refine ⟨rfl, fun _ r hr => ?_⟩
        cases hr
        exact .of_success (by simp) (fun n hn => by cases hn; exact none) (by simp)
      · exact ⟨rfl, by simp⟩
    | _ => exact ⟨rfl, by simp [start]⟩
  refine ⟨fun waits => ?_, fun _ k hk => ?_, fun _ _ _ => fresh, rests.2 _⟩
  · rw [rests.1] at waits
    cases waits
  · rw [fresh] at hk
    cases hk

theorem Timed.timer (k : Kernel) (h : History) (handler : Handler) :
    Call.tick.Timed k (.entered handler :: h) .handler .timer :=
  ⟨(by simp [Stage.isWaiting]), (by simp [History.clock]), (by simp), (by simp)⟩

/-- A launch dispatches too, and a task that waits is not the idle task. -/
theorem Timed.booted (timed : call.Timed k h c stage) : call.Timed k.booted h c stage := by
  refine timed.carry rfl (Nat.le_refl _) fun t _ busy _ => ?_
  rw [k.task_booted busy]
  exact ⟨rfl, .inl rfl⟩

end Call

namespace Machine

variable {m m' : Machine} {config : Config}

/-- What happens elsewhere changes a call's timeout with the ticks only. -/
theorem Change.timed_other (run : Run config m h) (change : Change m h m' h')
    (here : m.stageOf c = some stage) (timed : call.Timed m.kernel h c stage)
    (other : h' = h ∨ ∃ x, h' = x :: h ∧ x.context ≠ some c) : call.Timed m'.kernel h' c stage := by
  have order := run.orderly
  obtain ⟨xs, lined⟩ := order.lined
  have apart : ∀ {x : Happening}, h' = x :: h → x.context ≠ some c := by
    intro x new
    rcases other with same | ⟨y, new', ne⟩
    · exact absurd (new.symm.trans same) (List.cons_ne_self _ _)
    · cases new.symm.trans new'
      exact ne
  cases change with
  | code here₀ ran => exact timed.of_board rfl (Kernel.board_of_bare (Stage.frame_of_run ran).1)
  | ran here₀ ran system =>
    obtain ⟨call₀, -, runs⟩ := run.runs_of_enter here₀
    rw [kernel_of_left system]
    exact timed.ran_other runs order.runsAs (fun he => apart rfl (congrArg some he)) ran
  | called call₀ legal here₀ system =>
    have clock : History.clock c (.called m.context call₀ :: h) = h.clock c :=
      if_neg fun he => apart rfl (congrArg some he)
    exact timed.of_board clock (congrArg (·.kernel.board) system)
  | entered here₀ kernel =>
    have outside : c ≠ .handler := by
      intro he
      subst he
      cases here₀.symm.trans here
    exact timed.of_board (if_neg outside) (congrArg _ kernel)
  | dispatched kernel =>
    obtain ⟨ys, dispatched⟩ := lined.dispatch order.running
    rw [kernel]
    exact timed.dispatch rfl dispatched (Nat.le_of_eq (Kernel.taskCount_dispatch _).symm)
  | launched here₀ booting kernel =>
    obtain ⟨ys, dispatched⟩ := lined.booted.dispatch order.running
    rw [kernel]
    exact timed.booted.dispatch rfl dispatched (Nat.le_of_eq (Kernel.taskCount_dispatch _).symm)
  | idled here₀ system => exact timed.of_board rfl (congrArg (·.kernel.board) system)
  | returned here₀ kernel | quiet kernel => exact timed.of_board rfl (congrArg _ kernel)
  | wrote => exact timed.of_board rfl rfl

theorem Change.timed (run : Run config m h)
    (before : ∀ c stage call, m.stageOf c = some stage → h.calling c = some call →
      call.Timed m.kernel h c stage)
    (change : Change m h m' h') (c : Context) (stage : Stage) (call : Call)
    (here' : m'.stageOf c = some stage) (calling : h'.calling c = some call) :
    call.Timed m'.kernel h' c stage := by
  cases change.progress run here' calling with
  | begins legal new =>
    rw [new]
    exact .at_start ..
  | serves new interrupts =>
    rw [new, interrupts]
    exact .timer ..
  | codes here calling stays ran goes moves same =>
    have board := Kernel.board_of_bare (Stage.frame_of_run ran).1
    exact ((before c _ call here calling).code stays goes).of_board (congrArg _ same) board
  | runs here calling runs ran system new active =>
    have order := run.orderly
    have timed := before c _ call here calling
    rw [kernel_of_left system, new]
    exact timed.ran (run.fits calling) runs (active ▸ order.runsAs) order.running ran
  | waits here calling other =>
    exact change.timed_other run here (before c stage call here calling) other

theorem Run.timed (run : Run config m h) : ∀ c stage call, m.stageOf c = some stage →
    h.calling c = some call → call.Timed m.kernel h c stage := by
  refine run.induct (fun c stage call _ calling => ?_) fun run ih change => change.timed run ih
  cases calling

/-- The timeout of a call is one budget, whatever happens while the call waits: the task table
holds what the executed ticks have left of it, and the call returns what its ticks warrant. -/
theorem Run.budget_kept (run : Run config m h) (c : Context) (call : Call) :
    (∀ stage, h.calling c = some call → m.stageOf c = some stage → stage.isWaiting = true →
      ∃ t ticks, c = .task t ∧ h.clock c = some { ticks, runs := true } ∧
        (m.kernel.task t).timeout = Ticks.after call.budget ticks) ∧
    (∀ r (h' : History), h = .returned c r :: h' → h'.calling c = some call →
      call.Answers (h'.clock c) r) ∧
    ∀ r (h' : History), h = .returned c r :: h' → h'.calling c = some call →
      call.budget = Ticks.forever → call.nowait = false → ∀ e, r ≠ .failed e := by
  have answers : ∀ r (h' : History), h = .returned c r :: h' → h'.calling c = some call →
      call.Answers (h'.clock c) r := by
    intro r h' he calling
    subst he
    obtain ⟨m₀, run₀, here⟩ := run.of_returned (List.suffix_refl _)
    exact (run₀.timed c _ call here calling).answers r rfl
  refine ⟨fun stage calling here waits => ?_, answers, fun r h' hh calling free must e he => ?_⟩
  · obtain ⟨t, ticks, hc, -, -, clock, -, timeout, -⟩ :=
      (run.timed c stage call here calling).waiting waits
    exact ⟨t, ticks, hc, clock, timeout⟩
  · exact (answers r h' hh calling).not_failed free must e he

def sleeping : Option (Machine × History) :=
  follow (initial { maxTasks := 2, arenaStart := 4096, arenaSize := 512, timeSlice := 0 }, [])
    [.call (.createTask "sleeper" 256 5 0 0), .steps 4, .launch, .steps 1, .call (.sleep 3),
      .steps 6, .pend timerLine, .steps 6]

theorem budget_kept_sleeping : ∃ m h config, Run config m h ∧
    h.calling (.task 1) = some (.sleep 3) ∧ (m.kernel.task 1).timeout = 2 ∧
    ∃ t ticks, Context.task 1 = .task t ∧ h.clock (.task 1) = some { ticks, runs := true } ∧
      (m.kernel.task t).timeout = Ticks.after 3 ticks := by
  obtain ⟨x, hx⟩ := Option.isSome_iff_exists.mp (show sleeping.isSome = true by decide +kernel)
  have facts : sleeping.map (fun x => (x.2.calling (.task 1), x.1.stageOf (.task 1),
      (x.1.kernel.task 1).timeout)) =
      some (some (.sleep 3), some (.reenter 1 (.pause .sleep)), 2) := by decide +kernel
  rw [hx] at facts
  simp only [Option.map_some, Option.some.injEq, Prod.mk.injEq] at facts
  obtain ⟨calling, here, timeout⟩ := facts
  have run := run_of_follow hx
  exact ⟨_, _, _, run, calling, timeout,
    (run.budget_kept (.task 1) (.sleep 3)).1 _ calling here rfl⟩

end Machine

end TaskKernel
