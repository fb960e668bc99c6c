import TaskKernel.Proofs.Run.Script
import TaskKernel.Proofs.Schedule.Lineup
import TaskKernel.Proofs.Wait.Readiness

namespace TaskKernel

def SubWait.isOn (q : Nat) : SubWait → Bool
  | .event .. => false
  | .queue i _ => i = q

def WaitState.isOn (q : Nat) : WaitState → Bool
  | .queueFull i => i = q
  | .queueEmpty i => i = q
  | .multi c => c.entries.any (·.isOn q)
  | _ => false

def Kernel.isAwaited (k : Kernel) (q : Nat) : Bool :=
  (List.range k.taskCount).any fun i => (k.task (i + 1)).wait.isOn q

/-- The section may make a task ready and asks for no dispatch, as its caller wants it. -/
def Section.isSilent : Section → Bool
  | .unlock _ _ reschedule => !reschedule
  | .raise _ _ reschedule => !reschedule
  | _ => false

def Section.opens (q : Nat) : Section → Bool
  | .installRing i _ _ _ => i = q
  | _ => false

/-- The section may make a task ready and leave it at that. -/
def Section.neglects (k : Kernel) : Section → Bool
  | .unlock _ _ reschedule => !reschedule
  | .raise _ _ reschedule => !reschedule
  | .installRing q _ _ _ => k.isAwaited q
  | _ => false

/-- Tasks may have become ready unnoticed since the last dispatch. -/
def History.neglected : History → Bool
  | [] => false
  | .dispatched _ :: _ => false
  | .ran _ before sec :: h => sec.neglects before.kernel || neglected h
  | _ :: h => neglected h

/-- Only the last tick lets a timeout run out. -/
theorem Ticks.eq_expired_of_countDown {n : Ticks} (fits : n ≤ expired) (early : n.runsOut = false)
    (elapsed : n.countDown = expired) : n = expired := by
  unfold countDown at elapsed
  have more : n ≠ 1 := by simpa [runsOut] using early
  rw [if_neg more] at elapsed
  split at elapsed
  · exact elapsed
  · rename_i counts
    have less : n - 1 < n := Nat.sub_one_lt fun none => counts (.inl none)
    exact absurd (Nat.lt_of_lt_of_le (elapsed ▸ less) fits) (Nat.lt_irrefl _)

namespace Kernel

structure Peer (k : Kernel) (t : TaskId) : Prop where
  pos : 0 < t
  old : t ≤ k.taskCount
  other : k.running ≠ t

structure Settled (k : Kernel) : Prop where
  urgent (t : TaskId) : k.Peer t → k.isCandidate t = true →
    k.running ≠ TaskId.idle ∧ (k.task k.running).priority ≤ (k.task t).priority
  awake (t : TaskId) : k.Peer t → k.running = TaskId.idle → (k.task t).wait ≠ .suspended

/-- None of the others has become ready or has suspended itself. -/
structure Calm (k k' : Kernel) : Prop where
  running : k'.running = k.running
  taskCount : k'.taskCount = k.taskCount
  priority (t : TaskId) : (k'.task t).priority = (k.task t).priority
  ready (t : TaskId) : k.Peer t → k'.isCandidate t = true → k.isCandidate t = true
  suspended (t : TaskId) : k.Peer t → (k'.task t).wait = .suspended → (k.task t).wait = .suspended

variable {k k' k'' : Kernel} {t : TaskId}

theorem isCandidate_of_holds
    (holds : k'.holds (k.task t).wait = true → k.holds (k.task t).wait = true)
    (wait : (k'.task t).wait = (k.task t).wait)
    (timeout : (k'.task t).timeout = Ticks.expired → (k.task t).timeout = Ticks.expired)
    (ready : k'.isCandidate t = true) : k.isCandidate t = true := by
  unfold isCandidate at *
  rw [wait] at ready
  generalize (k.task t).wait = w at *
  have onward : (decide ((k'.task t).timeout = Ticks.expired) || k'.holds w) = true →
      (decide ((k.task t).timeout = Ticks.expired) || k.holds w) = true := by
    simp only [Bool.or_eq_true, decide_eq_true_eq]
    exact Or.imp timeout holds
  cases w with
  | run => rfl
  | suspended => cases ready
  | _ => exact onward ready

/-- The rings of the other queues are still the same. -/
theorem holds_setRing {q : Nat} {w : WaitState} (other : w.isOn q = false) (r : Option Ring) :
    (k.setRing q r).holds w = k.holds w := by
  have ring : ∀ i, decide (i = q) = false → (k.setRing q r).ring i = k.ring i := by
    intro i hi
    rw [ring_setRing, if_neg]
    exact fun same => of_decide_eq_false hi same.symm
  cases w with
  | queueFull i => simp only [holds, hasRoom, ring i other]
  | queueEmpty i => simp only [holds, hasMessage, ring i other]
  | mutex m mask => simp only [holds, mutex_setRing]
  | multi c =>
    have same : (k.setRing q r).readySet c = k.readySet c := by
      refine ReadySet.ofPredicate_congr fun s hs => ?_
      have elsewhere := List.any_eq_false.mp other s hs
      cases s with
      | event => rfl
      | queue i condition =>
        have := ring i (by simpa [SubWait.isOn] using elsewhere)
        cases condition <;> simp only [holdsAlone, hasMessage, hasRoom, this]
    simp only [holds, same]
  | run | suspended | timer | event => rfl

namespace Calm

theorem of_bare (h : k'.bare = k.bare) : k.Calm k' := by
  have board := board_of_bare h
  have task := task_of_board board
  have quiet : k.Quieter k' := .of_objects (objects_of_bare h)
  refine ⟨running_of_board board, taskCount_of_board board, fun t => by rw [task], fun t _ => ?_,
    fun t _ => by rw [task]; exact id⟩
  exact isCandidate_of_holds (quiet.holds _) (by rw [task]) (by rw [task]; exact id)

theorem peer (h : k.Calm k') (peer : k'.Peer t) : k.Peer t :=
  ⟨peer.pos, h.taskCount ▸ peer.old, h.running ▸ peer.other⟩

theorem settled (h : k.Calm k') (settled : k.Settled) : k'.Settled := by
  constructor
  · intro t peer ready
    rw [h.running, h.priority, h.priority]
    exact settled.urgent t (h.peer peer) (h.ready t (h.peer peer) ready)
  · intro t peer idle waits
    exact settled.awake t (h.peer peer) (h.running ▸ idle) (h.suspended t (h.peer peer) waits)

end Calm

/-- A dispatch leaves nothing to dispatch. -/
theorem Dispatched.settled {xs : List TaskId} (h : k.Dispatched xs) : k.dispatch.Settled := by
  have member : ∀ t, k.dispatch.Peer t → t ∈ xs := fun t peer =>
    h.lined.mem_iff.mpr ⟨peer.pos, peer.old⟩
  have task : ∀ t, k.dispatch.Peer t → k.dispatch.task t = k.task t := fun t peer =>
    (h.task t).trans (if_neg fun chosen => peer.other chosen.2)
  have ready : ∀ t, k.dispatch.Peer t → k.dispatch.isCandidate t = true →
      k.isCandidate t = true := fun t peer =>
    isCandidate_of_holds (Quieter.of_objects k.objects_dispatch |>.holds _) (by rw [task t peer])
      (by rw [task t peer]; exact id)
  have priority : (k.dispatch.task k.dispatch.running).priority =
      (k.task k.dispatch.running).priority := by
    rw [h.task]
    split <;> rfl
  have chosen := h.chosen
  constructor
  · intro t peer candidate
    have waiting := ready t peer candidate
    rw [priority, task t peer]
    generalize k.dispatch.running = b at *
    cases chosen with
    | candidate chosen _ least =>
      exact ⟨Nat.ne_of_gt (h.lined.mem_iff.mp chosen).1, least t (member t peer) waiting⟩
    | suspended _ _ unready =>
      rw [unready t (member t peer)] at waiting
      cases waiting
    | idle unready =>
      rw [unready t (member t peer)] at waiting
      cases waiting
  · intro t peer idle
    rw [idle] at chosen
    rw [task t peer]
    cases chosen with
    | candidate chosen => exact absurd (h.lined.mem_iff.mp chosen).1 (Nat.lt_irrefl 0)
    | suspended chosen => exact absurd (h.lined.mem_iff.mp chosen).1 (Nat.lt_irrefl 0)
    | idle _ awake => exact awake t (member t peer)

def Bounded (k : Kernel) : Prop := ∀ t, (k.task t).timeout ≤ Ticks.expired

/-- A tick that asks for no dispatch lets no timeout run out. -/
theorem tick_ready (bounded : k.Bounded) (still : k.tick.2 = false) (pos : 0 < t)
    (old : t ≤ k.taskCount) :
    (k.tick.1.isCandidate t = true → k.isCandidate t = true) ∧
      (k.tick.1.task t).wait = (k.task t).wait := by
  obtain ⟨tasks, journal, same⟩ := k.tick_eq
  obtain ⟨slice, entry⟩ := k.task_tick t
  rw [if_pos ⟨pos, old⟩] at entry
  have quiet : k.Quieter k.tick.1 := .of_objects (by rw [same]; rfl)
  have early : (k.task t).timeout.runsOut = false := by
    have none := (Bool.or_eq_false_iff.mp still).1
    unfold timeoutRunsOut at none
    rw [List.any_eq_false] at none
    have := none (t - 1) (List.mem_range.mpr (Nat.sub_one_lt_of_le pos old))
    rwa [Nat.sub_add_cancel pos, Bool.not_eq_true] at this
  have wait : (k.tick.1.task t).wait = (k.task t).wait := by rw [entry]
  refine ⟨isCandidate_of_holds (quiet.holds _) wait fun elapsed => ?_, wait⟩
  rw [entry] at elapsed
  exact Ticks.eq_expired_of_countDown (bounded t) early elapsed

end Kernel

variable {s s' s₀ : System} {sec : Section} {next : Stage} {call : Call} {c : Context} {g : Goal}

theorem System.emptyQueue_pended (started : s.kernel.started = true) (q : Nat) :
    (s.emptyQueue q).cpu.dispatchPended = true := by
  unfold emptyQueue
  cases s.kernel.ring q <;> exact requestReschedule_pended started

/-- Reaching a goal makes no wait true, or a dispatch is asked for. -/
theorem Goal.Reached.quieter (h : g.Reached s s' next) (started : s.kernel.started = true) :
    s'.cpu.dispatchPended = true ∨ s.kernel.Quieter s'.kernel := by
  cases h with
  | event =>
    right
    dsimp only
    split
    · exact s.kernel.quieter_clearEvent _ _
    · exact .of_objects rfl
  | multi => exact .inr (s.kernel.quieter_consume _ _)
  | @flush q =>
    refine .inl (System.emptyQueue_pended ?_ q)
    rw [Kernel.started_of_board (s.locked_board ..)]
    exact started
  | lock | add | remove | heap => exact .inr (s.kernel.quieter_lock _ _)

namespace Section

/-- No wait comes true, those for a queue that gets its ring apart. -/
def Hushes (sec : Section) (k k' : Kernel) : Prop :=
  ∀ w : WaitState, (∀ q, sec.opens q = true → w.isOn q = false) →
    k'.holds w = true → k.holds w = true

theorem Hushes.of_quieter {k k' : Kernel} (quiet : k.Quieter k') : sec.Hushes k k' :=
  fun w _ => quiet.holds w

theorem Hushes.of_objects {k k' : Kernel} (same : k'.objects = k.objects) : sec.Hushes k k' :=
  .of_quieter (.of_objects same)

theorem plain_hushes (simple : sec.isPlain = true) (ran : sec.run s = (s', .leave next))
    (started : s.kernel.started = true) (loud : sec.isSilent = false) :
    s'.cpu.dispatchPended = true ∨ sec.Hushes s.kernel s'.kernel := by
  cases sec with
  | createTask name stack priority param entry =>
    rcases createTask_cases ran with ⟨rfl, -⟩ | ⟨-, -, pended⟩
    · exact .inr (.of_objects rfl)
    · exact .inl (pended started)
  | tick =>
    obtain ⟨tasks, journal, same⟩ := s.kernel.tick_eq
    rw [(tick_eq ran).1, same]
    exact .inr (.of_objects rfl)
  | requestReschedule =>
    cases ran
    exact .inl (System.requestReschedule_pended started)
  | commitAdd | commitRemove | leaveHeap =>
    simp only [run] at ran
    cases ran
    exact .inl (System.requestReschedule_pended started)
  | unlock m mask reschedule =>
    simp only [run] at ran
    cases ran
    cases reschedule with
    | false => cases loud
    | true =>
      refine .inl (System.requestReschedule_pended ?_)
      exact (Kernel.started_of_board (Kernel.board_unlock ..)).trans started
  | raise e mask reschedule =>
    simp only [run] at ran
    cases ran
    cases reschedule with
    | false => cases loud
    | true => exact .inl (System.requestReschedule_pended started)
  | clear e mask =>
    cases ran
    exact .inr (.of_quieter (s.kernel.quieter_clearEvent _ _))
  | installRing q slots payload base =>
    simp only [run] at ran
    split at ran <;> cases ran
    refine .inr fun w elsewhere holds => ?_
    have other : w.isOn q = false := elsewhere q (by simp [opens])
    rwa [← Kernel.holds_setRing other (some (Ring.ofSlots base slots payload))]
  | checkNoRing | addSubWait =>
    simp only [run] at ran
    split at ran <;> cases ran <;> exact .inr (.of_objects rfl)
  | pause | exit | seek | wake | startAdd | startFlush | startMulti => cases simple
  | _ =>
    cases ran
    exact .inr (.of_objects rfl)

theorem sought_quieter {nowait : Bool} {timeout : Ticks}
    (sought : Sought s g nowait timeout s' next) (started : s.kernel.started = true) :
    s'.cpu.dispatchPended = true ∨ s.kernel.Quieter s'.kernel := by
  cases sought with
  | reached now => exact now.quieter started
  | refused | late | blocks => exact .inr (.of_objects rfl)

/-- A section makes no wait true, or it asks for a dispatch. -/
theorem Left.hushes (left : sec.Left s s' next) (started : s.kernel.started = true)
    (loud : sec.isSilent = false) :
    s'.cpu.dispatchPended = true ∨ sec.Hushes s.kernel s'.kernel := by
  cases left with
  | plain simple ran => exact plain_hushes simple ran started loud
  | sought seeks sought =>
    have before : s.kernel.Quieter _ := .of_objects seeks.objects
    have later := sought_quieter sought (seeks.ordered.started.trans started)
    exact later.imp_right fun quiet => .of_quieter (before.trans quiet)
  | failed | late | asleep | pauses | lateExit | exits | woken | exited =>
    exact .inr (.of_objects rfl)

theorem Left.ran_of_plain (left : sec.Left s s' next) (simple : sec.isPlain = true) :
    sec.run s = (s', .leave next) := by
  cases left with
  | plain _ ran => exact ran
  | sought seeks => cases seeks <;> cases simple
  | failed waits => cases simple.symm.trans waits
  | _ => cases simple

/-- A section that creates a task asks for a dispatch. -/
theorem Left.rests_or_asks (left : sec.Left s s' next) (runs : call.Runs c sec)
    (here : Call.RunsAs s c) (old : s.kernel.running ≤ s.kernel.taskCount)
    (started : s.kernel.started = true) :
    s'.cpu.dispatchPended = true ∨ s.kernel.Rests s'.kernel := by
  rcases left.rests runs here old with rests | ⟨name, stack, priority, param, entry, rfl, -⟩
  · exact .inr rests
  · rcases createTask_cases (left.ran_of_plain rfl) with ⟨rfl, -⟩ | ⟨-, -, pended⟩
    · exact .inr (.of_board rfl)
    · exact .inl (pended started)

/-- A section makes no task ready but its own, or it asks for a dispatch. -/
theorem Left.ready {t : TaskId} (left : sec.Left s s' next) (runs : call.Runs c sec)
    (here : Call.RunsAs s c) (started : s.kernel.started = true) (bounded : s.kernel.Bounded)
    (loud : sec.isSilent = false) (other : c ≠ .task t) (pos : 0 < t)
    (old : t ≤ s.kernel.taskCount) :
    s'.cpu.dispatchPended = true ∨
      ((∀ q, sec.opens q = true → (s.kernel.task t).wait.isOn q = false) →
        s'.kernel.isCandidate t = true → s.kernel.isCandidate t = true) ∧
      (s'.kernel.task t).wait = (s.kernel.task t).wait := by
  by_cases ticks : sec = .tick
  · subst ticks
    obtain ⟨-, -, rfl⟩ := tick_eq (left.ran_of_plain rfl)
    cases asked : s.kernel.tick.2 with
    | true =>
      left
      exact System.requestReschedule_pended (s.kernel.tick_ordered.started.trans started)
    | false =>
      right
      obtain ⟨ready, wait⟩ := Kernel.tick_ready bounded asked pos old
      exact ⟨fun _ => ready, wait⟩
  · have same := left.task_other runs here other old ticks
    refine (left.hushes started loud).imp_right fun hushes => ⟨fun elsewhere => ?_, by rw [same]⟩
    exact Kernel.isCandidate_of_holds (hushes _ elsewhere) (by rw [same]) (by rw [same]; exact id)

/-- A new ring ends no wait if no task waits on its queue. -/
theorem heeds_cases {k : Kernel} (heeds : sec.neglects k = false) :
    sec.isSilent = false ∧ ∀ t, 0 < t → t ≤ k.taskCount → ∀ q, sec.opens q = true →
      (k.task t).wait.isOn q = false := by
  cases sec with
  | unlock | raise => exact ⟨heeds, fun _ _ _ _ opens => by cases opens⟩
  | installRing i slots payload base =>
    refine ⟨rfl, fun t pos old q opens => ?_⟩
    have same : i = q := of_decide_eq_true opens
    subst same
    have none := List.any_eq_false.mp heeds (t - 1)
      (List.mem_range.mpr (Nat.sub_one_lt_of_le pos old))
    rwa [Nat.sub_add_cancel pos, Bool.not_eq_true] at none
  | _ => exact ⟨rfl, fun _ _ _ _ opens => by cases opens⟩

/-- A section makes none of the other tasks ready, or it asks for a dispatch. -/
theorem Left.calm (left : sec.Left s s' next) (runs : call.Runs c sec) (here : Call.RunsAs s c)
    (old : s.kernel.running ≤ s.kernel.taskCount) (started : s.kernel.started = true)
    (bounded : s.kernel.Bounded) (heeds : sec.neglects s.kernel = false) :
    s'.cpu.dispatchPended = true ∨ s.kernel.Calm s'.kernel := by
  obtain ⟨loud, elsewhere⟩ := heeds_cases heeds
  rcases left.rests_or_asks runs here old started with pended | rests
  · exact .inl pended
  cases idle : s'.cpu.dispatchPended with
  | true => exact .inl rfl
  | false =>
    have ready : ∀ t, s.kernel.Peer t →
        (s'.kernel.isCandidate t = true → s.kernel.isCandidate t = true) ∧
          (s'.kernel.task t).wait = (s.kernel.task t).wait := by
      intro t peer
      have other : c ≠ .task t := fun mine => peer.other (here.task t mine)
      rcases left.ready runs here started bounded loud other peer.pos peer.old with pended | same
      · rw [pended] at idle
        cases idle
      · exact ⟨same.1 (elsewhere t peer.pos peer.old), same.2⟩
    refine .inr ⟨rests.running, Kernel.taskCount_of_lineup rests.lineup, rests.priority,
      fun t peer => (ready t peer).1, fun t peer => ?_⟩
    rw [(ready t peer).2]
    exact id

end Section

namespace Kernel.Bounded

theorem recorded {wait : WaitState} {timeout : Ticks} (h : s.kernel.Bounded)
    (fits : timeout ≤ Ticks.expired) : (s.recorded wait timeout).kernel.Bounded := by
  intro t
  rw [s.task_recorded]
  split
  · exact fits
  · exact h t

theorem roused (h : s.kernel.Bounded) (t : TaskId) : (s.roused t).kernel.Bounded := by
  intro u
  rw [s.task_roused]
  split
  · exact Nat.zero_le _
  · exact h u

theorem tick {k : Kernel} (h : k.Bounded) : k.tick.1.Bounded := by
  intro t
  obtain ⟨slice, ht⟩ := k.task_tick t
  have fits : (k.task t).timeout.countDown ≤ Ticks.expired := by
    have := h t
    unfold Ticks.countDown
    split
    · exact this
    · split
      · exact Nat.le_refl _
      · exact Nat.le_trans (Nat.sub_le ..) this
  rw [ht]
  dsimp only
  split
  · exact fits
  · exact h t

theorem of_task {k k' : Kernel} (h : k.Bounded)
    (task : ∀ t, (k'.task t).timeout = (k.task t).timeout ∨ (k'.task t).timeout = Ticks.forever) :
    k'.Bounded := by
  intro t
  rcases task t with same | none
  · rw [same]
    exact h t
  · rw [none]
    exact Nat.zero_le _

end Kernel.Bounded

namespace Section

theorem Seeks.bounded {nowait : Bool} {timeout : Ticks} (seeks : sec.Seeks s s₀ g nowait timeout)
    (runs : call.Runs c sec) (fits : call.budget ≤ Ticks.expired) (bounded : s.kernel.Bounded) :
    s₀.kernel.Bounded ∧ timeout ≤ Ticks.expired := by
  cases seeks with
  | seek | add | multi =>
    cases runs
    exact ⟨bounded, fits⟩
  | flush => exact ⟨bounded, Nat.zero_le _⟩
  | wake => exact ⟨bounded.roused _, bounded _⟩

/-- The timeouts that sections enter are those of calls, or shorter. -/
theorem Left.bounded (left : sec.Left s s' next) (runs : call.Runs c sec)
    (fits : call.budget ≤ Ticks.expired) (bounded : s.kernel.Bounded) : s'.kernel.Bounded := by
  cases left with
  | plain simple ran =>
    cases same : sec.changesTasks with
    | false =>
      refine bounded.of_task fun t => .inl ?_
      rw [Kernel.task_of_board (plain_board simple same ran)]
    | true =>
      cases sec with
      | createTask name stack priority param entry =>
        rcases createTask_cases ran with ⟨rfl, -⟩ | ⟨hk, -⟩
        · exact bounded
        · rw [hk]
          refine bounded.of_task fun t => ?_
          by_cases new : t = s.kernel.taskCount + 1
          · subst new
            right
            change ((s.kernel.tasks.set _ _).get _).timeout = _
            rw [Table.get_set_self]
          · refine .inl (congrArg Task.timeout ?_)
            exact s.kernel.task_enterTask name priority param entry new
      | tick =>
        rw [(tick_eq ran).1]
        exact bounded.tick
      | _ => cases same
  | sought seeks sought =>
    obtain ⟨before, limit⟩ := seeks.bounded runs fits bounded
    cases sought with
    | reached now =>
      refine before.of_task fun t => .inl ?_
      rw [Kernel.task_of_board now.frame.1]
    | refused | late => exact before
    | blocks => exact before.recorded limit
  | failed | late | asleep => exact bounded
  | pauses =>
    obtain ⟨-, rfl⟩ := Call.pauses_of_runs runs
    exact bounded.recorded fits
  | lateExit => exact bounded.recorded (Nat.zero_le _)
  | exits => exact Kernel.Bounded.recorded bounded (Nat.zero_le _)
  | woken => exact bounded.roused _
  | exited => exact (bounded.roused _).recorded (Nat.zero_le _)

end Section

namespace Machine

variable {m m' : Machine} {h h' : History} {config : Config}

theorem Change.bounded (run : Run config m h) (bounded : m.kernel.Bounded)
    (change : Change m h m' h') : m'.kernel.Bounded := by
  have order := run.orderly
  obtain ⟨xs, lined⟩ := order.lined
  have chosen : ∀ {k : Kernel} {ys : List TaskId}, k.Bounded → k.Dispatched ys →
      k.dispatch.Bounded := by
    intro k ys bounded dispatched
    refine bounded.of_task fun t => .inl ?_
    rw [dispatched.task]
    split <;> rfl
  cases change with
  | code here ran goes stages =>
    have board := Kernel.board_of_bare (Stage.frame_of_run ran).1
    exact bounded.of_task fun t => .inl (congrArg Task.timeout (Kernel.task_of_board board t))
  | ran here ran system stages =>
    obtain ⟨call, calling, runs⟩ := run.runs_of_enter here
    rw [kernel_of_left system]
    exact (Section.left_of_run ran).bounded runs (run.fits calling) bounded
  | called call legal here system stages =>
    rw [show m'.kernel = m.kernel from congrArg System.kernel system]
    exact bounded
  | idled here system stages =>
    rw [show m'.kernel = m.kernel from congrArg System.kernel system]
    exact bounded
  | returned here kernel | entered here kernel | quiet kernel =>
    rw [kernel]
    exact bounded
  | dispatched kernel started cpu stages =>
    obtain ⟨ys, dispatched⟩ := lined.dispatch order.running
    rw [kernel]
    exact chosen bounded dispatched
  | launched here booting kernel cpu stages =>
    obtain ⟨ys, dispatched⟩ := lined.booted.dispatch order.running
    rw [kernel]
    refine chosen (bounded.of_task fun t => ?_) dispatched
    by_cases idle : TaskId.idle = t
    · right
      change ((m.kernel.tasks.set _ _).get t).timeout = _
      rw [Table.get_set, if_pos idle]
    · exact .inl (congrArg Task.timeout (Table.get_set_ne _ _ idle))
  | wrote => exact bounded

theorem Run.bounded (run : Run config m h) : m.kernel.Bounded :=
  run.induct (fun _ => Nat.zero_le _) fun run ih change => change.bounded run ih

/-- The tasks that wait are in order as long as no request to dispatch is left out. -/
def Heeding (m : Machine) (h : History) : Prop :=
  m.cpu.started = true → m.cpu.dispatchPended = false → h.neglected = false → m.kernel.Settled

theorem Heeding.of_calm (heeding : m.Heeding h) (started : m'.cpu.started = m.cpu.started)
    (kept : m.cpu.dispatchPended = true → m'.cpu.dispatchPended = true)
    (neglected : h'.neglected = h.neglected) (calm : m.kernel.Calm m'.kernel) :
    m'.Heeding h' := by
  intro runs idle heeded
  refine calm.settled (heeding (started ▸ runs) ?_ (neglected ▸ heeded))
  cases pended : m.cpu.dispatchPended with
  | false => rfl
  | true => rw [kept pended] at idle; cases idle

theorem Change.heeding (run : Run config m h) (heeding : m.Heeding h)
    (change : Change m h m' h') : m'.Heeding h' := by
  have order := run.orderly
  obtain ⟨xs, lined⟩ := order.lined
  cases change with
  | code here ran goes stages =>
    obtain ⟨bare, stays⟩ := Stage.frame_of_run ran
    exact heeding.of_calm stays.started stays.kept rfl (.of_bare bare)
  | @ran _ sec next s here ran system stages =>
    obtain ⟨call, calling, runs⟩ := run.runs_of_enter here
    have left := Section.left_of_run ran
    intro started idle heeded
    obtain ⟨heeds, before⟩ := Bool.or_eq_false_iff.mp heeded
    have cpu : m'.cpu = { s.cpu with cpuLock := false } := by
      unfold Machine.cpu
      rw [system]
      rfl
    rw [cpu] at started idle
    have running : m.cpu.started = true := left.stays.started.symm.trans started
    rw [kernel_of_left system]
    rcases left.calm runs order.runsAs order.running (order.started.trans running) run.bounded
      heeds with pended | calm
    · rw [pended] at idle
      cases idle
    · refine calm.settled (heeding running ?_ before)
      cases pended : m.cpu.dispatchPended with
      | false => rfl
      | true => rw [left.stays.kept pended] at idle; cases idle
  | called call legal here system stages =>
    have cpu : m'.cpu = m.cpu := congrArg System.cpu system
    refine heeding.of_calm (by rw [cpu]) (by rw [cpu]; exact id) rfl (.of_bare ?_)
    exact congrArg (·.kernel.bare) system
  | idled here system stages =>
    have cpu : m'.cpu = m.cpu := congrArg System.cpu system
    refine heeding.of_calm (by rw [cpu]) (by rw [cpu]; exact id) rfl (.of_bare ?_)
    exact congrArg (·.kernel.bare) system
  | returned here kernel cpu | entered here kernel cpu | quiet kernel cpu =>
    refine heeding.of_calm cpu.started (by rw [cpu.dispatchPended]; exact id) rfl (.of_bare ?_)
    exact congrArg Kernel.bare kernel
  | dispatched kernel started cpu stages =>
    obtain ⟨ys, dispatched⟩ := lined.dispatch order.running
    intro _ _ _
    rw [kernel]
    exact dispatched.settled
  | launched here booting kernel cpu stages =>
    obtain ⟨ys, dispatched⟩ := lined.booted.dispatch order.running
    intro _ _ _
    rw [kernel]
    exact dispatched.settled
  | wrote => exact heeding.of_calm rfl id rfl (.of_bare rfl)

theorem Run.heeding (run : Run config m h) : m.Heeding h :=
  run.induct (fun started => by cases started) fun run ih change => change.heeding run ih

/-- While no dispatch is asked for, no ready task is more urgent than the running one, and the
idle task runs only when nobody is ready or suspended. -/
theorem Run.urgent_runs (run : Run config m h) (started : m.cpu.started = true)
    (idle : m.cpu.dispatchPended = false) (heeded : h.neglected = false) :
    (m.kernel.running ≠ TaskId.idle → ∀ t, 0 < t → t ≤ m.kernel.taskCount →
      m.kernel.isCandidate t = true →
        (m.kernel.task m.kernel.running).priority ≤ (m.kernel.task t).priority) ∧
    (m.kernel.running = TaskId.idle → ∀ t, 0 < t → t ≤ m.kernel.taskCount →
      m.kernel.isCandidate t = false ∧ (m.kernel.task t).wait ≠ .suspended) := by
  have settled := run.heeding started idle heeded
  constructor
  · intro busy t pos old ready
    by_cases other : m.kernel.running = t
    · exact Nat.le_of_eq (congrArg (fun u => (m.kernel.task u).priority) other)
    · exact (settled.urgent t ⟨pos, old, other⟩ ready).2
  · intro idles t pos old
    have peer : m.kernel.Peer t := ⟨pos, old, fun same => Nat.ne_of_gt pos (same.symm.trans idles)⟩
    refine ⟨?_, settled.awake t peer idles⟩
    rw [← Bool.not_eq_true]
    exact fun ready => (settled.urgent t peer ready).1 idles

def awaiting : Option (Machine × History) :=
  follow (initial { maxTasks := 2, arenaStart := 4096, arenaSize := 512, timeSlice := 0 }, [])
    [.call (.createTask "urgent" 256 5 0 0), .steps 4, .call (.createTask "other" 256 9 0 0),
      .steps 4, .launch, .steps 1, .call (.waitEvent 0 1 {} 0), .steps 6]

theorem urgent_runs_awaiting : ∃ m h config, Run config m h ∧ m.kernel.running = 2 ∧
    (m.kernel.task 1).priority = 5 ∧ (m.kernel.task 2).priority = 9 ∧
    ∀ t, 0 < t → t ≤ m.kernel.taskCount → m.kernel.isCandidate t = true →
      9 ≤ (m.kernel.task t).priority := by
  obtain ⟨x, hx⟩ := Option.isSome_iff_exists.mp (show awaiting.isSome = true by decide +kernel)
  have facts : awaiting.map (fun x => (x.1.cpu.started, x.1.cpu.dispatchPended, x.2.neglected,
      x.1.kernel.running, (x.1.kernel.task 1).priority, (x.1.kernel.task 2).priority)) =
      some (true, false, false, 2, 5, 9) := by decide +kernel
  rw [hx] at facts
  simp only [Option.map_some, Option.some.injEq, Prod.mk.injEq] at facts
  obtain ⟨started, idle, heeded, running, urgent, other⟩ := facts
  have run := run_of_follow hx
  refine ⟨_, _, _, run, running, urgent, other, ?_⟩
  have runs := (run.urgent_runs started idle heeded).1
  rw [running, other] at runs
  exact runs (by decide)

end Machine

end TaskKernel
