import TaskKernel.Proofs.Queue.Guard
import TaskKernel.Proofs.Wait.Budget

namespace TaskKernel

def MutexName.isInternal : MutexName → Bool
  | .object _ => false
  | .queue _ => true
  | .heap => true

def Stage.lock : Stage → Option MutexName
  | .copyIn q _ _ => some (.queue q)
  | .copyOut q _ _ => some (.queue q)
  | .enter (.commitAdd q) => some (.queue q)
  | .enter (.commitRemove q _ _) => some (.queue q)
  | .useHeap _ => some .heap
  | .enter (.leaveHeap _ _) => some .heap
  | _ => none

/-- The calls that go on with an internal lock when the section that takes it is over. A flush
gives the lock back in the same section. -/
inductive Call.Locks : Call → MutexName → Prop where
  | add {q : Nat} {flags : WaitFlags} {n : Ticks} {payload : List UInt8} :
      Locks (.add q flags n payload) (.queue q)
  | remove {q : Nat} {flags : WaitFlags} {n : Ticks} {buffer : List UInt8} :
      Locks (.remove q flags n buffer) (.queue q)
  | heap {call : Call} {task : HeapTask} (seeks : call.Seeks (.heap task)) : Locks call .heap

/-- The context in one of whose sections the lock was taken, unless it was given back since. -/
def History.keeper (n : MutexName) : History → Option Context
  | [] => none
  | .ran c before sec :: h =>
    if ((sec.run before).1.kernel.mutex n).isClear internalLock then none
    else if (before.kernel.mutex n).isClear internalLock then some c
    else keeper n h
  | _ :: h => keeper n h

inductive Section.Handles (n : MutexName) (s : System) (sec : Section) (s' : System)
    (next : Stage) : Prop where
  | leaves (same : s'.kernel.mutex n = s.kernel.mutex n)
      (before : (Stage.enter sec).lock ≠ some n) (after : next.lock ≠ some n)
  | takes (clear : (s.kernel.mutex n).isClear internalLock = true)
      (word : s'.kernel.mutex n = s.kernel.mutex n ||| internalLock)
      (before : (Stage.enter sec).lock = none) (after : next.lock = some n)
  | gives (before : (Stage.enter sec).lock = some n)
      (word : s'.kernel.mutex n = (s.kernel.mutex n).without internalLock)
      (after : next.lock = none)

variable {k k' : Kernel} {s s' s₀ : System} {sec : Section} {stage next : Stage} {call : Call}
  {c : Context} {g : Goal} {n : MutexName} {q : Nat}

namespace Word

theorem isClear_without (w : Word) : (w.without internalLock).isClear internalLock = true := by
  refine decide_eq_true (and_eq_zero.mpr ?_)
  intro b kept
  rw [getLsbD_without, Bool.and_eq_true, Bool.not_eq_true'] at kept
  exact kept.2

/-- A lock that was free is free again. -/
theorem without_or {w : Word} (clear : w.isClear internalLock = true) :
    (w ||| internalLock).without internalLock = w := by
  refine BitVec.eq_of_getLsbD_eq ?_
  intro b _
  have apart := and_eq_zero.mp (of_decide_eq_true clear) b
  rw [getLsbD_without, BitVec.getLsbD_or]
  cases set : w.getLsbD b with
  | false => rw [Bool.false_or, Bool.and_not_self]
  | true => rw [apart set, Bool.true_or, Bool.not_false, Bool.and_true]

end Word

namespace Kernel

theorem mutex_of_objects (h : k'.objects = k.objects) (n : MutexName) :
    k'.mutex n = k.mutex n := by
  have same : ∀ k : Kernel, k.objects.mutex n = k.mutex n := by
    intro k
    cases n <;> rfl
  rw [← same k', h, same k]

theorem mutex_unlock (k : Kernel) (m n : MutexName) (mask : Word) :
    (k.unlock m mask).mutex n = if m = n then (k.mutex n).without mask else k.mutex n := by
  refine (mutex_setMutex ..).trans ?_
  by_cases here : m = n
  · subst here
    rfl
  · rw [if_neg here, if_neg here]

/-- A queue gets a ring, and its lock is given back. -/
theorem mutex_unlock_setRing (k : Kernel) (q : Nat) (r : Option Ring) (n : MutexName) :
    ((k.setRing q r).unlock (.queue q) internalLock).mutex n =
      if .queue q = n then (k.mutex n).without internalLock else k.mutex n := by
  rw [mutex_unlock, mutex_setRing]

end Kernel

theorem System.mutex_locked (s : System) (m n : MutexName) (mask : Word) :
    (s.locked m mask).kernel.mutex n =
      if m = n then s.kernel.mutex n ||| mask else s.kernel.mutex n := by
  refine (Kernel.mutex_setMutex ..).trans ?_
  by_cases here : m = n
  · subst here
    rfl
  · rw [if_neg here, if_neg here]

theorem System.mutex_emptyQueue (s : System) (q : Nat) (n : MutexName) :
    (s.emptyQueue q).kernel.mutex n =
      if .queue q = n then (s.kernel.mutex n).without internalLock else s.kernel.mutex n := by
  unfold emptyQueue
  cases s.kernel.ring q with
  | none =>
    rw [requestReschedule_kernel]
    exact Kernel.mutex_unlock ..
  | some r =>
    rw [requestReschedule_kernel]
    have logged : (s.log (.queueFlushed q r.length)).kernel.mutex n = s.kernel.mutex n := by
      cases n <;> rfl
    rw [← logged]
    exact Kernel.mutex_unlock_setRing ..

namespace Stage

theorem lock_start (config : Config) (call : Call) : (call.start config).lock = none := by
  cases call with
  | createTask | sleep | createQueue | createMultiWait =>
    simp only [Call.start]
    repeat' split
    all_goals rfl
  | _ => rfl

theorem Goes.lock (goes : stage.Goes next) : next.lock = stage.lock := by
  cases goes with
  | cpu succeeds lock => rcases lock with rfl | rfl | rfl | rfl <;> rfl
  | _ => rfl

theorem lock_of_isWaiting (waits : stage.isWaiting = true) : stage.lock = none := by
  cases stage with
  | enter sec => cases sec <;> first | rfl | cases waits
  | _ => first | rfl | cases waits

end Stage

/-- A call that holds an internal lock is one of those that take it. -/
theorem Call.At.locks (stays : call.At c stage) (held : stage.lock = some n) : call.Locks n := by
  cases stays with
  | enter runs =>
    cases runs with
    | commitAdd => cases held; exact .add
    | commitRemove => cases held; exact .remove
    | leaveHeap seeks => cases held; exact .heap seeks
    | _ => cases held
  | copyIn => cases held; exact .add
  | copyOut => cases held; exact .remove
  | useHeap seeks => cases held; exact .heap seeks
  | _ => cases held

namespace Section

/-- An internal lock is not one of the application's. -/
theorem ne_of_internal (internal : n.isInternal = true) (i : Nat) : .object i ≠ n := by
  intro he
  subst he
  cases internal

/-- Nothing but the log or a task's entry has changed. -/
theorem Handles.idle (same : s'.kernel.objects = s.kernel.objects)
    (before : (Stage.enter sec).lock = none) (after : next.lock = none) :
    sec.Handles n s s' next :=
  .leaves (Kernel.mutex_of_objects same n) (by rw [before]; simp) (by rw [after]; simp)

/-- The lock is given back by a section that finds its call holding it. -/
theorem Handles.unlocks {m : MutexName} (held : (Stage.enter sec).lock = some m)
    (word : ∀ n, s'.kernel.mutex n =
      if m = n then (s.kernel.mutex n).without internalLock else s.kernel.mutex n)
    (after : next.lock = none) : sec.Handles n s s' next := by
  by_cases mine : m = n
  · subst mine
    exact .gives held ((word m).trans (if_pos rfl)) after
  · refine .leaves ((word n).trans (if_neg mine)) ?_ (by rw [after]; simp)
    rw [held]
    exact fun he => mine (Option.some.inj he)

theorem Handles.locks {m : MutexName} (clear : (s.kernel.mutex m).isClear internalLock = true)
    (word : ∀ n, s'.kernel.mutex n =
      if m = n then s.kernel.mutex n ||| internalLock else s.kernel.mutex n)
    (before : (Stage.enter sec).lock = none) (after : next.lock = some m) :
    sec.Handles n s s' next := by
  by_cases mine : m = n
  · subst mine
    exact .takes clear ((word m).trans (if_pos rfl)) before after
  · refine .leaves ((word n).trans (if_neg mine)) (by rw [before]; simp) ?_
    rw [after]
    exact fun he => mine (Option.some.inj he)

theorem Seeks.lock {nowait : Bool} {timeout : Ticks} (seeks : sec.Seeks s s₀ g nowait timeout) :
    (Stage.enter sec).lock = none := by
  cases seeks <;> rfl

theorem handles_of_reached {nowait : Bool} {timeout : Ticks} (runs : call.Runs c sec)
    (external : call.External) (internal : n.isInternal = true)
    (seeks : sec.Seeks s s₀ g nowait timeout) (now : g.Reached s₀ s' next) :
    sec.Handles n s s' next := by
  have goal := Call.goal_of_seeks runs seeks
  have before := seeks.lock
  have same := Kernel.mutex_of_objects seeks.objects
  cases now with
  | @lock m mask clear =>
    cases goal
    obtain ⟨i, rfl⟩ := external
    refine .leaves ?_ (by rw [before]; simp) (by simp [Stage.lock])
    rw [System.mutex_locked, if_neg (ne_of_internal internal i), same]
  | event =>
    refine .leaves ?_ (by rw [before]; simp) (by simp [Stage.lock])
    rw [← same]
    dsimp only
    split <;> cases n <;> rfl
  | @multi x met =>
    refine .leaves ?_ (by rw [before]; simp) (by simp [Stage.lock])
    obtain ⟨events, consumed⟩ := s₀.kernel.consume_eq (s₀.kernel.readySet x) x.entries
    have kernel : (s₀.update (·.consume (s₀.kernel.readySet x) x.entries)).kernel = _ := consumed
    rw [kernel, ← same]
    cases n <;> rfl
  | add clear | remove clear | heap clear =>
    rw [same] at clear
    refine .locks clear ?_ before rfl
    intro n
    rw [System.mutex_locked, same]
  | @flush q clear =>
    refine .leaves ?_ (by rw [before]; simp) (by simp [Stage.lock])
    rw [System.mutex_emptyQueue, System.mutex_locked, same]
    split
    · rename_i here
      subst here
      rw [same] at clear
      exact Word.without_or clear
    · rfl

theorem handles_of_plain (runs : call.Runs c sec) (external : call.External)
    (internal : n.isInternal = true) (simple : sec.isPlain = true)
    (ran : sec.run s = (s', .leave next)) : sec.Handles n s s' next := by
  cases runs with
  | createTask =>
    rcases createTask_cases ran with ⟨rfl, rfl⟩ | ⟨hk, rfl, -⟩
    · exact .idle rfl rfl rfl
    · exact .idle (hk ▸ rfl) rfl rfl
  | tick =>
    obtain ⟨hk, rfl, -⟩ := tick_eq ran
    obtain ⟨tasks, journal, ht⟩ := s.kernel.tick_eq
    exact .idle (hk ▸ ht ▸ rfl) rfl rfl
  | requestReschedule =>
    cases ran
    exact .idle (congrArg Kernel.objects s.requestReschedule_kernel) rfl rfl
  | unlock =>
    cases ran
    obtain ⟨i, rfl⟩ := external
    refine .leaves ?_ (by simp [Stage.lock]) (by simp [Stage.lock])
    rw [System.requestRescheduleIf_kernel]
    exact (Kernel.mutex_unlock ..).trans (if_neg (ne_of_internal internal i))
  | raise =>
    cases ran
    refine .leaves ?_ (by simp [Stage.lock]) (by simp [Stage.lock])
    rw [System.requestRescheduleIf_kernel]
    cases n <;> rfl
  | clear =>
    cases ran
    refine .leaves ?_ (by simp [Stage.lock]) (by simp [Stage.lock])
    cases n <;> rfl
  | checkNoRing =>
    simp only [run] at ran
    split at ran <;> cases ran <;> exact .idle rfl rfl rfl
  | installRing =>
    simp only [run] at ran
    split at ran <;> cases ran
    refine .leaves ?_ (by simp [Stage.lock]) (by simp [Stage.lock])
    rw [← Kernel.mutex_setRing s.kernel _ _ n]
    cases n <;> rfl
  | commitAdd | commitRemove =>
    cases ran
    refine .unlocks rfl ?_ rfl
    intro n
    rw [System.requestReschedule_kernel]
    exact Kernel.mutex_unlock_setRing ..
  | leaveHeap =>
    cases ran
    refine .unlocks rfl ?_ rfl
    intro n
    rw [System.requestReschedule_kernel]
    exact Kernel.mutex_unlock ..
  | createMultiWait =>
    cases ran
    exact .idle rfl rfl rfl
  | addSubWait =>
    simp only [run] at ran
    split at ran <;> cases ran <;> exact .idle rfl rfl rfl
  | pause | exit | seek | wake | startAdd | startFlush | startMulti => cases simple
  | _ =>
    cases ran
    exact .idle rfl rfl rfl

/-- What a section of a call does to an internal lock. -/
theorem handles_of_run (ran : sec.run s = (s', .leave next)) (runs : call.Runs c sec)
    (external : call.External) (internal : n.isInternal = true) : sec.Handles n s s' next := by
  cases left_of_run ran with
  | plain simple ran => exact handles_of_plain runs external internal simple ran
  | sought seeks sought =>
    cases sought with
    | reached now => exact handles_of_reached runs external internal seeks now
    | refused | late => exact .idle seeks.objects seeks.lock rfl
    | blocks => exact .idle seeks.objects seeks.lock rfl
  | failed waits =>
    refine .idle rfl ?_ rfl
    cases sec <;> first | rfl | cases waits
  | pauses | late | lateExit | exits | asleep | woken | exited => exact .idle rfl rfl rfl

end Section

namespace Machine

variable {m m' : Machine} {h h' past : History} {config : Config}

def lockOf (m : Machine) (c : Context) : Option MutexName := (m.stageOf c).bind Stage.lock

theorem lockOf_eq (here : m.stageOf c = some stage) : m.lockOf c = stage.lock := by
  unfold lockOf
  rw [here]
  rfl

/-- Locks change hands in sections only. -/
theorem Change.lockOf (change : Change m h m' h')
    (idle : ∀ c before sec, h' ≠ .ran c before sec :: h) (c : Context) :
    m'.lockOf c = m.lockOf c := by
  have none : ∀ {m : Machine} {c : Context}, m.stageOf c = none → m.lockOf c = none := by
    intro m c here
    unfold Machine.lockOf
    rw [here]
    rfl
  have moved : ∀ {stage : Option Stage} {c' : Context},
      (∀ c, m'.stageOf c = if c = c' then stage else m.stageOf c) →
      stage.bind Stage.lock = m.lockOf c' → m'.lockOf c = m.lockOf c := by
    intro stage c' stages same
    by_cases hc : c = c'
    · subst hc
      rw [← same]
      exact congrArg (·.bind Stage.lock) ((stages c).trans (if_pos rfl))
    · exact congrArg (·.bind Stage.lock) ((stages c).trans (if_neg hc))
  cases change with
  | ran => exact absurd rfl (idle _ _ _)
  | code here ran goes stages => exact moved stages (goes.lock.trans (lockOf_eq here).symm)
  | called call legal here system stages =>
    exact moved stages ((Stage.lock_start ..).trans (none here).symm)
  | returned here kernel cpu stages => exact moved stages (lockOf_eq here).symm
  | @entered _ handler here kernel cpu stages =>
    cases handler with
    | timer =>
      have serves : ∀ c, m'.stageOf c = if c = .handler then some .timer else m.stageOf c := by
        intro c
        rw [stages]
        simp
      exact moved serves (none here).symm
    | application => exact congrArg (·.bind Stage.lock) ((stages c).trans (if_neg (by simp)))
  | idled here system stages => exact moved stages (none here).symm
  | dispatched kernel started cpu stages | launched here booting kernel cpu stages
  | quiet kernel cpu stages => exact congrArg (·.bind Stage.lock) (stages c)
  | wrote => rfl

theorem Change.keeper (change : Change m h m' h')
    (idle : ∀ c before sec, h' ≠ .ran c before sec :: h) : h'.keeper n = h.keeper n := by
  cases change with
  | ran => exact absurd rfl (idle _ _ _)
  | _ => rfl

/-- An internal lock is set exactly while a context holds it, which is the one that took it. -/
structure Keeps (m : Machine) (h : History) (n : MutexName) : Prop where
  word : (m.kernel.mutex n).isClear internalLock = (h.keeper n).isNone
  holder (c : Context) : m.lockOf c = some n ↔ h.keeper n = some c

namespace Executes

variable (executes : Executes m h m' h' c sec call s next)

include executes

theorem keeper (n : MutexName) : h'.keeper n =
    if (s.kernel.mutex n).isClear internalLock then none
    else if (m.kernel.mutex n).isClear internalLock then some c else h.keeper n := by
  rw [executes.new]
  change (if ((sec.run m.system).1.kernel.mutex n).isClear internalLock then none
    else if (m.kernel.mutex n).isClear internalLock then some c else h.keeper n) = _
  rw [executes.ran]

theorem handles (run : Run config m h) (internal : n.isInternal = true) :
    sec.Handles n m.system s next :=
  Section.handles_of_run executes.ran executes.runs (run.external executes.calling) internal

theorem lockOf (c' : Context) : m'.lockOf c' = if c' = c then next.lock else m.lockOf c' := by
  by_cases mine : c' = c
  · subst mine
    rw [if_pos rfl, lockOf_eq executes.after]
  · rw [if_neg mine]
    exact congrArg (·.bind Stage.lock) (executes.others c' mine)

/-- A lock that a section leaves alone has the keeper that it had. -/
theorem keeper_of_leaves (keeps : m.Keeps h n) (same : s.kernel.mutex n = m.kernel.mutex n) :
    h'.keeper n = h.keeper n := by
  rw [executes.keeper, same, keeps.word]
  cases h.keeper n <;> rfl

/-- A section takes a lock that is free, gives back one that its context holds, or leaves it
alone. -/
theorem keeps (keeps : m.Keeps h n) (run : Run config m h) (internal : n.isInternal = true) :
    m'.Keeps h' n := by
  have mine := lockOf_eq executes.here
  cases executes.handles run internal with
  | leaves same before after =>
    have stays := executes.keeper_of_leaves keeps same
    refine ⟨?_, ?_⟩
    · rw [executes.kernel, same, stays]
      exact keeps.word
    · intro c'
      rw [executes.lockOf, stays, ← keeps.holder c']
      split
      · rename_i here
        subst here
        rw [mine]
        exact ⟨fun he => absurd he after, fun he => absurd he before⟩
      · rfl
  | takes clear set before after =>
    have taken : h'.keeper n = some c := by
      rw [executes.keeper, set, Word.not_isClear_or]
      exact if_pos clear
    refine ⟨?_, ?_⟩
    · rw [executes.kernel, set, Word.not_isClear_or, taken]
      rfl
    · intro c'
      rw [executes.lockOf, taken]
      split
      · rename_i here
        subst here
        exact ⟨fun _ => rfl, fun _ => after⟩
      · rename_i other
        refine ⟨?_, fun he => absurd (Option.some.inj he).symm other⟩
        intro held
        have free := keeps.word
        rw [(keeps.holder c').mp held] at free
        cases clear.symm.trans free
  | gives before cleared after =>
    have given : h'.keeper n = none := by
      rw [executes.keeper, cleared, Word.isClear_without]
      rfl
    refine ⟨?_, ?_⟩
    · rw [executes.kernel, cleared, Word.isClear_without, given]
      rfl
    · intro c'
      rw [executes.lockOf, given]
      refine ⟨?_, fun he => (by cases he)⟩
      intro held
      split at held
      · rw [after] at held
        cases held
      · rename_i other
        have first := (keeps.holder c').mp held
        have second := (keeps.holder c).mp (mine.trans before)
        exact absurd (Option.some.inj (first.symm.trans second)) other

end Executes

theorem Run.lock_kept (run : Run config m h) (internal : n.isInternal = true) : m.Keeps h n := by
  refine Run.induct (P := fun m h => m.Keeps h n) ?_ ?_ run
  · refine ⟨?_, ?_⟩
    · have clear : (Machine.initial config).kernel.mutex n = 0 := by cases n <;> rfl
      rw [clear]
      rfl
    · intro c
      cases c <;> exact ⟨fun he => (by cases he), fun he => (by cases he)⟩
  intro m m' h h' run ih change
  rcases change.executes run with ⟨objects, idle⟩ | ⟨c, sec, call, s, next, executes⟩
  · refine ⟨?_, ?_⟩
    · rw [Kernel.mutex_of_objects objects, change.keeper idle]
      exact ih.word
    · intro c
      rw [change.lockOf idle, change.keeper idle]
      exact ih.holder c
  · exact executes.keeps ih run internal

/-- The keeper's next section gives the lock back. -/
theorem Run.keeper_gives {before : System} (run : Run config m h) (internal : n.isInternal = true)
    (ran : .ran c before sec :: past <:+ h) (mine : past.keeper n = some c) :
    History.keeper n (.ran c before sec :: past) = none := by
  obtain ⟨m₀, m₁, call, s, next, run₀, rfl, executes⟩ := run.of_ran ran
  have held := ((run₀.lock_kept internal).holder c).mpr mine
  rw [lockOf_eq executes.here] at held
  cases executes.handles run₀ internal with
  | leaves same before after => exact absurd held before
  | takes clear word before after =>
    rw [before] at held
    cases held
  | gives before word after =>
    rw [executes.keeper, word, Word.isClear_without]
    rfl

/-- The sections of another context leave the lock with its keeper. -/
theorem Run.keeper_stays {before : System} {c' : Context} (run : Run config m h)
    (internal : n.isInternal = true) (ran : .ran c before sec :: past <:+ h)
    (held : past.keeper n = some c') (other : c' ≠ c) :
    History.keeper n (.ran c before sec :: past) = some c' := by
  obtain ⟨m₀, m₁, call, s, next, run₀, rfl, executes⟩ := run.of_ran ran
  have keeps := run₀.lock_kept internal
  cases executes.handles run₀ internal with
  | leaves same before after => exact (executes.keeper_of_leaves keeps same).trans held
  | takes clear word before after =>
    have free := keeps.word
    rw [held] at free
    cases clear.symm.trans free
  | gives before word after =>
    have mine := (keeps.holder c).mp ((lockOf_eq executes.here).trans before)
    exact absurd (Option.some.inj (held.symm.trans mine)) other

theorem Run.locks_of_keeper (run : Run config m h) (internal : n.isInternal = true)
    (held : h.keeper n = some c) : ∃ call, h.calling c = some call ∧ call.Locks n := by
  have lock := ((run.lock_kept internal).holder c).mpr held
  obtain ⟨stage, here, lock⟩ := Option.bind_eq_some_iff.mp lock
  have conforms := run.conforms c
  rw [here] at conforms
  rcases conforms.stage with ⟨-, rfl, -⟩ | ⟨call, calling, stays⟩
  · cases lock
  · exact ⟨call, calling, stays.locks lock⟩

theorem Run.not_keeper (run : Run config m h) (internal : n.isInternal = true)
    (here : m.stageOf c = some stage) (free : stage.lock = none) : h.keeper n ≠ some c := by
  intro held
  have lock := ((run.lock_kept internal).holder c).mpr held
  rw [lockOf_eq here, free] at lock
  cases lock

end Machine

end TaskKernel
