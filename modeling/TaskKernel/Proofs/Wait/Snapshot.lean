import TaskKernel.Proofs.Run.Leads
import TaskKernel.Proofs.Run.Writes

namespace TaskKernel

structure MultiWait.Sized (o : MultiWait) : Prop where
  fits : o.entries.length ≤ o.capacity
  bounded : o.capacity ≤ multiWaitMax

inductive Section.Arranges (k k' : Kernel) : Section → Prop where
  | leaves {sec : Section} (same : k'.multiWaits = k.multiWaits) : Arranges k k' sec
  | creates {w count : Nat} (set : k'.multiWaits = k.multiWaits.set w { capacity := count }) :
      Arranges k k' (.createMultiWait w count)
  | adds {w : Nat} {entry : SubWait} {o : MultiWait} (present : o = k.multiWaits.get w)
      (room : o.entries.length < o.capacity)
      (set : k'.multiWaits = k.multiWaits.set w { o with entries := o.entries ++ [entry] }) :
      Arranges k k' (.addSubWait w entry)

inductive Stage.Pursues (x : Combination) : Stage → Prop where
  | yield {t : TaskId} : Pursues x (.yield t (.goal (.multi x)))
  | reenter {t : TaskId} : Pursues x (.reenter t (.goal (.multi x)))
  | wake {t : TaskId} : Pursues x (.enter (.wake t (.goal (.multi x))))
  | «return» {r : Reply} : Pursues x (.return r)

/-- The first section of a wait, the oldest in the list, has found these conditions. -/
structure Combination.Taken (x : Combination) (w : Nat) (n : Ticks)
    (past : List (System × Section)) (s : System) : Prop where
  first : past.getLast? = some (s, .startMulti w x.combinator n)
  entries : x.entries = (s.kernel.multiWaits.get w).entries
  some : x.entries ≠ []

inductive Snapshot (w : Nat) (combinator : Combinator) (n : Ticks) :
    Stage → List (System × Section) → Prop where
  | starts : Snapshot w combinator n (.enter (.startMulti w combinator n)) []
  | fails {cause : Cause} {past : List (System × Section)} :
      Snapshot w combinator n (.fail cause) past
  | goes {x : Combination} {stage : Stage} {past : List (System × Section)} {s : System}
      (kind : x.combinator = combinator) (taken : x.Taken w n past s) (pursues : stage.Pursues x) :
      Snapshot w combinator n stage past

variable {s s' s₀ : System} {sec : Section} {stage next : Stage} {call : Call} {c : Context}
  {h h' : History} {g : Goal} {x : Combination} {w count : Nat} {combinator : Combinator}
  {n : Ticks} {past rest : List (System × Section)}

namespace MultiWait.Sized

theorem create (allowed : count ≤ multiWaitMax) :
    ({ capacity := count } : MultiWait).Sized :=
  ⟨Nat.zero_le _, allowed⟩

theorem push {o : MultiWait} (sized : o.Sized) (room : o.entries.length < o.capacity)
    (entry : SubWait) : ({ o with entries := o.entries ++ [entry] } : MultiWait).Sized := by
  refine ⟨?_, sized.bounded⟩
  rw [List.length_append]
  exact room

end MultiWait.Sized

namespace Kernel

variable {k k' : Kernel}

theorem multiWaits_of_bare (h : k'.bare = k.bare) : k'.multiWaits = k.multiWaits := by
  have := congrArg multiWaits h
  exact this

end Kernel

theorem Goal.Reached.multiWaits (now : g.Reached s s' next) :
    s'.kernel.multiWaits = s.kernel.multiWaits := by
  cases now with
  | event =>
    dsimp only
    split <;> rfl
  | @multi c =>
    obtain ⟨events, same⟩ := s.kernel.consume_eq (s.kernel.readySet c) c.entries
    exact (congrArg Kernel.multiWaits same).trans rfl
  | @flush q =>
    unfold System.emptyQueue
    cases (s.locked (.queue q) internalLock).kernel.ring q <;>
      simp only [System.requestReschedule_kernel] <;> rfl
  | lock => exact Kernel.multiWaits_setMutex ..
  | add | remove | heap => rfl

namespace Section

theorem plain_arranges (simple : sec.isPlain = true) (ran : sec.run s = (s', .leave next)) :
    sec.Arranges s.kernel s'.kernel := by
  have made := makes_of_run simple ran
  generalize s'.kernel = k' at made ⊢
  cases made with
  | sized => exact .creates rfl
  | extended present room => exact .adds present room rfl
  | ticked =>
    obtain ⟨tasks, journal, same⟩ := s.kernel.tick_eq
    exact .leaves (by rw [same])
  | unlocked => exact .leaves (Kernel.multiWaits_setMutex ..)
  | _ => exact .leaves rfl

theorem arranges_of_run (ran : sec.run s = (s', .leave next)) :
    sec.Arranges s.kernel s'.kernel := by
  cases left_of_run ran with
  | plain simple ran => exact plain_arranges simple ran
  | sought seeks sought =>
    obtain ⟨tasks, journal, rfl⟩ := seeks.state
    refine .leaves ?_
    cases sought with
    | reached now => exact now.multiWaits
    | refused | late | blocks => rfl
  | _ => exact .leaves rfl

/-- No section asks for a multi-wait on behalf of a later one. -/
theorem not_creates (ran : sec.run s = (s', .leave next)) :
    next ≠ .enter (.createMultiWait w count) := by
  intro he
  subst he
  generalize asks : Stage.enter (.createMultiWait w count) = next at ran
  cases left_of_run ran with
  | plain simple ran =>
    cases sec with
    | createTask =>
      rcases createTask_cases ran with ⟨-, he⟩ | ⟨-, he, -⟩ <;> cases asks.trans he
    | tick => cases asks.trans (tick_eq ran).2.1
    | checkNoRing | installRing | addSubWait =>
      simp only [run] at ran
      split at ran <;> cases ran <;> cases asks
    | pause | exit | seek | wake | startAdd | startFlush | startMulti => cases simple
    | _ =>
      cases ran
      cases asks
  | sought seeks sought =>
    cases sought with
    | reached now => cases now <;> cases asks
    | refused | late | blocks => cases asks
  | _ => cases asks

/-- Nothing is waited for without a condition. -/
theorem some_of_startMulti (ran : (startMulti w combinator n).run s = (s', .leave next))
    (goes : ∀ cause, next ≠ .fail cause) : (s.kernel.multiWaits.get w).entries ≠ [] := by
  intro none
  simp only [run, none, List.isEmpty_nil] at ran
  cases ran
  exact goes _ rfl

end Section

namespace Stage.Pursues

theorem of_goes (pursues : stage.Pursues x) (goes : stage.Goes next) : next.Pursues x := by
  cases pursues with
  | yield =>
    cases goes with
    | yield => exact .reenter
    | cpu succeeds lock => simp at lock
  | reenter =>
    cases goes with
    | reenter => exact .wake
    | cpu succeeds lock => simp at lock
  | wake =>
    cases goes with
    | enter => exact .wake
    | cpu succeeds lock => simp at lock
  | «return» =>
    cases goes with
    | cpu succeeds lock => simp at lock

/-- A section of the wait leads on with the same conditions. -/
theorem of_sought {nowait : Bool} {timeout : Ticks}
    (sought : Sought s (.multi x) nowait timeout s' next) : next.Pursues x := by
  cases sought with
  | reached now =>
    cases now
    exact .return
  | refused | late => exact .return
  | blocks => exact .yield

end Stage.Pursues

namespace Combination.Taken

theorem cons (taken : x.Taken w n past s₀) (y : System × Section) :
    x.Taken w n (y :: past) s₀ := by
  refine ⟨?_, taken.entries, taken.some⟩
  have first := taken.first
  cases past with
  | nil => cases first
  | cons z past => exact first

end Combination.Taken

namespace Snapshot

theorem of_goes (snapshot : Snapshot w combinator n stage past) (goes : stage.Goes next) :
    Snapshot w combinator n next past := by
  cases snapshot with
  | starts =>
    cases goes with
    | enter => exact .starts
    | cpu succeeds lock => simp at lock
  | fails =>
    cases goes with
    | cpu succeeds lock => simp at lock
  | goes kind taken pursues => exact .goes kind taken (pursues.of_goes goes)

theorem of_runs (snapshot : Snapshot w combinator n (.enter sec) past)
    (ran : sec.run s = (s', .leave next)) : Snapshot w combinator n next ((s, sec) :: past) := by
  by_cases ended : ∃ cause, next = .fail cause
  · obtain ⟨cause, rfl⟩ := ended
    exact .fails
  cases snapshot with
  | starts =>
    have some := Section.some_of_startMulti ran fun cause he => ended ⟨cause, he⟩
    cases Section.left_of_run ran with
    | plain simple => cases simple
    | failed => exact .fails
    | sought seeks sought =>
      cases seeks with
      | multi present =>
        subst present
        exact .goes rfl ⟨rfl, rfl, some⟩ (.of_sought sought)
  | goes kind taken pursues =>
    refine .goes kind (taken.cons _) ?_
    cases pursues
    cases Section.left_of_run ran with
    | plain simple => cases simple
    | failed => exact absurd ⟨_, rfl⟩ ended
    | sought seeks sought =>
      cases seeks
      exact .of_sought sought
    | asleep => exact .yield

end Snapshot

namespace Machine

variable {m m' : Machine} {config : Config}

/-- The size of a multi-wait is checked before it is created. -/
theorem Run.requested (run : Run config m h)
    (here : m.stageOf c = some (.enter (.createMultiWait w count)))
    (calling : h.calling c = some call) : count ≤ multiWaitMax := by
  refine Run.induct_call (P := fun stage _ => ∀ w count,
    stage = .enter (.createMultiWait w count) → count ≤ multiWaitMax) ?_ ?_ ?_ ?_
    run here calling w count rfl
  · intro config w count asks
    cases call with
    | createMultiWait =>
      simp only [Call.start] at asks
      split at asks
      · cases asks
      · rename_i allowed
        cases asks
        exact Nat.le_of_not_lt allowed
    | createTask | sleep | createQueue =>
      simp only [Call.start] at asks
      repeat' split at asks
      all_goals cases asks
    | _ => cases asks
  · intro _ w count asks
    cases asks
  · intro stage next past _ goes before w count asks
    subst asks
    cases goes with
    | enter => exact before w count rfl
  · intro s s' sec next past _ ran _ w count asks
    exact absurd asks (Section.not_creates ran)

theorem Change.sized (run : Run config m h) (change : Change m h m' h')
    (before : ∀ w, (m.kernel.multiWaits.get w).Sized) (w : Nat) :
    (m'.kernel.multiWaits.get w).Sized := by
  have carry : m'.kernel.multiWaits = m.kernel.multiWaits →
      (m'.kernel.multiWaits.get w).Sized := by
    intro same
    rw [same]
    exact before w
  cases change with
  | code here ran => exact carry (Kernel.multiWaits_of_bare (Stage.frame_of_run ran).1)
  | ran here ran system =>
    obtain ⟨call, calling, -⟩ := run.runs_of_enter here
    have kernel := kernel_of_left system
    cases Section.arranges_of_run ran with
    | leaves same => exact carry ((congrArg _ kernel).trans same)
    | creates set =>
      rw [kernel, set, Table.get_set]
      split
      · exact .create (run.requested here calling)
      · exact before w
    | adds present room set =>
      rw [kernel, set, Table.get_set]
      split
      · subst present
        exact (before _).push room _
      · exact before w
  | called call legal here system => exact carry (congrArg (·.kernel.multiWaits) system)
  | returned here kernel | entered here kernel | quiet kernel =>
    exact carry (congrArg Kernel.multiWaits kernel)
  | dispatched kernel => exact carry (kernel ▸ m.kernel.multiWaits_dispatch)
  | launched here booting kernel => exact carry (kernel ▸ m.kernel.booted.multiWaits_dispatch)
  | idled here system => exact carry (congrArg (·.kernel.multiWaits) system)
  | wrote => exact carry rfl

/-- A multi-wait has no more conditions than the kernel allows. -/
theorem Run.sized (run : Run config m h) (w : Nat) : (m.kernel.multiWaits.get w).Sized := by
  refine Run.induct (P := fun m _ => ∀ w, (m.kernel.multiWaits.get w).Sized) ?_ ?_ run w
  · intro w
    exact ⟨Nat.le_refl _, Nat.zero_le _⟩
  · intro m m' h h' run ih change
    exact change.sized run ih

theorem Run.snapshot (run : Run config m h) (here : m.stageOf c = some stage)
    (calling : h.calling c = some (.waitMulti w combinator n)) :
    Snapshot w combinator n stage (h.sectionsBy c) := by
  refine Run.induct_call (P := Snapshot w combinator n) ?_ ?_ ?_ ?_ run here calling
  · intro config
    exact .starts
  · intro tick
    cases tick
  · intro stage next past stays goes snapshot
    exact snapshot.of_goes goes
  · intro s s' sec next past runs ran snapshot
    exact snapshot.of_runs ran

/-- The conditions that a section of a wait works on were found in the first section. -/
theorem Run.works (run : Run config m h) (here : m.stageOf c = some (.enter sec))
    (calling : h.calling c = some (.waitMulti w combinator n))
    (ran : sec.run m.system = (s', .leave next)) (goes : ∀ cause, next ≠ .fail cause) :
    ∃ x first, Combination.combinator x = combinator ∧ sec.combination m.system = some x ∧
      x.Taken w n ((m.system, sec) :: h.sectionsBy c) first := by
  have snapshot := run.snapshot here calling
  generalize h.sectionsBy c = past at snapshot ⊢
  cases snapshot with
  | starts =>
    exact ⟨{ entries := (m.system.kernel.multiWaits.get w).entries, combinator }, m.system, rfl,
      rfl, rfl, rfl, Section.some_of_startMulti ran goes⟩
  | @goes x _ _ first kind taken pursues =>
    cases pursues
    exact ⟨x, first, kind, rfl, taken.cons _⟩

/-- They are no more than the kernel allows. -/
theorem Run.taken_bounded (run : Run config m h) (calling : h.calling c = some call)
    (taken : x.Taken w n (h.sectionsBy c) s) : x.entries.length ≤ multiWaitMax := by
  obtain ⟨newer, sections⟩ := List.getLast?_eq_some_iff.mp taken.first
  obtain ⟨older, ran, -⟩ := History.ran_of_sectionsBy newer sections calling
  obtain ⟨m₀, -, -, -, -, run₀, rfl, -⟩ := run.of_ran ran
  rw [taken.entries]
  exact Nat.le_trans (run₀.sized w).fits (run₀.sized w).bounded

end Machine

end TaskKernel
