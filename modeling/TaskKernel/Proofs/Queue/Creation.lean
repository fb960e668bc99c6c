import TaskKernel.Proofs.Heap.Tenancy
import TaskKernel.Proofs.Processor.Locking
import TaskKernel.Proofs.Run.Leads
import TaskKernel.Proofs.Run.Script
import TaskKernel.Proofs.Wait.Budget

namespace TaskKernel

structure Installation where
  context : Context
  slots : Nat
  payload : Nat
  base : Nat
  deriving DecidableEq

def History.installs (q : Nat) : History → List Installation
  | [] => []
  | .ran context _ (.installRing i slots payload base) :: h =>
    if i = q then { context, slots, payload, base } :: installs q h else installs q h
  | _ :: h => installs q h

def HeapResult.isAnswer : HeapResult → Bool
  | .allocated _ => true
  | .refused _ => true
  | _ => false

/-- A call that creates a queue returns right after its ring was installed. -/
structure Call.CreatesQueue (q slots payload : Nat) (stage : Stage)
    (past : List (System × Section)) : Prop where
  returns (r : Reply) : stage = .return r → (∃ e, r = .failed e) ∨ (r = .unit ∧
    ∃ before base rest, past = (before, .installRing q slots payload base) :: rest)
  answers (task : HeapTask) (r : HeapResult) :
    stage = .enter (.leaveHeap task r) ∨ stage = .leftHeap task r → r.isAnswer = true

variable {s s' : System} {sec : Section} {stage next : Stage} {call : Call} {c c' : Context}
  {h h' past past' : History} {halt : Halt} {q slots payload base : Nat}

namespace History

/-- Only sections install rings. -/
theorem installs_cons {x : Happening} (other : ∀ c before sec, x ≠ .ran c before sec) (q : Nat) :
    installs q (x :: h) = installs q h := by
  cases x with
  | ran => exact absurd rfl (other _ _ _)
  | called | returned | entered | dispatched => rfl

theorem installs_ran {before : System}
    (other : ∀ slots payload base, sec ≠ .installRing q slots payload base) :
    installs q (.ran c before sec :: h) = installs q h := by
  cases sec with
  | installRing i slots payload base =>
    refine if_neg ?_
    intro here
    subst here
    exact other _ _ _ rfl
  | _ => rfl

theorem installs_tail (x : Happening) (h : History) (q : Nat) :
    h.installs q <:+ installs q (x :: h) := by
  cases x with
  | ran context before sec =>
    cases sec with
    | installRing i slots payload base =>
      by_cases here : i = q
      · rw [show installs q (.ran context before (.installRing i slots payload base) :: h) =
          ⟨context, slots, payload, base⟩ :: installs q h from if_pos here]
        exact List.suffix_cons ..
      · exact ⟨[], (if_neg here).symm⟩
    | _ => exact List.suffix_refl _
  | _ => exact List.suffix_refl _

theorem installs_suffix (older : past <:+ h) (q : Nat) : past.installs q <:+ h.installs q := by
  induction h with
  | nil =>
    cases List.suffix_nil.mp older
    exact List.suffix_refl _
  | cons x h ih =>
    rcases List.suffix_cons_iff.mp older with rfl | older
    · exact List.suffix_refl _
    · exact (ih older).trans (installs_tail x h q)

/-- Two installations of one ring are the same. -/
theorem installs_inj {before before' : System} {slots' payload' base' : Nat}
    (once : (h.installs q).length ≤ 1)
    (ran : .ran c before (.installRing q slots payload base) :: past <:+ h)
    (ran' : .ran c' before' (.installRing q slots' payload' base') :: past' <:+ h) :
    Happening.ran c before (.installRing q slots payload base) :: past =
      .ran c' before' (.installRing q slots' payload' base') :: past' := by
  have apart : ∀ {c c' : Context} {before before' : System}
      {slots slots' payload payload' base base' : Nat} {past past' : History},
      .ran c before (.installRing q slots payload base) :: past <:+ past' →
      ¬ .ran c' before' (.installRing q slots' payload' base') :: past' <:+ h := by
    intro _ _ _ _ _ _ _ _ _ _ past past' older newer
    have one := (installs_suffix older q).length_le
    have two := (installs_suffix newer q).length_le
    rw [installs, if_pos rfl, List.length_cons] at one two
    omega
  rcases List.suffix_or_suffix_of_suffix ran ran' with older | older
  · exact (List.suffix_cons_iff.mp older).resolve_right fun older => apart older ran'
  · exact ((List.suffix_cons_iff.mp older).resolve_right fun older => apart older ran).symm

end History

namespace Call

theorem CreatesQueue.unfinished {past : List (System × Section)} (returns : ∀ r, stage ≠ .return r)
    (leaves : ∀ task r, stage ≠ .enter (.leaveHeap task r))
    (left : ∀ task r, stage ≠ .leftHeap task r) : CreatesQueue q slots payload stage past :=
  ⟨fun r hr => absurd hr (returns r),
    fun task r ht => (ht.elim (leaves task r) (left task r)).elim⟩

theorem CreatesQueue.fails {past : List (System × Section)} {e : WaitError} :
    CreatesQueue q slots payload (.return (.failed e)) past :=
  ⟨fun r hr => .inl ⟨e, (Stage.return.inj hr).symm⟩, by simp⟩

/-- Open code of a call that creates a queue. -/
theorem CreatesQueue.of_code {past : List (System × Section)} {move : Move}
    (creates : CreatesQueue q slots payload stage past)
    (stays : (Call.createQueue q slots payload).At c stage) (ran : stage.run s = (s', move))
    (moves : move.next stage = some next) (goes : stage.Goes next) :
    CreatesQueue q slots payload next past := by
  cases goes with
  | enter => exact creates
  | @useHeap task r =>
    refine ⟨by simp, ?_⟩
    rintro task' r' (he | he)
    · cases he
      cases stays with
      | useHeap seeks =>
        cases seeks
        simp only [Stage.run] at ran
        split at ran <;> cases ran <;> cases moves
        rename_i used
        cases System.uses_of_useHeap used <;> rfl
    · cases he
  | @leftHeap task result r =>
    have answer := creates.answers task result (.inr rfl)
    cases stays with
    | leftHeap seeks =>
      cases seeks
      cases result with
      | allocated => cases ran; cases moves
      | refused => cases ran; cases moves
      | freed | stats => cases answer
  | leftRing | reenter | yield => exact .unfinished (by simp) (by simp) (by simp)
  | cpu succeeds lock => rcases lock with rfl | rfl | rfl | rfl <;> cases stays
  | _ => cases stays

/-- A section of such a call. -/
theorem CreatesQueue.of_run {past : List (System × Section)}
    (creates : CreatesQueue q slots payload (.enter sec) past)
    (runs : (Call.createQueue q slots payload).Runs c sec) (ran : sec.run s = (s', .leave next)) :
    CreatesQueue q slots payload next ((s, sec) :: past) := by
  cases Section.left_of_run ran with
  | plain simple ran =>
    cases runs with
    | checkNoRing =>
      simp only [Section.run] at ran
      split at ran <;> cases ran <;> exact .unfinished (by simp) (by simp) (by simp)
    | installRing =>
      simp only [Section.run] at ran
      split at ran
      · cases ran
      · cases ran
        exact ⟨fun r hr => .inr ⟨(Stage.return.inj hr).symm, _, _, _, rfl⟩, by simp⟩
    | leaveHeap =>
      cases ran
      refine ⟨by simp, ?_⟩
      rintro task r (he | he)
      · cases he
      · cases he
        exact creates.answers _ _ (.inl rfl)
    | seek | wake | pause => cases simple
  | sought seeks sought =>
    cases goal_of_seeks runs seeks
    cases sought with
    | reached now =>
      cases now
      exact .unfinished (by simp) (by simp) (by simp)
    | refused | late => exact .fails
    | blocks => exact .unfinished (by simp) (by simp) (by simp)
  | failed | asleep | exits | exited => exact .unfinished (by simp) (by simp) (by simp)
  | pauses | late | lateExit => cases (pauses_of_runs runs).1
  | woken =>
    cases runs with
    | wake waits =>
      cases waits with
      | pause pauses => cases pauses

end Call

namespace System

theorem failWith_halts {cause : Cause} (failed : s.failWith cause = (s', .halt halt)) :
    s'.kernel.queues = s.kernel.queues ∧ ∃ e, halt = .fatal e := by
  cases failed
  exact ⟨Kernel.queues_of_objects (Kernel.objects_of_bare (s.logFailure_bare cause).1), _, rfl⟩

end System

/-- Where the heap is sought, only a context that cannot wait halts. -/
theorem Goal.heap_halts {task : HeapTask} {nowait : Bool} {timeout : Ticks}
    (halted : (Goal.heap task).seek s nowait timeout = (s', .halt halt)) :
    s'.kernel.queues = s.kernel.queues ∧ ∃ e, halt = .fatal e := by
  unfold Goal.seek Goal.attempt at halted
  cases lock : s.kernel.tryLock .heap internalLock with
  | some k =>
    simp only [lock] at halted
    cases halted
  | none =>
    simp only [lock] at halted
    split at halted
    · cases halted
    split at halted
    · cases halted
    unfold System.block at halted
    split at halted
    · exact System.failWith_halts halted
    split at halted
    · simp only [Waiter.timedOut, Goal.attempt, lock] at halted
      cases halted
    · cases halted

theorem System.wake_halts {t : TaskId} {task : HeapTask}
    (halted : s.wake t (.goal (.heap task)) = (s', .halt halt)) :
    s'.kernel.queues = s.kernel.queues ∧ ∃ e, halt = .fatal e := by
  unfold System.wake at halted
  dsimp only at halted
  split at halted
  · split at halted
    · simp only [Waiter.timedOut, Goal.attempt] at halted
      split at halted
      · rename_i done
        split at done
        · cases done
          cases halted
        · cases done
      · cases halted
    · exact Goal.heap_halts (s := s.roused t) halted
  · cases halted

/-- A section of a call that creates a queue halts with a fatal error, and changes no queue then. -/
theorem Section.creation_halts (runs : (Call.createQueue q slots payload).Runs c sec)
    (halted : sec.run s = (s', .halt halt)) :
    s'.kernel.queues = s.kernel.queues ∧ ∃ e, halt = .fatal e := by
  cases runs with
  | checkNoRing =>
    simp only [Section.run] at halted
    split at halted <;> cases halted
  | installRing =>
    simp only [Section.run] at halted
    split at halted
    · exact System.failWith_halts halted
    · cases halted
  | leaveHeap => cases halted
  | seek seeks =>
    cases seeks
    exact Goal.heap_halts halted
  | wake waits =>
    cases waits with
    | goal seeks =>
      cases seeks
      exact System.wake_halts halted
    | pause pauses => cases pauses
  | pause pauses => cases pauses

namespace Machine

variable {m m' : Machine} {config : Config} {region : Heap.Region} {r : Ring} {reply : Reply}

/-- The queue has no ring, or the one ring that was installed. -/
inductive Ringed (m : Machine) (h : History) (q : Nat) : Prop where
  | bare (ring : m.kernel.ring q = none) (none : h.installs q = [])
  | installed {r : Ring} {i : Installation} (ring : m.kernel.ring q = some r)
      (once : h.installs q = [i]) (base : r.base = i.base) (slotSize : r.slotSize = i.payload)
      (capacity : r.capacity = i.slots * (2 + i.payload)) : Ringed m h q

theorem Ringed.length_le (ringed : m.Ringed h q) : (h.installs q).length ≤ 1 := by
  cases ringed with
  | bare ring none => rw [none]; exact Nat.zero_le _
  | installed ring once => rw [once]; exact Nat.le_refl _

/-- A ring stays as it was installed. -/
theorem Ringed.keep (ringed : m.Ringed h q)
    (same : (m'.kernel.ring q).map Ring.geometry = (m.kernel.ring q).map Ring.geometry)
    (installs : h'.installs q = h.installs q) : m'.Ringed h' q := by
  cases ringed with
  | bare ring none =>
    rw [ring] at same
    exact .bare (Option.map_eq_none_iff.mp same) (installs.trans none)
  | installed ring once base slotSize capacity =>
    rw [ring] at same
    obtain ⟨r', ring', geometry⟩ := Option.map_eq_some_iff.mp same
    have base' := (congrArg Prod.fst geometry).trans base
    have slotSize' := (congrArg (·.2.1) geometry).trans slotSize
    have capacity' := (congrArg (·.2.2) geometry).trans capacity
    exact .installed ring' (installs.trans once) base' slotSize' capacity'

theorem Change.ringed (run : Run config m h) (change : Change m h m' h')
    (ringed : m.Ringed h q) : m'.Ringed h' q := by
  rcases change.queues run with ⟨same, idle⟩ | ⟨c, sec, call, s, next, executes⟩
  · refine ringed.keep (by rw [Kernel.ring_of_queues same]) ?_
    rcases change.older with rfl | ⟨x, rfl⟩
    · rfl
    · exact History.installs_cons (fun c before sec hx => idle c before sec (by rw [hx])) q
  · have new := executes.new
    subst new
    rcases (executes.tends run).geometry q with
      ⟨same, other⟩ | ⟨slots, payload, base, rfl, none, ring⟩
    · exact ringed.keep (by rw [executes.kernel, same]; rfl) (History.installs_ran other)
    · cases ringed with
      | bare _ fresh =>
        have once : History.installs q (.ran c m.system (.installRing q slots payload base) :: h) =
            [{ context := c, slots, payload, base }] := (if_pos rfl).trans (by rw [fresh])
        exact .installed (executes.kernel ▸ ring) once rfl rfl rfl
      | installed present => cases none.symm.trans present

theorem Run.ringed (run : Run config m h) (q : Nat) : m.Ringed h q :=
  run.induct (P := fun m h => m.Ringed h q) (.bare rfl rfl) fun run ih change =>
    change.ringed run ih

/-- A call that creates a queue and returns has installed the ring before. -/
theorem Run.installed_of_returned (run : Run config m h)
    (returned : .returned c reply :: past <:+ h)
    (calling : past.calling c = some (.createQueue q slots payload)) :
    reply = .unit ∧ ∃ before base, ∃ older : History,
      History.During c (.ran c before (.installRing q slots payload base) :: older) past := by
  obtain ⟨m₀, run₀, here⟩ := run.of_returned returned
  have creates : Call.CreatesQueue q slots payload (.return reply) (past.sectionsBy c) := by
    refine Run.induct_code (P := Call.CreatesQueue q slots payload) ?_ (by simp) ?_ ?_ run₀ here
      calling
    · intro config
      simp only [Call.start]
      split
      · exact .unfinished (by simp) (by simp) (by simp)
      · split <;> exact .unfinished (by simp) (by simp) (by simp)
    · intro s s' stage next move past stays ran moves goes creates
      exact creates.of_code stays ran moves goes
    · intro s s' sec next past runs ran creates
      exact creates.of_run runs ran
  rcases creates.returns reply rfl with ⟨e, failed⟩ | ⟨unit, before, base, rest, sections⟩
  · have answers := (run₀.timed c _ _ here calling).answers reply rfl
    exact absurd failed (answers.not_failed rfl rfl e)
  · obtain ⟨older, during, -⟩ := History.during_of_sectionsBy [] sections calling
    exact ⟨unit, before, base, older, during⟩

/-- One call to create a queue returns. -/
theorem Run.returned_once {reply' : Reply} {slots' payload' : Nat} (run : Run config m h)
    (returned : .returned c reply :: past <:+ h)
    (calling : past.calling c = some (.createQueue q slots payload))
    (returned' : .returned c' reply' :: past' <:+ h)
    (calling' : past'.calling c' = some (.createQueue q slots' payload')) : past = past' := by
  obtain ⟨-, before, base, older, during⟩ := run.installed_of_returned returned calling
  obtain ⟨-, before', base', older', during'⟩ := run.installed_of_returned returned' calling'
  have past_older := (List.suffix_cons _ _).trans returned
  have past_older' := (List.suffix_cons _ _).trans returned'
  have same := History.installs_inj (run.ringed q).length_le
    (during.suffix.trans past_older) (during'.suffix.trans past_older')
  cases same
  -- the later of two calls cannot have installed the ring before the earlier one returned
  rcases List.suffix_or_suffix_of_suffix returned returned' with earlier | earlier
  · rcases List.suffix_cons_iff.mp earlier with same | earlier
    · cases same
      rfl
    · exact absurd rfl (during'.within earlier during.suffix)
  · rcases List.suffix_cons_iff.mp earlier with same | earlier
    · cases same
      rfl
    · exact absurd rfl (during.within earlier during'.suffix)

/-- The use of a sound heap comes to an end. -/
theorem Tenancy.useHeap_ends {live : List Heap.Allocation} {holder : Nat → Holder}
    (t : Tenancy region m h live holder) :
    m.system.useHeap (.ring q slots payload) ≠ (s', .error halt) := by
  have sound := t.sound
  have memory : m.system.prepareHeap.kernel.memory = m.kernel.memory :=
    m.system.prepareHeap_memory
  rw [← memory] at sound
  intro used
  unfold System.useHeap System.applyHeap at used
  dsimp only at used
  rcases (sound.alloc (slots * (Ring.lengthSize + payload))).sound with
    ⟨a, result, -⟩ | ⟨result, -⟩
  · rw [result] at used
    cases used
  · rw [result] at used
    cases used

/-- Open code of a call that creates a queue halts with a fatal error. -/
theorem Run.code_halts (run : Run config m h) (arena : Arena config region)
    (leaves : h.LeavesLock) (doing : m.activity = .running stage)
    (stays : (Call.createQueue q slots payload).At c stage)
    (ran : stage.run m.system = (s', .halt halt)) (halted : m.step.2 = .halted halt) :
    ∃ e, halt = .fatal e := by
  cases stays with
  | enter =>
    simp only [Stage.run] at ran
    split at ran <;> cases ran
    exact ⟨_, rfl⟩
  | reenter =>
    simp only [Stage.run] at ran
    split at ran <;> cases ran
    exact absurd halted (run.disciplined leaves).uses.fair
  | yield | «return» => cases ran
  | useHeap seeks =>
    cases seeks
    obtain ⟨live, holder, t⟩ := run.tenancy arena
    simp only [Stage.run] at ran
    split at ran
    · cases ran
    · rename_i used
      exact absurd used t.useHeap_ends
  | leftHeap seeks =>
    simp only [Stage.run, System.leftHeap] at ran
    split at ran <;> cases ran
    exact ⟨_, rfl⟩
  | fail =>
    cases ran
    exact ⟨_, rfl⟩

/-- A call that creates a queue and does not return ends in a fatal error. It changes no queue. -/
theorem Run.creation_fatal (run : Run config m h) (arena : Arena config region)
    (calling : h.calling m.context = some (.createQueue q slots payload))
    (halted : m.step.2 = .halted halt) :
    m.step.1.kernel.queues = m.kernel.queues ∧ (h.LeavesLock → ∃ e, halt = .fatal e) := by
  cases doing : m.activity with
  | dormant | application =>
    unfold Machine.step at halted
    simp only [doing] at halted
    cases halted
  | point stage =>
    unfold Machine.step at halted
    simp only [doing] at halted
    split at halted
    · cases halted
    · rename_i handler cpu taken
      cases handler <;> cases halted
    · cases halted
  | running stage =>
    cases ran : stage.run m.system with
    | mk s move =>
      have halts := halt_of_step doing ran halted
      subst halts
      have stays := run.at_of_calling (stageOf_context doing) calling
      refine ⟨?_, fun leaves => run.code_halts arena leaves doing stays ran halted⟩
      unfold Machine.step
      simp only [doing, ran]
      exact Kernel.queues_of_objects (Kernel.objects_of_bare (Stage.frame_of_run ran).1)
  | inside sec =>
    obtain ⟨call, calling', runs⟩ := run.runs_of_enter (stageOf_context doing)
    cases calling.symm.trans calling'
    cases ran : sec.run m.system with
    | mk s exit =>
      unfold Machine.step at halted ⊢
      simp only [doing, ran] at halted ⊢
      cases exit with
      | leave next => cases halted
      | halt halt =>
        cases halted
        obtain ⟨same, fatal⟩ := Section.creation_halts runs ran
        exact ⟨same, fun _ => fatal⟩

structure Refuses (m : Machine) (q : Nat) : Prop where
  checks (slots payload : Nat) : m.activity = .inside (.checkNoRing q slots payload) →
    m.step.2 = .none ∧ m.step.1.activity = .point (.fail .queueExists)
  fails : m.activity = .running (.fail .queueExists) → m.step.2 = .halted (.fatal .badObjectState)
  installs (slots payload base : Nat) :
    m.activity = .inside (.installRing q slots payload base) →
    m.step.2 = .halted (.fatal .badObjectState)

theorem refuses_of_ring (ring : m.kernel.ring q = some r) : m.Refuses q := by
  have present : (m.system.kernel.ring q).isSome = true := by
    rw [show m.system.kernel.ring q = some r from ring]
    rfl
  constructor
  · intro slots payload doing
    have ran : (Section.checkNoRing q slots payload).run m.system =
        (m.system, .leave (.fail .queueExists)) := if_pos present
    rw [step_inside doing ran]
    exact ⟨rfl, activity_setActivity ..⟩
  · intro doing
    unfold step
    simp only [doing, Stage.run]
    rfl
  · intro slots payload base doing
    have ran : (Section.installRing q slots payload base).run m.system =
        m.system.failWith .queueExists := if_pos present
    unfold step
    simp only [doing, ran, System.failWith]
    rfl

def Apart (a n b k : Nat) : Prop := ∀ x, a ≤ x → x < a + n → ¬ (b ≤ x ∧ x < b + k)

structure Backed (region : Heap.Region) (m : Machine) (h : History) (q : Nat) (r : Ring) :
    Prop where
  live : ∃ live, Heap.Sound region m.kernel.heap m.kernel.memory live ∧
    ∃ x ∈ live, x.address = r.base ∧ r.capacity ≤ x.size
  rings (i : Nat) (r' : Ring) : i ≠ q → m.kernel.ring i = some r' →
    Apart r.base r.capacity r'.base r'.capacity
  owned (a n : Nat) : (a, n) ∈ h.owned → Apart r.base r.capacity a n

theorem Tenancy.backed {live : List Heap.Allocation} {holder : Nat → Holder}
    (t : Tenancy region m h live holder) (ring : m.kernel.ring q = some r) :
    Backed region m h q r := by
  obtain ⟨x, hx, address, room, -⟩ := t.held (.queue ring)
  have used : m.system.kernel.heap.hasRegion = true := by
    by_contra unused
    have sound := t.sound
    rw [System.prepareHeap_heap, if_neg unused] at sound
    have heap : Heap.ofRegion m.system.kernel.config.arenaStart m.system.kernel.config.arenaSize =
        region.heap := congrArg₂ Heap.ofRegion t.start t.length
    rw [heap] at sound
    generalize fresh : region.heap = heap at sound
    cases sound with
    | uncarved => cases hx
    | carved => exact absurd (congrArg Heap.first fresh) (Nat.ne_of_lt region.base_pos)
  have sound := t.sound
  rw [System.prepareHeap_of_hasRegion used] at sound
  refine ⟨⟨live, sound, x, hx, address, room⟩, ?_, ?_⟩
  · intro i r' other ring' b lower upper
    exact t.apart ring (.queue ring') (by simpa using other) lower upper
  · intro a n owned b lower upper
    exact t.apart ring (.application owned) (by simp) lower upper

/-- A ring stays as it is along every path. -/
theorem Run.ring_path (run : Run config m h) (ring : m.kernel.ring q = some r)
    (path : Path (m, h) (m', h')) :
    (m'.kernel.ring q).map Ring.geometry = some r.geometry := by
  cases run.ringed q with
  | bare none => cases ring.symm.trans none
  | @installed r₀ i ring₀ once base slotSize capacity =>
    cases ring.symm.trans ring₀
    have older := History.installs_suffix path.suffix q
    have run' : Run config m' h' := Run.path (x := (m, h)) run path
    rw [once] at older
    cases run'.ringed q with
    | bare ring' none =>
      rw [none] at older
      cases List.suffix_nil.mp older
    | @installed r' j ring' once' base' slotSize' capacity' =>
      rw [once'] at older
      have same : [i] = [j] := older.eq_of_length rfl
      cases same
      rw [ring', Option.map_some]
      unfold Ring.geometry
      rw [base, slotSize, capacity, base', slotSize', capacity']

/-- However many calls to create a queue overlap, one of them installs the ring and returns, and all
others end in a fatal error. The ring lies in memory of its own, and stays as it was installed. -/
theorem Run.installs_once (run : Run config m h) (arena : Arena config region) (q : Nat) :
    m.Ringed h q ∧
    (∀ c reply slots payload (past : History), .returned c reply :: past <:+ h →
      past.calling c = some (.createQueue q slots payload) →
      reply = .unit ∧ ∃ base, h.installs q = [{ context := c, slots, payload, base }]) ∧
    (∀ c c' reply reply' slots slots' payload payload' (past past' : History),
      .returned c reply :: past <:+ h →
      past.calling c = some (.createQueue q slots payload) →
      .returned c' reply' :: past' <:+ h →
      past'.calling c' = some (.createQueue q slots' payload') → past = past') ∧
    (∀ slots payload halt, h.calling m.context = some (.createQueue q slots payload) →
      m.step.2 = .halted halt → m.step.1.kernel.queues = m.kernel.queues ∧
        (h.LeavesLock → ∃ e, halt = .fatal e)) ∧
    ∀ r, m.kernel.ring q = some r → m.Refuses q ∧ Backed region m h q r ∧
      ∀ m' h', Path (m, h) (m', h') →
        ∃ r', m'.kernel.ring q = some r' ∧ r'.geometry = r.geometry := by
  refine ⟨run.ringed q, ?_, ?_, ?_, ?_⟩
  · intro c reply slots payload past returned calling
    obtain ⟨unit, before, base, older, during⟩ := run.installed_of_returned returned calling
    have ran := during.suffix.trans ((List.suffix_cons _ _).trans returned)
    have installed := History.installs_suffix ran q
    rw [History.installs, if_pos rfl] at installed
    cases run.ringed q with
    | bare ring none =>
      rw [none] at installed
      cases List.suffix_nil.mp installed
    | @installed _ i ring once =>
      rw [once] at installed ⊢
      have length := installed.length_le
      rw [List.length_cons] at length
      have same := installed.eq_of_length (Nat.le_antisymm length (by simp))
      obtain ⟨rfl, -⟩ := List.cons.inj same
      exact ⟨unit, base, rfl⟩
  · intro c c' reply reply' slots slots' payload payload' past past' returned calling
      returned' calling'
    exact run.returned_once returned calling returned' calling'
  · intro slots payload halt calling halted
    exact run.creation_fatal arena calling halted
  · intro r ring
    obtain ⟨live, holder, t⟩ := run.tenancy arena
    refine ⟨refuses_of_ring ring, t.backed ring, fun m' h' path => ?_⟩
    exact Option.map_eq_some_iff.mp (run.ring_path ring path)

/-- A task is preempted when the heap has just given it the memory for a ring. The task that is more
urgent creates the queue meanwhile, and leaves the processor to the first one with a second ring. -/
def overlapping : Option (Machine × History) :=
  follow (initial { maxTasks := 2, arenaStart := 4096, arenaSize := 512, timeSlice := 0 }, [])
    [.call (.createTask "slow" 256 5 0 0), .steps 4, .call (.createTask "urgent" 256 1 0 0),
      .steps 4, .launch, .steps 1, .call (.sleep 1), .steps 6, .call (.createQueue 0 2 4),
      .steps 8, .pend timerLine, .steps 13, .call (.createQueue 0 3 8), .steps 16,
      .call .suspend, .steps 8]

theorem installs_once_overlapping : ∃ m h region r, Run
    { maxTasks := 2, arenaStart := 4096, arenaSize := 512, timeSlice := 0 } m h ∧
    m.activity = .inside (.installRing 0 2 4 4120) ∧
    m.step.2 = .halted (.fatal .badObjectState) ∧
    h.installs 0 = [{ context := .task 2, slots := 3, payload := 8, base := 4160 }] ∧
    m.kernel.ring 0 = some r ∧ Backed region m h 0 r := by
  obtain ⟨x, hx⟩ := Option.isSome_iff_exists.mp (show overlapping.isSome = true by decide +kernel)
  have facts : overlapping.map (fun x => (x.1.activity, x.2.installs 0)) =
      some (.inside (.installRing 0 2 4 4120),
        [{ context := .task 2, slots := 3, payload := 8, base := 4160 }]) := by decide +kernel
  rw [hx] at facts
  obtain ⟨doing, installs⟩ := Prod.mk.inj (Option.some.inj facts)
  have arena : Arena { maxTasks := 2, arenaStart := 4096, arenaSize := 512, timeSlice := 0 }
      ⟨4096, 512, by decide, by decide⟩ := ⟨rfl, rfl⟩
  have run := run_of_follow hx
  obtain ⟨ringed, -, -, -, rings⟩ := run.installs_once arena 0
  cases ringed with
  | bare _ none => cases installs.symm.trans none
  | installed ring =>
    obtain ⟨refuses, backed, -⟩ := rings _ ring
    exact ⟨_, _, _, _, run, doing, refuses.installs _ _ _ doing, installs, ring, backed⟩

end Machine

end TaskKernel
