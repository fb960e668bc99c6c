import TaskKernel.Proofs.Event.Delivery
import TaskKernel.Proofs.Wait.Snapshot
import TaskKernel.Proofs.Wait.Traceless

namespace TaskKernel

def Combination.Holds (k : Kernel) (x : Combination) : Prop :=
  match x.combinator with
  | .every => ∀ sub ∈ x.entries, k.holds sub.alone = true
  | .some => ∃ sub ∈ x.entries, k.holds sub.alone = true

def ReadySet.clears (e : Nat) (r : ReadySet) : SubWait × Nat → Word
  | (.event i mask flags, n) => if (r.contains n ∧ flags.clear) ∧ i = e then mask else 0
  | (.queue .., _) => 0

def Combination.clears (e : Nat) (r : ReadySet) (x : Combination) : Word :=
  (x.entries.zipIdx.map (r.clears e)).foldr (· ||| ·) 0

inductive Combination.Ends (x : Combination) (s s' : System) : Reply → Prop where
  | ready {r : ReadySet}
      (ready : ∀ i, r.contains i = true ↔
        ∃ sub, x.entries[i]? = some sub ∧ s.kernel.holds sub.alone = true)
      (every : x.combinator = .every → ∀ i, i < x.entries.length → r.contains i = true)
      (some : x.combinator = .some → ∃ i, r.contains i = true)
      (words : ∀ e, s'.kernel.event e = (s.kernel.event e).without (x.clears e r))
      (others : s'.kernel.assets = { s.kernel.assets with events := s'.kernel.events }) :
      Ends x s s' (.ready r)
  | timeout (unmet : ¬ x.Holds s.kernel) (same : s'.kernel.assets = s.kernel.assets) :
      Ends x s s' (.failed .timeout)

/-- A section of a multi-wait with one condition, on an event, and the same section of the wait for
that event come to the same. -/
inductive Alike (x : Combination) (e : Nat) (mask : Word) (clear : Bool) :
    System × Exit → System × Exit → Prop where
  | succeeds {s : System} {r : ReadySet} {bits : Word} (only : ∀ i, r.contains i = true ↔ i = 0) :
      Alike x e mask clear (s, .leave (.return (.ready r))) (s, .leave (.return (.matched bits)))
  | fails {s : System} : Alike x e mask clear (s, .leave (.return (.failed .timeout)))
      (s, .leave (.return (.failed .timeout)))
  | waits {s : System} {n : Ticks} :
      Alike x e mask clear
        (s.recorded (.multi x) n, .leave (.yield s.kernel.running (.goal (.multi x))))
        (s.recorded (.event e mask) n,
          .leave (.yield s.kernel.running (.goal (.event e mask clear))))
  | sleeps {s : System} {t : TaskId} :
      Alike x e mask clear (s, .leave (.yield t (.goal (.multi x))))
        (s, .leave (.yield t (.goal (.event e mask clear))))
  | halts {s s' : System} {halt : Halt} : Alike x e mask clear (s, .halt halt) (s', .halt halt)

variable {k : Kernel} {s s' s₀ : System} {sec : Section} {stage next : Stage} {c : Context}
  {h past : History} {x : Combination} {w e : Nat} {mask : Word} {flags : WaitFlags}
  {combinator : Combinator} {n : Ticks} {r : Reply} {call : Call}

theorem Word.eq_zero_iff {w : Word} : w = 0 ↔ ∀ b, w.getLsbD b = false := by
  constructor
  · intro he b
    rw [he]
    exact getLsbD_zero b
  · intro clear
    refine BitVec.eq_of_getLsbD_eq fun b _ => ?_
    rw [clear b]
    exact (getLsbD_zero b).symm

namespace Combination

theorem contains_readySet (small : x.entries.length ≤ 32) (k : Kernel) (i : Nat) :
    (k.readySet x).contains i = true ↔
      ∃ sub, x.entries[i]? = some sub ∧ k.holds sub.alone = true := by
  unfold Kernel.readySet
  rw [ReadySet.contains_ofPredicate]
  simp only [Kernel.holdsAlone_eq_holds]
  constructor
  · exact And.right
  · intro found
    obtain ⟨sub, at_i, -⟩ := id found
    exact ⟨Nat.lt_of_lt_of_le (List.getElem?_eq_some_iff.mp at_i).1 small, found⟩

/-- All positions of a list are ready if as many are. -/
theorem length_toList_iff {r : ReadySet} {len : Nat} (small : len ≤ 32)
    (within : ∀ i, r.contains i = true → i < len) :
    r.toList.length = len ↔ ∀ i, i < len → r.contains i = true := by
  have split : List.range 32 = List.range len ++ (List.range (32 - len)).map (len + ·) := by
    rw [← List.range_add, Nat.add_sub_cancel' small]
  have beyond : ((List.range (32 - len)).map (len + ·)).filter r.contains = [] := by
    refine List.filter_eq_nil_iff.mpr ?_
    intro i member ready
    obtain ⟨j, -, rfl⟩ := List.mem_map.mp member
    exact Nat.not_lt_of_le (Nat.le_add_right len j) (within _ ready)
  have same : r.toList = (List.range len).filter r.contains := by
    change (List.range 32).filter r.contains = _
    rw [split, List.filter_append, beyond, List.append_nil]
  have full := List.length_filter_eq_length_iff (p := r.contains) (l := List.range len)
  rw [List.length_range] at full
  rw [same, full]
  simp only [List.mem_range]

/-- The scheduler and the woken task evaluate a combination as the waits of its conditions. -/
theorem isMetBy_iff (small : x.entries.length ≤ 32) (k : Kernel) :
    x.isMetBy (k.readySet x) = true ↔ x.Holds k := by
  have ready := contains_readySet small k
  unfold isMetBy Holds
  cases x.combinator with
  | every =>
    have within : ∀ i, (k.readySet x).contains i = true → i < x.entries.length := by
      intro i hi
      obtain ⟨sub, at_i, -⟩ := (ready i).mp hi
      exact (List.getElem?_eq_some_iff.mp at_i).1
    simp only [decide_eq_true_eq]
    rw [length_toList_iff small within]
    constructor
    · intro all sub member
      obtain ⟨i, at_i⟩ := List.mem_iff_getElem?.mp member
      obtain ⟨sub', at_i', holds⟩ := (ready i).mp (all i (List.getElem?_eq_some_iff.mp at_i).1)
      cases at_i.symm.trans at_i'
      exact holds
    · intro all i hi
      exact (ready i).mpr ⟨_, List.getElem?_eq_getElem hi, all _ (List.getElem_mem hi)⟩
  | some =>
    simp only [ReadySet.isEmpty, Bool.not_eq_true', decide_eq_false_iff_not, Word.eq_zero_iff,
      not_forall, Bool.not_eq_false]
    constructor
    · intro found
      obtain ⟨i, hi⟩ := found
      obtain ⟨sub, at_i, holds⟩ := (ready i).mp hi
      exact ⟨sub, List.mem_of_getElem? at_i, holds⟩
    · intro found
      obtain ⟨sub, member, holds⟩ := found
      obtain ⟨i, at_i⟩ := List.mem_iff_getElem?.mp member
      exact ⟨i, (ready i).mpr ⟨sub, at_i, holds⟩⟩

theorem holds_of_objects {k k' : Kernel} (same : k'.objects = k.objects) (x : Combination) :
    x.Holds k' ↔ x.Holds k := by
  unfold Holds
  simp only [Kernel.holds_of_objects same]

/-- Taking bits one after the other takes their union. -/
theorem replay_takes (w : Word) (e : Nat) (r : ReadySet) (x : Combination) :
    Signal.replay w (x.takes e r) = w.without (x.clears e r) := by
  unfold takes clears
  generalize x.entries.zipIdx = xs
  induction xs generalizing w with
  | nil =>
    refine BitVec.eq_of_getLsbD_eq fun b _ => ?_
    simp [Signal.replay, Word.getLsbD_without]
  | cons y xs ih =>
    have first : Signal.replay w (r.takes e y) = w.without (r.clears e y) := by
      refine BitVec.eq_of_getLsbD_eq fun b _ => ?_
      obtain ⟨entry, i⟩ := y
      cases entry with
      | queue => simp [ReadySet.takes, ReadySet.clears, Signal.replay, Word.getLsbD_without]
      | event j mask flags =>
        simp only [ReadySet.takes, ReadySet.clears]
        split
        · simp only [Signal.replay, List.foldr_cons, List.foldr_nil, Signal.apply,
            Word.getLsbD_without, BitVec.getLsbD_and]
          cases w.getLsbD b <;> simp
        · simp [Signal.replay, Word.getLsbD_without]
    rw [List.reverse_cons, List.flatMap_append, Signal.replay_append, ih]
    simp only [List.flatMap_cons, List.flatMap_nil, List.append_nil, first, List.map_cons,
      List.foldr_cons]
    refine BitVec.eq_of_getLsbD_eq fun b _ => ?_
    rw [Word.getLsbD_without, Word.getLsbD_without, Word.getLsbD_without, BitVec.getLsbD_or,
      Bool.not_or, Bool.and_assoc]

/-- A section that reaches the combination clears the bits of the ready conditions. -/
theorem ends_of_met (small : x.entries.length ≤ 32) (objects : s₀.kernel.objects = s.kernel.objects)
    (assets : s₀.kernel.assets = s.kernel.assets)
    (met : x.isMetBy (s₀.kernel.readySet x) = true) :
    x.Ends s (s₀.update (·.consume (s₀.kernel.readySet x) x.entries))
      (.ready (s₀.kernel.readySet x)) := by
  have same := Kernel.readySet_of_objects objects x
  rw [same] at met ⊢
  have ready := contains_readySet small s.kernel
  have holds := (isMetBy_iff small s.kernel).mp met
  refine .ready ready ?_ ?_ ?_ ?_
  · intro kind i hi
    simp only [Holds, kind] at holds
    exact (ready i).mpr ⟨_, List.getElem?_eq_getElem hi, holds _ (List.getElem_mem hi)⟩
  · intro kind
    simp only [Holds, kind] at holds
    obtain ⟨sub, member, holds⟩ := holds
    obtain ⟨i, at_i⟩ := List.mem_iff_getElem?.mp member
    exact ⟨i, (ready i).mpr ⟨sub, at_i, holds⟩⟩
  · intro i
    have before := Kernel.event_of_words (Kernel.words_of_objects objects) i
    exact ((s₀.kernel.event_consume _ x i).trans (replay_takes ..)).trans (by rw [before])
  · obtain ⟨events, consumed⟩ := s₀.kernel.consume_eq (s.kernel.readySet x) x.entries
    rw [← assets]
    unfold System.update
    dsimp only
    rw [consumed]
    rfl

end Combination

namespace Section

/-- A section of a multi-wait that ends it. -/
theorem ends_of_run (runs : (Call.waitMulti w combinator n).Runs c sec)
    (ran : sec.run s = (s', .leave (.return r))) (works : sec.combination s = some x)
    (small : x.entries.length ≤ 32) : x.Ends s s' r := by
  generalize ends : Stage.return r = next at ran
  cases left_of_run ran with
  | plain simple => rw [runs.waits_of_direct rfl] at simple; cases simple
  | @sought _ s₀ _ g nowait timeout _ seeks sought =>
    have goal := Call.goal_of_seeks runs seeks
    cases goal
    cases seeks.combination.symm.trans works
    have must : nowait = false := by
      cases seeks with
      | seek =>
        cases runs
        rfl
      | multi | wake => rfl
    cases sought with
    | reached now =>
      cases now with
      | multi met =>
        cases ends
        exact Combination.ends_of_met small seeks.objects seeks.assets met
    | refused later may => cases must.symm.trans may
    | late later =>
      cases ends
      refine .timeout ?_ seeks.assets
      rw [← Combination.holds_of_objects seeks.objects, ← Combination.isMetBy_iff small]
      cases later with
      | multi unmet => simp [unmet]
      | queue taken uses => simp at uses
    | blocks => cases ends
  | late able => exact absurd rfl (runs.not_pause rfl _ _ _)
  | woken chosen =>
    cases runs with
    | wake waits => exact absurd waits (Call.WaitsIn.goal_of_direct rfl)
  | failed | pauses | lateExit | exits | asleep | exited => cases ends

/-- A combination that holds is reached at once, whoever asks. -/
theorem startMulti_of_holds (small : x.entries.length ≤ 32)
    (present : (s.kernel.multiWaits.get w).entries = x.entries) (some : x.entries ≠ [])
    (holds : x.Holds s.kernel) (n : Ticks) :
    (startMulti w x.combinator n).run s =
      (s.update (·.consume (s.kernel.readySet x) x.entries),
        .leave (.return (.ready (s.kernel.readySet x)))) := by
  have met := (Combination.isMetBy_iff small s.kernel).mpr holds
  simp only [run, present, List.isEmpty_iff, some, Goal.seek, Goal.attempt, met]
  rfl

end Section

namespace Alike

theorem attempt_set (one : x.entries = [.event e mask flags]) (set : s.kernel.matched e mask ≠ 0) :
    ∃ s' r bits, (∀ i, ReadySet.contains r i = true ↔ i = 0) ∧
      (Goal.multi x).attempt s = .done s' (.leave (.return (.ready r))) ∧
      (Goal.event e mask flags.clear).attempt s = .done s' (.leave (.return (.matched bits))) := by
  have small : x.entries.length ≤ 32 := by simp [one]
  have holds : s.kernel.holds (SubWait.event e mask flags).alone = true := decide_eq_true set
  have only : ∀ i, (s.kernel.readySet x).contains i = true ↔ i = 0 := by
    intro i
    rw [Combination.contains_readySet small, one]
    cases i with
    | zero => simp [holds]
    | succ i => simp
  have met : x.isMetBy (s.kernel.readySet x) = true := by
    rw [Combination.isMetBy_iff small]
    unfold Combination.Holds
    rw [one]
    cases x.combinator <;> simp [holds]
  refine ⟨_, _, s.kernel.matched e mask, only, if_pos met, ?_⟩
  have first := (only 0).mpr rfl
  simp only [Goal.attempt, Kernel.pollEvent, set]
  simp only [Kernel.consume, one, System.update, List.zipIdx_cons, List.zipIdx_nil, List.foldl_cons,
    List.foldl_nil, first, true_and]
  rfl

theorem attempt_unset (one : x.entries = [.event e mask flags])
    (unset : s.kernel.matched e mask = 0) : (Goal.multi x).attempt s = .blocked (.multi x) ∧
      (Goal.event e mask flags.clear).attempt s = .blocked (.event e mask) := by
  have small : x.entries.length ≤ 32 := by simp [one]
  have out : s.kernel.holds (SubWait.event e mask flags).alone = false := by
    simp [SubWait.alone, Kernel.holds, unset]
  have unmet : ¬ x.isMetBy (s.kernel.readySet x) = true := by
    rw [Combination.isMetBy_iff small]
    unfold Combination.Holds
    rw [one]
    cases x.combinator <;> simp [out]
  refine ⟨if_neg unmet, ?_⟩
  simp only [Goal.attempt, Kernel.pollEvent, unset]
  rfl

/-- Both waits are chosen by the scheduler at the same times. -/
theorem holds (one : x.entries = [.event e mask flags]) (k : Kernel) :
    k.holds (.multi x) = k.holds (.event e mask) := by
  have small : x.entries.length ≤ 32 := by simp [one]
  refine Bool.eq_iff_iff.mpr ((Combination.isMetBy_iff small k).trans ?_)
  unfold Combination.Holds
  rw [one]
  cases x.combinator <;> simp [SubWait.alone]

theorem seek (one : x.entries = [.event e mask flags]) (s : System) (n : Ticks) :
    Alike x e mask flags.clear ((Goal.multi x).seek s false n)
      ((Goal.event e mask flags.clear).seek s false n) := by
  by_cases unset : s.kernel.matched e mask = 0
  · obtain ⟨multi, event⟩ := attempt_unset one unset
    unfold Goal.seek System.block
    rw [multi, event]
    simp only [WaitState.isForQueue]
    by_cases able : s.canBlock = true
    · by_cases expired : n = Ticks.expired
      · simp only [able, expired, Waiter.timedOut, multi, event]
        exact .fails
      · simp only [able, expired]
        exact .waits
    · simp only [able]
      exact .halts
  · obtain ⟨s', r, bits, only, multi, event⟩ := attempt_set one unset
    unfold Goal.seek
    rw [multi, event]
    exact .succeeds only

theorem wake (one : x.entries = [.event e mask flags]) (s : System) (t : TaskId) :
    Alike x e mask flags.clear ((Section.wake t (.goal (.multi x))).run s)
      ((Section.wake t (.goal (.event e mask flags.clear))).run s) := by
  simp only [Section.run, System.wake]
  by_cases chosen : (s.kernel.task t).wait = .run
  · simp only [chosen, if_true]
    by_cases expired : (s.kernel.task t).timeout = Ticks.expired
    · simp only [expired, if_true, Waiter.timedOut]
      generalize (s.update _).log _ = s
      by_cases unset : s.kernel.matched e mask = 0
      · obtain ⟨multi, event⟩ := attempt_unset one unset
        rw [multi, event]
        exact .fails
      · obtain ⟨s', r, bits, only, multi, event⟩ := attempt_set one unset
        rw [multi, event]
        exact .succeeds only
    · simp only [expired, if_false, Waiter.woken]
      exact seek one _ _
  · simp only [chosen, if_false]
    exact .sleeps

theorem start (present : (s.kernel.multiWaits.get w).entries = [.event e mask flags])
    (one : x.entries = [.event e mask flags]) (n : Ticks) :
    Alike x e mask flags.clear ((Section.startMulti w x.combinator n).run s)
      ((Section.seek (.event e mask flags.clear) false n).run s) := by
  obtain ⟨entries, combinator⟩ := x
  cases one
  simp only [Section.run, present]
  exact seek rfl s n

end Alike

namespace Machine

variable {m : Machine} {config : Config}

/-- How a wait for a multi-wait has returned: by the conditions that it found in its first section,
as they stood in its last. The sections before the last one changed nothing. -/
structure Waited (past : History) (c : Context) (w : Nat) (n : Ticks) (r : Reply)
    (x : Combination) (last : System) (sec : Section) (older : History) : Prop where
  taken : ∃ first, x.Taken w n (past.sectionsBy c) first
  bounded : x.entries.length ≤ multiWaitMax
  ran : .ran c last sec :: older <:+ past
  sections : past.sectionsBy c = (last, sec) :: older.sectionsBy c
  returns : (sec.run last).2 = .leave (.return r)
  ends : x.Ends last (sec.run last).1 r
  before (y : System × Section) : y ∈ older.sectionsBy c →
    (y.2.run y.1).1.kernel.assets = y.1.kernel.assets

structure Agrees (config : Config) (m : Machine) (h : History) : Prop where
  waited (c : Context) (r : Reply) (past : History) (w : Nat) (combinator : Combinator)
    (n : Ticks) : .returned c r :: past <:+ h →
      past.calling c = some (.waitMulti w combinator n) →
        ∃ x last sec older, Combination.combinator x = combinator ∧
          Waited past c w n r x last sec older
  code (c : Context) (stage : Stage) (w : Nat) (combinator : Combinator) (n : Ticks) :
    m.stageOf c = some stage → h.calling c = some (.waitMulti w combinator n) →
      (stage.run m.system).1.kernel.assets = m.kernel.assets
  prompt (w : Nat) (n : Ticks) (x : Combination) : m.cpu.cpuLock = false →
    (m.kernel.multiWaits.get w).entries = x.entries → x.entries ≠ [] → x.Holds m.kernel →
      (m.call (.waitMulti w x.combinator n)).step.2 = .none ∧
      (m.call (.waitMulti w x.combinator n)).step.1.step.2 = .none ∧
      (m.call (.waitMulti w x.combinator n)).step.1.step.1.activity =
        .point (.return (.ready (m.kernel.readySet x)))
  /-- A multi-wait with one condition, on an event, is a wait for that event: from the first section
  on, and from every section in which its task wakes up, and for the scheduler. -/
  single (x : Combination) (e : Nat) (mask : Word) (flags : WaitFlags) :
    x.entries = [.event e mask flags] →
      (∀ (s : System) w n, (s.kernel.multiWaits.get w).entries = x.entries →
        Alike x e mask flags.clear ((Section.startMulti w x.combinator n).run s)
          ((Section.seek (.event e mask flags.clear) false n).run s)) ∧
      (∀ (s : System) t, Alike x e mask flags.clear ((Section.wake t (.goal (.multi x))).run s)
        ((Section.wake t (.goal (.event e mask flags.clear))).run s)) ∧
      ∀ k : Kernel, k.holds (.multi x) = k.holds (.event e mask)

/-- The last section of a call that is after one goal ends it. -/
theorem Run.ended (run : Run config m h) (here : m.stageOf c = some (.return r))
    (calling : h.calling c = some call) (direct : call.isDirect = true) :
    ∃ (s : System) (sec : Section) (older : History), .ran c s sec :: older <:+ h ∧
      h.sectionsBy c = (s, sec) :: older.sectionsBy c ∧ older.calling c = some call ∧
      (sec.run s).2 = .leave (.return r) := by
  have pursued := run.pursued here calling direct
  generalize sections : h.sectionsBy c = past at pursued
  cases pursued with
  | unfinished returns => exact absurd rfl (returns r)
  | failed idle =>
    obtain ⟨s, sec, older, failed⟩ := run.failed here calling
    exact ⟨s, sec, older, failed.ran, sections.symm.trans failed.last, failed.calling,
      failed.ends⟩
  | reached ran succeeds idle =>
    obtain ⟨older, earlier, rest, mine⟩ :=
      History.ran_of_sectionsBy [] sections calling
    exact ⟨_, _, older, earlier, by rw [rest], mine, by rw [ran]⟩

theorem small_of_bounded (bounded : x.entries.length ≤ multiWaitMax) : x.entries.length ≤ 32 :=
  Nat.le_trans bounded (by decide)

/-- A section of a wait that has got nothing yet. -/
theorem not_succeeds (runs : (Call.waitMulti w combinator n).Runs c sec) :
    (Stage.enter sec).succeeds = false := by
  cases runs <;> rfl

theorem Run.waited (run : Run config m h) (returned : .returned c r :: past <:+ h)
    (calling : past.calling c = some (.waitMulti w combinator n)) :
    ∃ x last sec older, Combination.combinator x = combinator ∧
      Waited past c w n r x last sec older := by
  obtain ⟨m₀, run₀, here⟩ := run.of_returned returned
  obtain ⟨s, sec, older, ran, sections, mine, ends⟩ := run₀.ended here calling rfl
  obtain ⟨m₁, _, call, s', next, run₁, rfl, executes⟩ := run₀.of_ran ran
  cases executes.calling.symm.trans mine
  rw [executes.ran] at ends
  cases ends
  obtain ⟨x, first, kind, works, taken⟩ := run₁.works executes.here mine executes.ran (by simp)
  rw [← sections] at taken
  have bounded := run₀.taken_bounded calling taken
  refine ⟨x, _, sec, older, kind, ⟨first, taken⟩, bounded, ran, sections, ?_, ?_, ?_⟩
  · rw [executes.ran]
  · rw [executes.ran]
    exact Section.ends_of_run executes.runs executes.ran works (small_of_bounded bounded)
  · intro y member
    exact run₁.unmarked executes.here mine rfl (not_succeeds executes.runs) y member

/-- With the CPU lock free, a wait whose combination holds returns at once. -/
theorem Run.prompt (run : Run config m h) (free : m.cpu.cpuLock = false)
    (present : (m.kernel.multiWaits.get w).entries = x.entries) (some : x.entries ≠ [])
    (holds : x.Holds m.kernel) (n : Ticks) :
    (m.call (.waitMulti w x.combinator n)).step.2 = .none ∧
      (m.call (.waitMulti w x.combinator n)).step.1.step.2 = .none ∧
      (m.call (.waitMulti w x.combinator n)).step.1.step.1.activity =
        .point (.return (.ready (m.kernel.readySet x))) := by
  have small : x.entries.length ≤ 32 := by
    rw [← present]
    have sized := run.sized w
    exact Nat.le_trans (Nat.le_trans sized.fits sized.bounded) (by decide)
  exact step_call rfl free
    (Section.startMulti_of_holds (s := m.system.setCpuLock true) small present some holds n)

/-- The open code of a wait uses neither the heap nor the memory. -/
theorem stores_of_waitMulti (stays : (Call.waitMulti w combinator n).At c stage) :
    stage.stores = false := by
  cases stays with
  | useHeap seeks => cases seeks
  | _ => rfl

/-- A multi-wait returns the conditions that would hold as waits of their own, takes their bits and
nothing else, and times out only if too few of them hold. -/
theorem Run.agrees (run : Run config m h) : Agrees config m h := by
  refine ⟨?_, ?_, ?_, ?_⟩
  · intro c r past w combinator n returned calling
    exact run.waited returned calling
  · intro c stage w combinator n here calling
    exact Stage.assets_of_run rfl (stores_of_waitMulti (run.at_of_calling here calling))
  · intro w n x free present some holds
    exact run.prompt free present some holds n
  · intro x e mask flags one
    refine ⟨?_, ?_, ?_⟩
    · intro s w n present
      exact Alike.start (present.trans one) one n
    · intro s t
      exact Alike.wake one s t
    · intro k
      exact Alike.holds one k

/-- A task waits for two conditions on one event, both of which another task makes true. -/
def combining : Option (Machine × History) :=
  follow (initial { maxTasks := 2, arenaStart := 4096, arenaSize := 512, timeSlice := 0 }, [])
    [.call (.createTask "urgent" 256 5 0 0), .steps 4, .call (.createTask "other" 256 9 0 0),
      .steps 4, .launch, .steps 1, .call (.createMultiWait 0 2), .steps 4,
      .call (.addSubWait 0 (.event 0 3 { clear := true })), .steps 4,
      .call (.addSubWait 0 (.event 0 1 { clear := true })), .steps 4,
      .call (.waitMulti 0 .every 0), .steps 6, .call (.raise 0 5 true), .steps 8]

theorem agrees_combining : ∃ (m : Machine) (h past : History) (config : Config) (r : ReadySet),
    Run config m h ∧ h = .returned (.task 1) (.ready r) :: past ∧ r.bits = 3 ∧
    past.calling (.task 1) = some (.waitMulti 0 .every 0) ∧
    ∃ x last sec older, Combination.combinator x = .every ∧
      Waited past (.task 1) 0 0 (.ready r) x last sec older := by
  have script : combining.map (fun x => x.2.lastReturn fun _ => ()) =
      some (some (.task 1, .ready ⟨3⟩, some (.waitMulti 0 .every 0), some ())) := by
    decide +kernel
  obtain ⟨x, hx, facts⟩ := Option.map_eq_some_iff.mp script
  obtain ⟨past, -, -, -, returned, calling, -⟩ := History.returned_of_lastReturn facts
  have run := run_of_follow hx
  exact ⟨_, _, past, _, _, run, returned, rfl, calling,
    run.agrees.waited _ _ past _ _ _ (returned ▸ List.suffix_refl _) calling⟩

end Machine

end TaskKernel
