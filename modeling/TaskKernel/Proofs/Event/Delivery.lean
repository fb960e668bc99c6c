import TaskKernel.Proofs.Event.Signals
import TaskKernel.Proofs.Run.Script
import TaskKernel.Proofs.Run.Writes

namespace TaskKernel

def ReadySet.takes (e : Nat) (r : ReadySet) : SubWait × Nat → List Signal
  | (.event i mask flags, n) => if (r.contains n ∧ flags.clear) ∧ i = e then [.take mask] else []
  | (.queue .., _) => []

def Combination.takes (e : Nat) (r : ReadySet) (c : Combination) : List Signal :=
  c.entries.zipIdx.reverse.flatMap (r.takes e)

/-- What a section of a call does to an event, the newest first. A wait takes bits in the section
that ends it, if it was told to clear them. -/
def Call.signals (e : Nat) (before : System) (sec : Section) : Call → List Signal
  | .raise i mask _ => if i = e then [.raise mask] else []
  | .clear i mask => if i = e then [.clear mask] else []
  | .waitEvent i mask flags _ =>
    match (sec.run before).2 with
    | .leave (.return (.matched _)) => if flags.clear ∧ i = e then [.take mask] else []
    | _ => []
  | .waitMulti .. =>
    match sec.combination before, (sec.run before).2 with
    | some c, .leave (.return (.ready r)) => c.takes e r
    | _, _ => []
  | _ => []

namespace History

def signals (e : Nat) : History → List Signal
  | [] => []
  | .ran c before sec :: h =>
    match calling c h with
    | some call => call.signals e before sec ++ signals e h
    | none => signals e h
  | _ :: h => signals e h

/-- Between two points of the history a section of a call did this to the event. -/
inductive Signalled (e : Nat) (past h : History) (x : Signal) : Prop where
  | intro {c : Context} {before : System} {sec : Section} {older : History} {call : Call}
      (within : .ran c before sec :: older <:+ h) (since : past <:+ older)
      (calling : older.calling c = some call) (signals : x ∈ call.signals e before sec)

inductive Takes (e b : Nat) (c : Context) (before : System) (sec : Section) (past : History) :
    Prop where
  | intro {call : Call} {mask : Word} (calling : past.calling c = some call)
      (takes : .take mask ∈ call.signals e before sec) (bit : mask.getLsbD b = true)
      (set : (before.kernel.event e).getLsbD b = true)

end History

/-- Some bits of the mask were set. They are returned, and no bit has changed but those that the
wait was told to clear. -/
structure System.Matches (e : Nat) (mask : Word) (clear : Bool) (s s' : System) (r : Reply) :
    Prop where
  set : s.kernel.event e &&& mask ≠ 0
  returns : r = .matched (s.kernel.event e &&& mask)
  word (i : Nat) : s'.kernel.event i = if i = e ∧ clear = true then
    (s.kernel.event i).without (s.kernel.event e &&& mask) else s.kernel.event i

namespace Kernel

variable {k : Kernel}

theorem event_setEvent (k : Kernel) (e i : Nat) (w : Word) :
    (k.setEvent e w).event i = if e = i then w else k.event i :=
  Table.get_set ..

theorem matched_eq (k : Kernel) (e : Nat) (mask : Word) : k.matched e mask = k.event e &&& mask :=
  rfl

/-- The conditions of a multi-wait take their bits one after the other. -/
theorem event_consume (k : Kernel) (r : ReadySet) (c : Combination) (e : Nat) :
    (k.consume r c.entries).event e = Signal.replay (k.event e) (c.takes e r) := by
  unfold consume Combination.takes
  generalize c.entries.zipIdx = xs
  induction xs generalizing k with
  | nil => rfl
  | cons x xs ih =>
    rw [List.foldl_cons, ih, List.reverse_cons, List.flatMap_append, Signal.replay_append]
    congr 1
    obtain ⟨entry, n⟩ := x
    cases entry with
    | queue => rfl
    | event i mask flags =>
      dsimp only
      by_cases hits : r.contains n = true ∧ flags.clear = true
      · rw [if_pos hits, event_clearEvent, matched_eq]
        by_cases here : i = e
        · subst here
          simp [ReadySet.takes, hits, Signal.replay, Signal.apply]
        · simp [ReadySet.takes, here, Signal.replay]
      · rw [if_neg hits]
        simp [ReadySet.takes, hits, Signal.replay]

end Kernel

variable {s s' : System} {sec : Section} {stage next : Stage} {call : Call} {c : Context}
  {h h' past : History} {e b : Nat} {mask : Word}

/-- A section of a call does to an event what its signals say. -/
theorem Call.Writes.signals (writes : call.Writes s sec s' next)
    (ran : (sec.run s).2 = .leave next) (e : Nat) :
    s'.kernel.event e = Signal.replay (s.kernel.event e) (call.signals e s sec) := by
  cases writes with
  | idle words silent fails =>
    have nothing : call.signals e s sec = [] := by
      cases call with
      | raise | clear => cases silent
      | waitEvent | waitMulti =>
        simp only [Call.signals, ran]
        split
        · rename_i same
          obtain ⟨_, he⟩ := fails rfl _ (Exit.leave.inj same)
          cases he
        · rfl
      | _ => rfl
    rw [nothing]
    exact Kernel.event_of_words words e
  | lock clear ends words =>
    exact (Kernel.event_of_words words e).trans (Kernel.event_setMutex ..)
  | unlock ends words => exact (Kernel.event_of_words words e).trans (Kernel.event_setMutex ..)
  | @raise i mask reschedule words =>
    rw [Kernel.event_of_words words e, Kernel.event_setEvent, Call.signals]
    by_cases here : i = e
    · subst here
      rw [if_pos rfl, if_pos rfl]
      rfl
    · rw [if_neg here, if_neg here]
      rfl
  | @clear i mask words =>
    rw [Kernel.event_of_words words e, Kernel.event_clearEvent, Call.signals]
    by_cases here : i = e
    · rw [if_pos here, if_pos here]
      rfl
    · rw [if_neg here, if_neg here]
      rfl
  | @waitEvent i mask flags n set ends words =>
    subst ends
    rw [Kernel.event_of_words words e]
    simp only [Call.signals, ran]
    by_cases clears : flags.clear = true
    · rw [if_pos clears, Kernel.event_clearEvent, Kernel.matched_eq]
      by_cases here : i = e
      · subst here
        rw [if_pos rfl, if_pos ⟨clears, rfl⟩]
        rfl
      · rw [if_neg here, if_neg fun x => here x.2]
        rfl
    · rw [if_neg clears, if_neg fun x => clears x.1]
      rfl
  | waitMulti after ends words =>
    subst ends
    rw [Kernel.event_of_words words e, Kernel.event_consume]
    simp only [Call.signals, ran, after]

/-- A wait that takes bits raises none. -/
theorem Call.not_raises_of_takes (takes : .take mask ∈ call.signals e s sec) :
    ¬ Signal.Raises (call.signals e s sec) b := by
  have only : ∀ x ∈ call.signals e s sec, ∃ mask, x = .take mask := by
    intro x member
    cases call with
    | raise | clear =>
      simp only [Call.signals] at takes
      split at takes <;> simp at takes
    | waitEvent =>
      simp only [Call.signals] at member
      split at member
      · split at member
        · exact ⟨_, List.mem_singleton.mp member⟩
        · cases member
      · cases member
    | waitMulti =>
      simp only [Call.signals] at member
      split at member
      · obtain ⟨condition, -, taken⟩ := List.mem_flatMap.mp member
        obtain ⟨entry, n⟩ := condition
        cases entry with
        | queue => cases taken
        | event =>
          simp only [ReadySet.takes] at taken
          split at taken
          · exact ⟨_, List.mem_singleton.mp taken⟩
          · cases taken
      · cases member
    | _ => cases member
  intro raises
  obtain ⟨mask, member, -⟩ := raises
  obtain ⟨_, he⟩ := only _ member
  cases he

/-- A wait for an event that reaches its goal takes what it returns. -/
theorem Call.Succeeds.matches {flags : WaitFlags} {n : Ticks} {r : Reply}
    (succeeds : (Call.waitEvent e mask flags n).Succeeds s s' r) :
    System.Matches e mask flags.clear s s' r := by
  obtain ⟨goal, same, now⟩ := succeeds
  cases goal
  cases now with
  | event set =>
    have event := Kernel.event_of_words (Kernel.words_of_objects same)
    rw [Kernel.matched_eq, event] at *
    refine ⟨set, rfl, ?_⟩
    intro i
    dsimp only
    by_cases clears : flags.clear = true
    · rw [if_pos clears, Kernel.event_clearEvent, event]
      by_cases here : e = i
      · rw [if_pos here, if_pos ⟨here.symm, clears⟩]
      · rw [if_neg here, if_neg fun x => here x.1.symm]
    · rw [if_neg clears, if_neg fun x => clears x.2, event]

namespace History

theorem signals_ran (calling : h.calling c = some call) (before : System) (sec : Section)
    (e : Nat) : signals e (.ran c before sec :: h) = call.signals e before sec ++ signals e h := by
  simp only [signals, calling]

/-- What was done since an earlier point of the history was done by the sections since. -/
theorem signals_since (earlier : past <:+ h) (e : Nat) : ∃ since, h.signals e =
    since ++ past.signals e ∧ ∀ x ∈ since, Signalled e past h x := by
  obtain ⟨new, rfl⟩ := earlier
  induction new with
  | nil => exact ⟨[], rfl, by simp⟩
  | cons x new ih =>
    obtain ⟨since, all, by_section⟩ := ih
    have older : ∀ y ∈ since, Signalled e past (x :: new ++ past) y := by
      intro y member
      obtain ⟨within, after, calling, signals⟩ := by_section y member
      exact ⟨within.trans (List.suffix_cons ..), after, calling, signals⟩
    cases x with
    | ran c before sec =>
      cases calling : History.calling c (new ++ past) with
      | none =>
        refine ⟨since, ?_, older⟩
        simp only [List.cons_append, History.signals, calling]
        exact all
      | some call =>
        refine ⟨call.signals e before sec ++ since, ?_, ?_⟩
        · rw [List.cons_append, signals_ran calling, all, List.append_assoc]
        · intro y member
          rcases List.mem_append.mp member with mine | member
          · exact ⟨List.suffix_refl _, List.suffix_append .., calling, mine⟩
          · exact older y member
    | _ => exact ⟨since, all, older⟩

end History

namespace Machine

variable {m m' : Machine} {config : Config}

theorem Change.signals (change : Change m h m' h')
    (idle : ∀ c before sec, h' ≠ .ran c before sec :: h) (e : Nat) :
    h'.signals e = h.signals e := by
  cases change with
  | ran => exact absurd rfl (idle _ _ _)
  | _ => rfl

/-- The word of an event is what the signals have made of it. -/
theorem Run.event_eq (run : Run config m h) (e : Nat) :
    m.kernel.event e = Signal.replay 0 (h.signals e) := by
  refine Run.induct (P := fun m h => m.kernel.event e = Signal.replay 0 (h.signals e)) rfl ?_ run
  intro m m' h h' run ih change
  rcases change.executes run with ⟨objects, idle⟩ | ⟨c, sec, call, s, next, executes⟩
  · rw [change.signals idle, ← ih]
    exact Kernel.event_of_words (Kernel.words_of_objects objects) e
  · have writes := executes.runs.writes executes.ran
    rw [executes.new, History.signals_ran executes.calling, Signal.replay_append, ← ih,
      executes.kernel]
    exact writes.signals (congrArg Prod.snd executes.ran) e

/-- What the section found in an event is what the signals had made of it. -/
theorem Run.event_of_ran {before : System} (run : Run config m h)
    (ran : .ran c before sec :: past <:+ h) (e : Nat) :
    before.kernel.event e = Signal.replay 0 (past.signals e) := by
  obtain ⟨m₀, m₁, call, s, next, run₀, rfl, executes⟩ := run.of_ran ran
  exact run₀.event_eq e

/-- With the CPU lock free, a call executes its first section at once. -/
theorem step_call {s : System} (starts : call.start m.kernel.config = .enter sec)
    (free : m.cpu.cpuLock = false)
    (ran : sec.run (m.system.setCpuLock true) = (s, .leave next)) :
    (m.call call).step.2 = .none ∧ (m.call call).step.1.step.2 = .none ∧
      (m.call call).step.1.step.1.activity = .point next := by
  have doing : (m.call call).activity = .running (.enter sec) := by
    rw [← starts]
    exact activity_setActivity ..
  have same : (m.call call).system = m.system := system_setActivity ..
  have first := step_enter doing (by unfold cpu; rw [same]; exact free)
  rw [same] at first
  have inside : (m.call call).step.1.activity = .inside sec := by
    rw [first]
    exact activity_setActivity ..
  have after : (m.call call).step.1.system = m.system.setCpuLock true := by
    rw [first]
    exact system_setActivity ..
  have second := step_inside inside (after ▸ ran)
  refine ⟨congrArg Prod.snd first, congrArg Prod.snd second, ?_⟩
  rw [second]
  exact activity_setActivity ..

structure Delivers (config : Config) (m : Machine) (h : History) (e : Nat) : Prop where
  word : m.kernel.event e = Signal.replay 0 (h.signals e)
  kept (m₀ : Machine) (past : History) (b : Nat) : Run config m₀ past → past <:+ h →
    (m₀.kernel.event e).getLsbD b = true → (m.kernel.event e).getLsbD b = false →
      ∃ mask, (History.Signalled e past h (.clear mask) ∨
        History.Signalled e past h (.take mask)) ∧ mask.getLsbD b = true
  once (c c' : Context) (before before' : System) (sec sec' : Section) (past past' : History)
    (b : Nat) : .ran c' before' sec' :: past' <:+ h → .ran c before sec :: past <:+ past' →
      History.Takes e b c before sec past → History.Takes e b c' before' sec' past' →
        ∃ mask, History.Signalled e (.ran c before sec :: past) past' (.raise mask) ∧
          mask.getLsbD b = true
  waiting (c : Context) (stage : Stage) (mask : Word) (flags : WaitFlags) (n : Ticks) :
    m.stageOf c = some stage → h.calling c = some (.waitEvent e mask flags n) →
      Pursued (System.Matches e mask flags.clear) stage (h.sectionsBy c)
  waited (c : Context) (r : Reply) (past : History) (mask : Word) (flags : WaitFlags) (n : Ticks) :
    .returned c r :: past <:+ h → past.calling c = some (.waitEvent e mask flags n) →
      Pursued (System.Matches e mask flags.clear) (.return r) (past.sectionsBy c)
  prompt (mask : Word) (flags : WaitFlags) (n : Ticks) : m.cpu.cpuLock = false →
    m.kernel.event e &&& mask ≠ 0 →
      (m.call (.waitEvent e mask flags n)).step.2 = .none ∧
      (m.call (.waitEvent e mask flags n)).step.1.step.2 = .none ∧
      (m.call (.waitEvent e mask flags n)).step.1.step.1.activity =
        .point (.return (.matched (m.kernel.event e &&& mask)))

theorem Run.kept (run : Run config m h) {m₀ : Machine} (run₀ : Run config m₀ past)
    (earlier : past <:+ h) (set : (m₀.kernel.event e).getLsbD b = true)
    (lost : (m.kernel.event e).getLsbD b = false) :
    ∃ mask, (History.Signalled e past h (.clear mask) ∨
      History.Signalled e past h (.take mask)) ∧ mask.getLsbD b = true := by
  obtain ⟨since, all, by_section⟩ := History.signals_since earlier e
  rw [run.event_eq, all, Signal.replay_append, ← run₀.event_eq] at lost
  obtain ⟨mask, lowers, bit⟩ := Signal.kept set lost
  exact ⟨mask, lowers.imp (by_section _) (by_section _), bit⟩

theorem Run.once (run : Run config m h) {c' : Context} {before before' : System}
    {sec' : Section} {past' : History} (later : .ran c' before' sec' :: past' <:+ h)
    (earlier : .ran c before sec :: past <:+ past') (takes : History.Takes e b c before sec past)
    (takes' : History.Takes e b c' before' sec' past') :
    ∃ mask, History.Signalled e (.ran c before sec :: past) past' (.raise mask) ∧
      mask.getLsbD b = true := by
  obtain ⟨calling, member, bit, -⟩ := takes
  obtain ⟨-, -, -, set⟩ := takes'
  obtain ⟨since, all, by_section⟩ := History.signals_since earlier e
  have gone : (Signal.replay 0 (History.signals e (.ran c before sec :: past))).getLsbD b =
      false := by
    rw [History.signals_ran calling, Signal.replay_append]
    exact Signal.taken member bit (Call.not_raises_of_takes member)
  rw [run.event_of_ran later, all, Signal.replay_append] at set
  obtain ⟨mask, raises, bit⟩ := Signal.raised gone set
  exact ⟨mask, by_section _ raises, bit⟩

theorem prompt (free : m.cpu.cpuLock = false) (set : m.kernel.event e &&& mask ≠ 0)
    (flags : WaitFlags) (n : Ticks) :
    (m.call (.waitEvent e mask flags n)).step.2 = .none ∧
      (m.call (.waitEvent e mask flags n)).step.1.step.2 = .none ∧
      (m.call (.waitEvent e mask flags n)).step.1.step.1.activity =
        .point (.return (.matched (m.kernel.event e &&& mask))) := by
  have matched : (m.system.setCpuLock true).kernel.matched e mask ≠ 0 := set
  obtain ⟨k, polled⟩ : ∃ k, (m.system.setCpuLock true).kernel.pollEvent e mask flags.clear =
      some (m.kernel.event e &&& mask, k) := ⟨_, if_neg matched⟩
  refine step_call rfl free (s := { m.system.setCpuLock true with kernel := k }) ?_
  simp only [Section.run, Goal.seek, Goal.attempt, polled]

/-- A bit of an event stays set until it is cleared or taken, two waits take it only if it was
raised in between, and a wait returns the bits that it found set in its last section. -/
theorem Run.delivers (run : Run config m h) (e : Nat) : Delivers config m h e := by
  refine ⟨run.event_eq e, ?_, ?_, ?_, ?_, ?_⟩
  · intro m₀ past b run₀ earlier set lost
    exact run.kept run₀ earlier set lost
  · intro c c' before before' sec sec' past past' b later earlier takes takes'
    exact run.once later earlier takes takes'
  · intro c stage mask flags n here calling
    exact (run.pursued here calling rfl).imp fun _ _ _ => Call.Succeeds.matches
  · intro c r past mask flags n returned calling
    exact (run.pursued_of_returned returned calling rfl).imp fun _ _ _ => Call.Succeeds.matches
  · intro mask flags n free set
    exact prompt free set flags n

def signalling : Option (Machine × History) :=
  follow (initial { maxTasks := 2, arenaStart := 4096, arenaSize := 512, timeSlice := 0 }, [])
    [.call (.createTask "urgent" 256 5 0 0), .steps 4, .call (.createTask "other" 256 9 0 0),
      .steps 4, .launch, .steps 1, .call (.waitEvent 0 3 { clear := true } 0), .steps 6,
      .call (.raise 0 1 true), .steps 8, .call (.waitEvent 0 1 { clear := true } 0), .steps 7,
      .call (.raise 0 3 true), .steps 6]

theorem delivers_signalling : ∃ m h config, Run config m h ∧
    h.signals 0 = [.take 1, .raise 3, .take 3, .raise 1] ∧ m.kernel.event 0 = 2 ∧
    ∃ s sec past, h.sectionsBy (.task 1) = (s, sec) :: past ∧ s.kernel.event 0 &&& 1 ≠ 0 ∧
      (sec.run s).1.kernel.event 0 = (s.kernel.event 0).without (s.kernel.event 0 &&& 1) ∧
      ∀ x ∈ past, x.2.Idles x.1 := by
  obtain ⟨x, hx⟩ := Option.isSome_iff_exists.mp (show signalling.isSome = true by decide +kernel)
  have facts : signalling.map (fun x => (x.2.signals 0, x.1.stageOf (.task 1),
      x.2.calling (.task 1))) = some ([.take 1, .raise 3, .take 3, .raise 1],
        some (.return (.matched 1)), some (.waitEvent 0 1 { clear := true } 0)) := by
    decide +kernel
  rw [hx] at facts
  simp only [Option.map_some, Option.some.injEq, Prod.mk.injEq] at facts
  obtain ⟨signals, here, calling⟩ := facts
  have run := run_of_follow hx
  have delivers := run.delivers 0
  refine ⟨_, _, _, run, signals, ?_, ?_⟩
  · rw [delivers.word, signals]
    rfl
  · have pursued := delivers.waiting _ _ _ _ _ here calling
    generalize past : x.2.sectionsBy (.task 1) = sections at pursued ⊢
    cases pursued with
    | unfinished returns => exact absurd rfl (returns _)
    | reached ran succeeds idle =>
      refine ⟨_, _, _, rfl, succeeds.set, ?_, idle⟩
      rw [ran]
      exact succeeds.word 0

end Machine

end TaskKernel
