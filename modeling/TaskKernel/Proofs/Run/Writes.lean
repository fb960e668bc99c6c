import TaskKernel.Proofs.Run.Executions

namespace TaskKernel

def Kernel.words (k : Kernel) : Table Word × Table Word := (k.mutexes, k.events)

def Kernel.retold (k : Kernel) (tasks : Table Task) (journal : List Message) : Kernel :=
  { k with tasks, journal }

def Section.combination (s : System) : Section → Option Combination
  | .startMulti w combinator _ =>
    some { entries := (s.kernel.multiWaits.get w).entries, combinator }
  | .seek (.multi c) _ _ => some c
  | .wake _ (.goal (.multi c)) => some c
  | _ => none

def Section.isWrite : Section → Bool
  | .unlock .. => true
  | .raise .. => true
  | .clear .. => true
  | _ => false

def Call.isWrite : Call → Bool
  | .unlock .. => true
  | .raise .. => true
  | .clear .. => true
  | _ => false

inductive Call.Writes (s : System) (sec : Section) (s' : System) (next : Stage) : Call → Prop where
  | idle {call : Call} (words : s'.kernel.words = s.kernel.words) (silent : call.isWrite = false)
      (fails : call.isDirect = true → ∀ r, next = .return r → ∃ e, r = .failed e) :
      Writes s sec s' next call
  | lock {m : MutexName} {mask : Word} {flags : WaitFlags} {n : Ticks}
      (clear : (s.kernel.mutex m).isClear mask = true) (ends : next = .return .unit)
      (words : s'.kernel.words = (s.kernel.setMutex m (s.kernel.mutex m ||| mask)).words) :
      Writes s sec s' next (.lock m mask flags n)
  | unlock {m : MutexName} {mask : Word} {reschedule : Bool} (ends : next = .return .unit)
      (words : s'.kernel.words = (s.kernel.unlock m mask).words) :
      Writes s sec s' next (.unlock m mask reschedule)
  | raise {e : Nat} {mask : Word} {reschedule : Bool}
      (words : s'.kernel.words = (s.kernel.setEvent e (s.kernel.event e ||| mask)).words) :
      Writes s sec s' next (.raise e mask reschedule)
  | clear {e : Nat} {mask : Word}
      (words : s'.kernel.words = (s.kernel.clearEvent e mask).words) :
      Writes s sec s' next (.clear e mask)
  | waitEvent {e : Nat} {mask : Word} {flags : WaitFlags} {n : Ticks}
      (set : s.kernel.matched e mask ≠ 0)
      (ends : next = .return (.matched (s.kernel.matched e mask)))
      (words : s'.kernel.words = (if flags.clear then
        s.kernel.clearEvent e (s.kernel.matched e mask) else s.kernel).words) :
      Writes s sec s' next (.waitEvent e mask flags n)
  | waitMulti {w : Nat} {combinator : Combinator} {n : Ticks} {c : Combination}
      (after : sec.combination s = some c)
      (ends : next = .return (.ready (s.kernel.readySet c)))
      (words : s'.kernel.words = (s.kernel.consume (s.kernel.readySet c) c.entries).words) :
      Writes s sec s' next (.waitMulti w combinator n)

namespace Kernel

variable {k k' : Kernel}

theorem words_of_objects (h : k'.objects = k.objects) : k'.words = k.words := by
  have := congrArg words h
  exact this

theorem object_of_words (h : k'.words = k.words) (i : Nat) :
    k'.mutex (.object i) = k.mutex (.object i) :=
  congrArg (fun words => words.1.get i) h

theorem event_of_words (h : k'.words = k.words) (e : Nat) : k'.event e = k.event e :=
  congrArg (fun words => words.2.get e) h

theorem readySet_of_objects (h : k'.objects = k.objects) (c : Combination) :
    k'.readySet c = k.readySet c := by
  refine ReadySet.ofPredicate_congr ?_
  intro s _
  rw [holdsAlone_eq_holds, holdsAlone_eq_holds, holds_of_objects h]

theorem words_emptyQueue (s : System) (q : Nat) :
    (s.emptyQueue q).kernel.words = s.kernel.words := by
  unfold System.emptyQueue
  cases s.kernel.ring q <;> simp only [System.requestReschedule_kernel] <;> rfl

variable (k) (tasks : Table Task) (journal : List Message)

theorem words_retold : (k.retold tasks journal).words = k.words := rfl

theorem mutex_retold (m : MutexName) : (k.retold tasks journal).mutex m = k.mutex m := by
  cases m <;> rfl

theorem words_setMutex (m : MutexName) (w : Word) :
    ((k.retold tasks journal).setMutex m w).words = (k.setMutex m w).words := by
  cases m <;> rfl

theorem consume_retold (ready : ReadySet) (entries : List SubWait) :
    (k.retold tasks journal).consume ready entries =
      (k.consume ready entries).retold tasks journal := by
  unfold consume
  refine List.foldl_hom (fun k : Kernel => k.retold tasks journal) ?_
  intro k x
  rcases x with ⟨_ | _, i⟩
  · dsimp only
    split <;> rfl
  · rfl

end Kernel

variable {s s' s₀ : System} {sec : Section} {next : Stage} {call : Call} {c : Context} {g : Goal}

namespace Section

theorem Seeks.combination {nowait : Bool} {timeout : Ticks} {x : Combination}
    (seeks : sec.Seeks s s₀ (.multi x) nowait timeout) : sec.combination s = some x := by
  cases seeks with
  | seek | wake => rfl
  | multi present =>
    subst present
    rfl

theorem plain_words (simple : sec.isPlain = true) (silent : sec.isWrite = false)
    (ran : sec.run s = (s', .leave next)) : s'.kernel.words = s.kernel.words := by
  have made := makes_of_run simple ran
  generalize s'.kernel = k' at made ⊢
  cases made with
  | unlocked | raised | cleared => cases silent
  | ticked =>
    obtain ⟨tasks, journal, same⟩ := s.kernel.tick_eq
    rw [same]
    rfl
  | _ => rfl

/-- A section of a call for something else leaves the words alone. -/
theorem Left.words (left : sec.Left s s' next) (runs : call.Runs c sec)
    (direct : call.isDirect = false) (silent : sec.isWrite = false) :
    s'.kernel.words = s.kernel.words := by
  cases left with
  | plain simple ran => exact plain_words simple silent ran
  | sought seeks sought =>
    have goal := Call.goal_of_seeks runs seeks
    have before := Kernel.words_of_objects seeks.objects
    cases sought with
    | reached now =>
      refine Eq.trans ?_ before
      cases now with
      | lock | event | multi =>
        cases goal
        cases direct
      | flush => exact Kernel.words_emptyQueue ..
      | add | remove | heap => rfl
    | refused | late | blocks => exact before
  | _ => rfl

end Section

namespace Call

theorem Runs.isWrite (runs : call.Runs c sec) (silent : call.isWrite = false) :
    sec.isWrite = false := by
  cases runs with
  | unlock | raise | clear => cases silent
  | _ => rfl

/-- What a section of a call for a mutex, an event or a multi-wait does when it succeeds. -/
theorem Seeks.writes {nowait : Bool} {timeout : Ticks} (goal : call.Seeks g)
    (direct : call.isDirect = true) (seeks : sec.Seeks s s₀ g nowait timeout)
    (now : g.Reached s₀ s' next) : call.Writes s sec s' next := by
  obtain ⟨tasks, journal, state⟩ := seeks.state
  have kernel : s₀.kernel = s.kernel.retold tasks journal := congrArg System.kernel state
  cases goal with
  | lock =>
    cases now with
    | @lock m mask clear =>
      rw [kernel, Kernel.mutex_retold] at clear
      refine .lock clear rfl ?_
      unfold System.locked System.update
      dsimp only
      rw [kernel, Kernel.mutex_retold]
      exact Kernel.words_setMutex ..
  | event =>
    cases now with
    | event set =>
      have matched : ∀ e mask, s₀.kernel.matched e mask = s.kernel.matched e mask := by
        intro e mask
        rw [kernel]
        rfl
      rw [matched] at set ⊢
      refine .waitEvent set rfl ?_
      rw [kernel]
      split <;> rfl
  | multi =>
    cases now with
    | multi met =>
      have ready := Kernel.readySet_of_objects seeks.objects
      rw [ready]
      refine .waitMulti seeks.combination rfl ?_
      unfold System.update
      dsimp only
      rw [kernel, Kernel.consume_retold, Kernel.words_retold]
  | _ => cases direct

/-- A call that writes has one section. -/
theorem Runs.only (runs : call.Runs c sec) (write : call.isWrite = true) (config : Config) :
    call.start config = .enter sec := by
  cases runs with
  | unlock | raise | clear => rfl
  | seek goal | leaveHeap goal => cases goal <;> cases write
  | pause pauses => cases pauses <;> cases write
  | wake waits =>
    cases waits with
    | goal goal => cases goal <;> cases write
    | pause pauses => cases pauses <;> cases write
    | exit => cases write
  | _ => cases write

theorem Runs.writes_of_isWrite (runs : call.Runs c sec) (write : call.isWrite = true)
    (ran : sec.run s = (s', .leave next)) : call.Writes s sec s' next := by
  have only := runs.only write s.kernel.config
  cases call with
  | unlock =>
    cases only
    simp only [Section.run] at ran
    cases ran
    exact .unlock rfl (congrArg Kernel.words (System.requestRescheduleIf_kernel ..))
  | raise =>
    cases only
    simp only [Section.run] at ran
    cases ran
    exact .raise (congrArg Kernel.words (System.requestRescheduleIf_kernel ..))
  | clear =>
    cases only
    cases ran
    exact .clear rfl
  | _ => cases write

/-- What a section of a call does to the mutexes and the events. -/
theorem Runs.writes (runs : call.Runs c sec) (ran : sec.run s = (s', .leave next)) :
    call.Writes s sec s' next := by
  cases direct : call.isDirect with
  | true =>
    rcases runs.direct_cases direct ran with
      ⟨same, fails⟩ | ⟨g, s₀, _, _, r, goal, seeks, -, now⟩
    · refine .idle (Kernel.words_of_objects same) ?_ fun _ => fails
      cases call with
      | unlock | raise | clear => cases direct
      | _ => rfl
    · exact goal.writes direct seeks now
  | false =>
    cases silent : call.isWrite with
    | false =>
      have words := (Section.left_of_run ran).words runs direct (runs.isWrite silent)
      refine .idle words silent ?_
      intro yes
      rw [direct] at yes
      cases yes
    | true =>
      exact runs.writes_of_isWrite silent ran

end Call

end TaskKernel
