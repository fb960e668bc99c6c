import TaskKernel.Proofs.Run.Calls
import TaskKernel.Proofs.Wait.Readiness

namespace TaskKernel

namespace History

/-- The sections of the call that the context makes or has made last, each with the state in which
it was executed, the newest first. -/
def sectionsBy (c : Context) : History → List (System × Section)
  | [] => []
  | .called c' _ :: h => if c' = c then [] else sectionsBy c h
  | .entered .timer :: h => if c = .handler then [] else sectionsBy c h
  | .ran c' before sec :: h =>
    if c' = c then (before, sec) :: sectionsBy c h else sectionsBy c h
  | _ :: h => sectionsBy c h

end History

inductive Happening.Foreign (c : Context) : Happening → Prop where
  | called {c' : Context} {call : Call} (ne : c' ≠ c) : Foreign c (.called c' call)
  | ran {c' : Context} {s : System} {sec : Section} (ne : c' ≠ c) : Foreign c (.ran c' s sec)
  | returned {c' : Context} {r : Reply} : Foreign c (.returned c' r)
  | timer (ne : c ≠ .handler) : Foreign c (.entered .timer)
  | application {id : Nat} : Foreign c (.entered (.application id))
  | dispatched {k : Kernel} : Foreign c (.dispatched k)

def Section.Idles (s : System) (sec : Section) : Prop :=
  (sec.run s).1.kernel.objects = s.kernel.objects

/-- The call is over when it reaches its goal. -/
def Call.isDirect : Call → Bool
  | .lock .. => true
  | .waitEvent .. => true
  | .waitMulti .. => true
  | _ => false

/-- The sections of a call that is after one goal have left all objects alone, but for the one in
which the call succeeded: that one is the last, and `Succeeds` tells what it did. -/
inductive Pursued (Succeeds : System → System → Reply → Prop) :
    Stage → List (System × Section) → Prop where
  | unfinished {stage : Stage} {past : List (System × Section)} (returns : ∀ r, stage ≠ .return r)
      (idle : ∀ x ∈ past, x.2.Idles x.1) : Pursued Succeeds stage past
  | failed {e : WaitError} {past : List (System × Section)} (idle : ∀ x ∈ past, x.2.Idles x.1) :
      Pursued Succeeds (.return (.failed e)) past
  | reached {r : Reply} {s s' : System} {sec : Section} {past : List (System × Section)}
      (ran : sec.run s = (s', .leave (.return r))) (succeeds : Succeeds s s' r)
      (idle : ∀ x ∈ past, x.2.Idles x.1) : Pursued Succeeds (.return r) ((s, sec) :: past)

inductive Call.Succeeds (call : Call) (s s' : System) (r : Reply) : Prop where
  | intro {g : Goal} {s₀ : System} (goal : call.Seeks g)
      (same : s₀.kernel.objects = s.kernel.objects) (now : g.Reached s₀ s' (.return r))

variable {s s' s₀ : System} {sec : Section} {stage next : Stage} {call : Call} {c : Context}
  {h h' : History} {g : Goal}

theorem Happening.foreign {x : Happening} (other : x.context ≠ some c) : x.Foreign c := by
  cases x with
  | called => exact .called fun he => other (congrArg some he)
  | ran => exact .ran fun he => other (congrArg some he)
  | returned => exact .returned
  | dispatched => exact .dispatched
  | entered handler =>
    cases handler with
    | timer => exact .timer fun he => other (congrArg some he.symm)
    | application => exact .application

theorem History.sectionsBy_other {x : Happening} (other : x.context ≠ some c) :
    sectionsBy c (x :: h) = sectionsBy c h := by
  cases Happening.foreign other with
  | called ne | ran ne | timer ne => exact if_neg ne
  | returned | dispatched | application => rfl

theorem Pursued.imp {P Q : System → System → Reply → Prop} {past : List (System × Section)}
    (pursued : Pursued P stage past) (imp : ∀ s s' r, P s s' r → Q s s' r) :
    Pursued Q stage past := by
  cases pursued with
  | unfinished returns idle => exact .unfinished returns idle
  | failed idle => exact .failed idle
  | reached ran succeeds idle => exact .reached ran (imp _ _ _ succeeds) idle

theorem Section.Seeks.objects {nowait : Bool} {timeout : Ticks}
    (seeks : sec.Seeks s s₀ g nowait timeout) : s₀.kernel.objects = s.kernel.objects := by
  obtain ⟨tasks, journal, rfl⟩ := seeks.state
  rfl

namespace Call

theorem not_heap_of_direct (direct : call.isDirect = true) (task : HeapTask) :
    ¬ call.Seeks (.heap task) := by
  intro seeks
  cases seeks <;> cases direct

/-- A call for one goal cannot do without waiting. -/
theorem Runs.waits_of_direct (runs : call.Runs c sec) (direct : call.isDirect = true) :
    sec.isPlain = false := by
  cases runs with
  | pause | exit | seek | wake | startAdd | startFlush | startMulti => rfl
  | leaveHeap seeks => exact absurd seeks (not_heap_of_direct direct _)
  | _ => cases direct

theorem Runs.not_pause (runs : call.Runs c sec) (direct : call.isDirect = true) (p : Pause)
    (wait : WaitState) (n : Ticks) : sec ≠ .pause p wait n := by
  intro he
  subst he
  cases (pauses_of_runs runs).1
  all_goals cases direct

theorem WaitsIn.goal_of_direct {p : Pause} (direct : call.isDirect = true) :
    ¬ call.WaitsIn (.pause p) := by
  intro waits
  cases waits with
  | pause pauses => cases pauses <;> cases direct
  | exit => cases direct

theorem Seeks.returns (seeks : call.Seeks g) (direct : call.isDirect = true)
    (now : g.Reached s s' next) : ∃ r, next = .return r := by
  cases seeks with
  | lock | event | multi =>
    cases now
    exact ⟨_, rfl⟩
  | _ => cases direct

/-- A section of a call for one goal reaches the goal and ends the call, or changes no object. -/
theorem Runs.direct_cases (runs : call.Runs c sec) (direct : call.isDirect = true)
    (ran : sec.run s = (s', .leave next)) :
    (s'.kernel.objects = s.kernel.objects ∧ ∀ r, next = .return r → ∃ e, r = .failed e) ∨
      ∃ g s₀ nowait timeout r, call.Seeks g ∧ sec.Seeks s s₀ g nowait timeout ∧
        next = .return r ∧ g.Reached s₀ s' next := by
  have waits := runs.waits_of_direct direct
  cases Section.left_of_run ran with
  | plain simple =>
    rw [waits] at simple
    cases simple
  | sought seeks sought =>
    have goal := goal_of_seeks runs seeks
    cases sought with
    | reached now =>
      obtain ⟨r, hr⟩ := goal.returns direct now
      exact .inr ⟨_, _, _, _, r, goal, seeks, hr, now⟩
    | refused | late =>
      refine .inl ⟨seeks.objects, ?_⟩
      intro r hr
      cases hr
      exact ⟨_, rfl⟩
    | blocks =>
      refine .inl ⟨seeks.objects, ?_⟩
      intro r hr
      cases hr
  | failed =>
    refine .inl ⟨rfl, ?_⟩
    intro r hr
    cases hr
  | pauses | late | lateExit => exact absurd rfl (runs.not_pause direct _ _ _)
  | exits =>
    cases runs
    cases direct
  | asleep =>
    refine .inl ⟨rfl, ?_⟩
    intro r hr
    cases hr
  | woken | exited =>
    cases runs with
    | wake waits => exact absurd waits (WaitsIn.goal_of_direct direct)

theorem start_of_direct (config : Config) (direct : call.isDirect = true) (r : Reply) :
    call.start config ≠ .return r := by
  cases call with
  | lock | waitEvent | waitMulti => simp [start]
  | _ => cases direct

end Call

/-- Open code does not end a call for one goal. -/
theorem Pursued.of_goes {past : List (System × Section)}
    (pursued : Pursued call.Succeeds stage past) (stays : call.At c stage)
    (direct : call.isDirect = true) (goes : stage.Goes next) : Pursued call.Succeeds next past := by
  cases goes with
  | leftHeap =>
    cases stays with
    | leftHeap seeks => exact absurd seeks (Call.not_heap_of_direct direct _)
  | removed | read =>
    cases stays
    cases direct
  | cpu succeeds lock =>
    rcases lock with rfl | rfl | rfl | rfl <;> cases stays <;> cases direct
  | _ =>
    cases pursued with
    | unfinished returns idle => exact .unfinished (by simp) idle

/-- The next section of a call for one goal. -/
theorem Pursued.of_runs {past : List (System × Section)}
    (pursued : Pursued call.Succeeds (.enter sec) past) (runs : call.Runs c sec)
    (direct : call.isDirect = true) (ran : sec.run s = (s', .leave next)) :
    Pursued call.Succeeds next ((s, sec) :: past) := by
  cases pursued with
  | unfinished returns idle =>
    rcases runs.direct_cases direct ran with
      ⟨same, fails⟩ | ⟨g, s₀, _, _, r, goal, seeks, rfl, now⟩
    · have idles : sec.Idles s := by
        unfold Section.Idles
        rw [ran]
        exact same
      have all : ∀ x ∈ (s, sec) :: past, x.2.Idles x.1 := by
        intro x hx
        rcases List.mem_cons.mp hx with rfl | hx
        · exact idles
        · exact idle x hx
      by_cases ended : ∃ r, next = .return r
      · obtain ⟨r, rfl⟩ := ended
        obtain ⟨e, rfl⟩ := fails r rfl
        exact .failed all
      · refine .unfinished ?_ all
        intro r hr
        exact ended ⟨r, hr⟩
    · exact .reached ran ⟨goal, seeks.objects, now⟩ idle

def Happening.reply : Happening → Option (Context × Reply)
  | .called .. => none
  | .ran .. => none
  | .returned c r => some (c, r)
  | .entered _ => none
  | .dispatched _ => none

def History.lastReturn {α : Type} (find : System → α) :
    History → Option (Context × Reply × Option Call × Option α)
  | [] => none
  | x :: past => x.reply.map fun (c, r) =>
    (c, r, calling c past, (sectionsBy c past).head?.map fun y => find y.1)

theorem Happening.eq_of_reply {x : Happening} {r : Reply} (ends : x.reply = some (c, r)) :
    x = .returned c r := by
  cases x with
  | returned =>
    cases ends
    rfl
  | called | ran | entered | dispatched => cases ends

theorem History.returned_of_lastReturn {α : Type} {find : System → α} {r : Reply} {a : α}
    (last : h.lastReturn find = some (c, r, some call, some a)) :
    ∃ (past : History) (s : System) (sec : Section) (rest : List (System × Section)),
      h = .returned c r :: past ∧ past.calling c = some call ∧
      past.sectionsBy c = (s, sec) :: rest ∧ find s = a := by
  cases h with
  | nil => cases last
  | cons x past =>
    obtain ⟨⟨c', r'⟩, ends, found⟩ := Option.map_eq_some_iff.mp last
    simp only [Prod.mk.injEq] at found
    obtain ⟨rfl, rfl, calling, found⟩ := found
    obtain ⟨y, head, found⟩ := Option.map_eq_some_iff.mp found
    obtain ⟨rest, sections⟩ := List.head?_eq_some_iff.mp head
    exact ⟨past, y.1, y.2, rest, by rw [Happening.eq_of_reply ends], calling, sections, found⟩

namespace Machine

variable {m m' : Machine} {config : Config}

structure Executes (m : Machine) (h : History) (m' : Machine) (h' : History) (c : Context)
    (sec : Section) (call : Call) (s : System) (next : Stage) : Prop where
  here : m.stageOf c = some (.enter sec)
  calling : h.calling c = some call
  runs : call.Runs c sec
  ran : sec.run m.system = (s, .leave next)
  kernel : m'.kernel = s.kernel
  after : m'.stageOf c = some next
  others (c' : Context) : c' ≠ c → m'.stageOf c' = m.stageOf c'
  new : h' = .ran c m.system sec :: h

/-- Objects change in sections only. -/
theorem Change.executes (run : Run config m h) (change : Change m h m' h') :
    (m'.kernel.objects = m.kernel.objects ∧ ∀ c before sec, h' ≠ .ran c before sec :: h) ∨
      ∃ c sec call s next, Executes m h m' h' c sec call s next := by
  have same : ∀ c before sec, h ≠ .ran c before sec :: h :=
    fun _ _ _ => (List.cons_ne_self _ _).symm
  cases change with
  | code here ran =>
    exact .inl ⟨Kernel.objects_of_bare (Stage.frame_of_run ran).1, same⟩
  | @ran _ sec next s here ran system stages =>
    obtain ⟨call, calling, runs⟩ := run.runs_of_enter here
    exact .inr ⟨m.context, sec, call, s, next, here, calling, runs, ran, kernel_of_left system,
      (stages _).trans (if_pos rfl), fun _ other => (stages _).trans (if_neg other), rfl⟩
  | called call legal here system => exact .inl ⟨congrArg (·.kernel.objects) system, by simp⟩
  | returned here kernel | entered here kernel =>
    exact .inl ⟨congrArg Kernel.objects kernel, by simp⟩
  | quiet kernel => exact .inl ⟨congrArg Kernel.objects kernel, same⟩
  | dispatched kernel => exact .inl ⟨kernel ▸ m.kernel.objects_dispatch, by simp⟩
  | launched here booting kernel =>
    exact .inl ⟨kernel ▸ m.kernel.booted.objects_dispatch, by simp⟩
  | idled here system => exact .inl ⟨congrArg (·.kernel.objects) system, same⟩
  | wrote => exact .inl ⟨rfl, same⟩

/-- A section is executed by the code that has the processor. -/
theorem Change.of_ran {before : System} (change : Change m h m' (.ran c before sec :: h)) :
    c = m.context ∧ before = m.system ∧ m.stageOf m.context = some (.enter sec) ∧
      ∃ s next, sec.run m.system = (s, .leave next) ∧ m'.system = s.setCpuLock false := by
  generalize new : Happening.ran c before sec :: h = h' at change
  cases change with
  | ran here ran system =>
    cases new
    exact ⟨rfl, rfl, here, _, _, ran, system⟩
  | code | idled | quiet | wrote => exact absurd new (List.cons_ne_self _ _)
  | _ => cases new

theorem Change.older (change : Change m h m' h') : h' = h ∨ ∃ x, h' = x :: h := by
  cases change with
  | code | idled | quiet | wrote => exact .inl rfl
  | _ => exact .inr ⟨_, rfl⟩

/-- What has happened has happened in a state of the run. -/
theorem Run.of_suffix {x : Happening} {past : History} (run : Run config m h)
    (earlier : x :: past <:+ h) :
    ∃ m₀ m₁, Run config m₀ past ∧ Change m₀ past m₁ (x :: past) := by
  refine Run.induct (P := fun _ h => x :: past <:+ h →
    ∃ m₀ m₁, Run config m₀ past ∧ Change m₀ past m₁ (x :: past)) ?_ ?_ run earlier
  · intro earlier
    cases List.suffix_nil.mp earlier
  · intro m m' h h' run ih change earlier
    rcases change.older with rfl | ⟨y, rfl⟩
    · exact ih earlier
    · rcases List.suffix_cons_iff.mp earlier with he | earlier
      · cases he
        exact ⟨m, m', run, change⟩
      · exact ih earlier

/-- A section was executed by a call of its context. -/
theorem Run.of_ran {before : System} {past : History} (run : Run config m h)
    (earlier : .ran c before sec :: past <:+ h) :
    ∃ m₀ m₁ call s next, Run config m₀ past ∧ m₀.system = before ∧
      Executes m₀ past m₁ (.ran c before sec :: past) c sec call s next := by
  obtain ⟨m₀, m₁, run₀, change⟩ := run.of_suffix earlier
  rcases change.executes run₀ with ⟨-, idle⟩ | ⟨c', sec', call, s, next, executes⟩
  · exact absurd rfl (idle _ _ _)
  · cases executes.new
    exact ⟨m₀, m₁, call, s, next, run₀, rfl, executes⟩

/-- What a call starts with, and what its open code and its sections keep, holds of the call as long
as it is in progress: of its stage and of the sections that it has executed. -/
theorem Run.induct_code {P : Stage → List (System × Section) → Prop}
    (starts : ∀ config, P (call.start config) []) (serves : call = .tick → P .timer [])
    (goes : ∀ s s' stage next move past, call.At c stage → stage.run s = (s', move) →
      move.next stage = some next → stage.Goes next → P stage past → P next past)
    (runs : ∀ s s' sec next past, call.Runs c sec → sec.run s = (s', .leave next) →
      P (.enter sec) past → P next ((s, sec) :: past))
    (run : Run config m h) (here : m.stageOf c = some stage) (calling : h.calling c = some call) :
    P stage (h.sectionsBy c) := by
  refine Run.induct (P := fun m h => ∀ stage, m.stageOf c = some stage →
    h.calling c = some call → P stage (h.sectionsBy c)) ?_ ?_ run stage here calling
  · intro stage _ calling
    cases calling
  intro m m' h h' run ih change stage here' calling'
  cases change.progress run here' calling' with
  | begins legal new =>
    rw [new, show History.sectionsBy c (.called c call :: h) = [] from if_pos rfl]
    exact starts m.kernel.config
  | serves new interrupts =>
    rw [new, show History.sectionsBy c (.entered .timer :: h) = [] from if_pos interrupts]
    exact serves rfl
  | codes here calling stays ran taken moves same =>
    rw [same]
    exact goes _ _ _ _ _ _ stays ran moves taken (ih _ here calling)
  | @runs sec _ _ _ here calling belongs ran system new =>
    rw [new, show History.sectionsBy c (.ran c m.system sec :: h) =
      (m.system, sec) :: h.sectionsBy c from if_pos rfl]
    exact runs _ _ _ _ _ belongs ran (ih _ here calling)
  | waits here calling other =>
    rcases other with same | ⟨x, new, other⟩
    · rw [same]
      exact ih stage here calling
    · rw [new, History.sectionsBy_other other]
      exact ih stage here calling

/-- The same where it does not matter in which states the open code runs. -/
theorem Run.induct_call {P : Stage → List (System × Section) → Prop}
    (starts : ∀ config, P (call.start config) []) (serves : call = .tick → P .timer [])
    (goes : ∀ stage next past, call.At c stage → stage.Goes next → P stage past → P next past)
    (runs : ∀ s s' sec next past, call.Runs c sec → sec.run s = (s', .leave next) →
      P (.enter sec) past → P next ((s, sec) :: past))
    (run : Run config m h) (here : m.stageOf c = some stage) (calling : h.calling c = some call) :
    P stage (h.sectionsBy c) :=
  run.induct_code starts serves (fun _ _ _ _ _ _ stays _ _ taken => goes _ _ _ stays taken) runs
    here calling

/-- A call for a mutex, an event or a multi-wait has left all objects alone, or has just reached
its goal. -/
theorem Run.pursued (run : Run config m h) {stage : Stage} (here : m.stageOf c = some stage)
    (calling : h.calling c = some call) (direct : call.isDirect = true) :
    Pursued call.Succeeds stage (h.sectionsBy c) := by
  refine Run.induct_call (P := Pursued call.Succeeds) ?_ ?_ ?_ ?_ run here calling
  · intro config
    exact .unfinished (Call.start_of_direct config direct) (by simp)
  · intro tick
    subst tick
    cases direct
  · intro stage next past stays goes pursued
    exact pursued.of_goes stays direct goes
  · intro s s' sec next past runs ran pursued
    exact pursued.of_runs runs direct ran

/-- The same of a call that has returned. -/
theorem Run.pursued_of_returned {r : Reply} {past : History} (run : Run config m h)
    (returned : .returned c r :: past <:+ h) (calling : past.calling c = some call)
    (direct : call.isDirect = true) :
    Pursued call.Succeeds (.return r) (past.sectionsBy c) := by
  obtain ⟨m₀, run₀, here⟩ := run.of_returned returned
  exact run₀.pursued here calling direct

end Machine

end TaskKernel
