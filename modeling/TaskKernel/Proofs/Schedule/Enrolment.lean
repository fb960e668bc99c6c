import TaskKernel.Proofs.Run.Leads
import TaskKernel.Proofs.Run.Script
import TaskKernel.Proofs.Schedule.Lineup

namespace TaskKernel

namespace Roster

variable {step : Nat → Option Nat} {p : Option Nat} {xs ys : List Nat}

/-- There is one way to walk. -/
theorem Path.unique (h : Path step p xs) (h' : Path step p ys) : xs = ys := by
  induction h generalizing ys with
  | nil =>
    cases h'
    rfl
  | cons rest ih =>
    cases h' with
    | cons rest' => rw [ih rest']

end Roster

def Config.newTask (config : Config) (name : String) (priority param entry : Nat) : Task :=
  { name, entry, param, priority, slice := config.timeSlice, reload := config.timeSlice }

namespace Kernel

/-- The tasks met on the way through the run queue, forwards and backwards. -/
structure Walks (k : Kernel) (xs : List TaskId) : Prop where
  forwards : Roster.Path (fun t => (k.links.get t).next) k.runQueue.first xs
  backwards : Roster.Path (fun t => (k.links.get t).prev) k.runQueue.last xs.reverse

/-- The entries that belong to no task are blank, and neither they nor the idle task are linked. -/
structure Blank (k : Kernel) : Prop where
  room : k.taskCount ≤ k.config.maxTasks
  unlinked (t : TaskId) : t = TaskId.idle ∨ k.taskCount < t → k.links.get t = {}
  untouched (t : TaskId) : k.taskCount < t → k.task t = {}

structure Enrolled (k : Kernel) : Prop extends k.Blank where
  queue : ∃ xs, k.Walks xs ∧ xs.Perm (List.range' 1 k.taskCount)
  running : k.running ≤ k.taskCount

/-- A new task has entered the table and the end of the run queue. Apart from its own entry, the
link of the former last task is all that has changed. -/
structure Enters (k k' : Kernel) (new : Task) : Prop where
  count : k'.taskCount = k.taskCount + 1
  entry : k'.task (k.taskCount + 1) = new
  others (t : TaskId) : t ≠ k.taskCount + 1 → k'.task t = k.task t
  queue (xs : List TaskId) : k.Walks xs → k'.Walks (xs ++ [k.taskCount + 1])
  links (t : TaskId) : t ≠ k.taskCount + 1 → k'.links.get t =
    if k.runQueue.last = some t then { k.links.get t with next := some (k.taskCount + 1) }
    else k.links.get t

variable {k k' : Kernel} {xs : List TaskId} {t : TaskId}

theorem Lined.walks (h : k.Lined xs) : k.Walks xs := by
  constructor
  · rw [h.holds.first]
    exact h.holds.linked.path
  · have back := h.holds.linked.path_back .nil
    rw [Option.or_none, List.append_nil] at back
    rw [h.holds.last]
    exact back

theorem Lined.outside (h : k.Lined xs) (outside : t = TaskId.idle ∨ k.taskCount < t) :
    t ∉ xs := by
  intro member
  obtain ⟨pos, old⟩ := h.mem_iff.mp member
  rcases outside with rfl | above
  · exact Nat.lt_irrefl 0 pos
  · exact Nat.not_lt_of_le old above

theorem Blank.of_rests (h : k.Blank) (rests : k.Rests k') : k'.Blank := by
  have count := taskCount_of_lineup rests.lineup
  have config := config_of_lineup rests.lineup
  have links := links_of_lineup rests.lineup
  constructor
  · rw [count, config]
    exact h.room
  · rw [count, links]
    exact h.unlinked
  · intro t above
    rw [count] at above
    rw [rests.blank t above]
    exact h.untouched t above

/-- A dispatch changes the links of no task outside the run queue. -/
theorem Lined.get_dispatch (h : k.Lined xs) (old : k.running ≤ k.taskCount) (other : t ∉ xs) :
    k.dispatch.links.get t = k.links.get t := by
  have links : k.dispatch.links = k.rotate.links := links_of_lineup (lineup_switchTo k.rotate _)
  rw [links]
  unfold Kernel.rotate
  split
  · rfl
  · rename_i busy
    have member : k.running ∈ xs := h.mem_iff.mpr ⟨Nat.pos_of_ne_zero busy, old⟩
    obtain ⟨pre, post, rfl⟩ := List.append_of_mem member
    exact h.holds.get_moveToBack other

theorem config_dispatch (k : Kernel) : k.dispatch.config = k.config := by
  obtain ⟨_, _, _, _, _, same⟩ := k.dispatch_eq
  rw [same]

theorem Blank.dispatch (h : k.Blank) (lined : k.Lined xs) (old : k.running ≤ k.taskCount) :
    k.dispatch.Blank := by
  obtain ⟨ys, dispatched⟩ := lined.dispatch old
  have count := k.taskCount_dispatch
  constructor
  · rw [count, k.config_dispatch]
    exact h.room
  · intro t outside
    rw [count] at outside
    rw [lined.get_dispatch old (lined.outside outside)]
    exact h.unlinked t outside
  · intro t above
    rw [dispatched.task, if_neg]
    · exact h.untouched t (count ▸ above)
    · intro chosen
      rw [← chosen.2] at above
      exact Nat.not_lt_of_le dispatched.running above

theorem Blank.booted (h : k.Blank) : k.booted.Blank := by
  refine ⟨h.room, ?_, ?_⟩
  · intro t outside
    change (k.links.set TaskId.idle {}).get t = {}
    rw [Table.get_set]
    split
    · rfl
    · exact h.unlinked t outside
  · intro t above
    rw [k.task_booted (Nat.ne_zero_of_lt above)]
    exact h.untouched t above

/-- What the creation of a task does. -/
theorem Lined.enters (h : k.Lined xs) (name : String) (priority param entry : Nat) :
    k.Enters (k.enterTask name priority param entry).1
      (k.config.newTask name priority param entry) := by
  refine ⟨rfl, Table.get_set_self .., ?_, ?_, ?_⟩
  · intro t other
    exact k.task_enterTask name priority param entry other
  · intro ys walks
    rw [walks.forwards.unique h.walks.forwards]
    exact (h.enterTask name priority param entry).walks
  · intro t other
    refine (Roster.get_pushBack _ _ other).trans ?_
    rw [show (k.resetTask (k.taskCount + 1) name priority param entry).links =
      k.links.set (k.taskCount + 1) {} from rfl, Table.get_set_ne _ _ (Ne.symm other)]
    rfl

theorem Enters.log {new : Task} (h : k.Enters k' new) (msg : Message) :
    k.Enters (k'.log msg) new :=
  ⟨h.count, h.entry, h.others, fun xs walks => ⟨(h.queue xs walks).1, (h.queue xs walks).2⟩,
    h.links⟩

theorem Blank.enters {new : Task} (h : k.Blank) (lined : k.Lined xs) (enters : k.Enters k' new)
    (room : k.taskCount < k.config.maxTasks) (config : k'.config = k.config) : k'.Blank := by
  constructor
  · rw [enters.count, config]
    exact room
  · intro t outside
    rw [enters.count] at outside
    have before : t = TaskId.idle ∨ k.taskCount < t := outside.imp_right Nat.lt_of_succ_lt
    have other : t ≠ k.taskCount + 1 := by
      intro he
      subst he
      rcases outside with idle | above
      · cases idle
      · exact Nat.lt_irrefl _ above
    rw [enters.links t other, if_neg]
    · exact h.unlinked t before
    · intro last
      exact lined.outside before (lined.holds.last_mem last)
  · intro t above
    rw [enters.count] at above
    rw [enters.others t (Nat.ne_of_gt above)]
    exact h.untouched t (Nat.lt_of_succ_lt above)

end Kernel

inductive Call.Creates (name : String) (stack priority param entry : Nat) :
    Stage → List (System × Section) → Prop where
  | enters {sec : Section} : Creates name stack priority param entry (.enter sec) []
  | fails {cause : Cause} {past : List (System × Section)} :
      Creates name stack priority param entry (.fail cause) past
  | returns {r : Reply} {before s' : System}
      (ran : (Section.createTask name stack priority param entry).run before =
        (s', .leave (.return r))) :
      Creates name stack priority param entry (.return r)
        [(before, .createTask name stack priority param entry)]

variable {s s' : System} {sec : Section} {stage next : Stage} {call : Call} {c : Context}
  {h h' past : History} {name : String} {stack priority param entry : Nat}

namespace Call.Creates

theorem start (config : Config) : Creates name stack priority param entry
    ((Call.createTask name stack priority param entry).start config) [] := by
  simp only [Call.start]
  split
  · exact .fails
  · exact .enters

theorem of_goes {past : List (System × Section)}
    (creates : Creates name stack priority param entry stage past) (goes : stage.Goes next) :
    Creates name stack priority param entry next past := by
  cases creates with
  | enters =>
    cases goes with
    | enter => exact .enters
    | cpu succeeds lock => simp at lock
  | fails =>
    cases goes with
    | cpu succeeds lock => simp at lock
  | returns =>
    cases goes with
    | cpu succeeds lock => simp at lock

theorem of_runs {past : List (System × Section)}
    (creates : Creates name stack priority param entry (.enter sec) past)
    (runs : (Call.createTask name stack priority param entry).Runs c sec)
    (ran : sec.run s = (s', .leave next)) :
    Creates name stack priority param entry next ((s, sec) :: past) := by
  cases creates
  cases runs with
  | createTask =>
    rcases Section.createTask_cases ran with ⟨-, rfl⟩ | ⟨-, rfl, -⟩
    · exact .fails
    · exact .returns ran
  | pause pauses => cases pauses
  | seek seeks => cases seeks
  | leaveHeap seeks => cases seeks
  | wake waits =>
    cases waits with
    | goal seeks => cases seeks
    | pause pauses => cases pauses

end Call.Creates

namespace Machine

variable {m m' : Machine} {config : Config}

theorem Run.creates (run : Run config m h) (here : m.stageOf c = some stage)
    (calling : h.calling c = some (.createTask name stack priority param entry)) :
    Call.Creates name stack priority param entry stage (h.sectionsBy c) := by
  refine Run.induct_call (P := Call.Creates name stack priority param entry) ?_ ?_ ?_ ?_
    run here calling
  · intro config
    exact .start config
  · intro tick
    cases tick
  · intro stage next past stays goes creates
    exact creates.of_goes goes
  · intro s s' sec next past runs ran creates
    exact creates.of_runs runs ran

theorem Change.blank (run : Run config m h) (change : Change m h m' h') (blank : m.kernel.Blank) :
    m'.kernel.Blank := by
  have orderly := run.orderly
  obtain ⟨xs, lined⟩ := orderly.lined
  cases change.regroups run with
  | rests rests => exact blank.of_rests rests
  | enters room new kernel =>
    rw [kernel]
    refine blank.enters lined ((lined.enters _ _ _ _).log _) room ?_
    rfl
  | dispatches origin kernel =>
    rw [kernel]
    rcases origin with rfl | rfl
    · exact blank.dispatch lined orderly.running
    · exact blank.booted.dispatch lined.booted orderly.running

theorem Run.blank (run : Run config m h) : m.kernel.Blank := by
  refine run.induct ?_ fun run ih change => change.blank run ih
  exact ⟨Nat.zero_le _, fun _ _ => rfl, fun _ _ => rfl⟩

theorem Change.config_eq (run : Run config m h) (change : Change m h m' h') :
    m'.kernel.config = m.kernel.config := by
  cases change.regroups run with
  | rests rests => exact Kernel.config_of_lineup rests.lineup
  | enters room new kernel =>
    rw [kernel]
    rfl
  | dispatches origin kernel =>
    rw [kernel, Kernel.config_dispatch]
    rcases origin with rfl | rfl <;> rfl

theorem Run.config_eq (run : Run config m h) : m.kernel.config = config := by
  refine Run.induct (P := fun m _ => m.kernel.config = config) rfl ?_ run
  intro m m' h h' run ih change
  exact (change.config_eq run).trans ih

/-- A call that has returned after creating a task. -/
theorem Run.created (run : Run config m h) {r : Reply} (returned : .returned c r :: past <:+ h)
    (calling : past.calling c = some (.createTask name stack priority param entry)) :
    ∃ before, past.sectionsBy c = [(before, .createTask name stack priority param entry)] ∧
      r = .task (before.kernel.taskCount + 1) ∧
      before.kernel.Enters
        ((Section.createTask name stack priority param entry).run before).1.kernel
        (config.newTask name priority param entry) := by
  obtain ⟨m₀, run₀, here⟩ := run.of_returned returned
  have creates := run₀.creates here calling
  generalize sections : past.sectionsBy c = ys at creates ⊢
  cases creates with
  | @returns _ before s' ran =>
    obtain ⟨older, within, -⟩ := History.ran_of_sectionsBy [] sections calling
    obtain ⟨m₁, -, -, -, -, run₁, rfl, -⟩ := run₀.of_ran within
    obtain ⟨xs, lined⟩ := run₁.orderly.lined
    have enters := lined.enters name priority param entry
    rw [run₁.config_eq] at enters
    rcases Section.createTask_cases ran with ⟨-, he⟩ | ⟨kernel, he, -⟩
    · cases he
    · cases he
      refine ⟨_, rfl, rfl, ?_⟩
      rw [ran, kernel]
      exact enters.log _

structure Enrols (config : Config) (m : Machine) (h : History) : Prop where
  configured : m.kernel.config = config
  enrolled : m.kernel.Enrolled
  created (c : Context) (r : Reply) (past : History) (name : String)
    (stack priority param entry : Nat) : .returned c r :: past <:+ h →
      past.calling c = some (.createTask name stack priority param entry) →
        ∃ before, past.sectionsBy c = [(before, .createTask name stack priority param entry)] ∧
          r = .task (before.kernel.taskCount + 1) ∧
          before.kernel.Enters
            ((Section.createTask name stack priority param entry).run before).1.kernel
            (config.newTask name priority param entry)

/-- The run queue holds the tasks that were created, each of them once, the task table holds no
other, and a call that creates a task appends it and leaves all others as they are. -/
theorem Run.enrolled (run : Run config m h) : Enrols config m h := by
  have orderly := run.orderly
  obtain ⟨xs, lined⟩ := orderly.lined
  refine ⟨run.config_eq, ?_, ?_⟩
  · exact { run.blank with
      queue := ⟨xs, lined.walks, lined.members⟩
      running := orderly.running }
  · intro c r past name stack priority param entry returned calling
    exact run.created returned calling

def creating : Option (Machine × History) :=
  follow (initial { maxTasks := 4, arenaStart := 4096, arenaSize := 512, timeSlice := 8 }, [])
    [.call (.createTask "first" 256 5 0 0), .steps 4, .call (.createTask "second" 256 9 0 0),
      .steps 4, .launch, .steps 1, .call (.createTask "third" 256 7 3 1), .steps 5]

theorem enrolled_creating : ∃ (m : Machine) (h past : History) (config : Config)
    (before : System), Run config m h ∧ h = .returned (.task 1) (.task 3) :: past ∧
      past.sectionsBy (.task 1) = [(before, .createTask "third" 256 7 3 1)] ∧
      before.kernel.taskCount = 2 ∧
      (∃ xs, m.kernel.Walks xs ∧ xs.Perm [1, 2, 3]) ∧ m.kernel.task 4 = {} := by
  obtain ⟨⟨m, h⟩, hx⟩ :=
    Option.isSome_iff_exists.mp (show creating.isSome = true by decide +kernel)
  have facts : creating.map (fun x => (x.1.kernel.taskCount, match x.2 with
      | .returned c r :: past => some (c, r, History.calling c past)
      | _ => none)) =
      some (3, some (.task 1, .task 3, some (.createTask "third" 256 7 3 1))) := by
    decide +kernel
  rw [hx] at facts
  simp only [Option.map_some, Option.some.injEq, Prod.mk.injEq] at facts
  obtain ⟨count, last⟩ := facts
  have run := run_of_follow hx
  have enrols := run.enrolled
  obtain ⟨xs, walks, members⟩ := enrols.enrolled.queue
  have blank := enrols.enrolled.untouched 4
  rw [count] at members blank
  clear hx
  cases h with
  | nil => cases last
  | cons x past =>
    cases x with
    | returned c r =>
      simp only [Option.some.injEq, Prod.mk.injEq] at last
      obtain ⟨rfl, rfl, calling⟩ := last
      obtain ⟨before, sections, returns, -⟩ :=
        enrols.created _ _ _ _ _ _ _ _ (List.suffix_refl _) calling
      have two : before.kernel.taskCount = 2 := (Nat.succ.inj (Reply.task.inj returns)).symm
      exact ⟨m, _, past, _, before, run, rfl, sections, two, ⟨xs, walks, members⟩,
        blank (by decide)⟩
    | _ => cases last

end Machine

end TaskKernel
