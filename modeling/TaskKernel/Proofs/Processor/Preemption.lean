import TaskKernel.Proofs.Processor.Turns
import TaskKernel.Proofs.Run.Script

namespace TaskKernel

namespace Machine

variable {m m' : Machine} {h h' : History} {r r' : Request} {stage : Stage} {config : Config}

/-- The code that has the processor leaves the requests alone. -/
theorem Onward.keeps (onward : Onward m m') (r : Request) : m.cpu.Keeps m'.cpu r := by
  cases onward with
  | moves a stays =>
    rw [cpu_setActivity]
    exact .of_eq stays.lines stays.kept
  | stays stays => exact .of_eq stays.lines stays.kept
  | leaves => exact .of_eq rfl id

/-- Taking a request keeps the others. -/
theorem Taken.keeps (taken : Taken m h r m' h') (other : r' ≠ r) : m.cpu.Keeps m'.cpu r' := by
  cases taken with
  | @line n handler =>
    have kept : m.cpu.Keeps (m.cpu.grant (.line n)) r' := Processor.keeps_grant other
    cases handler <;> exact kept
  | dispatch =>
    have kept : m.cpu.Keeps (m.cpu.grant .dispatch) r' := Processor.keeps_grant other
    exact ⟨kept.pended, kept.asked⟩

/-- What takes a request does not pass the preemption point. -/
theorem Taken.not_passes (taken : Taken m h r m' h') : ¬ Passes m m' := by
  rintro ⟨stage, here, goes⟩
  have cpu : m'.cpu = m.cpu := by
    rw [goes, cpu_setActivity]
  cases taken with
  | @line n handler due =>
    have inside : m.cpu.inInterrupt = true := by
      rw [← cpu]
      cases handler <;> rfl
    rw [due.outside] at inside
    cases inside
  | dispatch due =>
    have cleared : m.cpu.dispatchPended = false := by
      rw [← cpu]
      rfl
    exact Bool.noConfusion (cleared.symm.trans due.first.asked)

/-- Once an open preemption point is passed, there is nothing left to take. -/
theorem Next.clear_of_passes (next : Next m h m' h') (passes : Passes m m')
    (unlocked : m'.cpu.isOpen = true) : m'.cpu.hasPendingWork = false := by
  obtain ⟨stage, here, goes⟩ := passes
  cases next.turn with
  | onward away => exact absurd here (away stage)
  | check _ check =>
    rw [goes, cpu_setActivity] at unlocked ⊢
    cases check with
    | closed shut =>
      rw [shut] at unlocked
      cases unlocked
    | clear unlocked none => exact none
    | takes taken => exact absurd ⟨stage, here, goes⟩ taken.not_passes
  | @outside cpu lines only =>
    have still : (m.setCpu cpu).activity = m.activity := by
      rw [only]
      rfl
    rw [goes, activity_setActivity, here] at still
    cases still
  | launch free =>
    rw [free] at here
    cases here

/-- The request is not taken in this step, and not passed over. -/
structure Waits (r : Request) (x y : Machine × History) : Prop where
  steps : Steps x y
  pended : y.1.cpu.pends r = true
  asked : x.1.cpu.asks r = true → y.1.cpu.asks r = true
  not_passed : x.1.cpu.asks r = true → Passes x.1 y.1 → y.1.cpu.isOpen = false
  before (r' : Request) : x.1.cpu.asks r = true → Taken x.1 x.2 r' y.1 y.2 → r'.Before r

/-- The request is taken at a preemption point, or it is one for a dispatch and the end of the boot
code makes the first. -/
inductive Served (r : Request) (x y : Machine × History) : Prop
  | taken (taken : Taken x.1 x.2 r y.1 y.2)
  | launched (dispatch : r = .dispatch) (booting : x.1.context = .boot)
      (launch : y = (x.1.launch.1, .dispatched x.1.kernel :: x.2))

theorem Waits.of_keeps (next : Next m h m' h') (keeps : m.cpu.Keeps m'.cpu r)
    (pended : m.cpu.pends r = true) (not_taken : ¬ Taken m h r m' h') :
    Waits r (m, h) (m', h') := by
  refine ⟨next, keeps.pended pended, keeps.asked, ?_, ?_⟩
  · intro asked passes
    refine Bool.eq_false_iff.mpr fun unlocked => ?_
    have none := next.clear_of_passes passes unlocked
    rw [Processor.hasPendingWork_of_asks (keeps.asked asked)] at none
    cases none
  · intro r' asked taken
    have first := (Due.of_taken taken).first
    have late : ¬ r.Before r' := by
      intro before
      have absent := first.least r before
      rw [show m.cpu.asks r = true from asked] at absent
      cases absent
    rcases Request.eq_or_before late with rfl | before
    · exact absurd taken not_taken
    · exact before

/-- A step either takes a request or leaves it waiting. -/
theorem Next.waits (next : Next m h m' h') (pended : m.cpu.pends r = true) :
    Waits r (m, h) (m', h') ∨ Served r (m, h) (m', h') := by
  by_cases taken : Taken m h r m' h'
  · exact .inr (.taken taken)
  · have waits (keeps : m.cpu.Keeps m'.cpu r) := Waits.of_keeps next keeps pended taken
    cases next.turn with
    | onward away onward => exact .inl (waits (onward.keeps r))
    | check here check =>
      refine .inl (waits ?_)
      cases check with
      | closed | clear =>
        rw [cpu_setActivity]
        exact .of_eq rfl id
      | takes takes =>
        refine takes.keeps ?_
        rintro rfl
        exact taken takes
    | outside only keeps => exact .inl (waits (keeps r))
    | launch free booting =>
      cases r with
      | line n =>
        refine .inl (waits ?_)
        unfold Machine.launch
        split <;> exact ⟨id, id⟩
      | dispatch => exact .inr (.launched rfl booting rfl)

/-- A request waits until it is taken. -/
theorem Path.waits {x y : Machine × History} (path : Path x y) (pended : x.1.cpu.pends r = true) :
    Relation.ReflTransGen (Waits r) x y ∧ y.1.cpu.pends r = true ∨
      ∃ u v, Relation.ReflTransGen (Waits r) x u ∧ Steps u v ∧ Served r u v ∧ Path v y := by
  induction path with
  | refl => exact .inl ⟨.refl, pended⟩
  | tail _ steps ih =>
    rcases ih with ⟨waits, still⟩ | ⟨u, v, waits, taking, served, later⟩
    · rcases Next.waits steps still with further | served
      · exact .inl ⟨waits.tail further, further.pended⟩
      · exact .inr ⟨_, _, waits, steps, served, .refl⟩
    · exact .inr ⟨u, v, waits, taking, served, later.tail steps⟩

/-- What the flags of the processor stand for, and where the code is that does not have it. -/
structure Settled (m : Machine) (h : History) : Prop where
  started : m.cpu.started = true ↔ ∃ k, .dispatched k ∈ h
  serving : m.cpu.inInterrupt = true ↔ ∃ handler, m.serving = some handler
  interrupted : m.cpu.inInterrupt = true →
    ∃ stage, m.activityOf m.cpu.owner.context = .point stage
  parked (t : TaskId) : m.cpu.owner ≠ .task t →
    m.activityOf (.task t) = .dormant ∨ ∃ stage, m.activityOf (.task t) = .point stage

theorem settled_initial (config : Config) : (initial config).Settled [] := by
  have started : (initial config).cpu.started = false := rfl
  have outside : (initial config).cpu.inInterrupt = false := rfl
  refine ⟨?_, ?_, ?_, fun t _ => .inl rfl⟩
  · simp [started]
  · rw [outside]
    simp [initial]
  · simp [outside]

theorem context_ne_of_lost {t : TaskId} (lost : m.cpu.owner ≠ .task t) : .task t ≠ m.context := by
  intro same
  rw [context_eq] at same
  split at same
  · cases same
  · cases owned : m.cpu.owner with
    | boot =>
      rw [owned] at same
      cases same
    | task u =>
      rw [owned] at same lost
      cases same
      exact lost rfl

/-- The processor stays with its owner, and only the code that has it goes on. -/
theorem Settled.of_stays (settled : m.Settled h) (quiet : History.Quiet h h')
    (owner : m'.cpu.owner = m.cpu.owner) (started : m'.cpu.started = m.cpu.started)
    (inInterrupt : m'.cpu.inInterrupt = m.cpu.inInterrupt) (serving : m'.serving = m.serving)
    (others : ∀ c, c ≠ m.context → m'.activityOf c = m.activityOf c) : m'.Settled h' := by
  constructor
  · rw [started, settled.started]
    exact exists_congr fun k => (quiet.mem_iff rfl).symm
  · rw [inInterrupt, serving]
    exact settled.serving
  · intro inside
    rw [inInterrupt] at inside
    have away : m.cpu.owner.context ≠ m.context := by
      rw [context_eq, if_pos inside]
      exact Owner.context_ne _
    rw [owner, others _ away]
    exact settled.interrupted inside
  · intro t lost
    rw [owner] at lost
    rw [others _ (context_ne_of_lost lost)]
    exact settled.parked t lost

/-- The code that is at an open preemption point is that of the owner. -/
theorem Due.owner_at_point (due : m.Due r) :
    ∃ stage, m.activityOf m.cpu.owner.context = .point stage := by
  obtain ⟨stage, here⟩ := due.here
  have outside := due.outside
  rw [activity_eq, context_eq, if_neg (by simp [outside])] at here
  exact ⟨stage, here⟩

theorem Settled.set (settled : m.Settled h) (quiet : History.Quiet h h') {s : System}
    (stays : m.cpu.Stays s.cpu) (a : Activity) :
    ({ m with system := s }.setActivity a).Settled h' := by
  have same : ({ m with system := s }.setActivity a).cpu = s.cpu := cpu_setActivity ..
  refine settled.of_stays quiet ?_ ?_ ?_ (serving_setActivity ..) ?_
  · exact (congrArg Processor.owner same).trans stays.owner
  · exact (congrArg Processor.started same).trans stays.started
  · exact (congrArg Processor.inInterrupt same).trans stays.inInterrupt
  · intro c other
    rw [activityOf_setActivity, context_of_stays stays, if_neg other, activityOf_of_stays stays]

theorem Settled.onward (settled : m.Settled h) (quiet : History.Quiet h h')
    (onward : Onward m m') : m'.Settled h' := by
  cases onward with
  | moves a stays => exact settled.set quiet stays a
  | stays stays =>
    exact settled.of_stays quiet stays.owner stays.started stays.inInterrupt rfl
      fun c _ => activityOf_of_stays stays c
  | leaves inside =>
    refine ⟨?_, by simp [leaveHandler, setCpu, cpu], ?_, settled.parked⟩
    · exact settled.started.trans (exists_congr fun k => (quiet.mem_iff rfl).symm)
    · intro still
      cases still

structure HandsOver (m m' : Machine) (t : TaskId) : Prop where
  owner : m'.cpu.owner = .task t
  started : m'.cpu.started = true
  before : m.cpu.inInterrupt = false
  after : m'.cpu.inInterrupt = false
  serving : m'.serving = m.serving
  same (u : TaskId) : m'.activityOf (.task u) = m.activityOf (.task u)
  here (u : TaskId) : m.cpu.owner = .task u → ∃ stage, m.activityOf (.task u) = .point stage

theorem HandsOver.of_dispatch (due : m.Due .dispatch) :
    HandsOver m (m.setCpu (m.cpu.grant .dispatch)).dispatch m.kernel.dispatch.running := by
  refine ⟨rfl, due.started, due.outside, due.outside, rfl, fun _ => rfl, ?_⟩
  intro u owned
  have here := due.owner_at_point
  rwa [owned] at here

theorem HandsOver.of_launch (booting : m.context = .boot) (alive : m.launch.2 = .none) :
    HandsOver m m.launch.1 m.launch.1.kernel.running := by
  obtain ⟨outside, owned⟩ := of_booting booting
  rw [launch_eq (free_of_launch alive)]
  refine ⟨rfl, rfl, outside, outside, rfl, fun _ => rfl, ?_⟩
  intro u other
  rw [owned] at other
  cases other

/-- A task that gets the processor goes on where it was. -/
theorem HandsOver.activity {t : TaskId} (handed : HandsOver m m' t) :
    m'.activity = m.activityOf (.task t) := by
  have mine : m'.context = .task t := by
    rw [context_eq, if_neg (by simp [handed.after]), handed.owner]
    rfl
  rw [activity_eq, mine, handed.same]

/-- A task that gets the processor starts, or goes on with the check in which it lost it. -/
theorem HandsOver.resumes {t : TaskId} (handed : HandsOver m m' t) (settled : m.Settled h) :
    m'.activity = .dormant ∨ ∃ stage, m'.activity = .point stage := by
  rw [handed.activity]
  by_cases owned : m.cpu.owner = .task t
  · exact .inr (handed.here t owned)
  · exact settled.parked t owned

theorem Settled.of_handsOver {t : TaskId} {k : Kernel} (settled : m.Settled h)
    (handed : HandsOver m m' t) : m'.Settled (.dispatched k :: h) := by
  constructor
  · exact ⟨fun _ => ⟨k, List.mem_cons_self⟩, fun _ => handed.started⟩
  · rw [handed.after, handed.serving, ← handed.before]
    exact settled.serving
  · intro inside
    exact Bool.noConfusion (handed.after.symm.trans inside)
  · intro u lost
    rw [handed.same]
    by_cases owned : m.cpu.owner = .task u
    · exact .inr (handed.here u owned)
    · exact settled.parked u owned

/-- Entering a handler changes what the handler is doing, and nothing else that is done. -/
theorem activityOf_enterHandler {cpu : Processor} {handler : Handler} {c : Context}
    (hc : c ≠ .handler) :
    ((m.setCpu cpu).enterHandler handler).1.activityOf c = m.activityOf c := by
  cases handler <;> cases c <;> first | rfl | exact absurd rfl hc

theorem Settled.taken (settled : m.Settled h) (taken : Taken m h r m' h') : m'.Settled h' := by
  have due := Due.of_taken taken
  cases taken with
  | @line n handler =>
    have entered : ((m.setCpu (m.cpu.grant (.line n))).enterHandler handler).1.cpu =
        m.cpu.grant (.line n) := by
      cases handler <;> rfl
    have serving : ((m.setCpu (m.cpu.grant (.line n))).enterHandler handler).1.serving =
        some handler := by
      cases handler <;> rfl
    refine ⟨?_, ?_, fun _ => ?_, fun t lost => ?_⟩
    · rw [entered]
      change m.cpu.started = true ↔ _
      simpa using settled.started
    · rw [entered, serving]
      exact ⟨fun _ => ⟨handler, rfl⟩, fun _ => rfl⟩
    · rw [activityOf_enterHandler (Owner.context_ne _), entered]
      exact due.owner_at_point
    · rw [activityOf_enterHandler (by simp)]
      rw [entered] at lost
      exact settled.parked t lost
  | dispatch => exact settled.of_handsOver (.of_dispatch due)

theorem Turn.settled (turn : Turn m h m' h') (settled : m.Settled h) : m'.Settled h' := by
  cases turn with
  | onward away onward quiet => exact settled.onward quiet onward
  | check here check =>
    cases check with
    | closed | clear => exact settled.set .refl (.refl _) _
    | takes taken => exact settled.taken taken
  | outside only keeps =>
    subst only
    exact settled.of_stays .refl rfl rfl rfl rfl fun c _ => by cases c <;> rfl
  | launch free booting alive => exact settled.of_handsOver (.of_launch booting alive)

theorem Run.settled (run : Run config m h) : m.Settled h :=
  run.induct_next (settled_initial config) fun _ settled next => next.turn.settled settled

/-- After a handler, the check goes on that the handler interrupted. -/
theorem Settled.resumes (settled : m.Settled h) (inside : m.cpu.inInterrupt = true) :
    ∃ stage, m.leaveHandler.activity = .point stage := by
  have back : m.leaveHandler.context = m.cpu.owner.context := context_eq _
  have same : m.leaveHandler.activityOf m.cpu.owner.context =
      m.activityOf m.cpu.owner.context := by
    cases m.cpu.owner <;> rfl
  rw [activity_eq, back, same]
  exact settled.interrupted inside

theorem Turn.entered {handler : Handler} (turn : Turn m h m' h')
    (new : h' = .entered handler :: h) :
    ∃ n, (m.cpu.line n).handler = some handler ∧ Taken m h (.line n) m' h' := by
  cases turn.taking new rfl with
  | takes taken =>
    cases taken with
    | line due registered =>
      cases new
      exact ⟨_, registered, .line due registered⟩
    | dispatch => cases new
  | launches => cases new

end Machine

end TaskKernel
