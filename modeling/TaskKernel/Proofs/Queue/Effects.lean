import TaskKernel.Proofs.Queue.Fifo
import TaskKernel.Proofs.Run.Tasks
import TaskKernel.Proofs.Wait.Readiness

namespace TaskKernel

def Call.payload : Call → List UInt8
  | .add _ _ _ payload => payload
  | _ => []

def Call.buffer : Call → List UInt8
  | .remove _ _ _ buffer => buffer
  | _ => []

def Section.goal : Section → Option Goal
  | .seek g _ _ => some g
  | .wake _ (.goal g) => some g
  | .startFlush q => some (.flush q)
  | _ => none

/-- The operation on a queue that takes effect in a section of the call. -/
def Section.op (call : Call) (before : System) (sec : Section) : Option (Nat × QueueOp) :=
  match sec with
  | .installRing q slots payload _ => some (q, .create slots payload)
  | .commitAdd q => some (q, .add call.payload)
  | .commitRemove q n out => some (q, .remove { buffer := call.buffer, length := n, out })
  | .length q => some (q, .count (((before.kernel.ring q).map Ring.length).getD 0))
  | .isFull q => some (q, .test !before.kernel.hasRoom q)
  | sec =>
    match sec.goal with
    | some (.flush q) =>
      if (sec.run before).2 = .leave (.return .unit) then some (q, .flush) else none
    | _ => none

def Stage.holds (q : Nat) : Stage → Bool
  | .copyIn i _ _ => i = q
  | .copyOut i _ _ => i = q
  | .enter (.commitAdd i) => i = q
  | .enter (.commitRemove i _ _) => i = q
  | _ => false

/-- The call has a queue to itself, or has just given it back. -/
def Stage.works : Stage → Bool
  | .copyIn .. => true
  | .copyOut .. => true
  | .removed .. => true
  | .enter (.commitAdd _) => true
  | .enter (.commitRemove ..) => true
  | _ => false

def Goal.Sees (k : Kernel) : Goal → Prop
  | .add q payload => ∃ r, k.ring q = some r ∧ payload.length ≤ r.slotSize
  | .flush q => ∃ r, k.ring q = some r
  | _ => True

def Stage.Sees (k : Kernel) : Stage → Prop
  | .copyIn q r payload =>
    k.ring q = some r ∧ r.hasRoom = true ∧ payload.length ≤ r.slotSize
  | .copyOut q r _ => k.ring q = some r ∧ r.hasMessage = true
  | .enter (.commitAdd q) => ∃ r, k.ring q = some r ∧ r.hasRoom = true
  | .enter (.commitRemove q _ _) => ∃ r, k.ring q = some r ∧ r.hasMessage = true
  | .enter (.seek g _ _) => g.Sees k
  | .enter (.wake _ (.goal g)) => g.Sees k
  | .yield _ (.goal g) => g.Sees k
  | .reenter _ (.goal g) => g.Sees k
  | _ => True

/-- One queue has got this ring, and the others are as they were. -/
structure Kernel.Alters (k k' : Kernel) (q : Nat) (r : Option Ring) : Prop where
  ring : k'.ring q = r
  rest (i : Nat) : q ≠ i → k'.queues.get i = k.queues.get i

def Call.usesQueue : Call → Bool
  | .add .. => true
  | .remove .. => true
  | .flush _ => true
  | .length _ => true
  | .isFull _ => true
  | _ => false

inductive Section.Tends (s : System) (call : Call) : Section → System → Stage → Prop where
  | rests {sec : Section} {s' : System} {next : Stage} (op : sec.op call s = none)
      (same : s'.kernel.queues = s.kernel.queues) (free : next.works = false)
      (sees : (Stage.enter sec).Sees s.kernel → next.Sees s.kernel)
      (fails : ∀ r, next = .return r → call.usesQueue = true → ∃ e, r = .failed e) :
      Tends s call sec s' next
  | counts {q : Nat} (asks : call = .length q) : Tends s call (.length q) s
      (.return (.number (((s.kernel.ring q).map Ring.length).getD 0)))
  | tests {q : Nat} (asks : call = .isFull q) :
      Tends s call (.isFull q) s (.return (.flag !s.kernel.hasRoom q))
  | takesIn {sec : Section} {s' : System} {q : Nat} {r : Ring} (op : sec.op call s = none)
      (adds : ∃ flags n, call = .add q flags n call.payload)
      (clear : (s.kernel.mutex (.queue q)).isClear internalLock = true)
      (ring : s.kernel.ring q = some r) (room : r.hasRoom = true)
      (fits : (Stage.enter sec).Sees s.kernel → call.payload.length ≤ r.slotSize)
      (alters : s.kernel.Alters s'.kernel q (some r))
      (taken : (s'.kernel.mutex (.queue q)).isClear internalLock = false) :
      Tends s call sec s' (.copyIn q r call.payload)
  | takesOut {sec : Section} {s' : System} {q : Nat} {r : Ring} (op : sec.op call s = none)
      (removes : ∃ flags n, call = .remove q flags n call.buffer)
      (clear : (s.kernel.mutex (.queue q)).isClear internalLock = true)
      (ring : s.kernel.ring q = some r) (message : r.hasMessage = true)
      (alters : s.kernel.Alters s'.kernel q (some r))
      (taken : (s'.kernel.mutex (.queue q)).isClear internalLock = false) :
      Tends s call sec s' (.copyOut q r call.buffer)
  | adds {s' : System} {q : Nat} (adds : ∃ flags n, call = .add q flags n call.payload)
      (alters : s.kernel.Alters s'.kernel q ((s.kernel.ring q).map Ring.commitWrite)) :
      Tends s call (.commitAdd q) s' (.return .unit)
  | removes {s' : System} {q n : Nat} {out : List UInt8}
      (removes : ∃ flags ticks, call = .remove q flags ticks call.buffer)
      (alters : s.kernel.Alters s'.kernel q ((s.kernel.ring q).map Ring.commitRead)) :
      Tends s call (.commitRemove q n out) s' (.removed q n out)
  | flushes {sec : Section} {s' : System} {q : Nat} (op : sec.op call s = some (q, .flush))
      (flushes : call = .flush q)
      (clear : (s.kernel.mutex (.queue q)).isClear internalLock = true)
      (created : (Stage.enter sec).Sees s.kernel → ∃ r, s.kernel.ring q = some r)
      (alters : s.kernel.Alters s'.kernel q ((s.kernel.ring q).map Ring.clear)) :
      Tends s call sec s' (.return .unit)
  | creates {s' : System} {q slots payload base : Nat}
      (creates : call = .createQueue q slots payload) (none : s.kernel.ring q = none)
      (alters : s.kernel.Alters s'.kernel q (some (.ofSlots base slots payload))) :
      Tends s call (.installRing q slots payload base) s' (.return .unit)

variable {s s' s₀ : System} {sec : Section} {next : Stage} {call : Call} {c : Context} {g : Goal}

def Call.External : Call → Prop
  | .lock m _ _ _ => ∃ i, m = .object i
  | .unlock m _ _ => ∃ i, m = .object i
  | _ => True

theorem Call.not_usesQueue {p : Pause} (waits : call.WaitsIn (.pause p)) :
    call.usesQueue = false := by
  cases waits with
  | pause pauses => cases pauses <;> rfl
  | exit => rfl

theorem Stage.holds_of_works {stage : Stage} (free : stage.works = false) (q : Nat) :
    stage.holds q = false := by
  cases stage with
  | enter sec => cases sec <;> first | rfl | cases free
  | copyIn | copyOut => cases free
  | _ => rfl

namespace Section

theorem Seeks.queues {nowait : Bool} {timeout : Ticks} (seeks : sec.Seeks s s₀ g nowait timeout) :
    s₀.kernel.queues = s.kernel.queues := by
  obtain ⟨tasks, journal, rfl⟩ := seeks.state
  rfl

/-- A goal is sought by a call that has checked what it has to. -/
theorem Seeks.sees {nowait : Bool} {timeout : Ticks} (seeks : sec.Seeks s s₀ g nowait timeout)
    (sees : (Stage.enter sec).Sees s.kernel) : g.Sees s.kernel := by
  cases seeks with
  | seek => exact sees
  | add ring fits => exact ⟨_, ring, fits⟩
  | flush ring => exact ⟨_, ring⟩
  | multi => trivial
  | wake => exact sees

theorem op_of_goal {q : Nat} (after : sec.goal = some (.flush q))
    (ran : sec.run s = (s', .leave next)) :
    sec.op call s = if next = .return .unit then some (q, .flush) else none := by
  have done : (sec.run s).2 = .leave (.return .unit) ↔ next = .return .unit := by
    rw [ran]
    exact ⟨fun he => by cases he; rfl, fun he => by rw [he]⟩
  simp only [← done]
  cases sec with
  | seek | startFlush => cases after; rfl
  | wake t w =>
    cases w with
    | goal => cases after; rfl
    | pause => cases after
  | _ => cases after

/-- A section that may wait completes no operation but a flush. -/
theorem op_of_waits (waits : sec.isPlain = false) (ran : sec.run s = (s', .leave next))
    (unfinished : ∀ q, sec.goal = some (.flush q) → next ≠ .return .unit) :
    sec.op call s = none := by
  have flush : ∀ q, sec.goal = some (.flush q) → sec.op call s = none := fun q after =>
    (op_of_goal after ran).trans (if_neg (unfinished q after))
  cases sec with
  | seek g nowait timeout =>
    cases g with
    | flush q => exact flush q rfl
    | _ => rfl
  | wake t w =>
    cases w with
    | goal g =>
      cases g with
      | flush q => exact flush q rfl
      | _ => rfl
    | pause => rfl
  | startFlush q => exact flush q rfl
  | pause | exit | startAdd | startMulti => rfl
  | _ => cases waits

theorem Seeks.goal_eq {nowait : Bool} {timeout : Ticks} {q : Nat}
    (seeks : sec.Seeks s s₀ g nowait timeout) : sec.goal = some (.flush q) ↔ g = .flush q := by
  cases seeks with
  | seek | wake => simp [goal]
  | add | flush | multi => simp [goal]

theorem Seeks.waits {nowait : Bool} {timeout : Ticks}
    (seeks : sec.Seeks s s₀ g nowait timeout) : sec.isPlain = false := by
  cases seeks <;> rfl

end Section

theorem Word.not_isClear_or (w : Word) : (w ||| internalLock).isClear internalLock = false := by
  unfold Word.isClear
  rw [decide_eq_false_iff_not]
  intro none
  have bit := congrArg (·.getLsbD 0) none
  simp [internalLock] at bit

namespace Kernel

variable {k k' k'' : Kernel} {q : Nat} {r : Option Ring}

theorem ring_of_queues (same : k'.queues = k.queues) (q : Nat) : k'.ring q = k.ring q := by
  unfold ring
  rw [same]

theorem mutex_of_queues (same : k'.queues = k.queues) (q : Nat) :
    k'.mutex (.queue q) = k.mutex (.queue q) := by
  unfold mutex
  dsimp only
  rw [same]

theorem Alters.of_queues (h : k.Alters k' q r) (same : k.queues = k''.queues) :
    k''.Alters k' q r :=
  ⟨h.ring, fun i ne => (h.rest i ne).trans (by rw [same])⟩

theorem Alters.trans {r' : Option Ring} (h : k.Alters k' q r) (h' : k'.Alters k'' q r') :
    k.Alters k'' q r' :=
  ⟨h'.ring, fun i ne => (h'.rest i ne).trans (h.rest i ne)⟩

theorem queues_consume (k : Kernel) (ready : ReadySet) (entries : List SubWait) :
    (k.consume ready entries).queues = k.queues := by
  obtain ⟨events, same⟩ := k.consume_eq ready entries
  rw [same]

theorem alters_setMutex (k : Kernel) (q : Nat) (w : Word) :
    k.Alters (k.setMutex (.queue q) w) q (k.ring q) := by
  refine ⟨ring_setMutex .., fun i ne => ?_⟩
  exact (Table.get_modify ..).trans (if_neg ne)

/-- A queue gets a ring, and its lock is given back. -/
theorem alters_setRing (k : Kernel) (q : Nat) (r : Option Ring) :
    k.Alters ((k.setRing q r).unlock (.queue q) internalLock) q r := by
  refine ⟨?_, fun i ne => ?_⟩
  · unfold unlock
    rw [ring_setMutex, ring_setRing, if_pos rfl]
  · refine (Table.get_modify ..).trans ((if_neg ne).trans ?_)
    exact (Table.get_modify ..).trans (if_neg ne)

end Kernel

theorem System.emptyQueue_alters (s : System) (q : Nat) :
    s.kernel.Alters (s.emptyQueue q).kernel q ((s.kernel.ring q).map Ring.clear) := by
  unfold emptyQueue
  cases ring : s.kernel.ring q with
  | none =>
    rw [requestReschedule_kernel]
    have := s.kernel.alters_setMutex q ((s.kernel.mutex (.queue q)).without internalLock)
    rw [ring] at this
    exact this
  | some r =>
    rw [requestReschedule_kernel]
    exact ((s.log (.queueFlushed q r.length)).kernel.alters_setRing q (some r.clear)).of_queues rfl

/-- The lock of a queue is taken. -/
theorem System.locked_alters {q : Nat} {r : Ring} (ring : s.kernel.ring q = some r) :
    s.kernel.Alters (s.locked (.queue q) internalLock).kernel q (some r) :=
  ring ▸ s.kernel.alters_setMutex q _

theorem System.locked_taken (s : System) (q : Nat) :
    ((s.locked (.queue q) internalLock).kernel.mutex (.queue q)).isClear internalLock = false := by
  unfold locked update
  dsimp only
  rw [Kernel.mutex_setMutex, if_pos rfl]
  exact Word.not_isClear_or _

namespace Section

theorem tends_of_reached {nowait : Bool} {timeout : Ticks}
    (ran : sec.run s = (s', .leave next)) (runs : call.Runs c sec) (external : call.External)
    (seeks : sec.Seeks s s₀ g nowait timeout) (reached : g.Reached s₀ s' next) :
    sec.Tends s call s' next := by
  have sought := Call.goal_of_seeks runs seeks
  have queues := seeks.queues
  have ring : ∀ q, s₀.kernel.ring q = s.kernel.ring q := Kernel.ring_of_queues queues
  have lock : ∀ q, s₀.kernel.mutex (.queue q) = s.kernel.mutex (.queue q) :=
    Kernel.mutex_of_queues queues
  have none : (∀ q, g ≠ .flush q) → sec.op call s = none := fun other =>
    op_of_waits seeks.waits ran fun q after => absurd (seeks.goal_eq.mp after) (other q)
  cases reached with
  | lock clear =>
    cases sought
    obtain ⟨i, rfl⟩ := external
    exact .rests (none (by simp)) queues rfl (fun _ => trivial) (by simp [Call.usesQueue])
  | event set =>
    cases sought
    refine .rests (none (by simp)) ?_ rfl (fun _ => trivial) (by simp [Call.usesQueue])
    dsimp only
    split <;> exact queues
  | multi met =>
    cases sought
    refine .rests (none (by simp)) ?_ rfl (fun _ => trivial) (by simp [Call.usesQueue])
    exact (Kernel.queues_consume ..).trans queues
  | @add q payload r clear here room =>
    cases sought
    refine .takesIn (none (by simp)) ⟨_, _, rfl⟩ (lock q ▸ clear) (ring q ▸ here) room
      (fun sees => ?_) ((System.locked_alters here).of_queues queues) (System.locked_taken ..)
    obtain ⟨r', hr', fits⟩ := seeks.sees sees
    cases (ring q ▸ here).symm.trans hr'
    exact fits
  | @remove q buffer r clear here message =>
    cases sought
    exact .takesOut (none (by simp)) ⟨_, _, rfl⟩ (lock q ▸ clear) (ring q ▸ here) message
      ((System.locked_alters here).of_queues queues) (System.locked_taken ..)
  | @flush q clear =>
    cases sought
    refine .flushes ((op_of_goal (seeks.goal_eq.mpr rfl) ran).trans (if_pos rfl)) rfl
      (lock q ▸ clear) seeks.sees ?_
    have taken : s₀.kernel.Alters (s₀.locked (.queue q) internalLock).kernel q (s₀.kernel.ring q) :=
      s₀.kernel.alters_setMutex q _
    have emptied := (s₀.locked (.queue q) internalLock).emptyQueue_alters q
    rw [taken.ring, ring] at emptied
    exact (taken.trans emptied).of_queues queues
  | heap clear =>
    exact .rests (none (by simp)) queues rfl (fun _ => trivial) (by simp)

/-- A section that is after a goal. -/
theorem tends_of_sought {nowait : Bool} {timeout : Ticks}
    (ran : sec.run s = (s', .leave next)) (runs : call.Runs c sec) (external : call.External)
    (seeks : sec.Seeks s s₀ g nowait timeout) (sought : Sought s₀ g nowait timeout s' next) :
    sec.Tends s call s' next := by
  have waits := seeks.waits
  have queues := seeks.queues
  cases sought with
  | reached now => exact tends_of_reached ran runs external seeks now
  | refused later must =>
    refine .rests (op_of_waits waits ran (by simp)) queues rfl (fun _ => trivial) ?_
    intro r hr _
    cases hr
    exact ⟨_, rfl⟩
  | late later may expired =>
    refine .rests (op_of_waits waits ran (by simp)) queues rfl (fun _ => trivial) ?_
    intro r hr _
    cases hr
    exact ⟨_, rfl⟩
  | blocks later may able left =>
    exact .rests (op_of_waits waits ran (by simp)) queues rfl seeks.sees (by simp)

theorem tends_of_plain (simple : sec.isPlain = true) (ran : sec.run s = (s', .leave next))
    (runs : call.Runs c sec) (external : call.External) : sec.Tends s call s' next := by
  cases runs with
  | length =>
    cases ran
    exact .counts rfl
  | isFull =>
    cases ran
    exact .tests rfl
  | commitAdd =>
    cases ran
    refine .adds ⟨_, _, rfl⟩ ?_
    rw [System.requestReschedule_kernel]
    exact s.kernel.alters_setRing _ _
  | commitRemove =>
    cases ran
    refine .removes ⟨_, _, rfl⟩ ?_
    rw [System.requestReschedule_kernel]
    exact s.kernel.alters_setRing _ _
  | @installRing _ q slots payload base =>
    simp only [run] at ran
    split at ran
    · cases ran
    · rename_i none
      cases ran
      refine .creates rfl (by simpa using none) ⟨?_, fun i ne => ?_⟩
      · exact (Kernel.ring_setRing ..).trans (if_pos rfl)
      · exact (Table.get_modify ..).trans (if_neg ne)
  | createTask =>
    refine .rests rfl ?_ ?_ ?_ (by simp [Call.usesQueue])
    · rcases createTask_cases ran with ⟨rfl, -⟩ | ⟨hk, -⟩
      · rfl
      · rw [hk]
        rfl
    · rcases createTask_cases ran with ⟨-, rfl⟩ | ⟨-, rfl, -⟩ <;> rfl
    · rcases createTask_cases ran with ⟨-, rfl⟩ | ⟨-, rfl, -⟩ <;> exact fun _ => trivial
  | tick =>
    obtain ⟨hk, rfl, -⟩ := tick_eq ran
    obtain ⟨tasks, journal, ht⟩ := s.kernel.tick_eq
    refine .rests rfl ?_ rfl (fun _ => trivial) (by simp [Call.usesQueue])
    rw [hk, ht]
  | unlock =>
    cases ran
    obtain ⟨i, rfl⟩ := external
    refine .rests rfl ?_ rfl (fun _ => trivial) (by simp [Call.usesQueue])
    rw [System.requestRescheduleIf_kernel]
    rfl
  | raise =>
    cases ran
    refine .rests rfl ?_ rfl (fun _ => trivial) (by simp [Call.usesQueue])
    rw [System.requestRescheduleIf_kernel]
    rfl
  | requestReschedule | leaveHeap =>
    cases ran
    refine .rests rfl ?_ rfl (fun _ => trivial) (by simp [Call.usesQueue])
    simp only [System.requestReschedule_kernel] <;> rfl
  | checkNoRing =>
    simp only [run] at ran
    split at ran <;> cases ran <;>
      exact .rests rfl rfl rfl (fun _ => trivial) (by simp [Call.usesQueue])
  | addSubWait =>
    simp only [run] at ran
    split at ran <;> cases ran <;>
      exact .rests rfl rfl rfl (fun _ => trivial) (by simp [Call.usesQueue])
  | pause | exit | seek | wake | startAdd | startFlush | startMulti => cases simple
  | _ =>
    cases ran
    exact .rests rfl rfl rfl (fun _ => trivial) (by simp [Call.usesQueue])

/-- What a section does to the queues. -/
theorem tends_of_run (ran : sec.run s = (s', .leave next)) (runs : call.Runs c sec)
    (external : call.External) : sec.Tends s call s' next := by
  cases left_of_run ran with
  | plain simple ran => exact tends_of_plain simple ran runs external
  | sought seeks sought => exact tends_of_sought ran runs external seeks sought
  | failed waits =>
    exact .rests (op_of_waits waits ran (by simp)) rfl rfl (fun _ => trivial) (by simp)
  | pauses =>
    exact .rests rfl rfl rfl (fun _ => trivial) (by simp)
  | late =>
    have idle : call.usesQueue = false := Call.not_usesQueue (.pause (Call.pauses_of_runs runs).1)
    exact .rests rfl rfl rfl (fun _ => trivial) (by simp [idle])
  | lateExit | exits => exact .rests rfl rfl rfl (fun _ => trivial) (by simp)
  | @asleep t w =>
    refine .rests (op_of_waits rfl ran (by simp)) rfl rfl ?_ (by simp)
    cases w with
    | goal => exact id
    | pause => exact fun _ => trivial
  | woken =>
    cases runs with
    | wake waits =>
      have idle := Call.not_usesQueue waits
      exact .rests rfl rfl rfl (fun _ => trivial) (by simp [idle])
  | exited => exact .rests rfl rfl rfl (fun _ => trivial) (by simp)

end Section

end TaskKernel
