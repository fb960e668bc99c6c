import TaskKernel.Proofs.Heap.Tenancy

namespace TaskKernel

def QueueOp.on (q : Nat) (ops : List (Nat × QueueOp)) : List QueueOp :=
  (ops.filter (·.1 = q)).map Prod.snd

namespace History

def opOf (h : History) : Happening → Option (Nat × QueueOp)
  | .ran c before sec => (h.calling c).bind fun call => sec.op call before
  | _ => none

def ops (q : Nat) : History → List QueueOp
  | [] => []
  | x :: h => QueueOp.on q (opOf h x).toList ++ ops q h

end History

/-- A queue is used by at most one operation, which may be one on another queue. -/
inductive QueueOp.Effect (q : Nat) (f : Option Fifo) : Option (Nat × QueueOp) → Option Fifo → Prop
  | none : Effect q f none f
  | other {i : Nat} {op : QueueOp} (ne : i ≠ q) : Effect q f (some (i, op)) f
  | step {op : QueueOp} {f' : Option Fifo} (step : op.Step f f') : Effect q f (some (q, op)) f'

inductive Fifo.Rings (m : Memory) : Option Ring → Option Fifo → Prop
  | absent : Rings m none none
  | created {r : Ring} {f : Fifo} (holds : r.Holds m f) : Rings m (some r) (some f)

/-- A message is in its slot before it is counted in, and out of it before it is counted out. -/
def Stage.Copied (q : Nat) (m : Memory) (r : Option Ring) (f : Option Fifo) (call : Call) :
    Stage → Prop
  | .enter (.commitAdd i) => i = q → ∃ x, r = some x ∧ call.payload.length ≤ x.slotSize ∧
      m.HasMessage (x.base + x.position) call.payload
  | .enter (.commitRemove i n out) => i = q → ∃ g msg rest, f = some g ∧ g.content = msg :: rest ∧
      Receipt.Delivers { buffer := call.buffer, length := n, out } msg
  | _ => True

variable {s s' : System} {sec : Section} {stage next : Stage} {call : Call} {c : Context} {q : Nat}
  {f f' : Option Fifo} {r : Option Ring} {mem : Memory}

namespace Fifo.Rings

theorem count (h : Rings mem r f) : (QueueOp.count ((r.map Ring.length).getD 0)).Step f f := by
  cases h with
  | absent => exact .countNone
  | created holds =>
    obtain ⟨p, shape⟩ := holds.shape
    rw [Option.map_some, Option.getD_some, shape.length_eq]
    exact .count

theorem test (h : Rings mem r f) : (QueueOp.test !r.any Ring.hasRoom).Step f f := by
  cases h with
  | absent => exact .testNone
  | @created r g holds =>
    obtain ⟨p, shape⟩ := holds.shape
    have full : (!decide (g.content.length < g.slots)) = decide (g.slots ≤ g.content.length) := by
      rw [← decide_not]
      exact decide_eq_decide.mpr Nat.not_lt
    rw [Option.any_some, shape.hasRoom_eq, full]
    exact .test

theorem small {x : Ring} (h : Rings mem (some x) f) : x.slotSize ≤ 65535 := by
  cases h with
  | created holds =>
    rw [holds.longest]
    exact holds.small

/-- What is copied out of the ring is its oldest message. -/
theorem fetch {x : Ring} (h : Rings mem (some x) f) (message : x.hasMessage = true)
    (buffer : List UInt8) : ∃ g msg rest, f = some g ∧ g.content = msg :: rest ∧
      Receipt.Delivers ⟨buffer, x.frontLength mem, x.fetch mem buffer⟩ msg := by
  cases h with
  | @created _ g holds =>
    obtain ⟨p, shape⟩ := holds.shape
    rw [shape.hasMessage_eq, decide_eq_true_eq] at message
    cases content : g.content with
    | nil =>
      rw [content] at message
      cases message
    | cons msg rest => exact ⟨g, msg, rest, rfl, content, holds.fetch content⟩

/-- The message that lies in its slot is counted in. -/
theorem add {x : Ring} {payload : List UInt8} (h : Rings mem r f) (ring : r = some x)
    (room : x.hasRoom = true) (fits : payload.length ≤ x.slotSize)
    (written : mem.HasMessage (x.base + x.position) payload) :
    ∃ f', (QueueOp.add payload).Step f f' ∧ Rings mem (r.map Ring.commitWrite) f' := by
  subst ring
  cases h with
  | created holds =>
    obtain ⟨p, shape⟩ := holds.shape
    rw [shape.hasRoom_eq, decide_eq_true_eq] at room
    rw [holds.longest] at fits
    exact ⟨_, .add room fits, .created (holds.commitWrite room fits written)⟩

/-- The oldest message is counted out. -/
theorem remove {g : Fifo} {msg : List UInt8} {rest : List (List UInt8)} {x : Receipt}
    (h : Rings mem r (some g)) (oldest : g.content = msg :: rest) (delivers : x.Delivers msg) :
    ∃ f', (QueueOp.remove x).Step (some g) f' ∧ Rings mem (r.map Ring.commitRead) f' := by
  cases h with
  | created holds => exact ⟨_, .remove oldest delivers, .created (holds.commitRead oldest)⟩

theorem flush {x : Ring} (h : Rings mem r f) (ring : r = some x) :
    ∃ f', QueueOp.flush.Step f f' ∧ Rings mem (r.map Ring.clear) f' := by
  subst ring
  cases h with
  | created holds => exact ⟨_, .flush, .created holds.clear⟩

theorem create {base slots longest : Nat} (h : Rings mem none f) (positive : 0 < slots)
    (small : longest ≤ 65535) : ∃ f', (QueueOp.create slots longest).Step f f' ∧
      Rings mem (some (.ofSlots base slots longest)) f' := by
  cases h with
  | absent => exact ⟨_, .create positive small, .created (.ofSlots base positive small)⟩

end Fifo.Rings

/-- Only what a stage holds is copied. -/
theorem Stage.copied_of_holds (free : stage.holds q = false) : stage.Copied q mem r f call := by
  cases stage with
  | enter sec =>
    cases sec with
    | commitAdd | commitRemove => exact fun mine => absurd mine (of_decide_eq_false free)
    | _ => trivial
  | _ => trivial

namespace Section

structure Follows (s : System) (call : Call) (sec : Section) (s' : System) (q : Nat) (mem : Memory)
    (f f' : Option Fifo) : Prop where
  effect : QueueOp.Effect q f (sec.op call s) f'
  rings : Fifo.Rings mem (s'.kernel.ring q) f'
  alone : (s'.kernel.ring q = s.kernel.ring q ∧ f' = f) ∨ Alone s.kernel sec q

/-- What a section does to a queue is its operation on a bounded FIFO. -/
theorem Tends.fifo (tends : sec.Tends s call s' next) (sees : (Stage.enter sec).Sees s.kernel)
    (checked : call.Checked) (rings : Fifo.Rings mem (s.kernel.ring q) f)
    (copied : (Stage.enter sec).Copied q mem (s.kernel.ring q) f call) :
    ∃ f', Follows s call sec s' q mem f f' := by
  have still : s'.kernel.ring q = s.kernel.ring q → QueueOp.Effect q f (sec.op call s) f →
      ∃ f', Follows s call sec s' q mem f f' :=
    fun same effect => ⟨f, effect, same ▸ rings, .inl ⟨same, rfl⟩⟩
  have silent : sec.op call s = none → QueueOp.Effect q f (sec.op call s) f :=
    fun op => op ▸ .none
  have asks : ∀ {i : Nat} {op : QueueOp}, (i = q → op.Step f f) →
      QueueOp.Effect q f (some (i, op)) f := by
    intro i op step
    by_cases here : i = q
    · subst here
      exact .step (step rfl)
    · exact .other here
  have takes : ∀ {i : Nat} {op : QueueOp} {x : Option Ring}, sec.op call s = some (i, op) →
      s.kernel.Alters s'.kernel i x → Alone s.kernel sec i →
      (i = q → ∃ f', op.Step f f' ∧ Fifo.Rings mem x f') →
      ∃ f', Follows s call sec s' q mem f f' := by
    intro i op x takes alters alone step
    by_cases here : i = q
    · subst here
      obtain ⟨f', step, after⟩ := step rfl
      refine ⟨f', ?_, ?_, .inr alone⟩
      · rw [takes]
        exact .step step
      · rw [alters.ring]
        exact after
    · refine still (alters.ring_other here) ?_
      rw [takes]
      exact .other here
  cases tends with
  | rests op same => exact still (Kernel.ring_of_queues same q) (silent op)
  | takesIn op adds clear ring room fits alters | takesOut op removes clear ring message alters =>
    exact still (alters.ring_of_eq ring q) (silent op)
  | counts =>
    refine still rfl (asks fun here => ?_)
    subst here
    exact rings.count
  | tests =>
    refine still rfl (asks fun here => ?_)
    subst here
    exact rings.test
  | adds adds alters =>
    refine takes rfl alters (.inr (.inl (decide_eq_true rfl))) fun here => ?_
    subst here
    obtain ⟨x, ring, fits, written⟩ := copied rfl
    obtain ⟨y, ring', room⟩ := sees
    cases ring.symm.trans ring'
    exact rings.add ring room fits written
  | removes removes alters =>
    refine takes rfl alters (.inr (.inl (decide_eq_true rfl))) fun here => ?_
    subst here
    obtain ⟨g, msg, rest, rfl, oldest, delivers⟩ := copied rfl
    exact rings.remove oldest delivers
  | flushes op flushes clear created alters =>
    refine takes op alters (.inl clear) fun here => ?_
    subst here
    obtain ⟨x, ring⟩ := created sees
    exact rings.flush ring
  | creates creates none alters =>
    refine takes rfl alters (.inr (.inr none)) fun here => ?_
    subst here
    subst creates
    rw [none] at rings
    exact rings.create checked.1 checked.2

/-- A section leaves no call with a message copied. -/
theorem Tends.copied (tends : sec.Tends s call s' next) : next.Copied q mem r f call := by
  cases tends with
  | rests op same free => exact Stage.copied_of_holds (Stage.holds_of_works free q)
  | _ => trivial

end Section

theorem History.reached_ops {h : History} {x : Happening} (reached : Fifo.Reached (h.ops q) f)
    (effect : QueueOp.Effect q f (h.opOf x) f') : Fifo.Reached (ops q (x :: h)) f' := by
  change Fifo.Reached (QueueOp.on q (h.opOf x).toList ++ h.ops q) f'
  revert effect
  generalize h.opOf x = op
  intro effect
  cases effect with
  | none => exact reached
  | other ne =>
    simp only [QueueOp.on, Option.toList_some, List.filter_cons, ne, decide_false]
    exact reached
  | step step =>
    simp only [QueueOp.on, Option.toList_some, List.filter_cons, decide_true]
    exact .step reached step

namespace Machine

variable {m m' : Machine} {h h' : History} {config : Config} {region : Heap.Region}

/-- The operations so far lead to the bounded FIFO that the kernel has. -/
structure Linear (m : Machine) (h : History) (q : Nat) (f : Option Fifo) : Prop where
  reached : Fifo.Reached (h.ops q) f
  rings : Fifo.Rings m.kernel.memory (m.kernel.ring q) f
  copied {c : Context} {stage : Stage} {call : Call} : m.stageOf c = some stage →
    h.calling c = some call → stage.Copied q m.kernel.memory (m.kernel.ring q) f call

theorem Change.ops (change : Change m h m' h') (idle : ∀ c before sec, h' ≠ .ran c before sec :: h)
    (q : Nat) : h'.ops q = h.ops q := by
  cases change with
  | ran => exact absurd rfl (idle _ _ _)
  | _ => rfl

/-- Copying a message into its slot leaves the queued ones alone. -/
theorem rings_kept (run : Run config m h) (rings : Fifo.Rings m.kernel.memory (m.kernel.ring q) f)
    (kept : ∀ r, m.kernel.ring q = some r → RingKept m h m' h' q r) :
    Fifo.Rings m'.kernel.memory (m.kernel.ring q) f := by
  cases ring : m.kernel.ring q with
  | none =>
    rw [ring] at rings
    cases rings
    exact .absent
  | some r =>
    rw [ring] at rings
    cases rings with
    | created holds =>
      cases kept r ring with
      | rests kept => exact .created (holds.congr kept)
      | copies here after kernel =>
        obtain ⟨-, room, fits⟩ := run.guarded.sees here
        obtain ⟨p, shape⟩ := holds.shape
        rw [shape.hasRoom_eq, decide_eq_true_eq] at room
        rw [holds.longest] at fits
        rw [kernel]
        exact .created (holds.store room fits)

/-- Nobody else writes into the slot of a context that has copied its message. -/
theorem copied_kept (run : Run config m h) (here : m.stageOf c = some stage)
    (copied : stage.Copied q m.kernel.memory (m.kernel.ring q) f call)
    (kept : ∀ r, m.kernel.ring q = some r → RingKept m h m' h' q r) :
    stage.Copied q m'.kernel.memory (m.kernel.ring q) f call := by
  cases stage with
  | enter sec =>
    cases sec with
    | commitRemove => exact copied
    | commitAdd i =>
      intro he
      subst he
      obtain ⟨r, ring, fits, written⟩ := copied rfl
      refine ⟨r, ring, fits, ?_⟩
      cases kept r ring with
      | copies here' =>
        cases run.guarded.one here here' (decide_eq_true rfl) (decide_eq_true rfl)
        cases here.symm.trans here'
      | rests kept =>
        obtain ⟨slots, n, p, shape⟩ := run.guarded.shaped ring
        have within := shape.slot_le shape.inside
        rw [← shape.position] at within
        unfold Ring.stride at within
        exact written.congr fun b lower upper => kept b (by omega) (by omega)
    | _ => trivial
  | _ => trivial

/-- The queues are the same, but a message may have been copied. -/
theorem Linear.quiet (linear : Linear m h q f) (run : Run config m h) (arena : Arena config region)
    (change : Change m h m' h') (queues : m'.kernel.queues = m.kernel.queues)
    (idle : ∀ c before sec, h' ≠ .ran c before sec :: h) : Linear m' h' q f := by
  have same := Kernel.ring_of_queues queues q
  have kept : ∀ r, m.kernel.ring q = some r → RingKept m h m' h' q r :=
    fun r ring => change.kept run arena ring
  refine ⟨change.ops idle q ▸ linear.reached, ?_, fun {c stage call} here' calling => ?_⟩
  · rw [same]
    exact rings_kept run linear.rings kept
  rw [same]
  have carry : ∀ {stage}, m.stageOf c = some stage → h.calling c = some call →
      stage.Copied q m'.kernel.memory (m.kernel.ring q) f call :=
    fun here calling => copied_kept run here (linear.copied here calling) kept
  cases change.progress run here' calling with
  | begins => exact Stage.copied_of_holds ((Stage.sees_start _ _ m.kernel).2 q)
  | serves => trivial
  | runs here calling runs ran system new => exact absurd new (idle _ _ _)
  | waits here calling => exact carry here calling
  | @codes _ _ _ move here calling stays ran goes moves =>
    cases goes with
    | enter => exact carry here calling
    | @copyIn i r payload =>
      intro he
      subst he
      obtain ⟨ring, -, fits⟩ := run.guarded.sees here
      have memory : m'.kernel.memory = r.store m.kernel.memory payload :=
        (congrArg (·.1.kernel.memory) ran).symm
      have rings := linear.rings
      rw [ring] at rings
      cases stays
      refine ⟨r, ring, fits, ?_⟩
      rw [memory]
      exact r.hasMessage_store _ (Nat.le_trans fits rings.small)
    | @copyOut i n r buffer out =>
      intro he
      subst he
      obtain ⟨ring, message⟩ := run.guarded.sees here
      have rings := linear.rings
      rw [ring] at rings
      have goto : move = .goto (.enter (.commitRemove i (r.frontLength m.kernel.memory)
          (r.fetch m.kernel.memory buffer))) := (congrArg Prod.snd ran).symm
      cases stays
      subst goto
      cases moves
      exact rings.fetch message _
    | _ => trivial

/-- A section executes its operation on the queue. -/
theorem Linear.executes {s : System} (linear : Linear m h q f) (run : Run config m h)
    (executes : Executes m h m' h' c sec call s next) :
    ∃ f', Linear m' h' q f' := by
  have sees := run.guarded.sees executes.here
  have memory : m'.kernel.memory = m.kernel.memory := by
    rw [executes.kernel]
    exact Kernel.memory_of_storage (Section.storage_of_run executes.ran)
  have copied := linear.copied executes.here executes.calling
  obtain ⟨f', follows⟩ := (executes.tends run).fifo sees (executes.checked run) linear.rings copied
  have new := executes.new
  refine ⟨f', ?_, ?_, fun {c' stage call'} here' calling' => ?_⟩
  · rw [new]
    refine History.reached_ops linear.reached ?_
    change QueueOp.Effect q f ((h.calling c).bind _) f'
    rw [executes.calling]
    exact follows.effect
  · rw [memory, executes.kernel]
    exact follows.rings
  have calling : h.calling c' = some call' := by
    rw [new] at calling'
    exact calling'
  by_cases mine : c' = c
  · subst mine
    cases executes.calling.symm.trans calling
    cases executes.after.symm.trans here'
    exact (executes.tends run).copied
  · have here := (executes.others c' mine).symm.trans here'
    rcases follows.alone with ⟨ring, rfl⟩ | alone
    · rw [memory, executes.kernel, ring]
      exact linear.copied here calling
    · exact Stage.copied_of_holds (run.guarded.alone executes.here alone here mine)

/-- One change is at most one operation on the queue. -/
theorem Change.linear (run : Run config m h) (arena : Arena config region)
    (change : Change m h m' h') (linear : Linear m h q f) : ∃ f', Linear m' h' q f' := by
  rcases change.queues run with ⟨queues, idle⟩ | ⟨c, sec, call, s, next, executes⟩
  · exact ⟨f, linear.quiet run arena change queues idle⟩
  · exact linear.executes run executes

/-- The operations of every run lead to the bounded FIFO that the kernel has. -/
theorem Run.linear (run : Run config m h) (arena : Arena config region) (q : Nat) :
    ∃ f, Linear m h q f := by
  refine Run.induct (P := fun m h => ∃ f, Linear m h q f) ?_ (fun run ih change => ?_) run
  · refine ⟨none, .none, .absent, fun _ calling => ?_⟩
    cases calling
  · obtain ⟨f, linear⟩ := ih
    exact change.linear run arena linear

end Machine

end TaskKernel
