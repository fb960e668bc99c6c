import TaskKernel.Proofs.Queue.Linear
import TaskKernel.Proofs.Run.Script
import TaskKernel.Proofs.Wait.Budget

namespace TaskKernel

namespace History

/-- The operations of the call that the context makes or has made last, the newest first. -/
def opsBy (c : Context) : History → List (Nat × QueueOp)
  | [] => []
  | .called c' _ :: h => if c' = c then [] else opsBy c h
  | .entered .timer :: h => if c = .handler then [] else opsBy c h
  | .ran c' before sec :: h =>
    if c' = c then (opOf h (.ran c' before sec)).toList ++ opsBy c h else opsBy c h
  | _ :: h => opsBy c h

def before (c : Context) : History → History
  | [] => []
  | .called c' _ :: h => if c' = c then h else before c h
  | .entered .timer :: h => if c = .handler then h else before c h
  | _ :: h => before c h

end History

inductive Call.Accounts : Call → Reply → List (Nat × QueueOp) → Prop where
  | added {q : Nat} {flags : WaitFlags} {n : Ticks} {payload : List UInt8} :
      Accounts (.add q flags n payload) .unit [(q, .add payload)]
  | notAdded {q : Nat} {flags : WaitFlags} {n : Ticks} {payload : List UInt8} (e : WaitError) :
      Accounts (.add q flags n payload) (.failed e) []
  | removed {q length : Nat} {flags : WaitFlags} {n : Ticks} {buffer out : List UInt8} :
      Accounts (.remove q flags n buffer) (.received (min length buffer.length) out)
        [(q, .remove { buffer, length, out })]
  | notRemoved {q : Nat} {flags : WaitFlags} {n : Ticks} {buffer : List UInt8} (e : WaitError) :
      Accounts (.remove q flags n buffer) (.failed e) []
  | flushed {q : Nat} : Accounts (.flush q) .unit [(q, .flush)]
  | counted {q n : Nat} : Accounts (.length q) (.number n) [(q, .count n)]
  | tested {q : Nat} {full : Bool} : Accounts (.isFull q) (.flag full) [(q, .test full)]
  | created {q slots longest : Nat} :
      Accounts (.createQueue q slots longest) .unit [(q, .create slots longest)]
  | idle {call : Call} {r : Reply} (idle : call.usesQueue = false) : Accounts call r []

/-- The operations that a call has executed when it gets to a stage. -/
inductive Call.Accounted : Call → Stage → List (Nat × QueueOp) → Prop where
  | unfinished {call : Call} {stage : Stage} (returns : ∀ r, stage ≠ .return r)
      (removed : ∀ q n out, stage ≠ .removed q n out) : Accounted call stage []
  | removed {q length : Nat} {flags : WaitFlags} {n : Ticks} {buffer out : List UInt8}
      (whole : out.length = buffer.length) :
      Accounted (.remove q flags n buffer) (.removed q length out)
        [(q, .remove { buffer, length, out })]
  | returns {call : Call} {r : Reply} {ops : List (Nat × QueueOp)}
      (accounts : call.Accounts r ops) : Accounted call (.return r) ops

variable {s s' : System} {sec : Section} {stage next : Stage} {call : Call} {c : Context}
  {q : Nat} {h h' : History} {ops : List (Nat × QueueOp)}

theorem QueueOp.on_append (q : Nat) (xs ys : List (Nat × QueueOp)) :
    on q (xs ++ ys) = on q xs ++ on q ys := by
  unfold on
  rw [List.filter_append, List.map_append]

namespace History

theorem opsBy_other {x : Happening} (other : x.context ≠ some c) :
    opsBy c (x :: h) = opsBy c h := by
  cases Happening.foreign other with
  | called ne | ran ne | timer ne => exact if_neg ne
  | returned | dispatched | application => rfl

theorem ops_suffix {past : History} (earlier : past <:+ h) (q : Nat) : past.ops q <:+ h.ops q := by
  obtain ⟨later, rfl⟩ := earlier
  induction later with
  | nil => exact List.suffix_refl _
  | cons x later ih =>
    exact ih.trans (List.suffix_append ..)

/-- The operations of a call take effect after the call began. -/
theorem ops_of_call (h : History) (c : Context) (q : Nat) :
    (QueueOp.on q (h.opsBy c) ++ (h.before c).ops q).Sublist (h.ops q) := by
  induction h with
  | nil => exact .refl _
  | cons x h ih =>
    cases x with
    | returned | dispatched => exact ih
    | called c' =>
      unfold opsBy before
      split
      · exact .refl _
      · exact ih
    | entered handler =>
      cases handler with
      | application => exact ih
      | timer =>
        unfold opsBy before
        split
        · exact .refl _
        · exact ih
    | ran c' s sec =>
      change List.Sublist _ (QueueOp.on q (opOf h (.ran c' s sec)).toList ++ ops q h)
      by_cases here : c' = c
      · have mine : opsBy c (.ran c' s sec :: h) =
            (opOf h (.ran c' s sec)).toList ++ opsBy c h := if_pos here
        rw [mine, QueueOp.on_append, List.append_assoc]
        exact ih.append_left _
      · have other : opsBy c (.ran c' s sec :: h) = opsBy c h := if_neg here
        rw [other]
        exact ih.trans (List.sublist_append_right ..)

end History

namespace Call

theorem Accounted.nil (accounted : call.Accounted (.enter sec) ops) : ops = [] := by
  cases accounted
  rfl

/-- A call starts with nothing done. -/
theorem accounted_start (config : Config) (call : Call) :
    call.Accounted (call.start config) [] := by
  cases call with
  | createTask | createQueue | createMultiWait =>
    simp only [start]
    repeat' split
    all_goals exact .unfinished (by simp) (by simp)
  | sleep =>
    simp only [start]
    split
    · exact .returns (.idle rfl)
    · exact .unfinished (by simp) (by simp)
  | _ => exact .unfinished (by simp [start]) (by simp [start])

/-- Open code executes no operation. -/
theorem Accounted.of_goes (accounted : call.Accounted stage ops) (stays : call.At c stage)
    (goes : stage.Goes next) : call.Accounted next ops := by
  cases goes with
  | removed =>
    cases accounted with
    | unfinished returns removed => exact absurd rfl (removed _ _ _)
    | removed whole =>
      rw [whole]
      exact .returns .removed
  | leftHeap =>
    cases accounted with
    | unfinished =>
      cases stays with
      | leftHeap seeks =>
        cases seeks <;> exact .returns (.idle rfl)
  | read =>
    cases accounted with
    | unfinished =>
      cases stays
      exact .returns (.idle rfl)
  | cpu succeeds lock =>
    rcases lock with rfl | rfl | rfl | rfl <;> cases accounted <;> cases stays <;>
      exact .returns (.idle rfl)
  | _ =>
    cases accounted
    exact .unfinished (by simp) (by simp)

/-- Who only asks executes one section, which answers. -/
theorem Runs.op_ne_none (runs : call.Runs c sec)
    (asks : (∃ q, call = .length q) ∨ ∃ q, call = .isFull q) : sec.op call s ≠ none := by
  rcases asks with ⟨q, rfl⟩ | ⟨q, rfl⟩
  · cases runs with
    | length => simp [Section.op]
    | seek seeks | leaveHeap seeks => cases seeks
    | pause pauses => cases pauses
    | wake waits =>
      cases waits with
      | goal seeks => cases seeks
      | pause pauses => cases pauses
  · cases runs with
    | isFull => simp [Section.op]
    | seek seeks | leaveHeap seeks => cases seeks
    | pause pauses => cases pauses
    | wake waits =>
      cases waits with
      | goal seeks => cases seeks
      | pause pauses => cases pauses

/-- A section that leaves the queues alone is not the only one of its call. -/
theorem accounted_of_rests (runs : call.Runs c sec) (op : sec.op call s = none)
    (free : next.works = false)
    (fails : ∀ r, next = .return r → call.usesQueue = true → ∃ e, r = .failed e)
    (forced : ∀ q e, call = .flush q → next ≠ .return (.failed e)) :
    call.Accounted next [] := by
  have removed : ∀ q n out, next ≠ .removed q n out := by
    intro q n out he
    subst he
    cases free
  by_cases returns : ∃ r, next = .return r
  · obtain ⟨r, rfl⟩ := returns
    refine .returns ?_
    cases uses : call.usesQueue with
    | false => exact .idle uses
    | true =>
      obtain ⟨e, rfl⟩ := fails r rfl uses
      cases call with
      | add => exact .notAdded e
      | remove => exact .notRemoved e
      | flush q => exact absurd rfl (forced q e rfl)
      | length q => exact absurd op (runs.op_ne_none (.inl ⟨q, rfl⟩))
      | isFull q => exact absurd op (runs.op_ne_none (.inr ⟨q, rfl⟩))
      | _ => cases uses
  · exact .unfinished (fun r he => returns ⟨r, he⟩) removed

end Call

namespace Machine

variable {m m' : Machine} {config : Config} {region : Heap.Region}

/-- The buffer that is returned is as long as the one that was given. -/
theorem Run.whole {n : Nat} {out : List UInt8} (run : Run config m h)
    (arena : Arena config region) (here : m.stageOf c = some (.enter (.commitRemove q n out)))
    (calling : h.calling c = some call) : out.length = call.buffer.length := by
  obtain ⟨f, linear⟩ := run.linear arena q
  obtain ⟨g, msg, rest, -, -, delivers⟩ := linear.copied here calling rfl
  have := congrArg List.length delivers.out
  rw [List.length_append, List.length_take, List.length_drop] at this
  change out.length = _ at this
  dsimp only at this
  omega

/-- A section of a call executes the operation that the call accounts for. -/
theorem accounted_of_runs {s : System} (run : Run config m h) (arena : Arena config region)
    (here : m.stageOf c = some (.enter sec)) (calling : h.calling c = some call)
    (runs : call.Runs c sec) (tends : sec.Tends m.system call s next)
    (forced : ∀ q e, call = .flush q → next ≠ .return (.failed e)) :
    call.Accounted next (sec.op call m.system).toList := by
  cases tends with
  | rests op same free sees fails =>
    rw [op]
    exact Call.accounted_of_rests runs op free fails forced
  | counts asks =>
    subst asks
    exact .returns .counted
  | tests asks =>
    subst asks
    exact .returns .tested
  | takesIn op | takesOut op =>
    rw [op]
    exact .unfinished (by simp) (by simp)
  | adds =>
    cases runs
    exact .returns .added
  | removes =>
    have whole := run.whole arena here calling
    cases runs
    exact .removed whole
  | flushes op flushes =>
    rw [op, flushes]
    exact .returns .flushed
  | creates creates =>
    subst creates
    exact .returns .created

theorem Change.accounted (run : Run config m h) (arena : Arena config region)
    (change : Change m h m' h')
    (before : ∀ c stage call, m.stageOf c = some stage → h.calling c = some call →
      call.Accounted stage (h.opsBy c)) (c : Context) (stage : Stage) (call : Call)
    (here' : m'.stageOf c = some stage) (calling' : h'.calling c = some call) :
    call.Accounted stage (h'.opsBy c) := by
  cases change.progress run here' calling' with
  | begins legal new =>
    subst new
    rw [show History.opsBy c (.called c call :: h) = [] from if_pos rfl]
    exact Call.accounted_start ..
  | serves new interrupts =>
    subst new
    rw [show History.opsBy c (.entered .timer :: h) = [] from if_pos interrupts]
    exact .unfinished (by simp) (by simp)
  | codes here calling stays ran goes moves same =>
    rw [same]
    exact (before c _ call here calling).of_goes stays goes
  | @runs sec _ _ s here calling runs ran system new =>
    have none := (before c _ call here calling).nil
    have forced : ∀ q e, call = .flush q → stage ≠ .return (.failed e) := by
      rintro q e rfl rfl
      have timed := change.timed run run.timed c _ _ here' calling'
      exact (timed.answers _ rfl).not_failed rfl rfl e rfl
    have tends := Section.tends_of_run ran runs (run.external calling)
    have op : h.opOf (.ran c m.system sec) = sec.op call m.system := by
      change (h.calling c).bind _ = _
      rw [calling]
      rfl
    rw [new, show History.opsBy c (.ran c m.system sec :: h) =
      (h.opOf (.ran c m.system sec)).toList ++ h.opsBy c from if_pos rfl, none, op, List.append_nil]
    exact accounted_of_runs run arena here calling runs tends forced
  | waits here calling other =>
    rcases other with same | ⟨x, new, other⟩
    · rw [same]
      exact before c stage call here calling
    · rw [new, History.opsBy_other other]
      exact before c stage call here calling

/-- Every call has executed the operations that it accounts for. -/
theorem Run.accounted (run : Run config m h) (arena : Arena config region) :
    ∀ c stage call, m.stageOf c = some stage → h.calling c = some call →
      call.Accounted stage (h.opsBy c) := by
  refine run.induct (fun c stage call _ calling => ?_) fun run ih change =>
    change.accounted run arena ih
  cases calling

/-- The calls on a queue are those of a bounded FIFO that is used by one call at a time. -/
structure Linearized (m : Machine) (h : History) (q : Nat) (f : Option Fifo) : Prop where
  reached : Fifo.Reached (h.ops q) f
  rings : Fifo.Rings m.kernel.memory (m.kernel.ring q) f
  /-- No message is lost but by a flush, none is delivered twice, and none out of order. -/
  delivered : ∃ gone taken, Fifo.Delivered (h.ops q) (Fifo.contentOf f) gone taken
  accounts {c : Context} {call : Call} {r : Reply} {past : History} :
    .returned c r :: past <:+ h → past.calling c = some call → call.Accounts r (past.opsBy c)
  inside {c : Context} {past : History} : past <:+ h →
    (QueueOp.on q (past.opsBy c) ++ (past.before c).ops q).Sublist (past.ops q) ∧
      past.ops q <:+ h.ops q

/-- Queues are linearizable bounded FIFOs in every run. -/
theorem Run.queue_linear (run : Run config m h) (arena : Arena config region) (q : Nat) :
    ∃ f, Linearized m h q f := by
  obtain ⟨f, linear⟩ := run.linear arena q
  refine ⟨f, linear.reached, linear.rings, linear.reached.delivered, ?_, fun earlier => ?_⟩
  · intro c call r past returned calling
    obtain ⟨m₀, run₀, here⟩ := run.of_returned returned
    have accounted := run₀.accounted arena c _ call here calling
    generalize past.opsBy c = ops at accounted
    cases accounted with
    | unfinished returns => exact absurd rfl (returns r)
    | returns accounts => exact accounts
  · exact ⟨History.ops_of_call .., History.ops_suffix earlier q⟩

/-- A queue with one slot. The more urgent task waits for room with its second message until the
other one has taken the first, whose call is still on its way out when the second is in. -/
def waiting : Option (Machine × History) :=
  follow (initial { maxTasks := 2, arenaStart := 4096, arenaSize := 512, timeSlice := 0 }, [])
    [.call (.createTask "producer" 256 5 0 0), .steps 4,
      .call (.createTask "consumer" 256 9 0 0), .steps 4, .call (.createQueue 0 1 4), .steps 15,
      .launch, .steps 1, .call (.add 0 {} 0 [1, 2, 3]), .steps 9, .call (.add 0 {} 0 [4]),
      .steps 6, .call (.remove 0 {} 0 [8, 9]), .steps 17]

theorem queue_linear_waiting : ∃ m h config f, Run config m h ∧
    h.ops 0 = [.add [4], .remove { buffer := [8, 9], length := 3, out := [1, 2] },
      .add [1, 2, 3], .create 1 4] ∧
    Linearized m h 0 f := by
  obtain ⟨x, hx⟩ := Option.isSome_iff_exists.mp (show waiting.isSome = true by decide +kernel)
  have facts : waiting.map (fun x => x.2.ops 0) =
      some [.add [4], .remove { buffer := [8, 9], length := 3, out := [1, 2] },
        .add [1, 2, 3], .create 1 4] := by decide +kernel
  rw [hx] at facts
  have run := run_of_follow hx
  have arena : Arena { maxTasks := 2, arenaStart := 4096, arenaSize := 512, timeSlice := 0 }
      ⟨4096, 512, by decide, by decide⟩ := ⟨rfl, rfl⟩
  obtain ⟨f, linearized⟩ := run.queue_linear arena 0
  exact ⟨_, _, _, f, run, Option.some.inj facts, linearized⟩

end Machine

end TaskKernel
