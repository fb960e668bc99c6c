import TaskKernel.Proofs.Queue.Guard
import TaskKernel.Proofs.Run.Storage

namespace TaskKernel

inductive Holder
  | application
  | call (c : Context)
  | queue (q : Nat)

def Stage.beforeHeap : Stage → Bool
  | .enter (.seek ..) => true
  | .enter (.wake ..) => true
  | .yield .. => true
  | .reenter .. => true
  | .useHeap _ => true
  | _ => false

/-- The call holds an allocation of at least `n` bytes at `a`. -/
inductive Call.Carries : Call → Stage → Nat → Nat → Prop where
  | back {stage : Stage} {a : Nat} (before : stage.beforeHeap = true) :
      Carries (.free a) stage a 0
  | leaves {call : Call} {task : HeapTask} {a : Nat} :
      Carries call (.enter (.leaveHeap task (.allocated a))) a task.size
  | left {call : Call} {task : HeapTask} {a : Nat} :
      Carries call (.leftHeap task (.allocated a)) a task.size
  | installs {call : Call} {q slots payload a : Nat} :
      Carries call (.enter (.installRing q slots payload a)) a
        (slots * (Ring.lengthSize + payload))
  | returns {n a : Nat} : Carries (.alloc n) (.return (.number a)) a n

/-- The holder counts on at least `n` bytes at `a`. -/
inductive Machine.Claims (m : Machine) (h : History) : Holder → Nat → Nat → Prop where
  | application {a n : Nat} (owned : (a, n) ∈ h.owned) : Claims m h .application a n
  | call {c : Context} {stage : Stage} {call : Call} {a n : Nat}
      (here : m.stageOf c = some stage) (calling : h.calling c = some call)
      (carries : call.Carries stage a n) : Claims m h (.call c) a n
  | queue {q : Nat} {r : Ring} (ring : m.kernel.ring q = some r) :
      Claims m h (.queue q) r.base r.capacity

variable {s s' : System} {sec : Section} {stage next : Stage} {call : Call} {c : Context}
  {move : Move} {a n : Nat}

namespace Call

theorem seeks_of_useHeap {task : HeapTask} (stays : call.At c (.useHeap task)) :
    call.Seeks (.heap task) := by
  cases stays
  assumption

theorem not_carries_start {config : Config} (h : call.Carries (call.start config) a n) :
    call = .free a ∧ n = 0 := by
  cases call with
  | free => cases h; exact ⟨rfl, rfl⟩
  | createTask | sleep | createQueue | createMultiWait =>
    simp only [start] at h
    split at h
    · cases h
    · first
        | cases h
        | (split at h <;> cases h)
  | _ => cases h

/-- Open code that does not use the heap takes no allocation. -/
theorem Carries.of_goes (h : call.Carries next a n) (stays : call.At c stage)
    (ran : stage.run s = (s', move)) (goes : stage.Goes next) (moves : move.next stage = some next)
    (idle : ∀ task, stage ≠ .useHeap task) : call.Carries stage a n := by
  cases goes with
  | enter => exact h
  | reenter | yield =>
    cases h
    exact .back rfl
  | useHeap => exact absurd rfl (idle _)
  | leftRing =>
    cases h with
    | back before => cases before
    | installs => exact .left
  | @leftHeap task result r succeeds =>
    cases h with
    | back before => cases before
    | returns =>
      cases stays with
      | leftHeap seeks =>
        cases seeks
        simp only [Stage.run, System.leftHeap] at ran
        split at ran <;> cases ran <;> cases moves
        rename_i he
        cases he
        exact .left
  | cpu succeeds lock =>
    cases h with
    | back before => cases before
    | returns => rcases lock with rfl | rfl | rfl | rfl <;> cases stays
  | _ =>
    cases h with
    | back before => cases before

theorem beforeHeap_of_runs (runs : (Call.free a).Runs c sec) (waits : sec.isPlain = false) :
    (Stage.enter sec).beforeHeap = true := by
  cases runs with
  | pause pauses => cases pauses
  | seek | wake => rfl
  | leaveHeap => cases waits

/-- The call has not come past the heap operation, or it is not about giving back. -/
theorem Carries.of_waiting (h : call.Carries next a n) (runs : call.Runs c sec)
    (waits : sec.isPlain = false) (rests : ∀ r, next = .return r → call ≠ .alloc n)
    (plain : ∀ sec, next ≠ .enter sec) (before : ∀ task r, next ≠ .leftHeap task r) :
    call.Carries (.enter sec) a n := by
  cases h with
  | back => exact .back (beforeHeap_of_runs runs waits)
  | leaves | installs => exact absurd rfl (plain _)
  | left => exact absurd rfl (before _ _)
  | returns => exact absurd rfl (rests _ rfl)

theorem Carries.of_plain (h : call.Carries next a n) (runs : call.Runs c sec)
    (simple : sec.isPlain = true) (ran : sec.run s = (s', .leave next)) :
    call.Carries (.enter sec) a n := by
  cases runs with
  | leaveHeap =>
    cases ran
    cases h with
    | back before => cases before
    | left => exact .leaves
  | createTask =>
    rcases Section.createTask_cases ran with ⟨-, rfl⟩ | ⟨-, rfl, -⟩ <;> cases h
  | checkNoRing | addSubWait | installRing =>
    simp only [Section.run] at ran
    split at ran <;> cases ran <;> cases h
  | pause | exit | seek | wake | startAdd | startFlush | startMulti => cases simple
  | _ =>
    cases ran
    cases h

/-- A section takes no allocation. -/
theorem Carries.of_run (h : call.Carries next a n) (ran : sec.run s = (s', .leave next))
    (runs : call.Runs c sec) : call.Carries (.enter sec) a n := by
  cases Section.left_of_run ran with
  | plain simple ran => exact h.of_plain runs simple ran
  | sought seeks sought =>
    have waits := seeks.waits
    cases sought with
    | reached now =>
      cases now with
      | lock | event | multi | flush =>
        cases h with
        | back before => cases before
      | add | remove | heap => exact h.of_waiting runs waits (by simp) (by simp) (by simp)
    | refused | late =>
      cases h with
      | back before => cases before
    | blocks => exact h.of_waiting runs waits (by simp) (by simp) (by simp)
  | failed waits => exact h.of_waiting runs waits (by simp) (by simp) (by simp)
  | pauses | lateExit | exits | asleep | exited =>
    exact h.of_waiting runs rfl (by simp) (by simp) (by simp)
  | late =>
    refine h.of_waiting runs rfl (fun _ _ => ?_) (by simp) (by simp)
    intro he
    subst he
    cases (pauses_of_runs runs).1
  | woken =>
    refine h.of_waiting runs rfl (fun _ _ => ?_) (by simp) (by simp)
    intro he
    subst he
    cases runs with
    | wake waits =>
      cases waits with
      | pause pauses => cases pauses

end Call

/-- The rings of queues stay where they are. -/
theorem Section.Tends.ring {q : Nat} {r' : Ring} (tends : sec.Tends s call s' next)
    (ring' : s'.kernel.ring q = some r') :
    (∃ r, s.kernel.ring q = some r ∧ r.base = r'.base ∧ r.capacity = r'.capacity) ∨
      ∃ slots payload base, sec = .installRing q slots payload base ∧
        r' = .ofSlots base slots payload := by
  rcases tends.geometry q with ⟨same, -⟩ | ⟨slots, payload, base, installs, -, ring⟩
  · rw [ring'] at same
    obtain ⟨r, before, geometry⟩ := Option.map_eq_some_iff.mp same.symm
    exact .inl ⟨r, before, congrArg Prod.fst geometry, congrArg (·.2.2) geometry⟩
  · exact .inr ⟨slots, payload, base, installs, Option.some.inj (ring'.symm.trans ring)⟩

namespace Machine

variable {m m' : Machine} {h h' : History} {config : Config} {o o₁ : Holder}

inductive Gains (m : Machine) (h : History) (m' : Machine) (h' : History) :
    Holder → Nat → Nat → Prop where
  | gives {c : Context} {a : Nat} (new : h' = .called c (.free a) :: h)
      (owned : a ∈ h.owned.map Prod.fst) : Gains m h m' h' (.call c) a 0
  | gets {c : Context} {a n : Nat} (new : h' = .returned c (.number a) :: h)
      (calling : h.calling c = some (.alloc n)) (here : m.stageOf c = some (.return (.number a)))
      (after : m'.stageOf c = none) : Gains m h m' h' .application a n
  | installs {c : Context} {call : Call} {q slots payload a : Nat}
      (new : h' = .ran c m.system (.installRing q slots payload a) :: h)
      (calling : h.calling c = some call)
      (here : m.stageOf c = some (.enter (.installRing q slots payload a)))
      (after : m'.stageOf c = some (.return .unit)) :
      Gains m h m' h' (.queue q) a (slots * (Ring.lengthSize + payload))

/-- While nobody uses the heap, a claim was there before or is taken over. -/
theorem Change.claims (run : Run config m h) (change : Change m h m' h')
    (idle : ∀ c task, m.stageOf c = some (.useHeap task) → m'.stageOf c = m.stageOf c)
    (claims : m'.Claims h' o a n) : m.Claims h o a n ∨ m.Gains h m' h' o a n := by
  cases claims with
  | @call c stage' call _ _ here' calling carries =>
    cases change.progress run here' calling with
    | begins legal new =>
      obtain ⟨rfl, rfl⟩ := Call.not_carries_start carries
      exact .inr (.gives new legal.reaches)
    | serves =>
      cases carries
    | codes here calling stays ran goes moves =>
      refine .inl (.call here calling (carries.of_goes stays ran goes moves ?_))
      intro task he
      subst he
      cases goes with
      | useHeap => cases here'.symm.trans ((idle c task here).trans here)
      | cpu succeeds lock => simp at lock
    | runs here calling runs ran => exact .inl (.call here calling (carries.of_run ran runs))
    | waits here calling => exact .inl (.call here calling carries)
  | application owned =>
    cases change with
    | @called _ call =>
      refine .inl (.application ?_)
      cases call with
      | free => exact List.mem_of_mem_filter owned
      | _ => exact owned
    | @returned _ r here kernel cpu stages =>
      cases r with
      | number b =>
        unfold History.owned at owned
        split at owned
        · rename_i calling
          rcases List.mem_cons.mp owned with he | old
          · cases he
            exact .inr (.gets rfl calling here ((stages _).trans (if_pos rfl)))
          · exact .inl (.application old)
        · exact .inl (.application owned)
      | _ => exact .inl (.application owned)
    | _ => exact .inl (.application owned)
  | queue ring =>
    rcases change.queues run with ⟨same, -⟩ | ⟨c, sec, call, s, next, executes⟩
    · exact .inl (.queue ((Kernel.ring_of_queues same _).symm.trans ring))
    · have after := executes.after
      have tends := executes.tends run
      rw [executes.kernel] at ring
      rcases tends.ring ring with ⟨r, old, base, capacity⟩ | ⟨slots, payload, b, rfl, rfl⟩
      · rw [← base, ← capacity]
        exact .inl (.queue old)
      · cases tends with
        | rests op => cases op
        | creates =>
          exact .inr (.installs executes.new executes.calling executes.here after)
        | takesIn op => cases op
        | takesOut op => cases op
        | flushes op => cases op

/-- At most one allocation is taken over at a time. -/
theorem Gains.unique {b k : Nat} (gain : Gains m h m' h' o a n) (gain' : Gains m h m' h' o₁ b k) :
    o₁ = o ∧ b = a ∧ k = n := by
  cases gain with
  | gives new =>
    cases gain' with
    | gives new' => cases new.symm.trans new'; exact ⟨rfl, rfl, rfl⟩
    | gets new' | installs new' => cases new.symm.trans new'
  | gets new calling =>
    cases gain' with
    | gets new' calling' =>
      cases new.symm.trans new'
      cases calling.symm.trans calling'
      exact ⟨rfl, rfl, rfl⟩
    | gives new' | installs new' => cases new.symm.trans new'
  | installs new =>
    cases gain' with
    | installs new' => cases new.symm.trans new'; exact ⟨rfl, rfl, rfl⟩
    | gives new' | gets new' => cases new.symm.trans new'

theorem Gains.news (gain : Gains m h m' h' o a n) : h' ≠ h := by
  cases gain with
  | gives new | gets new | installs new => exact new ▸ List.cons_ne_self _ _

/-- What is taken over was held by somebody who no longer counts on it. -/
theorem Gains.taken (gain : Gains m h m' h' o a n) :
    ∃ o₀ k, m.Claims h o₀ a k ∧ n ≤ k ∧ ∀ n, ¬ m'.Claims h' o₀ a n := by
  cases gain with
  | gives new owned =>
    obtain ⟨⟨b, k⟩, member, rfl⟩ := List.mem_map.mp owned
    refine ⟨.application, k, .application member, Nat.zero_le _, fun n claims => ?_⟩
    subst new
    cases claims with
    | application still => simp [History.owned] at still
  | @gets c a n new calling here after =>
    refine ⟨.call c, n, .call here calling .returns, Nat.le_refl _, fun n claims => ?_⟩
    cases claims with
    | call here' => cases after.symm.trans here'
  | @installs c call q slots payload a new calling here after =>
    refine ⟨.call c, _, .call here calling .installs, Nat.le_refl _, fun n claims => ?_⟩
    cases claims with
    | call here' calling' carries =>
      cases after.symm.trans here'
      cases carries with
      | back before => cases before

end Machine

end TaskKernel
