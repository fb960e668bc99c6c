import TaskKernel.Proofs.Queue.Effects
import TaskKernel.Proofs.Queue.Slots
import TaskKernel.Proofs.Run.Executions

namespace TaskKernel

def Call.Checked : Call → Prop
  | .createQueue _ slots payload => 0 < slots ∧ payload ≤ 65535
  | _ => True

variable {k k' : Kernel} {s s' : System} {sec : Section} {stage next : Stage} {call : Call}
  {c : Context} {q : Nat} {r : Option Ring}

def Ring.Becomes (r r' : Option Ring) : Prop :=
  ∀ x, r = some x → ∃ y, r' = some y ∧ y.slotSize = x.slotSize

theorem Ring.becomes_map {f : Ring → Ring} (r : Option Ring)
    (same : ∀ x, (f x).slotSize = x.slotSize) : Ring.Becomes r (r.map f) := by
  intro x he
  subst he
  exact ⟨f x, rfl, same x⟩

def Ring.geometry (r : Ring) : Nat × Nat × Nat := (r.base, r.slotSize, r.capacity)

namespace Kernel.Alters

theorem ring_other (h : k.Alters k' q r) {i : Nat} (ne : q ≠ i) : k'.ring i = k.ring i := by
  unfold Kernel.ring
  rw [h.rest i ne]

theorem ring_of_eq (h : k.Alters k' q r) (same : k.ring q = r) (i : Nat) :
    k'.ring i = k.ring i := by
  by_cases here : q = i
  · subst here
    exact h.ring.trans same.symm
  · exact h.ring_other here

theorem mutex_other (h : k.Alters k' q r) {i : Nat} (ne : q ≠ i) :
    k'.mutex (.queue i) = k.mutex (.queue i) := by
  unfold Kernel.mutex
  dsimp only
  rw [h.rest i ne]

theorem becomes (h : k.Alters k' q r) (becomes : Ring.Becomes (k.ring q) r) (i : Nat) :
    Ring.Becomes (k.ring i) (k'.ring i) := by
  by_cases same : q = i
  · subst same
    rw [h.ring]
    exact becomes
  · rw [h.ring_other same]
    exact fun x hx => ⟨x, hx, rfl⟩

end Kernel.Alters

theorem Goal.Sees.carry {g : Goal} (h : g.Sees k)
    (becomes : ∀ i, Ring.Becomes (k.ring i) (k'.ring i)) : g.Sees k' := by
  cases g with
  | add q payload =>
    obtain ⟨r, hr, fits⟩ := h
    obtain ⟨y, hy, same⟩ := becomes q r hr
    exact ⟨y, hy, same ▸ fits⟩
  | flush q =>
    obtain ⟨r, hr⟩ := h
    obtain ⟨y, hy, -⟩ := becomes q r hr
    exact ⟨y, hy⟩
  | _ => trivial

namespace Stage

/-- A ring that a context does not hold can change. -/
theorem Sees.carry (h : stage.Sees k) (becomes : ∀ i, Ring.Becomes (k.ring i) (k'.ring i))
    (held : ∀ i, stage.holds i = true → k'.ring i = k.ring i) : stage.Sees k' := by
  cases stage with
  | copyIn q | copyOut q => exact ⟨(held q (decide_eq_true rfl)).trans h.1, h.2⟩
  | enter sec =>
    cases sec with
    | commitAdd q | commitRemove q =>
      exact h.imp fun r hr => ⟨(held q (decide_eq_true rfl)).trans hr.1, hr.2⟩
    | seek => exact Goal.Sees.carry h becomes
    | wake t w =>
      cases w with
      | goal => exact Goal.Sees.carry h becomes
      | pause => trivial
    | _ => trivial
  | yield t w | reenter t w =>
    cases w with
    | goal => exact Goal.Sees.carry h becomes
    | pause => trivial
  | _ => trivial

theorem Sees.of_queues (h : stage.Sees k) (same : k'.queues = k.queues) : stage.Sees k' := by
  have ring := Kernel.ring_of_queues same
  refine h.carry (fun i x hx => ⟨x, ?_, rfl⟩) fun i _ => ring i
  rw [ring i, hx]

theorem Goes.holds (goes : stage.Goes next) (q : Nat) : next.holds q = stage.holds q := by
  cases goes with
  | cpu succeeds lock => rcases lock with rfl | rfl | rfl | rfl <;> rfl
  | _ => rfl

theorem Goes.sees (goes : stage.Goes next) (h : stage.Sees k) : next.Sees k := by
  cases goes with
  | copyIn => exact ⟨_, h.1, h.2.1⟩
  | copyOut => exact ⟨_, h⟩
  | enter => exact h
  | @reenter t w | @yield t w =>
    cases w with
    | goal => exact h
    | pause => trivial
  | _ => trivial

/-- A call holds no queue and has found out nothing when it starts. -/
theorem sees_start (config : Config) (call : Call) (k : Kernel) :
    (call.start config).Sees k ∧ ∀ q, (call.start config).holds q = false := by
  cases call with
  | createTask | sleep | createQueue | createMultiWait =>
    simp only [Call.start]
    repeat' split
    all_goals exact ⟨trivial, fun _ => rfl⟩
  | _ => exact ⟨trivial, fun _ => rfl⟩

end Stage

namespace Section

/-- Who takes a queue's lock has found it free. -/
theorem Tends.clear (tends : sec.Tends s call s' next) (holds : next.holds q = true) :
    (s.kernel.mutex (.queue q)).isClear internalLock = true := by
  cases tends with
  | rests op same free =>
    rw [Stage.holds_of_works free q] at holds
    cases holds
  | takesIn op adds clear | takesOut op removes clear =>
    cases of_decide_eq_true holds
    exact clear
  | _ => cases holds

theorem Tends.taken (tends : sec.Tends s call s' next) (holds : next.holds q = true) :
    (s'.kernel.mutex (.queue q)).isClear internalLock = false := by
  cases tends with
  | rests op same free =>
    rw [Stage.holds_of_works free q] at holds
    cases holds
  | takesIn op adds clear ring room fits alters taken
  | takesOut op removes clear ring message alters taken =>
    cases of_decide_eq_true holds
    exact taken
  | _ => cases holds

theorem Tends.sees (tends : sec.Tends s call s' next) (sees : (Stage.enter sec).Sees s.kernel) :
    next.Sees s'.kernel := by
  cases tends with
  | rests op same free onward => exact (onward sees).of_queues same
  | takesIn op adds clear ring room fits alters => exact ⟨alters.ring, room, fits sees⟩
  | takesOut op removes clear ring message alters => exact ⟨alters.ring, message⟩
  | _ => trivial

/-- A ring stays where it is, and as large as it is, unless the section installs it. -/
theorem Tends.geometry (tends : sec.Tends s call s' next) (q : Nat) :
    ((s'.kernel.ring q).map Ring.geometry = (s.kernel.ring q).map Ring.geometry ∧
      ∀ slots payload base, sec ≠ .installRing q slots payload base) ∨
    ∃ slots payload base, sec = .installRing q slots payload base ∧ s.kernel.ring q = none ∧
      s'.kernel.ring q = some (.ofSlots base slots payload) := by
  have onward : ∀ {i : Nat} {x : Option Ring}, s.kernel.Alters s'.kernel i x →
      x.map Ring.geometry = (s.kernel.ring i).map Ring.geometry →
      (s'.kernel.ring q).map Ring.geometry = (s.kernel.ring q).map Ring.geometry := by
    intro i x alters same
    by_cases here : i = q
    · subst here
      rw [alters.ring, same]
    · rw [alters.ring_other here]
  have mapped : ∀ (f : Ring → Ring) (x : Option Ring), (∀ r, (f r).geometry = r.geometry) →
      (x.map f).map Ring.geometry = x.map Ring.geometry := by
    intro f x same
    cases x with
    | none => rfl
    | some r => exact congrArg some (same r)
  cases tends with
  | rests op same =>
    refine .inl ⟨by rw [Kernel.ring_of_queues same], ?_⟩
    rintro slots payload base rfl
    cases op
  | counts | tests => exact .inl ⟨rfl, by simp⟩
  | takesIn op adds clear ring room fits alters | takesOut op removes clear ring message alters =>
    refine .inl ⟨onward alters (by rw [ring]), ?_⟩
    rintro slots payload base rfl
    cases op
  | adds adds alters => exact .inl ⟨onward alters (mapped _ _ fun _ => rfl), by simp⟩
  | removes removes alters => exact .inl ⟨onward alters (mapped _ _ fun _ => rfl), by simp⟩
  | flushes op flushes clear created alters =>
    refine .inl ⟨onward alters (mapped _ _ fun _ => rfl), ?_⟩
    rintro slots payload base rfl
    cases op
  | @creates _ i slots payload base creates none alters =>
    by_cases here : i = q
    · subst here
      exact .inr ⟨slots, payload, base, rfl, none, alters.ring⟩
    · refine .inl ⟨congrArg _ (alters.ring_other here), ?_⟩
      intro _ _ _ he
      cases he
      exact here rfl

def Alone (k : Kernel) (sec : Section) (q : Nat) : Prop :=
  (k.mutex (.queue q)).isClear internalLock = true ∨ (Stage.enter sec).holds q = true ∨
    k.ring q = none

/-- Who else may see the queue that a section changes, and what they see. -/
structure Apart (k k' : Kernel) (sec : Section) (q : Nat) (r : Option Ring) : Prop where
  alters : k.Alters k' q r
  becomes : Ring.Becomes (k.ring q) r
  alone : sec.Alone k q

/-- A section that changes a queue has the queue for itself. -/
theorem Tends.apart (tends : sec.Tends s call s' next) :
    s'.kernel.queues = s.kernel.queues ∨ ∃ q r, Apart s.kernel s'.kernel sec q r := by
  cases tends with
  | rests op same => exact .inl same
  | counts | tests => exact .inl rfl
  | takesIn op adds clear ring room fits alters =>
    exact .inr ⟨_, _, alters, fun x hx => ⟨x, hx.symm.trans ring ▸ rfl, rfl⟩, .inl clear⟩
  | takesOut op removes clear ring message alters =>
    exact .inr ⟨_, _, alters, fun x hx => ⟨x, hx.symm.trans ring ▸ rfl, rfl⟩, .inl clear⟩
  | adds adds alters =>
    exact .inr ⟨_, _, alters, Ring.becomes_map _ fun _ => rfl, .inr (.inl (decide_eq_true rfl))⟩
  | removes removes alters =>
    exact .inr ⟨_, _, alters, Ring.becomes_map _ fun _ => rfl, .inr (.inl (decide_eq_true rfl))⟩
  | flushes op flushes clear created alters =>
    exact .inr ⟨_, _, alters, Ring.becomes_map _ fun _ => rfl, .inl clear⟩
  | creates creates none alters =>
    exact .inr ⟨_, _, alters, fun x hx => (by rw [none] at hx; cases hx), .inr (.inr none)⟩

/-- Every ring consists of slots. -/
theorem Tends.shaped (tends : sec.Tends s call s' next) (sees : (Stage.enter sec).Sees s.kernel)
    (checked : call.Checked)
    (shaped : ∀ q r, s.kernel.ring q = some r → ∃ slots n p, r.Shape slots n p) (i : Nat) (x : Ring)
    (hx : s'.kernel.ring i = some x) : ∃ slots n p, x.Shape slots n p := by
  have onward : ∀ {q : Nat} {r : Option Ring}, s.kernel.Alters s'.kernel q r →
      (∀ x, r = some x → ∃ slots n p, x.Shape slots n p) → ∃ slots n p, x.Shape slots n p := by
    intro q r alters new
    by_cases same : q = i
    · subst same
      exact new x (alters.ring.symm.trans hx)
    · exact shaped i x ((alters.ring_other same).symm.trans hx)
  cases tends with
  | rests op same => exact shaped i x ((Kernel.ring_of_queues same i).symm.trans hx)
  | counts | tests => exact shaped i x hx
  | takesIn op adds clear ring room fits alters | takesOut op removes clear ring message alters =>
    exact onward alters fun y hy => shaped _ y (ring.trans hy)
  | adds adds alters =>
    obtain ⟨r, ring, room⟩ := sees
    refine onward alters fun y hy => ?_
    rw [ring] at hy
    cases hy
    obtain ⟨slots, n, p, shape⟩ := shaped _ r ring
    rw [shape.hasRoom_eq, decide_eq_true_eq] at room
    exact ⟨_, _, _, shape.commitWrite room⟩
  | removes removes alters =>
    obtain ⟨r, ring, message⟩ := sees
    refine onward alters fun y hy => ?_
    rw [ring] at hy
    cases hy
    obtain ⟨slots, n, p, shape⟩ := shaped _ r ring
    rw [shape.hasMessage_eq, decide_eq_true_eq] at message
    cases n with
    | zero => cases message
    | succ n => exact ⟨_, _, _, shape.commitRead⟩
  | flushes op flushes clear created alters =>
    refine onward alters fun y hy => ?_
    obtain ⟨r, ring, rfl⟩ := Option.map_eq_some_iff.mp hy
    obtain ⟨slots, n, p, shape⟩ := shaped _ r ring
    exact ⟨_, _, _, shape.clear⟩
  | creates creates none alters =>
    refine onward alters fun y hy => ?_
    cases hy
    subst creates
    exact ⟨_, _, _, .ofSlots _ _ checked.1⟩

end Section

def Stage.IsAloof (stage : Stage) : Prop := (∀ q, stage.holds q = false) ∧ ∀ k, stage.Sees k

theorem Stage.Sees.ring (h : stage.Sees k) (holds : stage.holds q = true) :
    ∃ r, k.ring q = some r := by
  cases stage with
  | copyIn | copyOut =>
    cases of_decide_eq_true holds
    exact ⟨_, h.1⟩
  | enter sec =>
    cases sec with
    | commitAdd | commitRemove =>
      cases of_decide_eq_true holds
      exact h.imp fun _ => And.left
    | _ => cases holds
  | _ => cases holds

namespace Machine

variable {m m' : Machine} {h h' : History} {config : Config}

theorem Run.external (run : Run config m h) (calling : h.calling c = some call) :
    call.External := by
  refine run.called (fun h call legal => ?_) trivial calling
  cases call with
  | lock | unlock => exact legal.reaches
  | _ => trivial

/-- What the section that a context executes does to the queues. -/
theorem Executes.tends {s : System} (executes : Executes m h m' h' c sec call s next)
    (run : Run config m h) : sec.Tends m.system call s next :=
  Section.tends_of_run executes.ran executes.runs (run.external executes.calling)

/-- The queues change in sections only. -/
theorem Change.queues (run : Run config m h) (change : Change m h m' h') :
    (m'.kernel.queues = m.kernel.queues ∧ ∀ c before sec, h' ≠ .ran c before sec :: h) ∨
      ∃ c sec call s next, Executes m h m' h' c sec call s next := by
  rcases change.executes run with ⟨objects, idle⟩ | executes
  · exact .inl ⟨Kernel.queues_of_objects objects, idle⟩
  · exact .inr executes

/-- A call in progress was checked, or is about to halt the system. -/
theorem Run.checked (run : Run config m h) (here : m.stageOf c = some stage)
    (calling : h.calling c = some call) : call.Checked ∨ ∃ cause, stage = .fail cause := by
  refine Run.induct (P := fun m h => ∀ c stage call, m.stageOf c = some stage →
    h.calling c = some call → call.Checked ∨ ∃ cause, stage = .fail cause) ?_ ?_
    run c stage call here calling
  · intro c stage call _ calling
    cases calling
  intro m m' h h' run ih change c stage call here' calling
  cases change.progress run here' calling with
  | begins =>
    cases call with
    | createQueue q slots payload =>
      simp only [Call.start]
      split
      · exact .inr ⟨_, rfl⟩
      · split
        · exact .inr ⟨_, rfl⟩
        · exact .inl ⟨by omega, by omega⟩
    | _ => exact .inl trivial
  | serves => exact .inl trivial
  | codes here calling stays ran goes =>
    refine (ih c _ call here calling).imp_right ?_
    intro found
    obtain ⟨cause, rfl⟩ := found
    cases goes with
    | cpu succeeds lock => simp at lock
  | runs here calling =>
    refine (ih c _ call here calling).imp_right ?_
    intro found
    obtain ⟨cause, he⟩ := found
    cases he
  | waits here calling => exact ih c stage call here calling

theorem Executes.checked {s : System} (executes : Executes m h m' h' c sec call s next)
    (run : Run config m h) : call.Checked := by
  rcases run.checked executes.here executes.calling with checked | ⟨cause, he⟩
  · exact checked
  · cases he

/-- At most one context holds a queue, the lock says so, and what the contexts have found out
about their queues is true. -/
structure Guarded (m : Machine) : Prop where
  one {q : Nat} {c c' : Context} {stage stage' : Stage} : m.stageOf c = some stage →
    m.stageOf c' = some stage' → stage.holds q = true → stage'.holds q = true → c = c'
  taken {q : Nat} {c : Context} {stage : Stage} : m.stageOf c = some stage →
    stage.holds q = true → (m.kernel.mutex (.queue q)).isClear internalLock = false
  sees {c : Context} {stage : Stage} : m.stageOf c = some stage → stage.Sees m.kernel
  shaped {q : Nat} {r : Ring} : m.kernel.ring q = some r → ∃ slots n p, r.Shape slots n p

/-- The queues are the same, and no context has taken one. -/
theorem Guarded.of_queues (guarded : m.Guarded) (queues : m'.kernel.queues = m.kernel.queues)
    (stages : ∀ c stage', m'.stageOf c = some stage' → stage'.IsAloof ∨
      ∃ stage, m.stageOf c = some stage ∧ (∀ q, stage'.holds q = stage.holds q) ∧
        ∀ k, stage.Sees k → stage'.Sees k) : m'.Guarded := by
  have before : ∀ {c stage' q}, m'.stageOf c = some stage' → stage'.holds q = true →
      ∃ stage, m.stageOf c = some stage ∧ stage.holds q = true := by
    intro c stage' q here holds
    rcases stages c stage' here with aloof | ⟨stage, here, same, -⟩
    · rw [aloof.1 q] at holds
      cases holds
    · exact ⟨stage, here, same q ▸ holds⟩
  constructor
  · intro q c c' stage stage' here here' holds holds'
    obtain ⟨_, here, holds⟩ := before here holds
    obtain ⟨_, here', holds'⟩ := before here' holds'
    exact guarded.one here here' holds holds'
  · intro q c stage here holds
    obtain ⟨_, here, holds⟩ := before here holds
    rw [Kernel.mutex_of_queues queues]
    exact guarded.taken here holds
  · intro c stage here
    rcases stages c stage here with aloof | ⟨_, here, -, sees⟩
    · exact aloof.2 _
    · exact (sees _ (guarded.sees here)).of_queues queues
  · intro q r ring
    exact guarded.shaped ((Kernel.ring_of_queues queues q).symm.trans ring)

/-- No other context holds the queue that a section changes. -/
theorem Guarded.alone (guarded : m.Guarded) (here : m.stageOf c = some (.enter sec))
    (alone : sec.Alone m.kernel q) {c' : Context} (here' : m.stageOf c' = some stage)
    (other : c' ≠ c) : stage.holds q = false := by
  rw [← Bool.not_eq_true]
  intro holds
  rcases alone with clear | mine | none
  · rw [guarded.taken here' holds] at clear
    cases clear
  · exact other (guarded.one here' here holds mine)
  · obtain ⟨r, ring⟩ := (guarded.sees here').ring holds
    cases ring.symm.trans none

/-- A section keeps the queues guarded. -/
theorem Guarded.executes {s : System} (guarded : m.Guarded)
    (executes : Executes m h m' h' c sec call s next) (run : Run config m h) : m'.Guarded := by
  have here := executes.here
  have checked := executes.checked run
  have tends := executes.tends run
  have kernel := executes.kernel
  have mine := executes.after
  have others : ∀ {c' stage}, c' ≠ c → m'.stageOf c' = some stage → m.stageOf c' = some stage :=
    fun other here' => (executes.others _ other).symm.trans here'
  have first : ∀ {q c' stage}, c' ≠ c → m'.stageOf c' = some stage → stage.holds q = true →
      next.holds q = true → False := by
    intro q c' stage other here' holds holds'
    have taken := guarded.taken (others other here') holds
    cases taken.symm.trans (tends.clear holds')
  constructor
  · intro q c₁ c₂ stage₁ stage₂ here₁ here₂ holds₁ holds₂
    by_cases h₁ : c₁ = c
    · subst h₁
      cases mine.symm.trans here₁
      by_cases h₂ : c₂ = c₁
      · exact h₂.symm
      · exact (first h₂ here₂ holds₂ holds₁).elim
    · by_cases h₂ : c₂ = c
      · subst h₂
        cases mine.symm.trans here₂
        exact (first h₁ here₁ holds₁ holds₂).elim
      · exact guarded.one (others h₁ here₁) (others h₂ here₂) holds₁ holds₂
  · intro q c' stage here' holds
    rw [kernel]
    by_cases hc : c' = c
    · subst hc
      cases mine.symm.trans here'
      exact tends.taken holds
    · have before := others hc here'
      rcases tends.apart with same | ⟨q', r', apart⟩
      · rw [Kernel.mutex_of_queues same]
        exact guarded.taken before holds
      · have ne : q' ≠ q := by
          intro he
          subst he
          rw [guarded.alone here apart.alone before hc] at holds
          cases holds
        rw [apart.alters.mutex_other ne]
        exact guarded.taken before holds
  · intro c' stage here'
    rw [kernel]
    by_cases hc : c' = c
    · subst hc
      cases mine.symm.trans here'
      exact tends.sees (guarded.sees here)
    · have before := others hc here'
      rcases tends.apart with same | ⟨q', r', apart⟩
      · exact (guarded.sees before).of_queues same
      · refine (guarded.sees before).carry (apart.alters.becomes apart.becomes) fun i holds => ?_
        refine apart.alters.ring_other ?_
        intro he
        subst he
        rw [guarded.alone here apart.alone before hc] at holds
        cases holds
  · intro q r ring
    rw [kernel] at ring
    exact tends.shaped (guarded.sees here) checked (fun _ _ => guarded.shaped) q r ring

theorem Change.guarded (run : Run config m h) (guarded : m.Guarded) (change : Change m h m' h') :
    m'.Guarded := by
  rcases change.queues run with ⟨queues, idle⟩ | ⟨c, sec, call, s, next, executes⟩
  · refine guarded.of_queues queues fun c stage' here' => ?_
    have conforms := change.conforms run.orderly run.conforms c
    rw [here'] at conforms
    rcases conforms.stage with ⟨-, rfl, -⟩ | ⟨call, calling, -⟩
    · exact .inl ⟨fun _ => rfl, fun _ => trivial⟩
    cases change.progress run here' calling with
    | begins =>
      have start := Stage.sees_start m.kernel.config call
      exact .inl ⟨(start m.kernel).2, fun k => (start k).1⟩
    | serves => exact .inl ⟨fun _ => rfl, fun _ => trivial⟩
    | codes here calling stays ran goes => exact .inr ⟨_, here, goes.holds, fun _ => goes.sees⟩
    | runs here calling runs ran system new => exact absurd new (idle _ _ _)
    | waits here => exact .inr ⟨stage', here, fun _ => rfl, fun _ => id⟩
  · exact guarded.executes executes run

theorem Run.guarded (run : Run config m h) : m.Guarded := by
  refine run.induct ?_ fun run ih change => change.guarded run ih
  have none : ∀ c, (Machine.initial config).stageOf c = none := by
    intro c
    cases c <;> rfl
  constructor
  · intro q c c' stage stage' here
    rw [none] at here
    cases here
  · intro q c stage here
    rw [none] at here
    cases here
  · intro c stage here
    rw [none] at here
    cases here
  · intro q r ring
    cases ring

end Machine

end TaskKernel
