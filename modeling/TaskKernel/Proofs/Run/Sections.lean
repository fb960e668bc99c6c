import TaskKernel.System

namespace TaskKernel

namespace System

def recorded (s : System) (wait : WaitState) (timeout : Ticks) : System :=
  (s.log (.blocks s.kernel.running wait timeout)).update
    (·.updateTask s.kernel.running fun task => { task with wait, timeout })

def roused (s : System) (t : TaskId) : System :=
  (s.update (·.updateTask t fun task => { task with timeout := Ticks.forever })).log
    (.wokeUp t (s.kernel.task t).timeout)

def locked (s : System) (m : MutexName) (mask : Word) : System :=
  s.update fun k => k.setMutex m (k.mutex m ||| mask)

end System

inductive Goal.Reached (s : System) : Goal → System → Stage → Prop where
  | lock {m : MutexName} {mask : Word} (clear : (s.kernel.mutex m).isClear mask = true) :
      Reached s (.lock m mask) (s.locked m mask) (.return .unit)
  | event {e : Nat} {mask : Word} {clear : Bool} (set : s.kernel.matched e mask ≠ 0) :
      Reached s (.event e mask clear)
        { s with kernel := if clear then s.kernel.clearEvent e (s.kernel.matched e mask)
          else s.kernel }
        (.return (.matched (s.kernel.matched e mask)))
  | multi {c : Combination} (met : c.isMetBy (s.kernel.readySet c) = true) :
      Reached s (.multi c) (s.update (·.consume (s.kernel.readySet c) c.entries))
        (.return (.ready (s.kernel.readySet c)))
  | add {q : Nat} {payload : List UInt8} {r : Ring}
      (clear : (s.kernel.mutex (.queue q)).isClear internalLock = true)
      (ring : s.kernel.ring q = some r) (room : r.hasRoom = true) :
      Reached s (.add q payload) (s.locked (.queue q) internalLock) (.copyIn q r payload)
  | remove {q : Nat} {buffer : List UInt8} {r : Ring}
      (clear : (s.kernel.mutex (.queue q)).isClear internalLock = true)
      (ring : s.kernel.ring q = some r) (message : r.hasMessage = true) :
      Reached s (.remove q buffer) (s.locked (.queue q) internalLock) (.copyOut q r buffer)
  | flush {q : Nat} (clear : (s.kernel.mutex (.queue q)).isClear internalLock = true) :
      Reached s (.flush q) ((s.locked (.queue q) internalLock).emptyQueue q) (.return .unit)
  | heap {h : HeapTask} (clear : (s.kernel.mutex .heap).isClear internalLock = true) :
      Reached s (.heap h) (s.locked .heap internalLock) (.useHeap h)

inductive Goal.Blocked (s : System) : Goal → WaitState → Prop where
  | lock {m : MutexName} {mask : Word} (taken : (s.kernel.mutex m).isClear mask = false) :
      Blocked s (.lock m mask) (.mutex m mask)
  | event {e : Nat} {mask : Word} {clear : Bool} (unset : s.kernel.matched e mask = 0) :
      Blocked s (.event e mask clear) (.event e mask)
  | multi {c : Combination} (unmet : c.isMetBy (s.kernel.readySet c) = false) :
      Blocked s (.multi c) (.multi c)
  | queue {g : Goal} {q : Nat} (taken : (s.kernel.mutex (.queue q)).isClear internalLock = false)
      (uses : g = .flush q ∨ (∃ payload, g = .add q payload) ∨ ∃ buffer, g = .remove q buffer) :
      Blocked s g (.mutex (.queue q) internalLock)
  | full {q : Nat} {payload : List UInt8} {r : Ring}
      (clear : (s.kernel.mutex (.queue q)).isClear internalLock = true)
      (ring : s.kernel.ring q = some r) (full : r.hasRoom = false) :
      Blocked s (.add q payload) (.queueFull q)
  | empty {q : Nat} {buffer : List UInt8} {r : Ring}
      (clear : (s.kernel.mutex (.queue q)).isClear internalLock = true)
      (ring : s.kernel.ring q = some r) (empty : r.hasMessage = false) :
      Blocked s (.remove q buffer) (.queueEmpty q)
  | heap {h : HeapTask} (taken : (s.kernel.mutex .heap).isClear internalLock = false) :
      Blocked s (.heap h) (.mutex .heap internalLock)

inductive Sought (s : System) (g : Goal) (nowait : Bool) (timeout : Ticks) :
    System → Stage → Prop where
  | reached {s' : System} {next : Stage} (now : g.Reached s s' next) :
      Sought s g nowait timeout s' next
  | refused {wait : WaitState} (later : g.Blocked s wait) (must : nowait = true) :
      Sought s g nowait timeout s (.return (.failed .wouldBlock))
  | late {wait : WaitState} (later : g.Blocked s wait) (may : nowait = false)
      (expired : timeout = Ticks.expired) :
      Sought s g nowait timeout s (.return (.failed .timeout))
  | blocks {wait : WaitState} (later : g.Blocked s wait) (may : nowait = false)
      (able : s.canBlock = true) (left : timeout ≠ Ticks.expired) :
      Sought s g nowait timeout (s.recorded wait timeout) (.yield s.kernel.running (.goal g))

theorem Kernel.ring_setMutex (k : Kernel) (m : MutexName) (w : Word) (q : Nat) :
    (k.setMutex m w).ring q = k.ring q := by
  cases m with
  | object => rfl
  | queue i =>
    simp only [setMutex, ring, Table.get_modify]
    split <;> rfl
  | heap => rfl

/-- How an attempt at a goal ends. -/
inductive Goal.Attempted (s : System) (g : Goal) : Attempt → Prop where
  | reached {s' : System} {next : Stage} (now : g.Reached s s' next) :
      Attempted s g (.done s' (.leave next))
  | blocked {wait : WaitState} (later : g.Blocked s wait) : Attempted s g (.blocked wait)
  | halts {s' : System} {halt : Halt} : Attempted s g (.done s' (.halt halt))

namespace Goal

theorem attempted_queue {s : System} {g : Goal} {q : Nat} {condition : Ring → Bool}
    {wait : WaitState} {next : Ring → Stage}
    (taken : (s.kernel.mutex (.queue q)).isClear internalLock = false →
      g.Blocked s (.mutex (.queue q) internalLock))
    (met : ∀ r, (s.kernel.mutex (.queue q)).isClear internalLock = true →
      s.kernel.ring q = some r → condition r = true →
        g.Reached s (s.locked (.queue q) internalLock) (next r))
    (unmet : ∀ r, (s.kernel.mutex (.queue q)).isClear internalLock = true →
      s.kernel.ring q = some r → condition r = false → g.Blocked s wait) :
    g.Attempted s (s.attemptQueue q condition wait next) := by
  unfold System.attemptQueue Kernel.tryLock
  by_cases clear : (s.kernel.mutex (.queue q)).isClear internalLock = true
  · simp only [clear, if_true, Kernel.ring_setMutex]
    cases ring : s.kernel.ring q with
    | none => exact .halts
    | some r =>
      dsimp only
      by_cases ok : condition r = true
      · rw [if_pos ok]
        exact .reached (met r clear ring ok)
      · rw [if_neg ok]
        exact .blocked (unmet r clear ring (Bool.eq_false_iff.mpr ok))
  · rw [if_neg clear]
    exact .blocked (taken (Bool.eq_false_iff.mpr clear))

theorem attempted (s : System) (g : Goal) : g.Attempted s (g.attempt s) := by
  cases g with
  | lock m mask =>
    rw [attempt, Kernel.tryLock]
    by_cases clear : (s.kernel.mutex m).isClear mask = true
    · rw [if_pos clear]
      exact .reached (.lock clear)
    · rw [if_neg clear]
      exact .blocked (.lock (Bool.eq_false_iff.mpr clear))
  | event e mask clear =>
    rw [attempt, Kernel.pollEvent]
    by_cases unset : s.kernel.matched e mask = 0
    · simp only [unset, if_true]
      exact .blocked (.event unset)
    · simp only [unset, if_false]
      exact .reached (.event unset)
  | multi c =>
    rw [attempt]
    by_cases met : c.isMetBy (s.kernel.readySet c) = true
    · simp only [met, if_true]
      exact .reached (.multi met)
    · simp only [met]
      exact .blocked (.multi (Bool.eq_false_iff.mpr met))
  | add q payload =>
    exact attempted_queue (fun taken => .queue taken (.inr (.inl ⟨_, rfl⟩)))
      (fun r clear ring room => .add clear ring room)
      (fun r clear ring full => .full clear ring full)
  | remove q buffer =>
    exact attempted_queue (fun taken => .queue taken (.inr (.inr ⟨_, rfl⟩)))
      (fun r clear ring message => .remove clear ring message)
      (fun r clear ring empty => .empty clear ring empty)
  | flush q =>
    rw [attempt, Kernel.tryLock]
    by_cases clear : (s.kernel.mutex (.queue q)).isClear internalLock = true
    · rw [if_pos clear]
      exact .reached (.flush clear)
    · rw [if_neg clear]
      exact .blocked (.queue (Bool.eq_false_iff.mpr clear) (.inl rfl))
  | heap task =>
    rw [attempt, Kernel.tryLock]
    by_cases clear : (s.kernel.mutex .heap).isClear internalLock = true
    · rw [if_pos clear]
      exact .reached (.heap clear)
    · rw [if_neg clear]
      exact .blocked (.heap (Bool.eq_false_iff.mpr clear))

theorem reached_of_attempt {s s' : System} {g : Goal} {st : Stage}
    (h : g.attempt s = .done s' (.leave st)) : g.Reached s s' st := by
  have attempted := attempted s g
  rw [h] at attempted
  cases attempted with
  | reached now => exact now

theorem blocked_of_attempt {s : System} {g : Goal} {wait : WaitState}
    (h : g.attempt s = .blocked wait) : g.Blocked s wait := by
  have attempted := attempted s g
  rw [h] at attempted
  cases attempted with
  | blocked later => exact later

/-- A failed attempt and its timeout decide what becomes of the call. -/
theorem sought_of_blocked {s s' : System} {g : Goal} {wait : WaitState} {timeout : Ticks}
    {st : Stage} (blocked : g.attempt s = .blocked wait)
    (h : s.block (.goal g) wait timeout = (s', .leave st)) : Sought s g false timeout s' st := by
  unfold System.block at h
  by_cases able : s.canBlock = true
  · by_cases expired : timeout = Ticks.expired
    · simp only [able, expired, Waiter.timedOut, blocked] at h
      cases h
      exact .late (blocked_of_attempt blocked) rfl expired
    · simp only [able, expired] at h
      cases h
      exact .blocks (blocked_of_attempt blocked) rfl able expired
  · simp [able, System.failWith] at h

theorem sought_of_seek {s s' : System} {g : Goal} {nowait : Bool} {timeout : Ticks} {st : Stage}
    (h : g.seek s nowait timeout = (s', .leave st)) : Sought s g nowait timeout s' st := by
  unfold seek at h
  cases attempted : g.attempt s with
  | done s₁ e =>
    simp only [attempted] at h
    cases h
    exact .reached (reached_of_attempt attempted)
  | blocked wait =>
    simp only [attempted] at h
    cases nowait with
    | true =>
      cases h
      exact .refused (blocked_of_attempt attempted) rfl
    | false =>
      by_cases late : wait.isForQueue = true ∧ timeout = Ticks.expired
      · simp only [late] at h
        cases h
        exact .late (blocked_of_attempt attempted) rfl late.2
      · simp only [late] at h
        exact sought_of_blocked attempted h

theorem sought_of_timedOut {s s' : System} {g : Goal} {st : Stage}
    (h : (Waiter.goal g).timedOut s = (s', .leave st)) :
    Sought s g false Ticks.expired s' st := by
  unfold Waiter.timedOut at h
  cases attempted : g.attempt s with
  | done s₁ e =>
    simp only [attempted] at h
    cases h
    exact .reached (reached_of_attempt attempted)
  | blocked wait =>
    simp only [attempted] at h
    cases h
    exact .late (blocked_of_attempt attempted) rfl rfl

end Goal

/-- A section that is after a goal, and the state in which it makes its attempt. -/
inductive Section.Seeks (s : System) : Section → System → Goal → Bool → Ticks → Prop where
  | seek {g : Goal} {nowait : Bool} {timeout : Ticks} :
      Seeks s (.seek g nowait timeout) s g nowait timeout
  | add {q : Nat} {flags : WaitFlags} {timeout : Ticks} {payload : List UInt8} {r : Ring}
      (ring : s.kernel.ring q = some r) (fits : payload.length ≤ r.slotSize) :
      Seeks s (.startAdd q flags timeout payload) s (.add q payload) flags.nowait timeout
  | flush {q : Nat} {r : Ring} (ring : s.kernel.ring q = some r) :
      Seeks s (.startFlush q) s (.flush q) false Ticks.forever
  | multi {w : Nat} {combinator : Combinator} {timeout : Ticks} {entries : List SubWait}
      (present : entries = (s.kernel.multiWaits.get w).entries) :
      Seeks s (.startMulti w combinator timeout) s (.multi { entries, combinator }) false timeout
  | wake {t : TaskId} {g : Goal} (chosen : (s.kernel.task t).wait = .run) :
      Seeks s (.wake t (.goal g)) (s.roused t) g false (s.kernel.task t).timeout

/-- The attempt is made in a state with other tasks and another log at most. -/
theorem Section.Seeks.state {s s₀ : System} {sec : Section} {g : Goal} {nowait : Bool}
    {timeout : Ticks} (seeks : sec.Seeks s s₀ g nowait timeout) :
    ∃ tasks journal, s₀ = { s with kernel := { s.kernel with tasks, journal } } := by
  cases seeks with
  | wake => exact ⟨_, _, rfl⟩
  | seek | add | flush | multi => exact ⟨s.kernel.tasks, s.kernel.journal, rfl⟩

def Pause.reply (left : Ticks) : Pause → Reply
  | .blockOn => if left = Ticks.expired then .failed .timeout else .number left
  | _ => .unit

def Section.isPlain : Section → Bool
  | .pause .. => false
  | .exit => false
  | .seek .. => false
  | .wake .. => false
  | .startAdd .. => false
  | .startFlush .. => false
  | .startMulti .. => false
  | _ => true

inductive Section.Left (s : System) : Section → System → Stage → Prop where
  | plain {sec : Section} {s' : System} {next : Stage} (simple : sec.isPlain = true)
      (ran : sec.run s = (s', .leave next)) : Left s sec s' next
  | sought {sec : Section} {s₀ s' : System} {g : Goal} {nowait : Bool} {timeout : Ticks}
      {next : Stage} (seeks : sec.Seeks s s₀ g nowait timeout)
      (sought : Sought s₀ g nowait timeout s' next) : Left s sec s' next
  | failed {sec : Section} {cause : Cause} (waits : sec.isPlain = false) :
      Left s sec s (.fail cause)
  | pauses {p : Pause} {wait : WaitState} {timeout : Ticks} (able : s.canBlock = true)
      (left : timeout ≠ Ticks.expired) :
      Left s (.pause p wait timeout) (s.recorded wait timeout) (.yield s.kernel.running (.pause p))
  | late {p : Pause} {wait : WaitState} (able : s.canBlock = true) (ends : p ≠ .exit) :
      Left s (.pause p wait Ticks.expired) s (.return (p.reply Ticks.expired))
  | lateExit {wait : WaitState} (able : s.canBlock = true) :
      Left s (.pause .exit wait Ticks.expired) (s.recorded .timer Ticks.forever)
        (.yield s.kernel.running (.pause .exit))
  | exits (able : s.canBlock = true) :
      Left s .exit ((s.log (.taskExited (s.kernel.task s.kernel.running).name)).recorded .timer
        Ticks.forever) (.yield s.kernel.running (.pause .exit))
  | asleep {t : TaskId} {w : Waiter} (waiting : (s.kernel.task t).wait ≠ .run) :
      Left s (.wake t w) s (.yield t w)
  | woken {t : TaskId} {p : Pause} (chosen : (s.kernel.task t).wait = .run) (ends : p ≠ .exit) :
      Left s (.wake t (.pause p)) (s.roused t) (.return (p.reply (s.kernel.task t).timeout))
  | exited {t : TaskId} (chosen : (s.kernel.task t).wait = .run) :
      Left s (.wake t (.pause .exit)) ((s.roused t).recorded .timer Ticks.forever)
        (.yield s.kernel.running (.pause .exit))

namespace Section

variable {s s' : System} {next : Stage}

theorem left_of_pause {p : Pause} {wait : WaitState} {timeout : Ticks}
    (h : s.block (.pause p) wait timeout = (s', .leave next)) :
    Left s (.pause p wait timeout) s' next := by
  unfold System.block at h
  by_cases able : s.canBlock = true
  · by_cases expired : timeout = Ticks.expired
    · subst expired
      simp only [able] at h
      cases p with
      | blockOn => cases h; exact .late able (by simp)
      | sleep => cases h; exact .late able (by simp)
      | suspend => cases h; exact .late able (by simp)
      | exit => cases h; exact .lateExit able
    · simp only [able, expired] at h
      cases h
      exact .pauses able expired
  · simp [able, System.failWith] at h

theorem block_forever {w : Waiter} {wait : WaitState}
    (h : s.block w wait Ticks.forever = (s', .leave next)) :
    s.canBlock = true ∧ s' = s.recorded wait Ticks.forever ∧ next = .yield s.kernel.running w := by
  unfold System.block at h
  by_cases able : s.canBlock = true
  · simp only [able, show Ticks.forever ≠ Ticks.expired by decide] at h
    cases h
    exact ⟨able, rfl, rfl⟩
  · simp [able, System.failWith] at h

theorem left_of_wake {t : TaskId} {w : Waiter} (h : s.wake t w = (s', .leave next)) :
    Left s (.wake t w) s' next := by
  unfold System.wake at h
  by_cases chosen : (s.kernel.task t).wait = .run
  · simp only [chosen, if_true] at h
    cases w with
    | goal g =>
      refine .sought (.wake chosen) ?_
      by_cases expired : (s.kernel.task t).timeout = Ticks.expired
      · rw [if_pos expired] at h
        rw [expired]
        exact Goal.sought_of_timedOut h
      · rw [if_neg expired] at h
        exact Goal.sought_of_seek h
    | pause p =>
      by_cases expired : (s.kernel.task t).timeout = Ticks.expired
      · rw [if_pos expired] at h
        cases p with
        | exit => cases h; exact .exited chosen
        | blockOn =>
          cases h
          have := Left.woken (p := .blockOn) chosen (by simp)
          rwa [expired] at this
        | sleep => cases h; exact .woken (p := .sleep) chosen (by simp)
        | suspend => cases h; exact .woken (p := .suspend) chosen (by simp)
      · rw [if_neg expired] at h
        cases p with
        | exit =>
          obtain ⟨-, rfl, rfl⟩ := block_forever h
          exact .exited chosen
        | blockOn =>
          cases h
          have := Left.woken (p := .blockOn) chosen (by simp)
          rwa [Pause.reply, if_neg expired] at this
        | sleep => cases h; exact .woken (p := .sleep) chosen (by simp)
        | suspend => cases h; exact .woken (p := .suspend) chosen (by simp)
  · simp only [chosen, if_false] at h
    cases h
    exact .asleep chosen

theorem left_of_run {sec : Section} (h : sec.run s = (s', .leave next)) : Left s sec s' next := by
  cases sec with
  | pause p wait timeout => exact left_of_pause h
  | exit =>
    obtain ⟨able, rfl, rfl⟩ := block_forever h
    exact .exits able
  | seek g nowait timeout => exact .sought .seek (Goal.sought_of_seek h)
  | wake t w => exact left_of_wake h
  | startAdd q flags timeout payload =>
    unfold run at h
    cases ring : s.kernel.ring q with
    | none => simp [ring, System.failWith] at h
    | some r =>
      simp only [ring] at h
      by_cases long : r.slotSize < payload.length
      · rw [if_pos long] at h
        cases h
        exact .failed rfl
      · rw [if_neg long] at h
        exact .sought (.add ring (Nat.le_of_not_lt long)) (Goal.sought_of_seek h)
  | startFlush q =>
    unfold run at h
    cases ring : s.kernel.ring q with
    | none => simp [ring, System.failWith] at h
    | some r =>
      simp only [ring] at h
      exact .sought (.flush ring) (Goal.sought_of_seek h)
  | startMulti w combinator timeout =>
    unfold run at h
    by_cases empty : (s.kernel.multiWaits.get w).entries.isEmpty = true
    · simp only [empty, if_true] at h
      cases h
      exact .failed rfl
    · simp only [empty] at h
      exact .sought (.multi rfl) (Goal.sought_of_seek h)
  | _ => exact .plain rfl h

end Section

end TaskKernel
