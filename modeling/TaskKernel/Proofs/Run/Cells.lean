import TaskKernel.Proofs.Run.Executions

namespace TaskKernel

def SubWait.cells : SubWait → List Cell
  | .event e _ _ => [.event e]
  | .queue q _ => [.ring q, .mutex (.queue q)]

def WaitState.cells : WaitState → List Cell
  | .run => []
  | .suspended => []
  | .timer => []
  | .mutex m _ => [.mutex m]
  | .event e _ => [.event e]
  | .queueFull q => [.ring q, .mutex (.queue q)]
  | .queueEmpty q => [.ring q, .mutex (.queue q)]
  | .multi c => c.entries.flatMap SubWait.cells

def SubWait.targets : SubWait → List Cell
  | .event e _ flags => if flags.clear then [.event e] else []
  | .queue .. => []

def Goal.targets : Goal → List Cell
  | .lock m _ => [.mutex m]
  | .event e _ clear => if clear then [.event e] else []
  | .multi c => c.entries.flatMap SubWait.targets
  | .add q _ => [.mutex (.queue q)]
  | .remove q _ => [.mutex (.queue q)]
  | .flush q => [.ring q, .mutex (.queue q)]
  | .heap _ => [.mutex .heap]

def Section.targets (k : Kernel) : Section → List Cell
  | .seek g _ _ => g.targets
  | .wake _ (.goal g) => g.targets
  | .startAdd q .. => [.mutex (.queue q)]
  | .startFlush q => [.ring q, .mutex (.queue q)]
  | .startMulti w _ _ => (k.multiWaits.get w).entries.flatMap SubWait.targets
  | .unlock m _ _ => [.mutex m]
  | .raise e _ _ => [.event e]
  | .clear e _ => [.event e]
  | .installRing q _ _ _ => [.ring q]
  | .commitAdd q => [.ring q, .mutex (.queue q)]
  | .commitRemove q _ _ => [.ring q, .mutex (.queue q)]
  | .createMultiWait w _ => [.multiWait w]
  | .addSubWait w _ => [.multiWait w]
  | .leaveHeap _ _ => [.mutex .heap]
  | _ => []

namespace Kernel

variable {k k' : Kernel} {cell : Cell}

theorem word_of_read {m : MutexName} (h : k'.read (.mutex m) = k.read (.mutex m)) :
    k'.mutex m = k.mutex m := CellValue.word.inj h

theorem matched_of_read {e : Nat} {mask : Word} (h : k'.read (.event e) = k.read (.event e)) :
    k'.matched e mask = k.matched e mask :=
  congrArg (· &&& mask) (CellValue.word.inj h)

theorem ring_of_read {q : Nat} (h : k'.read (.ring q) = k.read (.ring q)) :
    k'.ring q = k.ring q := CellValue.ring.inj h

theorem holdsAlone_of_cells {s : SubWait} (same : ∀ cell ∈ s.cells, k'.read cell = k.read cell) :
    k'.holdsAlone s = k.holdsAlone s := by
  cases s with
  | event e mask flags =>
    simp only [holdsAlone, matched_of_read (same (.event e) (by simp [SubWait.cells]))]
  | queue q condition =>
    have ring := ring_of_read (same (.ring q) (by simp [SubWait.cells]))
    cases condition with
    | notEmpty => simp [holdsAlone, hasMessage, ring]
    | notFull => simp [holdsAlone, hasRoom, ring]

/-- Whether a wait holds depends on its objects only. -/
theorem holds_of_cells {w : WaitState} (same : ∀ cell ∈ w.cells, k'.read cell = k.read cell) :
    k'.holds w = k.holds w := by
  cases w with
  | run | suspended | timer => rfl
  | mutex m mask =>
    simp [holds, word_of_read (same (.mutex m) (by simp [WaitState.cells]))]
  | event e mask =>
    simp only [holds, matched_of_read (same (.event e) (by simp [WaitState.cells]))]
  | queueFull q =>
    simp [holds, hasRoom, ring_of_read (same (.ring q) (by simp [WaitState.cells]))]
  | queueEmpty q =>
    simp [holds, hasMessage, ring_of_read (same (.ring q) (by simp [WaitState.cells]))]
  | multi c =>
    have ready : k'.readySet c = k.readySet c := by
      apply ReadySet.ofPredicate_congr
      intro s member
      apply holdsAlone_of_cells
      intro cell within
      exact same cell (List.mem_flatMap.mpr ⟨s, member, within⟩)
    simp [holds, ready]

theorem read_of_objects (objects : k'.objects = k.objects)
    (multiWaits : k'.multiWaits = k.multiWaits) (cell : Cell) : k'.read cell = k.read cell := by
  have same : ∀ k : Kernel,
      k.read cell = { k.objects with multiWaits := k.multiWaits }.read cell := by
    intro k
    cases cell with
    | mutex m => cases m <;> rfl
    | _ => rfl
  rw [same k', same k, objects, multiWaits]

theorem read_log (k : Kernel) (msg : Message) : (k.log msg).read cell = k.read cell :=
  read_of_objects rfl rfl cell

theorem read_setMutex {m : MutexName} (w : Word) (other : cell ≠ .mutex m) :
    (k.setMutex m w).read cell = k.read cell := by
  cases cell with
  | mutex n =>
    have ne : m ≠ n := fun same => other (congrArg Cell.mutex same.symm)
    simp [read, mutex_setMutex, ne]
  | event e => simp [read, event_setMutex]
  | ring q => simp [read, ring_setMutex]
  | multiWait w' => simp [read, multiWaits_setMutex]

theorem read_setEvent {e : Nat} (w : Word) (other : cell ≠ .event e) :
    (k.setEvent e w).read cell = k.read cell := by
  cases cell with
  | event i =>
    have ne : e ≠ i := fun same => other (congrArg Cell.event same.symm)
    simp [read, setEvent, event, ne]
  | mutex m => cases m <;> rfl
  | ring | multiWait => rfl

theorem read_setRing {q : Nat} (r : Option Ring) (other : cell ≠ .ring q) :
    (k.setRing q r).read cell = k.read cell := by
  cases cell with
  | ring i =>
    have ne : q ≠ i := fun same => other (congrArg Cell.ring same.symm)
    simp [read, ring_setRing, ne]
  | mutex m => simp [read, mutex_setRing]
  | event | multiWait => rfl

theorem read_setMultiWait {w : Nat} (o : MultiWait) (other : cell ≠ .multiWait w) :
    { k with multiWaits := k.multiWaits.set w o }.read cell = k.read cell := by
  cases cell with
  | multiWait i =>
    have ne : w ≠ i := fun same => other (congrArg Cell.multiWait same.symm)
    simp [read, ne]
  | mutex m => cases m <;> rfl
  | event | ring => rfl

theorem read_clearEvent {e : Nat} (mask : Word) (other : cell ≠ .event e) :
    (k.clearEvent e mask).read cell = k.read cell :=
  read_setEvent _ other

theorem read_consume (k : Kernel) (ready : ReadySet) (entries : List SubWait)
    (apart : cell ∉ entries.flatMap SubWait.targets) :
    (k.consume ready entries).read cell = k.read cell := by
  have apart' : ∀ x ∈ entries.zipIdx, cell ∉ x.1.targets := by
    intro x member within
    exact apart (List.mem_flatMap.mpr ⟨x.1, List.fst_mem_of_mem_zipIdx member, within⟩)
  unfold consume
  generalize entries.zipIdx = xs at apart'
  induction xs generalizing k with
  | nil => rfl
  | cons x xs ih =>
    have first := apart' x List.mem_cons_self
    rw [List.foldl_cons, ih _ fun y member => apart' y (List.mem_cons_of_mem x member)]
    obtain ⟨entry, n⟩ := x
    cases entry with
    | queue => rfl
    | event e mask flags =>
      dsimp only
      split
      · rename_i clears
        apply read_clearEvent
        simpa [SubWait.targets, clears.2] using first
      · rfl

end Kernel

variable {s s' s₀ : System} {sec : Section} {next : Stage} {g : Goal} {cell : Cell}

theorem System.read_emptyQueue (s : System) (q : Nat) (apart : cell ∉ (Goal.flush q).targets) :
    (s.emptyQueue q).kernel.read cell = s.kernel.read cell := by
  simp only [Goal.targets, List.mem_cons, List.not_mem_nil, or_false, not_or] at apart
  unfold emptyQueue
  rw [System.requestReschedule_kernel]
  refine (Kernel.read_setMutex _ apart.2).trans ?_
  cases s.kernel.ring q with
  | none => rfl
  | some r => exact Kernel.read_setRing _ apart.1

/-- Reaching a goal changes the cells of the goal only. -/
theorem Goal.Reached.read_eq (now : g.Reached s s' next) (apart : cell ∉ g.targets) :
    s'.kernel.read cell = s.kernel.read cell := by
  cases now with
  | lock | add | remove | heap =>
    apply Kernel.read_setMutex
    simpa [targets] using apart
  | @event e mask clear =>
    cases clear with
    | false => rfl
    | true =>
      apply Kernel.read_clearEvent
      simpa [targets] using apart
  | multi => exact Kernel.read_consume _ _ _ apart
  | @flush q =>
    refine (System.read_emptyQueue _ q apart).trans ?_
    apply Kernel.read_setMutex
    intro same
    subst same
    simp [targets] at apart

namespace Section

theorem Seeks.read_eq {nowait : Bool} {timeout : Ticks} (seeks : sec.Seeks s s₀ g nowait timeout) :
    s₀.kernel.read cell = s.kernel.read cell := by
  obtain ⟨tasks, journal, rfl⟩ := seeks.state
  exact Kernel.read_of_objects rfl rfl cell

theorem Seeks.targets {nowait : Bool} {timeout : Ticks} (seeks : sec.Seeks s s₀ g nowait timeout) :
    sec.targets s.kernel = g.targets := by
  cases seeks with
  | multi present =>
    subst present
    rfl
  | _ => rfl

theorem plain_read (simple : sec.isPlain = true) (ran : sec.run s = (s', .leave next))
    (apart : cell ∉ sec.targets s.kernel) : s'.kernel.read cell = s.kernel.read cell := by
  have made := makes_of_run simple ran
  generalize s'.kernel = k' at made ⊢
  cases made with
  | same => rfl
  | created => exact Kernel.read_of_objects rfl rfl cell
  | ticked =>
    obtain ⟨tasks, journal, same⟩ := s.kernel.tick_eq
    rw [same]
    exact Kernel.read_of_objects rfl rfl cell
  | unlocked | released =>
    apply Kernel.read_setMutex
    simpa [targets] using apart
  | raised =>
    apply Kernel.read_setEvent
    simpa [targets] using apart
  | cleared =>
    apply Kernel.read_clearEvent
    simpa [targets] using apart
  | @installed q =>
    have other : cell ≠ .ring q := by simpa [targets] using apart
    rw [Kernel.read_log, Kernel.read_setRing _ other]
  | added | removed =>
    simp only [targets, List.mem_cons, List.not_mem_nil, or_false, not_or] at apart
    exact (Kernel.read_setMutex _ apart.2).trans (Kernel.read_setRing _ apart.1)
  | sized | extended =>
    apply Kernel.read_setMultiWait
    simpa [targets] using apart

/-- A section leaves the cells as they are that it does not aim at. -/
theorem Left.read_eq (left : sec.Left s s' next) (apart : cell ∉ sec.targets s.kernel) :
    s'.kernel.read cell = s.kernel.read cell := by
  cases left with
  | plain simple ran => exact plain_read simple ran apart
  | sought seeks sought =>
    refine Eq.trans ?_ seeks.read_eq
    cases sought with
    | reached now =>
      apply now.read_eq
      rw [← seeks.targets]
      exact apart
    | refused | late => rfl
    | blocks => exact Kernel.read_of_objects rfl rfl cell
  | failed | late | asleep => rfl
  | pauses | lateExit | exits | woken | exited => exact Kernel.read_of_objects rfl rfl cell

end Section

end TaskKernel
