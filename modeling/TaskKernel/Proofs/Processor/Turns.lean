import TaskKernel.Proofs.Run.Changes

namespace TaskKernel

def Happening.isTaking : Happening → Bool
  | .entered _ => true
  | .dispatched _ => true
  | _ => false

inductive History.Quiet (h : History) : History → Prop
  | refl : Quiet h h
  | cons {x : Happening} (quiet : x.isTaking = false) : Quiet h (x :: h)

namespace History.Quiet

variable {h h' : History} {x : Happening}

theorem ne (quiet : Quiet h h') (taking : x.isTaking = true) : h' ≠ x :: h := by
  rintro rfl
  cases quiet with
  | cons quiet =>
    rw [taking] at quiet
    cases quiet

theorem mem_iff (quiet : Quiet h h') (taking : x.isTaking = true) : x ∈ h' ↔ x ∈ h := by
  cases quiet with
  | refl => exact Iff.rfl
  | cons quiet =>
    refine ⟨?_, List.mem_cons_of_mem _⟩
    intro mem
    rcases List.mem_cons.mp mem with rfl | older
    · rw [taking] at quiet
      cases quiet
    · exact older

end History.Quiet

namespace Machine

/-- The machine is at an open preemption point, and the request is the first one. -/
structure Due (m : Machine) (r : Request) : Prop where
  here : ∃ stage, m.activity = .point stage
  unlocked : m.cpu.isOpen = true
  first : m.cpu.First r

inductive Taken (m : Machine) (h : History) : Request → Machine → History → Prop
  | line {n : Nat} {handler : Handler} (due : m.Due (.line n))
      (registered : (m.cpu.line n).handler = some handler) :
      Taken m h (.line n) ((m.setCpu (m.cpu.grant (.line n))).enterHandler handler).1
        (.entered handler :: h)
  | dispatch (due : m.Due .dispatch) :
      Taken m h .dispatch (m.setCpu (m.cpu.grant .dispatch)).dispatch (.dispatched m.kernel :: h)

def Passes (m m' : Machine) : Prop :=
  ∃ stage, m.activity = .point stage ∧ m' = m.setActivity (.running stage)

inductive Check (m : Machine) (h : History) (stage : Stage) : Machine → History → Prop
  | closed (shut : m.cpu.isOpen = false) : Check m h stage (m.setActivity (.running stage)) h
  | clear (unlocked : m.cpu.isOpen = true) (none : m.cpu.hasPendingWork = false) :
      Check m h stage (m.setActivity (.running stage)) h
  | takes {r : Request} {m' : Machine} {h' : History} (taken : Taken m h r m' h') :
      Check m h stage m' h'

inductive Onward (m : Machine) : Machine → Prop
  | moves {s : System} (a : Activity) (stays : m.cpu.Stays s.cpu) :
      Onward m ({ m with system := s }.setActivity a)
  | stays {s : System} (stays : m.cpu.Stays s.cpu) : Onward m { m with system := s }
  | leaves (inside : m.cpu.inInterrupt = true) : Onward m m.leaveHandler

/-- A step of a run, as far as the processor is concerned. -/
inductive Turn (m : Machine) (h : History) : Machine → History → Prop
  | onward {m' : Machine} {h' : History} (away : ∀ stage, m.activity ≠ .point stage)
      (onward : Onward m m') (quiet : History.Quiet h h') : Turn m h m' h'
  | check {m' : Machine} {h' : History} {stage : Stage} (here : m.activity = .point stage)
      (check : Check m h stage m' h') : Turn m h m' h'
  | outside {cpu : Processor} {lines : List Line} (same : cpu = { m.cpu with lines })
      (keeps : ∀ r, m.cpu.Keeps cpu r) : Turn m h (m.setCpu cpu) h
  | launch (free : m.activity = .application) (booting : m.context = .boot)
      (alive : m.launch.2 = .none) : Turn m h m.launch.1 (.dispatched m.kernel :: h)

variable {m m' : Machine} {h h' : History} {r : Request} {stage : Stage}

/-- What a preemption point does is what the processor's check tells it. -/
theorem check_step (here : m.activity = .point stage) :
    Check m h stage m.step.1 (m.happens ++ h) := by
  have check := m.cpu.check
  unfold step happens
  simp only [here]
  cases found : m.cpu.preemption with
  | nothing =>
    rw [found] at check
    cases check with
    | closed shut => exact .closed shut
    | clear unlocked none => exact .clear unlocked none
  | interrupt handler cpu =>
    rw [found] at check
    cases check with
    | line unlocked first registered => exact .takes (.line ⟨⟨_, here⟩, unlocked, first⟩ registered)
  | dispatch cpu =>
    rw [found] at check
    cases check with
    | dispatch unlocked first => exact .takes (.dispatch ⟨⟨_, here⟩, unlocked, first⟩)

theorem onward_finishCall (reply : Reply) : Onward m (m.finishCall reply).1 := by
  unfold finishCall
  split
  · rename_i inside
    exact .leaves inside.1
  · exact .moves _ (.refl _)

theorem onward_start : Onward m m.start := by
  unfold start
  split
  · exact .moves _ (.refl _)
  · exact .stays (.refl _)

/-- A step of the code that has the processor is the check, or leads away from it. -/
theorem Stepped.turn {news : History} (stepped : Stepped m m' news) : Turn m h m' (news ++ h) := by
  cases stepped with
  | starts doing => exact .onward (by simp [doing]) onward_start .refl
  | stays doing => exact .onward (by simp [doing]) (.stays (.refl _)) .refl
  | goes doing ran => exact .onward (by simp [doing]) (.moves _ (Stage.frame_of_run ran).2) .refl
  | sleeps doing ran => exact .onward (by simp [doing]) (.stays (Stage.frame_of_run ran).2) .refl
  | returns doing => exact .onward (by simp [doing]) (onward_finishCall _) (.cons rfl)
  | runs doing ran => exact .onward (by simp [doing]) (.moves _ (stays_of_left ran)) (.cons rfl)
  | point doing => exact .check doing (check_step doing)

theorem Next.turn (next : Next m h m' h') : Turn m h m' h' := by
  cases next with
  | step busy alive => exact (stepped_of_alive alive).turn
  | call free call =>
    exact .onward (by simp [free]) (.moves (s := m.system) _ (.refl _)) (.cons rfl)
  | leaveHandler free inside => exact .onward (by simp [free]) (.leaves inside) .refl
  | launch free booting alive => exact .launch free booting alive
  | pend line pended =>
    obtain ⟨cpu, updated, rfl⟩ := Option.map_eq_some_iff.mp pended
    obtain ⟨lines, same⟩ := Processor.lines_of_updateLine updated
    exact .outside same fun r => Processor.keeps_pend updated
  | setHandler line id set =>
    obtain ⟨cpu, updated, rfl⟩ := Option.map_eq_some_iff.mp set
    obtain ⟨lines, same⟩ := Processor.lines_of_updateLine updated
    exact .outside same fun r => Processor.keeps_setHandler updated
  | write free a bytes => exact .onward (by simp [free]) (.stays (.refl _)) .refl

theorem Due.started (due : m.Due r) : m.cpu.started = true :=
  (Processor.isOpen_iff.mp due.unlocked).1

theorem Due.free (due : m.Due r) : m.cpu.cpuLock = false :=
  (Processor.isOpen_iff.mp due.unlocked).2.1

theorem Due.outside (due : m.Due r) : m.cpu.inInterrupt = false :=
  (Processor.isOpen_iff.mp due.unlocked).2.2

theorem Due.of_taken (taken : Taken m h r m' h') : m.Due r := by
  cases taken with
  | line due => exact due
  | dispatch due => exact due

inductive Taking (m : Machine) (h : History) : Machine → History → Prop
  | takes {r : Request} {m' : Machine} {h' : History} (taken : Taken m h r m' h') :
      Taking m h m' h'
  | launches (booting : m.context = .boot) (alive : m.launch.2 = .none) :
      Taking m h m.launch.1 (.dispatched m.kernel :: h)

theorem Turn.taking {x : Happening} (turn : Turn m h m' h') (new : h' = x :: h)
    (taking : x.isTaking = true) : Taking m h m' h' := by
  cases turn with
  | onward away onward quiet => exact absurd new (quiet.ne taking)
  | check here check =>
    cases check with
    | closed | clear => exact absurd new.symm (List.cons_ne_self _ _)
    | takes taken => exact .takes taken
  | outside => exact absurd new.symm (List.cons_ne_self _ _)
  | launch free booting alive => exact .launches booting alive

end Machine

end TaskKernel
