import TaskKernel.Proofs.Run.History

namespace TaskKernel

instance (h : History) (c : Call) : Decidable (c.Reaches h) :=
  match c with
  | .lock (.object i) .. => isTrue ⟨i, rfl⟩
  | .lock (.queue _) .. => isFalse fun ⟨_, h⟩ => by cases h
  | .lock .heap .. => isFalse fun ⟨_, h⟩ => by cases h
  | .unlock (.object i) .. => isTrue ⟨i, rfl⟩
  | .unlock (.queue _) .. => isFalse fun ⟨_, h⟩ => by cases h
  | .unlock .heap .. => isFalse fun ⟨_, h⟩ => by cases h
  | .free a => inferInstanceAs (Decidable (a ∈ h.owned.map Prod.fst))
  | .createTask .. | .currentTask | .currentParam | .sleep _ | .suspend | .exit | .blockOn ..
  | .requestReschedule | .tick | .isLocked .. | .raise .. | .clear .. | .getEvent _
  | .waitEvent .. | .createQueue .. | .add .. | .remove .. | .flush _ | .length _ | .isFull _
  | .createMultiWait .. | .addSubWait .. | .waitMulti .. | .alloc _ | .heapStats | .inspect _
  | .enterCpuLock | .tryEnterCpuLock | .leaveCpuLock | .yieldCpu => isTrue trivial

instance (h : History) (c : Call) : Decidable (c.Legal h) :=
  decidable_of_iff (c.Reaches h ∧ c.budget ≤ Ticks.expired)
    ⟨fun x => ⟨x.1, x.2⟩, fun x => ⟨x.reaches, x.fits⟩⟩

namespace Machine

inductive Cue
  | steps (n : Nat)
  | call (c : Call)
  | leaveHandler
  | launch
  | pend (line : Nat)

def followStep (x : Machine × History) : Option (Machine × History) :=
  if x.1.activity = .application then none
  else match x.1.step with
    | (_, .halted _) => none
    | (m, _) => some (m, x.1.happens ++ x.2)

def followSteps (x : Machine × History) : Nat → Option (Machine × History)
  | 0 => some x
  | n + 1 => (followStep x).bind fun y => followSteps y n

def followCue (x : Machine × History) : Cue → Option (Machine × History)
  | .steps n => followSteps x n
  | .call c =>
    if x.1.activity = .application ∧ c.Legal x.2 then
      some (x.1.call c, .called x.1.context c :: x.2)
    else none
  | .leaveHandler =>
    if x.1.activity = .application ∧ x.1.cpu.inInterrupt = true then some (x.1.leaveHandler, x.2)
    else none
  | .launch =>
    if x.1.activity = .application ∧ x.1.context = .boot ∧ x.1.launch.2 = .none then
      some (x.1.launch.1, .dispatched x.1.kernel :: x.2)
    else none
  | .pend line => (x.1.pend line).map fun m => (m, x.2)

def follow (x : Machine × History) : List Cue → Option (Machine × History)
  | [] => some x
  | cue :: cues => (followCue x cue).bind fun y => follow y cues

variable {config : Config} {x y : Machine × History}

theorem step_of_followStep (h : followStep x = some y) : x.1.activity ≠ .application ∧
    (∀ halt, x.1.step.2 ≠ .halted halt) ∧ y = (x.1.step.1, x.1.happens ++ x.2) := by
  unfold followStep at h
  split at h
  · cases h
  · rename_i busy
    cases stepped : x.1.step with
    | mk m e =>
      rw [stepped] at h
      cases e <;> cases h <;> exact ⟨busy, by simp, rfl⟩

theorem steps_of_followStep (h : followStep x = some y) : Steps x y := by
  obtain ⟨busy, alive, rfl⟩ := step_of_followStep h
  exact Next.step busy alive

theorem path_of_followSteps {n : Nat} (h : followSteps x n = some y) : Path x y := by
  induction n generalizing x with
  | zero =>
    cases h
    exact .refl
  | succ n ih =>
    obtain ⟨z, hz, rest⟩ := Option.bind_eq_some_iff.mp h
    exact .head (steps_of_followStep hz) (ih rest)

theorem path_of_followCue {cue : Cue} (h : followCue x cue = some y) : Path x y := by
  cases cue with
  | steps n => exact path_of_followSteps h
  | call c =>
    simp only [followCue] at h
    split at h <;> cases h
    rename_i ok
    exact .single (Next.call ok.1 c ok.2)
  | leaveHandler =>
    simp only [followCue] at h
    split at h <;> cases h
    rename_i ok
    exact .single (Next.leaveHandler ok.1 ok.2)
  | launch =>
    simp only [followCue] at h
    split at h <;> cases h
    rename_i ok
    exact .single (Next.launch ok.1 ok.2.1 ok.2.2)
  | pend line =>
    obtain ⟨m, hm, rfl⟩ := Option.map_eq_some_iff.mp h
    exact .single (Next.pend line hm)

theorem path_of_follow {cues : List Cue} (h : follow x cues = some y) : Path x y := by
  induction cues generalizing x with
  | nil =>
    cases h
    exact .refl
  | cons cue cues ih =>
    obtain ⟨z, hz, rest⟩ := Option.bind_eq_some_iff.mp h
    exact (path_of_followCue hz).trans (ih rest)

theorem run_of_follow {cues : List Cue} (h : follow (initial config, []) cues = some y) :
    Run config y.1 y.2 := Run.initial.path (path_of_follow h)

end Machine

end TaskKernel
