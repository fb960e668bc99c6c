import TaskKernel.Proofs.Wait.Readiness

namespace TaskKernel

inductive Signal
  | raise (mask : Word)
  | clear (mask : Word)
  | take (mask : Word)
  deriving DecidableEq

namespace Signal

def apply (w : Word) : Signal → Word
  | raise mask => w ||| mask
  | clear mask => w.without mask
  | take mask => w.without (w &&& mask)

/-- The word after the signals, the newest first. -/
def replay (w : Word) (xs : List Signal) : Word := xs.foldr (fun x w => x.apply w) w

def Lowers (xs : List Signal) (b : Nat) : Prop :=
  ∃ mask, (clear mask ∈ xs ∨ take mask ∈ xs) ∧ mask.getLsbD b = true

def Raises (xs : List Signal) (b : Nat) : Prop := ∃ mask, raise mask ∈ xs ∧ mask.getLsbD b = true

variable {w : Word} {xs ys : List Signal} {x : Signal} {b : Nat}

theorem replay_append (w : Word) (xs ys : List Signal) :
    replay w (xs ++ ys) = replay (replay w ys) xs := List.foldr_append

theorem lowers_mono (h : Lowers xs b) (sub : xs ⊆ ys) : Lowers ys b := by
  obtain ⟨mask, member, bit⟩ := h
  exact ⟨mask, member.imp (sub ·) (sub ·), bit⟩

theorem raises_mono (h : Raises xs b) (sub : xs ⊆ ys) : Raises ys b := by
  obtain ⟨mask, member, bit⟩ := h
  exact ⟨mask, sub member, bit⟩

/-- One signal takes a set bit away only if it is one that can. -/
theorem lowers_of_apply (set : w.getLsbD b = true) (lost : (x.apply w).getLsbD b = false) :
    Lowers [x] b := by
  cases x with
  | raise mask =>
    rw [apply, BitVec.getLsbD_or, set] at lost
    cases lost
  | clear mask =>
    rw [apply, Word.getLsbD_without, set, Bool.true_and, Bool.not_eq_false'] at lost
    exact ⟨mask, .inl List.mem_cons_self, lost⟩
  | take mask =>
    rw [apply, Word.getLsbD_without, set, Bool.true_and, Bool.not_eq_false', BitVec.getLsbD_and,
      set, Bool.true_and] at lost
    exact ⟨mask, .inr List.mem_cons_self, lost⟩

theorem raises_of_apply (clear : w.getLsbD b = false) (set : (x.apply w).getLsbD b = true) :
    Raises [x] b := by
  cases x with
  | raise mask =>
    rw [apply, BitVec.getLsbD_or, clear, Bool.false_or] at set
    exact ⟨mask, List.mem_cons_self, set⟩
  | clear mask | take mask =>
    rw [apply, Word.getLsbD_without, clear] at set
    cases set

/-- A set bit stays set until a signal takes it away. -/
theorem kept (set : w.getLsbD b = true) (lost : (replay w xs).getLsbD b = false) :
    Lowers xs b := by
  induction xs with
  | nil =>
    change w.getLsbD b = false at lost
    rw [set] at lost
    cases lost
  | cons x xs ih =>
    cases before : (replay w xs).getLsbD b with
    | false => exact lowers_mono (ih before) (List.subset_cons_self x xs)
    | true => exact lowers_mono (lowers_of_apply before lost) (by simp)

/-- A clear bit stays clear until it is raised. -/
theorem raised (clear : w.getLsbD b = false) (set : (replay w xs).getLsbD b = true) :
    Raises xs b := by
  induction xs with
  | nil =>
    change w.getLsbD b = true at set
    rw [clear] at set
    cases set
  | cons x xs ih =>
    cases before : (replay w xs).getLsbD b with
    | true => exact raises_mono (ih before) (List.subset_cons_self x xs)
    | false => exact raises_mono (raises_of_apply before set) (by simp)

/-- A bit that is taken is clear until it is raised. -/
theorem taken {mask : Word} (member : take mask ∈ xs) (bit : mask.getLsbD b = true)
    (quiet : ¬ Raises xs b) : (replay w xs).getLsbD b = false := by
  obtain ⟨late, early, rfl⟩ := List.append_of_mem member
  rw [replay_append]
  refine Bool.eq_false_iff.mpr ?_
  intro set
  refine quiet (raises_mono (raised ?_ set) (List.subset_append_left ..))
  change ((replay w early).without (replay w early &&& mask)).getLsbD b = false
  rw [Word.getLsbD_without, BitVec.getLsbD_and, bit, Bool.and_true, Bool.and_not_self]

end Signal

end TaskKernel
