import TaskKernel.Proofs.Run.Frames

namespace TaskKernel

namespace Word

theorem getLsbD_zero (b : Nat) : (0 : Word).getLsbD b = false := BitVec.getLsbD_zero ..

/-- Two words have no bit in common. -/
theorem and_eq_zero {w w' : Word} :
    w &&& w' = 0 ↔ ∀ b, w.getLsbD b = true → w'.getLsbD b = false := by
  constructor
  · intro none b hw
    have bit := congrArg (·.getLsbD b) none
    rwa [BitVec.getLsbD_and, hw, Bool.true_and, getLsbD_zero] at bit
  · intro apart
    refine BitVec.eq_of_getLsbD_eq ?_
    intro b _
    rw [BitVec.getLsbD_and, getLsbD_zero, Bool.and_eq_false_iff]
    cases hw : w.getLsbD b with
    | false => exact .inl rfl
    | true => exact .inr (apart b hw)

end Word

namespace ReadySet

theorem getLsbD_foldl (l : List (SubWait × Nat)) (w : Word) {i : Nat} (hi : i < 32) :
    (l.foldl (fun bits x => bits ||| ((1 : Word) <<< x.2)) w).getLsbD i =
      (w.getLsbD i || l.any fun x => x.2 = i) := by
  induction l generalizing w with
  | nil => simp
  | cons x l ih =>
    rw [List.foldl_cons, ih, BitVec.getLsbD_or, List.any_cons, Bool.or_assoc]
    congr 2
    rw [show (1 : Word) = 1#32 from rfl, BitVec.getLsbD_shiftLeft, BitVec.getLsbD_one]
    by_cases hx : x.2 = i
    · simp [hx, hi]
    · have : ¬ (x.2 ≤ i ∧ i - x.2 = 0) := by omega
      simp only [hx, decide_false]
      by_cases le : x.2 ≤ i
      · have : i - x.2 ≠ 0 := by omega
        simp [this]
      · simp [Nat.lt_of_not_le le]

/-- A ready set holds the positions of the conditions that hold. -/
theorem contains_ofPredicate (p : SubWait → Bool) (entries : List SubWait) (i : Nat) :
    (ofPredicate p entries).contains i = true ↔
      i < 32 ∧ ∃ s, entries[i]? = some s ∧ p s = true := by
  unfold contains ofPredicate
  by_cases hi : i < 32
  · rw [getLsbD_foldl _ _ hi]
    rw [show (0 : Word) = 0#32 from rfl]
    simp only [BitVec.getLsbD_zero, Bool.false_or, List.any_eq_true, List.mem_filter,
      decide_eq_true_eq]
    constructor
    · intro found
      obtain ⟨⟨s, j⟩, ⟨hs, hp⟩, rfl⟩ := found
      exact ⟨hi, s, List.mem_zipIdx_iff_getElem?.mp hs, hp⟩
    · intro found
      obtain ⟨-, s, hs, hp⟩ := found
      exact ⟨(s, i), ⟨List.mem_zipIdx_iff_getElem?.mpr hs, hp⟩, rfl⟩
  · rw [BitVec.getLsbD_of_ge _ _ (Nat.le_of_not_lt hi)]
    simp [hi]

theorem ofPredicate_congr {p p' : SubWait → Bool} {entries : List SubWait}
    (same : ∀ s ∈ entries, p' s = p s) : ofPredicate p' entries = ofPredicate p entries := by
  unfold ofPredicate
  rw [List.filter_congr fun x hx => same x.1 (List.fst_mem_of_mem_zipIdx hx)]

end ReadySet

theorem length_filter_range (p : Nat → Bool) {n : Nat} (hp : ∀ i, p i = true → i < n) (m : Nat) :
    ((List.range m).filter p).length ≤ n := by
  have bounded : ((List.range m).filter p).length ≤ min m n := by
    induction m with
    | zero => simp
    | succ m ih =>
      rw [List.range_succ, List.filter_append, List.length_append, List.filter_cons,
        List.filter_nil]
      cases hm : p m with
      | false => simp; omega
      | true =>
        have := hp m hm
        simp; omega
  omega

namespace Combination

variable {c : Combination} {p p' : SubWait → Bool}

/-- More conditions that hold are still enough. -/
theorem isMetBy_mono (mono : ∀ s ∈ c.entries, p' s = true → p s = true)
    (met : c.isMetBy (.ofPredicate p' c.entries) = true) :
    c.isMetBy (.ofPredicate p c.entries) = true := by
  have grows : ∀ i, (ReadySet.ofPredicate p' c.entries).contains i = true →
      (ReadySet.ofPredicate p c.entries).contains i = true := by
    intro i hi
    obtain ⟨small, s, hs, hp⟩ := (ReadySet.contains_ofPredicate p' _ i).mp hi
    exact (ReadySet.contains_ofPredicate p _ i).mpr
      ⟨small, s, hs, mono s (List.mem_of_getElem? hs) hp⟩
  have bounded : (ReadySet.ofPredicate p c.entries).toList.length ≤ c.entries.length := by
    refine length_filter_range _ (fun i hi => ?_) 32
    obtain ⟨-, s, hs, -⟩ := (ReadySet.contains_ofPredicate p _ i).mp hi
    exact (List.getElem?_eq_some_iff.mp hs).1
  unfold isMetBy at *
  cases kind : c.combinator with
  | every =>
    simp only [kind, decide_eq_true_eq] at met ⊢
    refine Nat.le_antisymm bounded (Nat.le_trans (Nat.le_of_eq met.symm) ?_)
    unfold ReadySet.toList Word.positions
    rw [← List.countP_eq_length_filter, ← List.countP_eq_length_filter]
    exact List.countP_mono_left fun i _ => grows i
  | some =>
    simp only [kind, ReadySet.isEmpty, Bool.not_eq_true', decide_eq_false_iff_not] at met ⊢
    intro none
    refine met (BitVec.eq_of_getLsbD_eq fun i hi => ?_)
    have out : (ReadySet.ofPredicate p c.entries).contains i = false := by
      unfold ReadySet.contains
      rw [none]
      simp
    cases bit : (ReadySet.ofPredicate p' c.entries).bits.getLsbD i with
    | false => simp
    | true => rw [grows i bit] at out; cases out

end Combination

namespace Kernel

/-- What waits depend on. -/
def objects (k : Kernel) : Kernel :=
  { config := k.config, mutexes := k.mutexes, events := k.events, queues := k.queues,
    heapLock := k.heapLock }

/-- No wait for a single object has come true. -/
def Quieter (k k' : Kernel) : Prop :=
  ∀ w, (∀ c, w ≠ .multi c) → k'.holds w = true → k.holds w = true

variable {k k' k'' : Kernel}

theorem objects_of_bare (h : k'.bare = k.bare) : k'.objects = k.objects := by
  have := congrArg objects h
  exact this

theorem objects_dispatch (k : Kernel) : k.dispatch.objects = k.objects := by
  obtain ⟨_, _, _, _, _, same⟩ := k.dispatch_eq
  rw [same]
  rfl

theorem multiWaits_dispatch (k : Kernel) : k.dispatch.multiWaits = k.multiWaits := by
  obtain ⟨_, _, _, _, _, same⟩ := k.dispatch_eq
  rw [same]

theorem queues_of_objects (h : k'.objects = k.objects) : k'.queues = k.queues := by
  have := congrArg queues h
  exact this

theorem holds_of_objects (h : k'.objects = k.objects) (w : WaitState) :
    k'.holds w = k.holds w := by
  have same : ∀ k : Kernel, k.objects.holds w = k.holds w := by
    intro k
    cases w with
    | mutex m mask => cases m <;> rfl
    | _ => rfl
  rw [← same k', h, same k]

namespace Quieter

theorem of_objects (h : k'.objects = k.objects) : k.Quieter k' :=
  fun w _ hw => (holds_of_objects h w).symm.trans hw

theorem trans (h : k.Quieter k') (h' : k'.Quieter k'') : k.Quieter k'' :=
  fun w single hw => h w single (h' w single hw)

/-- No wait has come true. -/
theorem holds (h : k.Quieter k') (w : WaitState) (hw : k'.holds w = true) : k.holds w = true := by
  cases w with
  | multi c =>
    refine Combination.isMetBy_mono (fun s _ hs => ?_) hw
    rw [holdsAlone_eq_holds] at hs ⊢
    refine h s.alone (fun c => ?_) hs
    cases s with
    | event => simp [SubWait.alone]
    | queue q condition => cases condition <;> simp [SubWait.alone]
  | _ => exact h _ (by simp) hw

end Quieter

theorem isClear_of_or {w mask' mask : Word} (h : (w ||| mask').isClear mask = true) :
    w.isClear mask = true := by
  unfold Word.isClear at *
  simp only [decide_eq_true_eq] at *
  refine BitVec.eq_of_getLsbD_eq fun i _ => ?_
  have bit := congrArg (·.getLsbD i) h
  simp only [BitVec.getLsbD_and, BitVec.getLsbD_or] at bit ⊢
  revert bit
  cases w.getLsbD i <;> cases mask.getLsbD i <;> simp

theorem and_without {w bits mask : Word} (h : w &&& bits = 0) : w.without mask &&& bits = 0 := by
  unfold Word.without
  rw [BitVec.and_assoc, BitVec.and_comm (~~~mask), ← BitVec.and_assoc, h]
  exact BitVec.zero_and

theorem mutex_setMutex (k : Kernel) (m n : MutexName) (w : Word) :
    (k.setMutex m w).mutex n = if m = n then w else k.mutex n := by
  cases m <;> cases n <;> simp [setMutex, mutex]
  split <;> rfl

theorem event_setMutex (k : Kernel) (m : MutexName) (w : Word) (e : Nat) :
    (k.setMutex m w).event e = k.event e := by
  cases m <;> rfl

theorem multiWaits_setMutex (k : Kernel) (m : MutexName) (w : Word) :
    (k.setMutex m w).multiWaits = k.multiWaits := by
  cases m <;> rfl

/-- Setting bits of a mutex makes no wait true. -/
theorem quieter_lock (k : Kernel) (m : MutexName) (mask : Word) :
    k.Quieter (k.setMutex m (k.mutex m ||| mask)) := by
  intro w single hw
  cases w with
  | mutex n bits =>
    simp only [holds, mutex_setMutex] at hw ⊢
    split at hw
    · rename_i same
      subst same
      exact isClear_of_or hw
    · exact hw
  | event e bits =>
    simp only [holds, matched, event_setMutex, decide_eq_true_eq] at hw
    exact decide_eq_true hw
  | queueFull q =>
    simpa only [holds, hasRoom, ring_setMutex] using hw
  | queueEmpty q =>
    simpa only [holds, hasMessage, ring_setMutex] using hw
  | multi c => exact absurd rfl (single c)
  | run | suspended | timer => exact hw

theorem ring_setRing (k : Kernel) (q i : Nat) (r : Option Ring) :
    (k.setRing q r).ring i = if q = i then r else k.ring i := by
  unfold setRing ring
  rw [Table.get_modify]
  split <;> rfl

theorem mutex_setRing (k : Kernel) (q : Nat) (r : Option Ring) (m : MutexName) :
    (k.setRing q r).mutex m = k.mutex m := by
  cases m with
  | queue i =>
    unfold setRing mutex
    dsimp only
    rw [Table.get_modify]
    split <;> rfl
  | object | heap => rfl

theorem event_clearEvent (k : Kernel) (e i : Nat) (mask : Word) :
    (k.clearEvent e mask).event i =
      if e = i then (k.event i).without mask else k.event i := by
  unfold clearEvent setEvent event
  rw [Table.get_set]
  split
  · rename_i same
    rw [same]
  · rfl

/-- Clearing bits of an event makes no wait true. -/
theorem quieter_clearEvent (k : Kernel) (e : Nat) (mask : Word) :
    k.Quieter (k.clearEvent e mask) := by
  intro w single hw
  cases w with
  | event i bits =>
    simp only [holds, matched, event_clearEvent, decide_eq_true_eq] at hw
    refine decide_eq_true fun none => hw ?_
    split
    · exact and_without none
    · exact none
  | mutex n bits => cases n <;> exact hw
  | multi c => exact absurd rfl (single c)
  | _ => exact hw

theorem quieter_consume (k : Kernel) (ready : ReadySet) (entries : List SubWait) :
    k.Quieter (k.consume ready entries) := by
  unfold consume
  generalize entries.zipIdx = xs
  induction xs generalizing k with
  | nil => exact .of_objects rfl
  | cons x xs ih =>
    refine Quieter.trans ?_ (ih _)
    rcases x with ⟨_ | _, i⟩
    · dsimp only
      split
      · exact k.quieter_clearEvent _ _
      · exact .of_objects rfl
    · exact .of_objects rfl

end Kernel

end TaskKernel
