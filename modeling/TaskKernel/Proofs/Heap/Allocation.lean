import TaskKernel.Proofs.Heap.Trail

namespace TaskKernel.Heap

section Chain

variable {m m' : Memory} {e p q : Nat} {z : Block} {pre post : List Block}

/-- Replacing a block of a chain by other blocks at its place. -/
theorem Chain.splice (h : Chain m e p q (pre ++ z :: post)) {mid : List Block}
    (hm : Chain m' (link e post) z.start z.stop mid) (hne : mid ≠ [])
    (hframe : ∀ c, ¬ z.Covers c → m'.get c = m.get c) :
    Chain m' e p q (pre ++ (mid ++ post)) := by
  obtain ⟨r, hpre, hrest⟩ := Chain.append_iff.mp h
  obtain ⟨rfl, -, -, hpost⟩ := Chain.cons_iff.mp hrest
  have first : link e (mid ++ post) = z.start := by
    cases mid with
    | nil => exact absurd rfl hne
    | cons y ys => exact (Chain.cons_iff.mp hm).1.symm
  refine Chain.append_iff.mpr ⟨z.start, ?_, Chain.append_iff.mpr ⟨z.stop, hm, ?_⟩⟩
  · rw [first]
    exact hpre.preserve_outside fun c _ h2 => hframe c fun h => Nat.lt_irrefl c
      (Nat.lt_of_lt_of_le h2 h.1)
  · exact hpost.preserve_outside fun c h1 _ => hframe c fun h => Nat.lt_irrefl c
      (Nat.lt_of_lt_of_le h.2 h1)

theorem Chain.head_at (h : Chain m e p q (pre ++ z :: post)) :
    Headed m z (link e post) ∧ z.size % alignment = 0 ∧ p ≤ z.start ∧ z.stop ≤ q := by
  obtain ⟨r, -, hrest⟩ := Chain.append_iff.mp h
  obtain ⟨-, ha, head, -⟩ := Chain.cons_iff.mp hrest
  exact ⟨head, ha, h.bounds (by simp)⟩

theorem Chain.link_lt (h : Chain m 0 p q (pre ++ z :: post)) (hq : q < addressSpace) :
    link 0 post < addressSpace := by
  cases post with
  | nil => decide
  | cons y ys =>
    have := (h.bounds (x := y) (by simp)).2
    change y.start < addressSpace
    unfold Block.stop at this
    omega

/-- A free or busy block becomes the other. -/
theorem Chain.setBlockState (h : Chain m e p q (pre ++ z :: post)) (isFree : Bool) :
    Chain (m.setBlockState z.start (if isFree then freeTag else busyTag)) e p q
      (pre ++ { z with isFree } :: post) := by
  obtain ⟨head, ha, -, -⟩ := h.head_at
  have mid : Chain (m.setBlockState z.start (if isFree then freeTag else busyTag)) (link e post)
      z.start z.stop [{ z with isFree }] :=
    Chain.cons_iff.mpr ⟨rfl, ha, head.setBlockState isFree, .nil _⟩
  refine h.splice mid (by simp) fun c hc => ?_
  refine Memory.get_setNat_of_outside _ _ _ _ _ ?_
  simp only [Block.Covers, Block.stop, headerSize] at hc
  omega

/-- What is made of a free block of which `want` bytes are taken: a busy block, and a free one if
enough is left over. -/
def Block.occupied (z : Block) (want : Nat) : List Block :=
  if headerSize + minRemainder ≤ z.size - want then
    [{ z with size := want, isFree := false },
      { start := z.start + headerSize + want, size := z.size - want - headerSize, isFree := true }]
  else [{ z with isFree := false }]

theorem get_occupy {want c : Nat} (hw : want ≤ z.size) (hs : m.blockSize z.start = z.size)
    (hc : ¬ z.Covers c) : (occupy m z.start want).get c = m.get c := by
  simp only [Block.Covers, Block.stop, headerSize] at hc
  simp only [occupy, hs, Memory.setBlockState, headerSize]
  rw [Memory.get_setNat_of_outside _ _ _ _ _ (by omega)]
  split
  · rename_i hr
    unfold minRemainder alignment at hr
    simp only [Memory.setBlockNext, Memory.setBlockSize]
    rw [Memory.get_setNat_of_outside _ _ _ _ _ (by omega),
      Memory.get_setNat_of_outside _ _ _ _ _ (by omega), get_setFreeBlock _ _ _ _ _ (by
        unfold headerSize
        omega)]
  · rfl

/-- Taking bytes from a free block leaves a chain. -/
theorem Chain.occupy (h : Chain m 0 p q (pre ++ z :: post)) (hq : q < addressSpace)
    {want : Nat} (hw : want ≤ z.size) (ha : want % alignment = 0) :
    Chain (Heap.occupy m z.start want) 0 p q (pre ++ (z.occupied want ++ post)) := by
  obtain ⟨head, haz, -, hle⟩ := h.head_at
  have hl := h.link_lt hq
  refine h.splice ?_ (by unfold Block.occupied; split <;> simp)
    fun c hc => get_occupy hw head.size hc
  unfold Block.stop at hle
  unfold Block.occupied Heap.occupy
  simp only [head.size, head.next]
  split
  · rename_i hr
    unfold minRemainder alignment headerSize at hr
    unfold headerSize at hle
    have small : z.size - want - headerSize < addressSpace := by omega
    have rest := Headed.of_setFreeBlock m (z.start + headerSize + want) small hl
    have first : Headed (m.setFreeBlock (z.start + headerSize + want)
        (z.size - want - headerSize) (link 0 post)) z (link 0 post) :=
      head.preserve fun c _ h2 => get_setFreeBlock _ _ _ _ _
        (Or.inl (Nat.lt_of_lt_of_le h2 (Nat.le_add_right ..)))
    have size_lt : want < addressSpace := by omega
    have next_lt : z.start + headerSize + want < addressSpace := by
      unfold headerSize
      omega
    have cut := ((first.setBlockSize size_lt).setBlockNext next_lt).setBlockState false
    refine Chain.cons_iff.mpr ⟨rfl, ha, cut, Chain.cons_iff.mpr ⟨rfl, ?_, rest.preserve ?_, ?_⟩⟩
    · change (z.size - want - headerSize) % alignment = 0
      unfold alignment headerSize at *
      omega
    · intro c h1 _
      change z.start + headerSize + want ≤ c at h1
      unfold headerSize at h1
      simp only [Memory.setBlockState, Memory.setBlockNext, Memory.setBlockSize]
      rw [Memory.get_setNat_of_outside _ _ _ _ _ (by omega),
        Memory.get_setNat_of_outside _ _ _ _ _ (by omega),
        Memory.get_setNat_of_outside _ _ _ _ _ (by omega)]
    · have hs : z.start + headerSize + want + headerSize + (z.size - want - headerSize) =
          z.start + headerSize + z.size := by
        unfold headerSize
        omega
      unfold Block.stop
      rw [hs]
      exact .nil _
  · exact Chain.cons_iff.mpr ⟨rfl, haz, head.setBlockState false, .nil _⟩

end Chain

/-- Merging free blocks makes no busy address free. -/
theorem FreeAt.of_coalesce {m : Memory} {e p q c : Nat} {xs : List Block}
    (chain : Chain m e p q xs) (found : FreeAt (coalesce xs) c) : FreeAt xs c := by
  induction chain with
  | nil => exact found
  | cons x xs aligned head tail ih =>
    rw [coalesce] at found
    split at found
    · obtain ⟨z, hz, there⟩ := found
      exact ⟨z, List.mem_singleton.mp hz ▸ List.mem_cons_self, there⟩
    rename_i y ys merged
    rw [merged] at ih
    have later : FreeAt (x :: y :: ys) c → FreeAt (x :: xs) c := by
      intro found
      obtain ⟨z, hz, free, covers⟩ := found
      rcases List.mem_cons.mp hz with he | ht
      · exact ⟨x, by simp, he ▸ free, he ▸ covers⟩
      · exact (ih ⟨z, ht, free, covers⟩).cons x
    split at found
    · rename_i both
      obtain ⟨hx, hy⟩ := Bool.and_eq_true_iff.mp both
      refine later (.of_merge hx hy ?_ found)
      cases xs with
      | nil => cases merged
      | cons z zs =>
        obtain ⟨y', ys', split, start, -⟩ := coalesce_cons z zs
        rw [merged] at split
        obtain ⟨rfl, -⟩ := List.cons.inj split
        rw [start]
        exact (Chain.cons_iff.mp tail).1.symm
    · exact later found

theorem Stats.pairs_le (xs : List Block) : pairs false xs ≤ pairs true xs := by
  cases xs with
  | nil => exact Nat.le_refl _
  | cons x xs =>
    unfold pairs
    cases x.isFree <;> simp

/-- Taking bytes from a free block makes no new pair of free neighbours. -/
theorem pairs_occupied {z : Block} (hz : z.isFree = true) (want : Nat) (post : List Block)
    (a : Bool) (pre : List Block) (h : Stats.pairs a (pre ++ z :: post) = 0) :
    Stats.pairs a (pre ++ (z.occupied want ++ post)) = 0 := by
  induction pre generalizing a with
  | nil =>
    have hle := Stats.pairs_le post
    simp only [List.nil_append, Stats.pairs, hz, Bool.true_and] at h ⊢
    unfold Block.occupied
    split <;> simp [Stats.pairs] <;> omega
  | cons x xs ih =>
    simp only [List.cons_append, Stats.pairs] at h ⊢
    have := ih x.isFree (by omega)
    omega

/-- An allocation in a carved region merges all free neighbours, and then takes the best block if
there is one that is large enough. -/
theorem Placed.allocAligned_select {h : Heap} (hp : Placed h) (hf : h.first = h.base) {m : Memory}
    {xs : List Block} (hc : Chain m 0 h.base h.limit xs) (hx : xs ≠ []) (want : Nat) :
    ∃ m', Merges h.limit m xs m' (coalesce xs) ∧ Chain m' 0 h.base h.limit (coalesce xs) ∧
      (∀ c, ¬ FreeAt xs c → m'.get c = m.get c) ∧
      (((∀ y ∈ coalesce xs, y.isFree = true → y.size < want) ∧
          h.allocAligned m want = ⟨h, m', [.noFit want], .error (.refused .heapExhausted)⟩) ∨
        ∃ pre z post, coalesce xs = pre ++ z :: post ∧ Block.IsBest want pre z post ∧
          h.allocAligned m want = ⟨h, occupy m' z.start want, [], .ok z.payload⟩) := by
  have trail : Trail h m 0 h.base (xs ++ []) :=
    Chain.trail hc hp.base_aligned (Nat.le_refl _) (.nil _)
  rw [List.append_nil] at trail
  obtain ⟨m', ys, trimmed, served⟩ := hp.allocAligned_trail hf trail (hc.link_eq hx) .null want
  obtain ⟨chain, merges⟩ := trimmed.joins.chain hp.limit_lt hp.base_aligned hc
  have frame : ∀ c, ¬ FreeAt xs c → m'.get c = m.get c := fun c busy =>
    trimmed.frame c fun found => busy found.freeAt
  generalize h.allocAligned m want = o at served ⊢
  cases served with
  | halted halts =>
    cases halts with
    | overflow bursts => exact absurd bursts (hc.not_bursts hp.limit_lt)
  | exhausted small => exact ⟨m', merges, chain, frame, .inl ⟨small, rfl⟩⟩
  | granted split best => exact ⟨m', merges, chain, frame, .inr ⟨_, _, _, split, best, rfl⟩⟩

/-- What an allocation in a carved region does to the chain. -/
theorem Placed.allocAligned_chain {h : Heap} (hp : Placed h) (hf : h.first = h.base) {m : Memory}
    {xs : List Block} (hc : Chain m 0 h.base h.limit xs) (hx : xs ≠ []) {want : Nat}
    (ha : want % alignment = 0) :
    ∃ m' ys, Chain m' 0 h.base h.limit ys ∧ Stats.pairs false ys = 0 ∧
      (∀ c, ¬ FreeAt xs c → m'.get c = m.get c) ∧
      ((h.allocAligned m want = ⟨h, m', [.noFit want], .error (.refused .heapExhausted)⟩ ∧
          ys = coalesce xs) ∨
        ∃ pre z post, coalesce xs = pre ++ z :: post ∧ z.isFree = true ∧ want ≤ z.size ∧
          ys = pre ++ (z.occupied want ++ post) ∧
          h.allocAligned m want = ⟨h, m', [], .ok z.payload⟩) := by
  obtain ⟨m₁, -, hc₁, hframe, hcases⟩ := hp.allocAligned_select hf hc hx want
  have pairs := pairs_coalesce xs
  rcases hcases with ⟨-, ho⟩ | ⟨pre, z, post, hsplit, best, ho⟩
  · exact ⟨m₁, coalesce xs, hc₁, pairs, hframe, .inl ⟨ho, rfl⟩⟩
  · have hm : z ∈ coalesce xs := by simp [hsplit]
    have hz := hc₁
    rw [hsplit] at hz pairs
    refine ⟨occupy m₁ z.start want, pre ++ (z.occupied want ++ post),
      hz.occupy hp.limit_lt best.room ha, pairs_occupied best.free want post false pre pairs, ?_,
      .inr ⟨pre, z, post, hsplit, best.free, best.room, rfl, ho⟩⟩
    intro c hn
    have outside : ¬ z.Covers c := fun hzc => hn (.of_coalesce hc ⟨z, hm, best.free, hzc⟩)
    rw [get_occupy best.room hz.head_at.1.size outside, hframe c hn]

end TaskKernel.Heap
