import TaskKernel.Proofs.Heap.Chain

namespace TaskKernel.Heap

structure Placed (h : Heap) : Prop where
  base_pos : 0 < h.base
  base_aligned : h.base % alignment = 0
  limit_lt : h.limit < addressSpace

/-- Memory that may be given to a heap: none of it at address zero, all in the address space. -/
structure Region where
  start : Nat
  length : Nat
  start_pos : 0 < start
  stop_lt : start + length < addressSpace

namespace Region

variable (r : Region)

def heap : Heap := ofRegion r.start r.length

def carved : Heap := { r.heap with first := r.heap.base }

theorem start_le : r.start ≤ r.heap.base := by
  simp only [heap, ofRegion, alignUp, alignment]
  omega

theorem limit_le (h : 0 < r.heap.size) : r.heap.limit ≤ r.start + r.length := by
  simp only [heap, ofRegion, limit, alignUp, alignDown, alignment] at h ⊢
  omega

theorem base_pos : 0 < r.heap.base := Nat.lt_of_lt_of_le r.start_pos r.start_le

theorem base_aligned : r.heap.base % alignment = 0 := by
  simp only [heap, ofRegion, alignUp, alignment]
  omega

theorem size_aligned : r.heap.size % alignment = 0 := by
  simp only [heap, ofRegion, alignUp, alignDown, alignment]
  omega

theorem placed (h : 0 < r.heap.size) : Placed r.carved :=
  ⟨r.base_pos, r.base_aligned, Nat.lt_of_le_of_lt (r.limit_le h) r.stop_lt⟩

end Region

/-- A block with its header in the region has no flaw. -/
theorem Placed.flaw_eq_none {h : Heap} (hp : Placed h) {m : Memory} {x : Block} {next : Nat}
    (head : Headed m x next) (lower : h.base ≤ x.start) (inside : x.payload ≤ h.limit)
    (aligned : x.start % alignment = 0) : h.flaw m x.start = none := by
  have limit_lt := hp.limit_lt
  have state : m.blockState x.start = freeTag ∨ m.blockState x.start = busyTag := by
    rw [head.state]
    unfold Block.stateTag
    cases x.isFree <;> simp
  unfold Block.payload at inside
  unfold flaw
  rw [if_neg (by omega), if_neg (by omega), if_neg (by omega), if_neg (by simp [head.tag]),
    if_neg (by rcases state with state | state <;> simp [state])]

theorem flaw_of_tags {h : Heap} {m m' : Memory} {b : Nat} (tag : m'.blockTag b = m.blockTag b)
    (state : m'.blockState b = m.blockState b) : h.flaw m' b = h.flaw m b := by
  unfold flaw
  rw [tag, state]

/-- That no header can be at an address is seen without a look at the memory. -/
theorem flaw_of_place {h : Heap} {m : Memory} {b : Nat} {f : Flaw} (flaw : h.flaw m b = some f)
    (place : f ≠ .damaged) (m' : Memory) : h.flaw m' b = some f := by
  unfold Heap.flaw at flaw ⊢
  by_cases lower : b < h.base
  · rwa [if_pos lower] at flaw ⊢
  rw [if_neg lower] at flaw ⊢
  by_cases beyond : addressSpace ≤ b + headerSize
  · rwa [if_pos beyond] at flaw ⊢
  rw [if_neg beyond] at flaw ⊢
  by_cases outside : h.limit < b + headerSize ∨ b % alignment ≠ 0
  · rwa [if_pos outside] at flaw ⊢
  rw [if_neg outside] at flaw
  split at flaw
  · exact absurd (Option.some.inj flaw).symm place
  split at flaw
  · exact absurd (Option.some.inj flaw).symm place
  · cases flaw

theorem Headed.state_eq_freeTag {m : Memory} {x : Block} {next : Nat} (hx : Headed m x next) :
    m.blockState x.start = freeTag ↔ x.isFree = true := by
  rw [hx.state]
  unfold Block.stateTag
  cases x.isFree <;> decide

namespace Stats

def tally : Bool → Stats → List Block → Stats
  | _, s, [] => s
  | afterFree, s, x :: xs => tally x.isFree (s.add x.isFree afterFree x.size) xs

def pairs : Bool → List Block → Nat
  | _, [] => 0
  | afterFree, x :: xs => (if x.isFree && afterFree then 1 else 0) + pairs x.isFree xs

def ofBlocks (xs : List Block) : Stats where
  blocks := xs.length
  freeBlocks := xs.countP Block.isFree
  freeBytes := ((xs.filter Block.isFree).map Block.size).sum
  usedBytes := ((xs.filter (!·.isFree)).map Block.size).sum
  largestFree := ((xs.filter Block.isFree).map Block.size).foldr max 0
  adjacentFreePairs := (xs.zip xs.tail).countP fun (x, y) => x.isFree && y.isFree

/-- Counting blocks in adds the statistics of their list to what was counted before. -/
theorem tally_eq (a : Bool) (s : Stats) (xs : List Block) :
    tally a s xs =
      { blocks := s.blocks + (ofBlocks xs).blocks
        freeBlocks := s.freeBlocks + (ofBlocks xs).freeBlocks
        freeBytes := s.freeBytes + (ofBlocks xs).freeBytes
        usedBytes := s.usedBytes + (ofBlocks xs).usedBytes
        largestFree := max s.largestFree (ofBlocks xs).largestFree
        adjacentFreePairs := s.adjacentFreePairs + pairs a xs } := by
  induction xs generalizing a s with
  | nil => simp [tally, ofBlocks, pairs]
  | cons x xs ih =>
    rw [tally, ih]
    cases free : x.isFree <;>
      simp [add, ofBlocks, pairs, free, Nat.add_assoc, Nat.add_comm 1, Nat.max_assoc]

theorem pairs_cons (x : Block) (xs : List Block) :
    pairs x.isFree xs = ((x :: xs).zip xs).countP fun (x, y) => x.isFree && y.isFree := by
  induction xs generalizing x with
  | nil => rfl
  | cons y ys ih =>
    rw [pairs, ih, List.zip_cons_cons, List.countP_cons, Bool.and_comm, Nat.add_comm]

theorem pairs_eq (xs : List Block) : pairs false xs = (ofBlocks xs).adjacentFreePairs := by
  cases xs with
  | nil => rfl
  | cons x xs =>
    rw [pairs, Bool.and_false, pairs_cons]
    exact Nat.zero_add _

/-- Counting the blocks in one after the other gives the statistics of the whole list. -/
theorem tally_ofBlocks (xs : List Block) : tally false {} xs = ofBlocks xs := by
  rw [tally_eq, pairs_eq]
  simp only [Nat.zero_add, Nat.zero_max]

/-- Every byte of a chain is counted: as payload of a free or a busy block, or as header. -/
theorem bytes_ofBlocks (xs : List Block) :
    (ofBlocks xs).freeBytes + (ofBlocks xs).usedBytes + headerSize * (ofBlocks xs).blocks =
      (xs.map fun x => headerSize + x.size).sum := by
  induction xs with
  | nil => rfl
  | cons x xs ih =>
    rw [List.map_cons, List.sum_cons, ← ih]
    unfold headerSize
    cases free : x.isFree <;>
      simp only [ofBlocks, List.filter_cons, free, Bool.not_true, Bool.not_false, if_true,
        Bool.false_eq_true, if_false, List.map_cons, List.sum_cons, List.length_cons] <;> omega

end Stats

section Survey

variable {h : Heap} {m : Memory} {xs : List Block}

/-- The walk along blocks inside the region counts them in. -/
theorem Placed.survey_along (hp : Placed h) {e q : Nat} {xs : List Block}
    (spans : Spans m e p q xs) (straight : Straight xs) (lower : h.base ≤ p) (upper : q ≤ h.limit)
    (fuel : Nat) (a : Bool) (s : Stats) :
    ∃ a', h.survey m (fuel + xs.length) (link e xs) p a s =
      h.survey m fuel e q a' (s.tally a xs) := by
  induction spans generalizing a s with
  | nil p => exact ⟨a, rfl⟩
  | cons x xs head tail ih =>
    obtain ⟨aligned, straight⟩ := List.forall_mem_cons.mp straight
    have within := tail.le
    have limit_lt := hp.limit_lt
    have base_pos := hp.base_pos
    have later := x.start_le_stop
    have inside : x.payload ≤ h.limit :=
      Nat.le_trans x.payload_le_stop (Nat.le_trans within upper)
    obtain ⟨a', rest⟩ := ih straight (by omega) upper x.isFree (s.add x.isFree a x.size)
    refine ⟨a', .trans ?_ rest⟩
    have isFree : decide (m.blockState x.start = freeTag) = x.isFree := by
      simp [head.state_eq_freeTag]
    rw [List.length_cons, ← Nat.add_assoc, link, survey, if_neg (by omega), if_neg (by simp),
      hp.flaw_eq_none head lower inside aligned]
    simp only [head.size, head.next, isFree]
    unfold Block.stop at within
    rw [if_neg (by omega), if_neg (by omega)]
    rfl

/-- The check accepts blocks that tile the region at aligned addresses. -/
theorem Placed.check_spans (hp : Placed h) (carved : h.first = h.base)
    (spans : Spans m 0 h.base h.limit xs) (straight : Straight xs) (ne : xs ≠ []) :
    h.check m = (.ok (Stats.ofBlocks xs), []) := by
  have length_le := spans.length_le
  have base_pos := hp.base_pos
  unfold limit at length_le
  obtain ⟨fuel, enough⟩ := Nat.exists_eq_add_of_lt (show xs.length < h.size + 2 by omega)
  obtain ⟨a', along⟩ := hp.survey_along spans straight (Nat.le_refl _) (Nat.le_refl _)
    (fuel + 1) false {}
  rw [spans.link_eq ne] at along
  rw [check, if_neg (by omega), carved, show h.size + 2 = fuel + 1 + xs.length by omega, along,
    survey, if_pos rfl, if_pos rfl, Stats.tally_ofBlocks]

/-- The check accepts a chain that tiles the region. -/
theorem Placed.check_chain (hp : Placed h) (carved : h.first = h.base)
    (chain : Chain m 0 h.base h.limit xs) (ne : xs ≠ []) :
    h.check m = (.ok (Stats.ofBlocks xs), []) :=
  hp.check_spans carved chain.spans (fun _ mem => chain.start_aligned hp.base_aligned mem) ne

end Survey

end TaskKernel.Heap
