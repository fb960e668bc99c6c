import Mathlib.Data.List.SplitBy
import TaskKernel.Proofs.Heap.Session

namespace TaskKernel.Heap

def Block.joins (x y : Block) : Bool := x.isFree && y.isFree

/-- The blocks in groups: each busy block alone, and the longest runs of free neighbours. -/
def runs (xs : List Block) : List (List Block) := xs.splitBy Block.joins

/-- What a run holds as one block. All its headers but the first become payload. -/
def capacity (g : List Block) : Nat := (g.map Block.size).sum + headerSize * (g.length - 1)

def whole : List Block → Block
  | [] => ⟨0, 0, false⟩
  | x :: g => { x with size := capacity (x :: g) }

def IsFreeRun (g : List Block) : Prop := ∀ x ∈ g, x.isFree = true

/-- The run at this place is the first of the smallest runs that are large enough. -/
structure IsBestRun (want : Nat) (pre : List (List Block)) (g : List Block)
    (post : List (List Block)) : Prop where
  free : IsFreeRun g
  room : want ≤ capacity g
  before : ∀ f ∈ pre, IsFreeRun f → want ≤ capacity f → capacity g < capacity f
  after : ∀ f ∈ post, IsFreeRun f → want ≤ capacity f → capacity g ≤ capacity f

/-- A heap of the region, either never used or with this chain of blocks. -/
inductive Laid (r : Region) : Heap → Memory → List Block → Prop where
  | uncarved (m : Memory) : Laid r r.heap m []
  | carved {m : Memory} {xs : List Block} (used : 0 < r.heap.size)
      (chain : Chain m 0 r.heap.base r.heap.limit xs) : Laid r r.carved m xs

def Region.uncut (r : Region) : List Block :=
  if headerSize + minRemainder ≤ r.heap.size then [⟨r.heap.base, r.heap.size - headerSize, true⟩]
  else []

/-- The memory as an allocation scans it. The first one writes the header of the whole region. -/
def Region.opened (r : Region) (h : Heap) (m : Memory) : Memory :=
  if h.first = 0 then m.setFreeBlock r.heap.base (r.heap.size - headerSize) 0 else m

theorem Region.opened_carved (r : Region) (m : Memory) : r.opened r.carved m = m :=
  if_neg (Nat.ne_of_gt r.base_pos)

theorem Region.opened_uncarved (r : Region) (m : Memory) :
    r.opened r.heap m = m.setFreeBlock r.heap.base (r.heap.size - headerSize) 0 := if_pos rfl

inductive Offers (r : Region) : Heap → Memory → List Block → Prop where
  | uncarved (m : Memory) : Offers r r.heap m r.uncut
  | carved {m : Memory} {xs : List Block} (used : 0 < r.heap.size)
      (chain : Chain m 0 r.heap.base r.heap.limit xs) : Offers r r.carved m xs

inductive Grants (want : Nat) (xs : List Block) : Except Failure Nat → List Block → Prop where
  | exhausted (full : ∀ g ∈ runs xs, IsFreeRun g → capacity g < want) :
      Grants want xs (.error (.refused .heapExhausted)) ((runs xs).map whole)
  | granted {pre post : List (List Block)} {g : List Block} (split : runs xs = pre ++ g :: post)
      (best : IsBestRun want pre g post) :
      Grants want xs (.ok (whole g).payload)
        (pre.map whole ++ ((whole g).occupied want ++ post.map whole))

section Runs

variable {xs ys g : List Block}

theorem merge_whole (x y : Block) (g : List Block) :
    x.merge (whole (y :: g)) = whole (x :: y :: g) := by
  simp only [whole, Block.merge, capacity, Block.mk.injEq, true_and, and_true, List.map_cons,
    List.sum_cons, List.length_cons, Nat.add_sub_cancel]
  rw [Nat.mul_add]
  omega

/-- A run is merged into one block, up to a neighbour that does not belong to it. -/
theorem coalesce_run (ne : g ≠ []) (run : g.IsChain fun x y => x.joins y = true)
    (stop : ∀ y ∈ ys.head?, (g.getLast ne).joins y = false) :
    coalesce (g ++ ys) = whole g :: coalesce ys := by
  induction g with
  | nil => exact absurd rfl ne
  | cons x g ih =>
    cases g with
    | nil =>
      rw [List.singleton_append, coalesce_cons_of_not_both x ys stop]
      simp [whole, capacity]
    | cons y g =>
      obtain ⟨both, run⟩ := List.isChain_cons_cons.mp run
      have joined : (x.isFree && (whole (y :: g)).isFree) = true := both
      rw [List.cons_append, coalesce, ih (by simp) run stop]
      simp only [joined, if_true, merge_whole]

theorem coalesce_flatten {gs : List (List Block)} (full : [] ∉ gs)
    (run : ∀ g ∈ gs, g.IsChain fun x y => x.joins y = true)
    (apart : gs.IsChain fun f g => ∃ hf hg, (f.getLast hf).joins (g.head hg) = false) :
    coalesce gs.flatten = gs.map whole := by
  induction gs with
  | nil => rfl
  | cons g gs ih =>
    have ne : g ≠ [] := fun empty => full (empty ▸ List.mem_cons_self)
    have full : [] ∉ gs := fun member => full (List.mem_cons_of_mem g member)
    obtain ⟨own, run⟩ := List.forall_mem_cons.mp run
    have stop : ∀ y ∈ gs.flatten.head?, (g.getLast ne).joins y = false := by
      intro y first
      cases gs with
      | nil => cases first
      | cons f gs =>
        obtain ⟨⟨_, hf, parted⟩, -⟩ := List.isChain_cons_cons.mp apart
        rw [List.flatten_cons, List.head?_append_of_ne_nil _ hf,
          List.head?_eq_some_head hf] at first
        cases first
        exact parted
    rw [List.flatten_cons, coalesce_run ne own stop, ih full run apart.tail, List.map_cons]

/-- Merging all free neighbours makes one block of each run. -/
theorem coalesce_eq (xs : List Block) : coalesce xs = (runs xs).map whole := by
  have merged := coalesce_flatten (List.nil_notMem_splitBy Block.joins xs)
    (fun _ member => List.isChain_of_mem_splitBy member) (List.isChain_getLast_head_splitBy _ xs)
  rwa [List.flatten_splitBy] at merged

/-- A run that starts with a free block is free. -/
theorem isFreeRun_iff (member : g ∈ runs xs) : IsFreeRun g ↔ (whole g).isFree = true := by
  have run := List.isChain_of_mem_splitBy member
  have ne := List.ne_nil_of_mem_splitBy member
  clear member
  induction g with
  | nil => exact absurd rfl ne
  | cons x g ih =>
    refine ⟨fun free => free x List.mem_cons_self, fun free => List.forall_mem_cons.mpr ⟨free, ?_⟩⟩
    cases g with
    | nil => simp
    | cons y g =>
      obtain ⟨both, run⟩ := List.isChain_cons_cons.mp run
      exact (ih run (by simp)).mpr (Bool.and_eq_true_iff.mp both).2

theorem size_whole (member : g ∈ runs xs) : (whole g).size = capacity g := by
  cases g with
  | nil => exact absurd rfl (List.ne_nil_of_mem_splitBy member)
  | cons x g => rfl

end Runs

namespace Offers

variable {r : Region} {h : Heap} {m : Memory} {xs : List Block} {size : Nat}

theorem opened (offers : Offers r h m xs) (ne : xs ≠ []) :
    0 < r.heap.size ∧ Chain (r.opened h m) 0 r.heap.base r.heap.limit xs := by
  cases offers with
  | uncarved =>
    unfold Region.uncut at ne ⊢
    split at ne
    · rename_i large
      rw [if_pos large, r.opened_uncarved]
      exact ⟨Nat.lt_of_lt_of_le (by decide) large, r.carve_chain m large⟩
    · exact absurd rfl ne
  | carved used chain =>
    rw [r.opened_carved]
    exact ⟨used, chain⟩

theorem alloc_eq (offers : Offers r h m xs) (ne : xs ≠ [])
    (fits : max size 1 + (alignment - 1) < addressSpace) : ∃ reports, h.alloc m size =
      { r.carved.allocAligned (r.opened h m) (alignUp (max size 1)) with reports } := by
  unfold Heap.alloc
  rw [if_neg (Nat.not_le_of_lt fits)]
  cases offers with
  | uncarved =>
    unfold Region.uncut at ne
    split at ne
    · rename_i large
      rw [if_pos (show r.heap.first = 0 from rfl), r.opened_uncarved]
      unfold carve
      rw [if_neg (Nat.not_lt_of_le large)]
      exact ⟨_, rfl⟩
    · exact absurd rfl ne
  | carved used chain =>
    rw [if_neg (show r.carved.first ≠ 0 from Nat.ne_of_gt r.base_pos), r.opened_carved]
    exact ⟨_, rfl⟩

/-- A region without room for a block stays as it is. -/
theorem alloc_nil (offers : Offers r h m []) (fits : max size 1 + (alignment - 1) < addressSpace) :
    h = r.heap ∧ ∃ reports,
      h.alloc m size = ⟨h, m, reports, .error (.refused .heapExhausted)⟩ := by
  unfold Heap.alloc
  rw [if_neg (Nat.not_le_of_lt fits)]
  generalize none : ([] : List Block) = xs at offers
  cases offers with
  | uncarved =>
    unfold Region.uncut at none
    split at none
    · cases none
    · rename_i small
      rw [if_pos (show r.heap.first = 0 from rfl)]
      unfold carve
      rw [if_pos (Nat.lt_of_not_le small)]
      exact ⟨rfl, _, rfl⟩
  | carved used chain =>
    have base_lt : r.heap.base < r.heap.limit := Nat.lt_add_of_pos_right used
    exact absurd none.symm (chain.ne_nil base_lt)

end Offers

namespace Grants

variable {xs ys : List Block} {want : Nat} {result : Except Failure Nat}

/-- The best of the merged blocks is the best of the runs. -/
theorem of_isBest {pre post : List Block} {z : Block} (split : coalesce xs = pre ++ z :: post)
    (best : Block.IsBest want pre z post) :
    Grants want xs (.ok z.payload) (pre ++ (z.occupied want ++ post)) := by
  rw [coalesce_eq] at split
  obtain ⟨pre, rest, whole_split, rfl, tail⟩ := List.map_eq_append_iff.mp split
  obtain ⟨g, post, rfl, rfl, rfl⟩ := List.map_eq_cons_iff.mp tail
  have member : ∀ f, f ∈ pre ∨ f = g ∨ f ∈ post → f ∈ runs xs := by
    intro f
    simp [whole_split]
  have here := member g (.inr (.inl rfl))
  refine .granted whole_split ⟨(isFreeRun_iff here).mpr best.free, ?_, ?_, ?_⟩
  · rw [← size_whole here]
    exact best.room
  · intro f among free room
    have there := member f (.inl among)
    rw [← size_whole there] at room ⊢
    rw [← size_whole here]
    exact best.before _ (List.mem_map_of_mem among) ((isFreeRun_iff there).mp free) room
  · intro f among free room
    have there := member f (.inr (.inr among))
    rw [← size_whole there] at room ⊢
    rw [← size_whole here]
    exact best.after _ (List.mem_map_of_mem among) ((isFreeRun_iff there).mp free) room

theorem of_small (small : ∀ y ∈ coalesce xs, y.isFree = true → y.size < want) :
    Grants want xs (.error (.refused .heapExhausted)) (coalesce xs) := by
  rw [coalesce_eq] at small ⊢
  refine .exhausted fun g member free => ?_
  rw [← size_whole member]
  exact small _ (List.mem_map_of_mem member) ((isFreeRun_iff member).mp free)

/-- An allocation fails for want of a run that is large enough, and for nothing else. -/
theorem exhausted_iff (h : Grants want xs result ys) :
    result = .error (.refused .heapExhausted) ↔ ∀ g ∈ runs xs, IsFreeRun g → capacity g < want := by
  cases h with
  | exhausted full => exact ⟨fun _ => full, fun _ => rfl⟩
  | @granted pre post g split best =>
    refine ⟨fun failed => (by cases failed), fun full => ?_⟩
    have member : g ∈ runs xs := by simp [split]
    exact absurd best.room (Nat.not_le_of_lt (full g member best.free))

theorem busy (h : Grants want xs result ys) {b : Block} (member : b ∈ xs)
    (busy : b.isFree = false) : b ∈ ys := by
  have merged := (mem_coalesce_of_busy busy).mpr member
  rw [coalesce_eq] at merged
  cases h with
  | exhausted => exact merged
  | @granted pre post g split best =>
    have here : g ∈ runs xs := by simp [split]
    have other : b ≠ whole g := by
      intro same
      have free := (isFreeRun_iff here).mp best.free
      rw [← same, busy] at free
      cases free
    rw [split, List.map_append, List.map_cons] at merged
    rcases List.mem_append.mp merged with before | after
    · exact List.mem_append_left _ before
    · have later := (List.mem_cons.mp after).resolve_left other
      exact List.mem_append_right _ (List.mem_append_right _ later)

end Grants

/-- An allocation from the blocks that are there is best fit. -/
theorem Offers.grants {r : Region} {h : Heap} {m : Memory} {xs : List Block} {size : Nat}
    (offers : Offers r h m xs) (fits : max size 1 + (alignment - 1) < addressSpace) :
    ∃ ys, Laid r (h.alloc m size).heap (h.alloc m size).memory ys ∧
      Grants (alignUp (max size 1)) xs (h.alloc m size).result ys := by
  by_cases none : xs = []
  · subst none
    obtain ⟨rfl, reports, allocates⟩ := offers.alloc_nil fits
    rw [allocates]
    exact ⟨[], .uncarved m, .of_small (by simp [coalesce])⟩
  · obtain ⟨used, chain⟩ := offers.opened none
    obtain ⟨reports, allocates⟩ := offers.alloc_eq none fits
    obtain ⟨m', -, merged, -, cases⟩ := (r.placed used).allocAligned_select rfl chain none
      (alignUp (max size 1))
    rw [allocates]
    rcases cases with ⟨small, same⟩ | ⟨pre, z, post, split, best, same⟩
    · rw [same]
      exact ⟨_, .carved used merged, .of_small small⟩
    · rw [same]
      rw [split] at merged
      have limit_lt := (r.placed used).limit_lt
      exact ⟨_, .carved used (merged.occupy limit_lt best.room (le_alignUp _).2),
        .of_isBest split best⟩

namespace Session

variable {r : Region} {s : Session}

theorem Reached.offers (h : Reached r s) : ∃ xs, Offers r s.heap s.memory xs := by
  obtain ⟨heap, memory, live⟩ := s
  cases h.sound with
  | uncarved => exact ⟨_, .uncarved _⟩
  | carved used chain => exact ⟨_, .carved used chain⟩

/-- Over every history: an allocation takes the smallest sufficient run of free blocks, the lowest
one among equals, and fails only if there is none. All other runs become single free blocks, what
is left over of the chosen one becomes a free block if it has room for one, and busy blocks stay as
they are. A size that leaves the address space when it is rounded up is refused. -/
theorem Reached.best_fit (h : Reached r s) (size : Nat) :
    (max size 1 + (alignment - 1) < addressSpace → ∃ xs ys, Offers r s.heap s.memory xs ∧
      Laid r (s.heap.alloc s.memory size).heap (s.heap.alloc s.memory size).memory ys ∧
      Grants (alignUp (max size 1)) xs (s.heap.alloc s.memory size).result ys ∧
      ((s.heap.alloc s.memory size).result = .error (.refused .heapExhausted) ↔
        ∀ g ∈ runs xs, IsFreeRun g → capacity g < alignUp (max size 1)) ∧
      ∀ b ∈ xs, b.isFree = false → b ∈ ys) ∧
    (addressSpace ≤ max size 1 + (alignment - 1) → s.heap.alloc s.memory size =
      ⟨s.heap, s.memory, [.sizeOverflow size], .error (.refused .heapExhausted)⟩) := by
  constructor
  · intro fits
    obtain ⟨xs, offers⟩ := h.offers
    obtain ⟨ys, laid, grants⟩ := offers.grants fits
    exact ⟨xs, ys, offers, laid, grants, grants.exhausted_iff, fun _ => grants.busy⟩
  · intro large
    unfold Heap.alloc
    rw [if_pos large]

/-- Free blocks of 40 bytes, of twice 16 bytes side by side, and of the rest of the region. -/
def fragmented : Session :=
  ((((((((⟨ofRegion 4096 400, {}, []⟩ : Session).act (.alloc 40)).act (.alloc 1)).act
    (.alloc 9)).act (.alloc 16)).act (.alloc 8)).act (.free 4120)).act (.free 4216)).act
    (.free 4256)

theorem best_fit_fragmented : Reached ⟨4096, 400, by decide, by decide⟩ fragmented ∧
    ∃ xs ys, Offers ⟨4096, 400, by decide, by decide⟩ fragmented.heap fragmented.memory xs ∧
      Grants 56 xs (.ok 4216) ys := by
  have taken : Reached ⟨4096, 400, by decide, by decide⟩ _ :=
    (((((Reached.init {}).act (.alloc 40) trivial).act (.alloc 1) trivial).act (.alloc 9)
      trivial).act (.alloc 16) trivial).act (.alloc 8) trivial
  have first := taken.act (.free 4120) (by unfold Allows; decide +kernel)
  have second := first.act (.free 4216) (by unfold Allows; decide +kernel)
  have reached : Reached ⟨4096, 400, by decide, by decide⟩ fragmented :=
    second.act (.free 4256) (by unfold Allows; decide +kernel)
  obtain ⟨xs, ys, offers, -, grants, -⟩ := (reached.best_fit 50).1 (by decide)
  have result : (fragmented.heap.alloc fragmented.memory 50).result = .ok 4216 := by
    decide +kernel
  rw [result] at grants
  exact ⟨reached, xs, ys, offers, grants⟩

end Session

end TaskKernel.Heap
