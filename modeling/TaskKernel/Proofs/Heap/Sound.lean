import Mathlib.Data.List.Nodup
import TaskKernel.Proofs.Heap.Allocation

namespace TaskKernel.Heap

structure Allocation where
  address : Nat
  size : Nat
  deriving DecidableEq

def Allocation.Covers (x : Allocation) (c : Nat) : Prop := x.address ≤ c ∧ c < x.address + x.size

/-- The busy blocks are the allocations, each with room for the bytes asked for. -/
structure Serves (xs : List Block) (live : List Allocation) : Prop where
  perm : ((xs.filter (!·.isFree)).map Block.payload).Perm (live.map Allocation.address)
  room : ∀ x ∈ live, ∃ b ∈ xs, b.isFree = false ∧ b.payload = x.address ∧ max x.size 1 ≤ b.size

/-- A heap of the region, either never used or with a chain whose busy blocks are `live`. -/
inductive Sound (r : Region) : Heap → Memory → List Allocation → Prop where
  | uncarved (m : Memory) : Sound r r.heap m []
  | carved {m : Memory} {xs : List Block} {live : List Allocation} (used : 0 < r.heap.size)
      (chain : Chain m 0 r.heap.base r.heap.limit xs) (serves : Serves xs live) :
      Sound r r.carved m live

namespace Serves

variable {xs : List Block} {live : List Allocation}

theorem exists_block (h : Serves xs live) {x : Allocation} (hx : x ∈ live) :
    ∃ b ∈ xs, b.isFree = false ∧ b.payload = x.address ∧ x.size ≤ b.size := by
  obtain ⟨b, hb, hf, hp, hs⟩ := h.room x hx
  exact ⟨b, hb, hf, hp, by omega⟩

theorem nodup {m : Memory} {e p q : Nat} (h : Serves xs live) (hc : Chain m e p q xs) :
    (live.map Allocation.address).Nodup := by
  refine h.perm.nodup_iff.mp (List.pairwise_map.mpr ?_)
  have sub := hc.apart.sublist (List.filter_sublist (p := (!·.isFree)))
  refine sub.imp ?_
  intro x y hxy
  unfold Block.stop headerSize at hxy
  unfold Block.payload
  omega

theorem exists_covers (h : Serves xs live) {x : Allocation} (hx : x ∈ live) {c : Nat}
    (hcov : x.Covers c) :
    ∃ b ∈ xs, b.isFree = false ∧ b.payload = x.address ∧ b.payload ≤ c ∧ b.Covers c := by
  obtain ⟨b, hb, hbf, hbp, hbs⟩ := h.exists_block hx
  obtain ⟨h1, h2⟩ := hcov
  refine ⟨b, hb, hbf, hbp, by omega, ?_⟩
  simp only [Block.Covers, Block.stop, Block.payload] at hbp ⊢
  omega

theorem not_freeAt {m : Memory} {e p q : Nat} (h : Serves xs live) (hc : Chain m e p q xs)
    {x : Allocation} (hx : x ∈ live) {c : Nat} (hcov : x.Covers c) : ¬ FreeAt xs c := by
  intro found
  obtain ⟨z, hz, hzf, hzc⟩ := found
  obtain ⟨b, hb, hbf, -, -, covers⟩ := h.exists_covers hx hcov
  rw [hc.eq_of_covers hb hz covers hzc, hzf] at hbf
  cases hbf

/-- No header lies in an allocation. -/
theorem off_header {m : Memory} {e p q : Nat} (h : Serves xs live) (hc : Chain m e p q xs)
    {x : Allocation} (hx : x ∈ live) {z : Block} (hz : z ∈ xs) {c : Nat} (hcov : x.Covers c) :
    ¬ (z.start ≤ c ∧ c < z.payload) := by
  intro found
  obtain ⟨h1, h2⟩ := found
  obtain ⟨b, hb, -, -, hbc, covers⟩ := h.exists_covers hx hcov
  have := hc.eq_of_covers hb hz covers ⟨h1, Nat.lt_of_lt_of_le h2 (Nat.le_add_right ..)⟩
  subst this
  exact Nat.not_le_of_lt h2 hbc

/-- Allocations share no byte. -/
theorem eq_of_covers {m : Memory} {e p q : Nat} (h : Serves xs live) (hc : Chain m e p q xs)
    {x y : Allocation} (hx : x ∈ live) (hy : y ∈ live) {c : Nat} (hxc : x.Covers c)
    (hyc : y.Covers c) : x = y := by
  obtain ⟨b, hb, -, hbp, -, hbc⟩ := h.exists_covers hx hxc
  obtain ⟨d, hd, -, hdp, -, hdc⟩ := h.exists_covers hy hyc
  have := hc.eq_of_covers hb hd hbc hdc
  subst this
  exact List.inj_on_of_nodup_map (h.nodup hc) hx hy (hbp.symm.trans hdp)

/-- Merging free blocks and taking one of them serves one more allocation. -/
theorem occupied (h : Serves xs live) {pre post : List Block} {z : Block}
    (hs : coalesce xs = pre ++ z :: post) (hz : z.isFree = true) {size want : Nat}
    (hw : want ≤ z.size) (hsize : max size 1 ≤ want) :
    Serves (pre ++ (z.occupied want ++ post)) (⟨z.payload, size⟩ :: live) := by
  have busy : ∃ b ∈ z.occupied want, b.isFree = false ∧ b.payload = z.payload ∧
      max size 1 ≤ b.size ∧ (z.occupied want).filter (!·.isFree) = [b] := by
    unfold Block.occupied
    split
    · exact ⟨{ z with size := want, isFree := false }, by simp, rfl, rfl, hsize, by simp⟩
    · exact ⟨{ z with isFree := false }, by simp, rfl, rfl, Nat.le_trans hsize hw, by simp⟩
  obtain ⟨b, hb, hbf, hbp, hbs, hfilter⟩ := busy
  have old := filter_busy_coalesce xs
  rw [hs, List.filter_append, List.filter_cons] at old
  simp only [hz, Bool.not_true, Bool.false_eq_true, if_false] at old
  constructor
  · rw [List.filter_append, List.filter_append, hfilter, List.map_append, List.map_append,
      List.map_singleton, hbp, List.map_cons]
    refine List.perm_middle.trans (.cons _ ?_)
    have := h.perm
    rw [← old, List.map_append] at this
    exact this
  · intro x hx
    rcases List.mem_cons.mp hx with he | ht
    · subst x
      exact ⟨b, by simp [hb], hbf, hbp, hbs⟩
    · obtain ⟨y, hy, hyf, hyp, hys⟩ := h.room x ht
      have : y ∈ pre ++ z :: post := by
        rw [← hs]
        exact (mem_coalesce_of_busy hyf).mpr hy
      refine ⟨y, ?_, hyf, hyp, hys⟩
      rcases List.mem_append.mp this with hl | hr
      · simp [hl]
      · rcases List.mem_cons.mp hr with he | hp
        · subst y
          rw [hz] at hyf
          cases hyf
        · simp [hp]

theorem coalesce (h : Serves xs live) : Serves (coalesce xs) live := by
  refine ⟨by rw [filter_busy_coalesce]; exact h.perm, fun x hx => ?_⟩
  obtain ⟨b, hb, hbf, hbp, hbs⟩ := h.room x hx
  exact ⟨b, (mem_coalesce_of_busy hbf).mpr hb, hbf, hbp, hbs⟩

/-- Giving a busy block back serves one allocation less. -/
theorem released {m : Memory} {e p q : Nat} {pre post : List Block} {z : Block}
    (hc : Chain m e p q (pre ++ z :: post)) (h : Serves (pre ++ z :: post) live)
    (hz : z.isFree = false) :
    Serves (pre ++ { z with isFree := true } :: post)
      (live.filter (·.address ≠ z.payload)) := by
  have nodup := h.nodup hc
  have before := h.perm
  rw [List.filter_append, List.filter_cons] at before
  simp only [hz, Bool.not_false, if_true, List.map_append, List.map_cons] at before
  constructor
  · rw [List.filter_append, List.filter_cons]
    simp only [Bool.not_true, Bool.false_eq_true, if_false, List.map_append]
    have cut := (List.perm_middle.symm.trans before).filter (· ≠ z.payload)
    have fresh := (List.perm_middle.symm.trans before).nodup_iff.mpr nodup
    have keep := (List.nodup_cons.mp fresh).1
    rw [List.filter_cons] at cut
    simp only [ne_eq, not_true_eq_false, decide_false, Bool.false_eq_true, if_false] at cut
    rw [List.filter_eq_self.mpr] at cut
    · refine cut.trans (.of_eq ?_)
      rw [List.filter_map]
      rfl
    · intro a ha
      simp only [decide_eq_true_eq]
      intro he
      exact keep (he ▸ ha)
  · intro x hx
    obtain ⟨hx, hne⟩ := List.mem_filter.mp hx
    obtain ⟨b, hb, hbf, hbp, hbs⟩ := h.room x hx
    refine ⟨b, ?_, hbf, hbp, hbs⟩
    rcases List.mem_append.mp hb with hl | hr
    · simp [hl]
    · rcases List.mem_cons.mp hr with he | ht
      · subst b
        simp [hbp] at hne
      · simp [ht]

end Serves

variable {r : Region} {h : Heap} {m : Memory} {live : List Allocation}

theorem le_alignUp (x : Nat) : x ≤ alignUp x ∧ alignUp x % alignment = 0 := by
  simp only [alignUp, alignment]
  omega

theorem Chain.ne_nil {e p q : Nat} {xs : List Block} (hc : Chain m e p q xs) (hlt : p < q) :
    xs ≠ [] := by
  intro he
  subst he
  cases hc
  exact Nat.lt_irrefl _ hlt

/-- Carving makes the whole region one free block. -/
theorem Region.carve_chain (r : Region) (m : Memory)
    (hs : headerSize + minRemainder ≤ r.heap.size) :
    Chain (m.setFreeBlock r.heap.base (r.heap.size - headerSize) 0) 0 r.heap.base r.heap.limit
      [⟨r.heap.base, r.heap.size - headerSize, true⟩] := by
  have lower := r.limit_le (Nat.lt_of_lt_of_le (by decide) hs)
  have upper := r.stop_lt
  have aligned := r.size_aligned
  unfold headerSize minRemainder alignment at hs
  unfold limit at lower
  refine Chain.cons_iff.mpr ⟨rfl, ?_, .of_setFreeBlock _ _ (by omega) (by decide), ?_⟩
  · change (r.heap.size - headerSize) % alignment = 0
    unfold headerSize alignment at *
    omega
  · have : Block.stop ⟨r.heap.base, r.heap.size - headerSize, true⟩ = r.heap.limit := by
      change r.heap.base + headerSize + (r.heap.size - headerSize) = r.heap.base + r.heap.size
      unfold headerSize
      omega
    rw [this]
    exact .nil _

structure Allocated (r : Region) (m : Memory) (live : List Allocation) (size : Nat)
    (o : Outcome Nat) : Prop where
  sound : (∃ a, o.result = .ok a ∧ Sound r o.heap o.memory (⟨a, size⟩ :: live)) ∨
    (o.result = .error (.refused .heapExhausted) ∧ Sound r o.heap o.memory live)
  frame : ∀ x ∈ live, ∀ c, x.Covers c → o.memory.get c = m.get c
  merged : (∃ a, o.result = .ok a) ∨ (∃ n, .noFit n ∈ o.reports) →
    (o.heap.check o.memory).1.map Stats.adjacentFreePairs = .ok 0

theorem Allocated.of_chain {xs : List Block} (used : 0 < r.heap.size)
    (hc : Chain m 0 r.heap.base r.heap.limit xs) (hs : Serves xs live) (size : Nat) :
    Allocated r m live size (r.carved.allocAligned m (alignUp (max size 1))) := by
  obtain ⟨large, aligned⟩ := le_alignUp (max size 1)
  have base_lt : r.heap.base < r.heap.limit := by
    unfold limit
    omega
  obtain ⟨m', ys, hc', hpairs, hframe, hcases⟩ :=
    (r.placed used).allocAligned_chain rfl hc (hc.ne_nil base_lt) aligned
  have check : (r.carved.check m').1.map Stats.adjacentFreePairs = .ok 0 := by
    rw [(r.placed used).check_chain rfl hc' (hc'.ne_nil base_lt)]
    rw [Except.map, ← Stats.pairs_eq, hpairs]
  have frame : ∀ x ∈ live, ∀ c, x.Covers c → m'.get c = m.get c := fun x hx c hcov =>
    hframe c (hs.not_freeAt hc hx hcov)
  rcases hcases with ⟨ho, rfl⟩ | ⟨pre, z, post, hsplit, hz, hw, rfl, ho⟩
  · rw [ho]
    exact ⟨.inr ⟨rfl, .carved used hc' hs.coalesce⟩, frame, fun _ => check⟩
  · rw [ho]
    exact ⟨.inl ⟨_, rfl, .carved used hc' (hs.occupied hsplit hz hw large)⟩, frame, fun _ => check⟩

/-- An allocation from a sound heap. -/
theorem Sound.alloc (hs : Sound r h m live) (size : Nat) :
    Allocated r m live size (h.alloc m size) := by
  unfold Heap.alloc
  split
  · refine ⟨.inr ⟨rfl, hs⟩, fun _ _ _ _ => rfl, ?_⟩
    rintro (⟨a, ha⟩ | ⟨n, hn⟩)
    · cases ha
    · simp at hn
  cases hs with
  | uncarved =>
    rw [if_pos (show r.heap.first = 0 from rfl)]
    unfold carve
    split
    · refine ⟨.inr ⟨rfl, .uncarved m⟩, fun _ _ _ _ => rfl, fun _ => rfl⟩
    · rename_i hlarge
      have hlarge := Nat.le_of_not_lt hlarge
      have used : 0 < r.heap.size := Nat.lt_of_lt_of_le (by decide) hlarge
      have serves : Serves [⟨r.heap.base, r.heap.size - headerSize, true⟩] [] :=
        ⟨.refl _, by simp⟩
      have after := Allocated.of_chain used (r.carve_chain m hlarge) serves size
      refine ⟨after.sound, by simp, fun ho => after.merged ?_⟩
      rcases ho with ho | ⟨n, hn⟩
      · exact .inl ho
      · exact .inr ⟨n, by simpa [Region.carved] using hn⟩
  | carved used chain serves =>
    have pos := r.base_pos
    rw [if_neg (show r.carved.first ≠ 0 by simp only [Region.carved]; omega)]
    exact .of_chain used chain serves size

theorem Sound.nodup (hs : Sound r h m live) : (live.map Allocation.address).Nodup := by
  cases hs with
  | uncarved => exact .nil
  | carved used chain serves => exact serves.nodup chain

theorem Sound.hasRegion (hs : Sound r h m live) : h.hasRegion = true := by
  have := r.base_pos
  unfold Heap.hasRegion
  cases hs with
  | uncarved => exact decide_eq_true (Nat.ne_of_gt this)
  | carved => exact decide_eq_true (Nat.ne_of_gt this)

/-- Every allocation lies in the region. -/
theorem Sound.inside (hs : Sound r h m live) {x : Allocation} (hx : x ∈ live) :
    r.start ≤ x.address ∧ x.address + x.size ≤ r.start + r.length := by
  cases hs with
  | uncarved => cases hx
  | carved used chain serves =>
    obtain ⟨b, hb, -, hbp, hbs⟩ := serves.exists_block hx
    have within := chain.bounds hb
    have lower := r.start_le
    have upper := r.limit_le used
    simp only [Block.payload, Block.stop] at *
    omega

theorem Sound.eq_of_covers (hs : Sound r h m live) {x y : Allocation} (hx : x ∈ live)
    (hy : y ∈ live) {c : Nat} (hxc : x.Covers c) (hyc : y.Covers c) : x = y := by
  cases hs with
  | uncarved => cases hx
  | carved used chain serves => exact serves.eq_of_covers chain hx hy hxc hyc

/-- Only what lies in the region outside the allocations belongs to the heap. -/
theorem Sound.store {m' : Memory} (hs : Sound r h m live)
    (same : ∀ c, r.start ≤ c → c < r.start + r.length → (∀ x ∈ live, ¬ x.Covers c) →
      m'.get c = m.get c) : Sound r h m' live := by
  cases hs with
  | uncarved => exact .uncarved m'
  | carved used chain serves =>
    refine .carved used (chain.preserve fun z hz c lower upper => ?_) serves
    have within := chain.bounds hz
    have start := r.start_le
    have stop := r.limit_le used
    unfold Block.stop at within
    have header : z.start ≤ c ∧ c < z.payload := ⟨lower, upper⟩
    refine same c (by omega) ?_ fun x hx covers => serves.off_header chain hx hz covers header
    unfold Block.payload at upper
    omega

/-- The payload of a block is given back if the block is busy. -/
theorem Region.free_payload (r : Region) {xs : List Block}
    (chain : Chain m 0 r.heap.base r.heap.limit xs) {z : Block} (hz : z ∈ xs) (room : 0 < z.size) :
    r.carved.free m z.payload =
      if z.isFree then
        ⟨r.carved, m, [.freedTwice z.payload], .error (.refused .doubleFree)⟩
      else ⟨r.carved, m.setBlockState z.start freeTag, [], .ok ()⟩ := by
  have pos := r.base_pos
  have aligned := chain.start_aligned r.base_aligned hz
  have base_aligned := r.base_aligned
  obtain ⟨pre, post, rfl⟩ := List.append_of_mem hz
  obtain ⟨head, -, lower, upper⟩ := chain.head_at
  have state := head.state
  unfold Block.stop headerSize at upper
  unfold Block.stateTag at state
  unfold Heap.free
  rw [if_neg (by
    simp only [Region.carved, Block.payload, limit, alignment, headerSize] at *
    omega)]
  simp only [Block.payload, Nat.add_sub_cancel, head.tag, state, ne_eq, not_true_eq_false, if_false]
  cases z.isFree <;> rfl

/-- Giving a live allocation back to a sound heap. -/
theorem Sound.free (hs : Sound r h m live) {a : Nat} (ha : a ∈ live.map Allocation.address) :
    (h.free m a).result = .ok () ∧
      Sound r (h.free m a).heap (h.free m a).memory (live.filter (·.address ≠ a)) ∧
      ∀ x ∈ live, ∀ c, x.Covers c → (h.free m a).memory.get c = m.get c := by
  cases hs with
  | uncarved => simp at ha
  | @carved _ xs _ used chain serves =>
    obtain ⟨x, hx, rfl⟩ := List.mem_map.mp ha
    obtain ⟨z, hz, hzf, hzp, hzs⟩ := serves.room x hx
    have accepted := r.free_payload chain hz (by omega)
    rw [hzf, if_neg Bool.false_ne_true] at accepted
    obtain ⟨pre, post, rfl⟩ := List.append_of_mem hz
    rw [← hzp, accepted]
    refine ⟨rfl, .carved used (chain.setBlockState true) (serves.released chain hzf), ?_⟩
    intro y hy c hcov
    have off := serves.off_header chain hy hz hcov
    refine Memory.get_setNat_of_outside _ _ _ _ _ ?_
    simp only [Block.payload, headerSize] at off
    omega

end TaskKernel.Heap
