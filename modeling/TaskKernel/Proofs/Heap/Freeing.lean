import TaskKernel.Proofs.Heap.BestFit

namespace TaskKernel

namespace Memory

variable {m : Memory} {a n : Nat}

theorem nat_eq_zero (blank : ∀ c, a ≤ c → c < a + n → m.get c = 0) : m.nat a n = 0 := by
  induction n generalizing a with
  | zero => rfl
  | succ n ih =>
    have first := blank a (Nat.le_refl a) (by omega)
    have rest : m.nat (a + 1) n = 0 := ih fun c lower upper => blank c (by omega) (by omega)
    rw [nat, first, rest]
    rfl

/-- A number is read in two parts. -/
theorem nat_add (m : Memory) (a n k : Nat) :
    m.nat a (n + k) = m.nat a n + 256 ^ n * m.nat (a + n) k := by
  induction n generalizing a with
  | zero => simp [nat]
  | succ n ih =>
    rw [Nat.succ_add, nat, nat, ih, Nat.add_right_comm a 1 n, Nat.mul_add, ← Nat.add_assoc,
      ← Nat.mul_assoc, Nat.pow_succ', ← Nat.add_assoc]

end Memory

namespace Heap

/-- The bound on addresses and sizes below which none of them reads as a tag and a state. -/
def lowSpace : Nat := 0x4000000000000000

def Tagged (m : Memory) (w : Nat) : Prop :=
  m.blockTag w = blockTag ∧ (m.blockState w = freeTag ∨ m.blockState w = busyTag)

namespace Tagged

variable {m m' : Memory} {a b n v w : Nat}

theorem of_same (h : Tagged m' w) (same : ∀ c, w ≤ c → c < w + 8 → m'.get c = m.get c) :
    Tagged m w := by
  have tag : m'.blockTag w = m.blockTag w :=
    Memory.nat_congr fun c lower upper => same c lower (by omega)
  have state : m'.blockState w = m.blockState w :=
    Memory.nat_congr fun c lower upper => same c (by omega) (by omega)
  unfold Tagged at h
  rwa [tag, state] at h

/-- As a number, a tag and a state are out of reach for addresses and sizes. -/
theorem lowSpace_lt (h : Tagged m w) : lowSpace < m.nat w 8 := by
  have parts := m.nat_add w 4 4
  obtain ⟨-, state⟩ := h
  unfold Memory.blockState at state
  unfold lowSpace
  rcases state with state | state
  all_goals
    rw [state] at parts
    simp [freeTag, busyTag] at parts
    omega

/-- What is written into one cell changes no other. -/
theorem of_setNat (h : Tagged (m.setNat a n v) w) (aligned : w % alignment = 0)
    (cell : b % alignment = 0) (lower : b ≤ a) (upper : a + n ≤ b + 8) : w = b ∨ Tagged m w := by
  by_cases here : w = b
  · exact .inl here
  · refine .inr (h.of_same fun c first last => Memory.get_setNat_of_outside _ _ _ _ _ ?_)
    unfold alignment at aligned cell
    omega

/-- A cell that holds an address or a size is no header. -/
theorem of_setNat_low (h : Tagged (m.setNat b 8 v) w) (aligned : w % alignment = 0)
    (cell : b % alignment = 0) (low : v ≤ lowSpace) : Tagged m w := by
  rcases h.of_setNat aligned cell (Nat.le_refl b) (Nat.le_refl _) with rfl | before
  · have large := h.lowSpace_lt
    rw [Memory.nat_setNat_self] at large
    exact absurd (Nat.lt_of_lt_of_le large (Nat.mod_le _ _)) (Nat.not_lt_of_le low)
  · exact before

theorem of_setBlockSize (h : Tagged (m.setBlockSize b v) w) (aligned : w % alignment = 0)
    (start : b % alignment = 0) (low : v ≤ lowSpace) : Tagged m w :=
  h.of_setNat_low aligned (by unfold alignment at *; omega) low

theorem of_setBlockNext (h : Tagged (m.setBlockNext b v) w) (aligned : w % alignment = 0)
    (start : b % alignment = 0) (low : v ≤ lowSpace) : Tagged m w :=
  h.of_setNat_low aligned (by unfold alignment at *; omega) low

theorem of_setBlockState (h : Tagged (m.setBlockState b v) w) (aligned : w % alignment = 0)
    (start : b % alignment = 0) : w = b ∨ Tagged m w :=
  h.of_setNat aligned start (Nat.le_add_right b 4) (Nat.le_refl _)

theorem of_setBlockTag (h : Tagged (m.setBlockTag b v) w) (aligned : w % alignment = 0)
    (start : b % alignment = 0) : w = b ∨ Tagged m w :=
  h.of_setNat aligned start (Nat.le_refl b) (by omega)

theorem of_setFreeBlock {size next : Nat} (h : Tagged (m.setFreeBlock b size next) w)
    (aligned : w % alignment = 0) (start : b % alignment = 0) (size_low : size ≤ lowSpace)
    (next_low : next ≤ lowSpace) : w = b ∨ Tagged m w := by
  have sized := h.of_setBlockNext aligned start next_low
  rcases (sized.of_setBlockSize aligned start size_low).of_setBlockState aligned start with
    here | tagged
  · exact .inl here
  · exact tagged.of_setBlockTag aligned start

end Tagged

/-- What looks like a header is the header of a block, and no block is empty. -/
structure Legible (p q : Nat) (m : Memory) (xs : List Block) : Prop where
  room : ∀ x ∈ xs, alignment ≤ x.size
  starts : ∀ w, w % alignment = 0 → p ≤ w → w < q → Tagged m w → ∃ x ∈ xs, x.start = w

namespace Legible

variable {m m' : Memory} {p q w : Nat} {xs ys pre post : List Block} {x y z : Block}

/-- A block that was merged into the one before it has lost its tag. -/
theorem merges (h : Legible p q m xs) (low : q ≤ lowSpace) (merges : Merges q m xs m' ys) :
    Legible p q m' ys := by
  induction merges with
  | refl => exact h
  | @merge pre m m' x y post ys first second apart size next rest ih =>
    refine ih ⟨?_, ?_⟩
    · intro z member
      rcases List.mem_append.mp member with before | after
      · exact h.room z (by simp [before])
      · rcases List.mem_cons.mp after with rfl | later
        · exact Nat.le_trans (h.room x (by simp)) (Nat.le_add_right ..)
        · exact h.room z (by simp [later])
    · intro w aligned lower upper tagged
      by_cases absorbed : w = y.start
      · have tag := tagged.1
        rw [absorbed, Memory.blockTag_setBlockTag] at tag
        cases tag
      · have linked := (tagged.of_setBlockTag aligned second).resolve_left absorbed
        have sized := linked.of_setBlockNext aligned first (Nat.le_trans next low)
        have before := sized.of_setBlockSize aligned first (Nat.le_trans size low)
        obtain ⟨z, member, rfl⟩ := h.starts w aligned lower upper before
        simp only [List.mem_append, List.mem_cons] at member
        rcases member with early | rfl | rfl | late
        · exact ⟨z, by simp [early], rfl⟩
        · exact ⟨z.merge y, by simp, rfl⟩
        · exact absurd rfl absorbed
        · exact ⟨z, by simp [late], rfl⟩

theorem mem_replaced {mid : List Block} (first : ∃ y ∈ mid, y.start = z.start)
    (found : ∃ y ∈ pre ++ z :: post, y.start = w) : ∃ y ∈ pre ++ (mid ++ post), y.start = w := by
  obtain ⟨y, member, rfl⟩ := found
  rcases List.mem_append.mp member with early | rest
  · exact ⟨y, List.mem_append_left _ early, rfl⟩
  · rcases List.mem_cons.mp rest with rfl | late
    · obtain ⟨x, inside, same⟩ := first
      exact ⟨x, List.mem_append_right _ (List.mem_append_left _ inside), same⟩
    · exact ⟨y, List.mem_append_right _ (List.mem_append_right _ late), rfl⟩

/-- Blocks at the place of another one. -/
theorem splice (h : Legible p q m (pre ++ z :: post)) (mid : List Block)
    (first : ∃ y ∈ mid, y.start = z.start) (room : ∀ y ∈ mid, alignment ≤ y.size)
    (tagged : ∀ w, w % alignment = 0 → Tagged m' w → (∃ y ∈ mid, y.start = w) ∨ Tagged m w) :
    Legible p q m' (pre ++ (mid ++ post)) := by
  constructor
  · intro y member
    rcases List.mem_append.mp member with early | rest
    · exact h.room y (by simp [early])
    · rcases List.mem_append.mp rest with inside | late
      · exact room y inside
      · exact h.room y (by simp [late])
  · intro w aligned lower upper now
    rcases tagged w aligned now with ⟨y, inside, start⟩ | before
    · exact ⟨y, List.mem_append_right _ (List.mem_append_left _ inside), start⟩
    · exact mem_replaced first (h.starts w aligned lower upper before)

theorem setBlockState (h : Legible p q m (pre ++ z :: post)) (start : z.start % alignment = 0)
    (isFree : Bool) (v : Nat) :
    Legible p q (m.setBlockState z.start v) (pre ++ { z with isFree } :: post) := by
  refine h.splice [{ z with isFree }] ⟨_, List.mem_cons_self, rfl⟩ ?_ ?_
  · intro y member
    cases List.mem_singleton.mp member
    exact h.room z (by simp)
  · intro w aligned now
    rcases now.of_setBlockState aligned start with rfl | before
    · exact .inl ⟨_, List.mem_cons_self, rfl⟩
    · exact .inr before

/-- The headers that an allocation writes are those of the blocks it makes. -/
theorem occupy (h : Legible p q m (pre ++ z :: post)) (hc : Chain m 0 p q (pre ++ z :: post))
    (start : z.start % alignment = 0) (low : q ≤ lowSpace) {want : Nat}
    (aligned : want % alignment = 0) (room : want ≤ z.size) (some : alignment ≤ want) :
    Legible p q (Heap.occupy m z.start want) (pre ++ (z.occupied want ++ post)) := by
  obtain ⟨head, -, -, upper⟩ := hc.head_at
  have next_low : link 0 post ≤ lowSpace := by
    obtain ⟨_, -, rest⟩ := Chain.append_iff.mp hc
    exact Nat.le_trans (Chain.cons_iff.mp rest).2.2.2.link_le low
  unfold Block.stop at upper
  unfold Block.occupied Heap.occupy
  simp only [head.size, head.next]
  split
  · rename_i split
    unfold headerSize minRemainder at split
    have second : (z.start + headerSize + want) % alignment = 0 := by
      unfold headerSize alignment at *
      omega
    have rest_low : z.start + headerSize + want ≤ lowSpace := by omega
    refine h.splice _ ⟨_, List.mem_cons_self, rfl⟩ ?_ ?_
    · intro y member
      simp only [List.mem_cons, List.not_mem_nil, or_false] at member
      rcases member with rfl | rfl
      · exact some
      · change alignment ≤ z.size - want - headerSize
        unfold headerSize
        omega
    · intro w cell now
      rcases now.of_setBlockState cell start with rfl | linked
      · exact .inl ⟨_, List.mem_cons_self, rfl⟩
      · have sized := linked.of_setBlockNext cell start rest_low
        have made := sized.of_setBlockSize cell start (by omega)
        rcases made.of_setFreeBlock cell second (by omega) next_low with rfl | before
        · exact .inl ⟨_, List.mem_cons_of_mem _ List.mem_cons_self, rfl⟩
        · exact .inr before
  · exact h.setBlockState start false busyTag

/-- Bytes that are stored without looking like a header change nothing. -/
theorem store (h : Legible p q m xs) {a : Nat} {bytes : List UInt8}
    (plain : ∀ w, w % alignment = 0 → w < a + bytes.length → a < w + 8 →
      ¬ Tagged (m.setBytes a bytes) w) : Legible p q (m.setBytes a bytes) xs := by
  refine ⟨h.room, fun w aligned lower upper now => h.starts w aligned lower upper ?_⟩
  by_cases hit : w < a + bytes.length ∧ a < w + 8
  · exact absurd now (plain w aligned hit.1 hit.2)
  · refine now.of_same fun c first last => ?_
    rw [Memory.get_setBytes, if_neg]
    omega

end Legible

namespace Legible

variable {r : Region} {h : Heap} {m : Memory} {xs : List Block}

/-- Blank memory has no headers. -/
theorem of_blank (blank : ∀ c, r.start ≤ c → c < r.start + r.length → m.get c = 0) :
    Legible r.heap.base r.heap.limit m [] := by
  refine ⟨by simp, fun w aligned lower upper tagged => ?_⟩
  have start := r.start_le
  have stop := r.limit_le (by unfold limit at upper; omega)
  have whole : w + 8 ≤ r.heap.limit := by
    have base_aligned := r.base_aligned
    have size_aligned := r.size_aligned
    unfold limit alignment at *
    omega
  have zero : m.blockTag w = 0 :=
    Memory.nat_eq_zero fun c first last => blank c (by omega) (by omega)
  have tag := tagged.1
  rw [zero] at tag
  cases tag

/-- The first allocation writes the header of the block that the region was all along. -/
theorem opened (legible : Legible r.heap.base r.heap.limit m []) (low : r.heap.limit ≤ lowSpace)
    (ne : r.uncut ≠ []) : Legible r.heap.base r.heap.limit (r.opened r.heap m) r.uncut := by
  rw [r.opened_uncarved]
  unfold Region.uncut at ne ⊢
  split at ne
  · rename_i large
    rw [if_pos large]
    unfold headerSize minRemainder at large
    have size_low : r.heap.size - headerSize ≤ lowSpace := by
      unfold limit at low
      omega
    constructor
    · intro x member
      cases List.mem_singleton.mp member
      change alignment ≤ r.heap.size - headerSize
      unfold headerSize
      omega
    · intro w aligned lower upper tagged
      rcases tagged.of_setFreeBlock aligned r.base_aligned size_low (Nat.zero_le _) with
        rfl | before
      · exact ⟨_, List.mem_cons_self, rfl⟩
      · exact absurd (legible.starts w aligned lower upper before) (by simp)
  · exact absurd rfl ne

end Legible

/-- The heap keeps its region. -/
theorem Laid.region {r : Region} {h : Heap} {m : Memory} {xs : List Block} (laid : Laid r h m xs) :
    h.base = r.heap.base ∧ h.limit = r.heap.limit := by
  cases laid <;> exact ⟨rfl, rfl⟩

theorem Region.size_pos_of_uncut {r : Region} (ne : r.uncut ≠ []) : 0 < r.heap.size := by
  unfold Region.uncut at ne
  split at ne
  · rename_i large
    exact Nat.lt_of_lt_of_le (by decide) large
  · exact absurd rfl ne

/-- No client holds any of the region before its first use. -/
theorem Serves.uncut (r : Region) : Serves r.uncut [] := by
  refine ⟨?_, by simp⟩
  unfold Region.uncut
  split <;> exact .refl _

namespace Session

variable {r : Region} {s : Session} {xs : List Block} {a size : Nat}

/-- Clients may give back any address. They write inside the payloads that they hold, and leave no
bytes there that read as a tag and a state. -/
def Permits (s : Session) : Action → Prop
  | .alloc _ => True
  | .free _ => True
  | .write a bytes =>
    (∃ x ∈ s.live, x.address ≤ a ∧
      a + bytes.length ≤ x.address + s.memory.blockSize (x.address - headerSize)) ∧
    ∀ w, w % alignment = 0 → w < a + bytes.length → a < w + 8 →
      ¬ Tagged (s.memory.setBytes a bytes) w

/-- The states that such clients can bring a heap to whose region was blank. -/
inductive Traced (r : Region) : Session → Prop where
  | init (m : Memory) (blank : ∀ c, r.start ≤ c → c < r.start + r.length → m.get c = 0) :
      Traced r ⟨ofRegion r.start r.length, m, []⟩
  | act {s : Session} (h : Traced r s) (a : Action) (ok : s.Permits a) : Traced r (s.act a)

structure Frees (s : Session) (xs : List Block) (a : Nat) : Prop where
  ok : (s.heap.free s.memory a).result = .ok () ↔ a ∈ s.live.map Allocation.address
  twice : (s.heap.free s.memory a).result = .error (.refused .doubleFree) ↔
    ∃ z ∈ xs, z.isFree = true ∧ z.payload = a
  corrupted : (s.heap.free s.memory a).result = .error (.refused .heapCorrupted) ↔
    a ∉ s.live.map Allocation.address ∧ ¬ ∃ z ∈ xs, z.isFree = true ∧ z.payload = a
  refused (e : Failure) : (s.heap.free s.memory a).result = .error e →
    (s.heap.free s.memory a).heap = s.heap ∧ (s.heap.free s.memory a).memory = s.memory
  marked : (s.heap.free s.memory a).result = .ok () → (s.heap.free s.memory a).heap = s.heap ∧
    (s.heap.free s.memory a).memory = s.memory.setBlockState (a - headerSize) freeTag

structure Marked (r : Region) (s : Session) (xs : List Block) : Prop where
  laid : Laid r s.heap s.memory xs
  serves : Serves xs s.live
  legible : Legible r.heap.base r.heap.limit s.memory xs

inductive Freed (r : Region) (s : Session) (xs : List Block) (a : Nat) : Prop where
  | busy {z : Block} (member : z ∈ xs) (busy : z.isFree = false) (start : z.payload = a)
      (carved : s.heap = r.carved)
      (frees : s.heap.free s.memory a =
        ⟨s.heap, s.memory.setBlockState z.start freeTag, [], .ok ()⟩)
  | free {z : Block} (member : z ∈ xs) (free : z.isFree = true) (start : z.payload = a)
      {reports : List Report}
      (frees : s.heap.free s.memory a = ⟨s.heap, s.memory, reports, .error (.refused .doubleFree)⟩)
  | foreign (reports : List Report) (off : ∀ z ∈ xs, z.payload ≠ a)
      (frees : s.heap.free s.memory a =
        ⟨s.heap, s.memory, reports, .error (.refused .heapCorrupted)⟩)

theorem act_of_refused {h : Heap} {m : Memory} {reports : List Report} {e : Failure}
    (allocates : s.heap.alloc s.memory size = ⟨h, m, reports, .error e⟩) :
    s.act (.alloc size) = ⟨h, m, s.live⟩ := by
  unfold act
  simp only [allocates]

theorem act_of_granted {h : Heap} {m : Memory} {reports : List Report}
    (allocates : s.heap.alloc s.memory size = ⟨h, m, reports, .ok a⟩) :
    s.act (.alloc size) = ⟨h, m, ⟨a, size⟩ :: s.live⟩ := by
  unfold act
  simp only [allocates]

namespace Marked

/-- Only the start of a block's payload has a tag and a state before it. -/
theorem freed (h : Marked r s xs) (a : Nat) : Freed r s xs a := by
  by_cases found : ∃ z ∈ xs, z.payload = a
  · obtain ⟨z, member, rfl⟩ := found
    obtain ⟨heap, memory, live⟩ := s
    cases h.laid with
    | uncarved => cases member
    | carved used chain =>
      have room := Nat.lt_of_lt_of_le (show 0 < alignment by decide) (h.legible.room z member)
      have frees := r.free_payload chain member room
      cases state : z.isFree with
      | true =>
        rw [state, if_pos rfl] at frees
        exact .free member state rfl frees
      | false =>
        rw [state, if_neg Bool.false_ne_true] at frees
        exact .busy member state rfl rfl frees
  · have off : ∀ z ∈ xs, z.payload ≠ a := fun z member start => found ⟨z, member, start⟩
    obtain ⟨base, limit⟩ := h.laid.region
    by_cases outside : s.heap.first = 0 ∨ a < s.heap.base + headerSize ∨ s.heap.limit ≤ a ∨
        (a - s.heap.base) % alignment ≠ 0
    · refine .foreign [.foreign a] off ?_
      unfold Heap.free
      rw [if_pos outside]
    · have plain : ¬ Tagged s.memory (a - headerSize) := by
        intro tagged
        have base_aligned := r.base_aligned
        unfold headerSize at outside tagged
        rw [base, limit] at outside
        obtain ⟨z, member, start⟩ := h.legible.starts (a - 24)
          (by unfold alignment at *; omega) (by omega) (by omega) tagged
        refine off z member ?_
        unfold Block.payload headerSize
        omega
      by_cases tag : s.memory.blockTag (a - headerSize) = blockTag
      · have busy : s.memory.blockState (a - headerSize) ≠ busyTag :=
          fun state => plain ⟨tag, .inr state⟩
        have free : s.memory.blockState (a - headerSize) ≠ freeTag :=
          fun state => plain ⟨tag, .inl state⟩
        refine .foreign [] off ?_
        unfold Heap.free
        rw [if_neg outside, if_neg (not_not_intro tag), if_neg busy, if_neg free]
      · refine .foreign [.badHeader a] off ?_
        unfold Heap.free
        rw [if_neg outside, if_pos tag]

/-- The clients hold the payloads of the busy blocks. -/
theorem mem_live (h : Marked r s xs) : a ∈ s.live.map Allocation.address ↔
    ∃ z ∈ xs, z.isFree = false ∧ z.payload = a := by
  rw [← h.serves.perm.mem_iff]
  simp [and_assoc]

/-- No address is the payload of both a busy and a free block. -/
theorem not_both (h : Marked r s xs) {y z : Block} (hy : y ∈ xs) (hz : z ∈ xs)
    (same : y.payload = z.payload) : y = z := by
  obtain ⟨heap, memory, live⟩ := s
  cases h.laid with
  | uncarved => cases hy
  | carved used chain =>
    have start : y.start = z.start := Nat.add_right_cancel same
    have covers : ∀ x : Block, x.Covers x.start := by
      intro x
      unfold Block.Covers Block.stop headerSize
      omega
    exact chain.eq_of_covers hy hz (covers y) (start ▸ covers z)

theorem frees (h : Marked r s xs) (a : Nat) : s.Frees xs a := by
  have live := h.mem_live (a := a)
  cases h.freed a with
  | @busy z member busy start carved frees =>
    have held := live.mpr ⟨z, member, busy, start⟩
    have single : ¬ ∃ y ∈ xs, y.isFree = true ∧ y.payload = a := by
      intro found
      obtain ⟨y, hy, free, same⟩ := found
      rw [h.not_both hy member (same.trans start.symm), busy] at free
      cases free
    have here : z.start = a - headerSize := by
      rw [← start]
      exact (Nat.add_sub_cancel ..).symm
    constructor <;> rw [frees]
    · exact iff_of_true rfl held
    · exact iff_of_false (by simp) single
    · exact iff_of_false (by simp) fun refused => refused.1 held
    · simp
    · simp [here]
  | @free z member free start reports frees =>
    have gone : a ∉ s.live.map Allocation.address := by
      intro held
      obtain ⟨y, hy, busy, same⟩ := live.mp held
      rw [h.not_both hy member (same.trans start.symm), free] at busy
      cases busy
    have twice : ∃ y ∈ xs, y.isFree = true ∧ y.payload = a := ⟨z, member, free, start⟩
    constructor <;> rw [frees]
    · exact iff_of_false (by simp) gone
    · exact iff_of_true rfl twice
    · exact iff_of_false (by simp) fun refused => refused.2 twice
    · simp
    · simp
  | foreign reports off frees =>
    have gone : a ∉ s.live.map Allocation.address := by
      intro held
      obtain ⟨y, hy, -, same⟩ := live.mp held
      exact off y hy same
    have single : ¬ ∃ y ∈ xs, y.isFree = true ∧ y.payload = a := by
      intro found
      obtain ⟨y, hy, -, same⟩ := found
      exact off y hy same
    constructor <;> rw [frees]
    · exact iff_of_false (by simp) gone
    · exact iff_of_false (by simp) single
    · exact iff_of_true rfl ⟨gone, single⟩
    · simp
    · simp

/-- The blocks that the next allocation finds. -/
theorem offers (h : Marked r s xs) (low : r.start + r.length ≤ lowSpace) :
    ∃ ys, Offers r s.heap s.memory ys ∧ Serves ys s.live ∧
      (ys ≠ [] → Legible r.heap.base r.heap.limit (r.opened s.heap s.memory) ys) := by
  obtain ⟨laid, serves, legible⟩ := h
  obtain ⟨heap, memory, live⟩ := s
  cases laid with
  | uncarved =>
    have nobody : live = [] := List.map_eq_nil_iff.mp serves.perm.nil_eq.symm
    subst nobody
    refine ⟨r.uncut, .uncarved _, .uncut r, fun ne => legible.opened ?_ ne⟩
    exact Nat.le_trans (r.limit_le (Region.size_pos_of_uncut ne)) low
  | carved used chain =>
    refine ⟨xs, .carved used chain, serves, fun _ => ?_⟩
    change Legible _ _ (r.opened r.carved memory) xs
    rw [r.opened_carved]
    exact legible

theorem alloc (h : Marked r s xs) (low : r.start + r.length ≤ lowSpace) (size : Nat) :
    ∃ ys, Marked r (s.act (.alloc size)) ys := by
  by_cases large : addressSpace ≤ max size 1 + (alignment - 1)
  · have refused : s.heap.alloc s.memory size =
        ⟨s.heap, s.memory, [.sizeOverflow size], .error (.refused .heapExhausted)⟩ := if_pos large
    rw [act_of_refused refused]
    exact ⟨xs, h⟩
  · have fits := Nat.lt_of_not_le large
    obtain ⟨ys, offers, serves, legible⟩ := h.offers low
    by_cases none : ys = []
    · subst none
      obtain ⟨-, reports, refused⟩ := offers.alloc_nil fits
      rw [act_of_refused refused]
      exact ⟨xs, h⟩
    · obtain ⟨used, chain⟩ := offers.opened none
      obtain ⟨reports, allocates⟩ := offers.alloc_eq none fits
      obtain ⟨m', merges, merged, -, cases⟩ := (r.placed used).allocAligned_select rfl chain none
        (alignUp (max size 1))
      have limit_low := Nat.le_trans (r.limit_le used) low
      have clear := (legible none).merges limit_low merges
      rcases cases with ⟨-, same⟩ | ⟨pre, z, post, split, best, same⟩
      · rw [same] at allocates
        rw [act_of_refused allocates]
        exact ⟨_, .carved used merged, serves.coalesce, clear⟩
      · rw [same] at allocates
        rw [act_of_granted allocates]
        obtain ⟨room, aligned⟩ := le_alignUp (max size 1)
        rw [split] at merged clear
        have start := merged.start_aligned r.base_aligned
          (List.mem_append_right _ List.mem_cons_self)
        have some : alignment ≤ alignUp (max size 1) := by
          unfold alignment at *
          omega
        have limit_lt := (r.placed used).limit_lt
        exact ⟨_, .carved used (merged.occupy limit_lt best.room aligned),
          serves.occupied split best.free best.room room,
          clear.occupy merged start limit_low aligned best.room some⟩

/-- What is refused leaves the clients with what they hold. -/
theorem act_of_error (h : Marked r s xs) {reports : List Report} {e : Failure}
    (frees : s.heap.free s.memory a = ⟨s.heap, s.memory, reports, .error e⟩) :
    s.act (.free a) = s := by
  have gone : a ∉ s.live.map Allocation.address := by
    intro held
    have accepted := (h.frees a).ok.mpr held
    rw [frees] at accepted
    cases accepted
  have kept : s.live.filter (·.address ≠ a) = s.live := by
    refine List.filter_eq_self.mpr fun x member => decide_eq_true fun same => gone ?_
    exact List.mem_map.mpr ⟨x, member, same⟩
  unfold act
  simp only [frees, kept]

theorem free (h : Marked r s xs) (a : Nat) : ∃ ys, Marked r (s.act (.free a)) ys := by
  cases h.freed a with
  | @busy z member busy start carved frees =>
    obtain ⟨laid, serves, legible⟩ := h
    obtain ⟨heap, memory, live⟩ := s
    cases laid with
    | uncarved => cases member
    | carved used chain =>
      obtain ⟨pre, post, rfl⟩ := List.append_of_mem member
      subst start
      unfold act
      simp only [frees]
      exact ⟨_, .carved used (chain.setBlockState true), serves.released chain busy,
        legible.setBlockState (chain.start_aligned r.base_aligned member) true freeTag⟩
  | free member free start frees =>
    rw [h.act_of_error frees]
    exact ⟨xs, h⟩
  | foreign reports off frees =>
    rw [h.act_of_error frees]
    exact ⟨xs, h⟩

theorem write (h : Marked r s xs) {bytes : List UInt8} (ok : s.Permits (.write a bytes)) :
    Marked r (s.act (.write a bytes)) xs := by
  obtain ⟨laid, serves, legible⟩ := h
  obtain ⟨⟨x, held, lower, upper⟩, plain⟩ := ok
  obtain ⟨heap, memory, live⟩ := s
  refine ⟨?_, serves, legible.store plain⟩
  cases laid with
  | uncarved => exact .uncarved _
  | carved used chain =>
    obtain ⟨b, member, busy, start, -⟩ := serves.room x held
    have here : x.address - headerSize = b.start := by
      rw [← start]
      exact Nat.add_sub_cancel ..
    obtain ⟨pre, post, split⟩ := List.append_of_mem member
    have size : memory.blockSize b.start = b.size := (split ▸ chain).head_at.1.size
    rw [here, size] at upper
    refine .carved used (chain.preserve fun y hy c first last => ?_)
    refine (Memory.get_setBytes ..).trans (if_neg ?_)
    intro hit
    have inside : b.Covers c := by
      unfold Block.payload at start
      unfold Block.Covers Block.stop
      omega
    have header : y.Covers c := ⟨first, Nat.lt_of_lt_of_le last (Nat.le_add_right ..)⟩
    have same := chain.eq_of_covers member hy inside header
    subst same
    omega

end Marked

theorem Traced.marked (low : r.start + r.length ≤ lowSpace) (h : Traced r s) :
    ∃ xs, Marked r s xs := by
  induction h with
  | init m blank => exact ⟨[], .uncarved m, ⟨.refl _, by simp⟩, .of_blank blank⟩
  | act _ action ok ih =>
    obtain ⟨xs, marked⟩ := ih
    cases action with
    | alloc size => exact marked.alloc low size
    | free a => exact marked.free a
    | write a bytes => exact ⟨xs, marked.write ok⟩

/-- Over every history in a blank region: giving an address back succeeds exactly if a client holds
it, an address before which a free block of the chain has its header is reported as given back
twice, and every other address is refused. What is refused changes nothing, and what is accepted
changes the state of its block only. -/
theorem Traced.frees_exactly (low : r.start + r.length ≤ lowSpace) (h : Traced r s) :
    ∃ xs, Laid r s.heap s.memory xs ∧ ∀ a, s.Frees xs a := by
  obtain ⟨xs, marked⟩ := h.marked low
  exact ⟨xs, marked.laid, marked.frees⟩

/-- A block was given back twice, then merged into the one before it and taken again with it. -/
def recycled : Session :=
  (((((((⟨ofRegion 4096 400, {}, []⟩ : Session).act (.alloc 16)).act (.alloc 16)).act
    (.write 4160 [1, 2, 3])).act (.free 4120)).act (.free 4120)).act (.free 4160)).act (.alloc 40)

theorem frees_exactly_recycled : Traced ⟨4096, 400, by decide, by decide⟩ recycled ∧
    recycled.live = [⟨4120, 40⟩] ∧ ∃ xs,
      Laid ⟨4096, 400, by decide, by decide⟩ recycled.heap recycled.memory xs ∧
      recycled.Frees xs 4160 ∧ 4160 ∉ recycled.live.map Allocation.address ∧
      (recycled.heap.free recycled.memory 4160).result = .error (.refused .heapCorrupted) := by
  have taken : Traced ⟨4096, 400, by decide, by decide⟩ _ :=
    ((Traced.init {} fun _ _ _ => rfl).act (.alloc 16) trivial).act (.alloc 16) trivial
  have written := taken.act (.write 4160 [1, 2, 3]) (by
    refine ⟨⟨⟨4160, 16⟩, by decide +kernel, by decide, by decide +kernel⟩, ?_⟩
    intro w aligned upper lower
    have here : w = 4160 := by
      unfold alignment at aligned
      change w < 4163 at upper
      omega
    subst here
    unfold Tagged
    decide +kernel)
  have traced : Traced ⟨4096, 400, by decide, by decide⟩ recycled :=
    (((written.act (.free 4120) trivial).act (.free 4120) trivial).act (.free 4160)
      trivial).act (.alloc 40) trivial
  obtain ⟨xs, laid, frees⟩ := traced.frees_exactly (by decide)
  have live : recycled.live = [⟨4120, 40⟩] := by decide +kernel
  have result : (recycled.heap.free recycled.memory 4160).result =
      .error (.refused .heapCorrupted) := by decide +kernel
  exact ⟨traced, live, xs, laid, frees 4160, ((frees 4160).corrupted.mp result).1, result⟩

end Session

end Heap

end TaskKernel
