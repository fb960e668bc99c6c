import TaskKernel.Proofs.Heap.Sound

namespace TaskKernel.Heap

inductive Action
  | alloc (size : Nat)
  | free (address : Nat)
  | write (address : Nat) (bytes : List UInt8)

def Action.WritesTo : Action → Allocation → Prop
  | .write a bytes, x => x.address ≤ a ∧ a + bytes.length ≤ x.address + x.size
  | _, _ => False

structure Session where
  heap : Heap
  memory : Memory
  live : List Allocation

namespace Session

/-- Clients give back what they hold, and write inside what they hold. -/
def Allows (s : Session) : Action → Prop
  | .alloc _ => True
  | .free a => a ∈ s.live.map Allocation.address
  | .write a bytes => ∃ x ∈ s.live, (Action.write a bytes).WritesTo x

def act (s : Session) : Action → Session
  | .alloc size =>
    let o := s.heap.alloc s.memory size
    match o.result with
    | .ok a => { heap := o.heap, memory := o.memory, live := ⟨a, size⟩ :: s.live }
    | .error _ => { heap := o.heap, memory := o.memory, live := s.live }
  | .free a =>
    let o := s.heap.free s.memory a
    { heap := o.heap, memory := o.memory, live := s.live.filter (·.address ≠ a) }
  | .write a bytes => { s with memory := s.memory.setBytes a bytes }

/-- The states that clients can bring a heap of the region to. -/
inductive Reached (r : Region) : Session → Prop where
  | init (m : Memory) : Reached r ⟨ofRegion r.start r.length, m, []⟩
  | act {s : Session} (h : Reached r s) (a : Action) (ha : s.Allows a) : Reached r (s.act a)

/-- The chain tiles the region, and the check counts the allocations and every byte. -/
structure Tiled (r : Region) (s : Session) (xs : List Block) (stats : Stats) : Prop where
  carved : s.heap = r.carved
  chain : Chain s.memory 0 s.heap.first s.heap.limit xs
  off_headers : ∀ x ∈ s.live, ∀ b ∈ xs, ∀ c, x.Covers c → ¬ (b.start ≤ c ∧ c < b.payload)
  accepted : s.heap.check s.memory = (.ok stats, [])
  busy : stats.blocks - stats.freeBlocks = s.live.length
  bytes : stats.freeBytes + stats.usedBytes + headerSize * stats.blocks = s.heap.size

structure Safe (r : Region) (s : Session) : Prop where
  aligned : ∀ x ∈ s.live, x.address % alignment = 0
  inside : ∀ x ∈ s.live, r.start ≤ x.address ∧ x.address + x.size ≤ r.start + r.length
  apart : s.live.Pairwise fun x y =>
    x.address ≠ y.address ∧ ∀ c, ¬ (x.Covers c ∧ y.Covers c)
  tiled : (s.heap = ofRegion r.start r.length ∧ s.live = [] ∧
      s.heap.check s.memory = (.ok {}, [])) ∨ ∃ xs stats, s.Tiled r xs stats

variable {r : Region} {s : Session}

theorem sound_write (hs : Sound r s.heap s.memory s.live) {a : Nat} {bytes : List UInt8}
    (ha : s.Allows (.write a bytes)) : Sound r s.heap (s.memory.setBytes a bytes) s.live := by
  obtain ⟨x, hx, lower, upper⟩ := ha
  refine hs.store fun c _ _ outside => ?_
  rw [Memory.get_setBytes, if_neg]
  intro found
  obtain ⟨h1, h2⟩ := found
  exact outside x hx ⟨by omega, by omega⟩

/-- One action keeps a heap sound. -/
theorem sound_act (hs : Sound r s.heap s.memory s.live) {a : Action} (ha : s.Allows a) :
    Sound r (s.act a).heap (s.act a).memory (s.act a).live := by
  cases a with
  | alloc size =>
    have after := hs.alloc size
    unfold act
    rcases after.sound with ⟨p, hp, hsound⟩ | ⟨he, hsound⟩
    · simp only [hp]
      exact hsound
    · simp only [he]
      exact hsound
  | free a => exact (hs.free ha).2.1
  | write a bytes => exact sound_write hs ha

theorem Reached.sound (h : Reached r s) : Sound r s.heap s.memory s.live := by
  induction h with
  | init m => exact .uncarved m
  | act _ a ha ih => exact sound_act ih ha

theorem tiled_of_sound {m : Memory} {xs : List Block} {live : List Allocation}
    (used : 0 < r.heap.size) (chain : Chain m 0 r.heap.base r.heap.limit xs)
    (serves : Serves xs live) :
    Tiled r ⟨r.carved, m, live⟩ xs (Stats.ofBlocks xs) := by
  have base_lt : r.heap.base < r.heap.limit := by
    unfold limit
    omega
  refine ⟨rfl, chain, fun x hx b hb c => serves.off_header chain hx hb,
    (r.placed used).check_chain rfl chain (chain.ne_nil base_lt), ?_, ?_⟩
  · have count := List.length_eq_countP_add_countP Block.isFree (l := xs)
    simp only [Bool.not_eq_true, Bool.decide_eq_false] at count
    have length := serves.perm.length_eq
    rw [List.length_map, List.length_map, ← List.countP_eq_length_filter] at length
    simp only [Stats.ofBlocks]
    omega
  · have total := chain.sum
    unfold limit at total
    rw [Stats.bytes_ofBlocks]
    exact Nat.add_left_cancel total

theorem safe_of_sound (hs : Sound r s.heap s.memory s.live) : Safe r s := by
  have nodup := hs.nodup
  have inside : ∀ x ∈ s.live, r.start ≤ x.address ∧ x.address + x.size ≤ r.start + r.length :=
    fun x hx => hs.inside hx
  have apart : ∀ x ∈ s.live, ∀ y ∈ s.live, x.address ≠ y.address →
      ∀ c, ¬ (x.Covers c ∧ y.Covers c) :=
    fun x hx y hy ne c covers => ne (congrArg _ (hs.eq_of_covers hx hy covers.1 covers.2))
  obtain ⟨heap, memory, live⟩ := s
  cases hs with
  | uncarved => exact ⟨by simp, by simp, .nil, .inl ⟨rfl, rfl, rfl⟩⟩
  | @carved _ xs _ used chain serves =>
    refine ⟨?_, inside, ?_, .inr ⟨xs, _, tiled_of_sound used chain serves⟩⟩
    · intro x hx
      obtain ⟨b, hb, -, hbp, -⟩ := serves.exists_block hx
      have := chain.start_aligned r.base_aligned hb
      simp only [Block.payload, headerSize, alignment] at *
      omega
    · have distinct := List.pairwise_map.mp nodup
      exact distinct.imp_of_mem fun hx hy ne => ⟨ne, apart _ hx _ hy ne⟩

/-- No action changes a byte of an allocation that it does not write to. -/
theorem frame_act (hs : Sound r s.heap s.memory s.live) {a : Action} (ha : s.Allows a)
    {x : Allocation} (hx : x ∈ s.live) (hw : ¬ a.WritesTo x) {c : Nat} (hc : x.Covers c) :
    (s.act a).memory.get c = s.memory.get c := by
  cases a with
  | alloc size =>
    have after := hs.alloc size
    have frame := after.frame x hx c hc
    unfold act
    rcases after.sound with ⟨p, hp, -⟩ | ⟨he, -⟩
    · simpa only [hp] using frame
    · simpa only [he] using frame
  | free a => exact (hs.free ha).2.2 x hx c hc
  | write a bytes =>
    obtain ⟨y, hy, h1, h2⟩ := ha
    refine (Memory.get_setBytes ..).trans (if_neg ?_)
    intro found
    obtain ⟨h3, h4⟩ := found
    have := hs.eq_of_covers hx hy hc ⟨by omega, by omega⟩
    subst this
    exact hw ⟨h1, h2⟩

/-- Over every history: the clients' bytes lie apart from each other and from the headers, no
operation but a write to them changes them, the check accepts the chain and counts it right, an
operation refuses for want of room only, and an allocation leaves no free neighbours. -/
theorem reached_safe (h : Reached r s) :
    Safe r s ∧
    (∀ a, s.Allows a → ∀ x ∈ s.live, ¬ a.WritesTo x → ∀ c, x.Covers c →
      (s.act a).memory.get c = s.memory.get c) ∧
    (∀ size, (∃ a, (s.heap.alloc s.memory size).result = .ok a) ∨
      (s.heap.alloc s.memory size).result = .error (.refused .heapExhausted)) ∧
    (∀ size, (∃ a, (s.heap.alloc s.memory size).result = .ok a) ∨
        (∃ n, .noFit n ∈ (s.heap.alloc s.memory size).reports) →
      ((s.act (.alloc size)).heap.check (s.act (.alloc size)).memory).1.map
        Stats.adjacentFreePairs = .ok 0) ∧
    ∀ a, s.Allows (.free a) → (s.heap.free s.memory a).result = .ok () := by
  have hs := h.sound
  refine ⟨safe_of_sound hs, fun a ha x hx hw c hc => frame_act hs ha hx hw hc, ?_, ?_,
    fun a ha => (hs.free ha).1⟩
  · intro size
    rcases (hs.alloc size).sound with ⟨a, ha, -⟩ | ⟨he, -⟩
    · exact .inl ⟨a, ha⟩
    · exact .inr he
  · intro size hm
    have merged := (hs.alloc size).merged hm
    unfold act
    rcases (hs.alloc size).sound with ⟨a, ha, -⟩ | ⟨he, -⟩
    · simpa only [ha] using merged
    · simpa only [he] using merged

def unaligned : Session :=
  ((((⟨ofRegion 4099 200, {}, []⟩ : Session).act (.alloc 10)).act (.alloc 7)).act
    (.write 4170 [1, 2, 3])).act (.free 4128)

theorem reached_safe_unaligned :
    unaligned.live = [⟨4168, 7⟩] ∧ Reached ⟨4099, 200, by decide, by decide⟩ unaligned ∧
      Safe ⟨4099, 200, by decide, by decide⟩ unaligned := by
  have first : Reached ⟨4099, 200, by decide, by decide⟩ _ :=
    ((Reached.init {}).act (.alloc 10) trivial).act (.alloc 7) trivial
  have written := first.act (.write 4170 [1, 2, 3])
    ⟨⟨4168, 7⟩, by decide +kernel, by decide, by decide⟩
  have released := written.act (.free 4128) (by unfold Allows; decide +kernel)
  exact ⟨by decide +kernel, released, (reached_safe released).1⟩

end Session

end TaskKernel.Heap
