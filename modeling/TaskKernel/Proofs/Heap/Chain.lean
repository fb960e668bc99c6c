import Mathlib.Algebra.GroupWithZero.Nat
import TaskKernel.Heap.Alloc

namespace TaskKernel.Heap

structure Block where
  start : Nat
  size : Nat
  isFree : Bool
  deriving DecidableEq

namespace Block

def payload (x : Block) : Nat := x.start + headerSize

def stop (x : Block) : Nat := x.start + headerSize + x.size

def stateTag (x : Block) : Nat := if x.isFree then freeTag else busyTag

theorem start_le_stop (x : Block) : x.start ≤ x.stop := by
  unfold stop
  omega

theorem payload_le_stop (x : Block) : x.payload ≤ x.stop := Nat.le_add_right ..

theorem stop_aligned {x : Block} (start : x.start % alignment = 0)
    (size : x.size % alignment = 0) : x.stop % alignment = 0 := by
  unfold stop headerSize
  unfold alignment at *
  omega

def Covers (x : Block) (c : Nat) : Prop := x.start ≤ c ∧ c < x.stop

end Block

/-- The memory holds the header of a block, with a link to `next`. -/
structure Headed (m : Memory) (x : Block) (next : Nat) : Prop where
  tag : m.blockTag x.start = blockTag
  state : m.blockState x.start = x.stateTag
  size : m.blockSize x.start = x.size
  next : m.blockNext x.start = next

namespace Headed

variable {m m' : Memory} {x : Block} {next : Nat}

theorem iff : Headed m x next ↔ m.blockTag x.start = blockTag ∧
    m.blockState x.start = x.stateTag ∧ m.blockSize x.start = x.size ∧
    m.blockNext x.start = next :=
  ⟨fun h => ⟨h.tag, h.state, h.size, h.next⟩, fun ⟨tag, state, size, next⟩ =>
    ⟨tag, state, size, next⟩⟩

instance : Decidable (Headed m x next) := decidable_of_iff _ iff.symm

theorem preserve (h : Headed m x next)
    (hm : ∀ c, x.start ≤ c → c < x.payload → m'.get c = m.get c) : Headed m' x next := by
  obtain ⟨ht, hs, hz, hn⟩ := Memory.header_congr hm
  exact ⟨ht.trans h.tag, hs.trans h.state, hz.trans h.size, hn.trans h.next⟩

/-- A header describes one block. -/
theorem unique {y : Block} {next' : Nat} (h : Headed m x next) (h' : Headed m y next')
    (start : x.start = y.start) : x = y := by
  have size : x.size = y.size := by rw [← h.size, ← h'.size, start]
  have state : x.stateTag = y.stateTag := by rw [← h.state, ← h'.state, start]
  have isFree : x.isFree = y.isFree := by
    unfold Block.stateTag at state
    cases hx : x.isFree <;> cases hy : y.isFree <;> simp [hx, hy, freeTag, busyTag] at state ⊢
  cases x
  cases y
  cases start
  cases size
  cases isFree
  rfl

theorem setBlockState (h : Headed m x next) (isFree : Bool) :
    Headed (m.setBlockState x.start (if isFree then freeTag else busyTag)) { x with isFree }
      next := by
  refine ⟨?_, ?_, ?_, ?_⟩
  · exact (Memory.blockTag_setBlockState ..).trans h.tag
  · refine (Memory.blockState_setBlockState ..).trans ?_
    cases isFree <;> rfl
  · exact (Memory.blockSize_setBlockState ..).trans h.size
  · exact (Memory.blockNext_setBlockState ..).trans h.next

theorem setBlockSize (h : Headed m x next) {size : Nat} (hs : size < addressSpace) :
    Headed (m.setBlockSize x.start size) { x with size } next := by
  refine ⟨?_, ?_, ?_, ?_⟩
  · exact (Memory.blockTag_setBlockSize ..).trans h.tag
  · exact (Memory.blockState_setBlockSize ..).trans h.state
  · exact (Memory.blockSize_setBlockSize ..).trans (Nat.mod_eq_of_lt hs)
  · exact (Memory.blockNext_setBlockSize ..).trans h.next

theorem setBlockNext (h : Headed m x next) {link : Nat} (hl : link < addressSpace) :
    Headed (m.setBlockNext x.start link) x link := by
  refine ⟨?_, ?_, ?_, ?_⟩
  · exact (Memory.blockTag_setBlockNext ..).trans h.tag
  · exact (Memory.blockState_setBlockNext ..).trans h.state
  · exact (Memory.blockSize_setBlockNext ..).trans h.size
  · exact (Memory.blockNext_setBlockNext ..).trans (Nat.mod_eq_of_lt hl)

/-- A header that was just written. -/
theorem of_setFreeBlock (m : Memory) (b : Nat) {size link : Nat} (hs : size < addressSpace)
    (hl : link < addressSpace) :
    Headed (m.setFreeBlock b size link) { start := b, size, isFree := true } link := by
  have tagged := Memory.blockTag_setBlockTag m b Heap.blockTag
  have fields : Headed ((m.setBlockTag b Heap.blockTag).setBlockState b freeTag)
      { start := b, size := (m.setBlockTag b Heap.blockTag).blockSize b, isFree := true }
      ((m.setBlockTag b Heap.blockTag).blockNext b) :=
    ⟨(Memory.blockTag_setBlockState ..).trans tagged, Memory.blockState_setBlockState ..,
      Memory.blockSize_setBlockState .., Memory.blockNext_setBlockState ..⟩
  exact (fields.setBlockSize hs).setBlockNext hl

end Headed

/-- Writing the header of a free block changes no byte outside it. -/
theorem get_setFreeBlock (m : Memory) (b size link c : Nat) (h : c < b ∨ b + headerSize ≤ c) :
    (m.setFreeBlock b size link).get c = m.get c := by
  unfold headerSize at h
  simp only [Memory.setFreeBlock, Memory.setBlockTag, Memory.setBlockState, Memory.setBlockSize,
    Memory.setBlockNext]
  rw [Memory.get_setNat_of_outside _ _ _ _ _ (by omega),
    Memory.get_setNat_of_outside _ _ _ _ _ (by omega),
    Memory.get_setNat_of_outside _ _ _ _ _ (by omega),
    Memory.get_setNat_of_outside _ _ _ _ _ (by omega)]

/-- The link to the first block of a list, or to `e` if there is none. -/
def link (e : Nat) : List Block → Nat
  | [] => e
  | x :: _ => x.start

theorem link_append (e : Nat) (xs ys : List Block) :
    link e (xs ++ ys) = link (link e ys) xs := by
  cases xs <;> rfl

/-- The blocks follow one another from the first address to the second, whatever their sizes, each
header linking to the next block and the last one to `e`. -/
inductive Spans (m : Memory) (e : Nat) : Nat → Nat → List Block → Prop where
  | nil (p : Nat) : Spans m e p p []
  | cons (x : Block) (xs : List Block) {q : Nat} (head : Headed m x (link e xs))
      (tail : Spans m e x.stop q xs) : Spans m e x.start q (x :: xs)

def Straight (xs : List Block) : Prop := ∀ x ∈ xs, x.start % alignment = 0

namespace Spans

variable {m : Memory} {e p q : Nat} {x : Block} {xs : List Block}

theorem nil_iff : Spans m e p q [] ↔ p = q := by
  constructor
  · intro h
    cases h
    rfl
  · intro h
    exact h ▸ .nil p

theorem cons_iff : Spans m e p q (x :: xs) ↔
    p = x.start ∧ Headed m x (link e xs) ∧ Spans m e x.stop q xs := by
  constructor
  · intro h
    cases h with
    | cons _ _ head tail => exact ⟨rfl, head, tail⟩
  · intro found
    obtain ⟨rfl, head, tail⟩ := found
    exact .cons x xs head tail

theorem le (h : Spans m e p q xs) : p ≤ q := by
  induction h with
  | nil => exact Nat.le_refl _
  | cons x xs head tail ih => exact Nat.le_trans x.start_le_stop ih

theorem length_le (h : Spans m e p q xs) : p + xs.length ≤ q := by
  induction h with
  | nil => simp
  | cons x xs head tail ih =>
    simp only [Block.stop, headerSize] at ih
    simp only [List.length_cons]
    omega

theorem link_eq (h : Spans m e p q xs) (ne : xs ≠ []) : link e xs = p := by
  cases xs with
  | nil => exact absurd rfl ne
  | cons x xs => exact (cons_iff.mp h).1.symm

/-- Blocks that lead on to the address where they end are found where they start. -/
theorem link_start (h : Spans m q p q xs) : link q xs = p := by
  cases xs with
  | nil => exact (nil_iff.mp h).symm
  | cons x xs => exact (cons_iff.mp h).1.symm

end Spans

/-- The blocks tile the addresses from the first number to the second. -/
inductive Chain (m : Memory) (e : Nat) : Nat → Nat → List Block → Prop where
  | nil (p : Nat) : Chain m e p p []
  | cons (x : Block) (xs : List Block) {q : Nat} (aligned : x.size % alignment = 0)
      (head : Headed m x (link e xs)) (tail : Chain m e x.stop q xs) :
      Chain m e x.start q (x :: xs)

namespace Chain

variable {m m' : Memory} {e p q : Nat} {x : Block} {xs ys : List Block}

theorem nil_iff : Chain m e p q [] ↔ p = q := by
  constructor
  · intro h
    cases h
    rfl
  · intro h
    exact h ▸ .nil p

theorem cons_iff : Chain m e p q (x :: xs) ↔
    p = x.start ∧ x.size % alignment = 0 ∧ Headed m x (link e xs) ∧ Chain m e x.stop q xs := by
  constructor
  · intro h
    cases h with
    | cons _ _ aligned head tail => exact ⟨rfl, aligned, head, tail⟩
  · intro found
    obtain ⟨rfl, aligned, head, tail⟩ := found
    exact .cons x xs aligned head tail

instance decidable (m : Memory) (e q : Nat) :
    (p : Nat) → (xs : List Block) → Decidable (Chain m e p q xs)
  | _, [] => decidable_of_iff _ nil_iff.symm
  | _, x :: xs =>
    have := decidable m e q x.stop xs
    decidable_of_iff _ cons_iff.symm

theorem spans (h : Chain m e p q xs) : Spans m e p q xs := by
  induction h with
  | nil p => exact .nil p
  | cons x xs aligned head tail ih => exact .cons x xs head ih

theorem le (h : Chain m e p q xs) : p ≤ q := h.spans.le

theorem bounds (h : Chain m e p q xs) (hx : x ∈ xs) : p ≤ x.start ∧ x.stop ≤ q := by
  induction h with
  | nil => simp at hx
  | cons y ys aligned head tail ih =>
    rcases List.mem_cons.mp hx with he | ht
    · subst x
      exact ⟨Nat.le_refl _, tail.le⟩
    · have := ih ht
      simp only [Block.stop] at this ⊢
      omega

/-- The blocks of a chain lie one after the other. -/
theorem apart (h : Chain m e p q xs) : xs.Pairwise fun x y => x.stop ≤ y.start := by
  induction h with
  | nil => exact .nil
  | cons x xs aligned head tail ih => exact .cons (fun y hy => (tail.bounds hy).1) ih

/-- Two blocks of a chain that share an address are the same. -/
theorem eq_of_covers (h : Chain m e p q xs) {x y : Block} (hx : x ∈ xs) (hy : y ∈ xs) {c : Nat}
    (hcx : x.Covers c) (hcy : y.Covers c) : x = y := by
  induction h with
  | nil => simp at hx
  | cons z zs aligned head tail ih =>
    obtain ⟨hx1, hx2⟩ := hcx
    obtain ⟨hy1, hy2⟩ := hcy
    rcases List.mem_cons.mp hx with ex | tx <;> rcases List.mem_cons.mp hy with ey | ty
    · exact ex.trans ey.symm
    · subst x
      have := (tail.bounds ty).1
      omega
    · subst y
      have := (tail.bounds tx).1
      omega
    · exact ih tx ty

/-- A chain depends on the bytes of its headers alone. -/
theorem preserve (h : Chain m e p q xs)
    (hm : ∀ x ∈ xs, ∀ c, x.start ≤ c → c < x.payload → m'.get c = m.get c) :
    Chain m' e p q xs := by
  induction h with
  | nil p => exact .nil p
  | cons x xs aligned head tail ih =>
    exact .cons x xs aligned (head.preserve (hm x (by simp)))
      (ih fun y hy => hm y (by simp [hy]))

/-- A chain survives every write outside the addresses that it tiles. -/
theorem preserve_outside (h : Chain m e p q xs)
    (hm : ∀ c, p ≤ c → c < q → m'.get c = m.get c) : Chain m' e p q xs := by
  refine h.preserve fun x hx c h1 h2 => hm c ?_ ?_
  · exact Nat.le_trans (h.bounds hx).1 h1
  · have := (h.bounds hx).2
    unfold Block.stop at this
    unfold Block.payload at h2
    omega

theorem append_iff : Chain m e p q (xs ++ ys) ↔
    ∃ r, Chain m (link e ys) p r xs ∧ Chain m e r q ys := by
  induction xs generalizing p with
  | nil =>
    constructor
    · intro h
      exact ⟨p, .nil p, h⟩
    · intro found
      obtain ⟨r, hr, h⟩ := found
      cases hr
      exact h
  | cons x xs ih =>
    simp only [List.cons_append, cons_iff, ih, link_append]
    constructor
    · intro found
      obtain ⟨hp, ha, hh, r, h1, h2⟩ := found
      exact ⟨r, ⟨hp, ha, hh, h1⟩, h2⟩
    · intro found
      obtain ⟨r, ⟨hp, ha, hh, h1⟩, h2⟩ := found
      exact ⟨hp, ha, hh, r, h1, h2⟩

/-- Every block of a chain that starts at an aligned address is aligned. -/
theorem start_aligned (h : Chain m e p q xs) (hp : p % alignment = 0) (hx : x ∈ xs) :
    x.start % alignment = 0 := by
  induction h with
  | nil => simp at hx
  | cons y ys aligned head tail ih =>
    rcases List.mem_cons.mp hx with he | ht
    · subst x
      exact hp
    · refine ih ?_ ht
      unfold alignment at *
      unfold Block.stop headerSize
      omega

theorem link_eq (h : Chain m e p q xs) (hx : xs ≠ []) : link e xs = p := h.spans.link_eq hx

/-- The bytes that a chain takes: the payloads and a header for each block. -/
theorem sum (h : Chain m e p q xs) : p + (xs.map fun x => headerSize + x.size).sum = q := by
  induction h with
  | nil => simp
  | cons x xs aligned head tail ih =>
    simp only [Block.stop] at ih
    simp only [List.map_cons, List.sum_cons]
    omega

/-- Only one list of blocks tiles the addresses. -/
theorem unique (h : Chain m e p q xs) (h' : Chain m e p q ys) : xs = ys := by
  induction h generalizing ys with
  | nil p =>
    cases ys with
    | nil => rfl
    | cons y ys =>
      obtain ⟨rfl, -, -, tail⟩ := cons_iff.mp h'
      have := tail.le
      unfold Block.stop headerSize at this
      omega
  | cons x xs aligned head tail ih =>
    cases ys with
    | nil =>
      have empty := nil_iff.mp h'
      have := tail.le
      unfold Block.stop headerSize at this
      omega
    | cons y ys =>
      obtain ⟨start, -, head', tail'⟩ := cons_iff.mp h'
      obtain rfl := head.unique head' start
      rw [ih tail']

end Chain

end TaskKernel.Heap
