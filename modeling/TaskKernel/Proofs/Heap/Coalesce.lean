import TaskKernel.Proofs.Heap.Survey

namespace TaskKernel.Heap

def Block.merge (x y : Block) : Block := { x with size := x.size + (headerSize + y.size) }

def coalesce : List Block → List Block
  | [] => []
  | x :: xs =>
    match coalesce xs with
    | [] => [x]
    | y :: ys => if x.isFree && y.isFree then x.merge y :: ys else x :: y :: ys

/-- Merging free blocks only adds to the first one. -/
theorem coalesce_cons (x : Block) (xs : List Block) :
    ∃ y ys, coalesce (x :: xs) = y :: ys ∧ y.start = x.start ∧ y.isFree = x.isFree ∧
      x.size ≤ y.size := by
  rw [coalesce]
  split
  · exact ⟨x, [], rfl, rfl, rfl, Nat.le_refl _⟩
  · split
    · exact ⟨_, _, rfl, rfl, rfl, Nat.le_add_right ..⟩
    · exact ⟨_, _, rfl, rfl, rfl, Nat.le_refl _⟩

/-- Merging stops before a busy block. -/
theorem coalesce_cons_of_not_both (x : Block) (xs : List Block)
    (h : ∀ y ∈ xs.head?, (x.isFree && y.isFree) = false) :
    coalesce (x :: xs) = x :: coalesce xs := by
  cases xs with
  | nil => rfl
  | cons y ys =>
    obtain ⟨z, zs, he, -, hf, -⟩ := coalesce_cons y ys
    rw [coalesce, he]
    simp only [hf, h y rfl, Bool.false_eq_true, if_false]

/-- Merging a free block with the next one first makes no difference. -/
theorem coalesce_merge {x y : Block} (hx : x.isFree = true) (hy : y.isFree = true)
    (ys : List Block) : coalesce (x :: y :: ys) = coalesce (x.merge y :: ys) := by
  cases h : coalesce ys with
  | nil => simp [coalesce, h, hx, hy]
  | cons z zs =>
    have assoc : x.merge (y.merge z) = (x.merge y).merge z := by
      simp only [Block.merge, Block.mk.injEq, and_true, true_and]
      omega
    cases hz : z.isFree <;> simp [coalesce, h, hx, hy, hz, Block.merge] at assoc ⊢
    exact assoc

theorem filter_busy_coalesce (xs : List Block) :
    (coalesce xs).filter (!·.isFree) = xs.filter (!·.isFree) := by
  induction xs with
  | nil => rfl
  | cons x xs ih =>
    rw [coalesce, List.filter_cons, ← ih]
    split
    · rename_i he
      rw [he, List.filter_cons]
    · rename_i y ys he
      rw [he]
      cases hx : x.isFree <;> cases hy : y.isFree <;> simp [hx, hy, Block.merge]

theorem mem_coalesce_of_busy {x : Block} {xs : List Block} (hx : x.isFree = false) :
    x ∈ coalesce xs ↔ x ∈ xs := by
  have h : x ∈ (coalesce xs).filter (!·.isFree) ↔ x ∈ xs.filter (!·.isFree) := by
    rw [filter_busy_coalesce]
  simpa [hx] using h

/-- No two adjacent blocks are free any more. -/
theorem pairs_coalesce (xs : List Block) : Stats.pairs false (coalesce xs) = 0 := by
  induction xs with
  | nil => rfl
  | cons x xs ih =>
    rw [coalesce]
    split
    · cases hx : x.isFree <;> simp [Stats.pairs, hx]
    · rename_i y ys he
      rw [he] at ih
      cases hx : x.isFree <;> cases hy : y.isFree <;>
        simp_all [Stats.pairs, Block.merge]

def FreeAt (xs : List Block) (c : Nat) : Prop := ∃ x ∈ xs, x.isFree = true ∧ x.Covers c

theorem FreeAt.cons {xs : List Block} {c : Nat} (h : FreeAt xs c) (x : Block) :
    FreeAt (x :: xs) c := by
  obtain ⟨y, hy, hf⟩ := h
  exact ⟨y, by simp [hy], hf⟩

/-- The free addresses of a merged block are those of its parts. -/
theorem FreeAt.of_merge {x y : Block} {ys : List Block} {c : Nat} (hx : x.isFree = true)
    (hy : y.isFree = true) (hs : y.start = x.stop) (h : FreeAt (x.merge y :: ys) c) :
    FreeAt (x :: y :: ys) c := by
  obtain ⟨z, hz, hf, h1, h2⟩ := h
  rcases List.mem_cons.mp hz with he | ht
  · subst z
    by_cases hc : c < x.stop
    · exact ⟨x, by simp, hx, h1, hc⟩
    · refine ⟨y, by simp, hy, by omega, ?_⟩
      simp only [Block.merge, Block.stop] at h2 hs ⊢
      omega
  · exact ⟨z, by simp [ht], hf, h1, h2⟩

/-- Free blocks take in the free blocks right after them, one merge after the other. What is written
into the headers is a size and a link within `q`, and the header that was taken in loses its tag. -/
inductive Merges (q : Nat) : Memory → List Block → Memory → List Block → Prop where
  | refl (m : Memory) (xs : List Block) : Merges q m xs m xs
  | merge (pre : List Block) {m m' : Memory} {x y : Block} {post ys : List Block}
      (first : x.start % alignment = 0) (second : y.start % alignment = 0)
      (apart : x.stop = y.start) (size : (x.merge y).size ≤ q) (next : link 0 post ≤ q)
      (rest : Merges q (((m.setBlockSize x.start (x.merge y).size).setBlockNext x.start
        (link 0 post)).setBlockTag y.start 0) (pre ++ x.merge y :: post) m' ys) :
      Merges q m (pre ++ x :: y :: post) m' ys

section Chain

variable {m : Memory} {q : Nat}

theorem Chain.link_le {p : Nat} {xs : List Block} (hc : Chain m 0 p q xs) : link 0 xs ≤ q := by
  cases xs with
  | nil => exact Nat.zero_le q
  | cons x xs => exact Nat.le_trans x.start_le_stop (hc.bounds List.mem_cons_self).2

/-- Taking in the next block writes to the headers of the two blocks only. -/
theorem get_taken_in {x y : Block} {size next c : Nat} (hx : c < x.start ∨ x.payload ≤ c)
    (hy : c < y.start ∨ y.payload ≤ c) :
    (((m.setBlockSize x.start size).setBlockNext x.start next).setBlockTag y.start 0).get c =
      m.get c := by
  simp only [Block.payload, headerSize] at hx hy
  simp only [Memory.setBlockTag, Memory.setBlockNext, Memory.setBlockSize]
  rw [Memory.get_setNat_of_outside _ _ _ _ _ (by omega),
    Memory.get_setNat_of_outside _ _ _ _ _ (by omega),
    Memory.get_setNat_of_outside _ _ _ _ _ (by omega)]

/-- Merging the next block into a free block of a chain leaves a chain. -/
theorem Chain.merge {x y : Block} {ys : List Block} (hq : q < addressSpace)
    (hc : Chain m 0 x.start q (x :: y :: ys)) :
    Chain (((m.setBlockSize x.start (x.merge y).size).setBlockNext x.start (link 0 ys)).setBlockTag
      y.start 0) 0 x.start q (x.merge y :: ys) := by
  obtain ⟨-, hax, hhx, tail⟩ := Chain.cons_iff.mp hc
  obtain ⟨hs, hay, hhy, rest⟩ := Chain.cons_iff.mp tail
  have hr := rest.le
  have hl : link 0 ys < addressSpace := Nat.lt_of_le_of_lt rest.link_le hq
  have size_lt : (x.merge y).size < addressSpace := by
    simp only [Block.merge, Block.stop] at hs hr ⊢
    omega
  have head := (hhx.setBlockSize size_lt).setBlockNext hl
  refine Chain.cons_iff.mpr ⟨rfl, ?_, head.preserve ?_, ?_⟩
  · simp only [Block.merge, alignment, headerSize] at *
    omega
  · intro c h1 h2
    refine Memory.get_setNat_of_outside _ _ _ _ _ (Or.inl ?_)
    simp only [Block.stop, Block.payload] at hs h2
    omega
  · have stop_eq : (x.merge y).stop = y.stop := by
      simp only [Block.merge, Block.stop] at hs ⊢
      omega
    rw [stop_eq]
    refine rest.preserve_outside fun c h1 h2 => get_taken_in (.inr ?_) (.inr ?_)
    · simp only [Block.stop, Block.payload] at hs h1 ⊢
      omega
    · simp only [Block.stop, Block.payload] at h1 ⊢
      omega

/-- So does merging further on. -/
theorem Chain.merge_at {p : Nat} {x y : Block} {pre post : List Block} (hq : q < addressSpace)
    (chain : Chain m 0 p q (pre ++ x :: y :: post)) :
    Chain (((m.setBlockSize x.start (x.merge y).size).setBlockNext x.start
      (link 0 post)).setBlockTag y.start 0) 0 p q (pre ++ x.merge y :: post) := by
  obtain ⟨_, before, after⟩ := Chain.append_iff.mp chain
  obtain ⟨rfl, -, -, tail⟩ := Chain.cons_iff.mp after
  have later : x.start ≤ y.start := (Chain.cons_iff.mp tail).1 ▸ x.start_le_stop
  refine Chain.append_iff.mpr ⟨x.start, ?_, after.merge hq⟩
  exact before.preserve_outside fun c _ below =>
    get_taken_in (.inl below) (.inl (Nat.lt_of_lt_of_le below later))

end Chain

def Block.improves (want : Nat) (x : Block) : Option Block → Bool
  | none => want ≤ x.size
  | some best => want ≤ x.size ∧ x.size < best.size

/-- The first of the smallest free blocks that are large enough, unless `best` is as small. -/
def select (want : Nat) : Option Block → List Block → Option Block
  | best, [] => best
  | best, x :: xs => select want (if x.isFree && x.improves want best then some x else best) xs

theorem Block.improves_iff {want : Nat} {x : Block} {best : Option Block} :
    x.improves want best = true ↔ want ≤ x.size ∧ ∀ b ∈ best, x.size < b.size := by
  cases best with
  | none => simp [improves]
  | some b => simp [improves]

/-- The block at this place is the first of the smallest free blocks that are large enough. -/
structure Block.IsBest (want : Nat) (pre : List Block) (z : Block) (post : List Block) : Prop where
  free : z.isFree = true
  room : want ≤ z.size
  before : ∀ y ∈ pre, y.isFree = true → want ≤ y.size → z.size < y.size
  after : ∀ y ∈ post, y.isFree = true → want ≤ y.size → z.size ≤ y.size

theorem select_some {want : Nat} {best : Option Block} {xs : List Block} {z : Block}
    (h : select want best xs = some z) :
    (best = some z ∧ ∀ y ∈ xs, y.isFree = true → want ≤ y.size → z.size ≤ y.size) ∨
      ∃ pre post, xs = pre ++ z :: post ∧ Block.IsBest want pre z post ∧
        ∀ b ∈ best, z.size < b.size := by
  induction xs generalizing best with
  | nil => exact .inl ⟨h, by simp⟩
  | cons x xs ih =>
    rw [select] at h
    by_cases better : x.isFree = true ∧ x.improves want best = true
    · obtain ⟨free, improves⟩ := better
      obtain ⟨room, smaller⟩ := Block.improves_iff.mp improves
      rw [if_pos (by simp [free, improves])] at h
      rcases ih h with ⟨he, least⟩ | ⟨pre, post, rfl, isBest, below⟩
      · cases he
        exact .inr ⟨[], xs, rfl, ⟨free, room, by simp, least⟩, smaller⟩
      · have lower : z.size < x.size := below x rfl
        refine .inr ⟨x :: pre, post, rfl, { isBest with before := ?_ }, ?_⟩
        · exact List.forall_mem_cons.mpr ⟨fun _ _ => lower, isBest.before⟩
        · intro b hb
          exact Nat.lt_trans lower (smaller b hb)
    · rw [if_neg (by simpa using better)] at h
      have passed : x.isFree = true → want ≤ x.size → ∃ b ∈ best, b.size ≤ x.size := by
        intro free room
        cases best with
        | none => exact absurd ⟨free, Block.improves_iff.mpr ⟨room, by simp⟩⟩ better
        | some b =>
          refine ⟨b, rfl, Nat.le_of_not_lt fun smaller => better ⟨free, ?_⟩⟩
          exact Block.improves_iff.mpr ⟨room, by simpa using smaller⟩
      rcases ih h with ⟨rfl, least⟩ | ⟨pre, post, rfl, isBest, below⟩
      · refine .inl ⟨rfl, List.forall_mem_cons.mpr ⟨fun free room => ?_, least⟩⟩
        obtain ⟨b, hb, le⟩ := passed free room
        cases hb
        exact le
      · refine .inr ⟨x :: pre, post, rfl, { isBest with before := ?_ }, below⟩
        refine List.forall_mem_cons.mpr ⟨fun free room => ?_, isBest.before⟩
        obtain ⟨b, hb, le⟩ := passed free room
        exact Nat.lt_of_lt_of_le (below b hb) le

theorem select_none {want : Nat} {best : Option Block} {xs : List Block}
    (h : select want best xs = none) :
    best = none ∧ ∀ y ∈ xs, y.isFree = true → y.size < want := by
  induction xs generalizing best with
  | nil => exact ⟨h, by simp⟩
  | cons x xs ih =>
    rw [select] at h
    obtain ⟨before, small⟩ := ih h
    split at before
    · cases before
    · rename_i worse
      subst before
      refine ⟨rfl, List.forall_mem_cons.mpr ⟨fun free => Nat.lt_of_not_le fun room => ?_, small⟩⟩
      have improves : x.improves want none = true := Block.improves_iff.mpr ⟨room, by simp⟩
      simp [free, improves] at worse

/-- The sizes in the headers compare as the blocks do. -/
theorem improves_eq {m : Memory} {x : Block} {want : Nat} {best : Option Block}
    (hx : m.blockSize x.start = x.size)
    (hb : ∀ b ∈ best, m.blockSize b.start = b.size) :
    improves m want x.start (best.map Block.start) = x.improves want best := by
  cases best with
  | none => simp [improves, Block.improves, hx]
  | some b => simp [improves, Block.improves, hx, hb b rfl]

end TaskKernel.Heap
