import TaskKernel.Proofs.Heap.Coalesce

namespace TaskKernel

/-- A number is as small as its bytes make it. -/
theorem Memory.nat_lt (m : Memory) (a n : Nat) : m.nat a n < 256 ^ n := by
  induction n generalizing a with
  | zero => simp [nat]
  | succ n ih =>
    have first := (m.get a).toNat_lt
    have rest := ih (a + 1)
    rw [nat, Nat.pow_succ]
    omega

namespace Heap

/-- The headers that a walk over the chain meets before it comes to `e`: in the region, at `p` or
later, and each after the one before. Nothing is said about the sizes in them. -/
inductive Trail (h : Heap) (m : Memory) (e : Nat) : Nat → List Block → Prop where
  | nil (p : Nat) : Trail h m e p []
  | cons {p : Nat} (x : Block) (xs : List Block) (later : p ≤ x.start)
      (inside : x.payload ≤ h.limit) (aligned : x.start % alignment = 0)
      (head : Headed m x (link e xs)) (tail : Trail h m e x.payload xs) : Trail h m e p (x :: xs)

def FreeHeaderAt (xs : List Block) (c : Nat) : Prop :=
  ∃ x ∈ xs, x.isFree = true ∧ x.start ≤ c ∧ c < x.payload

theorem FreeHeaderAt.cons {xs : List Block} {c : Nat} (h : FreeHeaderAt xs c) (x : Block) :
    FreeHeaderAt (x :: xs) c := by
  obtain ⟨y, hy, found⟩ := h
  exact ⟨y, by simp [hy], found⟩

theorem FreeHeaderAt.freeAt {xs : List Block} {c : Nat} (found : FreeHeaderAt xs c) :
    FreeAt xs c := by
  obtain ⟨x, mem, free, above, below⟩ := found
  exact ⟨x, mem, free, above, Nat.lt_of_lt_of_le below (Nat.le_add_right ..)⟩

def load (xs : List Block) : Nat := (xs.map fun x => headerSize + x.size).sum

@[simp] theorem load_nil : load [] = 0 := rfl

@[simp] theorem load_cons (x : Block) (xs : List Block) :
    load (x :: xs) = headerSize + x.size + load xs := rfl

/-- Where a walk ends: at a null link, or at a block that it cannot pass, whatever is written into
the headers of the free blocks. -/
inductive Ends (h : Heap) (m : Memory) (xs : List Block) : Nat → Option Flaw → Prop where
  | null : Ends h m xs 0 none
  | stuck {e : Nat} {f : Flaw} (ne : e ≠ 0)
      (flaw : ∀ m', (∀ c, ¬ FreeHeaderAt xs c → m'.get c = m.get c) → h.flaw m' e = some f) :
      Ends h m xs e (some f)

def Fails (f : Flaw) (n : Nat) (e : Failure) : Prop :=
  e = .refused .heapCorrupted ∨ e = .overflow ∧ (f = .overflow ∨ addressSpace ≤ n)

theorem Fails.of_flaw (f : Flaw) (n : Nat) : Fails f n f.failure := by
  cases f with
  | outside => exact .inl rfl
  | overflow => exact .inr ⟨rfl, .inl rfl⟩
  | damaged => exact .inl rfl

theorem Fails.mono {f : Flaw} {n k : Nat} {e : Failure} (h : Fails f n e) (le : n ≤ k) :
    Fails f k e :=
  h.imp_right fun overflow =>
    ⟨overflow.1, overflow.2.imp_right fun beyond => Nat.le_trans beyond le⟩

/-- As long as the sums stay in the address space, a damaged block is found to be one. -/
theorem Fails.corrupted {n : Nat} {e : Failure} (h : Fails .damaged n e)
    (small : n < addressSpace) : e = .refused .heapCorrupted := by
  rcases h with corrupted | ⟨-, overflow | beyond⟩
  · exact corrupted
  · cases overflow
  · omega

section Trail

variable {h : Heap} {m m' m'' : Memory} {e p q : Nat} {f : Option Flaw} {x y : Block}
  {xs ys zs : List Block}

namespace Trail

theorem cons_iff : Trail h m e p (x :: xs) ↔ p ≤ x.start ∧ x.payload ≤ h.limit ∧
    x.start % alignment = 0 ∧ Headed m x (link e xs) ∧ Trail h m e x.payload xs := by
  constructor
  · intro trail
    cases trail with
    | cons _ _ later inside aligned head tail => exact ⟨later, inside, aligned, head, tail⟩
  · intro found
    obtain ⟨later, inside, aligned, head, tail⟩ := found
    exact .cons x xs later inside aligned head tail

theorem weaken (trail : Trail h m e p xs) (le : q ≤ p) : Trail h m e q xs := by
  cases trail with
  | nil => exact .nil q
  | cons x xs later inside aligned head tail =>
    exact .cons x xs (Nat.le_trans le later) inside aligned head tail

theorem later (trail : Trail h m e p xs) (mem : x ∈ xs) : p ≤ x.start := by
  induction trail with
  | nil => simp at mem
  | cons y ys later inside aligned head tail ih =>
    rcases List.mem_cons.mp mem with he | ht
    · exact he ▸ later
    · exact Nat.le_trans later (Nat.le_trans (Nat.le_add_right ..) (ih ht))

theorem headed (trail : Trail h m e p xs) (mem : x ∈ xs) : ∃ next, Headed m x next := by
  induction trail with
  | nil => simp at mem
  | cons y ys later inside aligned head tail ih =>
    rcases List.mem_cons.mp mem with he | ht
    · exact ⟨_, he ▸ head⟩
    · exact ih ht

theorem length_le (trail : Trail h m e p xs) (le : p ≤ h.limit) : p + xs.length ≤ h.limit := by
  induction trail with
  | nil => exact le
  | cons x xs later inside aligned head tail ih =>
    have rest := ih inside
    simp only [Block.payload, headerSize] at rest
    simp only [List.length_cons]
    omega

/-- A trail depends on the bytes of its headers alone. -/
theorem preserve (trail : Trail h m e p xs)
    (same : ∀ x ∈ xs, ∀ c, x.start ≤ c → c < x.payload → m'.get c = m.get c) :
    Trail h m' e p xs := by
  induction trail with
  | nil p => exact .nil p
  | cons x xs later inside aligned head tail ih =>
    obtain ⟨own, rest⟩ := List.forall_mem_cons.mp same
    exact .cons x xs later inside aligned (head.preserve own) (ih rest)

/-- No header of the rest of a trail reaches back to what lies before it. -/
theorem not_freeHeaderAt (trail : Trail h m e p xs) {c : Nat} (before : c < p) :
    ¬ FreeHeaderAt xs c := by
  intro found
  obtain ⟨x, hx, -, above, -⟩ := found
  have := trail.later hx
  omega

end Trail

/-- The blocks of a chain are a trail, and so are those with a trail after them. -/
theorem Chain.trail (chain : Chain m (link e ys) p q xs) (lower : p % alignment = 0)
    (upper : q ≤ h.limit) (rest : Trail h m e q ys) : Trail h m e p (xs ++ ys) := by
  induction xs generalizing p with
  | nil =>
    cases chain
    exact rest
  | cons x xs ih =>
    obtain ⟨rfl, aligned, head, tail⟩ := Chain.cons_iff.mp chain
    have within := tail.le
    have more := ih tail (Block.stop_aligned lower aligned)
    rw [← link_append] at head
    refine .cons x _ (Nat.le_refl _) ?_ lower head (more.weaken (Nat.le_add_right ..))
    exact Nat.le_trans x.payload_le_stop (Nat.le_trans within upper)

inductive Joins (e : Nat) : Memory → List Block → Memory → List Block → Prop where
  | refl (m : Memory) (xs : List Block) : Joins e m xs m xs
  | merge (pre : List Block) {m m' : Memory} {x y : Block} {post ys : List Block}
      (rest : Joins e (((m.setBlockSize x.start (x.merge y).size).setBlockNext x.start
        (link e post)).setBlockTag y.start 0) (pre ++ x.merge y :: post) m' ys) :
      Joins e m (pre ++ x :: y :: post) m' ys

namespace Joins

theorem cons (h : Joins e m xs m' ys) (z : Block) : Joins e m (z :: xs) m' (z :: ys) := by
  induction h with
  | refl => exact .refl _ _
  | merge pre rest ih => exact .merge (z :: pre) ih

theorem trans (h : Joins e m xs m' ys) (h' : Joins e m' ys m'' zs) : Joins e m xs m'' zs := by
  induction h with
  | refl => exact h'
  | merge pre rest ih => exact .merge pre (ih h')

/-- In a chain this leaves a chain. -/
theorem chain (h : Joins 0 m xs m' ys) (hq : q < addressSpace) (aligned : p % alignment = 0)
    (chain : Chain m 0 p q xs) : Chain m' 0 p q ys ∧ Merges q m xs m' ys := by
  induction h with
  | refl => exact ⟨chain, .refl _ _⟩
  | @merge pre m m' x y post ys rest ih =>
    obtain ⟨merged, merges⟩ := ih (chain.merge_at hq)
    have start := chain.start_aligned aligned (x := x) (by simp)
    have start' := chain.start_aligned aligned (x := y) (by simp)
    obtain ⟨_, -, after⟩ := Chain.append_iff.mp chain
    obtain ⟨-, -, -, tail⟩ := Chain.cons_iff.mp after
    obtain ⟨apart, -, -, rest⟩ := Chain.cons_iff.mp tail
    have within := rest.le
    refine ⟨merged, .merge pre start start' apart ?_ rest.link_le merges⟩
    simp only [Block.merge, Block.stop] at apart within ⊢
    omega

end Joins

/-- What merging free blocks makes of a trail. -/
structure Trimmed (h : Heap) (e p : Nat) (m : Memory) (xs : List Block) (m' : Memory)
    (ys : List Block) : Prop where
  trail : Trail h m' e p ys
  joins : Joins e m xs m' ys
  first : link e ys = link e xs
  load : load ys = load xs
  fewer : ys.length ≤ xs.length
  touched : ∀ c, FreeHeaderAt ys c → FreeHeaderAt xs c
  frame : ∀ c, ¬ FreeHeaderAt xs c → m'.get c = m.get c

namespace Trimmed

theorem refl (trail : Trail h m e p xs) : Trimmed h e p m xs m xs :=
  ⟨trail, .refl _ _, rfl, rfl, Nat.le_refl _, fun _ found => found, fun _ _ => rfl⟩

theorem trans (t : Trimmed h e p m xs m' ys) (t' : Trimmed h e p m' ys m'' zs) :
    Trimmed h e p m xs m'' zs where
  trail := t'.trail
  joins := t.joins.trans t'.joins
  first := t'.first.trans t.first
  load := t'.load.trans t.load
  fewer := Nat.le_trans t'.fewer t.fewer
  touched c found := t.touched c (t'.touched c found)
  frame c off := (t'.frame c fun found => off (t.touched c found)).trans (t.frame c off)

/-- Merging blocks further on leaves the header of the first one alone. -/
theorem cons (trail : Trail h m e p (x :: xs)) (t : Trimmed h e x.payload m xs m' ys) :
    Trimmed h e p m (x :: xs) m' (x :: ys) := by
  obtain ⟨later, inside, aligned, head, tail⟩ := Trail.cons_iff.mp trail
  refine ⟨.cons x ys later inside aligned ?_ t.trail, t.joins.cons x, rfl, ?_,
    Nat.succ_le_succ t.fewer, ?_, ?_⟩
  · rw [t.first]
    exact head.preserve fun c _ below => t.frame c (tail.not_freeHeaderAt below)
  · rw [load_cons, load_cons, t.load]
  · intro c found
    obtain ⟨z, hz, there⟩ := found
    rcases List.mem_cons.mp hz with he | ht
    · exact ⟨x, by simp, he ▸ there⟩
    · exact (t.touched c ⟨z, ht, there⟩).cons x
  · exact fun c off => t.frame c fun found => off (found.cons x)

/-- A free block takes in the next one. -/
theorem merge (trail : Trail h m e p (x :: y :: ys)) (hx : x.isFree = true) (hy : y.isFree = true)
    (small : (x.merge y).size < addressSpace) :
    Trimmed h e p m (x :: y :: ys) (((m.setBlockSize x.start (x.merge y).size).setBlockNext x.start
      (link e ys)).setBlockTag y.start 0) (x.merge y :: ys) := by
  obtain ⟨later, inside, aligned, head, tail⟩ := Trail.cons_iff.mp trail
  obtain ⟨apart, inside_y, -, head_y, rest⟩ := Trail.cons_iff.mp tail
  have next_lt : link e ys < addressSpace := by
    rw [← head_y.next]
    exact m.nat_lt _ 8
  unfold Block.payload at apart
  refine ⟨.cons (x.merge y) ys later inside aligned ?_ ?_, .merge [] (.refl _ _), rfl, ?_, by simp,
    ?_, ?_⟩
  · refine ((head.setBlockSize small).setBlockNext next_lt).preserve fun c _ below => ?_
    exact Memory.get_setNat_of_outside _ _ _ _ _ (.inl (Nat.lt_of_lt_of_le below apart))
  · have shorter : (x.merge y).payload ≤ y.payload :=
      Nat.le_trans apart (Nat.le_add_right ..)
    refine (rest.weaken shorter).preserve fun z hz c above _ => ?_
    have after := rest.later hz
    unfold Block.payload at after
    refine get_taken_in (.inr ?_) (.inr ?_)
    · unfold Block.payload
      omega
    · unfold Block.payload
      omega
  · simp only [load_cons, Block.merge]
    omega
  · intro c found
    obtain ⟨z, hz, free, there⟩ := found
    rcases List.mem_cons.mp hz with he | ht
    · subst z
      exact ⟨x, by simp, hx, there⟩
    · exact ⟨z, by simp [ht], free, there⟩
  · intro c off
    refine get_taken_in ?_ ?_
    · have offx : ¬ (x.start ≤ c ∧ c < x.payload) := fun there => off ⟨x, by simp, hx, there⟩
      omega
    · have offy : ¬ (y.start ≤ c ∧ c < y.payload) := fun there => off ⟨y, by simp, hy, there⟩
      omega

theorem ends (t : Trimmed h e p m xs m' ys) (ends : Ends h m xs e f) : Ends h m' ys e f := by
  cases ends with
  | null => exact .null
  | stuck ne flaw =>
    exact .stuck ne fun m'' same => flaw m'' fun c off =>
      (same c fun found => off (t.touched c found)).trans (t.frame c off)

end Trimmed

theorem Ends.tail (ends : Ends h m (x :: xs) e f) : Ends h m xs e f := by
  cases ends with
  | null => exact .null
  | stuck ne flaw =>
    exact .stuck ne fun m' same => flaw m' fun c off => same c fun found => off (found.cons x)

/-- Merging all free blocks would give one that is as large as the address space. -/
def Bursts (xs : List Block) : Prop :=
  ∃ z ∈ coalesce xs, z.isFree = true ∧ addressSpace ≤ z.size

inductive Halts (e : Nat) (xs : List Block) : Option Flaw → Halted → Prop where
  | flawed (f : Flaw) : Halts e xs (some f) (.flawed e f)
  | overflow {f : Option Flaw} (bursts : Bursts xs) : Halts e xs f .overflow

theorem Halts.imp {stop : Halted} (halts : Halts e xs f stop) (grow : Bursts xs → Bursts ys) :
    Halts e ys f stop := by
  cases halts with
  | flawed f => exact .flawed f
  | overflow bursts => exact .overflow (grow bursts)

structure Taken (e : Nat) (f : Option Flaw) (x : Block) (xs : List Block) (stop : Option Halted)
    (x' : Block) (ys : List Block) : Prop where
  free : x'.isFree = true
  halts : ∀ halted ∈ stop, Halts e (x :: xs) f halted
  coalesced : stop = none → coalesce (x :: xs) = x' :: coalesce ys

/-- Merging at a free block of a trail stops before a busy block or at the end. -/
theorem Placed.absorb_trail (hp : Placed h) (free : x.isFree = true)
    (trail : Trail h m e p (x :: xs)) (lower : h.base ≤ p) (ends : Ends h m (x :: xs) e f)
    {fuel : Nat} (enough : xs.length < fuel) :
    ∃ m' stop x' ys, h.absorb fuel m x.start = (m', stop) ∧
      Trimmed h e p m (x :: xs) m' (x' :: ys) ∧ Taken e f x xs stop x' ys := by
  induction xs generalizing m x fuel with
  | nil =>
    obtain _ | fuel := fuel
    · simp at enough
    obtain ⟨-, -, -, head, -⟩ := Trail.cons_iff.mp trail
    rw [absorb]
    simp only [head.next, link]
    cases ends with
    | null => exact ⟨m, none, x, [], rfl, .refl trail, free, by simp, fun _ => rfl⟩
    | @stuck _ f ne flaw =>
      simp only [ne, if_false, flaw m fun _ _ => rfl]
      exact ⟨m, some (.flawed e f), x, [], rfl, .refl trail, free, by simp [Halts.flawed], by simp⟩
  | cons y ys ih =>
    obtain _ | fuel := fuel
    · simp at enough
    obtain ⟨later, -, -, head, tail⟩ := Trail.cons_iff.mp trail
    obtain ⟨apart, inside, aligned, head_y, rest⟩ := Trail.cons_iff.mp tail
    have lower_y : h.base ≤ y.start :=
      Nat.le_trans lower (Nat.le_trans later (Nat.le_trans (Nat.le_add_right ..) apart))
    have pos : y.start ≠ 0 := by
      have := hp.base_pos
      omega
    rw [absorb]
    simp only [head.next, link, pos, if_false, hp.flaw_eq_none head_y lower_y inside aligned]
    cases hy : y.isFree with
    | false =>
      have busy : m.blockState y.start ≠ freeTag := by
        rw [Ne, head_y.state_eq_freeTag, hy]
        decide
      refine ⟨m, none, x, y :: ys, by simp [busy], .refl trail, free, by simp, fun _ => ?_⟩
      exact coalesce_cons_of_not_both _ _ fun z hz => by
        cases hz
        simp [hy]
    | true =>
      simp only [head_y.state_eq_freeTag.mpr hy, head.size, head_y.size, ne_eq, not_true_eq_false,
        if_false]
      have joined : coalesce (x :: y :: ys) = coalesce (x.merge y :: ys) :=
        coalesce_merge free hy ys
      by_cases beyond : addressSpace ≤ x.size + (headerSize + y.size)
      · rw [if_pos beyond]
        refine ⟨m, some .overflow, x, y :: ys, rfl, .refl trail, free, ?_, by simp⟩
        obtain ⟨z, zs, split, -, alike, larger⟩ := coalesce_cons (x.merge y) ys
        have bursts : Bursts (x :: y :: ys) :=
          ⟨z, by simp [joined, split], alike.trans free, Nat.le_trans beyond larger⟩
        simpa using Halts.overflow bursts
      · have merged : Trimmed h e p m _ _ _ := .merge trail free hy (Nat.lt_of_not_le beyond)
        have reads : (m.setBlockSize x.start (x.size + (headerSize + y.size))).blockNext y.start =
            link e ys := by
          refine Eq.trans ?_ head_y.next
          refine Memory.nat_setNat_disjoint _ _ _ _ _ _ (Or.inr ?_)
          simp only [Block.payload, headerSize] at apart
          omega
        obtain ⟨m', stop, x', zs, absorbed, more, taken⟩ := ih (x := x.merge y) free merged.trail
          (merged.ends ends) (by simpa using enough)
        rw [if_neg beyond, reads]
        refine ⟨m', stop, x', zs, absorbed, merged.trans more, taken.free, fun halted mem => ?_, ?_⟩
        · exact (taken.halts halted mem).imp fun bursts => by rwa [Bursts, joined]
        · rw [joined]
          exact taken.coalesced

inductive ScanEnds (want : Nat) (best : Option Block) (e : Nat) (xs : List Block) :
    Option Flaw → List Block → Except Halted (Option Nat) → Prop where
  | halted {f : Option Flaw} {ys : List Block} {stop : Halted} (halts : Halts e xs f stop) :
      ScanEnds want best e xs f ys (.error stop)
  | found : ScanEnds want best e xs none (coalesce xs)
      (.ok ((select want best (coalesce xs)).map Block.start))

/-- The sizes of blocks before a trail are left alone. -/
theorem Trimmed.sizes (trail : Trail h m e p xs) (t : Trimmed h e p m xs m' ys)
    {best : Option Block} (sizes : ∀ b ∈ best, m.blockSize b.start = b.size ∧ b.payload ≤ p) :
    ∀ b ∈ best, m'.blockSize b.start = b.size ∧ b.payload ≤ p := by
  intro b mem
  obtain ⟨size, before⟩ := sizes b mem
  refine ⟨.trans (Memory.nat_congr fun c _ below => t.frame c ?_) size, before⟩
  refine trail.not_freeHeaderAt ?_
  unfold Block.payload headerSize at before
  omega

/-- A scan of a trail merges its free blocks. It selects among them if it comes to a null link, and
fails if it comes to a block that it cannot pass. -/
theorem Placed.scan_trail (hp : Placed h) (trail : Trail h m e p xs) (lower : h.base ≤ p)
    (ends : Ends h m xs e f) {fuel : Nat} (enough : xs.length < fuel) (want : Nat)
    (best : Option Block) (sizes : ∀ b ∈ best, m.blockSize b.start = b.size ∧ b.payload ≤ p) :
    ∃ m' ys result, h.scan want fuel m (link e xs) (best.map Block.start) = (m', result) ∧
      Trimmed h e p m xs m' ys ∧ ScanEnds want best e xs f ys result := by
  induction fuel generalizing m p xs best with
  | zero => simp at enough
  | succ fuel ih =>
    cases xs with
    | nil =>
      rw [scan]
      cases ends with
      | null => exact ⟨m, [], _, rfl, .refl trail, .found⟩
      | @stuck _ f ne flaw =>
        simp only [link, ne, if_false, flaw m fun _ _ => rfl]
        exact ⟨m, [], _, rfl, .refl trail, .halted (.flawed f)⟩
    | cons x xs =>
      obtain ⟨later, inside, aligned, head, tail⟩ := Trail.cons_iff.mp trail
      have lower_x : h.base ≤ x.start := Nat.le_trans lower later
      have further : p ≤ x.payload := Nat.le_trans later (Nat.le_add_right ..)
      have pos : x.start ≠ 0 := by
        have := hp.base_pos
        omega
      have enough : xs.length < fuel := by simpa using enough
      rw [link, scan]
      simp only [pos, if_false, hp.flaw_eq_none head lower_x inside aligned]
      cases free : x.isFree with
      | false =>
        have busy : m.blockState x.start ≠ freeTag := by
          rw [Ne, head.state_eq_freeTag, free]
          decide
        have apart : coalesce (x :: xs) = x :: coalesce xs :=
          coalesce_cons_of_not_both _ _ fun y _ => by simp [free]
        obtain ⟨m', ys, result, scanned, rest, outcome⟩ := ih tail (Nat.le_trans lower further)
          ends.tail enough best fun b mem => ⟨(sizes b mem).1, Nat.le_trans (sizes b mem).2 further⟩
        rw [if_neg busy, head.next]
        refine ⟨m', x :: ys, result, scanned, .cons trail rest, ?_⟩
        cases outcome with
        | halted halts =>
          refine .halted (halts.imp fun bursts => ?_)
          obtain ⟨z, hz, large⟩ := bursts
          exact ⟨z, by simp [apart, hz], large⟩
        | found =>
          have same : select want best (coalesce xs) = select want best (coalesce (x :: xs)) := by
            rw [apart, select]
            simp [free]
          rw [← apart, same]
          exact .found
      | true =>
        rw [if_pos (head.state_eq_freeTag.mpr free)]
        obtain ⟨m₁, stop, x', ys, absorbed, trimmed, taken⟩ :=
          hp.absorb_trail free trail lower ends enough
        rw [absorbed]
        cases stop with
        | some halted =>
          exact ⟨m₁, x' :: ys, _, rfl, trimmed, .halted (taken.halts halted rfl)⟩
        | none =>
          have apart := taken.coalesced rfl
          obtain ⟨-, -, -, head', tail'⟩ := Trail.cons_iff.mp trimmed.trail
          have start : x'.start = x.start := trimmed.first
          have further' : p ≤ x'.payload := by
            unfold Block.payload
            omega
          have sizes' := trimmed.sizes trail sizes
          have better : improves m₁ want x.start (best.map Block.start) = x'.improves want best :=
            start ▸ improves_eq head'.size fun b mem => (sizes' b mem).1
          have fewer : ys.length ≤ xs.length := Nat.le_of_succ_le_succ trimmed.fewer
          have next : (if x'.improves want best then some x.start else best.map Block.start) =
              (if x'.improves want best then some x' else best).map Block.start := by
            rw [← start]
            split <;> rfl
          obtain ⟨m₂, zs, result, scanned, rest, outcome⟩ := ih tail' (Nat.le_trans lower further')
            (trimmed.ends ends).tail (Nat.lt_of_le_of_lt fewer enough)
            (if x'.improves want best then some x' else best) (by
              intro b mem
              split at mem
              · cases mem
                exact ⟨head'.size, Nat.le_refl _⟩
              · exact ⟨(sizes' b mem).1, Nat.le_trans (sizes' b mem).2 further'⟩)
          simp only [better]
          rw [next, ← start, head'.next]
          refine ⟨m₂, x' :: zs, result, scanned, trimmed.trans (.cons trimmed.trail rest), ?_⟩
          cases outcome with
          | halted halts =>
            refine .halted (halts.imp fun bursts => ?_)
            obtain ⟨z, hz, large⟩ := bursts
            exact ⟨z, by simp [apart, hz], large⟩
          | found =>
            have same :
                select want (if x'.improves want best then some x' else best) (coalesce ys) =
                  select want best (coalesce (x :: xs)) := by
              rw [apart, select]
              simp [taken.free]
            rw [← apart, same]
            exact .found

theorem load_coalesce (xs : List Block) : load (coalesce xs) = load xs := by
  induction xs with
  | nil => rfl
  | cons x xs ih =>
    rw [coalesce, load_cons, ← ih]
    split
    · rename_i empty
      rw [empty, load_cons]
    · rename_i y ys split
      rw [split]
      by_cases both : (x.isFree && y.isFree) = true
      · simp only [both, if_true, load_cons, Block.merge]
        omega
      · simp [both]

theorem size_le_load (mem : x ∈ xs) : headerSize + x.size ≤ load xs := by
  induction xs with
  | nil => simp at mem
  | cons y ys ih =>
    rw [load_cons]
    rcases List.mem_cons.mp mem with he | ht
    · subst x
      exact Nat.le_add_right ..
    · have := ih ht
      omega

/-- The blocks of a chain take no more than the addresses that they tile. -/
theorem Chain.not_bursts (chain : Chain m e p q xs) (hq : q < addressSpace) : ¬ Bursts xs := by
  intro bursts
  obtain ⟨z, mem, -, large⟩ := bursts
  have within := size_le_load mem
  have total := chain.sum
  rw [load_coalesce] at within
  unfold load at within
  omega

theorem Halts.fails {f : Flaw} {stop : Halted} (halts : Halts e xs (some f) stop) :
    Fails f (load xs) stop.failure := by
  cases halts with
  | flawed => exact .of_flaw f _
  | overflow bursts =>
    obtain ⟨z, mem, -, large⟩ := bursts
    have := size_le_load mem
    rw [load_coalesce] at this
    exact .inr ⟨rfl, .inr (by omega)⟩

inductive Served (h : Heap) (want e : Nat) (xs : List Block) (m' : Memory) :
    Option Flaw → List Block → Outcome Nat → Prop where
  | halted {f : Option Flaw} {ys : List Block} {stop : Halted} (halts : Halts e xs f stop) :
      Served h want e xs m' f ys ⟨h, m', stop.reports, .error stop.failure⟩
  | exhausted (small : ∀ y ∈ coalesce xs, y.isFree = true → y.size < want) :
      Served h want e xs m' none (coalesce xs)
        ⟨h, m', [.noFit want], .error (.refused .heapExhausted)⟩
  | granted {pre post : List Block} {z : Block} (split : coalesce xs = pre ++ z :: post)
      (best : Block.IsBest want pre z post) :
      Served h want e xs m' none (coalesce xs) ⟨h, occupy m' z.start want, [], .ok z.payload⟩

/-- An allocation in a carved region whose headers are a trail. -/
theorem Placed.allocAligned_trail (hp : Placed h) (carved : h.first = h.base)
    (trail : Trail h m e h.base xs) (first : link e xs = h.base) (ends : Ends h m xs e f)
    (want : Nat) :
    ∃ m' ys, Trimmed h e h.base m xs m' ys ∧
      Served h want e xs m' f ys (h.allocAligned m want) := by
  have length_le := trail.length_le (by unfold limit; omega)
  unfold limit at length_le
  have enough : xs.length < h.scanFuel := by
    unfold scanFuel
    have := Nat.le_mul_of_pos_right (h.size + 2) (show 0 < h.size + 2 by omega)
    omega
  obtain ⟨m', ys, result, scanned, trimmed, outcome⟩ := hp.scan_trail trail (Nat.le_refl _) ends
    enough want none (by simp)
  rw [first, Option.map_none] at scanned
  refine ⟨m', ys, trimmed, ?_⟩
  rw [allocAligned, carved, scanned]
  cases outcome with
  | halted halts => exact .halted halts
  | found =>
    cases chosen : select want none (coalesce xs) with
    | none => exact .exhausted (select_none chosen).2
    | some z =>
      obtain ⟨absurd, -⟩ | ⟨pre, post, split, best, -⟩ := select_some chosen
      · cases absurd
      obtain ⟨_, head⟩ := trimmed.trail.headed (x := z) (by simp [split])
      have room : ¬ m'.blockSize z.start < want := by
        rw [head.size]
        exact Nat.not_lt_of_le best.room
      simp only [Option.map_some, if_neg room]
      exact .granted split best

theorem Placed.alloc_trail (hp : Placed h) (carved : h.first = h.base)
    (trail : Trail h m e h.base xs) (first : link e xs = h.base) (ends : Ends h m xs e f)
    {size : Nat} (fits : max size 1 + (alignment - 1) < addressSpace) :
    ∃ m' ys, Trimmed h e h.base m xs m' ys ∧
      Served h (alignUp (max size 1)) e xs m' f ys (h.alloc m size) := by
  have base_pos := hp.base_pos
  rw [alloc, if_neg (Nat.not_le_of_lt fits), if_neg (by omega)]
  exact hp.allocAligned_trail carved trail first ends _

/-- The check of a trail to a bad block fails. -/
theorem Placed.survey_trail (hp : Placed h) (trail : Trail h m e p xs) (lower : h.base ≤ p)
    (ne : e ≠ 0) {f : Flaw} (flaw : h.flaw m e = some f) {fuel : Nat}
    (enough : xs.length < fuel) (t : Nat) (a : Bool) (s : Stats) :
    ∃ err, (h.survey m fuel (link e xs) t a s).1 = .error err ∧ Fails f (t + load xs) err := by
  induction xs generalizing p fuel t a s with
  | nil =>
    obtain _ | fuel := fuel
    · simp at enough
    rw [link, survey, if_neg ne]
    by_cases elsewhere : e ≠ t
    · exact ⟨_, congrArg Prod.fst (if_pos elsewhere), .inl rfl⟩
    · rw [if_neg elsewhere, flaw]
      exact ⟨_, rfl, .of_flaw f _⟩
  | cons x xs ih =>
    obtain _ | fuel := fuel
    · simp at enough
    obtain ⟨later, inside, aligned, head, tail⟩ := Trail.cons_iff.mp trail
    have lower_x : h.base ≤ x.start := Nat.le_trans lower later
    have pos : x.start ≠ 0 := by
      have := hp.base_pos
      omega
    rw [link, survey, if_neg pos]
    by_cases elsewhere : x.start ≠ t
    · exact ⟨_, congrArg Prod.fst (if_pos elsewhere), .inl rfl⟩
    rw [if_neg elsewhere, hp.flaw_eq_none head lower_x inside aligned]
    obtain rfl : x.start = t := Decidable.not_not.mp elsewhere
    simp only [head.size, head.next, load_cons]
    split
    · rename_i beyond
      exact ⟨_, rfl, .inr ⟨rfl, .inr (by omega)⟩⟩
    split
    · exact ⟨_, rfl, .inl rfl⟩
    · obtain ⟨err, failed, fails⟩ := ih tail (Nat.le_trans lower_x (Nat.le_add_right ..))
        (by simpa using enough) (x.start + headerSize + x.size)
        (decide (m.blockState x.start = freeTag))
        (s.add (decide (m.blockState x.start = freeTag)) a x.size)
      exact ⟨err, failed, fails.mono (by omega)⟩

end Trail

end Heap

end TaskKernel
