import TaskKernel.Proofs.Heap.Detection

namespace TaskKernel.Heap

def relinked (m : Memory) (b size next : Nat) : Memory :=
  (m.setBlockSize b size).setBlockNext b next

/-- The link leads to what cannot be a block: it lies outside the region or at no multiple of the
alignment, or has no header's tags, and is not to be overwritten when the blocks are merged. -/
structure Dangles (h : Heap) (m : Memory) (xs : List Block) (next : Nat) (f : Flaw) : Prop where
  ne : next ≠ 0
  flaw : h.flaw m next = some f
  apart : f = .damaged → ∀ x ∈ xs, x.isFree = true → next + 8 ≤ x.start ∨ x.payload ≤ next

/-- The link passes over blocks and leads to the rest of the chain. A free block claims no more than
it had, and is not joined to a free block that was not its neighbour. -/
structure Passes (b : Block) (size next : Nat) (skipped rest : List Block) : Prop where
  next : next = link 0 rest
  size : b.isFree = true → size ≤ b.size
  apart : b.isFree = true → skipped ≠ [] → ∀ y ∈ rest.head?, y.isFree = false

/-- The operation comes to an end, and writes inside the region and to no byte that a client
holds. -/
structure Harmless (r : Region) (s : Session) (m : Memory) (o : Outcome Nat) : Prop where
  ends : o.result ≠ .error .endless
  inside : ∀ c, o.memory.get c ≠ m.get c → r.start ≤ c ∧ c < r.start + r.length
  spares : ∀ x ∈ s.live, ∀ c, x.Covers c → o.memory.get c = m.get c

section Coalesce

variable {xs ys us vs : List Block} {c : Nat}

def Shrinks (ys xs : List Block) : Prop :=
  List.Forall₂ (fun y x => y.start = x.start ∧ y.isFree = x.isFree ∧
    (x.isFree = true → y.size ≤ x.size)) ys xs

theorem Shrinks.refl (xs : List Block) : Shrinks xs xs :=
  List.forall₂_same.mpr fun _ _ => ⟨rfl, rfl, fun _ => Nat.le_refl _⟩

theorem Shrinks.freeAt (h : Shrinks ys xs) (found : FreeAt ys c) : FreeAt xs c := by
  induction h with
  | nil => exact found
  | @cons y x ys xs same rest ih =>
    obtain ⟨start, state, size⟩ := same
    obtain ⟨z, mem, free, above, below⟩ := found
    rcases List.mem_cons.mp mem with he | ht
    · subst z
      have free : x.isFree = true := state ▸ free
      have smaller := size free
      refine ⟨x, by simp, free, start ▸ above, ?_⟩
      unfold Block.stop at below ⊢
      omega
    · exact (ih ⟨z, ht, free, above, below⟩).cons x

/-- Merging keeps blocks at the same places, none of them larger. -/
theorem Shrinks.coalesce (h : Shrinks ys xs) : Shrinks (coalesce ys) (coalesce xs) := by
  induction h with
  | nil => exact .nil
  | @cons y x ys xs same rest ih =>
    rw [Heap.coalesce, Heap.coalesce]
    obtain ⟨start, state, size⟩ := same
    generalize Heap.coalesce ys = vs at ih
    generalize Heap.coalesce xs = us at ih
    cases ih with
    | nil => exact .cons ⟨start, state, size⟩ .nil
    | @cons v u vs us same more =>
      obtain ⟨start', state', size'⟩ := same
      simp only [state, state']
      split
      · rename_i both
        obtain ⟨hx, hu⟩ := Bool.and_eq_true_iff.mp both
        have smaller := size hx
        have smaller' := size' hu
        refine .cons ⟨start, state, fun _ => ?_⟩ more
        simp only [Block.merge]
        omega
      · exact .cons ⟨start, state, size⟩ (.cons ⟨start', state', size'⟩ more)

/-- Merging does not cross a place with a busy block on one side. -/
theorem coalesce_append
    (apart : ∀ u ∈ us.getLast?, ∀ v ∈ vs.head?, (u.isFree && v.isFree) = false) :
    coalesce (us ++ vs) = coalesce us ++ coalesce vs := by
  induction us with
  | nil => rfl
  | cons x us ih =>
    cases us with
    | nil => exact coalesce_cons_of_not_both x vs (apart x rfl)
    | cons y us =>
      have rest := ih fun u mem => apart u (by rwa [List.getLast?_cons_cons])
      obtain ⟨z, zs, merged, -, -⟩ := coalesce_cons y us
      rw [List.cons_append, coalesce, rest, merged, coalesce, merged]
      simp only [List.cons_append]
      split <;> rfl

theorem FreeAt.append (found : FreeAt (us ++ vs) c) : FreeAt us c ∨ FreeAt vs c := by
  obtain ⟨z, mem, there⟩ := found
  rcases List.mem_append.mp mem with hl | hr
  · exact .inl ⟨z, hl, there⟩
  · exact .inr ⟨z, hr, there⟩

theorem FreeAt.subset (found : FreeAt us c) (sub : us ⊆ vs) : FreeAt vs c := by
  obtain ⟨z, mem, there⟩ := found
  exact ⟨z, sub mem, there⟩

end Coalesce

section Chain

variable {h : Heap} {m m' : Memory} {e p q size next c : Nat} {b : Block}
  {xs pre post skipped rest : List Block}

theorem Chain.stop_aligned (chain : Chain m e p q xs) (aligned : p % alignment = 0) :
    q % alignment = 0 := by
  induction chain with
  | nil => exact aligned
  | cons x xs own head tail ih => exact ih (Block.stop_aligned aligned own)

/-- The blocks up to one with another size, and those that its link passes on to, are merged within
the free blocks that there were. -/
theorem Chain.freeAt_passes (chain : Chain m 0 p q (pre ++ b :: (skipped ++ rest)))
    (passes : Passes b size next skipped rest)
    (found : FreeAt (coalesce (pre ++ { b with size } :: rest)) c) :
    FreeAt (pre ++ b :: (skipped ++ rest)) c := by
  have shrinks : ∀ zs, Shrinks (pre ++ { b with size } :: zs) (pre ++ b :: zs) := fun zs =>
    List.rel_append (Shrinks.refl pre) (.cons ⟨rfl, rfl, passes.size⟩ (Shrinks.refl zs))
  by_cases joined : b.isFree = true ∧ skipped = []
  · obtain ⟨-, rfl⟩ := joined
    exact .of_coalesce chain ((shrinks rest).coalesce.freeAt found)
  -- otherwise the block is not merged with the one that its link leads to
  have apart : ∀ u ∈ (pre ++ [{ b with size }]).getLast?, ∀ v ∈ rest.head?,
      (u.isFree && v.isFree) = false := by
    intro u last v first
    obtain rfl : { b with size } = u := by simpa using last
    cases free : b.isFree with
    | false => rfl
    | true =>
      have ne : skipped ≠ [] := fun empty => joined ⟨free, empty⟩
      simp [passes.apart free ne v first]
  rw [List.append_cons, coalesce_append apart] at found
  rcases found.append with before | after
  · rw [List.append_cons] at chain
    obtain ⟨_, upTo, -⟩ := Chain.append_iff.mp chain
    have free : FreeAt (pre ++ [b]) c := .of_coalesce upTo ((shrinks []).coalesce.freeAt before)
    rw [List.append_cons]
    exact free.subset (List.subset_append_left ..)
  · rw [← List.cons_append, ← List.append_assoc] at chain ⊢
    obtain ⟨_, -, beyond⟩ := Chain.append_iff.mp chain
    exact (FreeAt.of_coalesce beyond after).subset (List.subset_append_right ..)

theorem get_relinked (m : Memory) {b c : Nat} (off : c < b ∨ b + headerSize ≤ c) (size next : Nat) :
    (relinked m b size next).get c = m.get c := by
  unfold headerSize at off
  unfold relinked Memory.setBlockSize Memory.setBlockNext
  rw [Memory.get_setNat_of_outside _ _ _ _ _ (by omega),
    Memory.get_setNat_of_outside _ _ _ _ _ (by omega)]

/-- The headers up to the one with another link, and those that it leads to. -/
theorem Chain.relinked_trail (chain : Chain m 0 p q (pre ++ b :: post)) (rest : List Block)
    (lower : p % alignment = 0) (upper : q ≤ h.limit) (size_lt : size < addressSpace)
    (next_lt : link e rest < addressSpace)
    (onward : Trail h (relinked m b.start size (link e rest)) e b.payload rest) :
    Trail h (relinked m b.start size (link e rest)) e p (pre ++ { b with size } :: rest) := by
  obtain ⟨head, -, -, within⟩ := chain.head_at
  have before : Chain _ b.start p b.start pre := chain.before fun c below =>
    get_relinked m (.inl below) size (link e rest)
  have inside : b.payload ≤ h.limit := Nat.le_trans b.payload_le_stop (Nat.le_trans within upper)
  refine Chain.trail before lower (Nat.le_trans (Nat.le_add_right ..) inside) ?_
  refine .cons { b with size } rest (Nat.le_refl _) inside
    (chain.start_aligned (x := b) lower (by simp)) ?_ onward
  exact (head.setBlockSize size_lt).setBlockNext next_lt

theorem Chain.link_relinked (chain : Chain m 0 p q (pre ++ b :: post)) :
    link e (pre ++ { b with size } :: rest) = p := by
  obtain ⟨_, before, after⟩ := Chain.append_iff.mp chain
  obtain ⟨rfl, -⟩ := Chain.cons_iff.mp after
  rw [link_append]
  exact before.spans.link_start

/-- The chain from the block on that the link leads to. -/
theorem Chain.onward (chain : Chain m 0 p q (pre ++ b :: (skipped ++ rest)))
    (lower : p % alignment = 0) (upper : q ≤ h.limit) (size next : Nat) :
    Trail h (relinked m b.start size next) 0 b.payload rest := by
  obtain ⟨_, -, after⟩ := Chain.append_iff.mp chain
  obtain ⟨rfl, own, -, after⟩ := Chain.cons_iff.mp after
  have aligned : b.stop % alignment = 0 :=
    Block.stop_aligned (chain.start_aligned lower (by simp)) own
  obtain ⟨r, between, beyond⟩ := Chain.append_iff.mp after
  have further : b.payload ≤ r := Nat.le_trans b.payload_le_stop between.le
  have kept : Chain (relinked m b.start size next) 0 r q rest :=
    beyond.preserve_outside fun c above _ => get_relinked m (.inr (by
      unfold Block.payload at further
      omega)) size next
  have trail : Trail h (relinked m b.start size next) 0 r (rest ++ []) :=
    Chain.trail kept (between.stop_aligned aligned) upper (.nil _)
  rw [List.append_nil] at trail
  exact trail.weaken further

theorem FreeHeaderAt.relinked (found : FreeHeaderAt (pre ++ { b with size } :: rest) c)
    (sub : rest ⊆ post) : FreeHeaderAt (pre ++ b :: post) c := by
  obtain ⟨x, mem, free, there⟩ := found
  rcases List.mem_append.mp mem with hl | hr
  · exact ⟨x, by simp [hl], free, there⟩
  rcases List.mem_cons.mp hr with he | ht
  · subst x
    exact ⟨b, by simp, free, there⟩
  · exact ⟨x, by simp [sub ht], free, there⟩

/-- A link that leads nowhere is where the walk is stuck. -/
theorem Dangles.ends {f : Flaw} (dangles : Dangles h m xs next f)
    (sub : ∀ c, FreeHeaderAt pre c → FreeHeaderAt xs c) : Ends h m pre next (some f) := by
  refine .stuck dangles.ne fun m' same => ?_
  by_cases damaged : f = .damaged
  · have clear : ∀ c, next ≤ c → c < next + 8 → m'.get c = m.get c := by
      intro c above below
      refine same c fun found => ?_
      obtain ⟨x, mem, free, there⟩ := sub c found
      have := dangles.apart damaged x mem free
      omega
    rw [← dangles.flaw]
    apply flaw_of_tags
    · exact Memory.nat_congr fun c above below => clear c above (by omega)
    · exact Memory.nat_congr fun c above below => clear c (by omega) (by omega)
  · exact flaw_of_place dangles.flaw damaged m'

end Chain

section Reached

variable {r : Region} {s : Session} {m : Memory} {xs pre post : List Block} {b : Block}

/-- A free address of the chain lies in the region, and no client holds it. -/
theorem Serves.unclaimed {live : List Allocation} (serves : Serves xs live)
    (used : 0 < r.heap.size) (chain : Chain m 0 r.heap.base r.heap.limit xs) {c : Nat}
    (free : FreeAt xs c) :
    (r.start ≤ c ∧ c < r.start + r.length) ∧ ∀ x ∈ live, ¬ x.Covers c := by
  refine ⟨?_, fun x hx covers => serves.not_freeAt chain hx covers free⟩
  obtain ⟨z, mem, -, above, below⟩ := free
  have within := chain.bounds mem
  have start := r.start_le
  have stop := r.limit_le used
  omega

/-- An operation that ends and writes to free addresses only is harmless. -/
theorem Harmless.of_free {o : Outcome Nat} (serves : Serves xs s.live) (used : 0 < r.heap.size)
    {m₀ : Memory} (chain : Chain m₀ 0 r.heap.base r.heap.limit xs)
    (ends : o.result ≠ .error .endless) (frame : ∀ c, ¬ FreeAt xs c → o.memory.get c = m.get c) :
    Harmless r s m o where
  ends := ends
  inside c changed := (serves.unclaimed used chain (Classical.not_not.mp fun busy =>
    changed (frame c busy))).1
  spares x mem c covers := frame c fun free => (serves.unclaimed used chain free).2 x mem covers

/-- A request that cannot be rounded up is refused. -/
theorem alloc_of_huge {h : Heap} {size : Nat} (huge : addressSpace ≤ max size 1 + (alignment - 1)) :
    h.alloc m size = ⟨h, m, [.sizeOverflow size], .error (.refused .heapExhausted)⟩ := if_pos huge

section Damaged

variable {skipped rest : List Block} {size next : Nat} {f : Flaw}

/-- An allocation fails at a link that leads nowhere. -/
theorem Dangles.alloc (used : 0 < r.heap.size)
    (chain : Chain m 0 r.heap.base r.heap.limit (pre ++ b :: post)) (size_lt : size < addressSpace)
    (next_lt : next < addressSpace)
    (dangles : Dangles r.carved (relinked m b.start size next) (pre ++ b :: post) next f)
    (n : Nat) :
    ∃ m' reports err, r.carved.alloc (relinked m b.start size next) n =
        ⟨r.carved, m', reports, .error err⟩ ∧ err ≠ .endless ∧
      ∀ c, ¬ FreeAt (pre ++ b :: post) c → m'.get c = (relinked m b.start size next).get c := by
  by_cases huge : addressSpace ≤ max n 1 + (alignment - 1)
  · exact ⟨_, _, _, alloc_of_huge huge, by simp, fun _ _ => rfl⟩
  have trail : Trail r.carved (relinked m b.start size next) next r.heap.base
      (pre ++ [{ b with size }]) :=
    chain.relinked_trail [] r.base_aligned (Nat.le_refl _) size_lt next_lt (.nil _)
  have sub : ∀ c, FreeHeaderAt (pre ++ [{ b with size }]) c → FreeHeaderAt (pre ++ b :: post) c :=
    fun c found => found.relinked (List.nil_subset post)
  obtain ⟨m', ys, trimmed, served⟩ := (r.placed used).alloc_trail rfl trail chain.link_relinked
    (dangles.ends sub) (Nat.lt_of_not_le huge)
  generalize r.carved.alloc (relinked m b.start size next) n = o at served ⊢
  cases served with
  | halted halts =>
    refine ⟨m', _, _, rfl, ?_, fun c busy => trimmed.frame c fun found => busy (sub c found).freeAt⟩
    rcases halts.fails with corrupted | ⟨overflow, -⟩
    · simp [corrupted]
    · simp [overflow]

/-- An allocation past a link that leads on along the chain takes free addresses, if it takes
any. -/
theorem Passes.alloc (used : 0 < r.heap.size)
    (chain : Chain m 0 r.heap.base r.heap.limit (pre ++ b :: (skipped ++ rest)))
    (size_lt : size < addressSpace) (passes : Passes b size next skipped rest) (n : Nat) :
    ∃ m' reports result, r.carved.alloc (relinked m b.start size next) n =
        ⟨r.carved, m', reports, result⟩ ∧
      (result = .error (.refused .heapExhausted) ∨ ∃ a, result = .ok a ∧
        ∀ c, a ≤ c → c < a + max n 1 → FreeAt (pre ++ b :: (skipped ++ rest)) c) ∧
      ∀ c, ¬ FreeAt (pre ++ b :: (skipped ++ rest)) c →
        m'.get c = (relinked m b.start size next).get c := by
  by_cases huge : addressSpace ≤ max n 1 + (alignment - 1)
  · exact ⟨_, _, _, alloc_of_huge huge, .inl rfl, fun _ _ => rfl⟩
  have limit_lt := (r.placed used).limit_lt
  obtain rfl := passes.next
  have covers : ∀ z ∈ coalesce (pre ++ { b with size } :: rest), z.isFree = true →
      ∀ c, z.Covers c → FreeAt (pre ++ b :: (skipped ++ rest)) c :=
    fun z mem free c covers => chain.freeAt_passes passes ⟨z, mem, free, covers⟩
  have next_lt : link 0 rest < addressSpace := by
    rw [List.append_cons, ← List.append_assoc] at chain
    obtain ⟨_, -, beyond⟩ := Chain.append_iff.mp chain
    exact Nat.lt_of_le_of_lt beyond.link_le limit_lt
  have onward := chain.onward (h := r.carved) r.base_aligned (Nat.le_refl _) size (link 0 rest)
  have trail := chain.relinked_trail (h := r.carved) rest r.base_aligned (Nat.le_refl _) size_lt
    next_lt onward
  have sub : ∀ c, FreeHeaderAt (pre ++ { b with size } :: rest) c →
      FreeHeaderAt (pre ++ b :: (skipped ++ rest)) c :=
    fun c found => found.relinked (List.subset_append_right skipped rest)
  obtain ⟨m', ys, trimmed, served⟩ := (r.placed used).alloc_trail rfl trail chain.link_relinked
    .null (Nat.lt_of_not_le huge)
  have frame : ∀ c, ¬ FreeAt (pre ++ b :: (skipped ++ rest)) c →
      m'.get c = (relinked m b.start size (link 0 rest)).get c :=
    fun c busy => trimmed.frame c fun found => busy (sub c found).freeAt
  generalize r.carved.alloc (relinked m b.start size (link 0 rest)) n = o at served ⊢
  cases served with
  | halted halts =>
    cases halts with
    | overflow bursts =>
      obtain ⟨z, mem, free, large⟩ := bursts
      obtain ⟨y, hy, -, -, below⟩ := covers z mem free (z.start + headerSize + z.size - 1) (by
        unfold Block.Covers Block.stop headerSize
        omega)
      have within := (chain.bounds hy).2
      change r.heap.limit < addressSpace at limit_lt
      unfold headerSize at below
      omega
  | exhausted => exact ⟨m', _, _, rfl, .inl rfl, frame⟩
  | @granted before after z split best =>
    have mem : z ∈ coalesce (pre ++ { b with size } :: rest) := by simp [split]
    have room := best.room
    have large := (le_alignUp (max n 1)).1
    refine ⟨_, _, _, rfl, .inr ⟨_, rfl, fun c above below => covers z mem best.free c ?_⟩, ?_⟩
    · unfold Block.Covers Block.stop
      unfold Block.payload at above below
      omega
    · intro c busy
      obtain ⟨_, head⟩ := trimmed.trail.headed mem
      rw [get_occupy room head.size fun there => busy (covers z mem best.free c there)]
      exact frame c busy

/-- The check fails at a link that leads nowhere. -/
theorem Dangles.check (used : 0 < r.heap.size)
    (chain : Chain m 0 r.heap.base r.heap.limit (pre ++ b :: post)) (size_lt : size < addressSpace)
    (next_lt : next < addressSpace)
    (dangles : Dangles r.carved (relinked m b.start size next) (pre ++ b :: post) next f) :
    ∃ err, (r.carved.check (relinked m b.start size next)).1 = .error err ∧ err ≠ .endless := by
  have base_pos := r.base_pos
  have trail : Trail r.carved (relinked m b.start size next) next r.heap.base
      (pre ++ [{ b with size }]) :=
    chain.relinked_trail [] r.base_aligned (Nat.le_refl _) size_lt next_lt (.nil _)
  have length_le := trail.length_le (Nat.le_add_right ..)
  have first : link next (pre ++ [{ b with size }]) = r.heap.base := chain.link_relinked
  have enough : (pre ++ [{ b with size }]).length < r.heap.size + 2 := by
    change r.heap.base + _ ≤ r.heap.base + r.heap.size at length_le
    omega
  obtain ⟨err, failed, fails⟩ := (r.placed used).survey_trail trail (Nat.le_refl _) dangles.ne
    dangles.flaw enough r.heap.base false {}
  rw [first] at failed
  refine ⟨err, (congrArg Prod.fst (if_neg (Nat.ne_of_gt base_pos))).trans failed, ?_⟩
  rcases fails with corrupted | ⟨overflow, -⟩
  · simp [corrupted]
  · simp [overflow]

end Damaged

/-- After the size and the link of a header have been overwritten: if the link leads nowhere, the
check and every allocation fail. If it leads on along the chain, and a free block claims no more
than it had, every allocation gives addresses that no client holds, or none. Allocations are
harmless in both cases. -/
theorem Session.Reached.withstands (reached : Reached r s)
    (laid : Laid r s.heap s.memory (pre ++ b :: post)) {size next : Nat}
    (size_lt : size < addressSpace) (next_lt : next < addressSpace) :
    (∀ f, Dangles s.heap (relinked s.memory b.start size next) (pre ++ b :: post) next f →
      (∃ err, (s.heap.check (relinked s.memory b.start size next)).1 = .error err ∧
        err ≠ .endless) ∧
      ∀ n, Harmless r s (relinked s.memory b.start size next)
          (s.heap.alloc (relinked s.memory b.start size next) n) ∧
        ∃ err, (s.heap.alloc (relinked s.memory b.start size next) n).result = .error err) ∧
    ∀ skipped rest, post = skipped ++ rest → Passes b size next skipped rest →
      ∀ n, Harmless r s (relinked s.memory b.start size next)
          (s.heap.alloc (relinked s.memory b.start size next) n) ∧
        ∀ a, (s.heap.alloc (relinked s.memory b.start size next) n).result = .ok a →
          ∀ c, a ≤ c → c < a + max n 1 →
            (r.start ≤ c ∧ c < r.start + r.length) ∧ ∀ x ∈ s.live, ¬ x.Covers c := by
  obtain ⟨carved, used, chain⟩ := laid.chain_of_mem (b := b) (by simp)
  have serves := reached.sound.serves carved chain
  rw [carved]
  refine ⟨fun f dangles => ⟨dangles.check used chain size_lt next_lt, fun n => ?_⟩,
    fun skipped rest split passes n => ?_⟩
  · obtain ⟨m', reports, err, outcome, ends, frame⟩ := dangles.alloc used chain size_lt next_lt n
    rw [outcome]
    exact ⟨.of_free serves used chain (by simpa using ends) frame, err, rfl⟩
  · subst split
    obtain ⟨m', reports, result, outcome, taken, frame⟩ := passes.alloc used chain size_lt n
    rw [outcome]
    rcases taken with rfl | ⟨a, rfl, free⟩
    · exact ⟨.of_free serves used chain (by simp) frame, by simp⟩
    · refine ⟨.of_free serves used chain (by simp) frame, fun a' granted c above below => ?_⟩
      cases granted
      exact serves.unclaimed used chain (free c above below)

/-- The walk does not get past a busy block that is linked to itself, however many steps it
takes. -/
theorem scan_circle {h : Heap} {b : Nat} (pos : b ≠ 0) (flawless : h.flaw m b = none)
    (busy : m.blockState b ≠ freeTag) (circle : m.blockNext b = b) (want fuel : Nat)
    (best : Option Nat) : h.scan want fuel m b best = (m, .error .endless) := by
  induction fuel with
  | zero => rfl
  | succ fuel ih =>
    rw [scan, if_neg pos, flawless]
    simp only [busy, if_false, circle, ih]

/-- Once the first block is busy and linked to itself, no allocation comes to an end. -/
theorem Laid.circles {h : Heap} (laid : Laid r h m (b :: post)) (busy : b.isFree = false)
    {size n : Nat} (size_lt : size < addressSpace)
    (fits : max n 1 + (alignment - 1) < addressSpace) :
    (h.alloc (relinked m b.start size b.start) n).result = .error .endless := by
  obtain ⟨carved, used, chain⟩ := laid.chain_of_mem (b := b) (by simp)
  have hp := r.placed used
  have limit_lt := hp.limit_lt
  obtain ⟨first, -, head, tail⟩ := Chain.cons_iff.mp chain
  have first : r.carved.first = b.start := first
  have pos : b.start ≠ 0 := first ▸ Nat.ne_of_gt r.base_pos
  have inside : b.payload ≤ r.heap.limit := Nat.le_trans b.payload_le_stop tail.le
  have start_lt : b.start < addressSpace :=
    Nat.lt_of_le_of_lt (Nat.le_trans (Nat.le_add_right ..) inside) limit_lt
  have head : Headed (relinked m b.start size b.start) { b with size } b.start :=
    (head.setBlockSize size_lt).setBlockNext start_lt
  have flawless := hp.flaw_eq_none head (Nat.le_of_eq first) inside
    (first ▸ r.base_aligned)
  have state : (relinked m b.start size b.start).blockState b.start ≠ freeTag := by
    rw [Ne, head.state_eq_freeTag, busy]
    decide
  rw [carved, alloc, if_neg (Nat.not_le_of_lt fits), first, if_neg pos, allocAligned, first,
    scan_circle pos flawless state head.next]
  rfl

end Reached

namespace Session

def crowded : Session :=
  (((⟨ofRegion 4096 200, {}, []⟩ : Session).act (.alloc 8)).act (.alloc 16)).act (.free 4120)

theorem reached_crowded : Reached ⟨4096, 200, by decide, by decide⟩ crowded :=
  (((Reached.init {}).act (.alloc 8) trivial).act (.alloc 16) trivial).act (.free 4120)
    (by unfold Allows; decide +kernel)

theorem laid_crowded : Laid ⟨4096, 200, by decide, by decide⟩ crowded.heap crowded.memory
    [⟨4096, 8, true⟩, ⟨4128, 16, false⟩, ⟨4168, 104, true⟩] := by
  have carved : crowded.heap = Region.carved ⟨4096, 200, by decide, by decide⟩ := by decide +kernel
  rw [carved]
  exact .carved (by decide) (by decide +kernel)

/-- The busy block is linked past the last one, whatever its size, and the first one out of the
region. -/
theorem withstands_crowded : Reached ⟨4096, 200, by decide, by decide⟩ crowded ∧
    (crowded.heap.alloc (relinked crowded.memory 4128 5000 0) 8).result = .ok 4120 ∧
    (∀ c, 4120 ≤ c → c < 4128 → ∀ x ∈ crowded.live, ¬ x.Covers c) ∧
    ∃ err, (crowded.heap.alloc (relinked crowded.memory 4096 8 64) 8).result = .error err := by
  have granted :
      (crowded.heap.alloc (relinked crowded.memory 4128 5000 0) 8).result = .ok 4120 := by
    decide +kernel
  have passes : Passes ⟨4128, 16, false⟩ 5000 0 [⟨4168, 104, true⟩] [] := ⟨rfl, by simp, by simp⟩
  have dangles : Dangles crowded.heap (relinked crowded.memory 4096 8 64)
      ([] ++ ⟨4096, 8, true⟩ :: [⟨4128, 16, false⟩, ⟨4168, 104, true⟩]) 64 .outside :=
    ⟨by decide, by decide +kernel, by simp⟩
  have second : Laid ⟨4096, 200, by decide, by decide⟩ crowded.heap crowded.memory
      ([⟨4096, 8, true⟩] ++ ⟨4128, 16, false⟩ :: [⟨4168, 104, true⟩]) := laid_crowded
  have first : Laid ⟨4096, 200, by decide, by decide⟩ crowded.heap crowded.memory
      ([] ++ ⟨4096, 8, true⟩ :: [⟨4128, 16, false⟩, ⟨4168, 104, true⟩]) := laid_crowded
  have busy := reached_crowded.withstands second (show 5000 < addressSpace by decide)
    (show 0 < addressSpace by decide)
  have free := reached_crowded.withstands first (show 8 < addressSpace by decide)
    (show 64 < addressSpace by decide)
  refine ⟨reached_crowded, granted, fun c above below => ?_, ((free.1 _ dangles).2 8).2⟩
  exact ((busy.2 [⟨4168, 104, true⟩] [] rfl passes 8).2 _ granted c above below).2

/-- A free block that claims 100 bytes where it has 8 is handed out, though the check finds it. What
is left over is made a block inside the payload of the next one. -/
theorem overrun_crowded : Reached ⟨4096, 200, by decide, by decide⟩ crowded ∧
    Laid ⟨4096, 200, by decide, by decide⟩ crowded.heap crowded.memory
      [⟨4096, 8, true⟩, ⟨4128, 16, false⟩, ⟨4168, 104, true⟩] ∧
    (crowded.heap.check (relinked crowded.memory 4096 100 4128)).1 =
      .error (.refused .heapCorrupted) ∧
    (crowded.heap.alloc (relinked crowded.memory 4096 100 4128) 24).result = .ok 4120 ∧
    ⟨4152, 16⟩ ∈ crowded.live ∧
    (relinked crowded.memory 4096 100 4128).bytes 4152 8 = [0, 0, 0, 0, 0, 0, 0, 0] ∧
    (crowded.heap.alloc (relinked crowded.memory 4096 100 4128) 24).memory.bytes 4152 8 =
      [52, 0, 0, 0, 0, 0, 0, 0] :=
  ⟨reached_crowded, laid_crowded, by decide +kernel, by decide +kernel, by decide +kernel,
    by decide +kernel, by decide +kernel⟩

end Session

end TaskKernel.Heap
