import Mathlib.Tactic.Common
import TaskKernel.Proofs.Heap.Survey

namespace TaskKernel.Heap

def blockAt (m : Memory) (b : Nat) : Block :=
  { start := b, size := m.blockSize b, isFree := m.blockState b = freeTag }

/-- A block that passes the test has a header, inside the region and at an aligned address. -/
theorem headed_of_flawless {h : Heap} {m : Memory} {b : Nat} (flawless : h.flaw m b = none) :
    h.base ≤ b ∧ b + headerSize ≤ h.limit ∧ b % alignment = 0 ∧
      Headed m (blockAt m b) (m.blockNext b) := by
  unfold flaw at flawless
  split at flawless
  · cases flawless
  rename_i lower
  split at flawless
  · cases flawless
  split at flawless
  · cases flawless
  rename_i inside
  split at flawless
  · cases flawless
  rename_i tag
  split at flawless
  · cases flawless
  rename_i state
  refine ⟨by omega, by omega, by omega, Decidable.not_not.mp tag, ?_, rfl, rfl⟩
  change m.blockState b = if decide (m.blockState b = freeTag) then freeTag else busyTag
  by_cases free : m.blockState b = freeTag
  · simp [free]
  · simpa [free] using state

theorem beyond_of_flaw {h : Heap} {m : Memory} {b : Nat} (flaw : h.flaw m b = some .overflow) :
    addressSpace ≤ b + headerSize := by
  unfold Heap.flaw at flaw
  split at flaw
  · cases flaw
  split at flaw
  · assumption
  split at flaw
  · cases flaw
  split at flaw
  · cases flaw
  split at flaw <;> cases flaw

/-- The blocks from `p` on lead to an address from which a header or a block would reach beyond the
address space. -/
structure Overshoots (h : Heap) (m : Memory) (p : Nat) (xs : List Block) (b : Nat) : Prop where
  spans : Spans m b p b xs
  straight : Straight xs
  inside : b ≤ h.limit
  beyond : addressSpace ≤ b + headerSize ∨
    h.flaw m b = none ∧ addressSpace ≤ (blockAt m b).stop

/-- How a walk ends that expects at `p` the first of its blocks, and goes there from a link to
`b`. -/
inductive Surveyed (h : Heap) (m : Memory) (p b : Nat) (a : Bool) (s : Stats) :
    Except Failure Stats → Prop where
  | accepted {xs : List Block} (first : b = link 0 xs) (spans : Spans m 0 p h.limit xs)
      (straight : Straight xs) : Surveyed h m p b a s (.ok (s.tally a xs))
  | overshot {xs : List Block} {c : Nat} (first : b = link c xs)
      (overshoots : Overshoots h m p xs c) : Surveyed h m p b a s (.error .overflow)
  | refused : Surveyed h m p b a s (.error (.refused .heapCorrupted))

section Survey

variable {h : Heap} {m : Memory} {b p : Nat} {a : Bool} {s : Stats}

/-- The walk passes a block. -/
theorem Surveyed.cons {x : Block} {next : Nat} {r : Except Failure Stats} (head : Headed m x next)
    (aligned : x.start % alignment = 0)
    (rest : Surveyed h m x.stop next x.isFree (s.add x.isFree a x.size) r) :
    Surveyed h m x.start x.start a s r := by
  cases rest with
  | @accepted xs first spans straight =>
    have start : x.start = link 0 (x :: xs) := rfl
    exact .accepted start (.cons x xs (first ▸ head) spans)
      (List.forall_mem_cons.mpr ⟨aligned, straight⟩)
  | @overshot xs c first overshoots =>
    have start : x.start = link c (x :: xs) := rfl
    exact .overshot start
      { overshoots with
        spans := .cons x xs (first ▸ head) overshoots.spans
        straight := List.forall_mem_cons.mpr ⟨aligned, overshoots.straight⟩ }
  | refused => exact .refused

/-- Each step of the walk moves on by a header at least, so that the walk ends. -/
theorem surveyed {fuel : Nat} (le : p ≤ h.limit) (enough : h.limit < p + fuel) (b : Nat) (a : Bool)
    (s : Stats) : Surveyed h m p b a s (h.survey m fuel b p a s).1 := by
  induction fuel generalizing p b a s with
  | zero => omega
  | succ fuel ih =>
    rw [survey]
    by_cases last : b = 0
    · subst b
      rw [if_pos rfl]
      by_cases stop : p = h.limit
      · rw [if_pos stop]
        have start : 0 = link 0 [] := rfl
        exact .accepted start (stop ▸ .nil p) (by simp [Straight])
      · rw [if_neg stop]
        exact .refused
    rw [if_neg last]
    by_cases elsewhere : b ≠ p
    · rw [if_pos elsewhere]
      exact .refused
    rw [if_neg elsewhere]
    obtain rfl : b = p := Decidable.not_not.mp elsewhere
    have start : b = link b [] := rfl
    have nothing : Straight [] := by simp [Straight]
    cases flaw : h.flaw m b with
    | some f =>
      cases f with
      | outside => exact .refused
      | damaged => exact .refused
      | overflow => exact .overshot start ⟨.nil b, nothing, le, .inl (beyond_of_flaw flaw)⟩
    | none =>
      obtain ⟨-, -, aligned, head⟩ := headed_of_flawless flaw
      simp only
      split
      · rename_i beyond
        exact .overshot start ⟨.nil b, nothing, le, .inr ⟨flaw, beyond⟩⟩
      · split
        · exact .refused
        · rename_i inside
          have inside : (blockAt m b).stop ≤ h.limit := Nat.le_of_not_lt inside
          have further : b < (blockAt m b).stop := by
            change b < b + headerSize + m.blockSize b
            unfold headerSize
            omega
          exact .cons head aligned (ih inside (by omega) _ _ _)

/-- The walk along blocks that overshoot comes to the sum that leaves the address space. -/
theorem Placed.survey_overshoots (hp : Placed h) {xs : List Block} {c : Nat}
    (overshoots : Overshoots h m h.base xs c) (fuel : Nat) (enough : xs.length < fuel) :
    (h.survey m fuel (link c xs) h.base a s).1 = .error .overflow := by
  obtain ⟨fuel, rfl⟩ := Nat.exists_eq_add_of_lt enough
  have further := overshoots.spans.le
  have base_pos := hp.base_pos
  obtain ⟨a', along⟩ := hp.survey_along overshoots.spans overshoots.straight (Nat.le_refl _)
    overshoots.inside (fuel + 1) a s
  rw [show xs.length + fuel + 1 = fuel + 1 + xs.length by omega, along, survey, if_neg (by omega),
    if_neg (by simp)]
  rcases overshoots.beyond with beyond | ⟨flaw, beyond⟩
  · have flaw : h.flaw m c = some .overflow := by
      unfold flaw
      rw [if_neg (by omega), if_pos beyond]
    rw [flaw]
    rfl
  · rw [flaw]
    exact congrArg Prod.fst (if_pos beyond)

/-- The heap was never used, or blocks at aligned addresses tile its region. -/
inductive WellFormed (h : Heap) (m : Memory) : Stats → Prop where
  | uncarved (unused : h.first = 0) : WellFormed h m {}
  | tiled {xs : List Block} (carved : h.first = h.base) (ne : xs ≠ [])
      (spans : Spans m 0 h.base h.limit xs) (straight : Straight xs) :
      WellFormed h m (.ofBlocks xs)

theorem check_carved (hp : Placed h) (carved : h.first = h.base) :
    h.check m = h.survey m (h.size + 2) h.base h.base false {} := by
  have base_pos := hp.base_pos
  rw [check, if_neg (by omega), carved]

/-- The walk of the check, with the cases in which it ends. -/
theorem Placed.checked (hp : Placed h) (carved : h.first = h.base) (m : Memory) :
    Surveyed h m h.base h.base false {} (h.check m).1 := by
  rw [check_carved hp carved]
  exact surveyed (by unfold limit; omega) (by unfold limit; omega) _ _ _

theorem Placed.check_of_wellFormed (hp : Placed h) {stats : Stats} (wf : WellFormed h m stats) :
    (h.check m).1 = .ok stats := by
  cases wf with
  | uncarved unused => rw [check, if_pos unused]
  | tiled carved ne spans straight =>
    rw [hp.check_spans carved spans straight ne]

/-- The check of a carved heap fails for a sum that leaves the address space just if its blocks
overshoot. -/
theorem Placed.check_overflow_iff (hp : Placed h) (carved : h.first = h.base) :
    (h.check m).1 = .error .overflow ↔ ∃ xs b, Overshoots h m h.base xs b := by
  constructor
  · intro failed
    have walk := hp.checked carved m
    rw [failed] at walk
    cases walk with
    | overshot first overshoots => exact ⟨_, _, overshoots⟩
  · intro found
    obtain ⟨xs, b, overshoots⟩ := found
    have length_le := overshoots.spans.length_le
    have inside := overshoots.inside
    unfold limit at inside
    rw [check_carved hp carved, ← hp.survey_overshoots (a := false) (s := {}) overshoots
      (h.size + 2) (by omega), overshoots.spans.link_start]

section Footprint

variable {m' : Memory}

theorem flaw_congr (same : ∀ c, h.base ≤ c → c < h.limit → m'.get c = m.get c) (b : Nat) :
    h.flaw m' b = h.flaw m b := by
  unfold flaw
  split
  · rfl
  split
  · rfl
  split
  · rfl
  · rename_i lower _ inside
    obtain ⟨tag, state, -, -⟩ := Memory.header_congr (b := b)
      fun c above below => same c (by omega) (by omega)
    rw [tag, state]

/-- The walk reads the bytes of the region alone. -/
theorem survey_congr (same : ∀ c, h.base ≤ c → c < h.limit → m'.get c = m.get c) (fuel b p : Nat)
    (a : Bool) (s : Stats) : h.survey m' fuel b p a s = h.survey m fuel b p a s := by
  induction fuel generalizing b p a s with
  | zero => rfl
  | succ fuel ih =>
    rw [survey, survey, flaw_congr same]
    cases flaw : h.flaw m b with
    | some f => rfl
    | none =>
      obtain ⟨lower, upper, -, -⟩ := headed_of_flawless flaw
      obtain ⟨-, state, size, next⟩ := Memory.header_congr (b := b)
        fun c above below => same c (by omega) (by omega)
      simp only [state, size, next, ih]

theorem check_congr (same : ∀ c, h.base ≤ c → c < h.limit → m'.get c = m.get c) :
    h.check m' = h.check m := by
  unfold check
  rw [survey_congr same]

end Footprint

/-- On every content of the memory the check comes to an end. It accepts just what is well formed,
with the statistics of its blocks, and refuses the rest as corrupted as long as every sum stays in
the address space. What it finds depends on the bytes of the region alone. -/
theorem Placed.check_exact (hp : Placed h) (first : h.first = 0 ∨ h.first = h.base) (m : Memory) :
    (∀ stats, (h.check m).1 = .ok stats ↔ WellFormed h m stats) ∧
    (h.check m).1 ≠ .error .endless ∧
    ((∀ xs b, ¬ Overshoots h m h.base xs b) →
      ∀ f, (h.check m).1 = .error f → f = .refused .heapCorrupted) ∧
    ∀ m' : Memory, (∀ c, h.base ≤ c → c < h.limit → m'.get c = m.get c) →
      h.check m' = h.check m := by
  have accepts : ∀ stats, WellFormed h m stats → (h.check m).1 = .ok stats :=
    fun _ => hp.check_of_wellFormed
  have footprint : ∀ m' : Memory, (∀ c, h.base ≤ c → c < h.limit → m'.get c = m.get c) →
      h.check m' = h.check m := fun _ => check_congr
  rcases first with unused | carved
  · have uncarved := WellFormed.uncarved (m := m) unused
    rw [accepts _ uncarved] at *
    refine ⟨fun stats => ⟨fun ok => ?_, accepts stats⟩, by simp, by simp, footprint⟩
    cases ok
    exact uncarved
  · have walk := hp.checked carved m
    have base_pos := hp.base_pos
    generalize result : (h.check m).1 = r at *
    cases walk with
    | accepted first spans straight =>
      refine ⟨fun stats => ⟨fun ok => ?_, accepts stats⟩, by simp, by simp, footprint⟩
      cases ok
      rw [Stats.tally_ofBlocks]
      refine .tiled carved ?_ spans straight
      intro empty
      subst empty
      exact Nat.ne_of_gt base_pos first
    | overshot first overshoots =>
      refine ⟨fun stats => ⟨by simp, accepts stats⟩, by simp, fun none => ?_, footprint⟩
      exact absurd overshoots (none _ _)
    | refused =>
      refine ⟨fun stats => ⟨by simp, accepts stats⟩, by simp, fun _ f failed => ?_, footprint⟩
      cases failed
      rfl

end Survey

def narrow : Heap := { base := 4096, size := 64, first := 4096 }

theorem narrow_placed : Placed narrow := ⟨by decide, by decide, by decide⟩

def paired : Memory :=
  ((default : Memory).setFreeBlock 4096 8 4128).setFreeBlock 4128 8 0 |>.setBlockState 4128 busyTag

theorem check_exact_paired : Placed narrow ∧ narrow.first = narrow.base ∧
    WellFormed narrow paired ⟨2, 1, 8, 8, 8, 0⟩ :=
  ⟨narrow_placed, rfl, ((narrow_placed.check_exact (.inr rfl) paired).1 _).mp (by decide +kernel)⟩

/-- Two blocks that tile the region, with the second one at no multiple of the alignment. -/
def crooked : Memory :=
  ((default : Memory).setFreeBlock 4096 4 4124).setFreeBlock 4124 12 0

/-- That blocks tile the region is not enough for the check. -/
theorem refused_crooked : Placed narrow ∧ narrow.first = narrow.base ∧
    Spans crooked 0 narrow.base narrow.limit [⟨4096, 4, true⟩, ⟨4124, 12, true⟩] ∧
    (narrow.check crooked).1 = .error (.refused .heapCorrupted) := by
  have first : Headed crooked ⟨4096, 4, true⟩ 4124 :=
    ⟨by decide +kernel, by decide +kernel, by decide +kernel, by decide +kernel⟩
  have second : Headed crooked ⟨4124, 12, true⟩ 0 :=
    ⟨by decide +kernel, by decide +kernel, by decide +kernel, by decide +kernel⟩
  have spans : Spans crooked 0 4096 4160 [⟨4096, 4, true⟩, ⟨4124, 12, true⟩] :=
    Spans.cons_iff.mpr ⟨rfl, first, Spans.cons_iff.mpr ⟨rfl, second, .nil _⟩⟩
  exact ⟨narrow_placed, rfl, spans, by decide +kernel⟩

end TaskKernel.Heap
