import TaskKernel.Proofs.Heap.BestFit
import TaskKernel.Proofs.Heap.Trail

namespace TaskKernel.Heap

/-- A number that no block has there was written into the tag or the state of the header at `b`. -/
inductive Spoils (m : Memory) (b : Nat) : Memory → Prop where
  | tag {v : Nat} (bad : v % 0x100000000 ≠ blockTag) : Spoils m b (m.setBlockTag b v)
  | state {v : Nat} (notFree : v % 0x100000000 ≠ freeTag) (notBusy : v % 0x100000000 ≠ busyTag) :
      Spoils m b (m.setBlockState b v)

inductive Attempt
  | alloc (size : Nat)
  | check
  | free (address : Nat)

def attempt (h : Heap) (m : Memory) : Attempt → Outcome Unit
  | .alloc size =>
    let o := h.alloc m size
    { heap := o.heap, memory := o.memory, reports := o.reports, result := o.result.map fun _ => () }
  | .check =>
    let (result, reports) := h.check m
    { heap := h, memory := m, reports, result := result.map fun _ => () }
  | .free a => h.free m a

def attempts (h : Heap) (m : Memory) : List Attempt → List (Outcome Unit)
  | [] => []
  | a :: as => h.attempt m a :: attempts (h.attempt m a).heap (h.attempt m a).memory as

/-- The attempt is an allocation whose size can be rounded up, a check, or gives back the payload at
`a`. -/
def Attempt.Fair (a : Nat) : Attempt → Prop
  | .alloc size => max size 1 + (alignment - 1) < addressSpace
  | .check => True
  | .free b => b = a

def Damaged (m : Memory) (b : Nat) : Prop :=
  m.blockTag b ≠ blockTag ∨ m.blockState b ≠ freeTag ∧ m.blockState b ≠ busyTag

namespace Spoils

variable {m m' : Memory} {b : Nat}

theorem damaged (h : Spoils m b m') : Damaged m' b := by
  cases h with
  | tag bad => exact .inl (by rwa [Memory.blockTag_setBlockTag])
  | state notFree notBusy =>
    exact .inr (by rw [Memory.blockState_setBlockState]; exact ⟨notFree, notBusy⟩)

theorem frame (h : Spoils m b m') {c : Nat} (off : c < b ∨ b + headerSize ≤ c) :
    m'.get c = m.get c := by
  unfold headerSize at off
  cases h with
  | tag => exact Memory.get_setNat_of_outside _ _ _ _ _ (by omega)
  | state => exact Memory.get_setNat_of_outside _ _ _ _ _ (by omega)

end Spoils

theorem Damaged.preserve {m m' : Memory} {b : Nat} (damaged : Damaged m b)
    (same : ∀ c, b ≤ c → c < b + headerSize → m'.get c = m.get c) : Damaged m' b := by
  obtain ⟨tag, state, -, -⟩ := Memory.header_congr same
  unfold Damaged
  rwa [tag, state]

section Prefix

variable {m m' : Memory} {p q : Nat} {pre post : List Block} {b : Block}

/-- The blocks before one whose header is overwritten. -/
theorem Chain.before (chain : Chain m 0 p q (pre ++ b :: post))
    (same : ∀ c, c < b.start → m'.get c = m.get c) : Chain m' b.start p b.start pre := by
  obtain ⟨r, before, after⟩ := Chain.append_iff.mp chain
  obtain ⟨rfl, -, -, -⟩ := Chain.cons_iff.mp after
  exact before.preserve_outside fun c _ below => same c below

/-- The free blocks of a chain have no header byte from the address on at which it ends. -/
theorem Chain.freeHeaderAt_lt {e c : Nat} (chain : Chain m e p q pre) (found : FreeHeaderAt pre c) :
    c < q := by
  obtain ⟨x, mem, -, -, below⟩ := found
  have := (chain.bounds mem).2
  unfold Block.payload at below
  unfold Block.stop at this
  omega

end Prefix

/-- The headers lead to a damaged one, which no merge before it touches. -/
structure Blocked (h : Heap) (m : Memory) (xs : List Block) (e : Nat) : Prop where
  trail : Trail h m e h.base xs
  first : link e xs = h.base
  small : h.base + load xs < addressSpace
  lower : h.base ≤ e
  inside : e + headerSize ≤ h.limit
  aligned : e % alignment = 0
  damaged : Damaged m e
  ahead : ∀ c, FreeHeaderAt xs c → c < e

namespace Blocked

variable {h : Heap} {m : Memory} {xs : List Block} {e : Nat}

theorem ends (blocked : Blocked h m xs e) (hp : Placed h) : Ends h m xs e (some .damaged) := by
  have base_pos := hp.base_pos
  have limit_lt := hp.limit_lt
  have lower := blocked.lower
  have inside := blocked.inside
  have aligned := blocked.aligned
  refine .stuck (by omega) fun m' same => ?_
  have damaged : Damaged m' e := blocked.damaged.preserve fun c above _ => same c fun found =>
    Nat.not_le_of_lt (blocked.ahead c found) above
  unfold flaw
  rw [if_neg (by omega), if_neg (by omega), if_neg (by omega)]
  rcases damaged with tag | state
  · rw [if_pos tag]
  · rw [if_pos state, ite_self]

/-- Every fair attempt fails. What it leaves is as before, up to merged blocks ahead of the damaged
one. -/
theorem attempt (blocked : Blocked h m xs e) (hp : Placed h) (carved : h.first = h.base)
    {a : Attempt} (fair : a.Fair (e + headerSize)) :
    (h.attempt m a).result = .error (.refused .heapCorrupted) ∧ (h.attempt m a).heap = h ∧
      ∃ ys, Trimmed h e h.base m xs (h.attempt m a).memory ys := by
  have length_le := blocked.trail.length_le (by unfold limit; omega)
  have base_pos := hp.base_pos
  have ends := blocked.ends hp
  have small := blocked.small
  have untouched : ∃ ys, Trimmed h e h.base m xs m ys := ⟨xs, .refl blocked.trail⟩
  have flaw : h.flaw m e = some .damaged := by
    cases ends with
    | stuck ne flaw => exact flaw m fun _ _ => rfl
  cases a with
  | alloc size =>
    obtain ⟨m', ys, trimmed, served⟩ := hp.alloc_trail carved blocked.trail blocked.first ends fair
    generalize outcome : h.alloc m size = o at served
    simp only [Heap.attempt, outcome]
    cases served with
    | halted halts =>
      refine ⟨?_, rfl, ys, trimmed⟩
      simp only [Except.map, halts.fails.corrupted (by omega)]
  | check =>
    have ne : e ≠ 0 := by
      have := blocked.lower
      omega
    have enough : xs.length < h.size + 2 := by
      unfold limit at length_le
      omega
    obtain ⟨err, failed, fails⟩ :=
      hp.survey_trail blocked.trail (Nat.le_refl _) ne flaw enough h.base false {}
    rw [blocked.first] at failed
    refine ⟨?_, rfl, untouched⟩
    simp only [Heap.attempt, check]
    rw [if_neg (by omega), carved, failed, fails.corrupted small]
    rfl
  | free a =>
    obtain rfl : a = e + headerSize := fair
    have damaged := blocked.damaged
    simp only [Heap.attempt, Heap.free, Nat.add_sub_cancel]
    split
    · exact ⟨rfl, rfl, untouched⟩
    split
    · exact ⟨rfl, rfl, untouched⟩
    · rename_i tag
      obtain ⟨notFree, notBusy⟩ := damaged.resolve_left tag
      rw [if_neg notBusy, if_neg notFree]
      exact ⟨rfl, rfl, untouched⟩

theorem trimmed (blocked : Blocked h m xs e) {m' : Memory} {ys : List Block}
    (trimmed : Trimmed h e h.base m xs m' ys) : Blocked h m' ys e where
  trail := trimmed.trail
  first := trimmed.first.trans blocked.first
  small := trimmed.load ▸ blocked.small
  lower := blocked.lower
  inside := blocked.inside
  aligned := blocked.aligned
  damaged := blocked.damaged.preserve fun c above _ => trimmed.frame c fun found =>
    Nat.not_le_of_lt (blocked.ahead c found) above
  ahead c found := blocked.ahead c (trimmed.touched c found)

/-- However many fair attempts are made, all fail, and nothing is written but the headers of free
blocks ahead of the damaged one. -/
theorem attempts (blocked : Blocked h m xs e) (hp : Placed h) (carved : h.first = h.base)
    {as : List Attempt} (fair : ∀ a ∈ as, a.Fair (e + headerSize)) :
    ∀ o ∈ h.attempts m as, o.result = .error (.refused .heapCorrupted) ∧
      ∀ c, ¬ FreeHeaderAt xs c → o.memory.get c = m.get c := by
  induction as generalizing m xs with
  | nil => simp [Heap.attempts]
  | cons a as ih =>
    obtain ⟨fair, rest⟩ := List.forall_mem_cons.mp fair
    obtain ⟨failed, same, ys, trimmed⟩ := blocked.attempt hp carved fair
    rw [Heap.attempts, same]
    refine List.forall_mem_cons.mpr ⟨⟨failed, trimmed.frame⟩, fun o mem => ?_⟩
    obtain ⟨failed, frame⟩ := ih (blocked.trimmed trimmed) rest o mem
    exact ⟨failed, fun c off =>
      (frame c fun found => off (trimmed.touched c found)).trans (trimmed.frame c off)⟩

end Blocked

section Reached

variable {r : Region} {h : Heap} {m m' : Memory} {live : List Allocation} {xs pre post : List Block}
  {b : Block}

/-- The chain of a sound heap serves what the clients hold. -/
theorem Sound.serves (sound : Sound r h m live) (carved : h = r.carved)
    (chain : Chain m 0 r.heap.base r.heap.limit xs) : Serves xs live := by
  cases sound with
  | uncarved =>
    have base_pos := r.base_pos
    have first : (0 : Nat) = r.heap.base := congrArg Heap.first carved
    omega
  | carved used chain' serves => rwa [chain.unique chain']

/-- Where there is a block, the region is carved. -/
theorem Laid.chain_of_mem (laid : Laid r h m xs) (mem : b ∈ xs) :
    h = r.carved ∧ 0 < r.heap.size ∧ Chain m 0 r.heap.base r.heap.limit xs := by
  cases laid with
  | uncarved => simp at mem
  | carved used chain => exact ⟨rfl, used, chain⟩

/-- A block of a chain with a damaged header is in the way. -/
theorem Blocked.of_chain (used : 0 < r.heap.size)
    (chain : Chain m 0 r.heap.base r.heap.limit (pre ++ b :: post))
    (same : ∀ c, c < b.start → m'.get c = m.get c) (damaged : Damaged m' b.start) :
    Blocked r.carved m' pre b.start := by
  have before := chain.before same
  obtain ⟨-, -, lower, upper⟩ := chain.head_at
  have limit_lt := (r.placed used).limit_lt
  have inside : b.start + headerSize ≤ r.heap.limit :=
    Nat.le_trans b.payload_le_stop upper
  have total := before.sum
  refine ⟨?_, before.spans.link_start, ?_, lower, inside,
    chain.start_aligned r.base_aligned (by simp), damaged,
    fun c found => before.freeHeaderAt_lt found⟩
  · have trail : Trail r.carved m' b.start r.heap.base (pre ++ []) :=
      Chain.trail before r.base_aligned (Nat.le_trans (Nat.le_add_right ..) inside) (.nil _)
    rwa [List.append_nil] at trail
  · change r.heap.base + load pre < addressSpace
    unfold load
    rw [total]
    exact Nat.lt_of_le_of_lt (Nat.le_trans (Nat.le_add_right ..) inside) limit_lt

/-- Once the tag or the state of a block has been overwritten with anything else, every allocation,
every check and every attempt to give the block back is refused as corrupted, however often it is
tried, and no byte of an allocation or of a busy block changes. -/
theorem Session.Reached.detects {s : Session} (reached : Reached r s)
    (laid : Laid r s.heap s.memory xs) (mem : b ∈ xs) (spoils : Spoils s.memory b.start m)
    {as : List Attempt} (fair : ∀ a ∈ as, a.Fair b.payload) :
    ∀ o ∈ s.heap.attempts m as, o.result = .error (.refused .heapCorrupted) ∧
      (∀ x ∈ s.live, ∀ c, x.Covers c → o.memory.get c = m.get c) ∧
      ∀ z ∈ xs, z.isFree = false → ∀ c, z.Covers c → o.memory.get c = m.get c := by
  obtain ⟨carved, used, chain⟩ := laid.chain_of_mem mem
  have serves := reached.sound.serves carved chain
  obtain ⟨pre, post, rfl⟩ := List.append_of_mem mem
  have blocked : Blocked r.carved m pre b.start :=
    .of_chain used chain (fun c below => spoils.frame (.inl below)) spoils.damaged
  have freeAt : ∀ c, FreeHeaderAt pre c → FreeAt (pre ++ b :: post) c := fun c found => by
    obtain ⟨x, hx, free⟩ := found.freeAt
    exact ⟨x, by simp [hx], free⟩
  intro o mem
  rw [carved] at mem
  obtain ⟨failed, frame⟩ := blocked.attempts (r.placed used) rfl fair o mem
  refine ⟨failed, fun x hx c covers => frame c fun found => ?_, fun z hz busy c covers =>
    frame c fun found => ?_⟩
  · exact serves.not_freeAt chain hx covers (freeAt c found)
  · obtain ⟨y, hy, free, there⟩ := freeAt c found
    rw [chain.eq_of_covers hz hy covers there, free] at busy
    cases busy

end Reached

namespace Session

def cleared : Session :=
  (((((⟨ofRegion 4096 200, {}, []⟩ : Session).act (.alloc 8)).act (.alloc 16)).act
    (.alloc 24)).act (.free 4120)).act (.free 4152)

/-- The first allocation merges the two free blocks before it comes to the damaged one. -/
theorem detects_cleared : Reached ⟨4096, 200, by decide, by decide⟩ cleared ∧
    cleared.live = [⟨4192, 24⟩] ∧ Spoils cleared.memory 4168 (cleared.memory.setBlockTag 4168 0) ∧
    ∀ o ∈ cleared.heap.attempts (cleared.memory.setBlockTag 4168 0)
        [.alloc 10, .check, .free 4192, .alloc 1000],
      o.result = .error (.refused .heapCorrupted) ∧
        ∀ x ∈ cleared.live, ∀ c, x.Covers c →
          o.memory.get c = (cleared.memory.setBlockTag 4168 0).get c := by
  have taken : Reached ⟨4096, 200, by decide, by decide⟩ _ :=
    (((Reached.init {}).act (.alloc 8) trivial).act (.alloc 16) trivial).act (.alloc 24) trivial
  have first := taken.act (.free 4120) (by unfold Allows; decide +kernel)
  have reached : Reached ⟨4096, 200, by decide, by decide⟩ cleared :=
    first.act (.free 4152) (by unfold Allows; decide +kernel)
  have carved : cleared.heap = Region.carved ⟨4096, 200, by decide, by decide⟩ := by decide +kernel
  have laid : Laid ⟨4096, 200, by decide, by decide⟩ cleared.heap cleared.memory
      [⟨4096, 8, true⟩, ⟨4128, 16, true⟩, ⟨4168, 24, false⟩, ⟨4216, 56, true⟩] := by
    rw [carved]
    exact .carved (by decide) (by decide +kernel)
  have spoils : Spoils cleared.memory 4168 (cleared.memory.setBlockTag 4168 0) := .tag (by decide)
  have fair : ∀ a ∈ [.alloc 10, .check, .free 4192, .alloc 1000], Attempt.Fair 4192 a := by
    simp [Attempt.Fair]
    decide
  have all := reached.detects laid (b := ⟨4168, 24, false⟩) (by simp) spoils fair
  exact ⟨reached, by decide +kernel, spoils, fun o mem => ⟨(all o mem).1, (all o mem).2.1⟩⟩

end Session

end TaskKernel.Heap
