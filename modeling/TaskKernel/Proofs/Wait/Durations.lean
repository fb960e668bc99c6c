import Mathlib.Algebra.Order.Floor.Div
import Mathlib.Data.Rat.Floor
import TaskKernel.Ticks
import TaskKernel.Word

namespace TaskKernel.Ticks

def periodOf (period : Nat) : Nat := max period 1

def periods (duration period : Nat) : Nat := ⌈(duration : ℚ) / (periodOf period : ℚ)⌉₊

def longest : Nat := expired - 1

/-- The nearest number of ticks that is no sentinel. -/
def clamp (n : Nat) : Nat := min (max n 1) longest

structure Converts (micros : Nat) (convert : Nat → Nat → Nat) : Prop where
  exact (d p : Nat) : convert d p = clamp (periods (d * micros) p)
  unmarked (d p : Nat) : convert d p ≠ forever ∧ convert d p ≠ expired
  monotone (p : Nat) : Monotone fun d => convert d p
  antitone (d : Nat) : Antitone (convert d)
  covers (d p : Nat) : periods (d * micros) p ≤ longest → d * micros ≤ convert d p * periodOf p
  close (d p : Nat) : convert d p * periodOf p < d * micros + periodOf p ∨ convert d p = 1

def unlessOverflow (overflows : Bool) (w : BitVec 64) : Option (BitVec 64) :=
  if overflows then none else some w

def computeMicros (duration : BitVec 64) (period : Word) : Option Word := do
  let period : BitVec 64 := if period = 0 then 1 else period.setWidth 64
  let above ← unlessOverflow (duration.uaddOverflow period) (duration + period)
  let raised ← unlessOverflow (above.usubOverflow 1) (above - 1)
  let ticks := raised / period
  return if ticks = 0 then 1
    else if BitVec.ofNat 64 expired ≤ ticks then BitVec.ofNat 32 expired - 1
    else ticks.setWidth 32

def computeMillis (duration period : Word) : Option Word := do
  let wide : BitVec 64 := duration.setWidth 64
  let micros ← unlessOverflow (wide.umulOverflow 1000) (wide * 1000)
  computeMicros micros period

variable {d p n micros : Nat}

theorem periodOf_pos (p : Nat) : 0 < periodOf p := by
  unfold periodOf
  omega

/-- The least number of periods that is enough. -/
theorem periods_le_iff : periods d p ≤ n ↔ d ≤ n * periodOf p := by
  have positive : (0 : ℚ) < periodOf p := Nat.cast_pos.mpr (periodOf_pos p)
  unfold periods
  rw [Nat.ceil_le, div_le_iff₀ positive]
  exact_mod_cast Iff.rfl

theorem periods_eq (d p : Nat) : periods d p = (d + periodOf p - 1) / periodOf p := by
  refine eq_of_forall_ge_iff fun n => ?_
  rw [periods_le_iff, ← Nat.ceilDiv_eq_add_pred_div, ceilDiv_le_iff_le_mul (periodOf_pos p),
    Nat.mul_comm]

theorem clamp_bounds (n : Nat) : 1 ≤ clamp n ∧ clamp n < 4294967295 := by
  unfold clamp longest expired
  omega

theorem clamp_mono : Monotone clamp := fun _ _ more =>
  min_le_min_right _ (max_le_max_right _ more)

theorem le_clamp (few : n ≤ longest) : n ≤ clamp n := le_min (Nat.le_max_left n 1) few

theorem clamp_le (some : 1 ≤ n) : clamp n ≤ n :=
  Nat.le_trans (Nat.min_le_left ..) (Nat.max_le.mpr ⟨Nat.le_refl n, some⟩)

theorem clamp_of_le_one (few : n ≤ 1) : clamp n = 1 := by
  unfold clamp longest expired
  omega

/-- The clamp as it is computed. -/
theorem clamp_eq (n : Nat) :
    (if n = 0 then 1 else if 4294967295 ≤ n then 4294967295 - 1 else n) = clamp n := by
  unfold clamp longest expired
  split
  · omega
  · split <;> omega

theorem ofMicros_eq (d p : Nat) : ofMicros d p = clamp (periods d p) := by
  have counted : (if p = 0 then 1 else p) = periodOf p := by
    unfold periodOf
    split <;> omega
  unfold ofMicros
  dsimp only
  rw [counted, ← periods_eq]
  exact clamp_eq (periods d p)

theorem periods_covers (d p : Nat) : d ≤ periods d p * periodOf p :=
  periods_le_iff.mp (Nat.le_refl _)

/-- One period less is not enough. -/
theorem lt_of_lt_periods (h : n < periods d p) : n * periodOf p < d :=
  Nat.lt_of_not_le fun enough => Nat.not_le_of_lt h (periods_le_iff.mpr enough)

theorem periods_mono {d' : Nat} (h : d ≤ d') : periods d p ≤ periods d' p :=
  periods_le_iff.mpr (Nat.le_trans h (periods_covers d' p))

theorem periods_anti {p' : Nat} (h : p ≤ p') : periods d p' ≤ periods d p := by
  have longer : periodOf p ≤ periodOf p' := max_le_max_right 1 h
  exact periods_le_iff.mpr
    (Nat.le_trans (periods_covers d p) (Nat.mul_le_mul_left (periods d p) longer))

theorem converts (micros : Nat) : Converts micros fun d p => ofMicros (d * micros) p where
  exact d p := ofMicros_eq (d * micros) p
  unmarked d p := by
    have bounds := clamp_bounds (periods (d * micros) p)
    rw [ofMicros_eq]
    exact ⟨Nat.ne_of_gt bounds.1, Nat.ne_of_lt bounds.2⟩
  monotone p d d' more := by
    simp only [ofMicros_eq]
    exact clamp_mono (periods_mono (Nat.mul_le_mul_right micros more))
  antitone d p p' longer := by
    simp only [ofMicros_eq]
    exact clamp_mono (periods_anti longer)
  covers d p few := by
    rw [ofMicros_eq]
    exact periods_le_iff.mp (le_clamp few)
  close d p := by
    rw [ofMicros_eq]
    rcases Nat.lt_or_ge 1 (periods (d * micros) p) with several | one
    · left
      -- the result without its last period is less than the least number that covers
      have bounds := clamp_bounds (periods (d * micros) p)
      have within := clamp_le (Nat.le_of_lt several)
      have fewer : clamp (periods (d * micros) p) - 1 < periods (d * micros) p := by omega
      have short := lt_of_lt_periods fewer
      rw [Nat.sub_mul, Nat.one_mul] at short
      omega
    · exact .inr (clamp_of_le_one one)

theorem toNat_periodOf (period : Word) :
    (if period = 0 then 1 else period.setWidth 64 : BitVec 64).toNat = periodOf period.toNat := by
  unfold periodOf
  split
  · rename_i zero
    rw [zero]
    rfl
  · rename_i other
    have positive : period.toNat ≠ 0 := fun zero => other (BitVec.eq_of_toNat_eq zero)
    rw [BitVec.toNat_setWidth, Nat.mod_eq_of_lt (by omega)]
    omega

theorem unlessOverflow_add {a b : BitVec 64} (fits : a.toNat + b.toNat < 2 ^ 64) :
    unlessOverflow (a.uaddOverflow b) (a + b) = some (a + b) ∧
      (a + b).toNat = a.toNat + b.toNat := by
  have whole : a.uaddOverflow b = false := decide_eq_false (Nat.not_le_of_lt fits)
  exact ⟨by rw [whole]; rfl, BitVec.toNat_add_of_not_uaddOverflow (by simp [whole])⟩

theorem unlessOverflow_sub {a b : BitVec 64} (fits : b.toNat ≤ a.toNat) :
    unlessOverflow (a.usubOverflow b) (a - b) = some (a - b) ∧
      (a - b).toNat = a.toNat - b.toNat := by
  have whole : a.usubOverflow b = false := decide_eq_false (Nat.not_lt_of_le fits)
  exact ⟨by rw [whole]; rfl, BitVec.toNat_sub_of_not_usubOverflow (by simp [whole])⟩

theorem unlessOverflow_mul {a b : BitVec 64} (fits : a.toNat * b.toNat < 2 ^ 64) :
    unlessOverflow (a.umulOverflow b) (a * b) = some (a * b) ∧
      (a * b).toNat = a.toNat * b.toNat := by
  have whole : a.umulOverflow b = false := decide_eq_false (Nat.not_le_of_lt fits)
  exact ⟨by rw [whole]; rfl, BitVec.toNat_mul_of_not_umulOverflow (by simp [whole])⟩

/-- The clamp as it is computed in words. -/
theorem toNat_clamp (ticks : BitVec 64) :
    (if ticks = 0 then 1
      else if BitVec.ofNat 64 expired ≤ ticks then BitVec.ofNat 32 expired - 1
      else ticks.setWidth 32 : Word).toNat = clamp ticks.toNat := by
  rw [← clamp_eq]
  by_cases none : ticks = 0
  · subst none
    rfl
  · have some : ticks.toNat ≠ 0 := fun zero => none (BitVec.eq_of_toNat_eq zero)
    rw [if_neg none, if_neg some]
    by_cases many : 4294967295 ≤ ticks.toNat
    · have large : BitVec.ofNat 64 expired ≤ ticks := many
      rw [if_pos large, if_pos many]
      rfl
    · have small : ¬ BitVec.ofNat 64 expired ≤ ticks := many
      rw [if_neg small, if_neg many, BitVec.toNat_setWidth, Nat.mod_eq_of_lt (by omega)]

/-- Where the sum fits in a word, no operation overflows. -/
theorem computeMicros_eq (duration : BitVec 64) (period : Word)
    (fits : duration.toNat + periodOf period.toNat < 2 ^ 64) :
    (computeMicros duration period).map BitVec.toNat =
      some (ofMicros duration.toNat period.toNat) := by
  have positive := periodOf_pos period.toNat
  rw [← toNat_periodOf] at fits positive
  obtain ⟨above, above_eq⟩ := unlessOverflow_add fits
  obtain ⟨raised, raised_eq⟩ := unlessOverflow_sub (b := 1) (a := duration + _)
    (by rw [above_eq]; exact Nat.le_trans positive (Nat.le_add_left ..))
  unfold computeMicros
  simp only [above, raised, Option.bind_eq_bind, Option.bind_some, Option.pure_def,
    Option.map_some, toNat_clamp, ofMicros_eq, periods_eq, BitVec.toNat_udiv, raised_eq, above_eq,
    toNat_periodOf]
  rfl

theorem computeMillis_eq (duration period : Word) :
    (computeMillis duration period).map BitVec.toNat =
      some (ofMillis duration.toNat period.toNat) := by
  have wide : (duration.setWidth 64).toNat = duration.toNat :=
    BitVec.toNat_setWidth_of_le (by decide)
  have bound := duration.isLt
  obtain ⟨micros, micros_eq⟩ := unlessOverflow_mul (a := duration.setWidth 64) (b := 1000)
    (by rw [wide]; change duration.toNat * 1000 < 2 ^ 64; omega)
  rw [wide] at micros_eq
  unfold computeMillis
  simp only [micros, Option.bind_eq_bind, Option.bind_some]
  rw [computeMicros_eq, micros_eq]
  · rfl
  · have := period.isLt
    rw [micros_eq]
    change duration.toNat * 1000 + max period.toNat 1 < 2 ^ 64
    omega

/-- Durations of 32 bits, in microseconds and in milliseconds, come out as the exact number of
periods that cover them, at least one and less than the sentinel. The words that this is computed
in never overflow. -/
theorem conversions_exact :
    Converts 1 ofMicros ∧ Converts 1000 ofMillis ∧
    (∀ duration period : Word, (computeMicros (duration.setWidth 64) period).map BitVec.toNat =
      some (ofMicros duration.toNat period.toNat)) ∧
    ∀ duration period : Word, (computeMillis duration period).map BitVec.toNat =
      some (ofMillis duration.toNat period.toNat) := by
  refine ⟨?_, converts 1000, ?_, computeMillis_eq⟩
  · have micros := converts 1
    simpa only [Nat.mul_one] using micros
  · intro duration period
    have wide : (duration.setWidth 64).toNat = duration.toNat :=
      BitVec.toNat_setWidth_of_le (by decide)
    have computed := computeMicros_eq (duration.setWidth 64) period
      (by rw [wide]; unfold periodOf; omega)
    rwa [wide] at computed

/-- More microseconds than 32 bits can count. -/
example : ofMillis 4294968 1000 = 4294968 := rfl

end TaskKernel.Ticks
