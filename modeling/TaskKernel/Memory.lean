import Std.Data.TreeMap

namespace TaskKernel

structure Memory where
  cells : Std.TreeMap Nat UInt8 := ∅

namespace Memory

instance : Inhabited Memory := ⟨{}⟩

def get (m : Memory) (a : Nat) : UInt8 := m.cells.getD a 0

def set (m : Memory) (a : Nat) (b : UInt8) : Memory := ⟨m.cells.insert a b⟩

def bytes (m : Memory) (a : Nat) : Nat → List UInt8
  | 0 => []
  | n + 1 => m.get a :: m.bytes (a + 1) n

def setBytes (m : Memory) (a : Nat) : List UInt8 → Memory
  | [] => m
  | b :: bs => (m.set a b).setBytes (a + 1) bs

/-- The little-endian number in the `n` bytes from `a` on. -/
def nat (m : Memory) (a : Nat) : Nat → Nat
  | 0 => 0
  | n + 1 => (m.get a).toNat + 256 * m.nat (a + 1) n

def setNat (m : Memory) (a : Nat) : Nat → Nat → Memory
  | 0, _ => m
  | n + 1, v => (m.set a (UInt8.ofNat v)).setNat (a + 1) n (v / 256)

@[simp] theorem get_set (m : Memory) (a c : Nat) (b : UInt8) :
    (m.set a b).get c = if a = c then b else m.get c := by
  simp only [get, set, Std.TreeMap.getD_insert]
  by_cases h : a = c
  · simp [h]
  · simp [h]

/-- A block write changes the addresses it covers and no other. -/
theorem get_setBytes (m : Memory) (a c : Nat) (bs : List UInt8) :
    (m.setBytes a bs).get c =
      if a ≤ c ∧ c < a + bs.length then bs.getD (c - a) 0 else m.get c := by
  induction bs generalizing m a with
  | nil => rw [if_neg (by simp only [List.length_nil]; omega)]; rfl
  | cons b bs ih =>
    rw [setBytes, ih, get_set]
    by_cases hac : a = c
    · subst hac
      rw [if_neg (by omega), if_pos rfl, if_pos (by simp)]
      simp
    · rw [if_neg hac]
      by_cases hr : a + 1 ≤ c ∧ c < a + 1 + bs.length
      · rw [if_pos hr, if_pos (by simp only [List.length_cons]; omega),
          show c - a = c - (a + 1) + 1 by omega]
        simp
      · rw [if_neg hr, if_neg (by simp only [List.length_cons]; omega)]

theorem bytes_congr {m m' : Memory} {a n : Nat}
    (h : ∀ c, a ≤ c → c < a + n → m'.get c = m.get c) : m'.bytes a n = m.bytes a n := by
  induction n generalizing a with
  | zero => rfl
  | succ n ih =>
    rw [bytes, bytes, h a (by omega) (by omega), ih fun c h1 h2 => h c (by omega) (by omega)]

theorem nat_congr {m m' : Memory} {a n : Nat}
    (h : ∀ c, a ≤ c → c < a + n → m'.get c = m.get c) : m'.nat a n = m.nat a n := by
  induction n generalizing a with
  | zero => rfl
  | succ n ih =>
    rw [nat, nat, h a (by omega) (by omega), ih fun c h1 h2 => h c (by omega) (by omega)]

theorem bytes_setBytes_self (m : Memory) (a : Nat) (bs : List UInt8) :
    (m.setBytes a bs).bytes a bs.length = bs := by
  induction bs generalizing m a with
  | nil => rfl
  | cons b bs ih =>
    simp only [setBytes, List.length_cons, bytes, ih, List.cons.injEq, and_true]
    rw [get_setBytes, if_neg (by omega), get_set, if_pos rfl]

/-- A number write leaves the bytes outside it alone. -/
theorem get_setNat_of_outside (m : Memory) (a c n v : Nat) (h : c < a ∨ a + n ≤ c) :
    (m.setNat a n v).get c = m.get c := by
  induction n generalizing m a v with
  | zero => rfl
  | succ n ih => rw [setNat, ih _ _ _ (by omega), get_set, if_neg (by omega)]

/-- A number is read back as far as its bytes reach. -/
theorem nat_setNat_self (m : Memory) (a n v : Nat) :
    (m.setNat a n v).nat a n = v % Nat.pow 256 n := by
  induction n generalizing m a v with
  | zero => simp [nat, Nat.mod_one]
  | succ n ih =>
    rw [setNat, nat, ih, get_setNat_of_outside _ _ _ _ _ (by omega), get_set, if_pos rfl]
    rw [Nat.pow_eq, Nat.pow_eq, Nat.pow_succ, Nat.mul_comm (256 ^ n) 256, Nat.mod_mul]
    simp

theorem nat_setNat_disjoint (m : Memory) (a n v c k : Nat) (h : c + k ≤ a ∨ a + n ≤ c) :
    (m.setNat a n v).nat c k = m.nat c k :=
  nat_congr fun d h1 h2 => get_setNat_of_outside _ _ _ _ _ (by omega)

end Memory

end TaskKernel
