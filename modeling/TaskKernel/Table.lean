namespace TaskKernel

/-- A total map from indices to values, all but finitely many of them the default. -/
structure Table (α : Type) where
  entries : Array α := #[]

namespace Table

variable {α : Type} [Inhabited α]

def size (t : Table α) : Nat := t.entries.size

def get (t : Table α) (i : Nat) : α := t.entries.getD i default

def set (t : Table α) (i : Nat) (a : α) : Table α :=
  if i < t.entries.size then ⟨t.entries.setIfInBounds i a⟩
  else ⟨(t.entries ++ Array.replicate (i - t.entries.size) default).push a⟩

def modify (t : Table α) (i : Nat) (f : α → α) : Table α := t.set i (f (t.get i))

def slice (t : Table α) (start count : Nat) : List α :=
  (List.range count).map fun i => t.get (start + i)

theorem get_eq (t : Table α) (i : Nat) : t.get i = t.entries[i]?.getD default := by
  simp [get, Array.getD_eq_getD_getElem?]

@[simp] theorem get_set (t : Table α) (i j : Nat) (a : α) :
    (t.set i a).get j = if i = j then a else t.get j := by
  rw [get_eq, get_eq, set]
  by_cases hi : i < t.entries.size
  · rw [if_pos hi, Array.getElem?_setIfInBounds, if_pos hi]
    by_cases h : i = j <;> simp [h]
  · have hj : i = j ↔ j = (t.entries ++ Array.replicate (i - t.entries.size) default).size := by
      simp only [Array.size_append, Array.size_replicate]
      omega
    rw [if_neg hi, Array.getElem?_push, Array.getElem?_append, Array.getElem?_replicate]
    by_cases h : i = j
    · rw [if_pos (hj.mp h), if_pos h]
      rfl
    · rw [if_neg fun e => h (hj.mpr e), if_neg h]
      by_cases hs : j < t.entries.size
      · rw [if_pos hs]
      · rw [if_neg hs, Array.getElem?_eq_none (by omega)]
        split <;> rfl

theorem get_set_self (t : Table α) (i : Nat) (a : α) : (t.set i a).get i = a := by simp

theorem get_set_ne (t : Table α) {i j : Nat} (a : α) (h : i ≠ j) :
    (t.set i a).get j = t.get j := by simp [h]

@[simp] theorem get_modify (t : Table α) (i j : Nat) (f : α → α) :
    (t.modify i f).get j = if i = j then f (t.get j) else t.get j := by
  by_cases h : i = j
  · subst h; simp [modify]
  · simp [modify, h]

theorem size_set (t : Table α) (i : Nat) (a : α) : (t.set i a).size = max t.size (i + 1) := by
  unfold set size
  split
  · rw [Array.size_setIfInBounds]
    omega
  · simp only [Array.size_push, Array.size_append, Array.size_replicate]
    omega

theorem size_modify (t : Table α) (i : Nat) (f : α → α) :
    (t.modify i f).size = max t.size (i + 1) := size_set ..

end Table

end TaskKernel
