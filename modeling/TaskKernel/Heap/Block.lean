import TaskKernel.Memory

namespace TaskKernel.Heap

def alignment : Nat := 8

def alignUp (x : Nat) : Nat := (x + (alignment - 1)) / alignment * alignment

def alignDown (x : Nat) : Nat := x / alignment * alignment

/-- The number of byte addresses. Sizes and addresses are smaller. -/
def addressSpace : Nat := 0x10000000000000000

def headerSize : Nat := 24

/-- The smallest remainder worth a block of its own. -/
def minRemainder : Nat := alignment

def blockTag : Nat := 0x4b484250

def freeTag : Nat := 0x46524545

def busyTag : Nat := 0x42555359

end Heap

namespace Memory

open Heap

variable (m : Memory) (b : Nat)

def blockTag : Nat := m.nat b 4

def blockState : Nat := m.nat (b + 4) 4

def blockSize : Nat := m.nat (b + 8) 8

def blockNext : Nat := m.nat (b + 16) 8

def setBlockTag (v : Nat) : Memory := m.setNat b 4 v

def setBlockState (v : Nat) : Memory := m.setNat (b + 4) 4 v

def setBlockSize (v : Nat) : Memory := m.setNat (b + 8) 8 v

def setBlockNext (v : Nat) : Memory := m.setNat (b + 16) 8 v

def setFreeBlock (size next : Nat) : Memory :=
  (((m.setBlockTag b Heap.blockTag).setBlockState b freeTag).setBlockSize b size).setBlockNext
    b next

variable (v : Nat)

theorem blockTag_setBlockTag : (m.setBlockTag b v).blockTag b = v % 0x100000000 :=
  nat_setNat_self ..

theorem blockState_setBlockState : (m.setBlockState b v).blockState b = v % 0x100000000 :=
  nat_setNat_self ..

theorem blockSize_setBlockSize : (m.setBlockSize b v).blockSize b = v % addressSpace :=
  nat_setNat_self ..

theorem blockNext_setBlockNext : (m.setBlockNext b v).blockNext b = v % addressSpace :=
  nat_setNat_self ..

@[simp] theorem blockTag_setBlockState : (m.setBlockState b v).blockTag b = m.blockTag b :=
  nat_setNat_disjoint _ _ _ _ _ _ (by omega)

@[simp] theorem blockSize_setBlockState : (m.setBlockState b v).blockSize b = m.blockSize b :=
  nat_setNat_disjoint _ _ _ _ _ _ (by omega)

@[simp] theorem blockNext_setBlockState : (m.setBlockState b v).blockNext b = m.blockNext b :=
  nat_setNat_disjoint _ _ _ _ _ _ (by omega)

@[simp] theorem blockTag_setBlockSize : (m.setBlockSize b v).blockTag b = m.blockTag b :=
  nat_setNat_disjoint _ _ _ _ _ _ (by omega)

@[simp] theorem blockState_setBlockSize : (m.setBlockSize b v).blockState b = m.blockState b :=
  nat_setNat_disjoint _ _ _ _ _ _ (by omega)

@[simp] theorem blockNext_setBlockSize : (m.setBlockSize b v).blockNext b = m.blockNext b :=
  nat_setNat_disjoint _ _ _ _ _ _ (by omega)

@[simp] theorem blockTag_setBlockNext : (m.setBlockNext b v).blockTag b = m.blockTag b :=
  nat_setNat_disjoint _ _ _ _ _ _ (by omega)

@[simp] theorem blockState_setBlockNext : (m.setBlockNext b v).blockState b = m.blockState b :=
  nat_setNat_disjoint _ _ _ _ _ _ (by omega)

@[simp] theorem blockSize_setBlockNext : (m.setBlockNext b v).blockSize b = m.blockSize b :=
  nat_setNat_disjoint _ _ _ _ _ _ (by omega)

/-- Memories that agree on a header read the same block there. -/
theorem header_congr {m m' : Memory} {b : Nat}
    (h : ∀ c, b ≤ c → c < b + headerSize → m'.get c = m.get c) :
    m'.blockTag b = m.blockTag b ∧ m'.blockState b = m.blockState b ∧
      m'.blockSize b = m.blockSize b ∧ m'.blockNext b = m.blockNext b := by
  unfold headerSize at h
  refine ⟨?_, ?_, ?_, ?_⟩ <;> exact nat_congr fun c h1 h2 => h c (by omega) (by omega)

end Memory

end TaskKernel
