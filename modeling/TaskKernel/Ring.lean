import TaskKernel.Memory

namespace TaskKernel

structure Ring where
  base : Nat
  slotSize : Nat
  capacity : Nat
  used : Nat := 0
  /-- The offset of the next slot to write. -/
  position : Nat := 0
  deriving DecidableEq, Inhabited

namespace Ring

def lengthSize : Nat := 2

def ofSlots (base slots slotSize : Nat) : Ring :=
  { base, slotSize, capacity := slots * (lengthSize + slotSize) }

def stride (r : Ring) : Nat := lengthSize + r.slotSize

def hasRoom (r : Ring) : Bool := r.used < r.capacity

def hasMessage (r : Ring) : Bool := 0 < r.used

def length (r : Ring) : Nat := r.used / r.stride

def readPosition (r : Ring) : Nat := (r.position + r.capacity - r.used) % r.capacity

/-- Writes a payload into the slot after the newest message, without counting it in. -/
def store (r : Ring) (m : Memory) (payload : List UInt8) : Memory :=
  let slot := r.base + r.position
  (m.setNat slot lengthSize (payload.length % 65536)).setBytes (slot + lengthSize) payload

def commitWrite (r : Ring) : Ring :=
  { r with position := (r.position + r.stride) % r.capacity, used := r.used + r.stride }

def frontLength (r : Ring) (m : Memory) : Nat := m.nat (r.base + r.readPosition) lengthSize

def frontBytes (r : Ring) (m : Memory) (n : Nat) : List UInt8 :=
  m.bytes (r.base + r.readPosition + lengthSize) n

/-- Copies the oldest message over the start of `buffer`, as much of it as fits. -/
def fetch (r : Ring) (m : Memory) (buffer : List UInt8) : List UInt8 :=
  let n := min (r.frontLength m) buffer.length
  r.frontBytes m n ++ buffer.drop n

def commitRead (r : Ring) : Ring := { r with used := r.used - r.stride }

def clear (r : Ring) : Ring := { r with used := 0, position := 0 }

end Ring

end TaskKernel
