import TaskKernel.Fault
import TaskKernel.Heap.Block

namespace TaskKernel

structure Heap where
  /-- The aligned start of the region, zero before a region is given. -/
  base : Nat := 0
  size : Nat := 0
  /-- The address of the first block, zero until the first allocation carves the region. -/
  first : Nat := 0
  deriving DecidableEq, Inhabited

namespace Heap

structure Stats where
  blocks : Nat := 0
  freeBlocks : Nat := 0
  freeBytes : Nat := 0
  usedBytes : Nat := 0
  largestFree : Nat := 0
  /-- The number of free blocks right after which another free block lies. -/
  adjacentFreePairs : Nat := 0
  deriving DecidableEq, Inhabited

inductive Report
  | carved (size base : Nat)
  | regionTooSmall (size : Nat)
  | sizeOverflow (size : Nat)
  | noFit (size : Nat)
  | badBlock (block : Nat)
  | foreign (address : Nat)
  | badHeader (address : Nat)
  | freedTwice (address : Nat)
  deriving DecidableEq

inductive Failure
  | refused (e : FatalError)
  /-- A sum left the address space. -/
  | overflow
  /-- A difference fell below zero. -/
  | underflow
  /-- The chain leads in a circle, so that the operation never ends. -/
  | endless
  deriving DecidableEq

structure Outcome (α : Type) where
  heap : Heap
  memory : Memory
  reports : List Report := []
  result : Except Failure α

def ofRegion (start length : Nat) : Heap :=
  { base := alignUp start, size := alignDown (start + length) - alignUp start }

def hasRegion (h : Heap) : Bool := h.base ≠ 0

def limit (h : Heap) : Nat := h.base + h.size

inductive Flaw
  | outside
  | overflow
  | damaged
  deriving DecidableEq

def flaw (h : Heap) (m : Memory) (b : Nat) : Option Flaw :=
  if b < h.base then some .outside
  else if addressSpace ≤ b + headerSize then some .overflow
  else if h.limit < b + headerSize ∨ b % alignment ≠ 0 then some .outside
  else if m.blockTag b ≠ blockTag then some .damaged
  else if m.blockState b ≠ freeTag ∧ m.blockState b ≠ busyTag then some .damaged
  else none

def Flaw.failure : Flaw → Failure
  | outside => .refused .heapCorrupted
  | overflow => .overflow
  | damaged => .refused .heapCorrupted

def Flaw.reports (b : Nat) : Flaw → List Report
  | damaged => [.badBlock b]
  | _ => []

namespace Stats

def add (s : Stats) (isFree afterFree : Bool) (size : Nat) : Stats :=
  if isFree then
    { s with
      blocks := s.blocks + 1
      freeBlocks := s.freeBlocks + 1
      freeBytes := s.freeBytes + size
      largestFree := max s.largestFree size
      adjacentFreePairs := s.adjacentFreePairs + if afterFree then 1 else 0 }
  else { s with blocks := s.blocks + 1, usedBytes := s.usedBytes + size }

end Stats

/-- Walks the chain from the block `b`, which has to lie at `expected`. -/
def survey (h : Heap) (m : Memory) :
    Nat → Nat → Nat → Bool → Stats → Except Failure Stats × List Report
  | 0, _, _, _, _ => (.error .endless, [])
  | fuel + 1, b, expected, afterFree, stats =>
    if b = 0 then
      (if expected = h.limit then .ok stats else .error (.refused .heapCorrupted), [])
    else if b ≠ expected then (.error (.refused .heapCorrupted), [])
    else match h.flaw m b with
      | some f => (.error f.failure, f.reports b)
      | none =>
        let isFree := m.blockState b = freeTag
        let stop := b + headerSize + m.blockSize b
        if addressSpace ≤ stop then (.error .overflow, [])
        else if h.limit < stop then (.error (.refused .heapCorrupted), [])
        else survey h m fuel (m.blockNext b) stop isFree
          (stats.add isFree afterFree (m.blockSize b))

/-- The statistics of a chain that tiles the region. Each block takes more than a byte, so no
chain has more blocks than the region has bytes. -/
def check (h : Heap) (m : Memory) : Except Failure Stats × List Report :=
  if h.first = 0 then (.ok {}, []) else h.survey m (h.size + 2) h.first h.base false {}

end Heap

end TaskKernel
