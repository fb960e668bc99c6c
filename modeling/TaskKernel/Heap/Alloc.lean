import TaskKernel.Heap.Basic

namespace TaskKernel.Heap

inductive Halted
  | flawed (block : Nat) (f : Flaw)
  | overflow
  | endless

def Halted.failure : Halted → Failure
  | flawed _ f => f.failure
  | overflow => .overflow
  | endless => .endless

def Halted.reports : Halted → List Report
  | flawed b f => f.reports b
  | _ => []

/-- Merges the free blocks right after the free block `b` into it. -/
def absorb (h : Heap) : Nat → Memory → Nat → Memory × Option Halted
  | 0, m, _ => (m, some .endless)
  | fuel + 1, m, b =>
    let next := m.blockNext b
    if next = 0 then (m, none)
    else match h.flaw m next with
      | some f => (m, some (.flawed next f))
      | none =>
        if m.blockState next ≠ freeTag then (m, none)
        else
          let size := m.blockSize b + (headerSize + m.blockSize next)
          if addressSpace ≤ size then (m, some .overflow)
          else
            let m := m.setBlockSize b size
            let m := m.setBlockNext b (m.blockNext next)
            absorb h fuel (m.setBlockTag next 0) b

def improves (m : Memory) (want b : Nat) : Option Nat → Bool
  | none => want ≤ m.blockSize b
  | some best => want ≤ m.blockSize b ∧ m.blockSize b < m.blockSize best

/-- Walks the chain from `b` on, merging free blocks, for the smallest free block of at least
`want` bytes. -/
def scan (h : Heap) (want : Nat) :
    Nat → Memory → Nat → Option Nat → Memory × Except Halted (Option Nat)
  | 0, m, _, _ => (m, .error .endless)
  | fuel + 1, m, b, best =>
    if b = 0 then (m, .ok best)
    else match h.flaw m b with
      | some f => (m, .error (.flawed b f))
      | none =>
        if m.blockState b = freeTag then
          match absorb h fuel m b with
          | (m, some stop) => (m, .error stop)
          | (m, none) =>
            scan h want fuel m (m.blockNext b) (if improves m want b best then some b else best)
        else scan h want fuel m (m.blockNext b) best

/-- More steps than a walk takes that comes to an end: between two merges, each of which spoils a
tag for good, a walk that comes back to a block goes in a circle. -/
def scanFuel (h : Heap) : Nat := (h.size + 2) * (h.size + 2)

def carve (h : Heap) (m : Memory) : Outcome Unit :=
  if h.size < headerSize + minRemainder then
    { heap := h, memory := m, reports := [.regionTooSmall h.size],
      result := .error (.refused .heapExhausted) }
  else
    { heap := { h with first := h.base }
      memory := m.setFreeBlock h.base (h.size - headerSize) 0
      reports := [.carved h.size h.base]
      result := .ok () }

/-- Makes the free block `b`, which holds at least `want` bytes, a busy one. What is left over
becomes a free block if it has room for a header and a payload. -/
def occupy (m : Memory) (b want : Nat) : Memory :=
  let size := m.blockSize b
  let m :=
    if headerSize + minRemainder ≤ size - want then
      let rest := b + headerSize + want
      let m := m.setFreeBlock rest (size - want - headerSize) (m.blockNext b)
      (m.setBlockSize b want).setBlockNext b rest
    else m
  m.setBlockState b busyTag

/-- Takes `want` bytes, a multiple of the alignment, from a carved region. The chosen block holds
fewer if the walk has since merged damaged blocks whose headers lie across its own. -/
def allocAligned (h : Heap) (m : Memory) (want : Nat) : Outcome Nat :=
  match h.scan want h.scanFuel m h.first none with
  | (m, .error stop) =>
    { heap := h, memory := m, reports := stop.reports, result := .error stop.failure }
  | (m, .ok none) =>
    { heap := h, memory := m, reports := [.noFit want],
      result := .error (.refused .heapExhausted) }
  | (m, .ok (some b)) =>
    if m.blockSize b < want then { heap := h, memory := m, result := .error .underflow }
    else { heap := h, memory := occupy m b want, result := .ok (b + headerSize) }

def alloc (h : Heap) (m : Memory) (size : Nat) : Outcome Nat :=
  if addressSpace ≤ max size 1 + (alignment - 1) then
    { heap := h, memory := m, reports := [.sizeOverflow size],
      result := .error (.refused .heapExhausted) }
  else if h.first = 0 then
    let carved := h.carve m
    match carved.result with
    | .error e =>
      { heap := carved.heap, memory := carved.memory, reports := carved.reports,
        result := .error e }
    | .ok () =>
      let out := carved.heap.allocAligned carved.memory (alignUp (max size 1))
      { out with reports := carved.reports ++ out.reports }
  else h.allocAligned m (alignUp (max size 1))

/-- Gives the payload at `a` back. Only the start of a busy block's payload is accepted. -/
def free (h : Heap) (m : Memory) (a : Nat) : Outcome Unit :=
  let refuse (e : FatalError) (reports : List Report) : Outcome Unit :=
    { heap := h, memory := m, reports, result := .error (.refused e) }
  if h.first = 0 ∨ a < h.base + headerSize ∨ h.limit ≤ a ∨ (a - h.base) % alignment ≠ 0 then
    refuse .heapCorrupted [.foreign a]
  else
    let b := a - headerSize
    if m.blockTag b ≠ blockTag then refuse .heapCorrupted [.badHeader a]
    else if m.blockState b = busyTag then
      { heap := h, memory := m.setBlockState b freeTag, result := .ok () }
    else if m.blockState b = freeTag then refuse .doubleFree [.freedTwice a]
    else refuse .heapCorrupted []

end TaskKernel.Heap
