import TaskKernel.Call
import TaskKernel.Frame
import TaskKernel.Text.Quoted

namespace TaskKernel.Text

structure Arena where
  start : Nat
  size : Nat

def elsewhere : String := "PTR"

def address (arena : Arena) (a : Nat) : String :=
  if a = 0 then "0x0"
  else if arena.start ≤ a ∧ a ≤ arena.start + arena.size then s!"H+{a - arena.start}"
  else elsewhere

def isHexDigit (c : Char) : Bool := c.isDigit || ('a' ≤ c && c ≤ 'f') || ('A' ≤ c && c ≤ 'F')

/-- The number of digits from which a marked hexadecimal number is taken for an address. Words have
fewer. -/
def addressDigits : Nat := 9

/-- What reads like an address in a text of the application's own is shown like one. -/
def hideAddresses : List Char → List Char
  | [] => []
  | '0' :: 'x' :: rest =>
    if addressDigits ≤ (rest.takeWhile isHexDigit).length then
      elsewhere.toList ++ hideAddresses (rest.dropWhile isHexDigit)
    else '0' :: 'x' :: hideAddresses rest
  | c :: rest => c :: hideAddresses rest
termination_by text => text.length
decreasing_by
  · have := (List.dropWhile_sublist isHexDigit (l := rest)).length_le
    simp only [List.length_cons]
    omega
  all_goals simp only [List.length_cons]; omega

def taskName (name : String) : String := String.ofList (hideAddresses (quote name).toList)

def task (t : TaskId) : String :=
  if t = TaskId.idle then "TaskId(idle)" else s!"TaskId({t})"

def word (w : Word) : String := hex w.toNat

def mutexName : MutexName → String
  | .object i => s!"M{i}"
  | .queue q => s!"Q{q}"
  | .heap => "K"

def flags (f : WaitFlags) : String :=
  match f.nowait, f.clear with
  | false, false => "(empty)"
  | true, false => "NOWAIT"
  | false, true => "CLEAR"
  | true, true => "NOWAIT | CLEAR"

def condition : QueueCondition → String
  | .notEmpty => "NotEmpty"
  | .notFull => "NotFull"

def combinator : Combinator → String
  | .every => "And"
  | .some => "Or"

def subWait : SubWait → String
  | .event e mask f => s!"Event(E{e}, {word mask}, {flags f})"
  | .queue q c => s!"Queue(Q{q}, {condition c})"

def combination (c : Combination) : String :=
  record "MultiWaitSnapshot"
    [("entries", list (c.entries.map subWait)), ("combinator", combinator c.combinator)]

def waitState : WaitState → String
  | .run => "Run"
  | .suspended => "Suspended"
  | .timer => "WaitTimer"
  | .mutex m mask => s!"WaitMutex({mutexName m}, {word mask})"
  | .event e mask => s!"WaitEvent(E{e}, {word mask})"
  | .queueFull q => s!"WaitQueueFull(Q{q})"
  | .queueEmpty q => s!"WaitQueueEmpty(Q{q})"
  | .multi c => s!"WaitMulti({combination c})"

def roster (item : Nat → String) (r : Roster) : String :=
  s!"ListHead({optional (r.first.map item)}..={optional (r.last.map item)})"

def readySet (r : ReadySet) : String := braces (r.toList.map toString)

def ring (arena : Arena) (r : Ring) : String :=
  record "Ring"
    [("buf", address arena r.base), ("slot_size", toString r.slotSize),
      ("capacity_bytes", toString r.capacity), ("byte_count", toString r.used),
      ("write_offset", toString r.position)]

def multiWait (w : MultiWait) : String :=
  record "MultiWaitInner"
    [("capacity", toString w.capacity), ("entries", list (w.entries.map subWait))]

def cellValue (arena : Arena) : CellValue → String
  | .word w => toString w.toNat
  | .ring r => optional (r.map (ring arena))
  | .multiWait w => multiWait w

def cell (arena : Arena) : Option CellValue → String
  | none => "CpuLockCell(< locked >)"
  | some v => s!"CpuLockCell({cellValue arena v})"

inductive Inspected
  | mutex (i : Nat)
  | event (i : Nat)
  | queue (i : Nat)
  | multiWait (i : Nat)
  deriving DecidableEq

def Inspected.cells : Inspected → List Cell
  | mutex i => [.mutex (.object i)]
  | event i => [.event i]
  | queue i => [.mutex (.queue i), .ring i]
  | multiWait i => [.multiWait i]

def inspected (arena : Arena) (o : Inspected) (cells : List (Option CellValue)) : String :=
  let shown (n : Nat) : String := cell arena ((cells[n]?).getD none)
  match o with
  | .mutex i => record "Mutex" [("self", s!"M{i}"), ("word", shown 0)]
  | .event i => record "Event" [("self", s!"E{i}"), ("word", shown 0)]
  | .queue i =>
    record "Queue"
      [("self", s!"Q{i}"), ("mutex", record "Mutex" [("self", s!"Q{i}"), ("word", shown 0)]),
        ("ring", shown 1)]
  | .multiWait i => record "MultiWait" [("self", s!"W{i}"), ("inner", shown 0)]

def heapStats (s : Heap.Stats) : String :=
  record "HeapStats"
    [("blocks", toString s.blocks), ("free_blocks", toString s.freeBlocks),
      ("free_bytes", toString s.freeBytes), ("used_bytes", toString s.usedBytes),
      ("largest_free", toString s.largestFree),
      ("adjacent_free_pairs", toString s.adjacentFreePairs)]

def heap (arena : Arena) (h : Heap) (check : Except FatalError Heap.Stats) : String :=
  record "Heap"
    [("base", address arena h.base), ("len", toString h.size),
      ("stats", result (match check with
        | .ok s => .ok (heapStats s)
        | .error e => .error e.name))]

def region (length : Nat) : String := s!"Hunk({elsewhere}, {length} bytes)"

def initialContext (c : Frame.InitialContext) : String :=
  record "InitialContext"
    [("entry_point", toString c.entryPoint.toNat), ("entry_param", toString c.entryParam.toNat),
      ("exit", toString c.exit.toNat)]

end TaskKernel.Text
