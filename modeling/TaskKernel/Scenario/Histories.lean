import TaskKernel.Frame
import TaskKernel.Heap.Alloc
import TaskKernel.Processor
import TaskKernel.Roster
import TaskKernel.Scenario.Run
import TaskKernel.Text.Objects

namespace TaskKernel.Scenario

inductive HeapOp
  | init
  | isInitialized
  | alloc (size : Nat)
  | free (handle : Nat)
  | freeAt (offset : Int)
  | write (offset : Int) (bytes : List UInt8)
  | read (offset : Int) (length : Nat)
  | header (offset : Int) (tag state size : Option Nat) (next : Option (Option Int))
  | stats
  | show

inductive HeapAnswer
  | nothing
  | flag (b : Bool)
  | offset (n : Nat)
  | freed
  | skipped
  | failed (f : Heap.Failure)
  | bytes (bs : List UInt8)
  | stats (s : Heap.Stats)
  | halted (f : Heap.Failure)
  | shown (text : String)

structure HeapHistory where
  regionStart : Nat
  regionSize : Nat
  heap : Heap := {}
  memory : Memory := {}
  handles : Array (Option Nat) := #[]

namespace HeapHistory

def ofRegion (skip size : Nat) : HeapHistory :=
  { regionStart := arenaStart + skip, regionSize := size }

def check (h : HeapHistory) : Except Heap.Failure Heap.Stats := (h.heap.check h.memory).1

def free (h : HeapHistory) (a : Nat) : HeapHistory × HeapAnswer :=
  let o := h.heap.free h.memory a
  let h := { h with heap := o.heap, memory := o.memory }
  match o.result with
  | .ok () => (h, .freed)
  | .error f => (h, .failed f)

def field (m : Memory) (write : Memory → Nat → Memory) : Option Nat → Memory
  | some v => write m v
  | none => m

def step (h : HeapHistory) : HeapOp → HeapHistory × HeapAnswer
  | .init => ({ h with heap := Heap.ofRegion h.regionStart h.regionSize }, .nothing)
  | .isInitialized => (h, .flag h.heap.hasRegion)
  | .alloc size =>
    let o := h.heap.alloc h.memory size
    let h := { h with heap := o.heap, memory := o.memory }
    match o.result with
    | .ok a => ({ h with handles := h.handles.push (some a) }, .offset (a - arenaStart))
    | .error f => ({ h with handles := h.handles.push none }, .failed f)
  | .free handle =>
    match (h.handles[handle]?).getD none with
    | some a => h.free a
    | none => (h, .skipped)
  | .freeAt offset => h.free (Run.addressAt offset)
  | .write offset bytes =>
    ({ h with memory := h.memory.setBytes (Run.addressAt offset) bytes }, .nothing)
  | .read offset length => (h, .bytes (h.memory.bytes (Run.addressAt offset) length))
  | .header offset tag state size next =>
    let b := Run.addressAt offset
    let m := field h.memory (fun m => m.setBlockTag b) tag
    let m := field m (fun m => m.setBlockState b) state
    let m := field m (fun m => m.setBlockSize b) size
    let next := next.map fun target => (target.map Run.addressAt).getD 0
    ({ h with memory := field m (fun m => m.setBlockNext b) next }, .nothing)
  | .stats =>
    match h.check with
    | .ok s => (h, .stats s)
    | .error f => (h, .halted f)
  | .show =>
    let arena : Text.Arena := { start := arenaStart, size := h.heap.limit - arenaStart }
    let check := match h.check with
      | .ok s => .ok s
      | .error (.refused e) => .error e
      | .error _ => .error .heapCorrupted
    (h, .shown (Text.heap arena h.heap check))

def run (h : HeapHistory) : List HeapOp → List (HeapAnswer × Except Heap.Failure Heap.Stats)
  | [] => []
  | op :: ops =>
    let (h, result) := h.step op
    (result, h.check) :: h.run ops

end HeapHistory

inductive RosterOp
  | pushBack (item : Nat)
  | remove (item : Nat)
  | moveToBack (item : Nat)

def RosterOp.item : RosterOp → Nat
  | pushBack item => item
  | remove item => item
  | moveToBack item => item

structure RosterView where
  items : List Nat
  roster : Roster
  link : Link

def RosterOp.apply (r : Roster) (links : Links) : RosterOp → Roster × Links
  | pushBack item => r.pushBack links item
  | remove item => r.remove links item
  | moveToBack item => r.moveToBack links item

def runRosters (rosters : Table Roster) (links : Links) : List (Nat × RosterOp) → List RosterView
  | [] => []
  | (i, op) :: ops =>
    let (r, links) := op.apply (rosters.get i) links
    { items := r.toList links, roster := r, link := links.get op.item } ::
      runRosters (rosters.set i r) links ops

inductive LineOp
  | setHandler (line : Nat) (h : Option Nat)
  | pend (line : Nat) (on : Bool)
  | take
  | setIdle (on : Bool)
  | setDispatch (on : Bool)

inductive LineResult
  | nothing
  | succeeded
  | badLine
  | taken (h : Option Nat)

def handlerNumber : Handler → Option Nat
  | .timer => none
  | .application id => some id

def LineOp.apply (p : Processor) : LineOp → Processor × LineResult
  | setHandler line h =>
    match p.setHandler line (h.map .application) with
    | some p => (p, .succeeded)
    | none => (p, .badLine)
  | pend line on =>
    match p.updateLine line fun l => { l with pended := on } with
    | some p => (p, .succeeded)
    | none => (p, .badLine)
  | take =>
    match p.takeLine with
    | some (h, p) => (p, .taken (handlerNumber h))
    | none => (p, .taken none)
  | setIdle on => ({ p with idleWaiting := on }, .nothing)
  | setDispatch on => ({ p with dispatchPended := on }, .nothing)

def runLines (p : Processor) : List LineOp → List (LineResult × Processor)
  | [] => []
  | op :: ops =>
    let (p, result) := op.apply p
    (result, p) :: runLines p ops

structure FrameView where
  pointer : Int
  words : List Nat
  outsideUntouched : Bool

def frameMargin : Nat := 16

def writeFrame (skip length : Nat) (fill : UInt8) (ctx : Frame.InitialContext) : FrameView :=
  let size := skip + length + frameMargin
  let before := ({} : Memory).setBytes arenaStart (List.replicate size fill)
  let (after, sp) := Frame.write before (arenaStart + skip) length ctx
  { pointer := (sp : Int) - arenaStart
    words := Frame.read after sp
    outsideUntouched := (List.range size).all fun i =>
      (skip ≤ i && i < skip + length) ||
        after.get (arenaStart + i) = before.get (arenaStart + i) }

end TaskKernel.Scenario
