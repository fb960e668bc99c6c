import TaskKernel.Machine
import TaskKernel.Text.Objects

namespace TaskKernel.Scenario

inductive Op
  | createTask (name : String) (stack priority param : Nat) (script : Option (List Op))
  | return
  | exit
  | currentTask
  | currentParam
  | maxTasks
  | sleep (ticks : Ticks)
  | suspend
  | requestReschedule
  | tick (count : Nat)
  | blockOn (wait : WaitState) (timeout : Ticks)
  | ticksOfMillis (duration : Nat)
  | ticksOfMicros (duration : Nat)
  | lock (m : Nat) (mask : Word) (flags : WaitFlags) (timeout : Ticks)
  | unlock (m : Nat) (mask : Word) (reschedule : Bool)
  | isLocked (m : Nat) (mask : Word)
  | raise (e : Nat) (mask : Word) (reschedule : Bool)
  | clear (e : Nat) (mask : Word)
  | getEvent (e : Nat)
  | waitEvent (e : Nat) (mask : Word) (flags : WaitFlags) (timeout : Ticks)
  | createQueue (q slots payload : Nat)
  | add (q : Nat) (flags : WaitFlags) (timeout : Ticks) (payload : List UInt8)
  | remove (q : Nat) (flags : WaitFlags) (timeout : Ticks) (bufferSize : Nat)
  | flush (q : Nat)
  | queueLength (q : Nat)
  | createMultiWait (w count : Nat)
  | addSubWait (w : Nat) (entry : SubWait)
  | waitMulti (w : Nat) (combinator : Combinator) (timeout : Ticks)
  | alloc (size : Nat)
  | free (handle : Nat)
  | freeAt (offset : Int)
  | heapStats
  | writeHeap (offset : Int) (bytes : List UInt8)
  | setHandler (line : Nat) (ops : List Op)
  | pend (lines : List Nat)
  | tickCount
  | enterCpuLock
  | leaveCpuLock
  | yieldCpu
  | tryEnterCpuLock
  | isCpuLocked
  | isTaskContext
  | runningTask
  | state
  | inspect (o : Text.Inspected)
  | inTask (op : Op)

inductive Label
  | boot
  | task (t : TaskId)
  | interrupt (line : Nat)
  | idle
  | outside
  deriving DecidableEq, Inhabited

structure Snapshot where
  running : TaskId
  runQueue : Roster
  tasks : List Task

structure FullSnapshot extends Snapshot where
  started : Bool
  heapLock : Word
  mutexes : List Word
  events : List Word
  queueLengths : List Nat

inductive Result
  | nothing
  | skipped
  | succeeded
  | failed (e : WaitError)
  | number (n : Nat)
  | flag (b : Bool)
  | task (t : TaskId)
  | length (n : Nat) (isEmpty isFull : Bool)
  | received (n : Nat) (buffer : List UInt8)
  | ready (r : ReadySet)
  | stats (s : Heap.Stats)
  | lines (valid : List Bool)
  | badLine
  | state (s : Option FullSnapshot)
  | shown (text : String)

structure Record where
  number : Nat
  label : Label
  op : Op
  result : Result
  snapshot : Option (Option Snapshot) := none

inductive Entry
  | log (msg : Message)
  | started (t : TaskId) (param : Nat)
  | record (r : Record)

structure Plan where
  maxTasks : Nat
  arenaSize : Nat
  timeSlice : Ticks
  snapshots : Bool
  clocked : Bool
  boot : List Op
  stream : List Op

def objectCount : Nat := 4

end TaskKernel.Scenario
