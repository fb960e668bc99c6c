import TaskKernel.Heap.Alloc
import TaskKernel.Processor
import TaskKernel.Scheduler

namespace TaskKernel

inductive Cell
  | mutex (m : MutexName)
  | event (e : Nat)
  | ring (q : Nat)
  | multiWait (w : Nat)
  deriving DecidableEq

inductive CellValue
  | word (w : Word)
  | ring (r : Option Ring)
  | multiWait (w : MultiWait)
  deriving DecidableEq

inductive HeapTask
  | alloc (size : Nat)
  | free (address : Nat)
  | stats
  | ring (q slots payload : Nat)
  deriving DecidableEq

inductive HeapResult
  | allocated (address : Nat)
  | freed
  | stats (s : Heap.Stats)
  | refused (e : FatalError)
  deriving DecidableEq

/-- A call into the kernel, or into the processor on the application's behalf. -/
inductive Call
  | createTask (name : String) (stack priority param entry : Nat)
  | currentTask
  | currentParam
  | sleep (ticks : Ticks)
  | suspend
  | exit
  | blockOn (wait : WaitState) (timeout : Ticks)
  | requestReschedule
  | tick
  | lock (m : MutexName) (mask : Word) (flags : WaitFlags) (timeout : Ticks)
  | unlock (m : MutexName) (mask : Word) (reschedule : Bool)
  | isLocked (m : MutexName) (mask : Word)
  | raise (e : Nat) (mask : Word) (reschedule : Bool)
  | clear (e : Nat) (mask : Word)
  | getEvent (e : Nat)
  | waitEvent (e : Nat) (mask : Word) (flags : WaitFlags) (timeout : Ticks)
  | createQueue (q slots payload : Nat)
  | add (q : Nat) (flags : WaitFlags) (timeout : Ticks) (payload : List UInt8)
  | remove (q : Nat) (flags : WaitFlags) (timeout : Ticks) (buffer : List UInt8)
  | flush (q : Nat)
  | length (q : Nat)
  | isFull (q : Nat)
  | createMultiWait (w count : Nat)
  | addSubWait (w : Nat) (entry : SubWait)
  | waitMulti (w : Nat) (combinator : Combinator) (timeout : Ticks)
  | alloc (size : Nat)
  | free (address : Nat)
  | heapStats
  | inspect (cells : List Cell)
  | enterCpuLock
  | tryEnterCpuLock
  | leaveCpuLock
  | yieldCpu
  deriving DecidableEq

inductive Reply
  | unit
  | task (t : TaskId)
  | number (n : Nat)
  | flag (b : Bool)
  | failed (e : WaitError)
  | matched (bits : Word)
  | ready (r : ReadySet)
  | received (length : Nat) (buffer : List UInt8)
  | stats (s : Heap.Stats)
  | cells (values : List (Option CellValue))
  deriving DecidableEq

/-- What a waiting call is after. It is tried again on every wake. -/
inductive Goal
  | lock (m : MutexName) (mask : Word)
  | event (e : Nat) (mask : Word) (clear : Bool)
  | multi (c : Combination)
  | add (q : Nat) (payload : List UInt8)
  | remove (q : Nat) (buffer : List UInt8)
  | flush (q : Nat)
  | heap (h : HeapTask)
  deriving DecidableEq

inductive Pause
  | blockOn
  | sleep
  | suspend
  /-- The end of a task, which sleeps again after every wake. -/
  | exit
  deriving DecidableEq

inductive Waiter
  | pause (p : Pause)
  | goal (g : Goal)
  deriving DecidableEq

/-- The body of a critical section. -/
inductive Section
  | createTask (name : String) (stack priority param entry : Nat)
  | currentTask
  | currentParam
  | requestReschedule
  | tick
  | pause (p : Pause) (wait : WaitState) (timeout : Ticks)
  | exit
  | seek (g : Goal) (nowait : Bool) (timeout : Ticks)
  | wake (t : TaskId) (w : Waiter)
  | unlock (m : MutexName) (mask : Word) (reschedule : Bool)
  | isLocked (m : MutexName) (mask : Word)
  | raise (e : Nat) (mask : Word) (reschedule : Bool)
  | clear (e : Nat) (mask : Word)
  | getEvent (e : Nat)
  | checkNoRing (q slots payload : Nat)
  | installRing (q slots payload base : Nat)
  | startAdd (q : Nat) (flags : WaitFlags) (timeout : Ticks) (payload : List UInt8)
  | startFlush (q : Nat)
  | commitAdd (q : Nat)
  | commitRemove (q length : Nat) (buffer : List UInt8)
  | length (q : Nat)
  | isFull (q : Nat)
  | createMultiWait (w count : Nat)
  | addSubWait (w : Nat) (entry : SubWait)
  | startMulti (w : Nat) (combinator : Combinator) (timeout : Ticks)
  | leaveHeap (h : HeapTask) (r : HeapResult)
  | readCell (cell : Cell) (rest : List Cell) (seen : List (Option CellValue))
  deriving DecidableEq

/-- Open code of a call, outside its critical sections. -/
inductive Stage
  | enter (s : Section)
  | reenter (t : TaskId) (w : Waiter)
  | yield (t : TaskId) (w : Waiter)
  | useHeap (h : HeapTask)
  | leftHeap (h : HeapTask) (r : HeapResult)
  | copyIn (q : Nat) (r : Ring) (payload : List UInt8)
  | copyOut (q : Nat) (r : Ring) (buffer : List UInt8)
  | removed (q length : Nat) (buffer : List UInt8)
  | readCells (cells : List Cell) (seen : List (Option CellValue))
  | enterCpuLock
  | tryEnterCpuLock
  | leaveCpuLock
  | yieldCpu
  | timer
  | idle
  | fail (c : Cause)
  | return (r : Reply)
  deriving DecidableEq

def Call.start (config : Config) : Call → Stage
  | createTask name stack priority param entry =>
    if stack < config.stackMinimum then .fail (.stackTooSmall name stack config.stackMinimum)
    else .enter (.createTask name stack priority param entry)
  | currentTask => .enter .currentTask
  | currentParam => .enter .currentParam
  | sleep ticks =>
    if ticks = Ticks.forever then .return .unit
    else .enter (.pause .sleep .timer (min ticks (Ticks.expired - 1)))
  | suspend => .enter (.pause .suspend .suspended Ticks.forever)
  | exit => .enter .exit
  | blockOn wait timeout => .enter (.pause .blockOn wait timeout)
  | requestReschedule => .enter .requestReschedule
  | tick => .enter .tick
  | lock m mask flags timeout => .enter (.seek (.lock m mask) flags.nowait timeout)
  | unlock m mask reschedule => .enter (.unlock m mask reschedule)
  | isLocked m mask => .enter (.isLocked m mask)
  | raise e mask reschedule => .enter (.raise e mask reschedule)
  | clear e mask => .enter (.clear e mask)
  | getEvent e => .enter (.getEvent e)
  | waitEvent e mask flags timeout =>
    .enter (.seek (.event e mask flags.clear) flags.nowait timeout)
  | createQueue q slots payload =>
    if slots = 0 ∨ 65535 < payload then .fail (.badGeometry q slots payload)
    else if Heap.addressSpace ≤ slots * (Ring.lengthSize + payload) then .fail .ringOverflow
    else .enter (.checkNoRing q slots payload)
  | add q flags timeout payload => .enter (.startAdd q flags timeout payload)
  | remove q flags timeout buffer => .enter (.seek (.remove q buffer) flags.nowait timeout)
  | flush q => .enter (.startFlush q)
  | length q => .enter (.length q)
  | isFull q => .enter (.isFull q)
  | createMultiWait w count =>
    if multiWaitMax < count then .fail (.tooManySubWaits w count)
    else .enter (.createMultiWait w count)
  | addSubWait w entry => .enter (.addSubWait w entry)
  | waitMulti w combinator timeout => .enter (.startMulti w combinator timeout)
  | alloc size => .enter (.seek (.heap (.alloc size)) false Ticks.forever)
  | free address => .enter (.seek (.heap (.free address)) false Ticks.forever)
  | heapStats => .enter (.seek (.heap .stats) false Ticks.forever)
  | inspect cells => .readCells cells []
  | enterCpuLock => .enterCpuLock
  | tryEnterCpuLock => .tryEnterCpuLock
  | leaveCpuLock => .leaveCpuLock
  | yieldCpu => .yieldCpu

end TaskKernel
