import TaskKernel.Heap.Basic
import TaskKernel.Ticks
import TaskKernel.Wait

namespace TaskKernel

abbrev TaskId := Nat

def TaskId.idle : TaskId := 0

def multiWaitMax : Nat := 8

inductive Cause
  | stackTooSmall (name : String) (stack minimum : Nat)
  | taskTableFull (name : String) (capacity : Nat)
  /-- A queue without slots, or with messages too long for their length field. -/
  | badGeometry (q slots payload : Nat)
  | ringOverflow
  | messageTooLong (q length slot : Nat)
  | tooManySubWaits (w count : Nat)
  | multiWaitFull (w : Nat) (entry : SubWait) (capacity : Nat)
  | emptyMultiWait (w : Nat)
  | queueMissing (q : Nat)
  | queueExists
  | cannotBlock (wait : WaitState)
  | reentered
  | heap (e : FatalError)
  deriving DecidableEq

def Cause.error : Cause → FatalError
  | stackTooSmall .. => .stackTooSmall
  | taskTableFull .. => .taskTableExhausted
  | badGeometry .. => .badParam
  | ringOverflow => .badParam
  | messageTooLong .. => .messageTooLarge
  | tooManySubWaits .. => .multiWaitFull
  | multiWaitFull .. => .multiWaitFull
  | emptyMultiWait _ => .badObjectState
  | queueMissing _ => .badObjectState
  | queueExists => .badObjectState
  | cannotBlock _ => .badContext
  | reentered => .badContext
  | heap e => e

/-- The cause has an entry of its own in the log, beside its error. -/
def Cause.isReported : Cause → Bool
  | ringOverflow => false
  | queueExists => false
  | reentered => false
  | heap _ => false
  | _ => true

inductive Message
  | bootStarts
  | bootEnds (tasks : Nat)
  | taskCreated (name : String) (task : TaskId) (priority stack : Nat)
  | taskExited (name : String)
  | blocks (task : TaskId) (wait : WaitState) (timeout : Ticks)
  | wokeUp (task : TaskId) (timeout : Ticks)
  | dispatch (previous next : TaskId)
  | sliceUsedUp (task : TaskId)
  | queueCreated (q slots payload : Nat)
  | queueFlushed (q count : Nat)
  | messageTruncated (q length kept : Nat)
  | allocated (size address : Nat)
  | freed (address : Nat)
  | heap (r : Heap.Report)
  | failure (c : Cause)
  | fatal (e : FatalError)
  deriving DecidableEq

end TaskKernel
