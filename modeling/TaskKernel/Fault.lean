namespace TaskKernel

inductive ResultCode
  | success
  | wouldBlock
  | timeout
  deriving DecidableEq, Inhabited

namespace ResultCode

def value : ResultCode → Int
  | success => 0
  | wouldBlock => -47
  | timeout => -50

def name : ResultCode → String
  | success => "Success"
  | wouldBlock => "WouldBlock"
  | timeout => "Timeout"

def order (a b : ResultCode) : Ordering := compare a.value b.value

end ResultCode

inductive WaitError
  | wouldBlock
  | timeout
  deriving DecidableEq, Inhabited

def WaitError.code : WaitError → ResultCode
  | wouldBlock => .wouldBlock
  | timeout => .timeout

/-- The operations that report a `WaitError`, each with its own subset of the codes. -/
inductive ErrorKind
  | block
  | lockMutex
  | waitEvent
  | queue
  | multiWait
  deriving DecidableEq

def ErrorKind.widened : ErrorKind → Option ErrorKind
  | block => some lockMutex
  | lockMutex => some queue
  | _ => none

inductive FatalError
  | taskTableExhausted
  | stackTooSmall
  | messageTooLarge
  | multiWaitFull
  | heapExhausted
  | heapCorrupted
  | doubleFree
  | badContext
  | badObjectState
  | badParam
  deriving DecidableEq, Inhabited

namespace FatalError

def code : FatalError → Nat
  | taskTableExhausted => 1
  | stackTooSmall => 2
  | messageTooLarge => 3
  | multiWaitFull => 4
  | heapExhausted => 5
  | heapCorrupted => 6
  | doubleFree => 7
  | badContext => 8
  | badObjectState => 9
  | badParam => 10

def name : FatalError → String
  | taskTableExhausted => "TaskTableExhausted"
  | stackTooSmall => "StackTooSmall"
  | messageTooLarge => "MessageTooLarge"
  | multiWaitFull => "MultiWaitFull"
  | heapExhausted => "HeapExhausted"
  | heapCorrupted => "HeapCorrupted"
  | doubleFree => "DoubleFree"
  | badContext => "BadContext"
  | badObjectState => "BadObjectState"
  | badParam => "BadParam"

def summary : FatalError → String
  | taskTableExhausted => "task table exhausted"
  | stackTooSmall => "stack too small"
  | messageTooLarge => "message too large"
  | multiWaitFull => "multi-wait capacity exceeded"
  | heapExhausted => "heap exhausted"
  | heapCorrupted => "heap corrupted"
  | doubleFree => "double free"
  | badContext => "bad context"
  | badObjectState => "bad object state"
  | badParam => "bad parameter"

def describe (e : FatalError) : String := s!"{e.summary} (code {e.code})"

def haltText (e : FatalError) : String := s!"kernel fatal error: {e.describe}"

def all : List FatalError :=
  [taskTableExhausted, stackTooSmall, messageTooLarge, multiWaitFull, heapExhausted,
    heapCorrupted, doubleFree, badContext, badObjectState, badParam]

end FatalError

end TaskKernel
