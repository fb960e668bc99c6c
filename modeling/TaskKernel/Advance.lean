import TaskKernel.Processor

namespace TaskKernel

/-- How far the delivery has come. The thread and the processor take turns at any of these
points. -/
inductive Advance
  | settle (left : Nat)
  | aim (left : Nat)
  | deliver (target left : Nat)
  | await (target left : Nat)
  | done
  deriving DecidableEq

def Advance.step (p : Processor) : Advance → Option (Advance × Processor)
  | settle left => if p.isQuiescent then some (if left = 0 then done else aim left, p) else none
  | aim left => some (deliver (p.tickCount + 1) left, p)
  | deliver target left => (p.pend timerLine).map fun p => (await target left, p)
  | await target left => if target ≤ p.tickCount then some (settle (left - 1), p) else none
  | done => none

end TaskKernel
