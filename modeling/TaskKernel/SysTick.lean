import TaskKernel.Ticks

namespace TaskKernel.SysTick

def maxPeriod : Nat := 0x1000000

/-- The cycles of a clock of `num / denom` Hz in `period` microseconds, at least one and at most
what the counter can count. A zero denominator has no answer. -/
def cycles (num denom period : Nat) : Option Nat :=
  if denom = 0 then none
  else
    let cycles := num * period / (denom * 1000000)
    some (if cycles = 0 then 1 else if maxPeriod < cycles then maxPeriod else cycles)

structure Options where
  tickPeriod : Nat
  denominator : Nat := 1
  priority : Nat := 0xc0
  useWfi : Bool := true
  dispatchPriority : Nat := 0xff
  timeSlice : Ticks := 10

def Options.ofClock (frequency period : Nat) : Options :=
  { tickPeriod := (cycles frequency 1 period).getD 0 }

end TaskKernel.SysTick
