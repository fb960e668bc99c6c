namespace TaskKernel

abbrev Ticks := Nat

namespace Ticks

def forever : Ticks := 0

/-- A timeout that has run out. Given as a timeout it fails at once. -/
def expired : Ticks := 4294967295

/-- A duration in microseconds, rounded up to periods of `period` microseconds, at least one
and less than `expired`. A period of zero counts as one microsecond. -/
def ofMicros (duration period : Nat) : Ticks :=
  let period := if period = 0 then 1 else period
  let ticks := (duration + period - 1) / period
  if ticks = 0 then 1
  else if expired ≤ ticks then expired - 1
  else ticks

def ofMillis (duration period : Nat) : Ticks := ofMicros (duration * 1000) period

/-- What is left of a countdown after one tick. Sentinels stay, the last tick expires it. -/
def countDown (t : Ticks) : Ticks :=
  if t = forever ∨ t = expired then t
  else if t = 1 then expired
  else t - 1

def runsOut (t : Ticks) : Bool := t = 1

end Ticks

end TaskKernel
