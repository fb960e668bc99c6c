namespace TaskKernel

inductive Handler
  | timer
  | application (id : Nat)
  deriving DecidableEq

structure Line where
  pended : Bool := false
  handler : Option Handler := none
  deriving DecidableEq, Inhabited

def Line.isEligible (l : Line) : Bool := l.pended && l.handler.isSome

inductive Owner
  | boot
  /-- A task, the idle task being task zero. -/
  | task (id : Nat)
  deriving DecidableEq

def lineCount : Nat := 32

def timerLine : Nat := lineCount - 1

structure Processor where
  /-- Set by the first dispatch. Interrupts and dispatch requests wait for it. -/
  started : Bool := false
  cpuLock : Bool := false
  owner : Owner := .boot
  dispatchPended : Bool := false
  inInterrupt : Bool := false
  idleWaiting : Bool := false
  tickCount : Nat := 0
  lines : List Line := List.replicate lineCount {}
  deriving DecidableEq, Inhabited

namespace Processor

def updateLine (p : Processor) (n : Nat) (f : Line → Line) : Option Processor :=
  if n < p.lines.length then some { p with lines := p.lines.modify n f } else none

def pend (p : Processor) (n : Nat) : Option Processor :=
  p.updateLine n fun l => { l with pended := true }

def setHandler (p : Processor) (n : Nat) (h : Option Handler) : Option Processor :=
  p.updateLine n fun l => { l with handler := h }

def takeFirst : List Line → Option (Handler × List Line)
  | [] => none
  | l :: rest =>
    match l.pended, l.handler with
    | true, some h => some (h, { l with pended := false } :: rest)
    | _, _ => (takeFirst rest).map fun (h, rest) => (h, l :: rest)

def takeLine (p : Processor) : Option (Handler × Processor) :=
  (takeFirst p.lines).map fun (h, lines) => (h, { p with lines })

def hasPendingWork (p : Processor) : Bool := p.dispatchPended || p.lines.any Line.isEligible

/-- The idle task sleeps and nothing but an event from outside can wake it. -/
def isQuiescent (p : Processor) : Bool := p.idleWaiting && !p.hasPendingWork

def pendedLines (p : Processor) : List Nat :=
  (p.lines.zipIdx.filter fun x => x.1.pended).map Prod.snd

def inTask (p : Processor) : Bool := !p.inInterrupt && p.owner ≠ .boot

inductive Preemption
  | nothing
  | interrupt (h : Handler) (p : Processor)
  | dispatch (p : Processor)

/-- Interrupts come first, then the dispatch. Nothing is taken before the first dispatch, while
interrupts are held off, or inside a handler. -/
def preemption (p : Processor) : Preemption :=
  if !p.started || p.cpuLock || p.inInterrupt then .nothing
  else match p.takeLine with
    | some (h, p) => .interrupt h { p with inInterrupt := true }
    | none => if p.dispatchPended then .dispatch { p with dispatchPended := false } else .nothing

end Processor

end TaskKernel
