import TaskKernel.System

namespace TaskKernel

inductive Activity
  | dormant
  | application
  | running (stage : Stage)
  | inside (sec : Section)
  /-- A preemption point, after which the call goes on. -/
  | point (stage : Stage)
  deriving DecidableEq

instance : Inhabited Activity := ⟨.dormant⟩

structure Machine where
  system : System
  boot : Activity := .application
  tasks : Table Activity := {}
  handler : Activity := .application
  serving : Option Handler := none

inductive Event
  | none
  | returned (r : Reply)
  | entered (id : Nat)
  | halted (h : Halt)
  deriving DecidableEq

namespace Machine

def cpu (m : Machine) : Processor := m.system.cpu

def kernel (m : Machine) : Kernel := m.system.kernel

def activity (m : Machine) : Activity :=
  if m.cpu.inInterrupt then m.handler
  else match m.cpu.owner with
    | .boot => m.boot
    | .task t => m.tasks.get t

def setActivity (m : Machine) (a : Activity) : Machine :=
  if m.cpu.inInterrupt then { m with handler := a }
  else match m.cpu.owner with
    | .boot => { m with boot := a }
    | .task t => { m with tasks := m.tasks.set t a }

def setCpu (m : Machine) (cpu : Processor) : Machine :=
  { m with system := { m.system with cpu } }

def call (m : Machine) (c : Call) : Machine :=
  m.setActivity (.running (c.start m.kernel.config))

def leaveHandler (m : Machine) : Machine :=
  { m.setCpu { m.cpu with inInterrupt := false } with serving := none }

def start (m : Machine) : Machine :=
  match m.cpu.owner with
  | .task t => m.setActivity (if t = TaskId.idle then .running .idle else .application)
  | .boot => m

def dispatch (m : Machine) : Machine :=
  let k := m.kernel.dispatch
  { m with system := { kernel := k, cpu := { m.cpu with owner := .task k.running } } }

def enterHandler (m : Machine) (h : Handler) : Machine × Event :=
  match h with
  | .timer => ({ m with handler := .running .timer, serving := some h }, .none)
  | .application id => ({ m with handler := .application, serving := some h }, .entered id)

/-- Ends a call. The timer's handler ends with its call. -/
def finishCall (m : Machine) (r : Reply) : Machine × Event :=
  if m.cpu.inInterrupt ∧ m.serving = some .timer then (m.leaveHandler, .none)
  else (m.setActivity .application, .returned r)

/-- One step of the code that has the processor. The application's own code takes none here. -/
def step (m : Machine) : Machine × Event :=
  match m.activity with
  | .dormant => (m.start, .none)
  | .application => (m, .none)
  | .running stage =>
    match stage.run m.system with
    | (system, .goto next) => ({ m with system }.setActivity (.running next), .none)
    | (system, .inside sec) => ({ m with system }.setActivity (.inside sec), .none)
    | (system, .point next) => ({ m with system }.setActivity (.point next), .none)
    | (system, .sleep) => ({ m with system }, .none)
    | (system, .return r) => { m with system }.finishCall r
    | (system, .halt h) => ({ m with system }, .halted h)
  | .inside sec =>
    match sec.run m.system with
    | (system, .leave next) =>
      ({ m with system := system.setCpuLock false }.setActivity (.point next), .none)
    | (system, .halt h) => ({ m with system }, .halted h)
  | .point stage =>
    match m.cpu.preemption with
    | .nothing => (m.setActivity (.running stage), .none)
    | .interrupt h cpu => (m.setCpu cpu).enterHandler h
    | .dispatch cpu => ((m.setCpu cpu).dispatch, .none)

/-- The end of the boot code: the kernel starts, and the first task is dispatched. -/
def launch (m : Machine) : Machine × Event :=
  if m.cpu.cpuLock then
    ({ m with system := m.system.logFailure .reentered }, .halted (.fatal .badContext))
  else
    let k := m.kernel.resetTask TaskId.idle "idle" 255 0 0
    let k := { k with started := true }.log (.bootEnds m.kernel.taskCount)
    let cpu := { m.cpu with started := true, dispatchPended := false }
    (({ m with system := { kernel := k, cpu } }).dispatch, .none)

def initial (config : Config) : Machine :=
  let cpu : Processor := {}
  { system :=
      { kernel := ({ config } : Kernel).log .bootStarts
        cpu := (cpu.setHandler timerLine (some .timer)).getD cpu } }

def pend (m : Machine) (line : Nat) : Option Machine := (m.cpu.pend line).map m.setCpu

def setHandler (m : Machine) (line : Nat) (h : Handler) : Option Machine :=
  (m.cpu.setHandler line (some h)).map m.setCpu

def takeJournal (m : Machine) : List Message × Machine :=
  (m.kernel.journal.reverse,
    { m with system := { m.system with kernel := { m.kernel with journal := [] } } })

end Machine

end TaskKernel
