import TaskKernel.Message
import TaskKernel.Ring
import TaskKernel.Roster

namespace TaskKernel

structure Config where
  maxTasks : Nat
  arenaStart : Nat
  arenaSize : Nat
  /-- The ticks a task may run before its peers get a turn, zero for no limit. -/
  timeSlice : Ticks
  tickPeriod : Nat := 1000
  stackMinimum : Nat := 256
  deriving DecidableEq, Inhabited

structure Task where
  name : String := ""
  entry : Nat := 0
  param : Nat := 0
  /-- The smaller, the more urgent. -/
  priority : Nat := 0
  wait : WaitState := .run
  timeout : Ticks := Ticks.forever
  slice : Ticks := 0
  reload : Ticks := 0
  deriving DecidableEq, Inhabited

structure Queue where
  mutex : Word := 0
  ring : Option Ring := none
  deriving DecidableEq, Inhabited

structure MultiWait where
  capacity : Nat := 0
  entries : List SubWait := []
  deriving DecidableEq, Inhabited

structure Kernel where
  config : Config
  tasks : Table Task := {}
  links : Links := {}
  runQueue : Roster := {}
  running : TaskId := TaskId.idle
  /-- The number of tasks created, the idle task not counted. -/
  taskCount : Nat := 0
  started : Bool := false
  mutexes : Table Word := {}
  events : Table Word := {}
  queues : Table Queue := {}
  multiWaits : Table MultiWait := {}
  heapLock : Word := 0
  heap : Heap := {}
  memory : Memory := {}
  /-- The log, the newest entry first. -/
  journal : List Message := []

namespace Kernel

def log (k : Kernel) (msg : Message) : Kernel := { k with journal := msg :: k.journal }

def task (k : Kernel) (t : TaskId) : Task := k.tasks.get t

def updateTask (k : Kernel) (t : TaskId) (f : Task → Task) : Kernel :=
  { k with tasks := k.tasks.modify t f }

def mutex (k : Kernel) : MutexName → Word
  | .object i => k.mutexes.get i
  | .queue q => (k.queues.get q).mutex
  | .heap => k.heapLock

def setMutex (k : Kernel) (m : MutexName) (w : Word) : Kernel :=
  match m with
  | .object i => { k with mutexes := k.mutexes.set i w }
  | .queue q => { k with queues := k.queues.modify q fun o => { o with mutex := w } }
  | .heap => { k with heapLock := w }

def event (k : Kernel) (e : Nat) : Word := k.events.get e

def setEvent (k : Kernel) (e : Nat) (w : Word) : Kernel :=
  { k with events := k.events.set e w }

def ring (k : Kernel) (q : Nat) : Option Ring := (k.queues.get q).ring

def setRing (k : Kernel) (q : Nat) (r : Option Ring) : Kernel :=
  { k with queues := k.queues.modify q fun o => { o with ring := r } }

/-- A queue that was never created has no room. -/
def hasRoom (k : Kernel) (q : Nat) : Bool := (k.ring q).any Ring.hasRoom

def hasMessage (k : Kernel) (q : Nat) : Bool := (k.ring q).any Ring.hasMessage

def matched (k : Kernel) (e : Nat) (mask : Word) : Word := k.event e &&& mask

/-- A condition of a multi-wait holds if the same wait of its own does. -/
def holdsAlone (k : Kernel) : SubWait → Bool
  | .event e mask _ => k.matched e mask ≠ 0
  | .queue q .notEmpty => k.hasMessage q
  | .queue q .notFull => k.hasRoom q

def readySet (k : Kernel) (c : Combination) : ReadySet :=
  ReadySet.ofPredicate k.holdsAlone c.entries

def holds (k : Kernel) : WaitState → Bool
  | .run => true
  | .suspended => false
  | .timer => false
  | .mutex m mask => (k.mutex m).isClear mask
  | .event e mask => k.matched e mask ≠ 0
  | .queueFull q => k.hasRoom q
  | .queueEmpty q => k.hasMessage q
  | .multi c => c.isMetBy (k.readySet c)

theorem holdsAlone_eq_holds (k : Kernel) (s : SubWait) : k.holdsAlone s = k.holds s.alone := by
  cases s with
  | event => rfl
  | queue q condition => cases condition <;> rfl

def clearEvent (k : Kernel) (e : Nat) (mask : Word) : Kernel :=
  k.setEvent e ((k.event e).without mask)

def pollEvent (k : Kernel) (e : Nat) (mask : Word) (clear : Bool) : Option (Word × Kernel) :=
  let bits := k.matched e mask
  if bits = 0 then none
  else some (bits, if clear then k.clearEvent e bits else k)

def consume (k : Kernel) (ready : ReadySet) (entries : List SubWait) : Kernel :=
  entries.zipIdx.foldl (fun k x =>
    match x.1 with
    | .event e mask flags =>
      if ready.contains x.2 ∧ flags.clear then k.clearEvent e (k.matched e mask) else k
    | .queue .. => k) k

def tryLock (k : Kernel) (m : MutexName) (mask : Word) : Option Kernel :=
  if (k.mutex m).isClear mask then some (k.setMutex m (k.mutex m ||| mask)) else none

def unlock (k : Kernel) (m : MutexName) (mask : Word) : Kernel :=
  k.setMutex m ((k.mutex m).without mask)

def queued (k : Kernel) : List TaskId := k.runQueue.toList k.links

end Kernel

end TaskKernel
