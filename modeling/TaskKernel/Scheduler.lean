import TaskKernel.Kernel

namespace TaskKernel

namespace Kernel

def isCandidate (k : Kernel) (t : TaskId) : Bool :=
  match (k.task t).wait with
  | .run => true
  | .suspended => false
  | w => (k.task t).timeout = Ticks.expired || k.holds w

structure Survey where
  best : Option TaskId := none
  /-- The first task in the suspended state. -/
  suspended : Option TaskId := none
  deriving DecidableEq, Inhabited

def outranks (k : Kernel) (t : TaskId) : Option TaskId → Bool
  | none => true
  | some best => (k.task t).priority < (k.task best).priority

def Survey.visit (k : Kernel) (s : Survey) (t : TaskId) : Survey :=
  if k.isCandidate t then
    if k.outranks t s.best then { s with best := some t } else s
  else if (k.task t).wait = .suspended then { s with suspended := s.suspended.or (some t) }
  else s

def surveyQueue (k : Kernel) : Survey := k.queued.foldl (Survey.visit k) {}

/-- A suspended task runs only when there is no candidate, the idle task only when there is no
suspended task either. -/
def Survey.choice (s : Survey) : TaskId := (s.best.or s.suspended).getD TaskId.idle

def rotate (k : Kernel) : Kernel :=
  if k.running = TaskId.idle then k
  else
    let (runQueue, links) := k.runQueue.moveToBack k.links k.running
    { k with runQueue, links }

def switchTo (k : Kernel) (t : TaskId) : Kernel :=
  let k := if t = TaskId.idle then k else k.updateTask t fun task => { task with wait := .run }
  let k := if t = k.running then k else k.log (.dispatch k.running t)
  { k with running := t }

def dispatch (k : Kernel) : Kernel :=
  let k := k.rotate
  k.switchTo k.surveyQueue.choice

def countDown (k : Kernel) : Kernel :=
  (List.range k.taskCount).foldl (fun k i => k.updateTask (i + 1) fun task =>
    { task with timeout := task.timeout.countDown }) k

def timeoutRunsOut (k : Kernel) : Bool :=
  (List.range k.taskCount).any fun i => (k.task (i + 1)).timeout.runsOut

/-- The running task spends time slices: it is not the idle task, has a slice and is not about to
block. -/
def usesSlice (k : Kernel) : Bool :=
  k.running ≠ TaskId.idle && (k.task k.running).reload ≠ 0 && (k.task k.running).wait = .run

def sliceEnds (k : Kernel) : Bool := k.usesSlice && (k.task k.running).slice ≤ 1

def spendSlice (k : Kernel) : Kernel :=
  if k.sliceEnds then
    (k.log (.sliceUsedUp k.running)).updateTask k.running fun t => { t with slice := t.reload }
  else if k.usesSlice then
    k.updateTask k.running fun t => { t with slice := t.slice - 1 }
  else k

/-- Advances the time by one tick. The flag asks for a reschedule. -/
def tick (k : Kernel) : Kernel × Bool :=
  (k.countDown.spendSlice, k.timeoutRunsOut || k.sliceEnds)

def resetTask (k : Kernel) (t : TaskId) (name : String) (priority param entry : Nat) : Kernel :=
  { k with
    tasks := k.tasks.set t
      { name, entry, param, priority, slice := k.config.timeSlice, reload := k.config.timeSlice }
    links := k.links.set t {} }

def enterTask (k : Kernel) (name : String) (priority param entry : Nat) : Kernel × TaskId :=
  let t := k.taskCount + 1
  let k := k.resetTask t name priority param entry
  let (runQueue, links) := k.runQueue.pushBack k.links t
  ({ k with runQueue, links, taskCount := t }, t)

end Kernel

end TaskKernel
