import TaskKernel.Call

namespace TaskKernel

def internalLock : Word := 1

inductive Halt
  | fatal (e : FatalError)
  | overflow
  | underflow
  | endless
  | misuse
  deriving DecidableEq

inductive Exit
  /-- The CPU lock is given back, and the call goes on at `stage`. -/
  | leave (stage : Stage)
  | halt (h : Halt)
  deriving DecidableEq

structure System where
  kernel : Kernel
  cpu : Processor := {}

namespace System

def update (s : System) (f : Kernel → Kernel) : System := { s with kernel := f s.kernel }

def log (s : System) (msg : Message) : System := s.update (·.log msg)

def pendDispatch (s : System) : System := { s with cpu := { s.cpu with dispatchPended := true } }

def requestReschedule (s : System) : System :=
  if s.kernel.started then s.pendDispatch else s

def requestRescheduleIf (s : System) (b : Bool) : System :=
  if b then s.requestReschedule else s

def logHeap (s : System) (reports : List Heap.Report) : System :=
  reports.foldl (fun s r => s.log (.heap r)) s

def canBlock (s : System) : Bool := s.cpu.inTask && s.kernel.running ≠ TaskId.idle

/-- Logs a cause, unless the log holds it already, and the error it is reported as. -/
def logFailure (s : System) (c : Cause) : System :=
  (if c.isReported then s.log (.failure c) else s).log (.fatal c.error)

def failWith (s : System) (c : Cause) : System × Exit :=
  (s.logFailure c, .halt (.fatal c.error))

def leaveWith (s : System) (r : Reply) : System × Exit := (s, .leave (.return r))

def record (s : System) (w : Waiter) (wait : WaitState) (timeout : Ticks) : System × Exit :=
  let t := s.kernel.running
  let s := s.log (.blocks t wait timeout)
  (s.update (·.updateTask t fun task => { task with wait, timeout }), .leave (.yield t w))

end System

inductive Attempt
  | done (s : System) (e : Exit)
  | blocked (wait : WaitState)

def System.attemptQueue (s : System) (q : Nat) (condition : Ring → Bool) (wait : WaitState)
    (next : Ring → Stage) : Attempt :=
  match s.kernel.tryLock (.queue q) internalLock with
  | none => .blocked (.mutex (.queue q) internalLock)
  | some k =>
    let locked := { s with kernel := k }
    match k.ring q with
    | none =>
      let (s, e) := locked.failWith (.queueMissing q)
      .done s e
    | some r => if condition r then .done locked (.leave (next r)) else .blocked wait

def System.emptyQueue (s : System) (q : Nat) : System :=
  let s := match s.kernel.ring q with
    | none => s
    | some r =>
      (s.log (.queueFlushed q r.length)).update (·.setRing q (some r.clear))
  (s.update (·.unlock (.queue q) internalLock)).requestReschedule

/-- Tries to reach a goal in one critical section. An attempt that fails changes nothing. -/
def Goal.attempt (s : System) : Goal → Attempt
  | .lock m mask =>
    match s.kernel.tryLock m mask with
    | some k => .done { s with kernel := k } (.leave (.return .unit))
    | none => .blocked (.mutex m mask)
  | .event e mask clear =>
    match s.kernel.pollEvent e mask clear with
    | some (bits, k) => .done { s with kernel := k } (.leave (.return (.matched bits)))
    | none => .blocked (.event e mask)
  | .multi c =>
    let ready := s.kernel.readySet c
    if c.isMetBy ready then
      .done (s.update (·.consume ready c.entries)) (.leave (.return (.ready ready)))
    else .blocked (.multi c)
  | .add q payload =>
    s.attemptQueue q Ring.hasRoom (.queueFull q) fun r => .copyIn q r payload
  | .remove q buffer =>
    s.attemptQueue q Ring.hasMessage (.queueEmpty q) fun r => .copyOut q r buffer
  | .flush q =>
    match s.kernel.tryLock (.queue q) internalLock with
    | some k => .done (System.emptyQueue { s with kernel := k } q) (.leave (.return .unit))
    | none => .blocked (.mutex (.queue q) internalLock)
  | .heap h =>
    match s.kernel.tryLock .heap internalLock with
    | some k => .done { s with kernel := k } (.leave (.useHeap h))
    | none => .blocked (.mutex .heap internalLock)

/-- What a call does when its wait has timed out: a goal gets one more attempt. -/
def Waiter.timedOut (s : System) : Waiter → System × Exit
  | .pause .blockOn => s.leaveWith (.failed .timeout)
  | .pause .sleep => s.leaveWith .unit
  | .pause .suspend => s.leaveWith .unit
  | .pause .exit => s.record (.pause .exit) .timer Ticks.forever
  | .goal g =>
    match g.attempt s with
    | .done s e => (s, e)
    | .blocked _ => s.leaveWith (.failed .timeout)

namespace System

def block (s : System) (w : Waiter) (wait : WaitState) (timeout : Ticks) : System × Exit :=
  if !s.canBlock then s.failWith (.cannotBlock wait)
  else if timeout = Ticks.expired then w.timedOut s
  else s.record w wait timeout

end System

def WaitState.isForQueue : WaitState → Bool
  | queueFull _ => true
  | queueEmpty _ => true
  | _ => false

/-- Tries to reach a goal, and blocks until it can be reached. A queue operation gives up before
it would block if its timeout has run out. -/
def Goal.seek (s : System) (g : Goal) (nowait : Bool) (timeout : Ticks) : System × Exit :=
  match g.attempt s with
  | .done s e => (s, e)
  | .blocked wait =>
    if nowait then s.leaveWith (.failed .wouldBlock)
    else if wait.isForQueue ∧ timeout = Ticks.expired then s.leaveWith (.failed .timeout)
    else s.block (.goal g) wait timeout

def Waiter.woken (s : System) (timeout : Ticks) : Waiter → System × Exit
  | .pause .blockOn => s.leaveWith (.number timeout)
  | .pause .sleep => s.leaveWith .unit
  | .pause .suspend => s.leaveWith .unit
  | .pause .exit => s.block (.pause .exit) .timer Ticks.forever
  | .goal g => g.seek s false timeout

/-- Goes on with a blocked call if the dispatcher has chosen its task, and blocks again if not. -/
def System.wake (s : System) (t : TaskId) (w : Waiter) : System × Exit :=
  let task := s.kernel.task t
  if task.wait = .run then
    let s := s.update (·.updateTask t fun task => { task with timeout := Ticks.forever })
    let s := s.log (.wokeUp t task.timeout)
    if task.timeout = Ticks.expired then w.timedOut s else w.woken s task.timeout
  else (s, .leave (.yield t w))

def Kernel.read (k : Kernel) : Cell → CellValue
  | .mutex m => .word (k.mutex m)
  | .event e => .word (k.event e)
  | .ring q => .ring (k.ring q)
  | .multiWait w => .multiWait (k.multiWaits.get w)

def Section.run (s : System) : Section → System × Exit
  | .createTask name stack priority param entry =>
    if s.kernel.config.maxTasks ≤ s.kernel.taskCount then
      (s, .leave (.fail (.taskTableFull name s.kernel.config.maxTasks)))
    else
      let (k, t) := s.kernel.enterTask name priority param entry
      let s := ({ s with kernel := k }).log (.taskCreated name t priority stack)
      s.requestReschedule.leaveWith (.task t)
  | .currentTask => s.leaveWith (.task s.kernel.running)
  | .currentParam => s.leaveWith (.number (s.kernel.task s.kernel.running).param)
  | .requestReschedule => s.requestReschedule.leaveWith .unit
  | .tick =>
    let (k, reschedule) := s.kernel.tick
    (({ s with kernel := k }).requestRescheduleIf reschedule).leaveWith .unit
  | .pause p wait timeout => s.block (.pause p) wait timeout
  | .exit =>
    let s := s.log (.taskExited (s.kernel.task s.kernel.running).name)
    s.block (.pause .exit) .timer Ticks.forever
  | .seek g nowait timeout => g.seek s nowait timeout
  | .wake t w => s.wake t w
  | .unlock m mask reschedule =>
    ((s.update (·.unlock m mask)).requestRescheduleIf reschedule).leaveWith .unit
  | .isLocked m mask => s.leaveWith (.flag !(s.kernel.mutex m).isClear mask)
  | .raise e mask reschedule =>
    let s := s.update fun k => k.setEvent e (k.event e ||| mask)
    (s.requestRescheduleIf reschedule).leaveWith .unit
  | .clear e mask => (s.update (·.clearEvent e mask)).leaveWith .unit
  | .getEvent e => s.leaveWith (.number (s.kernel.event e).toNat)
  | .checkNoRing q slots payload =>
    if (s.kernel.ring q).isSome then (s, .leave (.fail .queueExists))
    else
      (s, .leave (.enter (.seek (.heap (.ring q slots payload)) false Ticks.forever)))
  | .installRing q slots payload base =>
    if (s.kernel.ring q).isSome then s.failWith .queueExists
    else
      let s := s.update (·.setRing q (some (.ofSlots base slots payload)))
      (s.log (.queueCreated q slots payload)).leaveWith .unit
  | .startAdd q flags timeout payload =>
    match s.kernel.ring q with
    | none => s.failWith (.queueMissing q)
    | some r =>
      if r.slotSize < payload.length then
        (s, .leave (.fail (.messageTooLong q payload.length r.slotSize)))
      else (Goal.add q payload).seek s flags.nowait timeout
  | .startFlush q =>
    match s.kernel.ring q with
    | none => s.failWith (.queueMissing q)
    | some _ => (Goal.flush q).seek s false Ticks.forever
  | .commitAdd q =>
    let s := s.update fun k => k.setRing q ((k.ring q).map Ring.commitWrite)
    (s.update (·.unlock (.queue q) internalLock)).requestReschedule.leaveWith .unit
  | .commitRemove q n buffer =>
    let s := s.update fun k => k.setRing q ((k.ring q).map Ring.commitRead)
    let s := (s.update (·.unlock (.queue q) internalLock)).requestReschedule
    (s, .leave (.removed q n buffer))
  | .length q => s.leaveWith (.number (((s.kernel.ring q).map Ring.length).getD 0))
  | .isFull q => s.leaveWith (.flag !s.kernel.hasRoom q)
  | .createMultiWait w count =>
    let s := s.update fun k =>
      { k with multiWaits := k.multiWaits.set w { capacity := count } }
    s.leaveWith .unit
  | .addSubWait w entry =>
    let o := s.kernel.multiWaits.get w
    if o.capacity ≤ o.entries.length then (s, .leave (.fail (.multiWaitFull w entry o.capacity)))
    else
      let s := s.update fun k =>
        { k with multiWaits := k.multiWaits.set w { o with entries := o.entries ++ [entry] } }
      s.leaveWith .unit
  | .startMulti w combinator timeout =>
    let entries := (s.kernel.multiWaits.get w).entries
    if entries.isEmpty then (s, .leave (.fail (.emptyMultiWait w)))
    else (Goal.multi { entries, combinator }).seek s false timeout
  | .leaveHeap h r =>
    let s := (s.update (·.unlock .heap internalLock)).requestReschedule
    (s, .leave (.leftHeap h r))
  | .readCell cell rest seen =>
    (s, .leave (.readCells rest (seen ++ [some (s.kernel.read cell)])))

inductive Move
  | goto (stage : Stage)
  | inside (sec : Section)
  | point (stage : Stage)
  | sleep
  | return (r : Reply)
  | halt (h : Halt)
  deriving DecidableEq

namespace System

def setCpuLock (s : System) (b : Bool) : System := { s with cpu := { s.cpu with cpuLock := b } }

def prepareHeap (s : System) : System :=
  if s.kernel.heap.hasRegion then s
  else s.update fun k =>
    { k with heap := Heap.ofRegion k.config.arenaStart k.config.arenaSize }

def applyHeap {α : Type} (s : System) (o : Heap.Outcome α) (ok : α → HeapResult) :
    System × Except Halt HeapResult :=
  let s := (s.update fun k => { k with heap := o.heap, memory := o.memory }).logHeap o.reports
  match o.result with
  | .ok a => (s, .ok (ok a))
  | .error (.refused e) => (s, .ok (.refused e))
  | .error .overflow => (s, .error .overflow)
  | .error .underflow => (s, .error .underflow)
  | .error .endless => (s, .error .endless)

def heapStats (s : System) : System × Except Halt HeapResult :=
  let (result, reports) := s.kernel.heap.check s.kernel.memory
  let s := s.logHeap reports
  match result with
  | .ok stats => (s, .ok (.stats stats))
  | .error (.refused e) => (s.logFailure (.heap e), .error (.fatal e))
  | .error .overflow => (s, .error .overflow)
  | .error .underflow => (s, .error .underflow)
  | .error .endless => (s, .error .endless)

/-- Runs a heap operation. The lock of the heap is held, the CPU lock is not. -/
def useHeap (s : System) (h : HeapTask) : System × Except Halt HeapResult :=
  let s := s.prepareHeap
  let k := s.kernel
  match h with
  | .alloc size => s.applyHeap (k.heap.alloc k.memory size) .allocated
  | .ring _ slots payload =>
    s.applyHeap (k.heap.alloc k.memory (slots * (Ring.lengthSize + payload))) .allocated
  | .free address => s.applyHeap (k.heap.free k.memory address) fun _ => .freed
  | .stats => s.heapStats

def leftHeap (s : System) : HeapTask → HeapResult → System × Move
  | .alloc size, .allocated a => (s.log (.allocated size a), .goto (.return (.number a)))
  | .ring q slots payload, .allocated a =>
    (s.log (.allocated (slots * (Ring.lengthSize + payload)) a),
      .goto (.enter (.installRing q slots payload a)))
  | .free a, .freed => (s.log (.freed a), .goto (.return .unit))
  | _, .stats stats => (s, .goto (.return (.stats stats)))
  | _, .refused e => (s.logFailure (.heap e), .halt (.fatal e))
  | _, _ => (s, .goto (.return .unit))

end System

def Stage.run (s : System) : Stage → System × Move
  | .enter sec =>
    if s.cpu.cpuLock then (s.logFailure .reentered, .halt (.fatal .badContext))
    else (s.setCpuLock true, .inside sec)
  | .reenter t w =>
    if s.cpu.cpuLock then (s, .halt .misuse) else (s.setCpuLock true, .inside (.wake t w))
  | .yield t w => (s.pendDispatch, .point (.reenter t w))
  | .useHeap h =>
    match s.useHeap h with
    | (s, .ok r) => (s, .goto (.enter (.leaveHeap h r)))
    | (s, .error halt) => (s, .halt halt)
  | .leftHeap h r => s.leftHeap h r
  | .copyIn q r payload =>
    (s.update fun k => { k with memory := r.store k.memory payload }, .goto (.enter (.commitAdd q)))
  | .copyOut q r buffer =>
    let m := s.kernel.memory
    (s, .goto (.enter (.commitRemove q (r.frontLength m) (r.fetch m buffer))))
  | .removed q length buffer =>
    let s := if buffer.length < length then
        s.log (.messageTruncated q length buffer.length) else s
    (s, .goto (.return (.received (min length buffer.length) buffer)))
  | .readCells [] seen => (s, .goto (.return (.cells seen)))
  | .readCells (cell :: rest) seen =>
    if s.cpu.cpuLock then (s, .goto (.readCells rest (seen ++ [none])))
    else (s.setCpuLock true, .inside (.readCell cell rest seen))
  | .enterCpuLock =>
    if s.cpu.cpuLock then (s, .halt .misuse)
    else (s.setCpuLock true, .goto (.return .unit))
  | .tryEnterCpuLock => (s.setCpuLock true, .goto (.return (.flag !s.cpu.cpuLock)))
  | .leaveCpuLock =>
    if s.cpu.cpuLock then (s.setCpuLock false, .point (.return .unit)) else (s, .halt .misuse)
  | .yieldCpu => (s.pendDispatch, .point (.return .unit))
  | .timer =>
    ({ s with cpu := { s.cpu with tickCount := s.cpu.tickCount + 1 } }, .goto (.enter .tick))
  | .idle =>
    if s.cpu.hasPendingWork then
      ({ s with cpu := { s.cpu with idleWaiting := false } }, .point .idle)
    else ({ s with cpu := { s.cpu with idleWaiting := true } }, .sleep)
  | .fail c => (s.logFailure c, .halt (.fatal c.error))
  | .return r => (s, .return r)

end TaskKernel
