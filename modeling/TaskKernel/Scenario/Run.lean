import TaskKernel.Advance
import TaskKernel.Scenario.Op

namespace TaskKernel.Scenario

inductive Source
  | script (ops : List Op)
  | stream
  | single
  | over

inductive Doing
  | nothing
  | starting
  | working (number : Nat) (op : Op) (calls : List Call) (replies : List Reply)
  | observing (number : Nat) (op : Op) (result : Result)
  | finishing

structure Client where
  label : Label
  source : Source
  doing : Doing := .nothing

def arenaStart : Nat := 0x400000000000

/-- The interrupt line through which the outside acts while the system is idle. -/
def idleLine : Nat := 30

def idleHandler : Nat := 0

structure Run where
  plan : Plan
  machine : Machine
  boot : Client
  tasks : Table (Option Client) := {}
  handler : Client
  programs : Array Source := #[]
  handlers : Array (Nat × List Op) := #[]
  stream : List Op
  advance : Option (Nat × Op × Advance) := none
  taken : Nat := 0
  handles : Array Nat := #[]
  trace : List Entry := []

inductive Ending
  | finished (last : Option FullSnapshot)
  | halted (h : Halt)
  | unending

structure Turn where
  run : Run
  ending : Option Ending := none

namespace Run

def record (r : Run) (e : Entry) : Run := { r with trace := e :: r.trace }

def takeJournal (r : Run) : Run :=
  if r.machine.kernel.journal.isEmpty then r
  else
    let (messages, machine) := r.machine.takeJournal
    { r with machine, trace := messages.foldl (fun trace msg => .log msg :: trace) r.trace }

def snapshot (r : Run) : Snapshot :=
  let k := r.machine.kernel
  { running := k.running, runQueue := k.runQueue, tasks := k.tasks.slice 1 k.taskCount }

def fullSnapshot (r : Run) : FullSnapshot :=
  let k := r.machine.kernel
  { r.snapshot with
    started := k.started
    heapLock := k.heapLock
    mutexes := k.mutexes.slice 0 objectCount
    events := k.events.slice 0 objectCount
    queueLengths := (k.queues.slice 0 objectCount).map fun q => (q.ring.map Ring.length).getD 0 }

def newClient (r : Run) (t : TaskId) : Client :=
  { label := .task t, source := (r.programs[(r.machine.kernel.task t).entry]?).getD .over }

def client (r : Run) : Client :=
  if r.machine.cpu.inInterrupt then r.handler
  else match r.machine.cpu.owner with
    | .boot => r.boot
    | .task t => (r.tasks.get t).getD (r.newClient t)

def setClient (r : Run) (c : Client) : Run :=
  if r.machine.cpu.inInterrupt then { r with handler := c }
  else match r.machine.cpu.owner with
    | .boot => { r with boot := c }
    | .task t => { r with tasks := r.tasks.set t (some c) }

def updateClient (r : Run) (f : Client → Client) : Run := r.setClient (f r.client)

def setDoing (r : Run) (d : Doing) : Run := r.updateClient fun c => { c with doing := d }

def call (r : Run) (c : Call) : Run := { r with machine := r.machine.call c }

def cpuLocked (r : Run) : Bool := r.machine.cpu.cpuLock

def addressAt (offset : Int) : Nat :=
  ((arenaStart + offset) % (Heap.addressSpace : Int)).toNat

def conclude (r : Run) (number : Nat) (op : Op) (result : Result)
    (snapshot : Option (Option Snapshot)) : Run :=
  (r.record (.record { number, label := r.client.label, op, result, snapshot })).setDoing .nothing

def complete (r : Run) (number : Nat) (op : Op) (result : Result) : Run :=
  if !r.plan.snapshots then r.conclude number op result none
  else if r.cpuLocked then r.conclude number op result (some none)
  else (r.setDoing (.observing number op result)).call .currentTask

def callsOf (r : Run) : Op → List Call
  | .createTask name stack priority param _ =>
    [.createTask name stack priority param r.programs.size]
  | .currentTask => [.currentTask]
  | .currentParam => [.currentParam]
  | .sleep ticks => [.sleep ticks]
  | .suspend => [.suspend]
  | .requestReschedule => [.requestReschedule]
  | .tick count => List.replicate count .tick
  | .blockOn wait timeout => [.blockOn wait timeout]
  | .lock m mask flags timeout => [.lock (.object m) mask flags timeout]
  | .unlock m mask reschedule => [.unlock (.object m) mask reschedule]
  | .isLocked m mask => [.isLocked (.object m) mask]
  | .raise e mask reschedule => [.raise e mask reschedule]
  | .clear e mask => [.clear e mask]
  | .getEvent e => [.getEvent e]
  | .waitEvent e mask flags timeout => [.waitEvent e mask flags timeout]
  | .createQueue q slots payload => [.createQueue q slots payload]
  | .add q flags timeout payload => [.add q flags timeout payload]
  | .remove q flags timeout size => [.remove q flags timeout (List.replicate size 0xee)]
  | .flush q => [.flush q]
  | .queueLength q => [.length q, .length q, .isFull q]
  | .createMultiWait w count => [.createMultiWait w count]
  | .addSubWait w entry => [.addSubWait w entry]
  | .waitMulti w combinator timeout => [.waitMulti w combinator timeout]
  | .alloc size => [.alloc size]
  | .free handle => ((r.handles[handle]?).map Call.free).toList
  | .freeAt offset => [.free (addressAt offset)]
  | .heapStats => [.heapStats]
  | .enterCpuLock => [.enterCpuLock]
  | .leaveCpuLock => [.leaveCpuLock]
  | .yieldCpu => [.yieldCpu]
  | .tryEnterCpuLock => [.tryEnterCpuLock]
  | .runningTask => [.currentTask]
  | .state => [.currentTask]
  | .inspect o => [.inspect o.cells]
  | _ => []

def arena (r : Run) : Text.Arena := { start := arenaStart, size := r.plan.arenaSize }

def resultOfReply : Reply → Result
  | .unit => .nothing
  | .task t => .task t
  | .number n => .number n
  | .flag b => .flag b
  | .failed e => .failed e
  | .matched bits => .number bits.toNat
  | .ready ready => .ready ready
  | .received n buffer => .received n buffer
  | .stats s => .stats s
  | .cells _ => .nothing

/-- What the replies to the calls of an operation come to, the oldest reply first. -/
def resultOf (r : Run) : Op → List Reply → Result
  | .createTask .., [.task t] => .number t
  | .lock .., [.unit] => .succeeded
  | .add .., [.unit] => .succeeded
  | .queueLength _, [.number n, .number m, .flag full] => .length n (m = 0) full
  | .alloc _, [.number a] => .number (a - arenaStart)
  | .runningTask, [.task t] => .number t
  | .state, [.task _] => .state (some r.fullSnapshot)
  | .inspect o, [.cells values] => .shown (Text.inspected r.arena o values)
  | .tick _, _ => .nothing
  | _, [reply] => resultOfReply reply
  | _, _ => .nothing

def settle (r : Run) (number : Nat) (op : Op) (replies : List Reply) : Run :=
  let result := r.resultOf op replies
  match op, replies with
  | .state, _ => r.conclude number op result none
  | .alloc _, [.number a] => { r with handles := r.handles.push a }.complete number op result
  | _, _ => r.complete number op result

def setHandler (r : Run) (line : Nat) (ops : List Op) : Run × Result :=
  match r.machine.setHandler line (.application r.handlers.size) with
  | some machine => ({ r with machine, handlers := r.handlers.push (line, ops) }, .succeeded)
  | none => (r, .badLine)

def pendLines (r : Run) : List Nat → Run × List Bool
  | [] => (r, [])
  | line :: lines =>
    let pended := r.machine.pend line
    let (r, valid) := { r with machine := pended.getD r.machine }.pendLines lines
    (r, pended.isSome :: valid)

def perform (r : Run) (number : Nat) (op : Op) : Run :=
  let k := r.machine.kernel
  let cpu := r.machine.cpu
  let start (r : Run) : Run := r.setDoing (.working number op (r.callsOf op) [])
  match op with
  | .return =>
    let r := r.conclude number op .nothing none
    match r.client.label with
    | .task _ => r.updateClient fun c => { c with source := .over }
    | _ => r
  | .exit => (r.conclude number op .nothing none).call .exit
  | .maxTasks => r.complete number op (.number k.config.maxTasks)
  | .ticksOfMillis v => r.complete number op (.number (Ticks.ofMillis v k.config.tickPeriod))
  | .ticksOfMicros v => r.complete number op (.number (Ticks.ofMicros v k.config.tickPeriod))
  | .tickCount => r.complete number op (.number cpu.tickCount)
  | .isCpuLocked => r.complete number op (.flag cpu.cpuLock)
  | .isTaskContext => r.complete number op (.flag cpu.inTask)
  | .writeHeap offset bytes =>
    let memory := k.memory.setBytes (addressAt offset) bytes
    let system := r.machine.system.update fun k => { k with memory }
    { r with machine := { r.machine with system } }.complete number op .nothing
  | .setHandler line ops =>
    let (r, result) := r.setHandler line ops
    r.complete number op result
  | .pend lines =>
    let (r, valid) := r.pendLines lines
    r.conclude number op (.lines valid) none
  | .state => if cpu.cpuLock then r.conclude number op (.state none) none else start r
  | .free handle =>
    if handle < r.handles.size then start r else r.conclude number op .skipped none
  | .createTask _ _ _ _ script =>
    let r := start r
    { r with programs := r.programs.push ((script.map Source.script).getD .stream) }
  | _ => start r

def inTask (r : Run) : Bool :=
  match r.client.label with
  | .task _ => true
  | _ => false

def take (r : Run) (op : Op) : Run :=
  let number := r.taken
  let r := { r with taken := number + 1 }
  match op with
  | .inTask op => if r.inTask then r.perform number op else r.conclude number op .skipped none
  | op => r.perform number op

def finish (r : Run) : Turn :=
  if r.cpuLocked then { run := r, ending := some (.finished none) }
  else { run := (r.setDoing .finishing).call .currentTask }

def leave (r : Run) : Turn :=
  match r.client.label with
  | .boot =>
    match r.machine.launch with
    | (machine, .halted h) => { run := { r with machine }, ending := some (.halted h) }
    | (machine, _) => { run := { r with machine } }
  | .task _ => { run := r.call .exit }
  | _ => { run := { r with machine := r.machine.leaveHandler } }

def choose (r : Run) : Turn :=
  let c := r.client
  match c.source with
  | .over => r.leave
  | .script [] => r.leave
  | .script (op :: rest) =>
    { run := (r.setClient { c with source := .script rest }).take op }
  | .stream =>
    match r.stream with
    | [] => r.finish
    | op :: rest => { run := { r with stream := rest }.take op }
  | .single =>
    match r.stream with
    | [] => r.finish
    | op :: rest =>
      { run := { r.setClient { c with source := .over } with stream := rest }.take op }

def act (r : Run) : Turn :=
  match r.client.doing with
  | .nothing => r.choose
  | .working number op [] replies => { run := r.settle number op replies.reverse }
  | .working number op (c :: calls) replies =>
    { run := (r.setDoing (.working number op calls replies)).call c }
  | _ => { run := r }

def answer (r : Run) (reply : Reply) : Turn :=
  match r.client.doing with
  | .starting =>
    let k := r.machine.kernel
    let r := match reply with
      | .task t => r.record (.started t (k.task t).param)
      | _ => r
    { run := r.setDoing .nothing }
  | .working number op calls replies =>
    { run := r.setDoing (.working number op calls (reply :: replies)) }
  | .observing number op result =>
    { run := r.conclude number op result (some (some r.snapshot)) }
  | .finishing => { run := r, ending := some (.finished (some r.fullSnapshot)) }
  | .nothing => { run := r }

def enter (r : Run) (id : Nat) : Run :=
  let handler : Client :=
    if id = idleHandler then { label := .idle, source := .single }
    else match r.handlers[id]? with
      | some (line, ops) => { label := .interrupt line, source := .script ops }
      | none => { label := .idle, source := .over }
  { r with handler }

def begin (r : Run) : Run :=
  match r.machine.activity with
  | .application => (r.setDoing .starting).call .currentTask
  | _ => r

def advanceMachine (r : Run) : Turn :=
  let isNew := decide (r.machine.activity = .dormant)
  let (machine, event) := r.machine.step
  let r := { r with machine }.takeJournal
  match event with
  | .none => { run := if isNew then r.begin else r }
  | .returned reply => r.answer reply
  | .entered id => { run := r.enter id }
  | .halted h => { run := r, ending := some (.halted h) }

def pendFromOutside (r : Run) (line : Nat) : Run :=
  { r with machine := (r.machine.pend line).getD r.machine }

def actOutside (r : Run) : Turn :=
  if r.plan.clocked then { run := r.pendFromOutside timerLine }
  else match r.advance with
    | some (number, op, .done) =>
      let result := Result.number r.machine.cpu.tickCount
      let r := r.record (.record { number, label := .outside, op, result })
      { run := { r with advance := none } }
    | some (number, op, a) =>
      match a.step r.machine.cpu with
      | some (a, cpu) =>
        { run := { r with advance := some (number, op, a), machine := r.machine.setCpu cpu } }
      | none => { run := r, ending := some .unending }
    | none =>
      match r.stream with
      | .tick count :: rest =>
        { run :=
            { r with
              stream := rest
              taken := r.taken + 1
              advance := some (r.taken, .tick count, .settle count) } }
      | _ => { run := r.pendFromOutside idleLine }

def turn (r : Run) : Turn :=
  if r.machine.cpu.isQuiescent then r.actOutside
  else match r.machine.activity with
    | .application => r.act
    | _ => r.advanceMachine

def loop : Nat → Run → Run × Ending
  | 0, r => (r, .unending)
  | fuel + 1, r =>
    match r.turn with
    | { run, ending := some e } => (run.takeJournal, e)
    | { run, ending := none } => loop fuel run.takeJournal

def ofPlan (plan : Plan) : Run :=
  let machine := Machine.initial
    { maxTasks := plan.maxTasks, arenaStart, arenaSize := plan.arenaSize,
      timeSlice := plan.timeSlice }
  { plan
    machine := (machine.setHandler idleLine (.application idleHandler)).getD machine
    boot := { label := .boot, source := .script plan.boot }
    handler := { label := .idle, source := .over }
    handlers := #[(idleLine, [])]
    stream := plan.stream }

def lastTaken (r : Run) : Option Nat := if r.taken = 0 then none else some (r.taken - 1)

def entries (r : Run) : List Entry := r.trace.reverse

end Run

/-- More turns than any scenario takes that ends. -/
def turnLimit : Nat := 1000000000

def Plan.run (plan : Plan) : Run × Ending := (Run.ofPlan plan).takeJournal.loop turnLimit

end TaskKernel.Scenario
