import TaskKernel.Text.Objects

namespace TaskKernel.Text

inductive Level
  | trace
  | debug
  | warning
  | error
  deriving DecidableEq

def Level.letter : Level → String
  | trace => "T"
  | debug => "D"
  | warning => "W"
  | error => "E"

def report (arena : Arena) : Heap.Report → Level × String
  | .carved size base => (.debug, s!"heap: carved {size} bytes at {address arena base}")
  | .regionTooSmall size => (.error, s!"heap: the arena of {size} bytes is too small")
  | .sizeOverflow size => (.error, s!"heap: request of {size} bytes overflows")
  | .noFit size => (.error, s!"heap: no free block can hold {size} bytes")
  | .badBlock b => (.error, s!"heap: bad block header at {address arena b}")
  | .foreign a => (.error, s!"heap: {address arena a} doesn't belong to the heap")
  | .badHeader a => (.error, s!"heap: {address arena a} has a bad block header")
  | .freedTwice a => (.error, s!"heap: {address arena a} freed twice")

def cause : Cause → String
  | .stackTooSmall name stack minimum =>
    s!"task {taskName name}: stack of {stack} bytes is below the minimum of {minimum} bytes"
  | .taskTableFull name capacity =>
    s!"task {taskName name}: the task table is full ({capacity} tasks)"
  | .badGeometry q slots payload =>
    s!"queue Q{q}: invalid geometry ({slots} slots of {payload} bytes)"
  | .messageTooLong q length slot =>
    s!"queue Q{q}: {length} byte message exceeds the {slot} byte slot"
  | .tooManySubWaits w count =>
    s!"multi-wait W{w}: {count} sub-waits requested, the maximum is {multiWaitMax}"
  | .multiWaitFull w entry capacity =>
    s!"multi-wait W{w}: adding {subWait entry} exceeds the capacity of {capacity}"
  | .emptyMultiWait w => s!"multi-wait W{w}: waiting without sub-waits"
  | .queueMissing q => s!"queue Q{q}: used before creation"
  | .cannotBlock wait => s!"blocking on {waitState wait} from a non-waitable context"
  | .ringOverflow => ""
  | .queueExists => ""
  | .reentered => ""
  | .heap _ => ""

def message (arena : Arena) : Message → Level × String
  | .bootStarts => (.debug, "boot: running init")
  | .bootEnds n => (.debug, s!"boot: {n} task(s) created, dispatching")
  | .taskCreated name t priority stack =>
    (.debug,
      s!"created task {taskName name} ({task t}, priority {priority}, {stack} byte stack)")
  | .taskExited name => (.debug, s!"task {taskName name} exited")
  | .blocks t wait timeout =>
    (.trace, s!"{task t} blocks on {waitState wait} (timeout = {timeout})")
  | .wokeUp t timeout => (.trace, s!"{task t} woke up (timeout = {timeout})")
  | .dispatch previous next => (.trace, s!"dispatch: {task previous} -> {task next}")
  | .sliceUsedUp t => (.trace, s!"{task t} used up its time slice")
  | .queueCreated q slots payload =>
    (.debug, s!"queue Q{q}: created with {slots} slots of {payload} bytes")
  | .queueFlushed q n => (.debug, s!"queue Q{q}: flushing {n} message(s)")
  | .messageTruncated q length kept =>
    (.warning, s!"queue Q{q}: {length} byte message truncated to {kept} bytes")
  | .allocated size a => (.trace, s!"heap: allocated {size} bytes at {address arena a}")
  | .freed a => (.trace, s!"heap: freed {address arena a}")
  | .heap r => report arena r
  | .failure c => (.error, cause c)
  | .fatal e => (.error, e.haltText)

def logLine (arena : Arena) (msg : Message) : String :=
  let (level, text) := message arena msg
  level.letter ++ " " ++ text

end TaskKernel.Text
