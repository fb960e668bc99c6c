import TaskKernel.Machine
import Mathlib.Logic.Relation

namespace TaskKernel

inductive Context
  | boot
  | task (t : TaskId)
  | handler
  deriving DecidableEq

inductive Happening
  | called (c : Context) (call : Call)
  | ran (c : Context) (before : System) (sec : Section)
  | returned (c : Context) (r : Reply)
  | entered (h : Handler)
  | dispatched (before : Kernel)

def Happening.context : Happening → Option Context
  | .called c _ => some c
  | .ran c _ _ => some c
  | .returned c _ => some c
  | .entered .timer => some .handler
  | .entered (.application _) => none
  | .dispatched _ => none

abbrev History := List Happening

namespace History

/-- The call of the context that is in progress. The timer's handler counts as a call. -/
def calling (c : Context) : History → Option Call
  | [] => none
  | .called c' call :: h => if c' = c then some call else calling c h
  | .returned c' _ :: h => if c' = c then none else calling c h
  | .entered .timer :: h => if c = .handler then some .tick else calling c h
  | _ :: h => calling c h

/-- The kernel's memory that the application holds: what it was given and has not given back. -/
def owned : History → List (Nat × Nat)
  | [] => []
  | .called _ (.free a) :: h => (owned h).filter (·.1 ≠ a)
  | .returned c (.number a) :: h =>
    match calling c h with
    | some (.alloc size) => (a, size) :: owned h
    | _ => owned h
  | _ :: h => owned h

end History

def Call.budget : Call → Ticks
  | .sleep n => min n (Ticks.expired - 1)
  | .blockOn _ n => n
  | .lock _ _ _ n => n
  | .waitEvent _ _ _ n => n
  | .add _ _ n _ => n
  | .remove _ _ n _ => n
  | .waitMulti _ _ n => n
  | _ => Ticks.forever

/-- The objects of a call are within the application's reach: the locks inside the kernel's own
objects are not, and only memory that was given is given back. -/
def Call.Reaches (h : History) : Call → Prop
  | .lock m .. => ∃ i, m = .object i
  | .unlock m .. => ∃ i, m = .object i
  | .free a => a ∈ h.owned.map Prod.fst
  | _ => True

structure Call.Legal (h : History) (call : Call) : Prop where
  reaches : call.Reaches h
  fits : call.budget ≤ Ticks.expired

namespace Machine

def context (m : Machine) : Context :=
  if m.cpu.inInterrupt then .handler
  else match m.cpu.owner with
    | .boot => .boot
    | .task t => .task t

/-- What a context is doing. There is a handler only inside an interrupt. -/
def activityOf (m : Machine) : Context → Activity
  | .boot => m.boot
  | .task t => m.tasks.get t
  | .handler => if m.cpu.inInterrupt then m.handler else .application

def happens (m : Machine) : History :=
  match m.activity with
  | .inside sec => [.ran m.context m.system sec]
  | .running (.return r) => [.returned m.context r]
  | .point _ =>
    match m.cpu.preemption with
    | .nothing => []
    | .interrupt h _ => [.entered h]
    | .dispatch _ => [.dispatched m.kernel]
  | _ => []

def write (m : Machine) (a : Nat) (bytes : List UInt8) : Machine :=
  { m with system := m.system.update fun k => { k with memory := k.memory.setBytes a bytes } }

/-- The bytes lie in memory that the application holds, or outside the kernel heap. -/
def MayWrite (m : Machine) (h : History) (a n : Nat) : Prop :=
  (∃ x ∈ h.owned, x.1 ≤ a ∧ a + n ≤ x.1 + x.2) ∨ a + n ≤ m.kernel.config.arenaStart ∨
    m.kernel.config.arenaStart + m.kernel.config.arenaSize ≤ a

/-- The machine comes to this state with this history. -/
inductive Run (config : Config) : Machine → History → Prop where
  | initial : Run config (initial config) []
  | step {m : Machine} {h : History} (run : Run config m h) (busy : m.activity ≠ .application)
      (alive : ∀ halt, m.step.2 ≠ .halted halt) : Run config m.step.1 (m.happens ++ h)
  | call {m : Machine} {h : History} (run : Run config m h) (free : m.activity = .application)
      (c : Call) (legal : c.Legal h) : Run config (m.call c) (.called m.context c :: h)
  | leaveHandler {m : Machine} {h : History} (run : Run config m h)
      (free : m.activity = .application) (inside : m.cpu.inInterrupt = true) :
      Run config m.leaveHandler h
  | launch {m : Machine} {h : History} (run : Run config m h) (free : m.activity = .application)
      (booting : m.context = .boot) (alive : m.launch.2 = .none) :
      Run config m.launch.1 (.dispatched m.kernel :: h)
  | pend {m m' : Machine} {h : History} (run : Run config m h) (line : Nat)
      (pended : m.pend line = some m') : Run config m' h
  | setHandler {m m' : Machine} {h : History} (run : Run config m h) (line id : Nat)
      (set : m.setHandler line (.application id) = some m') : Run config m' h
  | write {m : Machine} {h : History} (run : Run config m h) (free : m.activity = .application)
      (a : Nat) (bytes : List UInt8) (may : m.MayWrite h a bytes.length) :
      Run config (m.write a bytes) h

inductive Next (m : Machine) (h : History) : Machine → History → Prop where
  | step (busy : m.activity ≠ .application) (alive : ∀ halt, m.step.2 ≠ .halted halt) :
      Next m h m.step.1 (m.happens ++ h)
  | call (free : m.activity = .application) (c : Call) (legal : c.Legal h) :
      Next m h (m.call c) (.called m.context c :: h)
  | leaveHandler (free : m.activity = .application) (inside : m.cpu.inInterrupt = true) :
      Next m h m.leaveHandler h
  | launch (free : m.activity = .application) (booting : m.context = .boot)
      (alive : m.launch.2 = .none) : Next m h m.launch.1 (.dispatched m.kernel :: h)
  | pend {m' : Machine} (line : Nat) (pended : m.pend line = some m') : Next m h m' h
  | setHandler {m' : Machine} (line id : Nat)
      (set : m.setHandler line (.application id) = some m') : Next m h m' h
  | write (free : m.activity = .application) (a : Nat) (bytes : List UInt8)
      (may : m.MayWrite h a bytes.length) : Next m h (m.write a bytes) h

def Steps (x y : Machine × History) : Prop := Next x.1 x.2 y.1 y.2

abbrev Path : Machine × History → Machine × History → Prop := Relation.ReflTransGen Steps

variable {m m' : Machine} {h h' : History} {x y : Machine × History} {config : Config}

theorem Run.next (run : Run config m h) (next : Next m h m' h') : Run config m' h' := by
  cases next with
  | step busy alive => exact run.step busy alive
  | call free c legal => exact run.call free c legal
  | leaveHandler free inside => exact run.leaveHandler free inside
  | launch free booting alive => exact run.launch free booting alive
  | pend line pended => exact run.pend line pended
  | setHandler line id set => exact run.setHandler line id set
  | write free a bytes may => exact run.write free a bytes may

theorem Run.path (run : Run config x.1 x.2) (path : Path x y) : Run config y.1 y.2 := by
  induction path with
  | refl => exact run
  | tail _ next ih => exact ih.next next

/-- Nothing that has happened is taken back. -/
theorem Next.suffix (next : Next m h m' h') : h <:+ h' := by
  cases next with
  | step => exact List.suffix_append ..
  | call | launch => exact List.suffix_cons ..
  | leaveHandler | pend | setHandler | write => exact List.suffix_refl _

theorem Path.suffix (path : Path x y) : x.2 <:+ y.2 := by
  induction path with
  | refl => exact List.suffix_refl _
  | tail _ next ih => exact ih.trans (Next.suffix next)

/-- A property of all runs holds at the start and survives every step. -/
theorem Run.induct_next {P : Machine → History → Prop} (start : P (Machine.initial config) [])
    (next : ∀ {m m' : Machine} {h h' : History}, Run config m h → P m h → Next m h m' h' →
      P m' h') (run : Run config m h) : P m h := by
  induction run with
  | initial => exact start
  | step run busy alive ih => exact next run ih (.step busy alive)
  | call run free c legal ih => exact next run ih (.call free c legal)
  | leaveHandler run free inside ih => exact next run ih (.leaveHandler free inside)
  | launch run free booting alive ih => exact next run ih (.launch free booting alive)
  | pend run line pended ih => exact next run ih (.pend line pended)
  | setHandler run line id set ih => exact next run ih (.setHandler line id set)
  | write run free a bytes may ih => exact next run ih (.write free a bytes may)

end Machine

end TaskKernel
