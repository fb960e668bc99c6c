import TaskKernel.Word

namespace TaskKernel

structure WaitFlags where
  nowait : Bool := false
  clear : Bool := false
  deriving DecidableEq, Inhabited

/-- A mutex word: one of the mutex objects, the lock inside a queue, or the lock of the kernel
heap. -/
inductive MutexName
  | object (i : Nat)
  | queue (q : Nat)
  | heap
  deriving DecidableEq

inductive QueueCondition
  | notEmpty
  | notFull
  deriving DecidableEq

inductive SubWait
  | event (e : Nat) (mask : Word) (flags : WaitFlags)
  | queue (q : Nat) (condition : QueueCondition)
  deriving DecidableEq

inductive Combinator
  | every
  | some
  deriving DecidableEq

/-- The conditions of a multi-wait as they stood when the wait began. -/
structure Combination where
  entries : List SubWait
  combinator : Combinator
  deriving DecidableEq

inductive WaitState
  | run
  | suspended
  | timer
  | mutex (m : MutexName) (mask : Word)
  | event (e : Nat) (mask : Word)
  | queueFull (q : Nat)
  | queueEmpty (q : Nat)
  | multi (c : Combination)
  deriving DecidableEq

instance : Inhabited WaitState := ⟨.run⟩

/-- The wait of its own that asks the same as one condition of a multi-wait. -/
def SubWait.alone : SubWait → WaitState
  | event e mask _ => .event e mask
  | queue q .notEmpty => .queueEmpty q
  | queue q .notFull => .queueFull q

/-- The positions of the conditions that held when a multi-wait ended. -/
structure ReadySet where
  bits : Word
  deriving DecidableEq, Inhabited

namespace ReadySet

def contains (r : ReadySet) (i : Nat) : Bool := r.bits.getLsbD i

def isEmpty (r : ReadySet) : Bool := r.bits = 0

def toList (r : ReadySet) : List Nat := Word.positions r.bits

def ofPredicate (p : SubWait → Bool) (entries : List SubWait) : ReadySet :=
  ⟨(entries.zipIdx.filter fun x => p x.1).foldl
    (fun bits x => bits ||| ((1 : Word) <<< x.2)) 0⟩

end ReadySet

def Combination.isMetBy (c : Combination) (r : ReadySet) : Bool :=
  match c.combinator with
  | .every => r.toList.length = c.entries.length
  | .some => !r.isEmpty

end TaskKernel
