import TaskKernel.Memory

namespace TaskKernel.Frame

/-- Returns to thread mode, with the process stack. -/
def excReturn : Nat := 0xfffffffd

def control : Nat := 0x00000002

def xpsr : Nat := 0x01000000

def hardwareWords : Nat := 8

def softwareWords : Nat := 10

def wordSize : Nat := 4

def frameSize : Nat := (hardwareWords + softwareWords) * wordSize

structure InitialContext where
  /-- The address of the entry point, whose lowest bit marks Thumb code. -/
  entryPoint : BitVec 32
  entryParam : BitVec 32
  exit : BitVec 32
  deriving DecidableEq

/-- Stack pointers are multiples of this when an exception is taken. -/
def stackAlignment : Nat := 8

def top (start length : Nat) : Nat := start + length - (start + length) % stackAlignment

def stackPointer (start length : Nat) : Nat := top start length - frameSize

/-- The words of a frame with the register values that are given to a task, by position from the
stack pointer. The other registers have no value. -/
def words (ctx : InitialContext) : List (Nat × Nat) :=
  [(softwareWords, ctx.entryParam.toNat), (softwareWords + 5, ctx.exit.toNat),
    (softwareWords + 6, (ctx.entryPoint &&& ~~~1).toNat), (softwareWords + 7, xpsr),
    (0, control), (9, excReturn)]

def write (m : Memory) (start length : Nat) (ctx : InitialContext) : Memory × Nat :=
  let sp := stackPointer start length
  ((words ctx).foldl (fun m w => m.setNat (sp + wordSize * w.1) wordSize w.2) m, sp)

def read (m : Memory) (sp : Nat) : List Nat :=
  (List.range (hardwareWords + softwareWords)).map fun i => m.nat (sp + wordSize * i) wordSize

end TaskKernel.Frame
