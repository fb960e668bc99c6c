import Mathlib.Data.List.Forall2

namespace TaskKernel

structure Fifo where
  slots : Nat
  longest : Nat
  content : List (List UInt8) := []

structure Receipt where
  buffer : List UInt8
  length : Nat
  out : List UInt8
  deriving DecidableEq

/-- As much of the message as fits was copied, and the rest of the buffer was left alone. -/
structure Receipt.Delivers (x : Receipt) (msg : List UInt8) : Prop where
  length : x.length = msg.length
  out : x.out = msg.take x.buffer.length ++ x.buffer.drop msg.length

inductive QueueOp
  | create (slots longest : Nat)
  | add (payload : List UInt8)
  | remove (x : Receipt)
  | flush
  | count (n : Nat)
  | test (full : Bool)
  deriving DecidableEq

/-- What an operation does to a queue, and when it is possible with these results. -/
inductive QueueOp.Step : Option Fifo → QueueOp → Option Fifo → Prop where
  | create {slots longest : Nat} (positive : 0 < slots) (small : longest ≤ 65535) :
      Step none (.create slots longest) (some { slots, longest })
  | add {f : Fifo} {payload : List UInt8} (room : f.content.length < f.slots)
      (fits : payload.length ≤ f.longest) :
      Step (some f) (.add payload) (some { f with content := f.content ++ [payload] })
  | remove {f : Fifo} {msg : List UInt8} {rest : List (List UInt8)} {x : Receipt}
      (oldest : f.content = msg :: rest) (delivers : x.Delivers msg) :
      Step (some f) (.remove x) (some { f with content := rest })
  | flush {f : Fifo} : Step (some f) .flush (some { f with content := [] })
  | count {f : Fifo} : Step (some f) (.count f.content.length) (some f)
  | test {f : Fifo} : Step (some f) (.test (decide (f.slots ≤ f.content.length))) (some f)
  | countNone : Step none (.count 0) none
  | testNone : Step none (.test true) none

namespace Fifo

inductive Reached : List QueueOp → Option Fifo → Prop where
  | none : Reached [] none
  | step {ops : List QueueOp} {op : QueueOp} {f f' : Option Fifo} (before : Reached ops f)
      (step : op.Step f f') : Reached (op :: ops) f'

def sent : List QueueOp → List (List UInt8)
  | [] => []
  | .add payload :: ops => sent ops ++ [payload]
  | _ :: ops => sent ops

def receipts : List QueueOp → List Receipt
  | [] => []
  | .remove x :: ops => receipts ops ++ [x]
  | _ :: ops => receipts ops

/-- The messages that went in are still there or have left in order, each of them delivered once
if nothing was flushed. -/
structure Delivered (ops : List QueueOp) (content gone taken : List (List UInt8)) : Prop where
  added : sent ops = gone ++ content
  once : taken.Sublist gone
  all : .flush ∉ ops → taken = gone
  removed : List.Forall₂ (fun msg x => x.Delivers msg) taken (receipts ops)

def contentOf (f : Option Fifo) : List (List UInt8) := (f.map content).getD []

variable {ops : List QueueOp} {op : QueueOp} {f f' : Option Fifo}

/-- One operation more. -/
theorem Delivered.step {gone taken : List (List UInt8)}
    (h : Delivered ops (contentOf f) gone taken) (step : op.Step f f') :
    ∃ gone taken, Delivered (op :: ops) (contentOf f') gone taken := by
  have all : .flush ∉ op :: ops → taken = gone := fun never =>
    h.all fun member => never (List.mem_cons_of_mem _ member)
  cases step with
  | create | count | test | countNone | testNone =>
    exact ⟨gone, taken, h.added, h.once, all, h.removed⟩
  | @add f payload room fits =>
    refine ⟨gone, taken, ?_, h.once, all, h.removed⟩
    change sent ops ++ [payload] = gone ++ (f.content ++ [payload])
    rw [h.added, List.append_assoc]
    rfl
  | @remove f msg rest x oldest delivers =>
    refine ⟨gone ++ [msg], taken ++ [msg], ?_, h.once.append (.refl _), fun never => ?_, ?_⟩
    · have before : sent ops = gone ++ f.content := h.added
      rw [oldest] at before
      change sent ops = gone ++ [msg] ++ rest
      rw [before, List.append_assoc, List.singleton_append]
    · rw [all never]
    · exact List.rel_append h.removed (.cons delivers .nil)
  | @flush f =>
    refine ⟨gone ++ f.content, taken, ?_, ?_, fun never => ?_, h.removed⟩
    · exact h.added.trans (List.append_nil _).symm
    · exact h.once.trans (List.sublist_append_left ..)
    · exact absurd List.mem_cons_self never

/-- No message is lost but by a flush, none is delivered twice, and none out of order. -/
theorem Reached.delivered (h : Reached ops f) :
    ∃ gone taken, Delivered ops (contentOf f) gone taken := by
  induction h with
  | none => exact ⟨[], [], rfl, .refl _, fun _ => rfl, .nil⟩
  | step _ step ih =>
    obtain ⟨gone, taken, before⟩ := ih
    exact before.step step

end Fifo

end TaskKernel
