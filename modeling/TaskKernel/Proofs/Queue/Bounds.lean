import Mathlib.Data.Nat.ModEq
import TaskKernel.Proofs.Queue.Slots

namespace TaskKernel.Ring

/-- A ring that was used in any way, the memory with its slots, and the payloads in them, the
oldest first. -/
inductive Reached (base slots slotSize : Nat) : Ring → Memory → List (List UInt8) → Prop where
  | opened (m : Memory) : Reached base slots slotSize (ofSlots base slots slotSize) m []
  | add {r : Ring} {m : Memory} {queued : List (List UInt8)} {payload : List UInt8}
      (before : Reached base slots slotSize r m queued) (room : r.hasRoom = true)
      (fits : payload.length ≤ slotSize) :
      Reached base slots slotSize r.commitWrite (r.store m payload) (queued ++ [payload])
  | remove {r : Ring} {m : Memory} {queued : List (List UInt8)}
      (before : Reached base slots slotSize r m queued) (ready : r.hasMessage = true) :
      Reached base slots slotSize r.commitRead m queued.tail
  | clear {r : Ring} {m : Memory} {queued : List (List UInt8)}
      (before : Reached base slots slotSize r m queued) :
      Reached base slots slotSize r.clear m []

def place (r : Ring) (i : Nat) : Nat := r.base + (r.readPosition + i * r.stride) % r.capacity

structure Cursors (base slots slotSize : Nat) (r : Ring) : Prop where
  buffer : r.base = base ∧ r.capacity = slots * (2 + slotSize)
  longest : r.slotSize = slotSize
  used_whole : r.stride ∣ r.used
  position_whole : r.stride ∣ r.position
  used_le : r.used ≤ r.capacity
  position_lt : r.position < r.capacity
  read_covered : r.used ≤ r.position + r.capacity
  commit_covered : r.hasMessage = true → r.stride ≤ r.used

structure Queued (r : Ring) (slots : Nat) (m : Memory) (queued : List (List UInt8)) : Prop where
  count : r.length = queued.length
  room : r.hasRoom = true ↔ queued.length < slots
  ready : r.hasMessage = true ↔ queued ≠ []
  inside (i : Nat) : r.base ≤ r.place i ∧ r.place i + r.stride ≤ r.base + r.capacity
  apart (i j : Nat) : i < j → j < r.length →
    r.place i + r.stride ≤ r.place j ∨ r.place j + r.stride ≤ r.place i
  message (i : Nat) (msg : List UInt8) : queued[i]? = some msg →
    msg.length ≤ r.slotSize ∧ m.HasMessage (r.place i) msg

/-- Storing a payload changes one slot of the buffer, and no message is queued there. -/
structure Stores (r : Ring) (m : Memory) (payload : List UInt8) : Prop where
  inside : r.position + r.stride ≤ r.capacity
  only (m' : Memory) (c : Nat) : c < r.base + r.position ∨ r.base + r.position + r.stride ≤ c →
    (r.store m' payload).get c = m'.get c
  free (i : Nat) : i < r.length →
    r.place i + r.stride ≤ r.base + r.position ∨ r.base + r.position + r.stride ≤ r.place i
  spares (i : Nat) : i < r.length →
    (r.store m payload).bytes (r.place i) r.stride = m.bytes (r.place i) r.stride

structure Fetches (r : Ring) (m : Memory) (msg : List UInt8) : Prop where
  inside : r.readPosition + r.stride ≤ r.capacity
  length : r.frontLength m = msg.length
  out (buffer : List UInt8) :
    r.fetch m buffer = msg.take buffer.length ++ buffer.drop msg.length
  only (m' : Memory) :
    (∀ c, r.base + r.readPosition ≤ c → c < r.base + r.readPosition + r.stride →
      m'.get c = m.get c) →
    r.frontLength m' = r.frontLength m ∧ ∀ buffer, r.fetch m' buffer = r.fetch m buffer

variable {r : Ring} {m : Memory} {queued : List (List UInt8)} {payload msg : List UInt8}
  {base slots slotSize n p i j : Nat}

namespace Shape

theorem place_eq (h : r.Shape slots n p) (i : Nat) :
    r.place i = r.slot ((p + slots - n + i) % slots) := by
  unfold place slot
  rw [h.readPosition_eq, h.capacity, ← Nat.add_mul, Nat.mul_mod_mul_right, Nat.mod_add_mod]

theorem turn_lt (h : r.Shape slots n p) (i : Nat) : (p + slots - n + i) % slots < slots :=
  Nat.mod_lt _ (Nat.zero_lt_of_lt h.inside)

theorem cursors (h : r.Shape slots n p) (at_base : r.base = base) (size : r.slotSize = slotSize) :
    r.Cursors base slots slotSize where
  buffer := ⟨at_base, by rw [h.capacity, stride, lengthSize, size]⟩
  longest := size
  used_whole := ⟨n, by rw [h.used, Nat.mul_comm]⟩
  position_whole := ⟨p, by rw [h.position, Nat.mul_comm]⟩
  used_le := by
    rw [h.used, h.capacity]
    exact Nat.mul_le_mul_right _ h.full
  position_lt := by
    rw [h.position, h.capacity]
    exact Nat.mul_lt_mul_of_pos_right h.inside r.stride_pos
  read_covered := by
    rw [h.used, h.capacity]
    exact Nat.le_trans (Nat.mul_le_mul_right _ h.full) (Nat.le_add_left ..)
  commit_covered ready := by
    rw [h.hasMessage_eq, decide_eq_true_eq] at ready
    rw [h.used]
    exact Nat.le_mul_of_pos_left _ ready

end Shape

/-- Of two slots one ends before the other begins. -/
theorem slots_apart (r : Ring) (ne : i ≠ j) :
    r.slot i + r.stride ≤ r.slot j ∨ r.slot j + r.stride ≤ r.slot i := by
  have before : ∀ k l, k < l → r.slot k + r.stride ≤ r.slot l := by
    intro k l less
    have whole := Nat.mul_le_mul_right r.stride (Nat.succ_le_of_lt less)
    rw [Nat.succ_mul] at whole
    unfold slot
    omega
  exact (Nat.lt_or_gt_of_ne ne).imp (before i j) (before j i)

/-- Messages at different places in the queue are in different slots. -/
theorem turns_ne (less : i < j) (within : j < slots) (k : Nat) :
    (k + i) % slots ≠ (k + j) % slots := by
  intro same
  have equal : i ≡ j [MOD slots] := Nat.ModEq.add_left_cancel' k same
  exact Nat.ne_of_lt less (equal.eq_of_lt_of_lt (Nat.lt_trans less within) within)

namespace Holds

variable {f : Fifo} {rest : List (List UInt8)}

theorem messages (h : r.Holds m f) : r.Queued f.slots m f.content := by
  obtain ⟨p, shape, messages⟩ := h.laid
  refine ⟨shape.length_eq, ?_, ?_, fun i => ?_, fun i j less used => ?_, fun i msg hi => ?_⟩
  · rw [shape.hasRoom_eq, decide_eq_true_eq]
  · rw [shape.hasMessage_eq, decide_eq_true_eq, List.length_pos_iff]
  · have within := shape.slot_le (shape.turn_lt i)
    rw [shape.place_eq]
    unfold slot
    omega
  · rw [shape.length_eq] at used
    rw [shape.place_eq, shape.place_eq]
    exact r.slots_apart (turns_ne less (Nat.lt_of_lt_of_le used shape.full) _)
  · rw [shape.place_eq, h.longest]
    exact messages i msg hi

theorem stores (h : r.Holds m f) (room : f.content.length < f.slots)
    (fits : payload.length ≤ f.longest) : r.Stores m payload := by
  obtain ⟨p, shape, -⟩ := h.laid
  have here : r.base + r.position = r.slot p := by
    rw [shape.position]
    rfl
  have only (m' : Memory) (c : Nat)
      (outside : c < r.base + r.position ∨ r.base + r.position + r.stride ≤ c) :
      (r.store m' payload).get c = m'.get c := r.get_store m' (h.longest ▸ fits) outside
  have free (i : Nat) (used : i < r.length) :
      r.place i + r.stride ≤ r.base + r.position ∨
        r.base + r.position + r.stride ≤ r.place i := by
    rw [shape.length_eq] at used
    rw [shape.place_eq, here]
    exact r.slots_apart (mod_ne_of_used shape.inside room used)
  refine ⟨?_, only, free, fun i used => ?_⟩
  · rw [shape.position]
    exact shape.slot_le shape.inside
  · refine Memory.bytes_congr fun c lower upper => only m c ?_
    have := free i used
    omega

theorem fetches (h : r.Holds m f) (oldest : f.content = msg :: rest) : r.Fetches m msg := by
  obtain ⟨p, shape, messages⟩ := h.laid
  have delivers (buffer : List UInt8) :
      Receipt.Delivers ⟨buffer, r.frontLength m, r.fetch m buffer⟩ msg := h.fetch oldest
  have length : r.frontLength m = msg.length := (delivers []).length
  have short : msg.length ≤ r.slotSize := by
    rw [h.longest]
    exact (messages 0 msg (by rw [oldest]; rfl)).1
  refine ⟨?_, length, fun buffer => (delivers buffer).out, fun m' same => ?_⟩
  · rw [shape.readPosition_eq]
    exact shape.slot_le (Nat.mod_lt _ (Nat.zero_lt_of_lt shape.inside))
  · unfold stride at same
    have same_length : r.frontLength m' = r.frontLength m :=
      Memory.nat_congr fun c lower upper => same c lower (by omega)
    refine ⟨same_length, fun buffer => ?_⟩
    have same_bytes : r.frontBytes m' (min (r.frontLength m) buffer.length) =
        r.frontBytes m (min (r.frontLength m) buffer.length) :=
      Memory.bytes_congr fun c lower upper => same c (by omega) (by omega)
    unfold Ring.fetch
    dsimp only
    rw [same_length, same_bytes]

end Holds

/-- A ring in use holds what is queued. -/
theorem Reached.holds (h : Reached base slots slotSize r m queued) (positive : 0 < slots)
    (small : slotSize ≤ 65535) :
    r.base = base ∧ r.Holds m { slots, longest := slotSize, content := queued } := by
  induction h with
  | opened m => exact ⟨rfl, .ofSlots base positive small⟩
  | @add r m queued payload before room fits ih =>
    obtain ⟨at_base, holds⟩ := ih
    have room : queued.length < slots := holds.messages.room.mp room
    have written := r.hasMessage_store m (Nat.le_trans fits small)
    exact ⟨at_base, (holds.store room fits).commitWrite room fits written⟩
  | @remove r m queued before ready ih =>
    obtain ⟨at_base, holds⟩ := ih
    obtain ⟨msg, rest, oldest⟩ := List.exists_cons_of_ne_nil (holds.messages.ready.mp ready)
    subst oldest
    exact ⟨at_base, holds.commitRead rfl⟩
  | clear before ih => exact ⟨ih.1, ih.2.clear⟩

/-- However a ring is used, its cursors stay at slots of its buffer and no subtraction of theirs
goes below zero, the queued messages stay in slots of their own, a payload is stored in a slot
that is not one of these, and only the slot of the oldest message is looked at to fetch it. -/
theorem Reached.in_bounds (h : Reached base slots slotSize r m queued) (positive : 0 < slots)
    (small : slotSize ≤ 65535) :
    r.Cursors base slots slotSize ∧ r.Queued slots m queued ∧
    (∀ payload, r.hasRoom = true → payload.length ≤ slotSize → r.Stores m payload) ∧
    (r.hasMessage = true → ∃ msg, queued.head? = some msg ∧ r.Fetches m msg) := by
  obtain ⟨at_base, holds⟩ := h.holds positive small
  obtain ⟨p, shape⟩ := holds.shape
  have messages : r.Queued slots m queued := holds.messages
  refine ⟨shape.cursors at_base holds.longest, messages, fun payload room fits => ?_, ?_⟩
  · exact holds.stores (messages.room.mp room) fits
  · intro ready
    obtain ⟨msg, rest, oldest⟩ := List.exists_cons_of_ne_nil (messages.ready.mp ready)
    exact ⟨msg, congrArg List.head? oldest, holds.fetches oldest⟩

/-- Two slots, the newer message in front of the older one. -/
theorem Reached.in_bounds_wrapped :
    let r := (((ofSlots 4096 2 4).commitWrite).commitWrite).commitRead
    let m := ((ofSlots 4096 2 4).commitWrite).store ((ofSlots 4096 2 4).store {} [1, 2, 3]) [4]
    let full := r.commitWrite
    let stored := r.store m [5, 6, 7, 8]
    Reached 4096 2 4 full stored [[4], [5, 6, 7, 8]] ∧ full.Cursors 4096 2 4 ∧
      full.place 0 = 4102 ∧ full.place 1 = 4096 ∧ stored.HasMessage (full.place 1) [5, 6, 7, 8] ∧
      full.frontLength stored = 1 := by
  intro r m full stored
  have reached : Reached 4096 2 4 full stored [[4], [5, 6, 7, 8]] :=
    .add (.remove (.add (.add (.opened {}) rfl (by decide)) rfl (by decide)) rfl) rfl (by decide)
  obtain ⟨cursors, queued, -, fetch⟩ := reached.in_bounds (by decide) (by decide)
  obtain ⟨msg, oldest, fetches⟩ := fetch rfl
  cases oldest
  exact ⟨reached, cursors, by decide, by decide, (queued.message 1 _ rfl).2, fetches.length⟩

end TaskKernel.Ring
