import TaskKernel.Proofs.Queue.Fifo
import TaskKernel.Ring

namespace TaskKernel

namespace Memory

structure HasMessage (m : Memory) (a : Nat) (msg : List UInt8) : Prop where
  length : m.nat a Ring.lengthSize = msg.length
  bytes : m.bytes (a + Ring.lengthSize) msg.length = msg

variable {m m' : Memory} {a : Nat} {msg : List UInt8}

theorem HasMessage.congr (h : m.HasMessage a msg)
    (same : ∀ c, a ≤ c → c < a + Ring.lengthSize + msg.length → m'.get c = m.get c) :
    m'.HasMessage a msg := by
  constructor
  · have field : m'.nat a Ring.lengthSize = m.nat a Ring.lengthSize :=
      nat_congr fun c lower upper => same c lower (Nat.lt_of_lt_of_le upper (Nat.le_add_right ..))
    exact field.trans h.length
  · rw [bytes_congr fun c lower upper => same c (Nat.le_of_add_right_le lower) upper]
    exact h.bytes

theorem take_bytes (m : Memory) (a n k : Nat) : (m.bytes a n).take k = m.bytes a (min k n) := by
  induction n generalizing a k with
  | zero => simp [bytes]
  | succ n ih =>
    cases k with
    | zero => simp [bytes]
    | succ k => rw [bytes, List.take_succ_cons, ih, Nat.succ_min_succ, bytes]

end Memory

/-- The slots in use are not the next one to write. -/
theorem mod_ne_of_used {p slots n i : Nat} (inside : p < slots) (room : n < slots) (used : i < n) :
    (p + slots - n + i) % slots ≠ p := by
  by_cases wrapped : p + slots - n + i < slots
  · rw [Nat.mod_eq_of_lt wrapped]
    omega
  · rw [Nat.mod_eq_sub_mod (Nat.le_of_not_lt wrapped), Nat.mod_eq_of_lt (by omega)]
    omega

/-- One slot more in use and one slot further on come to the same. -/
theorem mod_turned {p slots n i : Nat} (inside : p < slots) (room : n < slots) :
    ((p + 1) % slots + slots - (n + 1) + i) % slots = (p + slots - n + i) % slots := by
  by_cases last : p + 1 = slots
  · rw [last, Nat.mod_self, show p + slots - n + i = 0 + slots - (n + 1) + i + slots by omega,
      Nat.add_mod_right]
  · rw [Nat.mod_eq_of_lt (Nat.lt_of_le_of_ne inside last)]
    congr 1
    omega

namespace Ring

/-- The ring has `slots` slots, `n` of them in use, and writes into the slot number `p` next. -/
structure Shape (r : Ring) (slots n p : Nat) : Prop where
  capacity : r.capacity = slots * r.stride
  used : r.used = n * r.stride
  position : r.position = p * r.stride
  full : n ≤ slots
  inside : p < slots

variable {r : Ring} {slots n p : Nat}

theorem stride_pos (r : Ring) : 0 < r.stride := by
  unfold stride lengthSize
  omega

namespace Shape

theorem ofSlots (base : Nat) (slotSize : Nat) (positive : 0 < slots) :
    (Ring.ofSlots base slots slotSize).Shape slots 0 0 :=
  ⟨rfl, (Nat.zero_mul _).symm, (Nat.zero_mul _).symm, Nat.zero_le _, positive⟩

theorem hasRoom_eq (h : r.Shape slots n p) : r.hasRoom = decide (n < slots) := by
  unfold hasRoom
  rw [h.used, h.capacity]
  exact decide_eq_decide.mpr (Nat.mul_lt_mul_right r.stride_pos)

theorem hasMessage_eq (h : r.Shape slots n p) : r.hasMessage = decide (0 < n) := by
  unfold hasMessage
  rw [h.used]
  exact decide_eq_decide.mpr (Nat.mul_pos_iff_of_pos_right r.stride_pos)

theorem length_eq (h : r.Shape slots n p) : r.length = n := by
  unfold length
  rw [h.used]
  exact Nat.mul_div_cancel n r.stride_pos

theorem readPosition_eq (h : r.Shape slots n p) :
    r.readPosition = (p + slots - n) % slots * r.stride := by
  unfold readPosition
  rw [h.position, h.capacity, h.used, ← Nat.add_mul, ← Nat.sub_mul, Nat.mul_mod_mul_right]

theorem commitWrite (h : r.Shape slots n p) (room : n < slots) :
    r.commitWrite.Shape slots (n + 1) ((p + 1) % slots) := by
  refine ⟨h.capacity, ?_, ?_, room, Nat.mod_lt _ (Nat.zero_lt_of_lt h.inside)⟩
  · change r.used + r.stride = (n + 1) * r.stride
    rw [h.used, Nat.succ_mul]
  · change (r.position + r.stride) % r.capacity = (p + 1) % slots * r.stride
    rw [h.position, h.capacity, ← Nat.succ_mul, Nat.mul_mod_mul_right]

theorem commitRead (h : r.Shape slots (n + 1) p) : r.commitRead.Shape slots n p := by
  refine ⟨h.capacity, ?_, h.position, Nat.le_of_succ_le h.full, h.inside⟩
  change r.used - r.stride = n * r.stride
  rw [h.used, Nat.succ_mul, Nat.add_sub_cancel]

theorem clear (h : r.Shape slots n p) : r.clear.Shape slots 0 0 :=
  ⟨h.capacity, (Nat.zero_mul _).symm, (Nat.zero_mul _).symm, Nat.zero_le _,
    Nat.zero_lt_of_lt h.inside⟩

/-- The slot lies within the ring. -/
theorem slot_le (h : r.Shape slots n p) {i : Nat} (hi : i < slots) :
    i * r.stride + r.stride ≤ r.capacity := by
  rw [h.capacity, ← Nat.succ_mul]
  exact Nat.mul_le_mul_right _ hi

end Shape

def slot (r : Ring) (i : Nat) : Nat := r.base + i * r.stride

structure Holds (r : Ring) (m : Memory) (f : Fifo) : Prop where
  longest : r.slotSize = f.longest
  small : f.longest ≤ 65535
  laid : ∃ p, r.Shape f.slots f.content.length p ∧ ∀ i msg, f.content[i]? = some msg →
    msg.length ≤ f.longest ∧
      m.HasMessage (r.slot ((p + f.slots - f.content.length + i) % f.slots)) msg

/-- Different slots have no byte in common. -/
theorem slot_apart (r : Ring) {i j c : Nat} (ne : i ≠ j) (lower : r.slot i ≤ c)
    (upper : c < r.slot i + r.stride) : c < r.slot j ∨ r.slot j + r.stride ≤ c := by
  unfold slot at *
  rcases Nat.lt_or_gt_of_ne ne with less | more
  · have := Nat.mul_le_mul_right r.stride (Nat.succ_le_of_lt less)
    rw [Nat.succ_mul] at this
    omega
  · have := Nat.mul_le_mul_right r.stride (Nat.succ_le_of_lt more)
    rw [Nat.succ_mul] at this
    omega

/-- A payload goes into one slot only. -/
theorem get_store (r : Ring) (m : Memory) {payload : List UInt8} {c : Nat}
    (fits : payload.length ≤ r.slotSize)
    (outside : c < r.base + r.position ∨ r.base + r.position + r.stride ≤ c) :
    (r.store m payload).get c = m.get c := by
  unfold store
  unfold stride lengthSize at outside
  rw [Memory.get_setBytes, if_neg (by unfold lengthSize; omega),
    Memory.get_setNat_of_outside _ _ _ _ _ (by unfold lengthSize; omega)]

theorem hasMessage_store (r : Ring) (m : Memory) {payload : List UInt8}
    (small : payload.length ≤ 65535) :
    (r.store m payload).HasMessage (r.base + r.position) payload := by
  unfold store
  dsimp only
  constructor
  · rw [Memory.nat_congr fun c lower upper =>
      (Memory.get_setBytes ..).trans (if_neg (by unfold lengthSize at *; omega))]
    rw [Memory.nat_setNat_self]
    change payload.length % 65536 % 65536 = payload.length
    omega
  · exact Memory.bytes_setBytes_self ..

namespace Holds

variable {m m' : Memory} {f : Fifo} {payload msg buffer : List UInt8} {rest : List (List UInt8)}

theorem shape (h : r.Holds m f) : ∃ p, r.Shape f.slots f.content.length p :=
  h.laid.imp fun _ hp => hp.1

/-- The bytes of the ring decide. -/
theorem congr (h : r.Holds m f)
    (same : ∀ c, r.base ≤ c → c < r.base + r.capacity → m'.get c = m.get c) : r.Holds m' f := by
  obtain ⟨p, shape, messages⟩ := h.laid
  refine ⟨h.longest, h.small, p, shape, fun i msg hi => ?_⟩
  obtain ⟨fits, here⟩ := messages i msg hi
  refine ⟨fits, here.congr fun c lower upper => same c ?_ ?_⟩
  · exact Nat.le_trans (Nat.le_add_right ..) lower
  · have within := shape.slot_le (Nat.mod_lt (p + f.slots - f.content.length + i)
      (Nat.zero_lt_of_lt shape.inside))
    have := h.longest
    unfold slot at upper
    unfold stride lengthSize at *
    omega

/-- A payload goes into a slot that no queued message takes. -/
theorem store (h : r.Holds m f) (room : f.content.length < f.slots)
    (fits : payload.length ≤ f.longest) : r.Holds (r.store m payload) f := by
  obtain ⟨p, shape, messages⟩ := h.laid
  refine ⟨h.longest, h.small, p, shape, fun i msg hi => ?_⟩
  obtain ⟨short, here⟩ := messages i msg hi
  refine ⟨short, here.congr fun c lower upper => ?_⟩
  refine r.get_store m (h.longest ▸ fits) ?_
  have used : i < f.content.length := (List.getElem?_eq_some_iff.mp hi).1
  rw [shape.position]
  refine r.slot_apart (mod_ne_of_used shape.inside room used) lower ?_
  have := h.longest
  unfold stride lengthSize at *
  omega

/-- The payload just written becomes the newest message. -/
theorem commitWrite (h : r.Holds m f) (room : f.content.length < f.slots)
    (fits : payload.length ≤ f.longest) (written : m.HasMessage (r.base + r.position) payload) :
    r.commitWrite.Holds m { f with content := f.content ++ [payload] } := by
  obtain ⟨p, shape, messages⟩ := h.laid
  refine ⟨h.longest, h.small, (p + 1) % f.slots, ?_, fun i msg hi => ?_⟩
  · rw [List.length_append]
    exact shape.commitWrite room
  · have turned : ((p + 1) % f.slots + f.slots - (f.content ++ [payload]).length + i) % f.slots =
        (p + f.slots - f.content.length + i) % f.slots := by
      rw [List.length_append, List.length_singleton]
      exact mod_turned shape.inside room
    change msg.length ≤ f.longest ∧ m.HasMessage (r.slot _) msg
    rw [turned]
    rcases Nat.lt_or_ge i f.content.length with old | new
    · rw [List.getElem?_append_left old] at hi
      exact messages i msg hi
    · rw [List.getElem?_append_right new, List.getElem?_singleton] at hi
      split at hi
      · cases hi
        refine ⟨fits, ?_⟩
        have last : i = f.content.length := by omega
        rw [last, Nat.sub_add_cancel (by omega), Nat.add_mod_right, Nat.mod_eq_of_lt shape.inside]
        unfold slot
        rw [← shape.position]
        exact written
      · cases hi

/-- The message that is copied is the oldest one. -/
theorem fetch (h : r.Holds m f) (oldest : f.content = msg :: rest) :
    Receipt.Delivers ⟨buffer, r.frontLength m, r.fetch m buffer⟩ msg := by
  obtain ⟨p, shape, messages⟩ := h.laid
  obtain ⟨short, here⟩ := messages 0 msg (by rw [oldest]; rfl)
  rw [Nat.add_zero, show r.slot ((p + f.slots - f.content.length) % f.slots) =
    r.base + r.readPosition by rw [shape.readPosition_eq]; rfl] at here
  have length : r.frontLength m = msg.length := here.length
  have copied : r.frontBytes m (min msg.length buffer.length) = msg.take buffer.length := by
    unfold frontBytes
    rw [Nat.min_comm, ← Memory.take_bytes, here.bytes]
  have kept : buffer.drop (min msg.length buffer.length) = buffer.drop msg.length := by
    rcases Nat.le_total msg.length buffer.length with short | long
    · rw [Nat.min_eq_left short]
    · rw [Nat.min_eq_right long, List.drop_length, List.drop_eq_nil_of_le long]
  refine ⟨length, ?_⟩
  change r.frontBytes m (min (r.frontLength m) buffer.length) ++
    buffer.drop (min (r.frontLength m) buffer.length) = _
  rw [length, copied, kept]

/-- The oldest message gives its slot back. -/
theorem commitRead (h : r.Holds m f) (oldest : f.content = msg :: rest) :
    r.commitRead.Holds m { f with content := rest } := by
  obtain ⟨p, shape, messages⟩ := h.laid
  have count : f.content.length = rest.length + 1 := by rw [oldest]; rfl
  rw [count] at shape
  refine ⟨h.longest, h.small, p, shape.commitRead, fun i msg' hi => ?_⟩
  have later := messages (i + 1) msg' (by rw [oldest]; exact hi)
  have full := shape.full
  rw [count, show p + f.slots - (rest.length + 1) + (i + 1) = p + f.slots - rest.length + i by
    omega] at later
  exact later

theorem clear (h : r.Holds m f) : r.clear.Holds m { f with content := [] } := by
  obtain ⟨p, shape, -⟩ := h.laid
  exact ⟨h.longest, h.small, 0, shape.clear, by simp⟩

theorem ofSlots {slots longest : Nat} (base : Nat) (positive : 0 < slots)
    (small : longest ≤ 65535) : (Ring.ofSlots base slots longest).Holds m { slots, longest } :=
  ⟨rfl, small, 0, .ofSlots base longest positive, by simp⟩

end Holds

end Ring

end TaskKernel
