import TaskKernel.Frame
import Mathlib.Data.List.Nodup

namespace TaskKernel.Frame

def pop (m : Memory) (sp : Nat) : Nat → List Nat × Nat
  | 0 => ([], sp)
  | n + 1 =>
    let (later, after) := pop m (sp + wordSize) n
    (m.nat sp wordSize :: later, after)

structure Registers where
  control : Nat
  /-- R4 to R11. -/
  callee : List Nat
  excReturn : Nat
  r0 : Nat
  /-- R1 to R3. -/
  arguments : List Nat
  r12 : Nat
  lr : Nat
  pc : Nat
  xpsr : Nat
  sp : Nat
  deriving DecidableEq

/-- The dispatcher pops the words that it saved, and the return from its exception the others. -/
def resume (m : Memory) (sp : Nat) : Registers :=
  let (software, sp) := pop m sp softwareWords
  let (hardware, sp) := pop m sp hardwareWords
  { control := software.getD 0 0
    callee := (software.drop 1).take 8
    excReturn := software.getD 9 0
    r0 := hardware.getD 0 0
    arguments := (hardware.drop 1).take 3
    r12 := hardware.getD 4 0
    lr := hardware.getD 5 0
    pc := hardware.getD 6 0
    xpsr := hardware.getD 7 0
    sp }

/-- A frame for the context lies at `sp` in the stack, written over `m`. -/
structure Launches (m : Memory) (start length : Nat) (ctx : InitialContext) (m' : Memory)
    (sp : Nat) : Prop where
  pointer : sp + 72 = (start + length) / 8 * 8
  inside : start ≤ sp ∧ sp + 72 ≤ start + length
  aligned : (sp + 40) % 8 = 0
  resumes : resume m' sp =
    { resume m sp with
      control := control
      excReturn := excReturn
      r0 := ctx.entryParam.toNat
      lr := ctx.exit.toNat
      pc := ctx.entryPoint.toNat / 2 * 2
      xpsr := xpsr
      sp := (start + length) / 8 * 8 }
  frame : ∀ c, (∀ i ∈ [0, 9, 10, 15, 16, 17], c < sp + 4 * i ∨ sp + 4 * i + 4 ≤ c) →
    m'.get c = m.get c

def word (m : Memory) (sp i : Nat) : Nat := m.nat (sp + wordSize * i) wordSize

def store (m : Memory) (sp : Nat) (ws : List (Nat × Nat)) : Memory :=
  ws.foldl (fun m w => m.setNat (sp + wordSize * w.1) wordSize w.2) m

variable {m : Memory} {sp start length c i v : Nat} {ws : List (Nat × Nat)} {ctx : InitialContext}

theorem pop_eq (m : Memory) (sp n : Nat) :
    pop m sp n = ((List.range n).map (word m sp), sp + wordSize * n) := by
  induction n generalizing sp with
  | zero => rfl
  | succ n ih =>
    have next : sp + wordSize + wordSize * n = sp + wordSize * (n + 1) := by
      rw [Nat.mul_succ, Nat.add_assoc, Nat.add_comm wordSize]
    have later : ∀ i ∈ List.range n, word m (sp + wordSize) i = word m sp (i + 1) := by
      intro i _
      unfold word
      rw [Nat.mul_succ, Nat.add_assoc, Nat.add_comm wordSize]
    rw [pop, ih]
    dsimp only
    rw [List.range_succ_eq_map, List.map_cons, List.map_map, List.map_congr_left later, next]
    rfl

theorem resume_eq (m : Memory) (sp : Nat) :
    resume m sp =
      { control := word m sp 0
        callee := (List.range' 1 8).map (word m sp)
        excReturn := word m sp 9
        r0 := word m sp 10
        arguments := (List.range' 11 3).map (word m sp)
        r12 := word m sp 14
        lr := word m sp 15
        pc := word m sp 16
        xpsr := word m sp 17
        sp := sp + 72 } := by
  have hardware (i : Nat) :
      word m (sp + wordSize * softwareWords) i = word m sp (softwareWords + i) := by
    unfold word
    rw [Nat.mul_add, Nat.add_assoc]
  unfold resume
  simp only [pop_eq, funext hardware]
  rfl

theorem get_store
    (outside : ∀ w ∈ ws, c < sp + wordSize * w.1 ∨ sp + wordSize * w.1 + wordSize ≤ c) :
    (store m sp ws).get c = m.get c := by
  induction ws generalizing m with
  | nil => rfl
  | cons w ws ih =>
    have later := ih (m := m.setNat (sp + wordSize * w.1) wordSize w.2) fun x hx =>
      outside x (List.mem_cons_of_mem w hx)
    exact later.trans (Memory.get_setNat_of_outside _ _ _ _ _ (outside w List.mem_cons_self))

theorem word_setNat_ne (m : Memory) (sp v : Nat) {j : Nat} (apart : j ≠ i) :
    word (m.setNat (sp + wordSize * j) wordSize v) sp i = word m sp i := by
  refine Memory.nat_setNat_disjoint _ _ _ _ _ _ ?_
  unfold wordSize
  omega

theorem word_store_of_not_mem (absent : ∀ w ∈ ws, w.1 ≠ i) :
    word (store m sp ws) sp i = word m sp i := by
  induction ws generalizing m with
  | nil => rfl
  | cons w ws ih =>
    have later := ih (m := m.setNat (sp + wordSize * w.1) wordSize w.2) fun x hx =>
      absent x (List.mem_cons_of_mem w hx)
    exact later.trans (word_setNat_ne m sp w.2 (absent w List.mem_cons_self))

/-- Of words at different positions, each is read back. -/
theorem word_store_of_mem (distinct : (ws.map Prod.fst).Nodup) (member : (i, v) ∈ ws) :
    word (store m sp ws) sp i = v % 0x100000000 := by
  induction ws generalizing m with
  | nil => cases member
  | cons w ws ih =>
    obtain ⟨fresh, distinct⟩ := List.nodup_cons.mp distinct
    rcases List.mem_cons.mp member with here | later
    · subst here
      have kept : word (store (m.setNat (sp + wordSize * i) wordSize v) sp ws) sp i =
          word (m.setNat (sp + wordSize * i) wordSize v) sp i := by
        refine word_store_of_not_mem fun x hx same => fresh ?_
        exact List.mem_map.mpr ⟨x, hx, same⟩
      exact kept.trans (Memory.nat_setNat_self m _ wordSize v)
    · exact ih distinct later

theorem toNat_clearLowest (a : BitVec 32) : (a &&& ~~~1#32).toNat = a.toNat / 2 * 2 := by
  have shifted : a &&& ~~~1#32 = a >>> 1 <<< 1 := by
    ext i hi
    rw [BitVec.getElem_and, BitVec.getElem_not, BitVec.getElem_one]
    cases i with
    | zero => simp
    | succ i => simp [Nat.add_comm, BitVec.getLsbD_eq_getElem hi]
  rw [shifted, BitVec.toNat_shiftLeft, BitVec.toNat_ushiftRight, Nat.shiftRight_eq_div_pow,
    Nat.shiftLeft_eq, Nat.pow_one, Nat.mod_eq_of_lt (by omega)]

theorem top_eq (start length : Nat) : top start length = (start + length) / 8 * 8 := by
  unfold top stackAlignment
  omega

theorem pointer_eq (start : Nat) (enough : frameSize + 8 ≤ length) :
    stackPointer start length + 72 = (start + length) / 8 * 8 := by
  unfold stackPointer
  rw [top_eq]
  change 72 + 8 ≤ length at enough
  change (start + length) / 8 * 8 - 72 + 72 = _
  omega

theorem distinct_words (ctx : InitialContext) : ((words ctx).map Prod.fst).Nodup := by
  change [10, 15, 16, 17, 0, 9].Nodup
  decide

theorem position_of_words {w : Nat × Nat} (member : w ∈ words ctx) :
    w.1 ∈ [0, 9, 10, 15, 16, 17] := by
  have listed : w.1 ∈ (words ctx).map Prod.fst := List.mem_map_of_mem member
  change w.1 ∈ [10, 15, 16, 17, 0, 9] at listed
  simp only [List.mem_cons, List.not_mem_nil, or_false] at listed ⊢
  omega

/-- What a task resumes from the words of its context is the context. -/
theorem resume_store (m : Memory) (sp : Nat) (ctx : InitialContext) :
    resume (store m sp (words ctx)) sp =
      { resume m sp with
        control := control
        excReturn := excReturn
        r0 := ctx.entryParam.toNat
        lr := ctx.exit.toNat
        pc := ctx.entryPoint.toNat / 2 * 2
        xpsr := xpsr } := by
  have given : ∀ i v, (i, v) ∈ words ctx → v < 0x100000000 →
      word (store m sp (words ctx)) sp i = v := by
    intro i v member small
    rw [word_store_of_mem (distinct_words ctx) member, Nat.mod_eq_of_lt small]
  have kept : ∀ i, i ∉ [0, 9, 10, 15, 16, 17] →
      word (store m sp (words ctx)) sp i = word m sp i := by
    intro i free
    refine word_store_of_not_mem fun w member same => free ?_
    rw [← same]
    exact position_of_words member
  have callee : (List.range' 1 8).map (word (store m sp (words ctx)) sp) =
      (List.range' 1 8).map (word m sp) :=
    List.map_congr_left fun i hi => kept i (by revert i; decide)
  have arguments : (List.range' 11 3).map (word (store m sp (words ctx)) sp) =
      (List.range' 11 3).map (word m sp) :=
    List.map_congr_left fun i hi => kept i (by revert i; decide)
  have entry : word (store m sp (words ctx)) sp 16 = ctx.entryPoint.toNat / 2 * 2 :=
    (given 16 _ (by simp [words, softwareWords]) (BitVec.isLt _)).trans (toNat_clearLowest _)
  rw [resume_eq, resume_eq, callee, arguments, kept 14 (by decide),
    given 0 control (by simp [words, softwareWords]) (by decide),
    given 9 excReturn (by simp [words]) (by decide),
    given 10 ctx.entryParam.toNat (by simp [words, softwareWords]) (BitVec.isLt _),
    given 15 ctx.exit.toNat (by simp [words, softwareWords]) (BitVec.isLt _), entry,
    given 17 xpsr (by simp [words, softwareWords]) (by decide)]

/-- Wherever the stack lies and whatever is in it, a frame is written within it, the task resumes
from there with the registers of its context and its stack pointer at the end of the stack, and no
byte but those of the six words is touched. -/
theorem write_launches (m : Memory) (start : Nat) (ctx : InitialContext)
    (enough : frameSize + 8 ≤ length) :
    Launches m start length ctx (write m start length ctx).1 (write m start length ctx).2 := by
  have pointer := pointer_eq start enough
  have room : 72 + 8 ≤ length := enough
  refine ⟨pointer, ?_, ?_, ?_, fun c outside => ?_⟩
  · change start ≤ stackPointer start length ∧ stackPointer start length + 72 ≤ start + length
    omega
  · change (stackPointer start length + 40) % 8 = 0
    omega
  · refine (resume_store m (stackPointer start length) ctx).trans ?_
    rw [← pointer, resume_eq]
    rfl
  · exact get_store fun w member => outside w.1 (position_of_words member)

/-- A stack whose end is not aligned. -/
theorem write_launches_unaligned :
    let ctx : InitialContext := ⟨0x08001235, 42, 0x08004001⟩
    let written := write {} 0x20000003 250 ctx
    frameSize + 8 ≤ 250 ∧ written.2 = 0x200000b0 ∧ written.2 + 72 = 0x200000f8 ∧
      (resume written.1 written.2).pc = 0x08001234 ∧
      (resume written.1 written.2).sp = 0x200000f8 ∧ written.1.get 0x200000f8 = 0 := by
  intro ctx written
  have enough : frameSize + 8 ≤ 250 := by decide
  have launches := write_launches {} 0x20000003 ctx enough
  refine ⟨enough, rfl, rfl, ?_, ?_, ?_⟩
  · rw [launches.resumes]
    change ctx.entryPoint.toNat / 2 * 2 = 0x08001234
    decide
  · rw [launches.resumes]
  · refine (launches.frame 0x200000f8 ?_).trans rfl
    decide

end TaskKernel.Frame
