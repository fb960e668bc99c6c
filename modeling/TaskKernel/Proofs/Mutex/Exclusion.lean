import Mathlib.Data.List.Pairwise
import TaskKernel.Proofs.Run.Script
import TaskKernel.Proofs.Run.Writes

namespace TaskKernel

/-- Bits that a call has taken and its context has not given back. -/
structure Holding where
  context : Context
  mask : Word
  deriving DecidableEq

namespace Holding

def giveBack (c : Context) (mask : Word) (x : Holding) : Holding :=
  if x.context = c then { x with mask := x.mask.without mask } else x

def union (xs : List Holding) : Word := xs.foldr (fun x w => x.mask ||| w) 0

def Apart (x y : Holding) : Prop := x.mask &&& y.mask = 0

end Holding

/-- Who holds the bits of a mutex object after a section of a call, given how the section ends. -/
def Call.passes (i : Nat) (c : Context) (e : Exit) (xs : List Holding) : Call → List Holding
  | .lock m mask _ _ =>
    if m = .object i ∧ e = .leave (.return .unit) then ⟨c, mask⟩ :: xs else xs
  | .unlock m mask _ =>
    if m = .object i then (xs.map (Holding.giveBack c mask)).filter (·.mask ≠ 0) else xs
  | _ => xs

namespace History

/-- Who holds the bits of a mutex object: a call from the section in which it takes them to the
section in which they are unlocked. -/
def held (i : Nat) : History → List Holding
  | [] => []
  | .ran c before sec :: h =>
    match calling c h with
    | some call => call.passes i c (sec.run before).2 (held i h)
    | none => held i h
  | _ :: h => held i h

def heldBy (i : Nat) (c : Context) (h : History) : Word :=
  Holding.union ((h.held i).filter (·.context = c))

/-- Every context unlocks only bits that it holds. -/
def disciplined (i : Nat) : History → Bool
  | [] => true
  | .ran c _ _ :: h =>
    (match calling c h with
      | some (.unlock m mask _) => m ≠ .object i || mask.without (heldBy i c h) = 0
      | _ => true) && disciplined i h
  | _ :: h => disciplined i h

end History

structure System.Locks (i : Nat) (mask : Word) (s s' : System) (r : Reply) : Prop where
  clear : (s.kernel.mutex (.object i)).isClear mask = true
  word : s'.kernel.mutex (.object i) = s.kernel.mutex (.object i) ||| mask
  succeeds : r = .unit

namespace Holding

variable {xs : List Holding} {x y : Holding} {c : Context} {mask : Word}

theorem getLsbD_union (xs : List Holding) (b : Nat) :
    (union xs).getLsbD b = true ↔ ∃ x ∈ xs, x.mask.getLsbD b = true := by
  induction xs with
  | nil => simp [union]
  | cons x xs ih =>
    change (x.mask ||| union xs).getLsbD b = true ↔ _
    rw [BitVec.getLsbD_or, Bool.or_eq_true, ih]
    simp

theorem Apart.symm (apart : x.Apart y) : y.Apart x := by
  unfold Apart at *
  rw [BitVec.and_comm]
  exact apart

instance : Std.Symm Apart := ⟨fun _ _ => Apart.symm⟩

/-- A holding loses the bits that its context gives back. -/
theorem getLsbD_giveBack (c : Context) (mask : Word) (x : Holding) (b : Nat) :
    (x.giveBack c mask).mask.getLsbD b = true ↔
      x.mask.getLsbD b = true ∧ (x.context = c → ¬ mask.getLsbD b = true) := by
  unfold giveBack
  split
  · rename_i own
    simp [Word.getLsbD_without, own]
  · rename_i other
    simp [other]

theorem Apart.giveBack (apart : x.Apart y) (c : Context) (mask : Word) :
    (x.giveBack c mask).Apart (y.giveBack c mask) := by
  refine Word.and_eq_zero.mpr ?_
  intro b hx
  have kept := Word.and_eq_zero.mp apart b ((getLsbD_giveBack ..).mp hx).1
  refine Bool.eq_false_iff.mpr ?_
  intro hy
  exact Bool.eq_false_iff.mp kept ((getLsbD_giveBack ..).mp hy).1

/-- A call takes bits that nobody holds. -/
theorem apart_cons (apart : xs.Pairwise Apart) (clear : (union xs).isClear mask = true) :
    (⟨c, mask⟩ :: xs).Pairwise Apart := by
  refine List.pairwise_cons.mpr ⟨?_, apart⟩
  intro x member
  refine Apart.symm (Word.and_eq_zero.mpr ?_)
  intro b held
  exact Word.and_eq_zero.mp (of_decide_eq_true clear) b ((getLsbD_union xs b).mpr ⟨x, member, held⟩)

theorem apart_giveBack (apart : xs.Pairwise Apart) (c : Context) (mask : Word) :
    ((xs.map (giveBack c mask)).filter (·.mask ≠ 0)).Pairwise Apart := by
  refine (List.pairwise_map.mpr ?_).filter _
  exact apart.imp fun both => both.giveBack c mask

/-- The bits that a context gives back are no longer held: it held them, so nobody else did. -/
theorem union_giveBack (apart : xs.Pairwise Apart)
    (own : mask.without (union (xs.filter (·.context = c))) = 0) :
    union ((xs.map (giveBack c mask)).filter (·.mask ≠ 0)) = (union xs).without mask := by
  have owned : ∀ b, mask.getLsbD b = true →
      ∃ x ∈ xs, x.context = c ∧ x.mask.getLsbD b = true := by
    intro b given
    have bit := congrArg (·.getLsbD b) own
    rw [Word.getLsbD_without, given, Bool.true_and, Word.getLsbD_zero, Bool.not_eq_false'] at bit
    obtain ⟨x, member, held⟩ := (getLsbD_union _ b).mp bit
    obtain ⟨member, mine⟩ := List.mem_filter.mp member
    exact ⟨x, member, of_decide_eq_true mine, held⟩
  refine BitVec.eq_of_getLsbD_eq ?_
  intro b _
  rw [Bool.eq_iff_iff, getLsbD_union, Word.getLsbD_without, Bool.and_eq_true, Bool.not_eq_true',
    getLsbD_union]
  constructor
  · intro still
    obtain ⟨y, left, held⟩ := still
    obtain ⟨x, member, rfl⟩ := List.mem_map.mp (List.mem_filter.mp left).1
    obtain ⟨held, kept⟩ := (getLsbD_giveBack ..).mp held
    refine ⟨⟨x, member, held⟩, Bool.eq_false_iff.mpr ?_⟩
    intro given
    obtain ⟨y, member', mine, held'⟩ := owned b given
    have other : x ≠ y := by
      intro same
      subst same
      exact kept mine given
    have never := apart.forall member member' other
    rw [Word.and_eq_zero.mp never b held] at held'
    cases held'
  · intro rest
    obtain ⟨⟨x, member, held⟩, kept⟩ := rest
    have left : (x.giveBack c mask).mask.getLsbD b = true :=
      (getLsbD_giveBack ..).mpr ⟨held, fun _ => Bool.eq_false_iff.mp kept⟩
    refine ⟨_, List.mem_filter.mpr ⟨List.mem_map.mpr ⟨x, member, rfl⟩, ?_⟩, left⟩
    refine decide_eq_true ?_
    intro none
    rw [none] at left
    simp at left

end Holding

variable {s s' : System} {sec : Section} {stage next : Stage} {call : Call} {c : Context}
  {h h' : History} {i : Nat} {mask : Word}

theorem History.held_ran (calling : h.calling c = some call) (before : System) (sec : Section) :
    held i (.ran c before sec :: h) = call.passes i c (sec.run before).2 (held i h) := by
  simp only [History.held, calling]

/-- A context that unlocks bits holds them. -/
theorem History.owned_of_disciplined {reschedule : Bool} {before : System}
    (disciplined : disciplined i (.ran c before sec :: h) = true)
    (calling : h.calling c = some (.unlock (.object i) mask reschedule)) :
    mask.without (h.heldBy i c) = 0 := by
  unfold History.disciplined at disciplined
  rw [calling] at disciplined
  simpa using (Bool.and_eq_true_iff.mp disciplined).1

/-- A lock call that reaches its goal takes all bits of its mask. -/
theorem Call.Succeeds.locks {flags : WaitFlags} {n : Ticks} {r : Reply}
    (succeeds : (Call.lock (.object i) mask flags n).Succeeds s s' r) :
    System.Locks i mask s s' r := by
  obtain ⟨goal, same, now⟩ := succeeds
  cases goal
  cases now with
  | lock clear =>
    have mutex := Kernel.object_of_words (Kernel.words_of_objects same) i
    rw [mutex] at clear
    refine ⟨clear, ?_, rfl⟩
    unfold System.locked System.update
    dsimp only
    rw [Kernel.mutex_setMutex, if_pos rfl, mutex]

namespace Machine

variable {m m' : Machine} {config : Config}

/-- No bit is held twice, and the bits that are held are those that are set. -/
structure Shares (m : Machine) (h : History) (i : Nat) : Prop where
  apart : (h.held i).Pairwise Holding.Apart
  word : m.kernel.mutex (.object i) = Holding.union (h.held i)

/-- A section of a call takes bits that are clear, gives back bits that its context holds, or
leaves the mutex alone. -/
theorem Shares.passes (shares : m.Shares h i) (writes : call.Writes m.system sec s next)
    (kernel : m'.kernel = s.kernel) (ran : (sec.run m.system).2 = .leave next)
    (own : ∀ mask reschedule, call = .unlock (.object i) mask reschedule →
      mask.without (h.heldBy i c) = 0)
    (held : h'.held i = call.passes i c (sec.run m.system).2 (h.held i)) : m'.Shares h' i := by
  have stays : m'.kernel.mutex (.object i) = m.kernel.mutex (.object i) →
      h'.held i = h.held i → m'.Shares h' i := by
    intro word same
    exact ⟨same ▸ shares.apart, by rw [word, same, shares.word]⟩
  rw [ran] at held
  cases writes with
  | idle words silent fails =>
    refine stays (by rw [kernel]; exact Kernel.object_of_words words i) (held.trans ?_)
    cases call with
    | lock =>
      refine if_neg ?_
      intro succeeds
      cases succeeds.2
      obtain ⟨e, he⟩ := fails rfl _ rfl
      cases he
    | unlock => cases silent
    | _ => rfl
  | @lock n mask flags timeout clear ends words =>
    have word := (congrArg (·.mutex (.object i)) kernel).trans (Kernel.object_of_words words i)
    rw [Kernel.mutex_setMutex] at word
    by_cases here : n = .object i
    · subst here
      have taken : h'.held i = ⟨c, mask⟩ :: h.held i := held.trans (if_pos ⟨rfl, by rw [ends]⟩)
      have before : m.system.kernel.mutex (.object i) = _ := shares.word
      rw [before] at clear
      refine ⟨taken ▸ Holding.apart_cons shares.apart clear, ?_⟩
      rw [word, taken, if_pos rfl, before]
      exact BitVec.or_comm ..
    · exact stays (word.trans (if_neg here)) (held.trans (if_neg fun x => here x.1))
  | @unlock n mask reschedule ends words =>
    have word := (congrArg (·.mutex (.object i)) kernel).trans (Kernel.object_of_words words i)
    unfold Kernel.unlock at word
    rw [Kernel.mutex_setMutex] at word
    by_cases here : n = .object i
    · subst here
      have given := held.trans (if_pos rfl)
      refine ⟨given ▸ Holding.apart_giveBack shares.apart c mask, ?_⟩
      rw [word, given, if_pos rfl, Holding.union_giveBack shares.apart (own mask reschedule rfl)]
      exact congrArg (Word.without · mask) shares.word
    · exact stays (word.trans (if_neg here)) (held.trans (if_neg here))
  | raise words | clear words =>
    exact stays
      ((congrArg (·.mutex (.object i)) kernel).trans (Kernel.object_of_words words i)) held
  | waitEvent set ends words =>
    have word := (congrArg (·.mutex (.object i)) kernel).trans (Kernel.object_of_words words i)
    refine stays (word.trans ?_) held
    split <;> rfl
  | @waitMulti _ _ _ x after ends words =>
    have word := (congrArg (·.mutex (.object i)) kernel).trans (Kernel.object_of_words words i)
    obtain ⟨events, same⟩ := m.system.kernel.consume_eq (m.system.kernel.readySet x) x.entries
    rw [same] at word
    exact stays word held

theorem Change.held (change : Change m h m' h') (idle : ∀ c before sec, h' ≠ .ran c before sec :: h)
    (i : Nat) : h'.held i = h.held i ∧ h'.disciplined i = h.disciplined i := by
  cases change with
  | ran => exact absurd rfl (idle _ _ _)
  | _ => exact ⟨rfl, rfl⟩

theorem Change.shares (run : Run config m h) (change : Change m h m' h')
    (before : h.disciplined i = true → m.Shares h i) (disciplined : h'.disciplined i = true) :
    m'.Shares h' i := by
  rcases change.executes run with ⟨objects, idle⟩ | ⟨c, sec, call, s, next, executes⟩
  · obtain ⟨held, same⟩ := change.held idle i
    have shares := before (same ▸ disciplined)
    have word := Kernel.object_of_words (Kernel.words_of_objects objects) i
    exact ⟨held ▸ shares.apart, by rw [word, held, shares.word]⟩
  · have calling := executes.calling
    have new := executes.new
    subst new
    have shares := before (Bool.and_eq_true_iff.mp disciplined).2
    refine shares.passes (executes.runs.writes executes.ran) executes.kernel
      (congrArg Prod.snd executes.ran) ?_ (History.held_ran calling ..)
    intro mask reschedule unlocks
    subst unlocks
    exact History.owned_of_disciplined disciplined calling

/-- While every context unlocks only what it holds, each bit of a mutex is set exactly while one
call holds it. -/
theorem Run.shares (run : Run config m h) (disciplined : h.disciplined i = true) :
    m.Shares h i := by
  refine Run.induct (P := fun m h => h.disciplined i = true → m.Shares h i) ?_ ?_ run disciplined
  · intro _
    exact ⟨.nil, rfl⟩
  · intro m m' h h' run ih change
    exact change.shares run ih

/-- An unlock clears the bits of its mask, in one section, and changes nothing else. -/
theorem unlocked_of_runs {n : MutexName} {reschedule : Bool}
    (runs : (Call.unlock n mask reschedule).Runs c sec) (s : System) (k : MutexName) :
    (sec.run s).1.kernel.mutex k =
      if k = n then (s.kernel.mutex k).without mask else s.kernel.mutex k := by
  cases runs.only rfl s.kernel.config
  have kernel : (Section.run s (.unlock n mask reschedule)).1.kernel = s.kernel.unlock n mask :=
    System.requestRescheduleIf_kernel ..
  rw [kernel]
  refine (Kernel.mutex_setMutex ..).trans ?_
  by_cases here : n = k
  · subst here
    rw [if_pos rfl]
  · rw [if_neg here, if_neg (Ne.symm here)]

structure Exclusive (m : Machine) (h : History) (i : Nat) : Prop extends m.Shares h i where
  locking (c : Context) (stage : Stage) (mask : Word) (flags : WaitFlags) (n : Ticks) :
    m.stageOf c = some stage → h.calling c = some (.lock (.object i) mask flags n) →
      Pursued (System.Locks i mask) stage (h.sectionsBy c)
  locked (c : Context) (r : Reply) (past : History) (mask : Word) (flags : WaitFlags) (n : Ticks) :
    .returned c r :: past <:+ h → past.calling c = some (.lock (.object i) mask flags n) →
      Pursued (System.Locks i mask) (.return r) (past.sectionsBy c)
  unlocked (c : Context) (before : System) (sec : Section) (past : History) (mask : Word)
    (reschedule : Bool) : .ran c before sec :: past <:+ h →
      past.calling c = some (.unlock (.object i) mask reschedule) → ∀ n,
        (sec.run before).1.kernel.mutex n = if n = .object i then
          (before.kernel.mutex n).without mask else before.kernel.mutex n

/-- While every context unlocks only what it holds, each bit of a mutex is set exactly while one
call holds it. A lock call takes all bits of its mask in its last section or none at all, and an
unlock clears no other bits. -/
theorem Run.exclusive (run : Run config m h) (disciplined : h.disciplined i = true) :
    m.Exclusive h i := by
  refine ⟨run.shares disciplined, ?_, ?_, ?_⟩
  · intro c stage mask flags n here calling
    exact (run.pursued here calling rfl).imp fun _ _ _ => Call.Succeeds.locks
  · intro c r past mask flags n returned calling
    exact (run.pursued_of_returned returned calling rfl).imp fun _ _ _ => Call.Succeeds.locks
  · intro c before sec past mask reschedule ran calling
    obtain ⟨m₀, m₁, call, s, next, -, rfl, executes⟩ := run.of_ran ran
    cases executes.calling.symm.trans calling
    exact unlocked_of_runs executes.runs m₀.system

def contending : Option (Machine × History) :=
  follow (initial { maxTasks := 2, arenaStart := 4096, arenaSize := 512, timeSlice := 0 }, [])
    [.call (.createTask "urgent" 256 5 0 0), .steps 4, .call (.createTask "other" 256 9 0 0),
      .steps 4, .launch, .steps 1, .call (.lock (.object 0) 3 {} 0), .steps 4,
      .call (.unlock (.object 0) 1 true), .steps 5, .call (.waitEvent 0 1 {} 0), .steps 6,
      .call (.lock (.object 0) 5 {} 0), .steps 4, .call (.lock (.object 0) 2 {} 7), .steps 6]

theorem exclusive_contending : ∃ m h config, Run config m h ∧ h.disciplined 0 = true ∧
    h.held 0 = [⟨.task 2, 5⟩, ⟨.task 1, 2⟩] ∧ m.kernel.mutex (.object 0) = 7 ∧
    h.calling (.task 2) = some (.lock (.object 0) 2 {} 7) ∧
    (h.sectionsBy (.task 2)).length = 1 ∧ ∀ x ∈ h.sectionsBy (.task 2), x.2.Idles x.1 := by
  obtain ⟨x, hx⟩ := Option.isSome_iff_exists.mp (show contending.isSome = true by decide +kernel)
  have facts : contending.map (fun x => (x.2.disciplined 0, x.2.held 0, x.1.stageOf (.task 2),
      x.2.calling (.task 2), (x.2.sectionsBy (.task 2)).length)) =
      some (true, [⟨.task 2, 5⟩, ⟨.task 1, 2⟩],
        some (.reenter 2 (.goal (.lock (.object 0) 2))), some (.lock (.object 0) 2 {} 7), 1) := by
    decide +kernel
  rw [hx] at facts
  simp only [Option.map_some, Option.some.injEq, Prod.mk.injEq] at facts
  obtain ⟨disciplined, held, here, calling, one⟩ := facts
  have run := run_of_follow hx
  have exclusive := run.exclusive disciplined
  refine ⟨_, _, _, run, disciplined, held, ?_, calling, one, ?_⟩
  · rw [exclusive.word, held]
    rfl
  · cases exclusive.locking _ _ _ _ _ here calling with
    | unfinished returns idle => exact idle

end Machine

end TaskKernel
