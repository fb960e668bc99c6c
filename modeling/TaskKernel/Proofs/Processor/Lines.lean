import Mathlib.Data.List.GetD
import TaskKernel.Proofs.Processor.Requests

namespace TaskKernel

inductive LineUse
  | update (n : Nat) (f : Line → Line)
  | take

inductive LineAnswer
  | updated
  | badLine
  | taken (h : Option Handler)
  deriving DecidableEq

namespace Processor

def eligible (p : Processor) : List Nat :=
  (List.range p.lines.length).filter fun n => p.asks (.line n)

def lower (p : Processor) (n : Nat) : Processor :=
  { p with lines := p.lines.modify n fun l => { l with pended := false } }

end Processor

namespace LineUse

def run (p : Processor) : LineUse → LineAnswer × Processor
  | update n f =>
    match p.updateLine n f with
    | some p' => (.updated, p')
    | none => (.badLine, p)
  | take =>
    match p.takeLine with
    | some (h, p') => (.taken (some h), p')
    | none => (.taken none, p)

def after (p : Processor) (us : List LineUse) : Processor := us.foldl (fun p u => (u.run p).2) p

def answers : Processor → List LineUse → List LineAnswer
  | _, [] => []
  | p, u :: us => (u.run p).1 :: answers (u.run p).2 us

/-- How many of the uses count, each in the processor that it finds. -/
def tally (counts : Processor → LineUse → Bool) : Processor → List LineUse → Nat
  | _, [] => 0
  | p, u :: us => (counts p u).toNat + tally counts (u.run p).2 us

def raises (n : Nat) (p : Processor) (u : LineUse) : Bool :=
  !(p.line n).pended && ((u.run p).2.line n).pended

def returns (n : Nat) (p : Processor) : LineUse → Bool
  | update _ _ => false
  | take => p.eligible.head? = some n

def withdraws (n : Nat) (p : Processor) : LineUse → Bool
  | update i f => (p.line n).pended && !(((update i f).run p).2.line n).pended
  | take => false

inductive Taken (p : Processor) : LineAnswer × Processor → Prop
  | line {n : Nat} {h : Handler} (first : p.First (.line n))
      (handler : (p.line n).handler = some h) : Taken p (.taken (some h), p.lower n)
  | nothing (idle : ∀ n, p.asks (.line n) = false) : Taken p (.taken none, p)

end LineUse

/-- What can be said of the next uses of the lines. -/
structure Processor.Lawful (p : Processor) : Prop where
  sized : p.lines.length = lineCount
  rejects (n : Nat) (f : Line → Line) : lineCount ≤ n →
    (LineUse.update n f).run p = (.badLine, p)
  updates (n : Nat) (f : Line → Line) : n < lineCount → ∃ lines,
    (LineUse.update n f).run p = (.updated, { p with lines }) ∧
      ∀ i, lines.getD i {} = if n = i then f (p.line i) else p.line i
  takes : LineUse.Taken p (LineUse.take.run p)
  keeps (n : Nat) : (p.line n).handler = none → (LineUse.take.run p).2.line n = p.line n
  opens (n : Nat) (h : Handler) : n < lineCount → (p.line n).pended = true →
    ((LineUse.update n fun l => { l with handler := some h }).run p).2.asks (.line n) = true
  work : p.hasPendingWork = true ↔
    p.dispatchPended = true ∨ ∃ h, (LineUse.take.run p).1 = .taken (some h)
  drains (k : Nat) : LineUse.answers p (List.replicate (p.eligible.length + k) .take) =
    (p.eligible.map fun n => .taken (p.line n).handler) ++ List.replicate k (.taken none)
  lowers (k i : Nat) : (LineUse.after p (List.replicate k .take)).line i =
    if i ∈ p.eligible.take k then { p.line i with pended := false } else p.line i

structure LineUse.Accounts (p : Processor) (us : List LineUse) (n : Nat) : Prop where
  balance : (p.line n).pended.toNat + tally (raises n) p us =
    tally (returns n) p us + tally (withdraws n) p us + ((after p us).line n).pended.toNat
  once : tally (returns n) p us ≤ (p.line n).pended.toNat + tally (raises n) p us
  waits : (p.line n).pended = true → (p.line n).handler = none →
    (∀ f, .update n f ∈ us → ∀ l : Line, l.pended = true → l.handler = none →
      (f l).pended = true ∧ (f l).handler = none) →
    ((after p us).line n).pended = true ∧ ((after p us).line n).handler = none

namespace Processor

variable {p : Processor} {n i : Nat} {rest : List Nat}

theorem line_lower (p : Processor) (n i : Nat) :
    (p.lower n).line i = if n = i then { p.line i with pended := false } else p.line i :=
  getD_modify (.inr rfl) i

theorem handler_lower (p : Processor) (n i : Nat) :
    ((p.lower n).line i).handler = (p.line i).handler := by
  rw [line_lower]
  split <;> rfl

theorem line_of_le (beyond : p.lines.length ≤ n) : p.line n = {} :=
  List.getD_eq_default _ _ beyond

theorem mem_eligible : n ∈ p.eligible ↔ p.asks (.line n) = true := by
  unfold eligible
  rw [List.mem_filter, List.mem_range]
  refine ⟨fun h => h.2, fun asked => ⟨Nat.lt_of_not_le fun beyond => ?_, asked⟩⟩
  have eligible : (p.line n).isEligible = true := asked
  rw [line_of_le beyond] at eligible
  cases eligible

theorem nodup_eligible (p : Processor) : p.eligible.Nodup := List.nodup_range.filter _

/-- The first of the eligible lines is the one that is taken. -/
theorem head_eligible_iff : p.eligible.head? = some n ↔ p.First (.line n) := by
  unfold eligible
  rw [List.head?_filter, List.find?_range_eq_some]
  constructor
  · intro ⟨asked, _, least⟩
    refine ⟨asked, fun r before => ?_⟩
    cases r with
    | line i => exact Bool.eq_false_iff.mpr (by simpa using least i before)
    | dispatch => cases before
  · intro first
    have member := mem_eligible.mpr first.asked
    unfold eligible at member
    refine ⟨first.asked, (List.mem_filter.mp member).1, fun i less => ?_⟩
    rw [first.least (.line i) less]
    rfl

theorem eligible_eq_nil_iff : p.eligible = [] ↔ ∀ n, p.asks (.line n) = false := by
  rw [List.eq_nil_iff_forall_not_mem]
  exact forall_congr' fun n => by rw [mem_eligible, Bool.not_eq_true]

theorem length_lower (p : Processor) (n : Nat) : (p.lower n).lines.length = p.lines.length :=
  List.length_modify ..

/-- The other eligible lines stay so. -/
theorem eligible_lower (first : p.eligible = n :: rest) : (p.lower n).eligible = rest := by
  have nodup := p.nodup_eligible
  rw [first] at nodup
  have others : (p.lower n).eligible = p.eligible.filter fun i => i ≠ n := by
    unfold eligible
    rw [List.filter_filter, length_lower]
    refine List.filter_congr fun i _ => ?_
    unfold asks
    dsimp only
    rw [line_lower]
    by_cases here : n = i
    · simp [here, Line.isEligible]
    · simp [here, Ne.symm here]
  rw [others, first, List.filter_cons_of_neg (by simp), List.filter_eq_self]
  intro i hi
  have other : i ≠ n := fun same => (List.nodup_cons.mp nodup).1 (same ▸ hi)
  simpa using other

/-- The first line that can be taken is taken. -/
theorem takeLine_cases (p : Processor) :
    (∃ n h, p.First (.line n) ∧ (p.line n).handler = some h ∧
      p.takeLine = some (h, p.lower n)) ∨
    p.lines.any Line.isEligible = false ∧ p.takeLine = none := by
  unfold takeLine
  cases taken : takeFirst p.lines with
  | none => exact .inr ⟨takeFirst_eq_none taken, rfl⟩
  | some x =>
    obtain ⟨h, lines⟩ := x
    obtain ⟨n, pended, handler, least, rfl⟩ := takeFirst_eq_some taken
    refine .inl ⟨n, h, ⟨isEligible_iff.mpr ⟨pended, h, handler⟩, fun r before => ?_⟩, handler, rfl⟩
    cases r with
    | line i => exact least i before
    | dispatch => cases before

end Processor

namespace LineUse

variable {p : Processor} {n i : Nat} {f : Line → Line} {u : LineUse} {us : List LineUse}

theorem taken_take (p : Processor) : Taken p (take.run p) := by
  unfold run
  rcases p.takeLine_cases with ⟨n, h, first, handler, taken⟩ | ⟨idle, taken⟩
  · rw [taken]
    exact .line first handler
  · rw [taken]
    exact .nothing (Processor.not_asks_line idle)

/-- A take that returns a line. -/
theorem take_of_head {rest : List Nat} (first : p.eligible = n :: rest) :
    take.run p = (.taken (p.line n).handler, p.lower n) := by
  have least : p.First (.line n) := Processor.head_eligible_iff.mp (by rw [first]; rfl)
  generalize result : take.run p = x
  cases result ▸ taken_take p with
  | @line n' h first' handler =>
    have same := Processor.head_eligible_iff.mpr first'
    rw [first] at same
    cases same
    rw [handler]
  | nothing idle =>
    have asked := least.asked
    rw [idle n] at asked
    cases asked

theorem take_of_nil (idle : p.eligible = []) : take.run p = (.taken none, p) := by
  generalize result : take.run p = x
  cases result ▸ taken_take p with
  | @line n h first =>
    have asked := first.asked
    rw [Processor.eligible_eq_nil_iff.mp idle n] at asked
    cases asked
  | nothing => rfl

theorem update_of_le (beyond : p.lines.length ≤ n) : (update n f).run p = (.badLine, p) := by
  unfold run Processor.updateLine
  dsimp only
  rw [if_neg (Nat.not_lt.mpr beyond)]

theorem update_of_lt (inside : n < p.lines.length) :
    (update n f).run p = (.updated, { p with lines := p.lines.modify n f }) := by
  unfold run Processor.updateLine
  dsimp only
  rw [if_pos inside]

/-- What the lines are after an update. -/
theorem line_update (inside : n < p.lines.length) (f : Line → Line) (i : Nat) :
    ((update n f).run p).2.line i = if n = i then f (p.line i) else p.line i := by
  rw [update_of_lt inside]
  exact Processor.getD_modify (.inl inside) i

theorem eligible_of_head {rest : List Nat} (first : p.eligible = n :: rest) :
    (p.line n).pended = true ∧ ∃ h, (p.line n).handler = some h := by
  have member : n ∈ p.eligible := first ▸ List.mem_cons_self
  exact Processor.isEligible_iff.mp (Processor.mem_eligible.mp member)

/-- A line without a handler is not taken. -/
theorem line_take (unhandled : (p.line n).handler = none) :
    (take.run p).2.line n = p.line n := by
  cases lines : p.eligible with
  | nil => rw [take_of_nil lines]
  | cons i is =>
    obtain ⟨-, h, handler⟩ := eligible_of_head lines
    rw [take_of_head lines, Processor.line_lower, if_neg]
    intro same
    rw [same, unhandled] at handler
    cases handler

theorem length_run (p : Processor) (u : LineUse) : (u.run p).2.lines.length = p.lines.length := by
  cases u with
  | update n f =>
    rcases Nat.lt_or_ge n p.lines.length with inside | beyond
    · rw [update_of_lt inside]
      exact List.length_modify ..
    · rw [update_of_le beyond]
  | take =>
    cases lines : p.eligible with
    | nil => rw [take_of_nil lines]
    | cons n ns =>
      rw [take_of_head lines]
      exact p.length_lower n

theorem length_after (p : Processor) (us : List LineUse) :
    (after p us).lines.length = p.lines.length := by
  induction us generalizing p with
  | nil => rfl
  | cons u us ih => exact (ih (u.run p).2).trans (length_run p u)

/-- As many takes as there are eligible lines return these, and all further ones nothing. -/
theorem answers_takes (p : Processor) (k : Nat) :
    answers p (List.replicate (p.eligible.length + k) .take) =
      (p.eligible.map fun n => .taken (p.line n).handler) ++ List.replicate k (.taken none) := by
  generalize lines : p.eligible = ns
  induction ns generalizing p with
  | nil =>
    rw [List.length_nil, Nat.zero_add, List.map_nil, List.nil_append]
    induction k with
    | zero => rfl
    | succ k ih => rw [List.replicate_succ, List.replicate_succ, answers, take_of_nil lines, ih]
  | cons n ns ih =>
    rw [List.length_cons, Nat.succ_add, List.replicate_succ, answers, take_of_head lines,
      ih (p.lower n) (Processor.eligible_lower lines)]
    simp only [Processor.handler_lower, List.map_cons, List.cons_append]

theorem line_takes (p : Processor) (k i : Nat) :
    (after p (List.replicate k .take)).line i =
      if i ∈ p.eligible.take k then { p.line i with pended := false } else p.line i := by
  induction k generalizing p with
  | zero => simp [after]
  | succ k ih =>
    have next := ih (take.run p).2
    rw [List.replicate_succ]
    refine next.trans ?_
    cases lines : p.eligible with
    | nil =>
      rw [take_of_nil lines, lines]
      simp
    | cons n ns =>
      have nodup := p.nodup_eligible
      rw [lines] at nodup
      rw [take_of_head lines, Processor.eligible_lower lines, Processor.line_lower,
        List.take_succ_cons]
      by_cases here : n = i
      · subst here
        have fresh : n ∉ ns.take k := fun member =>
          (List.nodup_cons.mp nodup).1 (List.mem_of_mem_take member)
        rw [if_neg fresh, if_pos rfl, if_pos List.mem_cons_self]
      · simp [here, Ne.symm here]

/-- There is work just if a dispatch is pended or a take would return a handler. -/
theorem hasPendingWork_iff (p : Processor) : p.hasPendingWork = true ↔
    p.dispatchPended = true ∨ ∃ h, (take.run p).1 = .taken (some h) := by
  unfold Processor.hasPendingWork
  rw [Bool.or_eq_true]
  refine or_congr_right ?_
  unfold run
  rcases p.takeLine_cases with ⟨n, h, first, handler, taken⟩ | ⟨idle, taken⟩
  · rw [taken]
    exact iff_of_true (Processor.any_of_isEligible first.asked) ⟨h, rfl⟩
  · rw [taken, idle]
    simp

theorem lawful_of_sized (sized : p.lines.length = lineCount) : p.Lawful where
  sized := sized
  rejects n f beyond := update_of_le (sized ▸ beyond)
  updates n f inside := by
    rw [← sized] at inside
    exact ⟨_, update_of_lt inside, Processor.getD_modify (.inl inside)⟩
  takes := taken_take p
  keeps _ := line_take
  opens n h inside pended := by
    rw [← sized] at inside
    unfold Processor.asks
    dsimp only
    rw [line_update inside, if_pos rfl]
    exact Processor.isEligible_iff.mpr ⟨pended, h, rfl⟩
  work := hasPendingWork_iff p
  drains := answers_takes p
  lowers := line_takes p

/-- One use pends a line, takes it, takes its request back, or leaves it as it is. -/
theorem balance_run (p : Processor) (u : LineUse) (n : Nat) :
    (p.line n).pended.toNat + (raises n p u).toNat =
      (returns n p u).toNat + (withdraws n p u).toNat + ((u.run p).2.line n).pended.toNat := by
  cases u with
  | update i f =>
    unfold raises withdraws returns
    dsimp only
    cases (p.line n).pended <;> cases (((update i f).run p).2.line n).pended <;> rfl
  | take =>
    unfold raises withdraws returns
    dsimp only
    cases lines : p.eligible with
    | nil =>
      rw [take_of_nil lines]
      cases (p.line n).pended <;> rfl
    | cons i is =>
      have pended := (eligible_of_head lines).1
      rw [take_of_head lines, Processor.line_lower]
      by_cases here : i = n
      · subst here
        simp [pended]
      · simp [here]

theorem balance_after (p : Processor) (us : List LineUse) (n : Nat) :
    (p.line n).pended.toNat + tally (raises n) p us =
      tally (returns n) p us + tally (withdraws n) p us + ((after p us).line n).pended.toNat := by
  induction us generalizing p with
  | nil => simp [tally, after]
  | cons u us ih =>
    have first := balance_run p u n
    have later := ih (u.run p).2
    unfold tally
    change _ = _ + _ + ((after (u.run p).2 us).line n).pended.toNat
    omega

theorem waits_after (us : List LineUse) (pended : (p.line n).pended = true)
    (unhandled : (p.line n).handler = none)
    (spared : ∀ f, .update n f ∈ us → ∀ l : Line, l.pended = true → l.handler = none →
      (f l).pended = true ∧ (f l).handler = none) :
    ((after p us).line n).pended = true ∧ ((after p us).line n).handler = none := by
  induction us generalizing p with
  | nil => exact ⟨pended, unhandled⟩
  | cons u us ih =>
    have next : ((u.run p).2.line n).pended = true ∧ ((u.run p).2.line n).handler = none := by
      cases u with
      | update i f =>
        rcases Nat.lt_or_ge i p.lines.length with inside | beyond
        · rw [line_update inside]
          split
          · rename_i here
            subst here
            exact spared f List.mem_cons_self _ pended unhandled
          · exact ⟨pended, unhandled⟩
        · rw [update_of_le beyond]
          exact ⟨pended, unhandled⟩
      | take =>
        rw [line_take unhandled]
        exact ⟨pended, unhandled⟩
    exact ih next.1 next.2 fun f member => spared f (List.mem_cons_of_mem u member)

/-- However the lines are used, a line out of range is refused, a take returns the first line that
can be taken and clears its flag alone, takes in a row return all of these in order, and a line is
returned once for each time that it was pended; without a handler it waits for one. -/
theorem lawful (sized : p.lines.length = lineCount) (us : List LineUse) :
    (after p us).Lawful ∧ ∀ n, Accounts p us n := by
  refine ⟨lawful_of_sized ((length_after p us).trans sized), fun n => ?_⟩
  have balance := balance_after p us n
  exact ⟨balance, by omega, fun pended unhandled spared => waits_after us pended unhandled spared⟩

/-- A line that is pended twice is returned once, and one without a handler is kept. -/
theorem lawful_coalescing :
    let handle (h : Handler) (l : Line) : Line := { l with handler := some h }
    let pend (l : Line) : Line := { l with pended := true }
    let us : List LineUse := [.update 5 (handle (.application 1)), .update 5 pend, .update 7 pend,
      .update 2 (handle .timer), .update 5 pend, .update 2 pend, .take, .update 40 pend]
    let p : Processor := {}
    p.lines.length = lineCount ∧ (after p us).hasPendingWork = true ∧
      answers (after p us) [.take, .take] = [.taken (some (.application 1)), .taken none] ∧
      tally (returns 5) p us ≤ tally (raises 5) p us ∧
      ((after p us).line 7).pended = true := by
  intro handle pend us p
  obtain ⟨law, accounts⟩ := lawful (p := p) rfl us
  have lines : (after p us).eligible = [5] := by decide
  have handler : ((after p us).line 5).handler = some (.application 1) := by decide
  have drained : answers (after p us) [.take, .take] = _ := lines ▸ law.drains 1
  rw [List.map_singleton, handler] at drained
  have once := (accounts 5).once
  rw [show (p.line 5).pended = false from rfl, Bool.toNat_false, Nat.zero_add] at once
  exact ⟨rfl, law.work.mpr (.inr ⟨_, (List.cons.inj drained).1⟩), drained, once, by decide⟩

end LineUse

end TaskKernel
