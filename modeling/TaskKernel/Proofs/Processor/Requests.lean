import TaskKernel.Processor
import Mathlib.Data.List.Basic

namespace TaskKernel

inductive Request
  | line (n : Nat)
  | dispatch
  deriving DecidableEq

/-- The order in which requests are taken: lines by their numbers, and the dispatch last. -/
def Request.Before : Request → Request → Prop
  | .line n, .line n' => n < n'
  | .line _, .dispatch => True
  | .dispatch, _ => False

variable {r r' : Request}

theorem Request.eq_or_before (late : ¬ r.Before r') : r' = r ∨ r'.Before r := by
  cases r with
  | line n =>
    cases r' with
    | line n' =>
      rcases Nat.lt_or_eq_of_le (Nat.le_of_not_lt late) with less | same
      · exact .inr less
      · exact .inl (congrArg _ same)
    | dispatch => exact absurd trivial late
  | dispatch =>
    cases r' with
    | line n' => exact .inr trivial
    | dispatch => exact .inl rfl

namespace Processor

/-- Requests are taken: the first dispatch is over, interrupts are not held off, and no handler is
running. -/
def isOpen (p : Processor) : Bool := p.started && !p.cpuLock && !p.inInterrupt

def line (p : Processor) (n : Nat) : Line := p.lines.getD n {}

/-- The request has been made, though its line may still lack a handler. -/
def pends (p : Processor) : Request → Bool
  | .line n => (p.line n).pended
  | .dispatch => p.dispatchPended

def asks (p : Processor) : Request → Bool
  | .line n => (p.line n).isEligible
  | .dispatch => p.dispatchPended

structure First (p : Processor) (r : Request) : Prop where
  asked : p.asks r = true
  least (r' : Request) : r'.Before r → p.asks r' = false

def grant (p : Processor) : Request → Processor
  | .line n =>
    { p with lines := p.lines.modify n fun l => { l with pended := false }, inInterrupt := true }
  | .dispatch => { p with dispatchPended := false }

structure Keeps (p p' : Processor) (r : Request) : Prop where
  pended : p.pends r = true → p'.pends r = true
  asked : p.asks r = true → p'.asks r = true

inductive Check (p : Processor) : Preemption → Prop
  | closed (shut : p.isOpen = false) : Check p .nothing
  | clear (unlocked : p.isOpen = true) (none : p.hasPendingWork = false) : Check p .nothing
  | line {n : Nat} {h : Handler} (unlocked : p.isOpen = true) (first : p.First (.line n))
      (handler : (p.line n).handler = some h) : Check p (.interrupt h (p.grant (.line n)))
  | dispatch (unlocked : p.isOpen = true) (first : p.First .dispatch) :
      Check p (.dispatch (p.grant .dispatch))

variable {p p' : Processor} {ls ls' : List Line} {h : Handler} {n : Nat}

theorem isOpen_iff :
    p.isOpen = true ↔ p.started = true ∧ p.cpuLock = false ∧ p.inInterrupt = false := by
  simp [isOpen, and_assoc]

theorem isEligible_iff {l : Line} :
    l.isEligible = true ↔ l.pended = true ∧ ∃ h, l.handler = some h := by
  unfold Line.isEligible
  rw [Bool.and_eq_true, Option.isSome_iff_exists]

/-- The line that is taken is the first of those that can be, and only it changes. -/
theorem takeFirst_eq_some (taken : takeFirst ls = some (h, ls')) :
    ∃ n, (ls.getD n {}).pended = true ∧ (ls.getD n {}).handler = some h ∧
      (∀ i < n, (ls.getD i {}).isEligible = false) ∧
      ls' = ls.modify n fun l => { l with pended := false } := by
  induction ls generalizing ls' with
  | nil => cases taken
  | cons l ls ih =>
    unfold takeFirst at taken
    split at taken
    · rename_i h' pended handler
      cases taken
      exact ⟨0, pended, handler, fun i hi => absurd hi (Nat.not_lt_zero i), rfl⟩
    · rename_i skip
      obtain ⟨⟨h', rest⟩, later, he⟩ := Option.map_eq_some_iff.mp taken
      cases he
      obtain ⟨n, pended, handler, least, rfl⟩ := ih later
      refine ⟨n + 1, pended, handler, ?_, rfl⟩
      intro i hi
      cases i with
      | zero =>
        refine Bool.eq_false_iff.mpr fun eligible => ?_
        obtain ⟨pended, h', handler⟩ := isEligible_iff.mp eligible
        exact skip h' pended handler
      | succ i => exact least i (Nat.lt_of_succ_lt_succ hi)

theorem takeFirst_eq_none (none : takeFirst ls = none) : ls.any Line.isEligible = false := by
  induction ls with
  | nil => rfl
  | cons l ls ih =>
    unfold takeFirst at none
    split at none
    · cases none
    · rename_i skip
      rw [List.any_cons, ih (Option.map_eq_none_iff.mp none), Bool.or_false]
      refine Bool.eq_false_iff.mpr fun eligible => ?_
      obtain ⟨pended, h', handler⟩ := isEligible_iff.mp eligible
      exact skip h' pended handler

theorem any_of_isEligible (eligible : (ls.getD n {}).isEligible = true) :
    ls.any Line.isEligible = true := by
  rw [List.getD_eq_getElem?_getD] at eligible
  cases at_n : ls[n]? with
  | none =>
    rw [at_n] at eligible
    cases eligible
  | some l =>
    rw [at_n] at eligible
    exact List.any_eq_true.mpr ⟨l, List.mem_of_getElem? at_n, eligible⟩

/-- A processor with a request has work to do. -/
theorem hasPendingWork_of_asks (asked : p.asks r = true) : p.hasPendingWork = true := by
  unfold hasPendingWork
  cases r with
  | line n => rw [any_of_isEligible asked, Bool.or_true]
  | dispatch =>
    rw [show p.dispatchPended = true from asked, Bool.true_or]

theorem not_asks_line (none : p.lines.any Line.isEligible = false) (n : Nat) :
    p.asks (.line n) = false := by
  refine Bool.eq_false_iff.mpr fun eligible => ?_
  rw [any_of_isEligible eligible] at none
  cases none

theorem check (p : Processor) : p.Check p.preemption := by
  have shut : (!p.started || p.cpuLock || p.inInterrupt) = !p.isOpen := by
    unfold isOpen
    cases p.started <;> cases p.cpuLock <;> cases p.inInterrupt <;> rfl
  unfold preemption takeLine
  rw [shut]
  cases opened : p.isOpen with
  | false => exact .closed opened
  | true =>
    rw [if_neg (by simp)]
    cases taken : takeFirst p.lines with
    | some x =>
      obtain ⟨h, lines⟩ := x
      obtain ⟨n, pended, handler, least, rfl⟩ := takeFirst_eq_some taken
      refine .line opened ⟨isEligible_iff.mpr ⟨pended, h, handler⟩, ?_⟩ handler
      intro r before
      cases r with
      | line i => exact least i before
      | dispatch => cases before
    | none =>
      have no_line := takeFirst_eq_none taken
      dsimp only [Option.map_none]
      split
      · rename_i asked
        refine .dispatch opened ⟨asked, ?_⟩
        intro r before
        cases r with
        | line n => exact not_asks_line no_line n
        | dispatch => cases before
      · rename_i idle
        refine .clear opened ?_
        unfold hasPendingWork
        rw [no_line, Bool.or_false]
        exact Bool.eq_false_iff.mpr idle

theorem Keeps.of_eq (lines : p'.lines = p.lines)
    (kept : p.dispatchPended = true → p'.dispatchPended = true) : p.Keeps p' r := by
  cases r with
  | line n =>
    have same : p'.line n = p.line n := congrArg (·.getD n {}) lines
    constructor <;> simp only [pends, asks, same] <;> exact id
  | dispatch => exact ⟨kept, kept⟩

theorem getD_modify {f : Line → Line} (inside : n < ls.length ∨ f {} = {}) (i : Nat) :
    (ls.modify n f).getD i {} = if n = i then f (ls.getD i {}) else ls.getD i {} := by
  rw [List.getD_eq_getElem?_getD, List.getD_eq_getElem?_getD, List.getElem?_modify]
  cases at_i : ls[i]? with
  | some l => by_cases here : n = i <;> simp [here]
  | none =>
    by_cases here : n = i
    · subst here
      have beyond := inside.resolve_left (Nat.not_lt.mpr (List.getElem?_eq_none_iff.mp at_i))
      simpa using beyond.symm
    · simp [here]

theorem lines_of_updateLine {f : Line → Line} (updated : p.updateLine n f = some p') :
    ∃ lines, p' = { p with lines } := by
  unfold updateLine at updated
  split at updated <;> cases updated
  exact ⟨_, rfl⟩

theorem line_updateLine {f : Line → Line} (updated : p.updateLine n f = some p') (i : Nat) :
    p'.line i = if n = i then f (p.line i) else p.line i := by
  unfold updateLine at updated
  split at updated <;> cases updated
  rename_i inside
  exact getD_modify (.inl inside) i

theorem line_pend (pended : p.pend n = some p') : p'.line n = { p.line n with pended := true } :=
  (line_updateLine pended n).trans (if_pos rfl)

theorem line_grant (p : Processor) (n i : Nat) : (p.grant (.line n)).line i =
    if n = i then { p.line i with pended := false } else p.line i :=
  getD_modify (.inr rfl) i

/-- A change of one line by which it loses neither its request nor its handler. -/
theorem keeps_updateLine {f : Line → Line} (updated : p.updateLine n f = some p')
    (pended : ∀ l : Line, l.pended = true → (f l).pended = true)
    (eligible : ∀ l : Line, l.isEligible = true → (f l).isEligible = true) : p.Keeps p' r := by
  cases r with
  | line i =>
    have line := line_updateLine updated i
    constructor <;> simp only [pends, asks, line] <;> split
    · exact pended _
    · exact id
    · exact eligible _
    · exact id
  | dispatch =>
    obtain ⟨lines, rfl⟩ := lines_of_updateLine updated
    exact ⟨id, id⟩

theorem keeps_pend (pended : p.pend n = some p') : p.Keeps p' r := by
  refine keeps_updateLine pended (fun _ _ => rfl) fun l eligible => ?_
  obtain ⟨-, h, handler⟩ := isEligible_iff.mp eligible
  exact isEligible_iff.mpr ⟨rfl, h, handler⟩

theorem keeps_setHandler (set : p.setHandler n (some h) = some p') : p.Keeps p' r := by
  refine keeps_updateLine set (fun _ pended => pended) fun l eligible => ?_
  exact isEligible_iff.mpr ⟨(isEligible_iff.mp eligible).1, h, rfl⟩

/-- Taking one request keeps the others. -/
theorem keeps_grant (other : r' ≠ r) : p.Keeps (p.grant r) r' := by
  cases r with
  | line n =>
    cases r' with
    | line i =>
      have away : n ≠ i := fun same => other (congrArg _ same.symm)
      have line := line_grant p n i
      rw [if_neg away] at line
      constructor <;> simp only [pends, asks, line] <;> exact id
    | dispatch => exact ⟨id, id⟩
  | dispatch =>
    cases r' with
    | line i => exact ⟨id, id⟩
    | dispatch => exact absurd rfl other

end Processor

end TaskKernel
