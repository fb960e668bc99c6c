import Mathlib.Data.List.Basic
import TaskKernel.Proofs.Run.Script
import TaskKernel.Proofs.Schedule.Lineup

namespace TaskKernel

def Precedes (b a : TaskId) (xs : List TaskId) : Prop :=
  ∃ pre post, xs = pre ++ a :: post ∧ b ∈ pre

namespace Precedes

variable {a b c : TaskId} {xs : List TaskId}

theorem append (h : Precedes b a xs) (ys : List TaskId) : Precedes b a (xs ++ ys) := by
  obtain ⟨pre, post, rfl, member⟩ := h
  exact ⟨pre, post ++ ys, by simp, member⟩

theorem erase (h : Precedes b a xs) (ha : c ≠ a) (hb : c ≠ b) : Precedes b a (xs.erase c) := by
  obtain ⟨pre, post, rfl, member⟩ := h
  by_cases before : c ∈ pre
  · rw [List.erase_append_left _ before]
    exact ⟨pre.erase c, post, rfl, (List.mem_erase_of_ne (Ne.symm hb)).mpr member⟩
  · rw [List.erase_append_right _ before, List.erase_cons_tail (by simpa using Ne.symm ha)]
    exact ⟨pre, post.erase c, rfl, member⟩

end Precedes

namespace Kernel

structure Competes (k : Kernel) (t : TaskId) : Prop where
  pos : 0 < t
  old : t ≤ k.taskCount
  ready : k.isCandidate t = true

instance (k : Kernel) (t : TaskId) : Decidable (k.Competes t) :=
  decidable_of_iff (0 < t ∧ t ≤ k.taskCount ∧ k.isCandidate t = true)
    ⟨fun x => ⟨x.1, x.2.1, x.2.2⟩, fun x => ⟨x.pos, x.old, x.ready⟩⟩

/-- Task `b` has its turn before task `a` has another one. -/
structure Owing (k : Kernel) (a b : TaskId) : Prop where
  other : k.running ≠ b
  order : ∃ xs, k.Lined xs ∧ (a ≠ TaskId.idle → k.running = a ∨ Precedes b a xs)

structure Keeps (k k' : Kernel) : Prop where
  old : k.taskCount ≤ k'.taskCount
  priority (t : TaskId) : 0 < t → t ≤ k.taskCount → (k'.task t).priority = (k.task t).priority

variable {k k' : Kernel} {xs : List TaskId} {a b t : TaskId}

/-- The running task goes behind all others, and everybody else keeps the order. -/
theorem precedes_rotation (member : b ∈ xs) (ne : a ≠ b) (task : a ≠ TaskId.idle)
    (other : k.running ≠ b) (order : k.running = a ∨ Precedes b a xs) :
    Precedes b a (k.rotation xs) := by
  unfold rotation
  by_cases runs : k.running = a
  · subst runs
    rw [if_neg task]
    exact ⟨xs.erase k.running, [], rfl, (List.mem_erase_of_ne ne.symm).mpr member⟩
  · have before := order.resolve_left runs
    split
    · exact before
    · exact (before.erase runs other).append _

theorem Lined.choice_eq (h : k.Lined xs) (old : k.running ≤ k.taskCount) :
    k.dispatch.running = ((k.rotation xs).foldl (Survey.visit k.rotate) {}).choice := by
  change k.rotate.surveyQueue.choice = _
  unfold surveyQueue
  rw [(h.rotate old).queued_eq]

theorem isCandidate_booted (k : Kernel) (busy : t ≠ TaskId.idle) :
    k.booted.isCandidate t = k.isCandidate t := by
  have holds : ∀ w, k.booted.holds w = k.holds w := holds_of_objects rfl
  unfold isCandidate
  rw [k.task_booted busy]
  simp only [holds]

/-- The first dispatch chooses as any other does. -/
theorem Lined.running_booted (h : k.Lined xs) (old : k.running ≤ k.taskCount) :
    k.booted.dispatch.running = k.dispatch.running := by
  have busy : ∀ t ∈ k.rotation xs, t ≠ TaskId.idle := by
    intro t member idle
    subst idle
    exact Nat.lt_irrefl 0 ((h.rotate old).mem_iff.mp member).1
  rw [h.booted.choice_eq old, h.choice_eq old]
  refine congrArg Survey.choice (Survey.foldl_congr ?_ ?_)
  · intro t member
    rw [task_rotate, task_rotate]
    exact k.task_booted (busy t member)
  · intro t member
    rw [isCandidate_rotate, isCandidate_rotate]
    exact k.isCandidate_booted (busy t member)

/-- A dispatch follows the rotation, at the end of the boot code as well as later. -/
theorem Lined.onward (h : k.Lined xs) (old : k.running ≤ k.taskCount)
    (origin : k' = k ∨ k' = k.booted) :
    k'.dispatch.Lined (k.rotation xs) ∧ k'.dispatch.running = k.dispatch.running := by
  rcases origin with rfl | rfl
  · exact ⟨(h.dispatched old).lined, rfl⟩
  · exact ⟨(h.booted.dispatched old).lined, h.running_booted old⟩

theorem Lined.mem_rotation (h : k.Lined xs) (old : k.running ≤ k.taskCount)
    (competes : k.Competes b) : b ∈ k.rotation xs := by
  refine (h.rotate old).mem_iff.mpr ⟨competes.pos, ?_⟩
  rw [taskCount_rotate]
  exact competes.old

/-- Nobody is chosen while a competing task that is at least as urgent comes before. -/
theorem Lined.not_chosen (h : k.Lined xs) (old : k.running ≤ k.taskCount)
    (order : Precedes b a (k.rotation xs)) (competes : k.Competes b)
    (priority : (k.task b).priority ≤ (k.task a).priority) : k.dispatch.running ≠ a := by
  have ready : k.rotate.isCandidate b = true := (isCandidate_rotate k b).trans competes.ready
  obtain ⟨pre, post, split, -, least⟩ := first_choice (h.mem_rotation old competes) ready
  rw [← h.choice_eq old] at split least
  intro chosen
  rw [chosen] at split least
  obtain ⟨pre', post', split', before⟩ := order
  have fresh : a ∉ pre ∧ a ∉ post := by
    have nodup := (h.rotate old).holds.nodup
    rw [split] at nodup
    obtain ⟨-, rest, apart⟩ := List.nodup_append.mp nodup
    exact ⟨fun twice => apart a twice a List.mem_cons_self rfl, (List.nodup_cons.mp rest).1⟩
  have same : pre = pre' :=
    ((List.append_cons_inj_of_notMem fresh.1 fresh.2).mp (split.symm.trans split')).1
  rw [← same] at before
  have lower := least b before ready
  rw [task_rotate, task_rotate] at lower
  exact Nat.not_lt_of_le priority lower

/-- A dispatch with a candidate chooses a candidate, one of the most urgent. -/
theorem Lined.chosen_of_competes (h : k.Lined xs) (old : k.running ≤ k.taskCount)
    (competes : k.Competes t) :
    k.Competes k.dispatch.running ∧
      (k.task k.dispatch.running).priority ≤ (k.task t).priority := by
  have dispatched := h.dispatched old
  have member := h.mem_rotation old competes
  have chosen := dispatched.chosen
  have within := fun b (among : b ∈ k.rotation xs) => (dispatched.lined.mem_iff (t := b)).mp among
  rw [k.taskCount_dispatch] at within
  generalize k.dispatch.running = b at chosen ⊢
  cases chosen with
  | candidate among ready least =>
    exact ⟨⟨(within b among).1, (within b among).2, ready⟩, least t member competes.ready⟩
  | suspended _ _ unready | idle unready =>
    have none := unready t member
    rw [competes.ready] at none
    cases none

/-- The idle task is not chosen while a task competes. -/
theorem Lined.busy (h : k.Lined xs) (old : k.running ≤ k.taskCount) (competes : k.Competes b) :
    k.dispatch.running ≠ TaskId.idle :=
  Nat.ne_of_gt (h.chosen_of_competes old competes).1.pos

namespace Owing

theorem rests (owing : k.Owing a b) (rests : k.Rests k') : k'.Owing a b := by
  obtain ⟨xs, lined, order⟩ := owing.order
  refine ⟨?_, xs, lined.of_lineup rests.lineup, ?_⟩
  · rw [rests.running]
    exact owing.other
  · rw [rests.running]
    exact order

theorem enterTask (owing : k.Owing a b) (name : String) (priority param entry : Nat) :
    (k.enterTask name priority param entry).1.Owing a b := by
  obtain ⟨xs, lined, order⟩ := owing.order
  refine ⟨owing.other, _, lined.enterTask name priority param entry, ?_⟩
  intro task
  exact (order task).imp_right (·.append _)

/-- A dispatch that leaves `b` out chooses someone else than `a`, and `b` still comes first. -/
theorem dispatch (owing : k.Owing a b) (old : k.running ≤ k.taskCount)
    (origin : k' = k ∨ k' = k.booted) (ne : a ≠ b) (competes : k.Competes b)
    (urgent : a ≠ TaskId.idle → (k.task b).priority ≤ (k.task a).priority)
    (other : k.dispatch.running ≠ b) :
    k.dispatch.running ≠ a ∧ k'.dispatch.Owing a b := by
  obtain ⟨xs, lined, order⟩ := owing.order
  obtain ⟨lined', chosen⟩ := lined.onward old origin
  have member : b ∈ xs := lined.mem_iff.mpr ⟨competes.pos, competes.old⟩
  have before : a ≠ TaskId.idle → Precedes b a (k.rotation xs) := by
    intro task
    exact precedes_rotation member ne task owing.other (order task)
  constructor
  · by_cases task : a = TaskId.idle
    · rw [task]
      exact lined.busy old competes
    · exact lined.not_chosen old (before task) competes (urgent task)
  · refine ⟨?_, _, lined', fun task => .inr (before task)⟩
    rw [chosen]
    exact other

/-- After a turn, `a` waits for the turn of `b`. -/
theorem of_turn (lined : k.Lined xs) (old : k.running ≤ k.taskCount)
    (origin : k' = k ∨ k' = k.booted) (ne : a ≠ b) (chosen : k.dispatch.running = a) :
    k'.dispatch.Owing a b := by
  obtain ⟨lined', same⟩ := lined.onward old origin
  have turn := same.trans chosen
  refine ⟨?_, _, lined', fun _ => .inl turn⟩
  rw [turn]
  exact ne

end Owing

namespace Keeps

theorem trans {k'' : Kernel} (keeps : k.Keeps k') (keeps' : k'.Keeps k'') : k.Keeps k'' := by
  refine ⟨Nat.le_trans keeps.old keeps'.old, ?_⟩
  intro t pos old
  exact (keeps'.priority t pos (Nat.le_trans old keeps.old)).trans (keeps.priority t pos old)

theorem of_rests (rests : k.Rests k') : k.Keeps k' :=
  ⟨Nat.le_of_eq (taskCount_of_lineup rests.lineup).symm, fun t _ _ => rests.priority t⟩

theorem enterTask (k : Kernel) (name : String) (priority param entry : Nat) :
    k.Keeps (k.enterTask name priority param entry).1 := by
  refine ⟨Nat.le_succ _, ?_⟩
  intro t _ old
  have other : t ≠ k.taskCount + 1 := Nat.ne_of_lt (Nat.lt_succ_of_le old)
  rw [k.task_enterTask name priority param entry other]

theorem booted (k : Kernel) : k.Keeps k.booted := by
  refine ⟨Nat.le_refl _, ?_⟩
  intro t pos _
  rw [k.task_booted (Nat.ne_of_gt pos)]

theorem dispatch (lined : k.Lined xs) (old : k.running ≤ k.taskCount) : k.Keeps k.dispatch := by
  refine ⟨Nat.le_of_eq k.taskCount_dispatch.symm, ?_⟩
  intro t _ _
  rw [(lined.dispatched old).task]
  split <;> rfl

end Keeps

end Kernel

def Happening.dispatch : Happening → Option Kernel
  | .dispatched k => some k
  | _ => none

namespace History

def dispatches (h : History) : List Kernel := h.filterMap Happening.dispatch

def choices (h : History) : List TaskId := h.dispatches.map fun k => k.dispatch.running

def Contested (h : History) (b : TaskId) : Prop := ∀ k ∈ h.dispatches, k.Competes b

instance (h : History) (b : TaskId) : Decidable (h.Contested b) :=
  inferInstanceAs (Decidable (∀ k ∈ h.dispatches, k.Competes b))

/-- Since a dispatch that chose `a`, task `b` has competed for the processor in vain. -/
structure Bypassed (h : History) (a b : TaskId) (since : History) : Prop where
  turn : ∃ k past, h = since ++ .dispatched k :: past ∧ k.dispatch.running = a
  contested : since.Contested b
  urgent : ∀ k ∈ since.dispatches, a ≠ TaskId.idle →
    (k.task b).priority ≤ (k.task a).priority
  vain : b ∉ since.choices

variable {h h' since : History} {a b : TaskId}

theorem dispatches_append (since h : History) :
    (since ++ h).dispatches = since.dispatches ++ h.dispatches := List.filterMap_append

theorem choices_append (since h : History) :
    (since ++ h).choices = since.choices ++ h.choices := by
  unfold choices
  rw [dispatches_append, List.map_append]

theorem dispatched_of_mem {k : Kernel} (member : k ∈ h.dispatches) : .dispatched k ∈ h := by
  obtain ⟨x, within, found⟩ := List.mem_filterMap.mp member
  cases x with
  | dispatched =>
    cases found
    exact within
  | _ => cases found

/-- The first turn of a task. -/
theorem first_turn (member : a ∈ h.choices) : ∃ (since : History) (k : Kernel) (past : History),
    h = since ++ .dispatched k :: past ∧ k.dispatch.running = a ∧ a ∉ past.choices := by
  induction h with
  | nil => cases member
  | cons x h ih =>
    by_cases earlier : a ∈ choices h
    · obtain ⟨since, k, past, rfl, chosen, first⟩ := ih earlier
      exact ⟨x :: since, k, past, rfl, chosen, first⟩
    · cases x with
      | dispatched k =>
        have latest := (List.mem_cons.mp member).resolve_right earlier
        exact ⟨[], k, h, rfl, latest.symm, earlier⟩
      | _ => exact absurd member earlier

theorem choices_of_quiet (older : h' = h ∨ ∃ x, h' = x :: h)
    (quiet : ∀ k, h' ≠ .dispatched k :: h) : h'.choices = h.choices := by
  rcases older with rfl | ⟨x, rfl⟩
  · rfl
  · cases x with
    | dispatched k => exact absurd rfl (quiet k)
    | _ => rfl

theorem Bypassed.of_cons {x : Happening} (bypassed : Bypassed (x :: h) a b since) :
    (since = [] ∧ ∃ k, x = .dispatched k ∧ k.dispatch.running = a) ∨
    ∃ since', since = x :: since' ∧ h.Bypassed a b since' := by
  obtain ⟨k, past, split, chosen⟩ := bypassed.turn
  cases since with
  | nil =>
    cases split
    exact .inl ⟨rfl, k, rfl, chosen⟩
  | cons y since =>
    obtain ⟨rfl, rfl⟩ := List.cons.inj split
    have older : ∀ k ∈ dispatches since, k ∈ dispatches (x :: since) := by
      intro k member
      rw [← List.singleton_append, dispatches_append]
      exact List.mem_append_right _ member
    refine .inr ⟨since, rfl, ⟨k, past, rfl, chosen⟩, ?_, ?_, ?_⟩
    · intro k member
      exact bypassed.contested k (older k member)
    · intro k member
      exact bypassed.urgent k (older k member)
    · intro turn
      obtain ⟨k, member, rfl⟩ := List.mem_map.mp turn
      exact bypassed.vain (List.mem_map_of_mem (older k member))

theorem Bypassed.of_quiet (bypassed : h'.Bypassed a b since) (older : h' = h ∨ ∃ x, h' = x :: h)
    (quiet : ∀ k, h' ≠ .dispatched k :: h) :
    ∃ since', h.Bypassed a b since' ∧ since.choices = since'.choices := by
  rcases older with rfl | ⟨x, rfl⟩
  · exact ⟨since, bypassed, rfl⟩
  · rcases bypassed.of_cons with ⟨-, k, rfl, -⟩ | ⟨since', rfl, before⟩
    · exact absurd rfl (quiet k)
    · refine ⟨since', before, choices_of_quiet (.inr ⟨x, rfl⟩) ?_⟩
      intro k he
      obtain ⟨rfl, -⟩ := List.cons.inj he
      exact quiet k rfl

end History

namespace Machine

variable {m m' : Machine} {h h' past since : History} {config : Config} {k : Kernel}
  {a b : TaskId}

theorem Change.keeps (run : Run config m h) (change : Change m h m' h') :
    m.kernel.Keeps m'.kernel := by
  have orderly := run.orderly
  obtain ⟨xs, lined⟩ := orderly.lined
  cases change.regroups run with
  | rests rests => exact .of_rests rests
  | enters room new kernel =>
    rw [kernel]
    exact (Kernel.Keeps.enterTask ..).trans (.of_rests (Kernel.rests_log _ _))
  | dispatches origin kernel =>
    rw [kernel]
    rcases origin with rfl | rfl
    · exact .dispatch lined orderly.running
    · exact (Kernel.Keeps.booted _).trans (.dispatch lined.booted orderly.running)

theorem Run.of_dispatched (run : Run config m h) (earlier : .dispatched k :: past <:+ h) :
    ∃ m₀, Run config m₀ past ∧ m₀.kernel = k := by
  obtain ⟨m₀, m₁, run₀, change⟩ := run.of_suffix earlier
  cases change.regroups run₀ with
  | rests rests quiet => exact absurd rfl (quiet k)
  | enters room new => cases new
  | dispatches origin kernel new =>
    cases new
    exact ⟨m₀, run₀, rfl⟩

theorem Run.keeps (run : Run config m h) (earlier : .dispatched k :: past <:+ h) :
    k.Keeps m.kernel := by
  refine Run.induct (P := fun m h => .dispatched k :: past <:+ h → k.Keeps m.kernel) ?_ ?_
    run earlier
  · intro earlier
    cases List.suffix_nil.mp earlier
  · intro m m' h h' run ih change earlier
    have keeps := change.keeps run
    rcases change.older with rfl | ⟨x, rfl⟩
    · exact (ih earlier).trans keeps
    · rcases List.suffix_cons_iff.mp earlier with he | earlier
      · cases he
        cases change.regroups run with
        | rests rests quiet => exact absurd rfl (quiet k)
        | enters room new => cases new
        | dispatches origin kernel new =>
          cases new
          exact keeps
      · exact (ih earlier).trans keeps

theorem Run.running_eq (run : Run config m h) :
    m.kernel.running = h.choices.headD TaskId.idle := by
  refine Run.induct (P := fun m h => m.kernel.running = h.choices.headD TaskId.idle) rfl ?_ run
  intro m m' h h' run ih change
  have orderly := run.orderly
  obtain ⟨xs, lined⟩ := orderly.lined
  cases change.regroups run with
  | rests rests quiet =>
    rw [rests.running, History.choices_of_quiet change.older quiet]
    exact ih
  | enters room new kernel =>
    subst new
    rw [kernel]
    exact ih
  | dispatches origin kernel new =>
    subst new
    rw [kernel]
    exact (lined.onward orderly.running origin).2

/-- A step of the run, at which `b` may be bypassed once more. -/
theorem Change.bypassed (run : Run config m h) (change : Change m h m' h') (ne : a ≠ b)
    (before : ∀ since, h.Bypassed a b since → a ∉ since.choices ∧ m.kernel.Owing a b)
    (since : History) (bypassed : h'.Bypassed a b since) :
    a ∉ since.choices ∧ m'.kernel.Owing a b := by
  have orderly := run.orderly
  cases change.regroups run with
  | rests rests quiet =>
    obtain ⟨since', earlier, same⟩ := bypassed.of_quiet change.older quiet
    obtain ⟨never, owing⟩ := before since' earlier
    rw [same]
    exact ⟨never, owing.rests rests⟩
  | enters room new kernel =>
    obtain ⟨since', earlier, same⟩ := bypassed.of_quiet change.older (by simp [new])
    obtain ⟨never, owing⟩ := before since' earlier
    rw [same, kernel]
    exact ⟨never, (owing.enterTask ..).rests (Kernel.rests_log _ _)⟩
  | dispatches origin kernel new =>
    subst new
    rw [kernel]
    -- `a` has its turn now, or waits since an earlier one
    rcases bypassed.of_cons with ⟨rfl, k, he, chosen⟩ | ⟨since', rfl, earlier⟩
    · cases he
      obtain ⟨xs, lined⟩ := orderly.lined
      exact ⟨List.not_mem_nil, .of_turn lined orderly.running origin ne chosen⟩
    · obtain ⟨never, owing⟩ := before since' earlier
      have competes := bypassed.contested m.kernel List.mem_cons_self
      have urgent := bypassed.urgent m.kernel List.mem_cons_self
      have other : m.kernel.dispatch.running ≠ b := by
        intro chosen
        exact bypassed.vain (List.mem_cons.mpr (.inl chosen.symm))
      obtain ⟨next, owing'⟩ := owing.dispatch orderly.running origin ne competes urgent other
      refine ⟨?_, owing'⟩
      intro member
      rcases List.mem_cons.mp member with latest | older
      · exact next latest.symm
      · exact never older

theorem Run.bypassed (run : Run config m h) (ne : a ≠ b) (since : History)
    (bypassed : h.Bypassed a b since) : a ∉ since.choices ∧ m.kernel.Owing a b := by
  refine Run.induct (P := fun m h => ∀ since, h.Bypassed a b since →
    a ∉ since.choices ∧ m.kernel.Owing a b) ?_ ?_ run since bypassed
  · intro since bypassed
    obtain ⟨k, past, split, -⟩ := bypassed.turn
    simp at split
  · intro m m' h h' run ih change
    exact change.bypassed run ne ih

/-- A task that had its turn is in the task table ever after. -/
theorem Run.chosen_old (run : Run config m h) (earlier : .dispatched k :: past <:+ h) :
    k.dispatch.running ≤ m.kernel.taskCount := by
  obtain ⟨m₀, run₀, rfl⟩ := run.of_dispatched earlier
  obtain ⟨xs, lined⟩ := run₀.orderly.lined
  have within := (lined.dispatched run₀.orderly.running).running
  rw [Kernel.taskCount_dispatch] at within
  exact Nat.le_trans within (run.keeps earlier).old

/-- Nobody has two turns while a task that is at least as urgent competes in vain. -/
theorem Run.turns (run : Run config m h) (ne : a ≠ b)
    (priority : (m.kernel.task b).priority ≤ (m.kernel.task a).priority)
    (within : since ++ .dispatched k :: past <:+ h) (chosen : k.dispatch.running = a)
    (contested : since.Contested b) (vain : b ∉ since.choices) : a ∉ since.choices := by
  have urgent : ∀ k' ∈ since.dispatches, a ≠ TaskId.idle →
      (k'.task b).priority ≤ (k'.task a).priority := by
    intro k' member task
    obtain ⟨newer, older, rfl⟩ := List.append_of_mem (History.dispatched_of_mem member)
    have later : .dispatched k' :: (older ++ .dispatched k :: past) <:+ h := by
      refine .trans ?_ within
      simp
    obtain ⟨m₀, run₀, rfl⟩ := run.of_dispatched later
    have keeps := run.keeps later
    have competes := contested _ member
    have old : a ≤ m₀.kernel.taskCount := by
      rw [← chosen]
      exact run₀.chosen_old (List.suffix_append ..)
    rw [← keeps.priority b competes.pos competes.old,
      ← keeps.priority a (Nat.pos_of_ne_zero task) old]
    exact priority
  cases since with
  | nil => exact List.not_mem_nil
  | cons x since =>
    obtain ⟨m₀, m₁, run₀, change⟩ := run.of_suffix within
    have bypassed : History.Bypassed (x :: (since ++ .dispatched k :: past)) a b (x :: since) :=
      ⟨⟨k, past, rfl, chosen⟩, contested, urgent, vain⟩
    exact (change.bypassed run₀ ne (run₀.bypassed ne) _ bypassed).1

theorem Run.one_turn {stretch : History} (run : Run config m h) (ne : a ≠ b)
    (priority : (m.kernel.task b).priority ≤ (m.kernel.task a).priority)
    (within : stretch ++ past <:+ h) (contested : stretch.Contested b)
    (vain : b ∉ stretch.choices) : stretch.choices.count a ≤ 1 := by
  by_cases member : a ∈ stretch.choices
  · obtain ⟨since, k, older, rfl, chosen, first⟩ := History.first_turn member
    rw [History.choices_append] at vain ⊢
    have turn : since ++ .dispatched k :: (older ++ past) <:+ h := by
      simpa using within
    have never : a ∉ since.choices := by
      refine run.turns ne priority turn chosen ?_ ?_
      · intro k' later
        refine contested k' ?_
        rw [History.dispatches_append]
        exact List.mem_append_left _ later
      · intro later
        exact vain (List.mem_append_left _ later)
    have once : List.count a (History.choices (.dispatched k :: older)) = 1 := by
      change List.count a (k.dispatch.running :: older.choices) = 1
      rw [chosen, List.count_cons_self, List.count_eq_zero_of_not_mem first]
    refine Nat.le_of_eq ?_
    rw [List.count_append, List.count_eq_zero_of_not_mem never, once, Nat.zero_add]
  · rw [List.count_eq_zero_of_not_mem member]
    exact Nat.zero_le 1

structure Fair (m : Machine) (h : History) : Prop where
  chosen : m.kernel.running = h.choices.headD TaskId.idle
  kept (k : Kernel) (past : History) : .dispatched k :: past <:+ h → k.Keeps m.kernel
  /-- Once `a` had its turn, it has no other one before `b` had one. -/
  turns (a b : TaskId) (k : Kernel) (since past : History) : a ≠ b →
    (m.kernel.task b).priority ≤ (m.kernel.task a).priority →
      since ++ .dispatched k :: past <:+ h → k.dispatch.running = a → since.Contested b →
        b ∉ since.choices → a ∉ since.choices
  once (a b : TaskId) (stretch past : History) : a ≠ b →
    (m.kernel.task b).priority ≤ (m.kernel.task a).priority → stretch ++ past <:+ h →
      stretch.Contested b → b ∉ stretch.choices → stretch.choices.count a ≤ 1

/-- A task that competes for the processor is bypassed by no task twice, unless that task is more
urgent, whatever else happens in between. -/
theorem Run.fair (run : Run config m h) : m.Fair h := by
  refine ⟨run.running_eq, ?_, ?_, ?_⟩
  · intro k past
    exact run.keeps
  · intro a b k since past ne priority
    exact run.turns ne priority
  · intro a b stretch past ne priority
    exact run.one_turn ne priority

def preempted : Option (Machine × History) :=
  follow (initial { maxTasks := 3, arenaStart := 4096, arenaSize := 512, timeSlice := 0 }, [])
    [.call (.createTask "first" 256 5 0 0), .steps 4, .call (.createTask "second" 256 5 0 0),
      .steps 4, .call (.createTask "urgent" 256 1 0 0), .steps 4, .launch, .steps 1,
      .call (.waitEvent 0 1 {} 0), .steps 6, .call (.raise 0 1 true), .steps 4]

theorem fair_preempted : ∃ m h config, Run config m h ∧ h.choices = [3, 1, 3] ∧
    h.Contested 2 ∧ (m.kernel.task 2).priority = (m.kernel.task 1).priority ∧
    m.kernel.running = 3 ∧ h.choices.count 1 ≤ 1 := by
  obtain ⟨x, hx⟩ := Option.isSome_iff_exists.mp (show preempted.isSome = true by decide +kernel)
  have facts : preempted.map (fun x => (x.2.choices, decide (x.2.Contested 2),
      (x.1.kernel.task 2).priority, (x.1.kernel.task 1).priority)) =
      some ([3, 1, 3], true, 5, 5) := by decide +kernel
  rw [hx] at facts
  simp only [Option.map_some, Option.some.injEq, Prod.mk.injEq, decide_eq_true_eq] at facts
  obtain ⟨choices, contested, second, first⟩ := facts
  have run := run_of_follow hx
  have fair := run.fair
  have equal := second.trans first.symm
  have running := fair.chosen
  rw [choices] at running
  refine ⟨_, _, _, run, choices, contested, equal, running, ?_⟩
  refine fair.once 1 2 _ [] (by decide) (Nat.le_of_eq equal) ⟨[], List.append_nil _⟩ contested ?_
  rw [choices]
  decide

end Machine

end TaskKernel
