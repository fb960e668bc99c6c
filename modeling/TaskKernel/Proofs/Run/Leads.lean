import TaskKernel.Proofs.Run.Executions

namespace TaskKernel

def Happening.Borders (c : Context) : Happening → Prop
  | .called c' _ => c' = c
  | .returned c' _ => c' = c
  | .entered .timer => c = .handler
  | _ => False

/-- No call of the context has started or ended since. -/
inductive History.During (c : Context) (past : History) : History → Prop where
  | here : During c past past
  | later {h : History} {x : Happening} (before : During c past h) (within : ¬ x.Borders c) :
      During c past (x :: h)

variable {c : Context} {call : Call} {stage next : Stage} {past h h' : History} {x : Happening}

namespace History

theorem calling_of_within (within : ¬ x.Borders c) : calling c (x :: h) = calling c h := by
  cases x with
  | called | returned => exact if_neg within
  | entered handler =>
    cases handler with
    | timer => exact if_neg within
    | application => rfl
  | ran | dispatched => rfl

theorem During.calling_eq (during : During c past h) : calling c h = calling c past := by
  induction during with
  | here => rfl
  | later before within ih => exact (calling_of_within within).trans ih

theorem During.older (during : During c past (x :: h)) (older : past <:+ h) :
    During c past h ∧ ¬ x.Borders c := by
  cases during with
  | here => exact absurd older.length_le (Nat.not_succ_le_self _)
  | later before within => exact ⟨before, within⟩

theorem During.suffix (during : During c past h) : past <:+ h := by
  induction during with
  | here => exact List.suffix_refl past
  | later before within ih => exact ih.trans (List.suffix_cons ..)

/-- What has happened in the course of a call is no border of it. -/
theorem During.within {mid : History} (during : During c past h) (newer : x :: mid <:+ h)
    (older : past <:+ mid) : ¬ x.Borders c := by
  induction during with
  | here => exact absurd (newer.trans older).length_le (by simp)
  | later before within ih =>
    rcases List.suffix_cons_iff.mp newer with he | newer
    · cases he
      exact within
    · exact ih newer

/-- A section of a call in progress was executed in the course of that call. -/
theorem during_of_sectionsBy (newer : List (System × Section))
    (sections : sectionsBy c h = newer ++ (s, sec) :: rest) (calling : h.calling c = some call) :
    ∃ older : History, During c (.ran c s sec :: older) h ∧ older.sectionsBy c = rest ∧
      older.calling c = some call := by
  induction h generalizing newer with
  | nil => cases calling
  | cons x h ih =>
    by_cases borders : x.Borders c
    · cases x with
      | called c' =>
        rw [show sectionsBy c (.called c' _ :: h) = [] from if_pos borders] at sections
        simp at sections
      | returned c' =>
        rw [show History.calling c (.returned c' _ :: h) = none from if_pos borders] at calling
        cases calling
      | entered handler =>
        cases handler with
        | timer =>
          rw [show sectionsBy c (.entered .timer :: h) = [] from if_pos borders] at sections
          simp at sections
        | application => cases borders
      | ran | dispatched => cases borders
    · have calling : History.calling c h = some call :=
        (calling_of_within borders).symm.trans calling
      have onward : ∀ newer, sectionsBy c h = newer ++ (s, sec) :: rest →
          ∃ older : History, During c (.ran c s sec :: older) (x :: h) ∧
            older.sectionsBy c = rest ∧ older.calling c = some call := by
        intro newer sections
        obtain ⟨older, during, same⟩ := ih newer sections calling
        exact ⟨older, .later during borders, same⟩
      by_cases mine : ∃ before sec', x = .ran c before sec'
      · obtain ⟨before, sec', rfl⟩ := mine
        rw [show sectionsBy c (.ran c before sec' :: h) = (before, sec') :: sectionsBy c h from
          if_pos rfl] at sections
        cases newer with
        | nil =>
          simp only [List.nil_append, List.cons.injEq, Prod.mk.injEq] at sections
          obtain ⟨⟨rfl, rfl⟩, same⟩ := sections
          exact ⟨h, .here, same, calling⟩
        | cons y newer =>
          simp only [List.cons_append, List.cons.injEq] at sections
          exact onward newer sections.2
      · refine onward newer (Eq.trans (sectionsBy_other ?_).symm sections)
        intro he
        cases x with
        | ran =>
          cases he
          exact mine ⟨_, _, rfl⟩
        | called | returned => exact borders (Option.some.inj he)
        | entered handler =>
          cases handler with
          | timer => exact borders (Option.some.inj he).symm
          | application => cases he
        | dispatched => cases he

theorem ran_of_sectionsBy (newer : List (System × Section))
    (sections : sectionsBy c h = newer ++ (s, sec) :: rest) (calling : h.calling c = some call) :
    ∃ older : History, .ran c s sec :: older <:+ h ∧ older.sectionsBy c = rest ∧
      older.calling c = some call := by
  obtain ⟨older, during, same⟩ := during_of_sectionsBy newer sections calling
  exact ⟨older, during.suffix, same⟩

end History

namespace Machine

variable {m m' : Machine} {config : Config}

inductive Leads (config : Config) (m : Machine) (h : History) : Machine → History → Prop where
  | refl : Leads config m h m h
  | step {m₁ m₂ : Machine} {h₁ h₂ : History} (before : Leads config m h m₁ h₁)
      (run : Run config m₁ h₁) (change : Change m₁ h₁ m₂ h₂) : Leads config m h m₂ h₂

theorem Leads.suffix (leads : Leads config m h m' h') : h <:+ h' := by
  induction leads with
  | refl => exact List.suffix_refl h
  | step before run change ih =>
    rcases change.older with rfl | ⟨x, rfl⟩
    · exact ih
    · exact ih.trans (List.suffix_cons ..)

/-- A context whose call goes on is somewhere in it. -/
theorem Change.stage_of_calling (run : Run config m h) (change : Change m h m' h')
    (calling : h'.calling c = some call) : ∃ stage, m'.stageOf c = some stage := by
  have conforms := change.conforms run.orderly run.conforms c
  rw [calling] at conforms
  cases here : m'.stageOf c with
  | none =>
    rw [here] at conforms
    cases conforms.free
  | some stage => exact ⟨stage, rfl⟩

/-- What the sections and the open code of a call keep, the call keeps as long as it goes on. -/
theorem Leads.keeps {P : Stage → Prop} (leads : Leads config m h m' h')
    (during : History.During c h h') (calling : h.calling c = some call)
    (goes : ∀ stage next, call.At c stage → stage.Goes next → P stage → P next)
    (runs : ∀ s s' sec next, call.Runs c sec → sec.run s = (s', .leave next) →
      P (.enter sec) → P next)
    (here : m.stageOf c = some stage) (good : P stage) :
    ∃ stage', m'.stageOf c = some stage' ∧ P stage' := by
  induction leads with
  | refl => exact ⟨stage, here, good⟩
  | @step m₁ m₂ h₁ h₂ before run change ih =>
    have still : h₂.calling c = some call := during.calling_eq.trans calling
    obtain ⟨during₁, within⟩ : History.During c h h₁ ∧ ∀ x, h₂ = x :: h₁ → ¬ x.Borders c := by
      rcases change.older with rfl | ⟨x, rfl⟩
      · exact ⟨during, fun x he => absurd he.symm (List.cons_ne_self _ _)⟩
      · obtain ⟨during₁, within⟩ := during.older before.suffix
        exact ⟨during₁, fun y he => by cases he; exact within⟩
    obtain ⟨stage₁, here₁, good₁⟩ := ih during₁
    obtain ⟨stage₂, here₂⟩ := change.stage_of_calling run still
    refine ⟨stage₂, here₂, ?_⟩
    cases change.progress run here₂ still with
    | begins legal new => exact absurd rfl (within _ new)
    | serves new interrupts => exact absurd interrupts (within _ new)
    | codes here calling stays ran taken =>
      cases here.symm.trans here₁
      exact goes _ _ stays taken good₁
    | runs here calling belongs ran =>
      cases here.symm.trans here₁
      exact runs _ _ _ _ belongs ran good₁
    | waits here =>
      cases here.symm.trans here₁
      exact good₁

end Machine

end TaskKernel
