import Mathlib.Data.List.Nodup
import TaskKernel.Roster

namespace TaskKernel.Roster

/-- The links chain the items, with `p` before the first and `n` after the last. -/
def Linked (links : Links) : Option Nat → List Nat → Option Nat → Prop
  | _, [], _ => True
  | p, x :: xs, n => links.get x = ⟨p, xs.head?.or n⟩ ∧ Linked links (some x) xs n

structure Holds (r : Roster) (links : Links) (xs : List Nat) : Prop where
  first : r.first = xs.head?
  last : r.last = xs.getLast?
  nodup : xs.Nodup
  linked : Linked links none xs none

inductive Path (step : Nat → Option Nat) : Option Nat → List Nat → Prop where
  | nil : Path step none []
  | cons {x : Nat} {xs : List Nat} (rest : Path step (step x) xs) : Path step (some x) (x :: xs)

variable {r : Roster} {links links' : Links} {p p' n n' : Option Nat} {xs ys pre post : List Nat}
  {x y : Nat}

theorem Linked.congr (h : Linked links p xs n) (same : ∀ x ∈ xs, links'.get x = links.get x) :
    Linked links' p xs n := by
  induction xs generalizing p with
  | nil => trivial
  | cons x xs ih =>
    refine ⟨(same x List.mem_cons_self).trans h.1, ih h.2 fun y hy => ?_⟩
    exact same y (List.mem_cons_of_mem x hy)

theorem linked_append :
    Linked links p (xs ++ ys) n ↔
      Linked links p xs (ys.head?.or n) ∧ Linked links (xs.getLast?.or p) ys n := by
  induction xs generalizing p with
  | nil => simp [Linked]
  | cons x xs ih =>
    have after : (x :: xs).getLast?.or p = xs.getLast?.or (some x) := by
      rw [List.getLast?_cons]
      cases xs.getLast? <;> rfl
    rw [after, List.cons_append]
    simp only [Linked, ih, List.head?_append, Option.or_assoc, and_assoc]

theorem Linked.link (h : Linked links p (pre ++ x :: post) n) :
    links.get x = ⟨pre.getLast?.or p, post.head?.or n⟩ := (linked_append.mp h).2.1

theorem Linked.path (h : Linked links p xs none) :
    Path (fun x => (links.get x).next) xs.head? xs := by
  induction xs generalizing p with
  | nil => exact .nil
  | cons x xs ih =>
    refine .cons ?_
    have after := ih h.2
    rw [h.1, Option.or_none]
    exact after

/-- The way back from the last item leads on to where the way back from before the first leads. -/
theorem Linked.path_back (h : Linked links p xs n)
    (before : Path (fun x => (links.get x).prev) p ys) :
    Path (fun x => (links.get x).prev) (xs.getLast?.or p) (xs.reverse ++ ys) := by
  induction xs generalizing p ys with
  | nil => exact before
  | cons x xs ih =>
    have here : Path (fun x => (links.get x).prev) (some x) (x :: ys) := by
      refine .cons ?_
      rw [h.1]
      exact before
    have after : (x :: xs).getLast?.or p = xs.getLast?.or (some x) := by
      rw [List.getLast?_cons]
      cases xs.getLast? <;> rfl
    rw [after, List.reverse_cons, List.append_assoc, List.singleton_append]
    exact ih h.2 here

theorem erase_split (nodup : (pre ++ x :: post).Nodup) :
    (pre ++ x :: post).erase x = pre ++ post := by
  have fresh : x ∉ pre := fun hx =>
    (List.nodup_append.mp nodup).2.2 x hx x List.mem_cons_self rfl
  rw [List.erase_append_right _ fresh, List.erase_cons_head]

/-- Another item after the last one. -/
theorem Linked.relast (h : Linked links p xs n) (nodup : xs.Nodup) (last : xs.getLast? = some x) :
    Linked (links.modify x fun l => { l with next := n' }) p xs n' := by
  obtain ⟨ys, rfl⟩ := List.getLast?_eq_some_iff.mp last
  obtain ⟨init, at_last, -⟩ := linked_append.mp h
  have fresh : x ∉ ys := fun hx => (List.nodup_append.mp nodup).2.2 x hx x (by simp) rfl
  refine linked_append.mpr ⟨init.congr fun y hy => ?_, ?_, trivial⟩
  · rw [Table.get_modify, if_neg]
    intro he
    subst he
    exact fresh hy
  · rw [Table.get_modify, if_pos rfl, at_last]
    simp

/-- Another item before the first one. -/
theorem Linked.refirst (h : Linked links p xs n) (nodup : xs.Nodup) (first : xs.head? = some x) :
    Linked (links.modify x fun l => { l with prev := p' }) p' xs n := by
  cases xs with
  | nil => cases first
  | cons y ys =>
    cases first
    refine ⟨by rw [Table.get_modify, if_pos rfl, h.1], h.2.congr fun z hz => ?_⟩
    rw [Table.get_modify, if_neg]
    intro he
    subst he
    exact (List.nodup_cons.mp nodup).1 hz

theorem le_size_pushBack (r : Roster) (links : Links) (x : Nat) :
    links.size ≤ (r.pushBack links x).2.size ∧ x < (r.pushBack links x).2.size := by
  unfold Roster.pushBack
  dsimp only
  split <;> simp only [Table.size_modify, Table.size_set] <;> omega

theorem le_size_remove (r : Roster) (links : Links) (x : Nat) :
    links.size ≤ (r.remove links x).2.size := by
  unfold Roster.remove
  dsimp only
  split <;> split <;> simp only [Table.size_modify, Table.size_set] <;> omega

theorem le_size_moveToBack (r : Roster) (links : Links) (x : Nat) :
    links.size ≤ (r.moveToBack links x).2.size := by
  unfold Roster.moveToBack
  split
  · exact Nat.le_refl _
  · exact Nat.le_trans (le_size_remove r links x) (le_size_pushBack _ _ x).1

/-- An appended item changes the link of the last one only. -/
theorem get_pushBack (r : Roster) (links : Links) (hx : y ≠ x) :
    (r.pushBack links x).2.get y =
      if r.last = some y then { links.get y with next := some x } else links.get y := by
  unfold Roster.pushBack
  cases r.last with
  | none => exact Table.get_set_ne _ _ (Ne.symm hx)
  | some l =>
    dsimp only
    rw [Table.get_modify, Table.get_set_ne _ _ (Ne.symm hx)]
    simp only [Option.some.injEq]

/-- A removed item changes the links of its neighbours only. -/
theorem get_remove (r : Roster) (links : Links) (hx : y ≠ x) (prev : (links.get x).prev ≠ some y)
    (next : (links.get x).next ≠ some y) : (r.remove links x).2.get y = links.get y := by
  unfold Roster.remove
  dsimp only
  rw [Table.get_set_ne _ _ (Ne.symm hx)]
  cases before : (links.get x).prev with
  | none =>
    cases after : (links.get x).next with
    | none => rfl
    | some b =>
      dsimp only
      rw [Table.get_modify, if_neg fun he => next (after.trans (congrArg some he))]
  | some a =>
    have first : (links.modify a fun l => { l with next := (links.get x).next }).get y =
        links.get y := by
      rw [Table.get_modify, if_neg fun he => prev (before.trans (congrArg some he))]
    cases after : (links.get x).next with
    | none =>
      rw [after] at first
      exact first
    | some b =>
      rw [after] at first
      dsimp only
      rw [Table.get_modify, if_neg fun he => next (after.trans (congrArg some he)), first]

namespace Holds

theorem nil : Holds {} links [] := ⟨rfl, rfl, .nil, trivial⟩

theorem pushBack (h : Holds r links xs) (fresh : x ∉ xs) :
    Holds (r.pushBack links x).1 (r.pushBack links x).2 (xs ++ [x]) := by
  have nodup : (xs ++ [x]).Nodup := by
    refine List.nodup_append.mpr ⟨h.nodup, by simp, ?_⟩
    intro a ha b hb he
    subst he
    exact fresh (List.mem_singleton.mp hb ▸ ha)
  have kept : Linked (links.set x { prev := r.last, next := none }) none xs none :=
    h.linked.congr fun y hy => by
      rw [Table.get_set, if_neg]
      intro he
      subst he
      exact fresh hy
  have last := h.last
  unfold Roster.pushBack
  cases at_end : xs.getLast? with
  | none =>
    cases List.getLast?_eq_none_iff.mp at_end
    rw [at_end] at last
    simp only [last]
    exact ⟨rfl, rfl, nodup, by simp [Linked]⟩
  | some l =>
    rw [at_end] at last
    simp only [last] at kept ⊢
    refine ⟨?_, by simp, nodup, linked_append.mpr ⟨kept.relast h.nodup at_end, ?_, trivial⟩⟩
    · rw [h.first, List.head?_append]
      cases xs with
      | nil => cases at_end
      | cons y ys => rfl
    · have : l ≠ x := by
        intro he
        subst he
        exact fresh (List.mem_of_getLast? at_end)
      simp [Table.get_modify, this, at_end]

theorem remove (h : Holds r links (pre ++ x :: post)) :
    Holds (r.remove links x).1 (r.remove links x).2 (pre ++ post) := by
  obtain ⟨before, -, after⟩ := linked_append.mp h.linked
  obtain ⟨pre_nodup, rest_nodup, apart⟩ := List.nodup_append.mp h.nodup
  obtain ⟨fresh, post_nodup⟩ := List.nodup_cons.mp rest_nodup
  have link := h.linked.link
  rw [Option.or_none, Option.or_none] at link
  have front : ∀ p, pre.getLast? = some p →
      Linked (links.modify p fun l => { l with next := post.head? }) none pre post.head? ∧
      Linked (links.modify p fun l => { l with next := post.head? }) (some x) post none := by
    intro p hp
    refine ⟨before.relast pre_nodup hp, after.congr fun y hy => ?_⟩
    rw [Table.get_modify, if_neg]
    exact apart p (List.mem_of_getLast? hp) y (List.mem_cons_of_mem x hy)
  have back : ∀ links₁ n, post.head? = some n → Linked links₁ none pre (some n) →
      Linked links₁ (some x) post none →
      Linked (links₁.modify n fun l => { l with prev := pre.getLast? }) none pre (some n) ∧
      Linked (links₁.modify n fun l => { l with prev := pre.getLast? }) pre.getLast? post none := by
    intro links₁ n hn before₁ after₁
    refine ⟨before₁.congr fun y hy => ?_, after₁.refirst post_nodup hn⟩
    rw [Table.get_modify, if_neg]
    exact (apart y hy n (List.mem_cons_of_mem x (List.mem_of_head? hn))).symm
  have finish : ∀ links₂, Linked links₂ none pre post.head? →
      Linked links₂ pre.getLast? post none →
      Linked (links₂.set x {}) none (pre ++ post) none := by
    intro links₂ before₂ after₂
    have whole : Linked links₂ none (pre ++ post) none :=
      linked_append.mpr ⟨by rwa [Option.or_none], by rwa [Option.or_none]⟩
    refine whole.congr fun y hy => ?_
    rw [Table.get_set, if_neg]
    intro he
    subst he
    rcases List.mem_append.mp hy with hp | hp
    · exact apart x hp x List.mem_cons_self rfl
    · exact fresh hp
  have nodup : (pre ++ post).Nodup :=
    h.nodup.sublist (List.Sublist.append (.refl _) (List.sublist_cons_self x post))
  have at_start : ∀ p, pre.getLast? = some p → r.first = (pre ++ post).head? := by
    intro p hp
    rw [h.first]
    cases pre with
    | nil => cases hp
    | cons y ys => rfl
  have at_end : ∀ n, post.head? = some n → r.last = (pre ++ post).getLast? := by
    intro n hn
    rw [h.last]
    cases post with
    | nil => cases hn
    | cons y ys => simp [List.getLast?_append, List.getLast?_cons]
  unfold Roster.remove
  simp only [link]
  cases hp : pre.getLast? with
  | none =>
    cases List.getLast?_eq_none_iff.mp hp
    cases hn : post.head? with
    | none =>
      cases List.head?_eq_none_iff.mp hn
      exact ⟨rfl, rfl, nodup, trivial⟩
    | some n =>
      have relinked := back links n hn trivial after
      exact ⟨hn.symm, at_end n hn, nodup, finish _ trivial relinked.2⟩
  | some p =>
    obtain ⟨before₁, after₁⟩ := front p hp
    cases hn : post.head? with
    | none =>
      cases List.head?_eq_none_iff.mp hn
      rw [hn] at before₁
      exact ⟨at_start p hp, by simp [hp], nodup, finish _ before₁ trivial⟩
    | some n =>
      rw [hn] at before₁ after₁
      obtain ⟨before₂, after₂⟩ := back _ n hn before₁ after₁
      rw [hp] at before₂ after₂
      exact ⟨at_start p hp, at_end n hn, nodup,
        finish _ (by rw [hn]; exact before₂) (by rw [hp]; exact after₂)⟩

theorem moveToBack (h : Holds r links (pre ++ x :: post)) :
    Holds (r.moveToBack links x).1 (r.moveToBack links x).2 (pre ++ post ++ [x]) := by
  have fresh : x ∉ pre ++ post := by
    have := (List.nodup_cons.mp (List.perm_middle.nodup_iff.mp h.nodup)).1
    exact this
  unfold Roster.moveToBack
  split
  · rename_i last
    have none_after : post = [] := by
      rw [h.last] at last
      rcases List.eq_nil_or_concat post with hp | ⟨init, y, hp⟩
      · exact hp
      · subst hp
        have ends : pre ++ x :: (init ++ [y]) = (pre ++ x :: init) ++ [y] := by simp
        rw [List.concat_eq_append, ends, List.getLast?_concat] at last
        cases last
        exact absurd (by simp) fresh
    subst none_after
    simpa using h
  · exact h.remove.pushBack fresh

theorem last_mem (h : Holds r links xs) (last : r.last = some y) : y ∈ xs :=
  List.mem_of_getLast? (h.last.symm.trans last)

/-- Removing a member leaves the links of all that are not in the roster. -/
theorem get_remove (h : Holds r links (pre ++ x :: post)) (other : y ∉ pre ++ x :: post) :
    (r.remove links x).2.get y = links.get y := by
  have hx : y ≠ x := by
    intro he
    subst he
    exact other (by simp)
  have link := h.linked.link
  rw [Option.or_none, Option.or_none] at link
  refine Roster.get_remove r links hx ?_ ?_
  · rw [link]
    intro last
    exact other (List.mem_append_left _ (List.mem_of_getLast? last))
  · rw [link]
    intro first
    exact other (List.mem_append_right _ (List.mem_cons_of_mem x (List.mem_of_head? first)))

/-- Moving a member leaves the links of all others that are in no roster alone. -/
theorem get_moveToBack (h : Holds r links (pre ++ x :: post)) (other : y ∉ pre ++ x :: post) :
    (r.moveToBack links x).2.get y = links.get y := by
  have hx : y ≠ x := by
    intro he
    subst he
    exact other (by simp)
  unfold Roster.moveToBack
  split
  · rfl
  · have removed := h.get_remove other
    change ((r.remove links x).1.pushBack (r.remove links x).2 x).2.get y = links.get y
    rw [get_pushBack _ _ hx, if_neg, removed]
    intro last
    rcases List.mem_append.mp (h.remove.last_mem last) with hp | hp
    · exact other (List.mem_append_left _ hp)
    · exact other (List.mem_append_right _ (List.mem_cons_of_mem x hp))

theorem walk_eq {bound : Nat} (h : Linked links p xs none) (room : xs.length ≤ bound) :
    walk links bound xs.head? = xs := by
  induction xs generalizing p bound with
  | nil => cases bound <;> rfl
  | cons x xs ih =>
    cases bound with
    | zero => simp at room
    | succ bound =>
      have rest := ih h.2 (Nat.le_of_succ_le_succ room)
      simp only [List.head?_cons, walk, h.1, Option.or_none, rest]

theorem toList_eq (h : Holds r links xs) (room : xs.length ≤ links.size) :
    r.toList links = xs := by
  unfold toList
  rw [h.first]
  exact walk_eq h.linked room

end Holds

end TaskKernel.Roster
