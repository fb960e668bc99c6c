import Mathlib.Data.List.Perm.Subperm
import TaskKernel.Proofs.Schedule.Roster

namespace TaskKernel.Roster

/-- Any number of rosters over one table of links. -/
structure Bank where
  rosters : Table Roster := {}
  links : Links

abbrev Members := Nat → List Nat

inductive Edit
  | pushBack (roster item : Nat)
  | remove (roster item : Nat)
  | moveToBack (roster item : Nat)

namespace Edit

def roster : Edit → Nat
  | pushBack r _ | remove r _ | moveToBack r _ => r

def item : Edit → Nat
  | pushBack _ x | remove _ x | moveToBack _ x => x

def operate (r : Roster) (links : Links) : Edit → Roster × Links
  | pushBack _ x => r.pushBack links x
  | remove _ x => r.remove links x
  | moveToBack _ x => r.moveToBack links x

def relist (xs : List Nat) : Edit → List Nat
  | pushBack _ x => xs ++ [x]
  | remove _ x => xs.erase x
  | moveToBack _ x => xs.erase x ++ [x]

def rearrange (members : Members) (e : Edit) : Members := fun r =>
  if r = e.roster then e.relist (members r) else members r

/-- Appended items are in no roster, removed and moved ones in the roster that is edited. -/
def Allowed (size : Nat) (members : Members) : Edit → Prop
  | pushBack _ x => x < size ∧ ∀ r, x ∉ members r
  | remove r x | moveToBack r x => x ∈ members r

end Edit

def Allowed (size : Nat) : Members → List Edit → Prop
  | _, [] => True
  | members, e :: edits => e.Allowed size members ∧ Allowed size (e.rearrange members) edits

namespace Bank

def apply (b : Bank) (e : Edit) : Bank :=
  let edited := e.operate (b.rosters.get e.roster) b.links
  ⟨b.rosters.set e.roster edited.1, edited.2⟩

structure Reads (b : Bank) (members : Members) : Prop where
  apart : ∀ r s, r ≠ s → (members r).Disjoint (members s)
  nodup : ∀ r, (members r).Nodup
  first : ∀ r, (b.rosters.get r).first = (members r).head?
  last : ∀ r, (b.rosters.get r).last = (members r).getLast?
  forth : ∀ r, Path (fun x => (b.links.get x).next) (b.rosters.get r).first (members r)
  back : ∀ r, Path (fun x => (b.links.get x).prev) (b.rosters.get r).last (members r).reverse
  listed : ∀ r, (b.rosters.get r).toList b.links = members r
  empty : ∀ r, (b.rosters.get r).isEmpty ↔ members r = []
  ends : ∀ r, ∀ x ∈ members r,
    ((b.links.get x).prev = none → (b.rosters.get r).first = some x) ∧
    ((b.links.get x).next = none → (b.rosters.get r).last = some x)

structure Holds (b : Bank) (size : Nat) (members : Members) : Prop where
  roster : ∀ r, Roster.Holds (b.rosters.get r) b.links (members r)
  apart : ∀ r s, r ≠ s → (members r).Disjoint (members s)
  inside : ∀ r, ∀ x ∈ members r, x < size
  sized : b.links.size = size

end Bank

variable {r : Roster} {links : Links} {xs pre post : List Nat} {x y size : Nat} {e : Edit}
  {edits : List Edit} {b : Bank} {members : Members}

theorem size_set_of_lt (hx : x < links.size) (l : Link) : (links.set x l).size = links.size := by
  rw [Table.size_set]
  omega

theorem size_modify_of_lt (hx : x < links.size) (f : Link → Link) :
    (links.modify x f).size = links.size := by
  rw [Table.size_modify]
  omega

namespace Holds

theorem isEmpty_iff (h : Holds r links xs) : r.isEmpty ↔ xs = [] := by
  rw [Roster.isEmpty, h.first, Option.isNone_iff_eq_none, List.head?_eq_none_iff]

/-- Only the first member has none before it, only the last one none after it. -/
theorem ends (h : Holds r links xs) (hx : x ∈ xs) :
    ((links.get x).prev = none → r.first = some x) ∧
    ((links.get x).next = none → r.last = some x) := by
  obtain ⟨pre, post, rfl⟩ := List.append_of_mem hx
  have link := h.linked.link
  rw [Option.or_none, Option.or_none] at link
  rw [link, h.first, h.last]
  constructor
  · intro none_before
    rw [List.getLast?_eq_none_iff.mp none_before, List.nil_append, List.head?_cons]
  · intro none_after
    rw [List.head?_eq_none_iff.mp none_after, List.getLast?_concat]

/-- Edits of other rosters leave this one. -/
theorem congr {links' : Links} (h : Holds r links xs)
    (same : ∀ x ∈ xs, links'.get x = links.get x) : Holds r links' xs :=
  ⟨h.first, h.last, h.nodup, h.linked.congr same⟩

theorem size_pushBack (h : Holds r links xs) (inside : ∀ y ∈ xs, y < links.size)
    (hx : x < links.size) : (r.pushBack links x).2.size = links.size := by
  unfold Roster.pushBack
  cases last : r.last with
  | none => exact size_set_of_lt hx _
  | some l =>
    have set := size_set_of_lt hx { prev := some l, next := none }
    have hl : l < (links.set x { prev := some l, next := none }).size := by
      rw [set]
      exact inside l (h.last_mem last)
    exact (size_modify_of_lt hl _).trans set

theorem size_remove (h : Holds r links (pre ++ x :: post))
    (inside : ∀ y ∈ pre ++ x :: post, y < links.size) :
    (r.remove links x).2.size = links.size := by
  have link := h.linked.link
  rw [Option.or_none, Option.or_none] at link
  have front : ∀ p, pre.getLast? = some p → p < links.size := fun p hp =>
    inside p (List.mem_append_left _ (List.mem_of_getLast? hp))
  have back : ∀ n, post.head? = some n → n < links.size := fun n hn =>
    inside n (List.mem_append_right _ (List.mem_cons_of_mem x (List.mem_of_head? hn)))
  have hx : x < links.size := inside x (by simp)
  unfold Roster.remove
  simp only [link]
  cases hp : pre.getLast? with
  | none =>
    cases hn : post.head? with
    | none => exact size_set_of_lt hx _
    | some n =>
      have after := size_modify_of_lt (back n hn) fun l => { l with prev := none }
      exact (size_set_of_lt (by rw [after]; exact hx) _).trans after
  | some p =>
    have before := size_modify_of_lt (front p hp) fun l => { l with next := post.head? }
    cases hn : post.head? with
    | none =>
      rw [hn] at before
      exact (size_set_of_lt (by rw [before]; exact hx) _).trans before
    | some n =>
      rw [hn] at before
      have next : n < (links.modify p fun l => { l with next := some n }).size := by
        rw [before]
        exact back n hn
      have after := size_modify_of_lt next fun l => { l with prev := some p }
      have both := after.trans before
      exact (size_set_of_lt (by rw [both]; exact hx) _).trans both

theorem size_moveToBack (h : Holds r links (pre ++ x :: post))
    (inside : ∀ y ∈ pre ++ x :: post, y < links.size) :
    (r.moveToBack links x).2.size = links.size := by
  unfold Roster.moveToBack
  split
  · rfl
  · have removed := h.size_remove inside
    have rest : ∀ y ∈ pre ++ post, y < (r.remove links x).2.size := by
      intro y hy
      rw [removed]
      refine inside y ?_
      rcases List.mem_append.mp hy with hp | hp
      · exact List.mem_append_left _ hp
      · exact List.mem_append_right _ (List.mem_cons_of_mem x hp)
    have hx : x < (r.remove links x).2.size := by
      rw [removed]
      exact inside x (by simp)
    exact (h.remove.size_pushBack rest hx).trans removed

end Holds

namespace Edit

def Suits (size : Nat) (xs : List Nat) : Edit → Prop
  | pushBack _ x => x < size ∧ x ∉ xs
  | remove _ x | moveToBack _ x => x ∈ xs

theorem Allowed.suits (h : e.Allowed size members) : e.Suits size (members e.roster) := by
  cases e with
  | pushBack r x => exact ⟨h.1, h.2 r⟩
  | remove r x => exact h
  | moveToBack r x => exact h

theorem Allowed.foreign (h : e.Allowed size members)
    (apart : ∀ r s, r ≠ s → (members r).Disjoint (members s)) {r : Nat} (hr : r ≠ e.roster) :
    e.item ∉ members r := by
  cases e with
  | pushBack s x => exact h.2 r
  | remove s x => exact fun hx => apart r s hr hx h
  | moveToBack s x => exact fun hx => apart r s hr hx h

theorem Suits.lt (h : e.Suits size xs) (inside : ∀ y ∈ xs, y < size) : e.item < size := by
  cases e with
  | pushBack _ x => exact h.1
  | remove _ x => exact inside x h
  | moveToBack _ x => exact inside x h

/-- An edit brings in its item only. -/
theorem mem_relist (h : y ∈ e.relist xs) : y = e.item ∨ y ∈ xs := by
  cases e with
  | pushBack _ x =>
    rcases List.mem_append.mp h with hy | hy
    · exact .inr hy
    · exact .inl (List.mem_singleton.mp hy)
  | remove _ x => exact .inr (List.mem_of_mem_erase h)
  | moveToBack _ x =>
    rcases List.mem_append.mp h with hy | hy
    · exact .inr (List.mem_of_mem_erase hy)
    · exact .inl (List.mem_singleton.mp hy)

theorem holds_operate (h : Holds r links xs) (suits : e.Suits size xs) :
    Holds (e.operate r links).1 (e.operate r links).2 (e.relist xs) := by
  cases e with
  | pushBack _ x => exact h.pushBack suits.2
  | remove _ x =>
    obtain ⟨pre, post, rfl⟩ := List.append_of_mem suits
    rw [relist, erase_split h.nodup]
    exact h.remove
  | moveToBack _ x =>
    obtain ⟨pre, post, rfl⟩ := List.append_of_mem suits
    rw [relist, erase_split h.nodup]
    exact h.moveToBack

theorem size_operate (h : Holds r links xs) (suits : e.Suits links.size xs)
    (inside : ∀ y ∈ xs, y < links.size) : (e.operate r links).2.size = links.size := by
  cases e with
  | pushBack _ x => exact h.size_pushBack inside suits.1
  | remove _ x =>
    obtain ⟨pre, post, rfl⟩ := List.append_of_mem suits
    exact h.size_remove inside
  | moveToBack _ x =>
    obtain ⟨pre, post, rfl⟩ := List.append_of_mem suits
    exact h.size_moveToBack inside

/-- The links of items that are neither edited nor in the roster stay as they are. -/
theorem get_operate (h : Holds r links xs) (suits : e.Suits size xs) (other : y ∉ xs)
    (hx : y ≠ e.item) : (e.operate r links).2.get y = links.get y := by
  cases e with
  | pushBack _ x =>
    refine (get_pushBack r links hx).trans (if_neg ?_)
    exact fun last => other (h.last_mem last)
  | remove _ x =>
    obtain ⟨pre, post, rfl⟩ := List.append_of_mem suits
    exact h.get_remove other
  | moveToBack _ x =>
    obtain ⟨pre, post, rfl⟩ := List.append_of_mem suits
    exact h.get_moveToBack other

end Edit

namespace Bank.Holds

theorem length_le (h : b.Holds size members) (r : Nat) : (members r).length ≤ size := by
  have within : members r ⊆ List.range size := fun x hx =>
    List.mem_range.mpr (h.inside r x hx)
  have := (List.Nodup.subperm (h.roster r).nodup within).length_le
  rwa [List.length_range] at this

theorem reads (h : b.Holds size members) : b.Reads members where
  apart := h.apart
  nodup r := (h.roster r).nodup
  first r := (h.roster r).first
  last r := (h.roster r).last
  forth r := by
    rw [(h.roster r).first]
    exact (h.roster r).linked.path
  back r := by
    have back := (h.roster r).linked.path_back .nil
    rwa [Option.or_none, List.append_nil, ← (h.roster r).last] at back
  listed r := (h.roster r).toList_eq (by rw [h.sized]; exact h.length_le r)
  empty r := (h.roster r).isEmpty_iff
  ends r _ hx := (h.roster r).ends hx

theorem empty (links : Links) : Holds { links } links.size fun _ => [] where
  roster _ := .nil
  apart _ _ _ := List.disjoint_nil_left _
  inside _ _ hx := absurd hx List.not_mem_nil
  sized := rfl

/-- An edit of one roster keeps the links of the members of all others. -/
theorem get_apply (h : b.Holds size members) (allowed : e.Allowed size members)
    (other : y ∉ members e.roster) (hx : y ≠ e.item) :
    (b.apply e).links.get y = b.links.get y :=
  Edit.get_operate (h.roster e.roster) allowed.suits other hx

theorem apply (h : b.Holds size members) (allowed : e.Allowed size members) :
    (b.apply e).Holds size (e.rearrange members) where
  roster r := by
    unfold Edit.rearrange
    by_cases hr : r = e.roster
    · subst hr
      rw [if_pos rfl, Bank.apply, Table.get_set_self]
      exact Edit.holds_operate (h.roster e.roster) allowed.suits
    · rw [if_neg hr]
      have kept : (b.apply e).rosters.get r = b.rosters.get r :=
        Table.get_set_ne _ _ (Ne.symm hr)
      rw [kept]
      refine (h.roster r).congr fun x hx => h.get_apply allowed (h.apart r _ hr hx) ?_
      intro he
      subst he
      exact allowed.foreign h.apart hr hx
  apart r s hrs := by
    -- of two rosters at most one is edited, and it gains an item that is in no other
    have gains : ∀ t, t ≠ e.roster → (e.relist (members e.roster)).Disjoint (members t) := by
      intro t ht x hx hxt
      rcases Edit.mem_relist hx with he | hx
      · subst he
        exact allowed.foreign h.apart ht hxt
      · exact h.apart _ t ht.symm hx hxt
    unfold Edit.rearrange
    by_cases hr : r = e.roster
    · subst hr
      rw [if_pos rfl, if_neg hrs.symm]
      exact gains s hrs.symm
    · by_cases hs : s = e.roster
      · subst hs
        rw [if_neg hr, if_pos rfl]
        exact List.disjoint_symm (gains r hr)
      · rw [if_neg hr, if_neg hs]
        exact h.apart r s hrs
  inside r x hx := by
    unfold Edit.rearrange at hx
    split at hx
    · rename_i hr
      subst hr
      rcases Edit.mem_relist hx with he | hx
      · subst he
        exact allowed.suits.lt (h.inside e.roster)
      · exact h.inside e.roster x hx
    · exact h.inside r x hx
  sized := by
    have sized := h.sized
    subst sized
    exact Edit.size_operate (h.roster e.roster) allowed.suits (h.inside e.roster)

/-- A whole sequence of edits. -/
theorem run (h : b.Holds size members) (allowed : Allowed size members edits) :
    (edits.foldl Bank.apply b).Holds size (edits.foldl Edit.rearrange members) := by
  induction edits generalizing b members with
  | nil => exact h
  | cons e edits ih => exact ih (h.apply allowed.1) allowed.2

end Bank.Holds

/-- Whatever edits are made on rosters that share the links, each roster reads as the list of its
members. An edit changes no link of an item that is neither edited nor in the edited roster, and a
removed item is left unlinked. -/
theorem Bank.refines (links : Links) (allowed : Allowed links.size (fun _ => []) edits) :
    let b := edits.foldl Bank.apply { links }
    let members := edits.foldl Edit.rearrange fun _ => []
    b.Reads members ∧ b.links.size = links.size ∧
      ∀ e : Edit, e.Allowed links.size members →
        (b.apply e).Reads (e.rearrange members) ∧
        (∀ y, y ∉ members e.roster → y ≠ e.item → (b.apply e).links.get y = b.links.get y) ∧
        ∀ r x, e = .remove r x → (b.apply e).links.get x = {} := by
  intro b members
  have h : b.Holds links.size members := (Holds.empty links).run allowed
  refine ⟨h.reads, h.sized, fun e next => ⟨(h.apply next).reads, ?_, ?_⟩⟩
  · exact fun y other hx => h.get_apply next other hx
  · rintro r x rfl
    exact Table.get_set_self _ _ _

/-- Two rosters in turn: the moved item is the last one, the other roster is empty again. -/
theorem Bank.refines_interleaved :
    let links : Links := ⟨#[{}, {}, {}]⟩
    let edits := [.pushBack 0 0, .pushBack 1 1, .pushBack 0 2, .moveToBack 0 0, .remove 1 1]
    let b := edits.foldl Bank.apply { links }
    Allowed 3 (fun _ => []) edits ∧ (b.rosters.get 0).toList b.links = [2, 0] ∧
      (b.rosters.get 1).isEmpty := by
  intro links edits b
  have allowed : Allowed 3 (fun _ => []) edits := by
    simp only [edits, Allowed, Edit.Allowed, Edit.rearrange, Edit.relist, Edit.roster]
    refine ⟨by simp, ⟨by decide, ?_⟩, ⟨by decide, ?_⟩, by simp, by simp, trivial⟩ <;>
    · rintro (_ | _ | r) <;> simp
  have read := (Bank.refines links allowed).1
  exact ⟨allowed, read.listed 0, (read.empty 1).mpr rfl⟩

end TaskKernel.Roster
