import TaskKernel.Table

namespace TaskKernel

structure Link where
  prev : Option Nat := none
  next : Option Nat := none
  deriving DecidableEq, Inhabited

abbrev Links := Table Link

structure Roster where
  first : Option Nat := none
  last : Option Nat := none
  deriving DecidableEq, Inhabited

namespace Roster

def isEmpty (r : Roster) : Bool := r.first.isNone

def pushBack (r : Roster) (links : Links) (item : Nat) : Roster × Links :=
  let links := links.set item { prev := r.last, next := none }
  match r.last with
  | some last =>
    ({ r with last := some item }, links.modify last fun l => { l with next := some item })
  | none => ({ first := some item, last := some item }, links)

def remove (r : Roster) (links : Links) (item : Nat) : Roster × Links :=
  let link := links.get item
  let front := match link.prev with
    | some prev => (r.first, links.modify prev fun l => { l with next := link.next })
    | none => (link.next, links)
  let back := match link.next with
    | some next => (r.last, front.2.modify next fun l => { l with prev := link.prev })
    | none => (link.prev, front.2)
  ({ first := front.1, last := back.1 }, back.2.set item {})

def moveToBack (r : Roster) (links : Links) (item : Nat) : Roster × Links :=
  if r.last = some item then (r, links)
  else
    let (r, links) := r.remove links item
    r.pushBack links item

def walk (links : Links) : Nat → Option Nat → List Nat
  | 0, _ => []
  | _, none => []
  | bound + 1, some item => item :: walk links bound (links.get item).next

/-- The members from first to last. A roster has no more members than the table holds links. -/
def toList (r : Roster) (links : Links) : List Nat := walk links links.size r.first

end Roster

end TaskKernel
