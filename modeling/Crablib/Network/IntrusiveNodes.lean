import Crablib.Library.Rings

/-! `intrusive_list.hpp` down to its pointers. A list is a node of its own, its
content; the nodes of the user's objects carry no reference to a list. A function
that dereferences a null pointer is `none`. -/
namespace Crablib
open Rings

/-- The nodes in memory: that of a list, and those that are part of an object. -/
inductive NodeAddress (ι ν : Type) where
  | content (list : ι)
  | link (node : ν)
  deriving DecidableEq

variable {ι ν : Type} [DecidableEq ι] [DecidableEq ν]

abbrev Nodes (ι ν : Type) := Links (NodeAddress ι ν)

namespace IntrusiveNode

def inList (m : Nodes ι ν) (node : NodeAddress ι ν) : Bool := (m.prev node).isSome

def unlink (m : Nodes ι ν) (node : NodeAddress ι ν) : Option (Nodes ι ν) :=
  if (m.prev node).isNone then some m
  else do
    let m := m.setPrev (← m.next node) (m.prev node)
    let m := m.setNext (← m.prev node) (m.next node)
    return (m.setPrev node none).setNext node none

/-- `~IntrusiveNode`. A node that is made at the same place later starts unlinked, which
is how this one ends. -/
def destroy (m : Nodes ι ν) (node : NodeAddress ι ν) : Option (Nodes ι ν) := unlink m node

end IntrusiveNode

/-- It points to the node in front of its element. -/
structure IntrusiveIterator (ι ν : Type) where
  current : NodeAddress ι ν
  deriving DecidableEq

namespace IntrusiveIterator

def deref (m : Nodes ι ν) (it : IntrusiveIterator ι ν) : Option (NodeAddress ι ν) := m.next it.current

def increment (m : Nodes ι ν) (it : IntrusiveIterator ι ν) : Option (IntrusiveIterator ι ν) :=
  (m.next it.current).map IntrusiveIterator.mk

def decrement (m : Nodes ι ν) (it : IntrusiveIterator ι ν) : Option (IntrusiveIterator ι ν) :=
  (m.prev it.current).map IntrusiveIterator.mk

inductive Move where
  | increment
  | decrement

def move (m : Nodes ι ν) (it : IntrusiveIterator ι ν) : Move → Option (IntrusiveIterator ι ν)
  | .increment => it.increment m
  | .decrement => it.decrement m

/-- An iterator that walks. -/
def walk (m : Nodes ι ν) : IntrusiveIterator ι ν → List Move → Option (IntrusiveIterator ι ν)
  | it, [] => some it
  | it, first :: moves => (it.move m first).bind fun next => next.walk m moves

/-- The loop from one iterator to another one, with the objects it visits; `none` also
when the passes do not suffice. -/
def visit (m : Nodes ι ν) (stop : IntrusiveIterator ι ν) : Nat → IntrusiveIterator ι ν →
      Option (List (NodeAddress ι ν))
  | 0, _ => none
  | passes + 1, it =>
    if it = stop then some []
    else do
      let object ← it.deref m
      let visited ← visit m stop passes (← it.increment m)
      return object :: visited

end IntrusiveIterator

namespace IntrusiveNodes
open IntrusiveNode

/-- The memory when no node is linked yet and all lists are made. -/
def constructed : Nodes ι ν where
  next
    | .content list => some (.content list)
    | .link _ => none
  prev
    | .content list => some (.content list)
    | .link _ => none

def begin (list : ι) : IntrusiveIterator ι ν := ⟨.content list⟩

def end_ (m : Nodes ι ν) (list : ι) : Option (IntrusiveIterator ι ν) :=
  (m.prev (.content list)).map IntrusiveIterator.mk

def empty (m : Nodes ι ν) (list : ι) : Bool := m.prev (.content list) == some (.content list)

def front (m : Nodes ι ν) (list : ι) : Option (NodeAddress ι ν) := (begin list).deref m

def back (m : Nodes ι ν) (list : ι) : Option (NodeAddress ι ν) := do
  (← (← end_ m list).decrement m).deref m

/-- NOP if already in some list. -/
def insert (m : Nodes ι ν) (pos : IntrusiveIterator ι ν) (node : ν) : Option (Nodes ι ν) :=
  let other : NodeAddress ι ν := .link node
  if inList m other then some m
  else do
    let m := m.setNext other (m.next pos.current)
    let m := m.setPrev other (some pos.current)
    let m := m.setPrev (← m.next pos.current) (some other)
    return m.setNext pos.current (some other)

def pushBack (m : Nodes ι ν) (list : ι) (node : ν) : Option (Nodes ι ν) := do
  insert m (← end_ m list) node

def pushFront (m : Nodes ι ν) (list : ι) (node : ν) : Option (Nodes ι ν) := insert m (begin list) node

/-- What is done with lists and nodes. The iterator of an insertion is found by walking
from the beginning of a list. -/
inductive ListOp (ι ν : Type) where
  | pushBack (list : ι) (node : ν)
  | pushFront (list : ι) (node : ν)
  | insert (list : ι) (moves : List IntrusiveIterator.Move) (node : ν)
  | unlink (node : ν)
  | destroy (node : ν)

def perform (m : Nodes ι ν) : ListOp ι ν → Option (Nodes ι ν)
  | .pushBack list node => pushBack m list node
  | .pushFront list node => pushFront m list node
  | .insert list moves node => do insert m (← (begin list).walk m moves) node
  | .unlink node => IntrusiveNode.unlink m (.link node)
  | .destroy node => IntrusiveNode.destroy m (.link node)

def performAll (ops : List (ListOp ι ν)) : Option (Nodes ι ν) := ops.foldlM perform constructed

end IntrusiveNodes
end Crablib
