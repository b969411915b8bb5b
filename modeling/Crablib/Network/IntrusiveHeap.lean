import Mathlib.Logic.Function.Basic

/-! The intrusive binary heap of `intrusive_heap.hpp`. The vector `storage` is
the function `storage` below position `size`; each node stores its own position
in `heap_index`, and position 0 means the node is in no heap. -/
namespace Crablib

structure IntrusiveHeap (ι : Type) where
  /-- `storage[0]` is the null pointer that keeps real positions above 0. -/
  storage : Nat → Option ι := fun _ => none
  size : Nat := 1
  heapIndex : ι → Nat := fun _ => 0

namespace IntrusiveHeap
variable {ι : Type} [DecidableEq ι]

/-- `Pred{}(*a, *b)`. No reachable comparison dereferences a null pointer;
ordering null below every node keeps the comparison a strict weak order. -/
def less (pred : ι → ι → Bool) : Option ι → Option ι → Bool
  | some a, some b => pred a b
  | none, some _ => true
  | _, none => false

def empty (h : IntrusiveHeap ι) : Bool := h.size == 1

def front (h : IntrusiveHeap ι) : Option ι := h.storage 1

/-- `at(ind) = node; (at(ind)->*Index).heap_index = ind`. -/
def place (h : IntrusiveHeap ι) (ind : Nat) (node : Option ι) : IntrusiveHeap ι :=
  { h with
    storage := Function.update h.storage ind node
    heapIndex := match node with
      | some x => Function.update h.heapIndex x ind
      | none => h.heapIndex }

/-- The loop of `move_up`. Every pass halves `ind`, so `ind` passes are enough. -/
def moveUpLoop (pred : ι → ι → Bool) (data : Option ι) :
    Nat → IntrusiveHeap ι → Nat → IntrusiveHeap ι
  | 0, h, ind => h.place ind data
  | passes + 1, h, ind =>
    let p := ind / 2
    if p = 0 ∨ less pred data (h.storage p) then h.place ind data
    else moveUpLoop pred data passes (h.place ind (h.storage p)) p

def moveUp (pred : ι → ι → Bool) (h : IntrusiveHeap ι) (ind : Nat) : IntrusiveHeap ι :=
  moveUpLoop pred (h.storage ind) ind h ind

/-- The child `move_down` compares against: the right one when it exists and
the left one is below it. -/
def largerChild (pred : ι → ι → Bool) (h : IntrusiveHeap ι) (ind : Nat) : Nat :=
  let lc := ind * 2
  if lc + 1 < h.size ∧ less pred (h.storage lc) (h.storage (lc + 1)) then lc + 1 else lc

/-- The loop of `move_down`. Every pass at least doubles `ind`, so `size`
passes are enough. -/
def moveDownLoop (pred : ι → ι → Bool) (data : Option ι) :
    Nat → IntrusiveHeap ι → Nat → IntrusiveHeap ι
  | 0, h, ind => h.place ind data
  | passes + 1, h, ind =>
    if h.size ≤ ind * 2 then h.place ind data
    else
      let lc := h.largerChild pred ind
      if less pred (h.storage lc) data then h.place ind data
      else moveDownLoop pred data passes (h.place ind (h.storage lc)) lc

def moveDown (pred : ι → ι → Bool) (h : IntrusiveHeap ι) (ind : Nat) : IntrusiveHeap ι :=
  moveDownLoop pred (h.storage ind) h.size h ind

def adjust (pred : ι → ι → Bool) (h : IntrusiveHeap ι) (ind : Nat) : IntrusiveHeap ι :=
  if ind > 1 ∧ !less pred (h.storage ind) (h.storage (ind / 2)) then h.moveUp pred ind
  else h.moveDown pred ind

def insert (pred : ι → ι → Bool) (h : IntrusiveHeap ι) (node : ι) : Bool × IntrusiveHeap ι :=
  if h.heapIndex node ≠ 0 then (false, h)
  else
    let pushed := { h with
      storage := Function.update h.storage h.size (some node)
      size := h.size + 1 }
    (true, pushed.moveUp pred (pushed.size - 1))

/-- The part `erase` and `pop_front` share: forget the node, move the last
pointer into its place and shorten the vector. -/
def takeOut (h : IntrusiveHeap ι) (node : ι) (ind : Nat) : IntrusiveHeap ι :=
  { storage := Function.update h.storage ind (h.storage (h.size - 1))
    size := h.size - 1
    heapIndex := Function.update h.heapIndex node 0 }

def erase (pred : ι → ι → Bool) (h : IntrusiveHeap ι) (node : ι) : Nat × IntrusiveHeap ι :=
  let ind := h.heapIndex node
  if ind = 0 then (0, h)
  else
    let rest := h.takeOut node ind
    (1, if ind < rest.size then rest.adjust pred ind else rest)

/-- Callers never pop an empty heap; there `at(1)` is out of range. -/
def popFront (pred : ι → ι → Bool) (h : IntrusiveHeap ι) : IntrusiveHeap ι :=
  match h.storage 1 with
  | none => h
  | some node =>
    let rest := h.takeOut node 1
    if 1 < rest.size then rest.moveDown pred 1 else rest

end IntrusiveHeap
end Crablib
