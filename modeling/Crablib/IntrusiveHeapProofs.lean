import Crablib.Library.Sift
import Crablib.Network.IntrusiveHeap
import Mathlib.Data.Set.Insert

/-! The intrusive heap keeps its representation under every operation: the
stored positions and the vector agree, and the order of `Sift` holds. The loops
of the source carry the moved node in a local variable, so their invariants are
stated about the heap with that node written back into the hole. -/
namespace Crablib.IntrusiveHeapProofs
open IntrusiveHeap Sift

variable {ι : Type} {pred : ι → ι → Bool} {h : IntrusiveHeap ι}

/-- Comparing pointers through `less` is a strict weak order whenever `Pred` is. -/
theorem less_strict_weak (order : StrictWeak pred) : StrictWeak (less pred) where
  asymm := by
    rintro (_ | a) (_ | b) below
    · cases below
    · rfl
    · cases below
    · exact order.asymm below
  cotrans := by
    rintro (_ | a) (_ | b) (_ | c) below
    all_goals first | cases below; done | skip
    · exact .inr rfl
    · exact .inl rfl
    · exact .inr rfl
    · exact order.cotrans c below

/-- Vector and stored positions agree: position 0 is null, every other position
holds a node that knows it, and a node with a position is stored there. -/
structure Linked (h : IntrusiveHeap ι) : Prop where
  null : h.storage 0 = none
  nonempty : 1 ≤ h.size
  held : ∀ i, 0 < i → i < h.size → ∃ x, h.storage i = some x ∧ h.heapIndex x = i
  indexed : ∀ x, h.heapIndex x ≠ 0 → h.heapIndex x < h.size ∧ h.storage (h.heapIndex x) = some x

/-- The representation invariant of the heap under one comparison. -/
structure Valid (pred : ι → ι → Bool) (h : IntrusiveHeap ι) : Prop where
  linked : Linked h
  ordered : Ordered (less pred) h.size h.storage

/-- The nodes in the heap: those with a position. -/
def Members (h : IntrusiveHeap ι) : Set ι := {x | h.heapIndex x ≠ 0}

@[simp] theorem mem_members (x : ι) : x ∈ Members h ↔ h.heapIndex x ≠ 0 := Iff.rfl

theorem empty_valid : Valid pred ({} : IntrusiveHeap ι) where
  linked := ⟨rfl, le_rfl, fun i positive inside => by simp at inside; omega,
    fun x held => by simp at held⟩
  ordered := fun i low inside => by simp at inside; omega

/-- The front of a nonempty heap is a member that is below no other member. -/
theorem front_max (order : StrictWeak pred) (valid : Valid pred h) (nonempty : h.empty = false) :
    ∃ x, h.front = some x ∧ x ∈ Members h ∧ ∀ y ∈ Members h, pred x y = false := by
  have more : 1 < h.size := by
    have := valid.linked.nonempty
    simp only [empty, beq_eq_false_iff_ne] at nonempty
    omega
  obtain ⟨x, stored, position⟩ := valid.linked.held 1 (by omega) more
  refine ⟨x, stored, by simp [position], ?_⟩
  intro y member
  obtain ⟨inside, found⟩ := valid.linked.indexed y member
  have max := valid.ordered.root_max (less_strict_weak order) (h.heapIndex y)
    (Nat.pos_of_ne_zero member) inside
  rwa [stored, found] at max

/-- Validity only depends on how the members compare, so a key that is not in
the heap may change freely. -/
theorem valid_congr {other : ι → ι → Bool} (valid : Valid pred h)
    (same : ∀ x ∈ Members h, ∀ y ∈ Members h, pred x y = other x y) : Valid other h := by
  refine ⟨valid.linked, fun i low inside => ?_⟩
  have kept := valid.ordered i low inside
  obtain ⟨x, stored, position⟩ := valid.linked.held i (by omega) inside
  obtain ⟨y, above, aboveAt⟩ := valid.linked.held (i / 2) (by omega) (by omega)
  rw [stored, above] at kept ⊢
  simp only [less] at kept ⊢
  rwa [← same y (by simp only [mem_members]; omega) x (by simp only [mem_members]; omega)]

variable [DecidableEq ι]

@[simp] theorem place_size (ind : Nat) (node : Option ι) : (h.place ind node).size = h.size := rfl

@[simp] theorem place_storage (ind : Nat) (node : Option ι) :
    (h.place ind node).storage = Function.update h.storage ind node := rfl

@[simp] theorem place_index (ind : Nat) (x : ι) :
    (h.place ind (some x)).heapIndex = Function.update h.heapIndex x ind := rfl

/-- Writing the neighbour into the hole and the travelling node into the
neighbour's place exchanges the two, for the vector and the positions alike. -/
theorem place_exchange {x : ι} {ind other : Nat} (linked : Linked (h.place ind (some x)))
    (positive : 0 < ind) (inside : ind < h.size) (otherPositive : 0 < other)
    (otherInside : other < h.size) (apart : other ≠ ind) :
    Linked ((h.place ind (h.storage other)).place other (some x)) ∧
      ((h.place ind (h.storage other)).place other (some x)).storage =
        swap (h.place ind (some x)).storage ind other ∧
      Members ((h.place ind (h.storage other)).place other (some x)) =
        Members (h.place ind (some x)) := by
  obtain ⟨y, stored, position⟩ := linked.held other otherPositive otherInside
  have known : (h.place ind (some x)).heapIndex x = ind := by simp
  have distinct : y ≠ x := by
    rintro rfl
    exact apart (position.symm.trans known)
  simp only [place_storage, Function.update_of_ne apart] at stored
  simp only [place_index, Function.update_of_ne distinct] at position
  simp only [stored]
  have held := linked.held
  have indexed := linked.indexed
  have null := linked.null
  simp only [place_storage, place_index, place_size] at held indexed null
  refine ⟨⟨?_, linked.nonempty, ?_, ?_⟩, ?_, ?_⟩
  · simp only [place_storage]
    grind [Function.update_apply]
  · intro i low high
    simp only [place_storage, place_index, place_size] at high ⊢
    have := held i low high
    grind [Function.update_apply]
  · intro z known
    have := indexed z
    simp only [place_storage, place_index, place_size] at known ⊢
    grind [Function.update_apply]
  · funext i
    by_cases first : i = ind
    · subst first
      simp [Function.update_of_ne apart.symm, Function.update_of_ne apart, stored]
    · by_cases second : i = other
      · subst second
        simp
      · simp [swap_other _ first second, Function.update_of_ne first, Function.update_of_ne second]
  · ext z
    simp only [mem_members, place_index]
    grind [Function.update_apply]

/-- The result every sift has: a valid heap of the same size holding the same
nodes as the heap it was started on with the node written back. -/
def Settles (pred : ι → ι → Bool) (start result : IntrusiveHeap ι) : Prop :=
  Valid pred result ∧ result.size = start.size ∧ Members result = Members start

theorem moveUpLoop_settles (order : StrictWeak pred) {x : ι} (passes ind : Nat)
    (enough : ind ≤ passes) (positive : 0 < ind) (inside : ind < h.size)
    (linked : Linked (h.place ind (some x)))
    (state : UpOrdered (less pred) h.size (h.place ind (some x)).storage ind) :
    Settles pred (h.place ind (some x)) (moveUpLoop pred (some x) passes h ind) := by
  have weak := less_strict_weak order
  induction passes generalizing h ind with
  | zero => omega
  | succ passes ih =>
    simp only [moveUpLoop]
    split
    · rename_i stops
      refine ⟨⟨linked, state.finish weak fun deep => ?_⟩, rfl, rfl⟩
      have parent : ind / 2 ≠ ind := by omega
      rcases stops with root | below
      · omega
      · simpa [Function.update_of_ne parent] using below
    · rename_i moves
      simp only [not_or, Bool.not_eq_true] at moves
      have deep : 2 ≤ ind := by omega
      have parent : ind / 2 ≠ ind := by omega
      obtain ⟨relinked, exchanged, members⟩ :=
        place_exchange linked positive inside (by omega : 0 < ind / 2) (by omega) parent
      have stepped := state.step weak deep inside
        (by simpa [Function.update_of_ne parent] using moves.2)
      rw [← exchanged] at stepped
      obtain ⟨valid, size, same⟩ := ih (h := h.place ind (h.storage (ind / 2))) (ind / 2) (by omega)
        (by omega) (by simp only [place_size]; omega) relinked stepped
      exact ⟨valid, size, same.trans members⟩

theorem moveUp_settles (order : StrictWeak pred) {x : ι} {ind : Nat} (positive : 0 < ind)
    (inside : ind < h.size) (stored : h.storage ind = some x)
    (linked : Linked (h.place ind (some x)))
    (state : UpOrdered (less pred) h.size (h.place ind (some x)).storage ind) :
    Settles pred (h.place ind (some x)) (h.moveUp pred ind) := by
  unfold moveUp
  rw [stored]
  exact moveUpLoop_settles order ind ind le_rfl positive inside linked state

omit [DecidableEq ι] in
private theorem largerChild_spec (ind : Nat) (inside : ind * 2 < h.size) :
    h.largerChild pred ind / 2 = ind ∧ h.largerChild pred ind < h.size ∧
      (∀ (_ : StrictWeak pred) i, i < h.size → i / 2 = ind → i ≠ h.largerChild pred ind → 0 < ind →
        less pred (h.storage (h.largerChild pred ind)) (h.storage i) = false) := by
  unfold largerChild
  dsimp only
  split
  · rename_i right
    refine ⟨by omega, right.1, ?_⟩
    intro order i high under other _
    obtain rfl : i = ind * 2 := by omega
    exact (less_strict_weak order).asymm right.2
  · rename_i left
    refine ⟨by omega, inside, ?_⟩
    intro order i high under other _
    obtain rfl : i = ind * 2 + 1 := by omega
    simpa [high] using left

theorem moveDownLoop_settles (order : StrictWeak pred) {x : ι} (passes ind : Nat)
    (enough : h.size ≤ ind + passes) (positive : 0 < ind) (inside : ind < h.size)
    (linked : Linked (h.place ind (some x)))
    (state : DownOrdered (less pred) h.size (h.place ind (some x)).storage ind) :
    Settles pred (h.place ind (some x)) (moveDownLoop pred (some x) passes h ind) := by
  have weak := less_strict_weak order
  induction passes generalizing h ind with
  | zero => omega
  | succ passes ih =>
    simp only [moveDownLoop]
    split
    · rename_i leaf
      exact ⟨⟨linked, state.finish fun i high under low => by omega⟩, rfl, rfl⟩
    · rename_i inner
      obtain ⟨under, childInside, largest⟩ := largerChild_spec (h := h) ind (by omega)
      generalize h.largerChild pred ind = child at under childInside largest
      have apart : child ≠ ind := by omega
      have largest' : ∀ i, i < h.size → i / 2 = ind → i ≠ child →
          less pred ((h.place ind (some x)).storage child) ((h.place ind (some x)).storage i) =
            false := by
        intro i high below other
        have elsewhere : i ≠ ind := by omega
        simpa [Function.update_of_ne apart, Function.update_of_ne elsewhere] using
          largest order i high below other positive
      split
      · rename_i stops
        refine ⟨⟨linked, state.finish fun i high below low => ?_⟩, rfl, rfl⟩
        have first : less pred ((h.place ind (some x)).storage ind)
            ((h.place ind (some x)).storage child) = false := by
          simpa [Function.update_of_ne apart] using weak.asymm stops
        by_cases self : i = child
        · subst self
          exact first
        · exact weak.not_lt_trans first (largest' i high below self)
      · rename_i moves
        obtain ⟨relinked, exchanged, members⟩ :=
          place_exchange linked positive inside (by omega : 0 < child) childInside apart
        have stepped := state.step positive under childInside
          (by simpa [Function.update_of_ne apart] using moves) largest'
        rw [← exchanged] at stepped
        obtain ⟨valid, size, same⟩ := ih (h := h.place ind (h.storage child)) child
          (by simp only [place_size]; omega) (by omega) childInside relinked stepped
        exact ⟨valid, size, same.trans members⟩

theorem moveDown_settles (order : StrictWeak pred) {x : ι} {ind : Nat} (positive : 0 < ind)
    (inside : ind < h.size) (stored : h.storage ind = some x)
    (linked : Linked (h.place ind (some x)))
    (state : DownOrdered (less pred) h.size (h.place ind (some x)).storage ind) :
    Settles pred (h.place ind (some x)) (h.moveDown pred ind) := by
  unfold moveDown
  rw [stored]
  exact moveDownLoop_settles order h.size ind (by omega) positive inside linked state

/-- Inserting a node that is in no heap adds exactly that node; inserting one
that already has a position changes nothing. -/
theorem insert_spec (order : StrictWeak pred) (valid : Valid pred h) (x : ι) :
    ((h.insert pred x).1 = true ↔ x ∉ Members h) ∧ Valid pred (h.insert pred x).2 ∧
      Members (h.insert pred x).2 = insert x (Members h) := by
  unfold IntrusiveHeap.insert
  split
  · rename_i known
    exact ⟨by simpa using known, valid, (Set.insert_eq_of_mem known).symm⟩
  · rename_i unknown
    simp only [not_not] at unknown
    have linked := valid.linked
    have notStored : ∀ i, i < h.size → h.storage i ≠ some x := by
      intro i inside stored
      by_cases root : i = 0
      · rw [root, linked.null] at stored
        cases stored
      · obtain ⟨y, found, position⟩ := linked.held i (by omega) inside
        rw [found] at stored
        cases stored
        omega
    let pushed : IntrusiveHeap ι :=
      { h with storage := Function.update h.storage h.size (some x), size := h.size + 1 }
    have nonempty := linked.nonempty
    have pushedLinked : Linked (pushed.place h.size (some x)) := by
      refine ⟨?_, by simp [pushed], ?_, ?_⟩
      · simpa [pushed, Function.update_of_ne (show (0 : Nat) ≠ h.size by omega)] using linked.null
      · intro i low high
        simp only [place_size, pushed] at high
        have := linked.held i low
        have := notStored i
        simp only [place_storage, place_index, pushed]
        grind [Function.update_apply]
      · intro z position
        have := linked.indexed z
        simp only [place_storage, place_index, place_size, pushed] at position ⊢
        grind [Function.update_apply]
    have state : UpOrdered (less pred) pushed.size (pushed.place h.size (some x)).storage h.size := by
      refine valid.ordered.push fun i inside => ?_
      simp [pushed, Function.update_of_ne (show i ≠ h.size by omega)]
    obtain ⟨done, size, members⟩ := moveUp_settles order (h := pushed) (by omega)
      (by simp [pushed]) (by simp [pushed]) pushedLinked state
    refine ⟨by simpa using unknown, by simpa [pushed] using done, ?_⟩
    change Members (pushed.moveUp pred (pushed.size - 1)) = _
    rw [show pushed.size - 1 = h.size by simp [pushed], members]
    ext z
    simp only [mem_members, place_index, pushed, Set.mem_insert_iff]
    grind [Function.update_apply]

/-- What `takeOut` leaves: the last node stands in the place of the one taken
out, whose own position is forgotten. -/
private theorem takeOut_linked (linked : Linked h) {x last : ι} {ind : Nat}
    (stored : h.storage ind = some x) (position : h.heapIndex x = ind) (positive : 0 < ind)
    (inside : ind < h.size - 1) (end_ : h.storage (h.size - 1) = some last) :
    Linked ((h.takeOut x ind).place ind (some last)) ∧
      Members ((h.takeOut x ind).place ind (some last)) = Members h \ {x} := by
  have lastAt : h.heapIndex last = h.size - 1 := by
    obtain ⟨y, found, known⟩ := linked.held (h.size - 1) (by omega) (by omega)
    rw [end_] at found
    cases found
    exact known
  have held := linked.held
  have indexed := linked.indexed
  have apart : last ≠ x := by
    rintro rfl
    omega
  refine ⟨⟨?_, ?_, ?_, ?_⟩, ?_⟩
  · simpa [takeOut, Function.update_of_ne (show (0 : Nat) ≠ ind by omega)] using linked.null
  · simp only [place_size, takeOut]
    omega
  · intro i low high
    simp only [place_size, takeOut] at high
    have := held i low
    simp only [place_storage, place_index, takeOut]
    grind [Function.update_apply]
  · intro z known
    have := indexed z
    simp only [place_storage, place_index, place_size, takeOut] at known ⊢
    grind [Function.update_apply]
  · ext z
    simp only [mem_members, place_index, takeOut, Set.mem_sdiff, Set.mem_singleton_iff]
    grind [Function.update_apply]

/-- Taking out the last node needs no sift. -/
private theorem takeOut_last (valid : Valid pred h) {x : ι} {ind : Nat}
    (stored : h.storage ind = some x) (position : h.heapIndex x = ind) (positive : 0 < ind)
    (last : ind = h.size - 1) :
    Valid pred (h.takeOut x ind) ∧ Members (h.takeOut x ind) = Members h \ {x} := by
  have nonempty := valid.linked.nonempty
  have unchanged : (h.takeOut x ind).storage = h.storage := by
    simp only [takeOut, ← last]
    exact Function.update_eq_self ind h.storage
  refine ⟨⟨⟨?_, ?_, ?_, ?_⟩, ?_⟩, ?_⟩
  · rw [unchanged]
    exact valid.linked.null
  · simp only [takeOut]
    omega
  · intro i low high
    simp only [takeOut] at high
    obtain ⟨y, found, known⟩ := valid.linked.held i low (by omega)
    refine ⟨y, by rw [unchanged]; exact found, ?_⟩
    have apart : y ≠ x := by
      rintro rfl
      omega
    simpa [takeOut, Function.update_of_ne apart] using known
  · intro z known
    have apart : z ≠ x := by
      rintro rfl
      simp [takeOut] at known
    simp only [takeOut, Function.update_of_ne apart] at known ⊢
    obtain ⟨inside, found⟩ := valid.linked.indexed z known
    have elsewhere : h.heapIndex z ≠ ind := by
      intro same
      rw [same, stored] at found
      exact apart (Option.some.inj found).symm
    exact ⟨by omega, by simpa [Function.update_of_ne elsewhere] using found⟩
  · intro i low high
    rw [unchanged]
    simp only [takeOut] at high
    exact valid.ordered i low (by omega)
  · ext z
    simp only [mem_members, takeOut, Set.mem_sdiff, Set.mem_singleton_iff]
    grind [Function.update_apply]

/-- Away from the hole, the vector left by `takeOut` is the old one. -/
private theorem takeOut_same {x last : ι} {ind : Nat} (i : Nat) (elsewhere : i ≠ ind) :
    ((h.takeOut x ind).place ind (some last)).storage i = h.storage i := by
  simp [takeOut, Function.update_of_ne elsewhere]

/-- Adjusting the node moved into the hole restores the order, whichever way it
has to go. -/
private theorem adjust_settles (order : StrictWeak pred) (valid : Valid pred h) {x last : ι} {ind : Nat}
    (stored : h.storage ind = some x) (position : h.heapIndex x = ind) (positive : 0 < ind)
    (inside : ind < h.size - 1) (end_ : h.storage (h.size - 1) = some last) :
    Settles pred ((h.takeOut x ind).place ind (some last)) ((h.takeOut x ind).adjust pred ind) := by
  obtain ⟨linked, -⟩ := takeOut_linked valid.linked stored position positive inside end_
  have weak := less_strict_weak order
  have whole : Ordered (less pred) (h.size - 1 + 1) h.storage := by
    rw [Nat.sub_add_cancel valid.linked.nonempty]
    exact valid.ordered
  have hole : (h.takeOut x ind).storage ind = some last := by simp [takeOut, end_]
  unfold adjust
  split
  · rename_i rises
    simp only [Bool.not_eq_eq_eq_not, Bool.not_true] at rises
    have parent : ind / 2 ≠ ind := by omega
    refine moveUp_settles order positive inside hole linked
      (whole.replace_up weak (fun i _ elsewhere => takeOut_same i elsewhere) (by omega) inside ?_)
    rw [hole] at rises
    simpa [Function.update_of_ne parent] using rises.2
  · rename_i sinks
    refine moveDown_settles order positive inside hole linked
      (whole.replace_down weak (fun i _ elsewhere => takeOut_same i elsewhere) positive inside ?_)
    intro deep
    have parent : ind / 2 ≠ ind := by omega
    rw [hole] at sinks
    simpa [Function.update_of_ne parent, show 1 < ind by omega] using sinks

/-- Erasing removes exactly the given node, and answers whether it was there. -/
theorem erase_spec (order : StrictWeak pred) (valid : Valid pred h) (x : ι) :
    (h.erase pred x).1 = (if h.heapIndex x = 0 then 0 else 1) ∧ Valid pred (h.erase pred x).2 ∧
      Members (h.erase pred x).2 = Members h \ {x} := by
  unfold erase
  dsimp only
  split
  · rename_i absent
    refine ⟨rfl, valid, ?_⟩
    ext z
    simp only [mem_members, Set.mem_sdiff, Set.mem_singleton_iff]
    grind
  · rename_i known
    obtain ⟨inside, stored⟩ := valid.linked.indexed x known
    have positive := Nat.pos_of_ne_zero known
    split
    · rename_i inner
      change h.heapIndex x < h.size - 1 at inner
      obtain ⟨last, end_, -⟩ := valid.linked.held (h.size - 1) (by omega) (by omega)
      obtain ⟨done, -, members⟩ := adjust_settles order valid stored rfl positive inner end_
      exact ⟨rfl, done, members.trans (takeOut_linked valid.linked stored rfl positive inner end_).2⟩
    · rename_i outer
      change ¬ h.heapIndex x < h.size - 1 at outer
      exact ⟨rfl, takeOut_last valid stored rfl positive (by omega)⟩

/-- Popping removes exactly the front node. -/
theorem popFront_spec (order : StrictWeak pred) (valid : Valid pred h) {x : ι}
    (front : h.front = some x) (nonempty : h.empty = false) :
    Valid pred (h.popFront pred) ∧ Members (h.popFront pred) = Members h \ {x} ∧
      (h.popFront pred).size + 1 = h.size := by
  have more : 1 < h.size := by
    have := valid.linked.nonempty
    simp only [empty, beq_eq_false_iff_ne] at nonempty
    omega
  have stored : h.storage 1 = some x := front
  have position : h.heapIndex x = 1 := by
    obtain ⟨y, found, known⟩ := valid.linked.held 1 (by omega) more
    rw [stored] at found
    cases found
    exact known
  simp only [popFront, stored]
  split
  · rename_i inner
    change 1 < h.size - 1 at inner
    obtain ⟨last, end_, -⟩ := valid.linked.held (h.size - 1) (by omega) (by omega)
    obtain ⟨linked, members⟩ := takeOut_linked valid.linked stored position (by omega) inner end_
    have whole : Ordered (less pred) (h.size - 1 + 1) h.storage := by
      rw [Nat.sub_add_cancel valid.linked.nonempty]
      exact valid.ordered
    obtain ⟨done, size, same⟩ := moveDown_settles order (by omega) inner
      (by simp [takeOut, end_]) linked
      (whole.replace_down (less_strict_weak order) (fun i _ elsewhere => takeOut_same i elsewhere)
        (by omega) inner (by omega))
    refine ⟨done, same.trans members, ?_⟩
    rw [size]
    change h.size - 1 + 1 = h.size
    omega
  · rename_i outer
    change ¬ 1 < h.size - 1 at outer
    obtain ⟨done, members⟩ := takeOut_last valid stored position (by omega) (by omega)
    exact ⟨done, members, by change h.size - 1 + 1 = h.size; omega⟩

section Runs

/-- The heaps that calls lead to from the empty one, each with the nodes that were
inserted and not yet removed. Only a heap that is not empty may be popped. -/
inductive Reached (pred : ι → ι → Bool) : IntrusiveHeap ι → Set ι → Prop where
  | start : Reached pred {} ∅
  | insert {h : IntrusiveHeap ι} {nodes : Set ι} (reached : Reached pred h nodes) (x : ι) :
      Reached pred (h.insert pred x).2 (insert x nodes)
  | erase {h : IntrusiveHeap ι} {nodes : Set ι} (reached : Reached pred h nodes) (x : ι) :
      Reached pred (h.erase pred x).2 (nodes \ {x})
  | popFront {h : IntrusiveHeap ι} {nodes : Set ι} (reached : Reached pred h nodes)
      (nonempty : h.empty = false) : Reached pred (h.popFront pred) {x ∈ nodes | h.front ≠ some x}

/-- The heap stands for a set of nodes. -/
structure Represents (pred : ι → ι → Bool) (h : IntrusiveHeap ι) (nodes : Set ι) : Prop where
  null : h.storage 0 = none
  stored : ∀ i, 1 ≤ i → i < h.size → ∃ x ∈ nodes, h.storage i = some x
  once : ∀ x ∈ nodes, ∃! i, (1 ≤ i ∧ i < h.size) ∧ h.storage i = some x
  index : ∀ i, 1 ≤ i → i < h.size → ∀ x, h.storage i = some x → h.heapIndex x = i
  outside : ∀ x, h.heapIndex x = 0 ↔ x ∉ nodes
  ordered : ∀ i, 2 ≤ i → i < h.size → ∀ parent child, h.storage (i / 2) = some parent →
    h.storage i = some child → pred parent child = false
  max : h.empty = false → ∃ x ∈ nodes, h.front = some x ∧ ∀ y ∈ nodes, pred x y = false
  inserts : ∀ x, (h.insert pred x).1 = false ↔ x ∈ nodes
  erases : ∀ x, (h.erase pred x).1 = 1 ↔ x ∈ nodes

private theorem reached_valid (order : StrictWeak pred) {nodes : Set ι}
    (reached : Reached pred h nodes) :
    Valid pred h ∧ Members h = nodes := by
  induction reached with
  | start => exact ⟨empty_valid, by ext x; simp⟩
  | insert reached x ih =>
    obtain ⟨valid, rfl⟩ := ih
    exact (insert_spec order valid x).2
  | erase reached x ih =>
    obtain ⟨valid, rfl⟩ := ih
    exact (erase_spec order valid x).2
  | @popFront h nodes reached nonempty ih =>
    obtain ⟨valid, rfl⟩ := ih
    obtain ⟨x, front, -, -⟩ := front_max order valid nonempty
    obtain ⟨valid', members, -⟩ := popFront_spec order valid front nonempty
    refine ⟨valid', members.trans ?_⟩
    ext y
    simp only [Set.mem_sdiff, Set.mem_singleton_iff, front, ne_eq, Option.some.injEq,
      Set.mem_ofPred_eq, eq_comm]

omit [DecidableEq ι] in
/-- A valid heap holds each member at its position and nowhere else. -/
private theorem position_unique (valid : Valid pred h) {x : ι} (member : x ∈ Members h) :
    ∃! i, (1 ≤ i ∧ i < h.size) ∧ h.storage i = some x := by
  obtain ⟨inside, found⟩ := valid.linked.indexed x member
  refine ⟨h.heapIndex x, ⟨⟨Nat.pos_of_ne_zero member, inside⟩, found⟩, ?_⟩
  rintro i ⟨⟨low, high⟩, stored⟩
  obtain ⟨y, held, position⟩ := valid.linked.held i low high
  rw [stored] at held
  cases held
  exact position.symm

/-- Whatever is inserted, erased and popped in whatever order, the heap represents
the nodes that were inserted and not yet removed. -/
theorem heap_represents (order : StrictWeak pred) {nodes : Set ι} (reached : Reached pred h nodes) :
    Represents pred h nodes := by
  obtain ⟨valid, rfl⟩ := reached_valid order reached
  have linked := valid.linked
  refine
    { null := linked.null
      stored := fun i low high => ?_
      once := fun x member => position_unique valid member
      index := fun i low high x stored => ?_
      outside := fun x => by simp
      ordered := fun i deep high parent child above below => ?_
      max := fun nonempty => ?_
      inserts := fun x => ?_
      erases := fun x => ?_ }
  · obtain ⟨x, stored, position⟩ := linked.held i low high
    exact ⟨x, by simp only [mem_members]; omega, stored⟩
  · obtain ⟨y, held, position⟩ := linked.held i low high
    rw [stored] at held
    cases held
    exact position
  · have kept := valid.ordered i deep high
    rwa [above, below] at kept
  · obtain ⟨x, front, member, max⟩ := front_max order valid nonempty
    exact ⟨x, member, front, max⟩
  · have answer := (insert_spec order valid x).1
    rw [← Bool.not_eq_true, answer, not_not]
  · rw [(erase_spec order valid x).1]
    by_cases absent : h.heapIndex x = 0 <;> simp [absent]

private def below (a b : Nat) : Bool := decide (a < b)

theorem heap_represents_two :
    Represents below (((({} : IntrusiveHeap Nat).insert below 4).2.insert below 9).2.erase below
      9).2 (insert 9 (insert 4 ∅) \ {9}) := by
  refine heap_represents ⟨?_, ?_⟩ (((Reached.start.insert 4).insert 9).erase 9)
  · intro a b first
    simp only [below, decide_eq_true_eq, decide_eq_false_iff_not] at first ⊢
    omega
  · intro a b c first
    simp only [below, decide_eq_true_eq] at first ⊢
    omega

end Runs

end Crablib.IntrusiveHeapProofs
