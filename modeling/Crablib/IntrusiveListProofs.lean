import Crablib.Network.IntrusiveList
import Crablib.Network.IntrusiveNodes
import Mathlib.Data.List.InsertIdx

/-! The lists of `intrusive_list.hpp` are sequences: whatever is linked and unlinked,
the pointers of the nodes form one ring for each list, and every operation does to
the sequences what its name says. -/
namespace Crablib.IntrusiveListProofs
open Rings IntrusiveNode IntrusiveIterator IntrusiveNodes

variable {ι ν : Type}

section Sequences

variable [DecidableEq ι] [DecidableEq ν]

/-- The objects of every list, first one first. -/
abbrev Sequences (ι ν : Type) := ι → List ν

/-- Some list has the object. -/
def Held (lists : Sequences ι ν) (node : ν) : Prop := ∃ list, node ∈ lists list

open Classical in
/-- An object that is in no list becomes the one behind the first `k` of a list. -/
noncomputable def insertAt (lists : Sequences ι ν) (list : ι) (k : Nat) (node : ν) : Sequences ι ν :=
  if Held lists node then lists
  else fun other => if other = list then (lists list).insertIdx k node else lists other

/-- How many objects are in front of an iterator that has walked. Behind the last one it
begins again. -/
def position (length : Nat) : Nat → List Move → Nat
  | k, [] => k
  | k, .increment :: moves => position length (if k = length then 0 else k + 1) moves
  | k, .decrement :: moves => position length (if k = 0 then length else k - 1) moves

/-- What an operation does to the sequences. -/
noncomputable def performed (lists : Sequences ι ν) : ListOp ι ν → Sequences ι ν
  | .pushBack list node => insertAt lists list (lists list).length node
  | .pushFront list node => insertAt lists list 0 node
  | .insert list moves node => insertAt lists list (position (lists list).length 0 moves) node
  | .unlink node => fun list => IntrusiveList.unlink (lists list) node
  | .destroy node => fun list => IntrusiveList.unlink (lists list) node

noncomputable def sequences (ops : List (ListOp ι ν)) : Sequences ι ν := ops.foldl performed fun _ => []

/-- A list whose objects are in no other list is what the run loop takes it for. -/
theorem performed_pushBack {lists : Sequences ι ν} {list : ι} {node : ν}
    (apart : ∀ other, other ≠ list → node ∉ lists other) :
    performed lists (.pushBack list node) list = IntrusiveList.pushBack (lists list) node := by
  have held : Held lists node ↔ node ∈ lists list := by
    constructor
    · rintro ⟨other, member⟩
      by_cases same : other = list
      · exact same ▸ member
      · exact absurd member (apart other same)
    · exact fun member => ⟨list, member⟩
  by_cases member : node ∈ lists list
  · simp [performed, insertAt, IntrusiveList.pushBack, held, member]
  · simp [performed, insertAt, IntrusiveList.pushBack, held, member]

end Sequences

section Walking

variable {m : Nodes ι ν} {c : NodeAddress ι ν} {xs : List (NodeAddress ι ν)} {k : Nat}

theorem position_le {length : Nat} (within : k ≤ length) (moves : List Move) :
    position length k moves ≤ length := by
  induction moves generalizing k with
  | nil => exact within
  | cons first moves ih =>
    cases first with
    | increment =>
      apply ih
      split <;> omega
    | decrement =>
      apply ih
      split <;> omega

private theorem move_place (ring : Ring m c xs) (within : k ≤ xs.length) (first : Move) :
    (IntrusiveIterator.mk (place c xs k)).move m first =
      some ⟨place c xs (position xs.length k [first])⟩ := by
  cases first with
  | increment =>
    have next := (ring.linked k within).1
    simp only [move, increment, next, Option.map_some, position]
    split
    · rename_i last
      rw [last, place_end, place_zero]
    · rfl
  | decrement =>
    simp only [move, decrement, position]
    split
    · rename_i first
      rw [first, place_zero, ring.prev_first]
      rfl
    · obtain ⟨i, rfl⟩ : ∃ i, k = i + 1 := ⟨k - 1, by omega⟩
      have prev := (ring.linked i (by omega)).2
      rw [prev]
      rfl

/-- An iterator stays on the ring. -/
theorem walk_place (ring : Ring m c xs) (within : k ≤ xs.length) (moves : List Move) :
    (IntrusiveIterator.mk (place c xs k)).walk m moves =
      some ⟨place c xs (position xs.length k moves)⟩ := by
  induction moves generalizing k with
  | nil => rfl
  | cons first moves ih =>
    rw [walk, move_place ring within first, Option.bind_some, ih (position_le within [first])]
    cases first <;> rfl

/-- The loop visits the cells behind its start in order. -/
theorem visit_place [DecidableEq ι] [DecidableEq ν] (ring : Ring m c xs)
    (within : k ≤ xs.length) {passes : Nat} (enough : xs.length < passes + k) :
    visit m ⟨place c xs xs.length⟩ passes ⟨place c xs k⟩ = some (xs.drop k) := by
  induction passes generalizing k with
  | zero => omega
  | succ passes ih =>
    unfold visit
    by_cases last : k = xs.length
    · subst last
      simp
    · have apart : place c xs k ≠ place c xs xs.length := fun same =>
        last (place_inj ring.distinct within (Nat.le_refl _) same)
      have inside : k < xs.length := by omega
      have next := (ring.linked k within).1
      have here : place c xs (k + 1) = xs[k] := place_succ (List.getElem?_eq_getElem inside)
      have later := ih (k := k + 1) inside (by omega)
      simp only [IntrusiveIterator.mk.injEq, apart, ↓reduceIte, deref, increment, next,
        Option.map_some, Option.bind_eq_bind, Option.bind_some, later]
      rw [here, List.drop_eq_getElem_cons inside]
      rfl

end Walking

section Pointers

variable {m : Nodes ι ν} {lists : Sequences ι ν} {list : ι} {node : ν}

/-- The nodes of a list as cells. -/
def cells (nodes : List ν) : List (NodeAddress ι ν) := nodes.map .link

/-- The pointers in memory are those of the sequences: a ring for each list, no object
in two of them, and null pointers in all other nodes. -/
structure Represents (m : Nodes ι ν) (lists : Sequences ι ν) : Prop where
  rings : ∀ list, Ring m (.content list) (cells (lists list))
  disjoint : ∀ list other node, node ∈ lists list → node ∈ lists other → list = other
  free : ∀ node, ¬Held lists node → m.next (.link node) = none ∧ m.prev (.link node) = none

private theorem link_mem_ring {nodes : List ν} :
    .link node ∈ NodeAddress.content list :: cells nodes ↔ node ∈ nodes := by
  simp [cells]

private theorem content_mem_ring {nodes : List ν} {other : ι} :
    .content other ∈ NodeAddress.content list :: cells nodes ↔ other = list := by
  simp [cells]

/-- No cell is in the rings of two lists. -/
private theorem Represents.apart (represents : Represents m lists) {other : ι} {a : NodeAddress ι ν}
    (here : a ∈ NodeAddress.content list :: cells (lists list))
    (there : a ∈ NodeAddress.content other :: cells (lists other)) :
    list = other := by
  cases a with
  | content l => exact (content_mem_ring.mp here).symm.trans (content_mem_ring.mp there)
  | link n => exact represents.disjoint list other n (link_mem_ring.mp here) (link_mem_ring.mp there)

theorem constructed_represents : Represents (constructed : Nodes ι ν) fun _ => [] where
  rings := fun list => Ring.empty rfl rfl
  disjoint := by
    intro list other node member
    cases member
  free := fun node _ => ⟨rfl, rfl⟩

/-- A node is in a list exactly if some sequence has its object. -/
theorem Represents.inList_iff (represents : Represents m lists) (node : ν) :
    inList m (.link node) = true ↔ Held lists node := by
  constructor
  · intro linked
    apply Classical.byContradiction
    intro free
    rw [inList, (represents.free node free).2] at linked
    cases linked
  · rintro ⟨list, member⟩
    obtain ⟨k, at_⟩ := List.mem_iff_getElem?.mp member
    obtain ⟨inside, -⟩ := List.getElem?_eq_some_iff.mp at_
    have linked := ((represents.rings list).linked k (by simp [cells]; omega)).2
    rw [place_succ (a := .link node) (by simp [cells, at_])] at linked
    rw [inList, linked]
    rfl

section Insertion

variable [DecidableEq ι]

private theorem insertAt_free (free : ¬Held lists node) {k : Nat} (other : ι) :
    insertAt lists list k node other = if other = list then (lists list).insertIdx k node
      else lists other := by
  simp [insertAt, free]

private theorem mem_insertAt (free : ¬Held lists node) {k : Nat}
    (within : k ≤ (lists list).length) {other : ι} {n : ν} :
    n ∈ insertAt lists list k node other ↔ n ∈ lists other ∨ other = list ∧ n = node := by
  rw [insertAt_free free]
  split
  · rename_i same
    rw [same, List.mem_insertIdx within]
    simp [or_comm]
  · rename_i apart
    simp [apart]

end Insertion

/-- A change around one object in one list leaves the rings of the others. -/
private theorem Represents.elsewhere (represents : Represents m lists) {m' : Nodes ι ν} {other : ι}
    (apart : other ≠ list) (absent : node ∉ lists other)
    (next : ∀ a, a ∉ NodeAddress.content list :: cells (lists list) →
      a ≠ .link node → m'.next a = m.next a)
    (prev : ∀ a, a ∉ NodeAddress.content list :: cells (lists list) → a ≠ .link node →
      m'.prev a = m.prev a) :
    Ring m' (.content other) (cells (lists other)) := by
  have outside : ∀ a ∈ NodeAddress.content other :: cells (lists other),
      a ∉ NodeAddress.content list :: cells (lists list) ∧ a ≠ .link node := by
    intro a member
    refine ⟨fun here => apart (represents.apart member here), ?_⟩
    rintro rfl
    exact absent (link_mem_ring.mp member)
  refine (represents.rings other).congr ?_ ?_
  · exact fun a member => next a (outside a member).1 (outside a member).2
  · exact fun a member => prev a (outside a member).1 (outside a member).2

variable [DecidableEq ι] [DecidableEq ν]

/-- The four pointer writes of an insertion. -/
private theorem insert_writes {p s : NodeAddress ι ν} (free : inList m (.link node) = false)
    (next : m.next p = some s) (front : p ≠ .link node) :
    ∃ m', IntrusiveNodes.insert m ⟨p⟩ node = some m' ∧
      (∀ a, m'.next a = if a = p then some (.link node) else if a = .link node then
        some s else m.next a) ∧
      ∀ a, m'.prev a = if a = s then some (.link node) else if a = .link node then
        some p else m.prev a :=
  ⟨(((m.setNext (.link node) (some s)).setPrev (.link node) (some p)).setPrev s
    (some (.link node))).setNext p
      (some (.link node)), by simp [IntrusiveNodes.insert, free, next, front],
      fun _ => rfl, fun _ => rfl⟩

/-- The pointer writes of an object that is taken out. -/
private theorem unlink_writes {p s : NodeAddress ι ν} (next : m.next (.link node) = some s)
    (prev : m.prev (.link node) = some p) :
    ∃ m', IntrusiveNode.unlink m (.link node) = some m' ∧
      (∀ a, m'.next a = if a = .link node then none else if a = p then some s else m.next a) ∧
      ∀ a, m'.prev a = if a = .link node then none else if a = s then some p else m.prev a :=
  ⟨(((m.setPrev s (some p)).setNext p (some s)).setPrev (.link node) none).setNext (.link node) none,
    by simp [IntrusiveNode.unlink, next, prev], fun _ => rfl, fun _ => rfl⟩

/-- An insertion behind a place of a ring. -/
theorem insert_represents (represents : Represents m lists) (node : ν) {k : Nat}
    (within : k ≤ (lists list).length) :
    ∃ m', IntrusiveNodes.insert m ⟨place (.content list) (cells (lists list)) k⟩ node = some m' ∧
      Represents m' (insertAt lists list k node) := by
  by_cases held : Held lists node
  · exact ⟨m, by simp [IntrusiveNodes.insert, represents.inList_iff, held], by
      simpa [insertAt, held] using represents⟩
  have absent : ∀ other, node ∉ lists other := fun other member => held ⟨other, member⟩
  have ring := represents.rings list
  have inside : k ≤ (cells (ι := ι) (lists list)).length := by simpa [cells] using within
  have linked := ring.linked k inside
  have fresh : .link node ∉ NodeAddress.content list :: cells (lists list) :=
    fun member => absent list (link_mem_ring.mp member)
  obtain ⟨p, place_p⟩ : ∃ p, p = place (NodeAddress.content list) (cells (lists list)) k := ⟨_, rfl⟩
  obtain ⟨s, place_s⟩ : ∃ s, s = place (NodeAddress.content list) (cells (lists list)) (k + 1) :=
    ⟨_, rfl⟩
  have front : p ∈ NodeAddress.content list :: cells (lists list) := place_p ▸ place_mem
  have behind : s ∈ NodeAddress.content list :: cells (lists list) := place_s ▸ place_mem
  have other : p ≠ .link node ∧ s ≠ .link node :=
    ⟨fun same => fresh (same ▸ front), fun same => fresh (same ▸ behind)⟩
  rw [← place_p, ← place_s] at linked
  have free : inList m (.link node) = false := by
    simpa using fun linked => held ((represents.inList_iff node).mp linked)
  rw [← place_p]
  obtain ⟨m', inserted, next, prev⟩ := insert_writes free linked.1 other.1
  refine ⟨m', inserted, ?_, ?_, ?_⟩
  · intro l
    rw [insertAt_free held]
    split
    · rename_i same
      subst same
      rw [cells, List.map_insertIdx]
      refine ring.insert inside fresh ?_ ?_ ?_ ?_
      · rw [← place_p]
        exact ⟨by simp [next], by simp [prev, other.2.symm]⟩
      · rw [← place_s]
        exact ⟨by simp [next, other.1.symm], by simp [prev]⟩
      · rw [← place_p]
        intro a apart apart'
        simp [next, apart, apart']
      · rw [← place_s]
        intro a apart apart'
        simp [prev, apart, apart']
    · rename_i apart
      refine represents.elsewhere apart (absent l) ?_ ?_
      · intro a outside apart'
        have apart'' : a ≠ p := fun same => outside (same ▸ front)
        simp [next, apart', apart'']
      · intro a outside apart'
        have apart'' : a ≠ s := fun same => outside (same ▸ behind)
        simp [prev, apart', apart'']
  · intro l l' n here there
    rw [mem_insertAt held within] at here there
    rcases here with here | ⟨rfl, rfl⟩
    · rcases there with there | ⟨rfl, rfl⟩
      · exact represents.disjoint l l' n here there
      · exact absurd here (absent l)
    · rcases there with there | ⟨rfl, -⟩
      · exact absurd there (absent l')
      · rfl
  · intro n free'
    have still : ¬Held lists n :=
      fun ⟨l, member⟩ => free' ⟨l, (mem_insertAt held within).mpr (.inl member)⟩
    have apart : n ≠ node := fun same => free' ⟨list, (mem_insertAt held within).mpr (.inr ⟨rfl, same⟩)⟩
    have outside : .link n ∉ NodeAddress.content list :: cells (lists list) :=
      fun member => still ⟨list, link_mem_ring.mp member⟩
    have apart' : .link n ≠ p ∧ .link n ≠ s :=
      ⟨fun same => outside (same ▸ front), fun same => outside (same ▸ behind)⟩
    have null := represents.free n still
    simp [next, prev, apart, apart', null]

/-- Taking out an object, from whichever list has it. -/
theorem unlink_represents (represents : Represents m lists) (node : ν) :
    ∃ m', IntrusiveNode.unlink m (.link node) = some m' ∧ Represents m' fun list =>
      IntrusiveList.unlink (lists list) node := by
  by_cases held : Held lists node
  · obtain ⟨list, member⟩ := held
    have ring := represents.rings list
    obtain ⟨k, inside, at_⟩ : ∃ k, k < (lists list).length ∧ (lists list)[k]? = some node := by
      obtain ⟨k, at_⟩ := List.mem_iff_getElem?.mp member
      exact ⟨k, (List.getElem?_eq_some_iff.mp at_).1, at_⟩
    have cell : (cells (ι := ι) (lists list))[k]? = some (.link node) := by simp [cells, at_]
    have length : (cells (ι := ι) (lists list)).length = (lists list).length := by simp [cells]
    have here : place (NodeAddress.content list) (cells (lists list)) (k + 1) = .link node :=
      place_succ cell
    obtain ⟨p, place_p⟩ : ∃ p, p = place (NodeAddress.content list) (cells (lists list)) k := ⟨_, rfl⟩
    obtain ⟨s, place_s⟩ : ∃ s, s = place (NodeAddress.content list) (cells (lists list)) (k + 2) :=
      ⟨_, rfl⟩
    have front : p ∈ NodeAddress.content list :: cells (lists list) := place_p ▸ place_mem
    have behind : s ∈ NodeAddress.content list :: cells (lists list) := place_s ▸ place_mem
    have other : p ≠ .link node ∧ s ≠ .link node := by
      rw [place_p, place_s, ← here]
      constructor
      · intro same
        have equal := place_inj ring.distinct (by omega) (by omega) same
        omega
      · intro same
        have equal := place_inj_behind ring.distinct (by omega) (by omega) same
        omega
    have before := (ring.linked k (by omega)).2
    have after := (ring.linked (k + 1) (by omega)).1
    rw [here, ← place_p] at before
    rw [here, ← place_s] at after
    obtain ⟨m', unlinked, next, prev⟩ := unlink_writes after before
    have absent : ∀ l, l ≠ list → node ∉ lists l :=
      fun l apart there => apart (represents.disjoint l list node there member)
    have nodup : (lists list).Nodup := (List.nodup_cons.mp ring.distinct).2.of_map
    refine ⟨m', unlinked, ?_, ?_, ?_⟩
    · intro l
      by_cases same : l = list
      · subst same
        have erased :
            cells (IntrusiveList.unlink (lists l) node) = (cells (ι := ι) (lists l)).eraseIdx k := by
          obtain ⟨_, same⟩ := List.getElem?_eq_some_iff.mp at_
          rw [IntrusiveList.unlink, ← same, nodup.erase_getElem k inside, cells,
            cells, List.eraseIdx_map]
        rw [erased]
        refine ring.erase cell ?_ ?_ ?_
        · rw [← place_p, ← place_s]
          exact ⟨by simp [next, other.1], by simp [prev, other.2]⟩
        · rw [← place_p]
          intro a apart apart'
          simp [next, apart, apart']
        · rw [← place_s]
          intro a apart apart'
          simp [prev, apart, apart']
      · have gone : IntrusiveList.unlink (lists l) node = lists l :=
          List.erase_of_not_mem (absent l same)
        rw [gone]
        refine represents.elsewhere same (absent l same) ?_ ?_
        · intro a outside apart
          have apart' : a ≠ p := fun same => outside (same ▸ front)
          simp [next, apart, apart']
        · intro a outside apart
          have apart' : a ≠ s := fun same => outside (same ▸ behind)
          simp [prev, apart, apart']
    · intro l l' n first second
      exact represents.disjoint l l' n (List.mem_of_mem_erase first) (List.mem_of_mem_erase second)
    · intro n free
      by_cases same : n = node
      · subst same
        simp [next, prev]
      · have still : ¬Held lists n := fun ⟨l, there⟩ => free ⟨l, (List.mem_erase_of_ne same).mpr there⟩
        have outside : .link n ∉ NodeAddress.content list :: cells (lists list) :=
          fun there => still ⟨list, link_mem_ring.mp there⟩
        have apart : .link n ≠ p ∧ .link n ≠ s :=
          ⟨fun same => outside (same ▸ front), fun same => outside (same ▸ behind)⟩
        have null := represents.free n still
        simp [next, prev, apart, null]
  · have absent : ∀ list, IntrusiveList.unlink (lists list) node = lists list := fun list =>
      List.erase_of_not_mem fun member => held ⟨list, member⟩
    refine ⟨m, by simp [IntrusiveNode.unlink, (represents.free node held).2], ?_⟩
    simpa [absent] using represents

/-- Every operation does to the memory what its name says of the sequences. -/
theorem perform_represents (represents : Represents m lists) (op : ListOp ι ν) :
    ∃ m', perform m op = some m' ∧ Represents m' (performed lists op) := by
  have length : ∀ list, (cells (ι := ι) (lists list)).length = (lists list).length :=
    fun list => by simp [cells]
  cases op with
  | pushBack list node =>
    obtain ⟨m', inserted, represents'⟩ :=
      insert_represents represents node (Nat.le_refl (lists list).length)
    refine ⟨m', ?_, represents'⟩
    rw [← length] at inserted
    simpa [perform, pushBack, end_, (represents.rings list).prev_first] using inserted
  | pushFront list node => exact insert_represents represents node (Nat.zero_le _)
  | insert list moves node =>
    have within := position_le (Nat.zero_le (lists list).length) moves
    obtain ⟨m', inserted, represents'⟩ := insert_represents represents node within
    refine ⟨m', ?_, represents'⟩
    have walked := walk_place (represents.rings list) (Nat.zero_le _) moves
    rw [length, place_zero] at walked
    simpa [perform, begin, walked] using inserted
  | unlink node => exact unlink_represents represents node
  | destroy node => exact unlink_represents represents node

private theorem performAll_represents (represents : Represents m lists) (ops : List (ListOp ι ν)) :
    ∃ m', ops.foldlM perform m = some m' ∧ Represents m' (ops.foldl performed lists) := by
  induction ops generalizing m lists with
  | nil => exact ⟨m, rfl, represents⟩
  | cons op ops ih =>
    obtain ⟨mid, done, represents'⟩ := perform_represents represents op
    obtain ⟨m', later, represents''⟩ := ih represents'
    refine ⟨m', ?_, represents''⟩
    rw [List.foldlM_cons, done]
    exact later

end Pointers

section Reading

variable {m : Nodes ι ν} {lists : Sequences ι ν} {list : ι}

theorem Represents.visit [DecidableEq ι] [DecidableEq ν] (represents : Represents m lists) (list : ι) :
    ∃ stop, end_ m list = some stop ∧ ∀ passes, (lists list).length < passes →
      IntrusiveIterator.visit m stop passes (begin list) = some ((lists list).map .link) := by
  have ring := represents.rings list
  refine ⟨_, by rw [end_, ring.prev_first]; rfl, fun passes enough => ?_⟩
  exact visit_place ring (Nat.zero_le _) (by simpa [cells] using enough)

theorem Represents.front (represents : Represents m lists) {first : ν} {rest : List ν}
    (starts : lists list = first :: rest) :
    IntrusiveNodes.front m list = some (.link first) := by
  have linked := ((represents.rings list).linked 0 (Nat.zero_le _)).1
  rw [starts] at linked
  exact linked

theorem Represents.back (represents : Represents m lists) {last : ν} {rest : List ν}
    (ends : lists list = rest ++ [last]) :
    IntrusiveNodes.back m list = some (.link last) := by
  have ring := represents.rings list
  rw [ends] at ring
  have length : (cells (ι := ι) (rest ++ [last])).length = rest.length + 1 := by simp [cells]
  have here : place (NodeAddress.content list) (cells (rest ++ [last])) (rest.length + 1) = .link last :=
    place_succ (by simp [cells])
  have linked := ring.linked rest.length (by omega)
  have prev := ring.prev_first
  rw [length, here] at prev
  rw [here] at linked
  simp [IntrusiveNodes.back, end_, prev, decrement, linked.2, deref, linked.1]

theorem Represents.empty_iff [DecidableEq ι] [DecidableEq ν]
    (represents : Represents m lists) (list : ι) :
    IntrusiveNodes.empty m list = true ↔ lists list = [] := by
  have ring := represents.rings list
  have length : (cells (ι := ι) (lists list)).length = (lists list).length := by simp [cells]
  rw [IntrusiveNodes.empty, ring.prev_first, beq_iff_eq, Option.some.injEq, ← List.length_eq_zero_iff]
  constructor
  · intro same
    rw [← length]
    exact place_inj ring.distinct (Nat.le_refl _) (Nat.zero_le _) same
  · intro none
    rw [length, none, place_zero]

end Reading

/-- Whatever is done with any number of lists and nodes, no null pointer is
dereferenced, and the pointers are those of the sequences that the operations stand
for: every list is a ring through its own node, no node is in two of them, a node says
that it is in a list exactly if it is in one, and then it cannot be inserted again.
The loop over a list visits its sequence, and `front` and `back` are the ends of it. -/
theorem intrusive_lists_represented [DecidableEq ι] [DecidableEq ν] (ops : List (ListOp ι ν)) :
    ∃ m, performAll ops = some m ∧ Represents m (sequences ops) ∧
      (∀ node, inList m (.link node) = true ↔ Held (sequences ops) node) ∧
      (∀ it node, Held (sequences ops) node → IntrusiveNodes.insert m it node = some m) ∧
      (∀ list, ∃ stop, end_ m list = some stop ∧ ∀ passes, (sequences ops list).length < passes →
        visit m stop passes (begin list) = some ((sequences ops list).map .link)) ∧
      (∀ list, IntrusiveNodes.empty m list = true ↔ sequences ops list = []) ∧
      (∀ list first rest, sequences ops list = first :: rest → front m list = some (.link first)) ∧
      ∀ list rest last, sequences ops list = rest ++ [last] → back m list = some (.link last) := by
  obtain ⟨m, done, represents⟩ := performAll_represents constructed_represents ops
  refine ⟨m, done, represents, represents.inList_iff, ?_, represents.visit, represents.empty_iff, ?_, ?_⟩
  · intro it node held
    have linked := (represents.inList_iff node).mpr held
    simp [IntrusiveNodes.insert, linked]
  · intro list first rest starts
    exact represents.front starts
  · intro list rest last ends
    exact represents.back ends

end Crablib.IntrusiveListProofs
