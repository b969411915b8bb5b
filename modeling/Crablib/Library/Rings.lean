import Mathlib.Data.List.Nodup

/-! Circular doubly linked chains. A ring is a sequence of cells behind a cell of its
own, in which every cell points to the next one and is pointed back at; the last one
is followed by the first. Linking and unlinking a cell are two local changes. -/
namespace Crablib.Rings

variable {α : Type}

/-- The two pointers of every cell. -/
structure Links (α : Type) where
  next : α → Option α
  prev : α → Option α

namespace Links
variable [DecidableEq α] (m : Links α) (a : α) (target : Option α)

def setNext : Links α := { m with next := fun b => if b = a then target else m.next b }

def setPrev : Links α := { m with prev := fun b => if b = a then target else m.prev b }

@[simp] theorem setNext_next (b : α) :
    (m.setNext a target).next b = if b = a then target else m.next b := rfl

@[simp] theorem setNext_prev : (m.setNext a target).prev = m.prev := rfl

@[simp] theorem setPrev_prev (b : α) :
    (m.setPrev a target).prev b = if b = a then target else m.prev b := rfl

@[simp] theorem setPrev_next : (m.setPrev a target).next = m.next := rfl

end Links

/-- One cell follows another. -/
def Linked (m : Links α) (a b : α) : Prop := m.next a = some b ∧ m.prev b = some a

/-- The cell `k` steps behind the first one, for one round. -/
def place (c : α) (xs : List α) (k : Nat) : α := (c :: xs)[k]?.getD c

section Places
variable {c : α} {xs : List α} {i j k : Nat}

@[simp] theorem place_zero : place c xs 0 = c := rfl

theorem place_end : place c xs (xs.length + 1) = c := by
  simp [place]

theorem place_succ {a : α} (at_ : xs[k]? = some a) : place c xs (k + 1) = a := by
  simp [place, at_]

theorem place_mem : place c xs k ∈ c :: xs := by
  unfold place
  cases at_ : (c :: xs)[k]? with
  | none => simp
  | some a => exact List.mem_of_getElem? at_

theorem place_inj (distinct : (c :: xs).Nodup) (first : i ≤ xs.length) (second : j ≤ xs.length)
    (same : place c xs i = place c xs j) : i = j := by
  have inside : i < (c :: xs).length := Nat.lt_succ_of_le first
  have inside' : j < (c :: xs).length := Nat.lt_succ_of_le second
  unfold place at same
  rw [List.getElem?_eq_getElem inside, List.getElem?_eq_getElem inside'] at same
  exact distinct.getElem_inj_iff.mp same

/-- The same for the places that are behind another one. -/
theorem place_inj_behind (distinct : (c :: xs).Nodup) (first : i ≤ xs.length) (second : j ≤ xs.length)
    (same : place c xs (i + 1) = place c xs (j + 1)) : i = j := by
  have round : ∀ k ≤ xs.length,
      place c xs (k + 1) = place c xs (if k = xs.length then 0 else k + 1) := by
    intro k within
    split
    · rename_i last
      rw [last, place_end, place_zero]
    · rfl
  rw [round i first, round j second] at same
  have equal := place_inj distinct (by split <;> omega) (by split <;> omega) same
  split at equal <;> split at equal <;> omega

theorem place_insertIdx (n : α) (within : k ≤ xs.length) :
    place c (xs.insertIdx k n) j = if j ≤ k then place c xs j else if j = k + 1 then n
      else place c xs (j - 1) := by
  have whole : c :: xs.insertIdx k n = (c :: xs).insertIdx (k + 1) n := rfl
  unfold place
  rw [whole, List.getElem?_insertIdx]
  by_cases before : j ≤ k
  · simp [before, Nat.lt_succ_of_le before]
  · by_cases here : j = k + 1
    · have past : ¬k + 1 ≤ k := by omega
      simp [here, within, past]
    · have behind : ¬j < k + 1 := by omega
      simp [before, behind, here]

theorem place_eraseIdx :
    place c (xs.eraseIdx k) j = if j ≤ k then place c xs j else place c xs (j + 1) := by
  have whole : c :: xs.eraseIdx k = (c :: xs).eraseIdx (k + 1) := rfl
  unfold place
  rw [whole, List.getElem?_eraseIdx]
  by_cases before : j ≤ k
  · simp [before, Nat.lt_succ_of_le before]
  · have behind : ¬j < k + 1 := by omega
    simp [before, behind]

end Places

/-- The cells of a sequence form a circle behind `c`. -/
structure Ring (m : Links α) (c : α) (xs : List α) : Prop where
  distinct : (c :: xs).Nodup
  linked : ∀ k ≤ xs.length, Linked m (place c xs k) (place c xs (k + 1))

namespace Ring
variable {m m' : Links α} {c n : α} {xs : List α} {k : Nat}

theorem empty (next : m.next c = some c) (prev : m.prev c = some c) : Ring m c [] where
  distinct := by simp
  linked := by
    intro k within
    cases Nat.le_zero.mp within
    exact ⟨next, prev⟩

/-- Only the pointers of its cells make a ring. -/
theorem congr (ring : Ring m c xs) (next : ∀ a ∈ c :: xs, m'.next a = m.next a)
    (prev : ∀ a ∈ c :: xs, m'.prev a = m.prev a) :
    Ring m' c xs where
  distinct := ring.distinct
  linked := by
    intro k within
    have linked := ring.linked k within
    exact ⟨(next _ place_mem).trans linked.1, (prev _ place_mem).trans linked.2⟩

/-- The cell in front of the first one is the last one. -/
theorem prev_first (ring : Ring m c xs) : m.prev c = some (place c xs xs.length) := by
  have linked := (ring.linked xs.length (Nat.le_refl _)).2
  rwa [place_end] at linked

/-- A new cell is linked behind the place `k` by the pointers to it and from it. -/
theorem insert (ring : Ring m c xs) (within : k ≤ xs.length) (fresh : n ∉ c :: xs)
    (behind : Linked m' (place c xs k) n) (before : Linked m' n (place c xs (k + 1)))
    (next : ∀ a, a ≠ place c xs k → a ≠ n → m'.next a = m.next a)
    (prev : ∀ a, a ≠ place c xs (k + 1) → a ≠ n → m'.prev a = m.prev a) :
    Ring m' c (xs.insertIdx k n) where
  distinct := by
    have distinct := ring.distinct
    simp only [List.mem_cons, not_or] at fresh
    rw [List.nodup_cons] at distinct ⊢
    refine ⟨?_, ?_⟩
    · rw [List.mem_insertIdx within]
      rintro (same | member)
      · exact fresh.1 same.symm
      · exact distinct.1 member
    · rw [(List.perm_insertIdx n xs within).nodup_iff, List.nodup_cons]
      exact ⟨fresh.2, distinct.2⟩
  linked := by
    intro j small
    rw [List.length_insertIdx_of_le_length within] at small
    have other : ∀ i, place c xs i ≠ n := fun i same => fresh (same ▸ place_mem)
    have keeps : ∀ i ≤ xs.length, i ≠ k → Linked m' (place c xs i) (place c xs (i + 1)) := by
      intro i inside apart
      have linked := ring.linked i inside
      refine ⟨(next _ ?_ (other _)).trans linked.1, (prev _ ?_ (other _)).trans linked.2⟩
      · exact fun same => apart (place_inj ring.distinct inside within same)
      · exact fun same => apart (place_inj_behind ring.distinct inside within same)
    rw [place_insertIdx n within, place_insertIdx n within]
    rcases Nat.lt_trichotomy j k with less | same | more
    · have front : j ≤ k := by omega
      have front' : j + 1 ≤ k := by omega
      simp only [front, front', ↓reduceIte]
      exact keeps j (by omega) (by omega)
    · subst same
      have past : ¬j + 1 ≤ j := by omega
      simpa [past] using behind
    · have past : ¬j ≤ k := by omega
      have past' : ¬j + 1 ≤ k := by omega
      have past'' : j + 1 ≠ k + 1 := by omega
      simp only [past, past', past'', ↓reduceIte, Nat.add_sub_cancel]
      split
      · rename_i here
        rw [here]
        exact before
      · obtain ⟨i, rfl⟩ : ∃ i, j = i + 1 := ⟨j - 1, by omega⟩
        exact keeps i (by omega) (by omega)

/-- A cell is unlinked by the pointers around it. -/
theorem erase (ring : Ring m c xs) (at_ : xs[k]? = some n)
    (around : Linked m' (place c xs k) (place c xs (k + 2)))
    (next : ∀ a, a ≠ place c xs k → a ≠ n → m'.next a = m.next a)
    (prev : ∀ a, a ≠ place c xs (k + 2) → a ≠ n → m'.prev a = m.prev a) : Ring m' c (xs.eraseIdx k) where
  distinct := ring.distinct.sublist (List.cons_sublist_cons.mpr (List.eraseIdx_sublist xs k))
  linked := by
    intro j small
    obtain ⟨inside, -⟩ := List.getElem?_eq_some_iff.mp at_
    rw [List.length_eraseIdx_of_lt inside] at small
    have here : place c xs (k + 1) = n := place_succ at_
    have keeps : ∀ i ≤ xs.length, i ≠ k → i ≠ k + 1 → Linked m' (place c xs i) (place c xs (i + 1)) := by
      intro i within apart apart'
      have linked := ring.linked i within
      refine ⟨(next _ ?_ ?_).trans linked.1, (prev _ ?_ ?_).trans linked.2⟩
      · exact fun same => apart (place_inj ring.distinct within (by omega) same)
      · exact fun same => apart' (place_inj ring.distinct within (by omega) (same.trans here.symm))
      · exact fun same => apart' (place_inj_behind ring.distinct within (by omega) same)
      · exact fun same => apart (place_inj_behind ring.distinct within (by omega) (same.trans here.symm))
    rw [place_eraseIdx, place_eraseIdx]
    rcases Nat.lt_trichotomy j k with less | same | more
    · have front : j ≤ k := by omega
      have front' : j + 1 ≤ k := by omega
      simp only [front, front', ↓reduceIte]
      exact keeps j (by omega) (by omega) (by omega)
    · subst same
      have past : ¬j + 1 ≤ j := by omega
      simpa [past] using around
    · have past : ¬j ≤ k := by omega
      have past' : ¬j + 1 ≤ k := by omega
      simp only [past, past', ↓reduceIte]
      exact keeps (j + 1) (by omega) (by omega) (by omega)

end Ring

end Crablib.Rings
