import Mathlib.Logic.Equiv.Basic

/-! Binary max-heaps laid out in positions `1, 2, …`, with position `i / 2`
above position `i`. A sift moves one misplaced element by exchanging it with a
neighbour; the two invariants below say which comparisons may still fail while
it travels. Nothing here depends on what the positions store or who moves it. -/
namespace Crablib.Sift

/-- A strict weak order in the form the sifts use: comparisons are asymmetric
and a strict comparison survives on at least one side of any third element. -/
structure StrictWeak (lt : α → α → Bool) : Prop where
  asymm : ∀ {a b}, lt a b = true → lt b a = false
  cotrans : ∀ {a b} c, lt a b = true → lt a c = true ∨ lt c b = true

section Order
variable {α : Type} {lt : α → α → Bool}

theorem StrictWeak.irrefl (order : StrictWeak lt) (a : α) : lt a a = false := by
  cases self : lt a a with
  | false => rfl
  | true => exact self.symm.trans (order.asymm self)

/-- Being not below is transitive: the form in which order facts are chained
along a path of the heap. -/
theorem StrictWeak.not_lt_trans (order : StrictWeak lt) {a b c : α}
    (first : lt a b = false) (second : lt b c = false) : lt a c = false := by
  cases outer : lt a c with
  | false => rfl
  | true => rcases order.cotrans b outer with left | right <;> simp_all

/-- No element of positions `1 .. n - 1` is greater than the one above it. -/
def Ordered (lt : α → α → Bool) (n : Nat) (v : Nat → α) : Prop :=
  ∀ i, 2 ≤ i → i < n → lt (v (i / 2)) (v i) = false

/-- Everything is in order except possibly the element at `hole` against the
one above it. The elements below the hole already respect the one above it. -/
structure UpOrdered (lt : α → α → Bool) (n : Nat) (v : Nat → α) (hole : Nat) : Prop where
  away : ∀ i, 2 ≤ i → i < n → i ≠ hole → lt (v (i / 2)) (v i) = false
  across : 2 ≤ hole → ∀ i, i < n → i / 2 = hole → lt (v (hole / 2)) (v i) = false

/-- Everything is in order except possibly the elements directly below `hole`
against it; they already respect the one above the hole. -/
structure DownOrdered (lt : α → α → Bool) (n : Nat) (v : Nat → α) (hole : Nat) : Prop where
  away : ∀ i, 2 ≤ i → i < n → i / 2 ≠ hole → lt (v (i / 2)) (v i) = false
  across : 2 ≤ hole → ∀ i, i < n → i / 2 = hole → lt (v (hole / 2)) (v i) = false

/-- The root of an ordered heap is not below any element. -/
theorem Ordered.root_max (order : StrictWeak lt) {n : Nat} {v : Nat → α} (ordered : Ordered lt n v)
    (i : Nat) (positive : 0 < i) (inside : i < n) : lt (v 1) (v i) = false := by
  induction i using Nat.strongRecOn with
  | ind i ih =>
    by_cases root : i = 1
    · subst root
      exact order.irrefl _
    · exact order.not_lt_trans (ih (i / 2) (by omega) (by omega) (by omega))
        (ordered i (by omega) inside)

/-- Exchange two positions. -/
def swap (v : Nat → α) (i j : Nat) : Nat → α := v ∘ Equiv.swap i j

@[simp] theorem swap_left (v : Nat → α) (i j : Nat) : swap v i j i = v j := by simp [swap]
@[simp] theorem swap_right (v : Nat → α) (i j : Nat) : swap v i j j = v i := by simp [swap]

theorem swap_other (v : Nat → α) {i j k : Nat} (left : k ≠ i) (right : k ≠ j) :
    swap v i j k = v k := by
  simp [swap, Equiv.swap_apply_of_ne_of_ne left right]

/-- One step up: the travelling element is not below its parent, so the two
change places and only the comparison one level higher may still fail. -/
theorem UpOrdered.step (order : StrictWeak lt) {n hole : Nat} {v : Nat → α}
    (state : UpOrdered lt n v hole) (deep : 2 ≤ hole) (inside : hole < n)
    (moves : lt (v hole) (v (hole / 2)) = false) :
    UpOrdered lt n (swap v hole (hole / 2)) (hole / 2) := by
  have apart : hole / 2 ≠ hole := by omega
  constructor
  · intro i low high elsewhere
    by_cases self : i = hole
    · subst self
      rw [swap_left, swap_right]
      exact moves
    · rw [swap_other v self elsewhere]
      by_cases below : i / 2 = hole
      · rw [below, swap_left]
        exact state.across deep i high below
      · by_cases sibling : i / 2 = hole / 2
        · rw [sibling, swap_right]
          have kept := state.away i low high self
          rw [sibling] at kept
          exact order.not_lt_trans moves kept
        · rw [swap_other v below sibling]
          exact state.away i low high self
  · intro higher i high below
    have above : lt (v (hole / 2 / 2)) (v (hole / 2)) = false :=
      state.away (hole / 2) higher (by omega) apart
    rw [swap_other v (i := hole) (j := hole / 2) (k := hole / 2 / 2) (by omega) (by omega)]
    by_cases self : i = hole
    · subst self
      rw [swap_left]
      exact above
    · rw [swap_other v self (by omega)]
      have kept := state.away i (by omega) high self
      rw [below] at kept
      exact order.not_lt_trans above kept

/-- The sift up ends where the element is strictly below its parent, or at the
root. -/
theorem UpOrdered.finish (order : StrictWeak lt) {n hole : Nat} {v : Nat → α}
    (state : UpOrdered lt n v hole)
    (stops : 2 ≤ hole → lt (v hole) (v (hole / 2)) = true) : Ordered lt n v := by
  intro i low high
  by_cases self : i = hole
  · subst self
    exact order.asymm (stops low)
  · exact state.away i low high self

/-- One step down: the travelling element is not above the larger of the two
elements below it, so it changes places with that one. -/
theorem DownOrdered.step {n hole child : Nat} {v : Nat → α}
    (state : DownOrdered lt n v hole) (positive : 0 < hole) (under : child / 2 = hole)
    (inside : child < n) (moves : lt (v child) (v hole) = false)
    (largest : ∀ i, i < n → i / 2 = hole → i ≠ child → lt (v child) (v i) = false) :
    DownOrdered lt n (swap v hole child) child := by
  have apart : hole ≠ child := by omega
  constructor
  · intro i low high elsewhere
    by_cases self : i = child
    · subst self
      rw [swap_right, under, swap_left]
      exact moves
    · by_cases sibling : i / 2 = hole
      · rw [sibling, swap_left, swap_other v (by omega) self]
        exact largest i high sibling self
      · by_cases top : i = hole
        · subst top
          rw [swap_left, swap_other v (by omega) (by omega)]
          exact state.across low child inside under
        · rw [swap_other v top self, swap_other v sibling elsewhere]
          exact state.away i low high sibling
  · intro _ i high below
    rw [under, swap_left, swap_other v (by omega) (by omega)]
    have kept := state.away i (by omega) high (by omega)
    rwa [below] at kept

/-- The sift down ends where nothing below the element is greater than it. -/
theorem DownOrdered.finish {n hole : Nat} {v : Nat → α} (state : DownOrdered lt n v hole)
    (stops : ∀ i, i < n → i / 2 = hole → 2 ≤ i → lt (v hole) (v i) = false) :
    Ordered lt n v := by
  intro i low high
  by_cases below : i / 2 = hole
  · rw [below]
    exact stops i high below low
  · exact state.away i low high below

/-- Appending an element at the end leaves a heap that only has to be sifted
up from there. -/
theorem Ordered.push {n : Nat} {v w : Nat → α} (ordered : Ordered lt n v)
    (same : ∀ i, i < n → w i = v i) : UpOrdered lt (n + 1) w n := by
  constructor
  · intro i low high elsewhere
    rw [same i (by omega), same (i / 2) (by omega)]
    exact ordered i low (by omega)
  · intro deep i high below
    omega

/-- Overwriting one position by an element that is not below its parent leaves
a heap to be sifted up from that position. -/
theorem Ordered.replace_up (order : StrictWeak lt) {n hole : Nat} {v w : Nat → α}
    (ordered : Ordered lt (n + 1) v) (same : ∀ i, i < n → i ≠ hole → w i = v i) (deep : 2 ≤ hole)
    (inside : hole < n) (rises : lt (w hole) (w (hole / 2)) = false) :
    UpOrdered lt n w hole := by
  have parent : w (hole / 2) = v (hole / 2) := same _ (by omega) (by omega)
  have bridge : ∀ i, i < n → i / 2 = hole → lt (w (hole / 2)) (w i) = false := by
    intro i high below
    rw [parent, same i high (by omega)]
    have lower := ordered i (by omega) (by omega)
    rw [below] at lower
    exact order.not_lt_trans (ordered hole deep (by omega)) lower
  constructor
  · intro i low high elsewhere
    by_cases below : i / 2 = hole
    · rw [below]
      exact order.not_lt_trans rises (bridge i high below)
    · rw [same i high elsewhere, same (i / 2) (by omega) below]
      exact ordered i low (by omega)
  · exact fun _ => bridge

/-- Overwriting one position by an element strictly below its parent, or
overwriting the root, leaves a heap to be sifted down from that position. -/
theorem Ordered.replace_down (order : StrictWeak lt) {n hole : Nat} {v w : Nat → α}
    (ordered : Ordered lt (n + 1) v) (same : ∀ i, i < n → i ≠ hole → w i = v i)
    (positive : 0 < hole) (inside : hole < n)
    (sinks : 2 ≤ hole → lt (w hole) (w (hole / 2)) = true) :
    DownOrdered lt n w hole := by
  constructor
  · intro i low high below
    by_cases self : i = hole
    · subst self
      exact order.asymm (sinks low)
    · rw [same i high self, same (i / 2) (by omega) below]
      exact ordered i low (by omega)
  · intro deep i high below
    rw [same (hole / 2) (by omega) (by omega), same i high (by omega)]
    have lower := ordered i (by omega) (by omega)
    rw [below] at lower
    exact order.not_lt_trans (ordered hole deep (by omega)) lower

end Order
end Crablib.Sift
