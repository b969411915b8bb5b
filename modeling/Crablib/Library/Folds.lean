import Mathlib.Init

/-! Folds of steps that may fail. A step that acts on one part of the state and a step
that leaves this part alone may change places, so only the order within each kind of
step counts. -/
namespace Crablib.Folds

variable {α β ρ : Type}

/-- A part of a state, which can be replaced. -/
structure Part (ρ β : Type) where
  get : ρ → β
  put : β → ρ → ρ
  get_put : ∀ b r, get (put b r) = b
  put_get : ∀ r, put (get r) r = r

/-- Steps that may be taken in either order. -/
def Commute (f g : ρ → Option ρ) : Prop := ∀ r, (f r).bind g = (g r).bind f

namespace Part

variable {part : Part ρ β} {f g : ρ → Option ρ}

/-- The step reads and writes this part alone. -/
def Acts (part : Part ρ β) (f : ρ → Option ρ) : Prop :=
  ∃ act : β → Option β, ∀ r, f r = (act (part.get r)).map fun b => part.put b r

/-- The step neither reads nor writes this part. -/
def Leaves (part : Part ρ β) (f : ρ → Option ρ) : Prop :=
  ∀ b r, f (part.put b r) = (f r).map (part.put b)

theorem Leaves.get (leaves : part.Leaves f) {r s : ρ} (stepped : f r = some s) :
    part.get s = part.get r := by
  have same := leaves (part.get r) r
  rw [part.put_get, stepped, Option.map_some] at same
  rw [Option.some.inj same, part.get_put]

theorem Acts.commute (acts : part.Acts f) (leaves : part.Leaves g) : Commute f g := by
  intro r
  obtain ⟨act, acts⟩ := acts
  rw [acts r]
  cases other : g r with
  | none =>
    cases act (part.get r) with
    | none => rfl
    | some b =>
      show g (part.put b r) = none
      rw [leaves, other, Option.map_none]
  | some s =>
    show _ = f s
    rw [acts s, leaves.get other]
    cases act (part.get r) with
    | none => rfl
    | some b =>
      show g (part.put b r) = some (part.put b s)
      rw [leaves, other, Option.map_some]

/-- The step writes this part without reading it. -/
def Overwrites (part : Part ρ β) (f : ρ → Option ρ) : Prop := ∀ b r, f (part.put b r) = f r

end Part

section Lists

variable {step : ρ → α → Option ρ} {x : α} {steps steps' : List α}

/-- A step moves before all those that it commutes with. -/
theorem foldlM_move (commute : ∀ y ∈ steps, Commute (step · y) (step · x)) (r : ρ) :
    (steps.foldlM step r).bind (step · x) = (step r x).bind fun s => steps.foldlM step s := by
  induction steps generalizing r with
  | nil => exact (Option.bind_fun_some (step r x)).symm
  | cons y steps ih =>
    have later := ih fun z member => commute z (List.mem_cons_of_mem y member)
    have swapped := commute y List.mem_cons_self r
    simp only [List.foldlM_cons, Option.bind_eq_bind, Option.bind_assoc, later] at swapped ⊢
    rw [← Option.bind_assoc, ← Option.bind_assoc, swapped]

/-- The steps of one kind may be taken before all the others. -/
theorem foldlM_partition {kind : α → Bool}
    (commute : ∀ x y, kind x = true → kind y = false → Commute (step · x) (step · y))
    (steps : List α) (r : ρ) :
    steps.foldlM step r = ((steps.filter kind).foldlM step r).bind fun s =>
      (steps.filter fun x => !kind x).foldlM step s := by
  induction steps generalizing r with
  | nil => rfl
  | cons x steps ih =>
    cases same : kind x with
    | true =>
      rw [List.filter_cons_of_pos same, List.filter_cons_of_neg (by simp [same]),
        List.foldlM_cons, List.foldlM_cons]
      simp only [Option.bind_eq_bind, Option.bind_assoc, ih]
    | false =>
      rw [List.filter_cons_of_neg (by simp [same]),
        List.filter_cons_of_pos (by simp [same]), List.foldlM_cons]
      have moves : ∀ y ∈ steps.filter kind, Commute (step · y) (step · x) :=
        fun y member => commute y x (List.mem_filter.mp member).2 same
      have moved := foldlM_move moves r
      simp only [List.foldlM_cons, Option.bind_eq_bind, ih]
      rw [← Option.bind_assoc, ← moved, Option.bind_assoc]

/-- Lists of steps that agree on one kind and on the others lead to the same place. -/
theorem foldlM_regroup {kind : α → Bool}
    (commute : ∀ x y, kind x = true → kind y = false → Commute (step · x) (step · y))
    (same : steps.filter kind = steps'.filter kind)
    (others : ∀ r, (steps.filter fun x => !kind x).foldlM step r =
      (steps'.filter fun x => !kind x).foldlM step r)
    (r : ρ) :
    steps.foldlM step r = steps'.foldlM step r := by
  rw [foldlM_partition commute steps, foldlM_partition commute steps', same]
  exact congrArg _ (funext others)

variable {part : Part ρ β} {writes : α → Bool}

/-- What stands in a part at the start is there at the end, unless a step writes it. -/
theorem foldlM_put (own : ∀ x, writes x = true → part.Overwrites (step · x))
    (others : ∀ x, writes x = false → part.Leaves (step · x)) (steps : List α) (b : β) (r : ρ) :
    steps.foldlM step (part.put b r) =
      if steps.any writes then steps.foldlM step r else (steps.foldlM step r).map (part.put b) := by
  induction steps generalizing r with
  | nil => rfl
  | cons x steps ih =>
    rw [List.any_cons, List.foldlM_cons, List.foldlM_cons]
    cases same : writes x with
    | true =>
      rw [show step (part.put b r) x = step r x from own x same b r]
      rfl
    | false =>
      rw [show step (part.put b r) x = (step r x).map (part.put b) from others x same b r, Bool.false_or]
      cases step r x with
      | none => cases steps.any writes <;> rfl
      | some s => exact ih s

/-- So two starts that differ in one part lead to the same end exactly if a step writes it. -/
theorem foldlM_put_iff (own : ∀ x, writes x = true → part.Overwrites (step · x))
    (others : ∀ x, writes x = false → part.Leaves (step · x)) {b b' : β} {r s : ρ}
    (ends : steps.foldlM step (part.put b r) = some s) :
    steps.foldlM step (part.put b' r) = some s ↔ steps.any writes = true ∨ b' = b := by
  rw [foldlM_put own others] at ends ⊢
  cases same : steps.any writes with
  | true =>
    rw [same] at ends
    exact iff_of_true ends (.inl rfl)
  | false =>
    simp only [same, Bool.false_eq_true, ↓reduceIte, false_or] at ends ⊢
    cases reached : steps.foldlM step r with
    | none =>
      rw [reached] at ends
      cases ends
    | some t =>
      rw [reached, Option.map_some, Option.some.injEq] at ends
      rw [Option.map_some, Option.some.injEq, ← ends]
      constructor
      · intro same
        rw [← part.get_put b' t, same, part.get_put]
      · exact fun same => by rw [same]

end Lists

end Crablib.Folds
