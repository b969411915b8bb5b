import Mathlib.Init

/-! Loops without a counter. A pass takes the state to an outcome and the next
state, and the loop goes on as long as the outcome is the one that asks for
more. `Ends` is the loop itself; a counted loop returns what it returns as soon
as every pass that goes on lowers a measure the counter is above. -/
namespace Crablib.Loops

variable {σ ρ : Type} {pass : σ → ρ × σ} {again : ρ} {s t : σ} {r : ρ × σ}

/-- The loop that starts in `s` ends with the pass that returns `r`. -/
inductive Ends (pass : σ → ρ × σ) (again : ρ) : σ → ρ × σ → Prop where
  | last {s : σ} (stops : (pass s).1 ≠ again) : Ends pass again s (pass s)
  | next {s t : σ} {r : ρ × σ} (more : pass s = (again, t)) (rest : Ends pass again t r) :
      Ends pass again s r

/-- A pass of the loop that starts in `s` starts in `t`. -/
inductive Reaches (pass : σ → ρ × σ) (again : ρ) (s : σ) : σ → Prop where
  | start : Reaches pass again s s
  | next {t u : σ} (before : Reaches pass again s t) (more : pass t = (again, u)) :
      Reaches pass again s u

/-- A loop ends in one way only. -/
theorem Ends.unique {r' : ρ × σ} (ends : Ends pass again s r)
    (ends' : Ends pass again s r') : r' = r := by
  induction ends with
  | last stops =>
    cases ends' with
    | last _ => rfl
    | next more _ => exact absurd (congrArg Prod.fst more) stops
  | next more _ ih =>
    cases ends' with
    | last stops => exact absurd (congrArg Prod.fst more) stops
    | next more' rest =>
      have same := (Prod.mk.inj (more.symm.trans more')).2
      exact ih (same ▸ rest)

/-- A loop that ends has a last pass, which asks for no other. -/
theorem Ends.last_pass (ends : Ends pass again s r) :
    ∃ t, Reaches pass again s t ∧ pass t = r ∧ r.1 ≠ again := by
  have later : ∀ {u}, Reaches pass again u s → ∃ t, Reaches pass again u t ∧
      pass t = r ∧ r.1 ≠ again := by
    induction ends with
    | last stops => exact fun reached => ⟨_, reached, rfl, stops⟩
    | next more _ ih => exact fun reached => ih (.next reached more)
  exact later .start

/-- The same loop with a counter, which stops it at the latest. -/
structure Counted (pass : σ → ρ × σ) (again : ρ) (loop : Nat → σ → ρ × σ) : Prop where
  more : ∀ n s t, pass s = (again, t) → loop (n + 1) s = loop n t
  last : ∀ n s, (pass s).1 ≠ again → loop (n + 1) s = pass s

variable {loop : Nat → σ → ρ × σ}

/-- What every pass that goes on keeps, and the last pass leaves, the counted loop
leaves; a loop whose counter is used up leaves what holds of its state. -/
theorem Counted.run (counted : Counted pass again loop) {P : σ → Prop} {Q : ρ × σ → Prop}
    (idle : ∀ s, P s → Q (loop 0 s)) (goes : ∀ s t, P s → pass s = (again, t) → P t)
    (ends : ∀ s, P s → (pass s).1 ≠ again → Q (pass s)) (n : Nat) (start : P s) : Q (loop n s) := by
  induction n generalizing s with
  | zero => exact idle s start
  | succ n ih =>
    by_cases more : (pass s).1 = again
    · have next : pass s = (again, (pass s).2) := Prod.ext more rfl
      rw [counted.more n s _ next]
      exact ih (goes s _ start next)
    · rw [counted.last n s more]
      exact ends s start more

/-- Counted loops whose passes go alike go alike. -/
theorem Counted.follows {τ : Type} {pass' : τ → ρ × τ} {loop' : Nat → τ → ρ × τ} {R : σ → τ → Prop}
    (counted : Counted pass again loop) (counted' : Counted pass' again loop')
    (idle : ∀ s t, R s t → (loop 0 s).1 = (loop' 0 t).1 ∧ R (loop 0 s).2 (loop' 0 t).2)
    (passes : ∀ s t, R s t → (pass s).1 = (pass' t).1 ∧ R (pass s).2 (pass' t).2) (n : Nat)
    {t : τ} (related : R s t) :
    (loop n s).1 = (loop' n t).1 ∧ R (loop n s).2 (loop' n t).2 := by
  induction n generalizing s t with
  | zero => exact idle s t related
  | succ n ih =>
    obtain ⟨same, next⟩ := passes s t related
    by_cases more : (pass s).1 = again
    · rw [counted.more n s _ (Prod.ext more rfl),
        counted'.more n t _ (Prod.ext (same.symm.trans more) rfl)]
      exact ih next
    · rw [counted.last n s more, counted'.last n t (fun again' => more (same.trans again'))]
      exact ⟨same, next⟩

/-- From states of the invariant every pass that goes on lowers the measure and
keeps the invariant. -/
def Lowers (pass : σ → ρ × σ) (again : ρ) (invariant : σ → Prop) (measure : σ → Nat) : Prop :=
  ∀ s t, invariant s → pass s = (again, t) → invariant t ∧ measure t < measure s

variable {invariant : σ → Prop} {measure : σ → Nat}

/-- A counter above the measure never stops the loop. -/
theorem Lowers.ends (lowers : Lowers pass again invariant measure)
    (counted : Counted pass again loop) {n : Nat} (start : invariant s) (enough : measure s < n) :
    Ends pass again s (loop n s) := by
  induction n generalizing s with
  | zero => omega
  | succ n ih =>
    by_cases more : (pass s).1 = again
    · have next : pass s = (again, (pass s).2) := Prod.ext more rfl
      obtain ⟨held, lower⟩ := lowers s _ start next
      rw [counted.more n s _ next]
      exact .next next (ih held (by omega))
    · rw [counted.last n s more]
      exact .last more

theorem Lowers.ends_iff (lowers : Lowers pass again invariant measure)
    (counted : Counted pass again loop) {n : Nat} (start : invariant s) (enough : measure s < n) :
    Ends pass again s r ↔ r = loop n s := by
  have ends := lowers.ends counted start enough
  constructor
  · intro ended
    exact ends.unique ended
  · rintro rfl
    exact ends

/-- Every pass starts in a state of the invariant. -/
theorem Lowers.reaches (lowers : Lowers pass again invariant measure) (start : invariant s)
    (reaches : Reaches pass again s t) : invariant t := by
  induction reaches with
  | start => exact start
  | next _ more ih => exact (lowers _ _ ih more).1

end Crablib.Loops
