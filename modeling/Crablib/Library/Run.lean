import Mathlib.Init

/-! Runs of a deterministic machine: a list of labels folded through a step
function. `Meets` says that every step of a run was taken in a state where a
condition on the state and the label held. -/
namespace Crablib.Run

variable {σ α : Type}

/-- The state after a run. -/
def after (step : σ → α → σ) (s : σ) (labels : List α) : σ := labels.foldl step s

@[simp] theorem after_nil (step : σ → α → σ) (s : σ) : after step s [] = s := rfl

@[simp] theorem after_cons (step : σ → α → σ) (s : σ) (a : α) (labels : List α) :
    after step s (a :: labels) = after step (step s a) labels := rfl

theorem after_append (step : σ → α → σ) (s : σ) (first second : List α) :
    after step s (first ++ second) = after step (after step s first) second :=
  List.foldl_append

/-- Every step of the run meets the condition in the state it is taken in. -/
def Meets (step : σ → α → σ) (condition : σ → α → Prop) : σ → List α → Prop
  | _, [] => True
  | s, a :: labels => condition s a ∧ Meets step condition (step s a) labels

instance decidableMeets (step : σ → α → σ) (condition : σ → α → Prop)
    [∀ s a, Decidable (condition s a)] : ∀ s labels, Decidable (Meets step condition s labels)
  | _, [] => isTrue trivial
  | s, a :: labels =>
    have := decidableMeets step condition (step s a) labels
    inferInstanceAs (Decidable (condition s a ∧ Meets step condition (step s a) labels))

theorem meets_append {step : σ → α → σ} {condition : σ → α → Prop} {s : σ} {first second : List α} :
    Meets step condition s (first ++ second) ↔ Meets step condition s first ∧
      Meets step condition (after step s first) second := by
  induction first generalizing s with
  | nil => simp [Meets]
  | cons a first ih => simp only [List.cons_append, Meets, after_cons, ih, and_assoc]

theorem meets_congr {step : σ → α → σ} {condition condition' : σ → α → Prop}
    (same : ∀ s a, condition s a ↔ condition' s a) (s : σ) (labels : List α) :
    Meets step condition s labels ↔ Meets step condition' s labels := by
  induction labels generalizing s with
  | nil => exact Iff.rfl
  | cons a labels ih => exact and_congr (same s a) (ih (step s a))

/-- What holds at the start and survives each step that meets the condition
holds after every run that meets it. -/
theorem invariant_of_meets {step : σ → α → σ} {condition : σ → α → Prop} {P : σ → Prop}
    (keeps : ∀ s a, P s → condition s a → P (step s a)) {s : σ} (start : P s)
    (labels : List α) (meets : Meets step condition s labels) : P (after step s labels) := by
  induction labels generalizing s with
  | nil => exact start
  | cons a labels ih => exact ih (keeps s a start meets.1) meets.2

theorem invariant_of_keeps {step : σ → α → σ} {P : σ → Prop}
    (keeps : ∀ s a, P s → P (step s a)) {s : σ} (start : P s) (labels : List α) :
    P (after step s labels) := by
  induction labels generalizing s with
  | nil => exact start
  | cons a labels ih => exact ih (keeps s a start)

/-- The same for a condition on the labels alone. -/
theorem invariant_of_forall {step : σ → α → σ} {allowed : α → Prop} {P : σ → Prop}
    (keeps : ∀ s a, P s → allowed a → P (step s a)) {s : σ} (start : P s)
    (labels : List α) (all : ∀ a ∈ labels, allowed a) : P (after step s labels) := by
  induction labels generalizing s with
  | nil => exact start
  | cons a labels ih =>
    exact ih (keeps s a start (all a List.mem_cons_self)) fun later member =>
      all later (List.mem_cons_of_mem a member)

section Observers

variable {β : Type}

/-- What an observer of a run sees, one observation a step. -/
def seen (step : σ → α → σ) (observe : σ → α → β) : σ → List α → List β
  | _, [] => []
  | s, a :: labels => observe s a :: seen step observe (step s a) labels

@[simp] theorem seen_nil (step : σ → α → σ) (observe : σ → α → β) (s : σ) :
    seen step observe s [] = [] := rfl

@[simp] theorem seen_cons (step : σ → α → σ) (observe : σ → α → β) (s : σ) (a : α) (labels : List α) :
    seen step observe s (a :: labels) = observe s a :: seen step observe (step s a) labels := rfl

/-- States that look alike and stay alike in every step cannot be told apart by
any run. -/
theorem seen_eq_of_lockstep {step : σ → α → σ} {observe : σ → α → β} {R : σ → σ → Prop}
    (locks : ∀ s t a, R s t → observe t a = observe s a ∧ R (step s a) (step t a)) {s t : σ}
    (start : R s t) (labels : List α) : seen step observe t labels = seen step observe s labels := by
  induction labels generalizing s t with
  | nil => rfl
  | cons a labels ih =>
    obtain ⟨same, next⟩ := locks s t a start
    rw [seen_cons, seen_cons, same, ih next]

end Observers

end Crablib.Run
