import Crablib.Library.Scanner

/-! Messages cut off the front of a text. A cutter reads the first message of a
text that starts with a whole one, and more text behind it changes nothing. The
messages of a text are then a function of it, and text that comes later only adds
messages at the end. -/
namespace Crablib.Cutting
open Scanner

variable {α μ : Type}

structure Cutter (α μ : Type) where
  first : List α → Option (μ × List α)
  append : ∀ {text rest : List α} {m : μ}, first text = some (m, rest) →
    ∀ more, first (text ++ more) = some (m, rest ++ more)
  shorter : ∀ {text rest : List α} {m : μ}, first text = some (m, rest) → rest.length < text.length

/-- A text starts with these messages, and the rest is behind them. -/
inductive Cuts (c : Cutter α μ) : List α → List μ → List α → Prop where
  | done (rest : List α) : Cuts c rest [] rest
  | next {text middle rest : List α} {m : μ} {ms : List μ} (read : c.first text = some (m, middle))
      (later : Cuts c middle ms rest) : Cuts c text (m :: ms) rest

variable {c : Cutter α μ} {text more rest rest' : List α} {m : μ} {ms ms' : List μ}

theorem Cuts.append (cuts : Cuts c text ms rest) (more : List α) :
    Cuts c (text ++ more) ms (rest ++ more) := by
  induction cuts with
  | done rest => exact .done _
  | next read _ ih => exact .next (c.append read more) ih

/-- The message behind the ones that were cut. -/
theorem Cuts.snoc (cuts : Cuts c text ms rest) (read : c.first rest = some (m, rest')) :
    Cuts c text (ms ++ [m]) rest' := by
  induction cuts with
  | done rest => exact .next read (.done _)
  | next read' _ ih => exact .next read' (ih read)

/-- What a text starts with that is one message is none itself. -/
theorem first_proper (read : c.first (text ++ more) = some (m, [])) (some_ : more ≠ []) :
    c.first text = none := by
  cases first : c.first text with
  | none => rfl
  | some result =>
    obtain ⟨m', rest⟩ := result
    have longer := c.append first more
    rw [read, Option.some.injEq, Prod.mk.injEq] at longer
    exact absurd (List.append_eq_nil_iff.mp longer.2.symm).2 some_

/-- All messages a text starts with. -/
def messages (c : Cutter α μ) (text : List α) : List μ :=
  match _read : c.first text with
  | none => []
  | some (m, rest) => m :: messages c rest
termination_by text.length
decreasing_by exact c.shorter _read

theorem messages_none (none : c.first text = none) : messages c text = [] := by
  rw [messages]
  split
  · rfl
  · rename_i m rest read
    rw [none] at read
    cases read

theorem messages_some (read : c.first text = some (m, rest)) :
    messages c text = m :: messages c rest := by
  rw [messages]
  split
  · rename_i none
    rw [none] at read
    cases read
  · rename_i m' rest' read'
    rw [read] at read'
    cases read'
    rfl

/-- The messages a text was cut into are its first ones. -/
theorem Cuts.messages_eq (cuts : Cuts c text ms rest) :
    messages c text = ms ++ messages c rest := by
  induction cuts with
  | done rest => rfl
  | next read _ ih => rw [messages_some read, ih, List.cons_append]

/-- Text that comes later only adds messages. -/
theorem messages_append (c : Cutter α μ) (text more : List α) :
    messages c text <+: messages c (text ++ more) := by
  fun_induction messages c text with
  | case1 text none => exact List.nil_prefix
  | case2 text m rest read ih =>
    rw [messages_some (c.append read more)]
    exact List.cons_prefix_cons.mpr ⟨rfl, ih⟩

/-- Texts of one message each, one behind the other. -/
theorem cuts_flatten {β : Type} {text : β → List α} {message : β → μ} {items : List β}
    (each : ∀ b ∈ items, c.first (text b) = some (message b, [])) :
    Cuts c (items.flatMap text) (items.map message) [] := by
  induction items with
  | nil => exact .done []
  | cons b items ih =>
    have rest := ih fun b' member => each b' (List.mem_cons_of_mem b member)
    rw [List.flatMap_cons, List.map_cons]
    exact .next (c.append (each b List.mem_cons_self) _) (by simpa only [List.nil_append] using rest)

/-- The text behind the first messages. -/
def behind (c : Cutter α μ) : Nat → List α → List α
  | 0, text => text
  | count + 1, text =>
    match c.first text with
    | none => []
    | some (_, rest) => behind c count rest

/-- Nothing behind a message is needed to read it. -/
def Exact (c : Cutter α μ) : Prop :=
  ∀ {text rest : List α} {m : μ}, c.first text = some (m, rest) → ∃ front, text = front ++ rest ∧
    c.first front = some (m, [])

theorem Cuts.front (exact : Exact c) (cuts : Cuts c text ms rest) :
    ∃ front, text = front ++ rest ∧ Cuts c front ms [] := by
  induction cuts with
  | done rest => exact ⟨[], rfl, .done []⟩
  | next read _ ih =>
    obtain ⟨first, rfl, alone⟩ := exact read
    obtain ⟨later, rfl, cuts⟩ := ih
    refine ⟨first ++ later, (List.append_assoc _ _ _).symm, .next (c.append alone later) ?_⟩
    simpa only [List.nil_append] using cuts

section Stages

/-- Messages in two stages, each read by a machine; where the second one starts
depends on what the first one read. -/
structure Stages (σ τ α ε μ : Type) where
  head : Machine σ α ε
  start : σ
  waits : head.good start = false
  body : Machine τ α ε
  enter : σ → τ
  message : σ → τ → μ

namespace Stages

variable {σ τ ε : Type} (stages : Stages σ τ α ε μ)

def first (text : List α) : Option (μ × List α) :=
  match scan stages.head stages.start text with
  | .error _ => none
  | .ok (p, behind) =>
    if stages.head.good p then
      match scan stages.body (stages.enter p) behind with
      | .error _ => none
      | .ok (q, rest) => if stages.body.good q then some (stages.message p q, rest) else none
    else none

/-- A first message is read by both machines. -/
theorem first_iff : stages.first text = some (m, rest) ↔
    ∃ p q behind, scan stages.head stages.start text = .ok (p, behind) ∧ stages.head.good p = true ∧
      scan stages.body (stages.enter p) behind = .ok (q, rest) ∧ stages.body.good q = true ∧
      stages.message p q = m := by
  constructor
  · intro read
    unfold first at read
    split at read
    · cases read
    · rename_i p behind front
      split at read
      · rename_i good
        split at read
        · cases read
        · rename_i q rest' back
          split at read
          · rename_i good'
            simp only [Option.some.injEq, Prod.mk.injEq] at read
            exact ⟨p, q, behind, front, good, read.2 ▸ back, good', read.1⟩
          · cases read
      · cases read
  · rintro ⟨p, q, behind, front, good, back, good', rfl⟩
    simp [first, front, good, back, good']

private theorem scan_more {σ : Type} {n : Machine σ α ε} {s t : σ}
    (scanned : scan n s text = .ok (t, rest)) (good : n.good t = true) (more : List α) :
    scan n s (text ++ more) = .ok (t, rest ++ more) := by
  rw [scan_append, scanned]
  exact scan_good good _

def cutter : Cutter α μ where
  first := stages.first
  append := by
    intro text rest m read more
    obtain ⟨p, q, behind, front, good, back, good', same⟩ := stages.first_iff.mp read
    exact stages.first_iff.mpr ⟨p, q, behind ++ more, scan_more front good more, good,
      scan_more back good' more, good', same⟩
  shorter := by
    intro text rest m read
    obtain ⟨p, q, behind, front, good, back, -⟩ := stages.first_iff.mp read
    have some_ : text ≠ [] := by
      rintro rfl
      rw [scan_nil] at front
      cases front
      simp [stages.waits] at good
    have shorter := rest_shorter stages.waits some_ front
    obtain ⟨used, rfl⟩ := rest_suffix back
    rw [List.length_append] at shorter
    omega

theorem cutter_exact : Exact stages.cutter := by
  intro text rest m read
  obtain ⟨p, q, behind, front, good, back, good', same⟩ := stages.first_iff.mp read
  obtain ⟨first, rfl⟩ := rest_suffix front
  obtain ⟨second, rfl⟩ := rest_suffix back
  refine ⟨first ++ second, (List.append_assoc _ _ _).symm, ?_⟩
  exact stages.first_iff.mpr ⟨p, q, second, scan_whole (scan_used front) good second, good,
    scan_used back, good', same⟩

variable {stages} {p p' : σ} {q q' : τ} {used : List α}

/-- A reader that is still in the first stage of the message this text starts. -/
def InHead (stages : Stages σ τ α ε μ) (text : List α) (p : σ) : Prop :=
  scan stages.head stages.start text = .ok (p, [])

/-- A reader that is in the second stage. -/
def InBody (stages : Stages σ τ α ε μ) (text : List α) (p : σ) (q : τ) : Prop :=
  ∃ front back, text = front ++ back ∧ stages.InHead front p ∧ stages.head.good p = true ∧
    scan stages.body (stages.enter p) back = .ok (q, [])

theorem inHead_start (stages : Stages σ τ α ε μ) : stages.InHead [] stages.start := rfl

theorem InHead.feed (inHead : stages.InHead text p) (scanned : scan stages.head p used = .ok (p', [])) :
    stages.InHead (text ++ used) p' := by
  rw [InHead, scan_append, show scan stages.head stages.start text = _ from inHead]
  exact scanned

theorem InHead.enter (inHead : stages.InHead text p) (good : stages.head.good p = true) :
    stages.InBody text p (stages.enter p) :=
  ⟨text, [], (List.append_nil text).symm, inHead, good, rfl⟩

theorem InBody.feed (inBody : stages.InBody text p q)
    (scanned : scan stages.body q used = .ok (q', [])) :
    stages.InBody (text ++ used) p q' := by
  obtain ⟨front, back, rfl, inHead, good, read⟩ := inBody
  refine ⟨front, back ++ used, List.append_assoc front back used, inHead, good, ?_⟩
  rw [scan_append, read]
  exact scanned

/-- The reader reached the end of the message. -/
theorem InBody.whole (inBody : stages.InBody text p q) (good : stages.body.good q = true) :
    stages.cutter.first text = some (stages.message p q, []) := by
  obtain ⟨front, back, rfl, inHead, good', read⟩ := inBody
  exact stages.first_iff.mpr ⟨p, q, back, scan_whole inHead good' back, good', read, good, rfl⟩

/-- A text in which the first stage does not end holds no whole message. -/
theorem InHead.unfinished (inHead : stages.InHead text p) (running : stages.head.good p = false) :
    stages.cutter.first text = none := by
  simp [cutter, first, show scan stages.head stages.start text = _ from inHead, running]

theorem InBody.unfinished (inBody : stages.InBody text p q) (running : stages.body.good q = false) :
    stages.cutter.first text = none := by
  obtain ⟨front, back, rfl, inHead, good, read⟩ := inBody
  simp [cutter, first, scan_whole inHead good back, good, read, running]

end Stages
end Stages

end Crablib.Cutting
