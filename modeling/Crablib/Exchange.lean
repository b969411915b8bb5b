import Crablib.Bytes
import Mathlib.Data.List.Induction

/-! The order of an HTTP exchange, independent of the code that keeps it. A log
lists the requests taken and everything emitted; `advance` says what may come
next. A log that is accepted pairs header blocks with requests, puts body bytes
inside a response, and keeps to the announced length. -/
namespace Crablib.Exchange

/-- What a log is made of. `block` and `payload` are bytes as they are emitted,
`val` are the body bytes in them. -/
inductive Entry where
  | request
  | header (block : Bytes) (contentLength : Option Nat)
  | upgrade (block : Bytes)
  | data (val : Bytes)
  | chunk (val payload : Bytes)
  | complete (terminator : Bytes)
  | web (payload : Bytes)
  deriving DecidableEq

/-- Where an exchange stands: no request taken, a response owed, a response with
an announced length or in chunks under way, or upgraded to web messages. -/
inductive Phase where
  | idle
  | owed
  | counted (left : Nat)
  | chunked
  | upgraded
  deriving DecidableEq

def Entry.bytes : Entry → Bytes
  | .request => []
  | .header block _ => block
  | .upgrade block => block
  | .data val => val
  | .chunk _ payload => payload
  | .complete terminator => terminator
  | .web payload => payload

/-- The phase of a response whose header block was emitted. -/
def started : Option Nat → Phase
  | some length => .counted length
  | none => .chunked

def advance : Phase → Entry → Option Phase
  | .idle, .request => some .owed
  | .owed, .header _ contentLength => some (started contentLength)
  | .owed, .upgrade _ => some .upgraded
  | .counted left, .data val => if val.length ≤ left then some (.counted (left - val.length)) else none
  | .counted 0, .complete _ => some .idle
  | .chunked, .chunk _ _ => some .chunked
  | .chunked, .complete _ => some .idle
  | .upgraded, .web _ => some .upgraded
  | _, _ => none

/-- The phase a log leads to, if it is accepted. -/
def run (phase : Phase) (log : List Entry) : Option Phase := log.foldlM advance phase

@[simp] theorem run_nil (phase : Phase) : run phase [] = some phase := rfl

@[simp] theorem run_cons (phase : Phase) (e : Entry) (log : List Entry) :
    run phase (e :: log) = (advance phase e).bind fun next => run next log := rfl

theorem run_append (phase : Phase) (first second : List Entry) :
    run phase (first ++ second) = (run phase first).bind fun next => run next second := by
  simp only [run, List.foldlM_append]
  rfl

/-- A log that is accepted is accepted up to any point. -/
theorem run_split {phase last : Phase} {first second : List Entry}
    (accepted : run phase (first ++ second) = some last) :
    ∃ middle, run phase first = some middle ∧ run middle second = some last := by
  rw [run_append] at accepted
  exact Option.bind_eq_some_iff.mp accepted

def requests (log : List Entry) : Nat := log.countP (· == .request)

def Entry.isBlock : Entry → Bool
  | .header _ _ => true
  | .upgrade _ => true
  | _ => false

/-- The header blocks of a log. -/
def blocks (log : List Entry) : Nat := log.countP Entry.isBlock

/-- The responses owed in a phase. -/
def Phase.debt : Phase → Nat
  | .owed => 1
  | _ => 0

private theorem advance_balance {phase next : Phase} {e : Entry} (step : advance phase e = some next) :
    (if e == .request then 1 else 0) + phase.debt = (if e.isBlock then 1 else 0) + next.debt := by
  unfold advance at step
  split at step
  · cases step
    rfl
  · rename_i block contentLength
    cases step
    cases contentLength <;> simp [started, Entry.isBlock, Phase.debt]
  · cases step
    simp [Entry.isBlock, Phase.debt]
  · rename_i left val
    split at step
    · cases step
      simp [Entry.isBlock, Phase.debt]
    · cases step
  · cases step
    simp [Entry.isBlock, Phase.debt]
  · cases step
    simp [Entry.isBlock, Phase.debt]
  · cases step
    simp [Entry.isBlock, Phase.debt]
  · cases step
    simp [Entry.isBlock, Phase.debt]
  · cases step

theorem run_balance {phase last : Phase} {log : List Entry} (accepted : run phase log = some last) :
    requests log + phase.debt = blocks log + last.debt := by
  induction log generalizing phase with
  | nil =>
    cases accepted
    rfl
  | cons e log ih =>
    rw [run_cons, Option.bind_eq_some_iff] at accepted
    obtain ⟨next, step, rest⟩ := accepted
    have balanced := advance_balance step
    have later := ih rest
    simp only [requests, blocks, List.countP_cons] at later ⊢
    omega

/-- Header blocks answer requests one to one, in order: at every point of an
accepted log there is at most one request more. -/
theorem paired {last : Phase} {before after : List Entry}
    (accepted : run .idle (before ++ after) = some last) :
    blocks before ≤ requests before ∧ requests before ≤ blocks before + 1 := by
  obtain ⟨middle, first, -⟩ := run_split accepted
  have balanced := run_balance first
  have debt : middle.debt ≤ 1 := by cases middle <;> simp [Phase.debt]
  simp only [Phase.debt] at balanced debt
  omega

/-- Entries that carry body bytes. -/
def Entry.isBody : Entry → Bool
  | .data _ => true
  | .chunk _ _ => true
  | _ => false

/-- A response is under way. -/
def Phase.streaming : Phase → Bool
  | .counted _ => true
  | .chunked => true
  | _ => false

/-- Only a header block starts a response, and only body bytes keep it going. -/
private theorem advance_streaming {phase next : Phase} {e : Entry} (step : advance phase e = some next)
    (streaming : next.streaming = true) :
    (∃ block contentLength, e = .header block contentLength) ∨ e.isBody = true ∧
      phase.streaming = true := by
  unfold advance at step
  split at step
  · cases step
    simp [Phase.streaming] at streaming
  · exact .inl ⟨_, _, rfl⟩
  · cases step
    simp [Phase.streaming] at streaming
  · exact .inr ⟨rfl, rfl⟩
  · cases step
    simp [Phase.streaming] at streaming
  · exact .inr ⟨rfl, rfl⟩
  · cases step
    simp [Phase.streaming] at streaming
  · cases step
    simp [Phase.streaming] at streaming
  · cases step

private theorem advance_body {phase next : Phase} {e : Entry} (step : advance phase e = some next)
    (body : e.isBody = true) : phase.streaming = true := by
  unfold advance at step
  split at step <;> simp_all [Entry.isBody, Phase.streaming]

private theorem streaming_since {phase : Phase} {log : List Entry}
    (accepted : run .idle log = some phase) (streaming : phase.streaming = true) :
    ∃ earlier block contentLength since, log = earlier ++ .header block contentLength :: since ∧
      ∀ e ∈ since, e.isBody = true := by
  -- the last entry decides, so the induction takes the log apart from its end
  induction log using List.reverseRecOn generalizing phase with
  | nil =>
    cases accepted
    simp [Phase.streaming] at streaming
  | append_singleton log e ih =>
    obtain ⟨middle, first, last⟩ := run_split accepted
    rw [run_cons, Option.bind_eq_some_iff] at last
    obtain ⟨next, step, done⟩ := last
    cases done
    rcases advance_streaming step streaming with ⟨block, contentLength, rfl⟩ | ⟨body, going⟩
    · exact ⟨log, block, contentLength, [], rfl, by simp⟩
    · obtain ⟨earlier, block, contentLength, since, rfl, bodies⟩ := ih first going
      refine ⟨earlier, block, contentLength, since ++ [e], by simp, fun x member => ?_⟩
      rcases List.mem_append.mp member with old | new
      · exact bodies x old
      · exact List.mem_singleton.mp new ▸ body

/-- Body bytes come after a header block, with nothing but body bytes of the
same response in between. -/
theorem body_inside {last : Phase} {before after : List Entry} {e : Entry}
    (accepted : run .idle (before ++ e :: after) = some last) (body : e.isBody = true) :
    ∃ earlier block contentLength since, before = earlier ++ .header block contentLength :: since ∧
      ∀ x ∈ since, x.isBody = true := by
  obtain ⟨middle, first, rest⟩ := run_split accepted
  rw [run_cons, Option.bind_eq_some_iff] at rest
  obtain ⟨next, step, -⟩ := rest
  exact streaming_since first (advance_body step body)

/-- The body bytes in front of the next request. -/
def bodyOf : List Entry → Bytes
  | [] => []
  | .request :: _ => []
  | .data val :: log => val ++ bodyOf log
  | .chunk val _ :: log => val ++ bodyOf log
  | _ :: log => bodyOf log

private theorem bodyOf_idle {last : Phase} {log : List Entry} (accepted : run .idle log = some last) :
    bodyOf log = [] := by
  cases log with
  | nil => rfl
  | cons e log => cases e <;> simp_all [advance, bodyOf]

private theorem bodyOf_counted {left : Nat} {last : Phase} {log : List Entry}
    (accepted : run (.counted left) log = some last) : (bodyOf log).length ≤ left := by
  induction log generalizing left with
  | nil => simp [bodyOf]
  | cons e log ih =>
    rw [run_cons, Option.bind_eq_some_iff] at accepted
    obtain ⟨next, step, rest⟩ := accepted
    cases e with
    | data val =>
      simp only [advance] at step
      split at step
      · rename_i fits
        cases step
        have later := ih rest
        simp only [bodyOf, List.length_append]
        omega
      · cases step
    | complete terminator =>
      cases left with
      | zero =>
        cases step
        simp [bodyOf, bodyOf_idle rest]
      | succ left => cases step
    | request => cases step
    | header block contentLength => cases step
    | upgrade block => cases step
    | chunk val payload => cases step
    | web payload => cases step

/-- A response with an announced length has no more body bytes than that. -/
theorem body_bounded {last : Phase} {before after : List Entry} {block : Bytes} {length : Nat}
    (accepted : run .idle (before ++ .header block (some length) :: after) = some last) :
    (bodyOf after).length ≤ length := by
  obtain ⟨middle, -, rest⟩ := run_split accepted
  rw [run_cons, Option.bind_eq_some_iff] at rest
  obtain ⟨next, step, later⟩ := rest
  cases middle with
  | owed =>
    cases step
    exact bodyOf_counted later
  | idle => cases step
  | counted left => cases step
  | chunked => cases step
  | upgraded => cases step

end Crablib.Exchange
