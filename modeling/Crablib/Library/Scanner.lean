import Mathlib.Init

/-! Incremental scanners: a machine that consumes one symbol at a time, may
fail, and stops by itself. Feeding it a text in pieces is feeding it the whole
text, which is the only fact callers need about segmentation. -/
namespace Crablib.Scanner

variable {σ α ε : Type}

/-- A machine over symbols `α`; it consumes nothing once it is good. -/
structure Machine (σ α ε : Type) where
  consume : σ → α → Except ε σ
  good : σ → Bool

/-- Feed symbols until the machine is good or the text ends; the rest of the
text is returned with the machine. -/
def scan (m : Machine σ α ε) : σ → List α → Except ε (σ × List α)
  | s, [] => .ok (s, [])
  | s, a :: text =>
    if m.good s then .ok (s, a :: text)
    else
      match m.consume s a with
      | .error e => .error e
      | .ok t => scan m t text

@[simp] theorem scan_nil (m : Machine σ α ε) (s : σ) : scan m s [] = .ok (s, []) := rfl

theorem scan_good {m : Machine σ α ε} {s : σ} (good : m.good s = true) (text : List α) :
    scan m s text = .ok (s, text) := by
  cases text <;> simp [scan, good]

theorem scan_step {m : Machine σ α ε} {s t : σ} {a : α} (running : m.good s = false)
    (consumed : m.consume s a = .ok t) (text : List α) : scan m s (a :: text) = scan m t text := by
  simp [scan, running, consumed]

theorem scan_fail {m : Machine σ α ε} {s : σ} {a : α} {e : ε} (running : m.good s = false)
    (failed : m.consume s a = .error e) (text : List α) : scan m s (a :: text) = .error e := by
  simp [scan, running, failed]

/-- Text is left over only when the machine is good. -/
theorem good_of_rest {m : Machine σ α ε} {s t : σ} {text rest : List α}
    (scanned : scan m s text = .ok (t, rest)) (left : rest ≠ []) : m.good t = true := by
  induction text generalizing s with
  | nil =>
    simp only [scan_nil, Except.ok.injEq, Prod.mk.injEq] at scanned
    exact absurd scanned.2.symm left
  | cons a text ih =>
    unfold scan at scanned
    split at scanned
    · rename_i good
      simp only [Except.ok.injEq, Prod.mk.injEq] at scanned
      exact scanned.1 ▸ good
    · split at scanned
      · simp at scanned
      · exact ih scanned

/-- The rest is a suffix of the text. -/
theorem rest_suffix {m : Machine σ α ε} {s t : σ} {text rest : List α}
    (scanned : scan m s text = .ok (t, rest)) : ∃ used, text = used ++ rest := by
  induction text generalizing s with
  | nil =>
    simp only [scan_nil, Except.ok.injEq, Prod.mk.injEq] at scanned
    exact ⟨[], by simp [scanned.2]⟩
  | cons a text ih =>
    unfold scan at scanned
    split at scanned
    · simp only [Except.ok.injEq, Prod.mk.injEq] at scanned
      exact ⟨[], by simp [scanned.2]⟩
    · split at scanned
      · simp at scanned
      · obtain ⟨used, rfl⟩ := ih scanned
        exact ⟨a :: used, rfl⟩

/-- A machine that is not good consumes the next symbol. -/
theorem rest_shorter {m : Machine σ α ε} {s t : σ} {text rest : List α} (running : m.good s = false)
    (some : text ≠ []) (scanned : scan m s text = .ok (t, rest)) : rest.length < text.length := by
  cases text with
  | nil => exact absurd rfl some
  | cons a text =>
    unfold scan at scanned
    simp only [running, Bool.false_eq_true, ↓reduceIte] at scanned
    split at scanned
    · simp at scanned
    · obtain ⟨used, rfl⟩ := rest_suffix scanned
      simp only [List.length_cons, List.length_append]
      omega

/-- Scanning a text in two pieces is scanning it whole. -/
theorem scan_append (m : Machine σ α ε) (s : σ) (first second : List α) :
    scan m s (first ++ second) =
      match scan m s first with
      | .error e => .error e
      | .ok (t, rest) => scan m t (rest ++ second) := by
  induction first generalizing s with
  | nil => simp
  | cons a first ih =>
    cases good : m.good s with
    | true => simp [scan_good good]
    | false =>
      cases consumed : m.consume s a with
      | error e => simp [scan_fail good consumed]
      | ok t =>
        rw [List.cons_append, scan_step good consumed, scan_step good consumed]
        exact ih t

/-- A machine that fails on a part of a text fails on the text. -/
theorem scan_append_error {m : Machine σ α ε} {s : σ} {first second : List α} {e : ε}
    (failed : scan m s first = .error e) : scan m s (first ++ second) = .error e := by
  rw [scan_append, failed]

/-- What is left to scan after a part of a text that is scanned to its end. -/
theorem scan_part {m : Machine σ α ε} {s t : σ} {first second : List α}
    (scanned : scan m s (first ++ second) = .ok (t, [])) (more : second ≠ []) :
    ∃ u, scan m s first = .ok (u, []) ∧ m.good u = false ∧ scan m u second = .ok (t, []) := by
  rw [scan_append] at scanned
  cases part : scan m s first with
  | error e => simp [part] at scanned
  | ok result =>
    obtain ⟨u, rest⟩ := result
    simp only [part] at scanned
    have running : m.good u = false := by
      cases good : m.good u with
      | false => rfl
      | true =>
        rw [scan_good good] at scanned
        simp [more] at scanned
    cases rest with
    | nil => exact ⟨u, rfl, running, scanned⟩
    | cons a rest =>
      have good := good_of_rest part (by simp)
      simp [good] at running

/-- What was used of a text is scanned to its end. -/
theorem scan_used {m : Machine σ α ε} {s t : σ} {used rest : List α}
    (scanned : scan m s (used ++ rest) = .ok (t, rest)) : scan m s used = .ok (t, []) := by
  rw [scan_append] at scanned
  cases front : scan m s used with
  | error e => simp [front] at scanned
  | ok result =>
    obtain ⟨u, left⟩ := result
    simp only [front] at scanned
    cases good : m.good u with
    | true =>
      rw [scan_good good] at scanned
      simp only [Except.ok.injEq, Prod.mk.injEq] at scanned
      rw [scanned.1, List.append_left_eq_self.mp scanned.2]
    | false =>
      have none : left = [] := by
        cases left with
        | nil => rfl
        | cons a left => simp [good_of_rest front (by simp)] at good
      subst none
      cases rest with
      | nil =>
        simp only [List.append_nil, scan_nil, Except.ok.injEq, Prod.mk.injEq, and_true] at scanned
        rw [scanned]
      | cons a rest => exact absurd (rest_shorter good (by simp) scanned) (Nat.lt_irrefl _)

/-- A text that is scanned to its end leaves alone what follows it. -/
theorem scan_whole {m : Machine σ α ε} {s t : σ} {text : List α} (scanned : scan m s text = .ok (t, []))
    (good : m.good t = true) (more : List α) : scan m s (text ++ more) = .ok (t, more) := by
  rw [scan_append, scanned]
  simp [scan_good good]

/-- A text that is scanned to its end is scanned from its first symbol on. -/
theorem scan_first {m : Machine σ α ε} {s t : σ} {a : α} {text : List α}
    (scanned : scan m s (a :: text) = .ok (t, [])) :
    m.good s = false ∧ ∃ u, m.consume s a = .ok u ∧ scan m u text = .ok (t, []) := by
  cases good : m.good s with
  | true =>
    rw [scan_good good] at scanned
    cases scanned
  | false =>
    cases consumed : m.consume s a with
    | error e =>
      rw [scan_fail good consumed] at scanned
      cases scanned
    | ok u => exact ⟨rfl, u, rfl, (scan_step good consumed text).symm.trans scanned⟩

/-- Feed the pieces of a text one after the other; what is left of each of them is
returned with the machine. -/
def feed (m : Machine σ α ε) : σ → List (List α) → Except ε (σ × List α)
  | s, [] => .ok (s, [])
  | s, piece :: pieces =>
    match scan m s piece with
    | .error e => .error e
    | .ok (t, rest) =>
      match feed m t pieces with
      | .error e => .error e
      | .ok (u, later) => .ok (u, rest ++ later)

/-- Scanning a text in any number of pieces is scanning it whole. -/
theorem feed_flatten (m : Machine σ α ε) (s : σ) (pieces : List (List α)) :
    feed m s pieces = scan m s pieces.flatten := by
  induction pieces generalizing s with
  | nil => rfl
  | cons piece pieces ih =>
    rw [feed, List.flatten_cons, scan_append]
    cases scanned : scan m s piece with
    | error e => rfl
    | ok result =>
      obtain ⟨t, rest⟩ := result
      simp only [ih]
      cases rest with
      | nil =>
        rw [List.nil_append]
        cases scan m t pieces.flatten <;> rfl
      | cons a rest =>
        have good := good_of_rest scanned (by simp)
        rw [scan_good good, scan_good good]

/-- A property that every step preserves holds of the scanned machine. -/
theorem scan_preserves {m : Machine σ α ε} {P : σ → Prop}
    (keeps : ∀ s a t, m.good s = false → P s → m.consume s a = .ok t → P t)
    {s t : σ} {text rest : List α} (start : P s) (scanned : scan m s text = .ok (t, rest)) : P t := by
  induction text generalizing s with
  | nil =>
    simp only [scan_nil, Except.ok.injEq, Prod.mk.injEq] at scanned
    exact scanned.1 ▸ start
  | cons a text ih =>
    unfold scan at scanned
    split at scanned
    · simp only [Except.ok.injEq, Prod.mk.injEq] at scanned
      exact scanned.1 ▸ start
    · rename_i running
      split at scanned
      · simp at scanned
      · rename_i consumed
        exact ih (keeps _ _ _ (by simpa using running) start consumed) scanned

/-- The same for a property that speaks of the symbols taken so far. -/
theorem scan_traces {m : Machine σ α ε} {P : List α → σ → Prop}
    (keeps : ∀ seen s a t, m.good s = false → P seen s → m.consume s a = .ok t → P (seen ++ [a]) t)
    {s t : σ} {seen used rest : List α} (start : P seen s)
    (scanned : scan m s (used ++ rest) = .ok (t, rest)) :
    P (seen ++ used) t := by
  induction used generalizing s seen with
  | nil =>
    rw [List.append_nil]
    cases rest with
    | nil =>
      simp only [List.nil_append, scan_nil, Except.ok.injEq, Prod.mk.injEq] at scanned
      exact scanned.1 ▸ start
    | cons a rest =>
      have same : s = t := by
        cases good : m.good s with
        | true =>
          rw [List.nil_append, scan_good good] at scanned
          simp only [Except.ok.injEq, Prod.mk.injEq] at scanned
          exact scanned.1
        | false =>
          have shorter := rest_shorter good (by simp) scanned
          simp at shorter
      exact same ▸ start
  | cons a used ih =>
    rw [List.cons_append, scan] at scanned
    split at scanned
    · have length := congrArg (fun result => result.toOption.map fun r => r.2.length) scanned
      simp [Except.toOption] at length
      omega
    · rename_i running
      split at scanned
      · cases scanned
      · rename_i next consumed
        have traced := ih (keeps seen s a next (by simpa using running) start consumed) scanned
        rwa [List.append_assoc] at traced

/-- The same for a property that counts them. -/
theorem scan_counts {m : Machine σ α ε} {P : σ → Nat → Prop}
    (keeps : ∀ s a t k, m.good s = false → P s k → m.consume s a = .ok t → P t (k + 1))
    {s t : σ} {used rest : List α} {k : Nat} (start : P s k)
    (scanned : scan m s (used ++ rest) = .ok (t, rest)) :
    P t (k + used.length) := by
  refine scan_traces (P := fun seen s => P s (k + seen.length)) ?_
    (show P s (k + ([] : List α).length) from start) scanned
  intro seen s a t running holds consumed
  rw [List.length_append]
  exact keeps s a t _ running holds consumed

section Terminators

/-- Some of the two-symbol line ends of a text have become the second symbol alone. -/
inductive Relaxes (cr lf : α) : List α → List α → Prop where
  | nil : Relaxes cr lf [] []
  | symbol {a : α} {text text' : List α} (cr_ : a ≠ cr) (lf_ : a ≠ lf)
      (more : Relaxes cr lf text text') : Relaxes cr lf (a :: text) (a :: text')
  | kept {text text' : List α} (more : Relaxes cr lf text text') :
      Relaxes cr lf (cr :: lf :: text) (cr :: lf :: text')
  | bare {text text' : List α} (more : Relaxes cr lf text text') :
      Relaxes cr lf (cr :: lf :: text) (lf :: text')

variable {cr lf : α} {text text' : List α}

theorem Relaxes.length_le (relaxes : Relaxes cr lf text text') : text'.length ≤ text.length := by
  induction relaxes with
  | nil => exact Nat.le_refl _
  | symbol _ _ _ ih =>
    simp only [List.length_cons]
    omega
  | kept _ ih =>
    simp only [List.length_cons]
    omega
  | bare _ ih =>
    simp only [List.length_cons]
    omega

/-- A machine for which both line ends lead to the same place takes the one for the
other, as long as it stays where that is so. -/
theorem scan_relaxes {m : Machine σ α ε} {P : σ → Prop}
    (keeps : ∀ s a t, P s → m.consume s a = .ok t → P t)
    (same : ∀ s t u, P s → m.consume s cr = .ok t → m.consume t lf = .ok u → m.consume s lf = .ok u)
    {s t : σ} (start : P s) (relaxes : Relaxes cr lf text text')
    (scanned : scan m s text = .ok (t, [])) :
    scan m s text' = .ok (t, []) := by
  induction relaxes generalizing s with
  | nil => exact scanned
  | symbol _ _ _ ih =>
    obtain ⟨running, u, consumed, later⟩ := scan_first scanned
    rw [scan_step running consumed]
    exact ih (keeps _ _ _ start consumed) later
  | kept _ ih =>
    obtain ⟨running, u, consumed, later⟩ := scan_first scanned
    obtain ⟨running', v, consumed', later'⟩ := scan_first later
    rw [scan_step running consumed, scan_step running' consumed']
    exact ih (keeps _ _ _ (keeps _ _ _ start consumed) consumed') later'
  | bare _ ih =>
    obtain ⟨running, u, consumed, later⟩ := scan_first scanned
    obtain ⟨-, v, consumed', later'⟩ := scan_first later
    rw [scan_step running (same _ _ _ start consumed consumed')]
    exact ih (keeps _ _ _ (keeps _ _ _ start consumed) consumed') later'

end Terminators

section Two

variable {τ : Type}

/-- Two results match: both machines stopped with the same rest in related states,
or both failed in the same way. -/
inductive Matches (R : List α → σ → τ → Prop) :
    Except ε (σ × List α) → Except ε (τ × List α) → Prop where
  | ok {s : σ} {t : τ} (rest : List α) (related : R rest s t) : Matches R (.ok (s, rest)) (.ok (t, rest))
  | error (e : ε) : Matches R (.error e) (.error e)

/-- One symbol takes related machines to related machines, or fails in both. -/
inductive Steps (R : List α → σ → τ → Prop) (text : List α) : Except ε σ → Except ε τ → Prop where
  | ok {s : σ} {t : τ} (related : R text s t) : Steps R text (.ok s) (.ok t)
  | error (e : ε) : Steps R text (.error e) (.error e)

namespace Matches

variable {σ' τ' υ : Type} {R : List α → σ → τ → Prop}
  {x : Except ε (σ × List α)} {y : Except ε (τ × List α)} {z : Except ε (υ × List α)}

theorem symm (matches_ : Matches R x y) : Matches (fun rest t s => R rest s t) y x := by
  cases matches_ with
  | ok rest related => exact .ok rest related
  | error e => exact .error e

theorem comp {S : List α → τ → υ → Prop} (first : Matches R x y) (second : Matches S y z) :
    Matches (fun rest s u => ∃ t, R rest s t ∧ S rest t u) x z := by
  cases first with
  | ok rest related =>
    cases second with
    | ok _ related' => exact .ok rest ⟨_, related, related'⟩
  | error e =>
    cases second with
    | error _ => exact .error e

theorem mono {S : List α → σ → τ → Prop} (matches_ : Matches R x y)
    (weaker : ∀ rest s t, R rest s t → S rest s t) : Matches S x y := by
  cases matches_ with
  | ok rest related => exact .ok rest (weaker rest _ _ related)
  | error e => exact .error e

/-- Results match behind maps when what they hold does. -/
theorem map_iff {S : List α → σ' → τ' → Prop} {f : σ → σ'} {g : τ → τ'} :
    Matches S (x.map fun read => (f read.1, read.2)) (y.map fun read => (g read.1, read.2)) ↔
      Matches (fun rest s t => S rest (f s) (g t)) x y := by
  constructor
  · intro matches_
    cases x with
    | error e =>
      cases y with
      | error e' =>
        cases matches_
        exact .error e
      | ok read => cases matches_
    | ok read =>
      cases y with
      | error e => cases matches_
      | ok read' =>
        obtain ⟨s, rest⟩ := read
        obtain ⟨t, rest'⟩ := read'
        cases matches_ with
        | ok _ related => exact .ok rest related
  · intro matches_
    cases matches_ with
    | ok rest related => exact .ok rest related
    | error e => exact .error e

end Matches

/-- Machines that step alike scan every text alike. The relation may speak of the
text that is still to come. -/
theorem scan_matches {m : Machine σ α ε} {n : Machine τ α ε} {R : List α → σ → τ → Prop}
    (good : ∀ {text s t}, R text s t → m.good s = n.good t)
    (steps : ∀ {text s t a}, R (a :: text) s t → m.good s = false →
      Steps R text (m.consume s a) (n.consume t a))
    {s : σ} {t : τ} {text : List α} (related : R text s t) :
    Matches R (scan m s text) (scan n t text) := by
  induction text generalizing s t with
  | nil => exact .ok [] related
  | cons a text ih =>
    have same := good related
    cases stopped : m.good s with
    | true =>
      rw [scan_good stopped, scan_good (same.symm.trans stopped)]
      exact .ok (a :: text) related
    | false =>
      have step := steps related stopped
      generalize first : m.consume s a = result at step
      generalize second : n.consume t a = result' at step
      cases step with
      | ok related' =>
        rw [scan_step stopped first, scan_step (same.symm.trans stopped) second]
        exact ih related'
      | error e =>
        rw [scan_fail stopped first, scan_fail (same.symm.trans stopped) second]
        exact .error e

end Two

section Maps

variable {τ : Type}

/-- A map that takes one machine to another, symbol by symbol. -/
structure Hom (m : Machine σ α ε) (n : Machine τ α ε) where
  map : σ → τ
  good : ∀ s, n.good (map s) = m.good s
  consume : ∀ s a, n.consume (map s) a = (m.consume s a).map map

namespace Hom

variable {m : Machine σ α ε} {n : Machine τ α ε} (hom : Hom m n) {s t : σ} {text rest : List α}

/-- Scanning with the one machine is scanning with the other. -/
theorem scan_map (s : σ) (text : List α) :
    scan n (hom.map s) text = (scan m s text).map fun read => (hom.map read.1, read.2) := by
  induction text generalizing s with
  | nil => rfl
  | cons a text ih =>
    have good := hom.good s
    cases stopped : m.good s with
    | true =>
      rw [scan_good stopped, scan_good (good.trans stopped)]
      rfl
    | false =>
      have consume := hom.consume s a
      cases consumed : m.consume s a with
      | error e =>
        rw [consumed] at consume
        rw [scan_fail stopped consumed, scan_fail (good.trans stopped) consume]
        rfl
      | ok t =>
        rw [consumed] at consume
        rw [scan_step stopped consumed, scan_step (good.trans stopped) consume]
        exact ih t

include hom in
theorem scan_ok (scanned : scan m s text = .ok (t, rest)) :
    scan n (hom.map s) text = .ok (hom.map t, rest) := by
  rw [hom.scan_map, scanned]
  rfl

include hom in
theorem of_error {e : ε} (scanned : scan n (hom.map s) text = .error e) : scan m s text = .error e := by
  rw [hom.scan_map] at scanned
  cases read : scan m s text with
  | error e' =>
    rw [read] at scanned
    cases scanned
    rfl
  | ok result =>
    rw [read] at scanned
    cases scanned

include hom in
theorem of_scan {u : τ} (scanned : scan n (hom.map s) text = .ok (u, rest)) :
    ∃ t, u = hom.map t ∧ scan m s text = .ok (t, rest) := by
  rw [hom.scan_map] at scanned
  cases read : scan m s text with
  | error e =>
    rw [read] at scanned
    cases scanned
  | ok result =>
    rw [read] at scanned
    cases scanned
    exact ⟨result.1, rfl, rfl⟩

end Hom

end Maps

section Limits

/-- `m` is `n` with a limit on the number of symbols, which it counts in a field that
`n` does not look at. -/
structure Limited (m n : Machine σ α ε) where
  limit : σ → Nat
  count : σ → Nat
  set : σ → Nat → σ
  tooLong : ε
  count_set : ∀ s k, count (set s k) = k
  set_set : ∀ s k l, set (set s k) l = set s l
  set_count : ∀ s, set s (count s) = s
  limit_set : ∀ s k, limit (set s k) = limit s
  limit_kept : ∀ {s a t}, n.consume s a = .ok t → limit t = limit s
  good : ∀ s, m.good s = n.good s
  good_set : ∀ s k, n.good (set s k) = n.good s
  inner : ∀ s k a, n.consume (set s k) a = (n.consume s a).map fun t => set t k
  step : ∀ s a, m.consume s a =
    if count s + 1 > limit s then .error tooLong else (n.consume s a).map fun t => set t (count s + 1)

namespace Limited

variable {m n : Machine σ α ε} (limited : Limited m n) {s t : σ} {text rest : List α}

include limited in
/-- Within the limit the machine is the one without it. -/
theorem scan_ok (fits : limited.count s + text.length ≤ limited.limit s)
    (scanned : scan n s text = .ok (t, rest)) :
    ∃ k, scan m s text = .ok (limited.set t k, rest) := by
  let R : List α → σ → σ → Prop := fun text s t =>
    s = limited.set t (limited.count s) ∧ limited.count s + text.length ≤ limited.limit s
  have matches_ : Matches R (scan m s text) (scan n s text) := by
    refine scan_matches (R := R) (fun related => ?_) (fun related running => ?_)
      ⟨(limited.set_count s).symm, fits⟩
    · rw [limited.good, related.1, limited.good_set]
    · rename_i text s t a
      obtain ⟨same, fits⟩ := related
      rw [List.length_cons] at fits
      have inner : n.consume s a = (n.consume t a).map fun u => limited.set u (limited.count s) :=
        (congrArg (n.consume · a) same).trans (limited.inner t (limited.count s) a)
      have consumed : m.consume s a = (n.consume t a).map fun u =>
          limited.set u (limited.count s + 1) := by
        rw [limited.step, if_neg (by omega), inner]
        cases n.consume t a with
        | error e => rfl
        | ok u => simp only [Except.map, limited.set_set]
      rw [consumed]
      cases kept : n.consume t a with
      | error e => exact .error e
      | ok u =>
        have limit : limited.limit u = limited.limit s :=
          (limited.limit_kept kept).trans
            ((limited.limit_set t _).symm.trans (congrArg limited.limit same.symm))
        refine .ok ⟨?_, ?_⟩
        · rw [limited.count_set]
        · rw [limited.count_set, limited.limit_set, limit]
          omega
  rw [scanned] at matches_
  generalize scan m s text = result at matches_
  cases matches_ with
  | ok _ related => exact ⟨_, by rw [← related.1]⟩

/-- The machine stops at the limit, or does what the one without it does. -/
theorem scan_cases (s : σ) (text : List α) : scan m s text = .error limited.tooLong ∨
    Matches (fun _ t u => ∃ k, t = limited.set u k) (scan m s text) (scan n s text) := by
  suffices ∀ u k, s = limited.set u k → scan m s text = .error limited.tooLong ∨
      Matches (fun _ t u => ∃ k, t = limited.set u k) (scan m s text) (scan n u text) from
    this s (limited.count s) (limited.set_count s).symm
  induction text generalizing s with
  | nil => exact fun u k same => .inr (.ok [] ⟨k, same⟩)
  | cons a text ih =>
    intro u k same
    have good : m.good s = n.good u := by rw [limited.good, same, limited.good_set]
    cases stopped : m.good s with
    | true =>
      rw [scan_good stopped, scan_good (good.symm.trans stopped)]
      exact .inr (.ok (a :: text) ⟨k, same⟩)
    | false =>
      have step := limited.step s a
      split at step
      · exact .inl (scan_fail stopped step text)
      rw [same, limited.inner] at step
      cases consumed : n.consume u a with
      | error e =>
        rw [consumed] at step
        rw [scan_fail stopped (same.symm ▸ step), scan_fail (good.symm.trans stopped) consumed]
        exact .inr (.error e)
      | ok v =>
        rw [consumed] at step
        simp only [Except.map, limited.set_set] at step
        rw [scan_step stopped (same.symm ▸ step), scan_step (good.symm.trans stopped) consumed]
        exact ih _ v _ rfl

/-- A text that is accepted is also accepted without the limit. -/
theorem scan_within (scanned : scan m s text = .ok (t, rest)) (k : Nat) :
    scan n (limited.set s k) text = .ok (limited.set t k, rest) := by
  induction text generalizing s with
  | nil =>
    simp only [scan_nil, Except.ok.injEq, Prod.mk.injEq] at scanned ⊢
    exact ⟨by rw [scanned.1], scanned.2⟩
  | cons a text ih =>
    cases good : m.good s with
    | true =>
      rw [scan_good good] at scanned
      simp only [Except.ok.injEq, Prod.mk.injEq] at scanned
      have good' : n.good (limited.set s k) = true := by rw [limited.good_set, ← limited.good, good]
      rw [scan_good good', scanned.1, scanned.2]
    | false =>
      have running : n.good (limited.set s k) = false := by rw [limited.good_set, ← limited.good, good]
      cases consumed : m.consume s a with
      | error e => simp [scan_fail good consumed] at scanned
      | ok next =>
        rw [scan_step good consumed] at scanned
        have step : n.consume (limited.set s k) a = .ok (limited.set next k) := by
          rw [limited.step] at consumed
          split at consumed
          · cases consumed
          rw [limited.inner]
          cases same : n.consume s a with
          | error e => simp [same, Except.map] at consumed
          | ok u =>
            simp only [same, Except.map, Except.ok.injEq] at consumed ⊢
            rw [← consumed, limited.set_set]
        exact (scan_step running step text).trans (ih scanned)

/-- The count is that of the symbols taken, and never passes the limit. -/
theorem scan_count (scanned : scan m s text = .ok (t, rest))
    (start : limited.count s ≤ limited.limit s) :
    limited.count t ≤ limited.limit s ∧
      limited.count t + rest.length = limited.count s + text.length := by
  induction text generalizing s with
  | nil =>
    simp only [scan_nil, Except.ok.injEq, Prod.mk.injEq] at scanned
    rw [← scanned.1, ← scanned.2]
    exact ⟨start, rfl⟩
  | cons a text ih =>
    cases good : m.good s with
    | true =>
      rw [scan_good good] at scanned
      simp only [Except.ok.injEq, Prod.mk.injEq] at scanned
      rw [← scanned.1, ← scanned.2]
      exact ⟨start, rfl⟩
    | false =>
      cases consumed : m.consume s a with
      | error e => simp [scan_fail good consumed] at scanned
      | ok next =>
        rw [scan_step good consumed] at scanned
        rw [limited.step] at consumed
        split at consumed
        · cases consumed
        rename_i within
        have counted : limited.count next = limited.count s + 1 ∧
            limited.limit next = limited.limit s := by
          cases same : n.consume s a with
          | error e => simp [same, Except.map] at consumed
          | ok u =>
            simp only [same, Except.map, Except.ok.injEq] at consumed
            rw [← consumed, limited.count_set, limited.limit_set, limited.limit_kept same]
            exact ⟨rfl, rfl⟩
        obtain ⟨bound, total⟩ := ih scanned (by omega)
        rw [List.length_cons]
        exact ⟨counted.2 ▸ bound, by omega⟩

end Limited

end Limits

end Crablib.Scanner
