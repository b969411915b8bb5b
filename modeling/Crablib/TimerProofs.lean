import Crablib.IntrusiveHeapProofs
import Crablib.Network.Timer
import Mathlib.Data.Set.Card
import Mathlib.Order.Interval.Finset.Nat

/-! Timers fire when they should and only then. The trace records what was
asked of the timers and which handlers ran; `requested` reads from it, without
looking at the heap, when a timer is set and for which time point. The heap key
may lag behind that time point, which is the one fact every operation keeps. -/
namespace Crablib.TimerProofs
open RunLoopLinks IntrusiveHeapProofs Sift

variable {ι : Type}

theorem heapPred_strict_weak (fireTime : ι → Int) : StrictWeak (heapPred fireTime) where
  asymm := by
    intro a b later
    simp only [heapPred, decide_eq_true_eq, decide_eq_false_iff_not] at later ⊢
    omega
  cotrans := by
    intro a b c later
    simp only [heapPred, decide_eq_true_eq] at later ⊢
    omega

/-- The set timers. -/
def Active (links : RunLoopLinks ι) : Set ι := Members links.activeTimers

/-- The heap is valid for the current keys, and no key is later than the time
point it stands for. -/
structure Consistent (links : RunLoopLinks ι) : Prop where
  valid : Valid (heapPred links.fireTime) links.activeTimers
  lag : ∀ t ∈ Active links, links.fireTime t ≤ links.movedFireTime t

/-- Set timers that the heap considers due. -/
def Due (links : RunLoopLinks ι) : Set ι := {t ∈ Active links | links.fireTime t ≤ links.now}

theorem isSet_iff (links : RunLoopLinks ι) (t : ι) : links.isSet t = true ↔ t ∈ Active links := by
  simp [isSet, Active]

private theorem active_small {links : RunLoopLinks ι} (consistent : Consistent links) :
    (Active links).Finite ∧ (Active links).ncard < links.activeTimers.size := by
  have linked := consistent.valid.linked
  have maps : Set.MapsTo links.activeTimers.heapIndex (Active links)
      (Finset.Ico 1 links.activeTimers.size) := by
    intro t member
    have inside := (linked.indexed t member).1
    simp only [Finset.coe_Ico, Set.mem_Ico]
    exact ⟨Nat.pos_of_ne_zero member, inside⟩
  have injective : Set.InjOn links.activeTimers.heapIndex (Active links) := by
    intro a first b second same
    have left := (linked.indexed a first).2
    have right := (linked.indexed b second).2
    rw [same, right] at left
    exact (Option.some.inj left).symm
  have finite : (Active links).Finite := Set.Finite.of_injOn maps injective (Finset.finite_toSet _)
  refine ⟨finite, ?_⟩
  have bound := Set.ncard_le_ncard_of_injOn _ maps injective (Finset.finite_toSet _)
  rw [Set.ncard_coe_finset, Nat.card_Ico] at bound
  have nonempty := linked.nonempty
  omega

/-- The front of the heap is a set timer with the least key. -/
theorem front_least {links : RunLoopLinks ι} (consistent : Consistent links)
    (nonempty : links.activeTimers.empty = false) :
    ∃ t, links.activeTimers.front = some t ∧ t ∈ Active links ∧ ∀ u ∈ Active links,
      links.fireTime t ≤ links.fireTime u := by
  obtain ⟨t, front, set, first⟩ :=
    front_max (heapPred_strict_weak links.fireTime) consistent.valid nonempty
  refine ⟨t, front, set, fun u member => ?_⟩
  have later := first u member
  simp only [heapPred, decide_eq_false_iff_not] at later
  omega

variable [DecidableEq ι]

/-- The new key of one timer does not disturb a heap it is not in. -/
private theorem rekey_valid {h : IntrusiveHeap ι} {fireTime : ι → Int} {t : ι}
    (valid : Valid (heapPred fireTime) h) (absent : t ∉ Members h) (key : Int) :
    Valid (heapPred (Function.update fireTime t key)) h := by
  refine valid_congr valid fun x memberX y memberY => ?_
  have left : x ≠ t := fun same => absent (same ▸ memberX)
  have right : y ≠ t := fun same => absent (same ▸ memberY)
  simp [heapPred, left, right]

/-- Giving a timer that is not in the heap a key and inserting it. -/
private theorem insert_keyed {h : IntrusiveHeap ι} {fireTime : ι → Int} {t : ι}
    (valid : Valid (heapPred fireTime) h) (absent : t ∉ Members h) (key : Int) :
    Valid (heapPred (Function.update fireTime t key))
        (h.insert (heapPred (Function.update fireTime t key)) t).2 ∧
      Members (h.insert (heapPred (Function.update fireTime t key)) t).2 = insert t (Members h) :=
  (insert_spec (heapPred_strict_weak _) (rekey_valid valid absent key) t).2

/-- `once_at` sets the timer for exactly the requested time point, whether it
only moves it or puts it back into the heap. -/
theorem onceAt_spec {links : RunLoopLinks ι} (consistent : Consistent links) (t : ι) (tp : Int) :
    Consistent (links.onceAt t tp) ∧ Active (links.onceAt t tp) = insert t (Active links) ∧
      (links.onceAt t tp).movedFireTime = Function.update links.movedFireTime t tp ∧
      (links.onceAt t tp).now = links.now := by
  unfold onceAt
  split
  · rename_i moves
    have set : t ∈ Active links := (isSet_iff links t).mp moves.1
    refine ⟨⟨consistent.valid, fun u member => ?_⟩, (Set.insert_eq_of_mem set).symm, rfl, rfl⟩
    have lag := consistent.lag u member
    by_cases same : u = t
    · subst same
      simpa using moves.2
    · simpa [same] using lag
  · obtain ⟨-, erased, members⟩ := erase_spec (heapPred_strict_weak links.fireTime) consistent.valid t
    have absent : t ∉ Members (links.activeTimers.erase (heapPred links.fireTime) t).2 := by
      simp [members]
    obtain ⟨valid, inserted⟩ := insert_keyed erased absent tp
    have active : insert t (Members (links.activeTimers.erase (heapPred links.fireTime) t).2) =
        insert t (Active links) := by
      rw [members, Active, Set.insert_sdiff_singleton]
    refine ⟨⟨valid, fun u member => ?_⟩, inserted.trans active, rfl, rfl⟩
    rw [Active, inserted, active] at member
    by_cases same : u = t
    · subst same
      simp
    · have lag := consistent.lag u (Set.mem_of_mem_insert_of_ne member same)
      simpa [same] using lag

/-- `cancel` unsets exactly that timer. -/
theorem cancel_spec {links : RunLoopLinks ι} (consistent : Consistent links) (t : ι) :
    Consistent (links.cancel t) ∧ Active (links.cancel t) = Active links \ {t} ∧
      (links.cancel t).movedFireTime = links.movedFireTime ∧ (links.cancel t).now = links.now := by
  obtain ⟨-, erased, members⟩ := erase_spec (heapPred_strict_weak links.fireTime) consistent.valid t
  refine ⟨⟨erased, fun u member => ?_⟩, members, rfl, rfl⟩
  have kept : u ∈ Active links \ {t} := members ▸ member
  exact consistent.lag u kept.1

/-- What a completed `process_timer` did: it ran the handler of a due timer
that it first took out of the heap, or found no set timer due. -/
inductive Outcome (handler : ι → List (TimerCall ι)) (links : RunLoopLinks ι) : Processed ι → Prop where
  | fired (t : ι) (timeoutMs : Int) (popped : RunLoopLinks ι) (set : t ∈ Active links)
      (due : links.movedFireTime t ≤ links.now) (consistent : Consistent popped)
      (active : Active popped = Active links \ {t})
      (moved : popped.movedFireTime = links.movedFireTime) (now : popped.now = links.now) :
      Outcome handler links ⟨some t, timeoutMs, (handler t).foldl call popped⟩
  | idle (timeoutMs : Int) (after : RunLoopLinks ι) (consistent : Consistent after)
      (active : Active after = Active links) (moved : after.movedFireTime = links.movedFireTime)
      (now : after.now = links.now) (early : ∀ t ∈ Active links, links.now < links.movedFireTime t) :
      Outcome handler links ⟨none, timeoutMs, after⟩

/-- An outcome only depends on which timers are set, for when, and the clock. -/
private theorem Outcome.transfer {handler : ι → List (TimerCall ι)} {links again : RunLoopLinks ι}
    {result : Processed ι} (active : Active again = Active links)
    (moved : again.movedFireTime = links.movedFireTime) (now : again.now = links.now)
    (outcome : Outcome handler again result) : Outcome handler links result := by
  cases outcome with
  | fired t timeoutMs popped set due consistent poppedActive poppedMoved poppedNow =>
    exact .fired t timeoutMs popped (active ▸ set) (moved ▸ now ▸ due) consistent
      (active ▸ poppedActive) (poppedMoved.trans moved) (poppedNow.trans now)
  | idle timeoutMs after consistent afterActive afterMoved afterNow early =>
    exact .idle timeoutMs after consistent (afterActive.trans active) (afterMoved.trans moved)
      (afterNow.trans now) (fun t set => by rw [← moved, ← now]; exact early t (active ▸ set))

omit [DecidableEq ι] in
theorem nonempty_of_member {h : IntrusiveHeap ι} {pred : ι → ι → Bool}
    (valid : Valid pred h) {t : ι} (member : t ∈ Members h) : h.empty = false := by
  have inside := (valid.linked.indexed t member).1
  have positive := Nat.pos_of_ne_zero member
  simp only [IntrusiveHeap.empty, beq_eq_false_iff_ne]
  omega

/-- The state after a pass of the loop that continues: the front timer has moved to
the time point it stands for. -/
def rekeyed (links : RunLoopLinks ι) (t : ι) : RunLoopLinks ι :=
  { links with
    fireTime := Function.update links.fireTime t (links.movedFireTime t)
    activeTimers := ((links.activeTimers.popFront (heapPred links.fireTime)).insert
      (heapPred (Function.update links.fireTime t (links.movedFireTime t))) t).2 }

theorem rekeyed_spec {links : RunLoopLinks ι} (consistent : Consistent links)
    (nonempty : links.activeTimers.empty = false) {t : ι}
    (front : links.activeTimers.front = some t) (set : t ∈ Active links) :
    Consistent (rekeyed links t) ∧ Active (rekeyed links t) = Active links ∧
      (rekeyed links t).activeTimers.empty = false := by
  obtain ⟨popped, members, -⟩ :=
    popFront_spec (heapPred_strict_weak links.fireTime) consistent.valid front nonempty
  have absent : t ∉ Members (links.activeTimers.popFront (heapPred links.fireTime)) := by simp [members]
  obtain ⟨valid, inserted⟩ := insert_keyed popped absent (links.movedFireTime t)
  have same : Active (rekeyed links t) = Active links := by
    refine inserted.trans ?_
    rw [members, Set.insert_sdiff_singleton]
    exact Set.insert_eq_of_mem set
  refine ⟨⟨valid, fun u member => ?_⟩, same, nonempty_of_member valid (inserted ▸ Set.mem_insert t _)⟩
  rw [same] at member
  have lag := consistent.lag u member
  by_cases self : u = t
  · subst self
    simp [rekeyed]
  · simpa [rekeyed, self] using lag

/-- The loop ends: each pass that continues gives one due timer a key beyond
`now`, so the due timers strictly decrease. -/
private theorem processLoop_outcome (handler : ι → List (TimerCall ι)) (timeoutMs : Int)
    (passes : Nat) {links : RunLoopLinks ι} (consistent : Consistent links)
    (nonempty : links.activeTimers.empty = false) (enough : (Due links).ncard < passes) :
    ∃ result, processLoop handler timeoutMs passes links = some result ∧
      Outcome handler links result := by
  induction passes generalizing links with
  | zero => omega
  | succ passes ih =>
    obtain ⟨t, front, set, least⟩ := front_least consistent nonempty
    simp only [processLoop, front]
    by_cases due : links.fireTime t ≤ links.now
    · simp only [due, ↓reduceIte]
      by_cases moved : links.movedFireTime t > links.now
      · simp only [moved, ↓reduceIte]
        obtain ⟨again, same, nonempty'⟩ := rekeyed_spec consistent nonempty front set
        have fewer : Due (rekeyed links t) ⊂ Due links := by
          refine (Set.ssubset_iff_of_subset ?_).mpr ⟨t, ⟨set, due⟩, ?_⟩
          · rintro u ⟨member, early⟩
            have other : u ≠ t := by
              rintro rfl
              simp [rekeyed] at early
              omega
            exact ⟨same ▸ member, by simpa [rekeyed, other] using early⟩
          · rintro ⟨-, early⟩
            simp [rekeyed] at early
            omega
        have smaller := Set.ncard_lt_ncard fewer
          ((active_small consistent).1.subset fun u member => member.1)
        obtain ⟨result, ran, outcome⟩ := ih again nonempty' (by omega)
        exact ⟨result, ran, outcome.transfer same rfl rfl⟩
      · simp only [moved, ↓reduceIte]
        obtain ⟨popped, members, -⟩ :=
          popFront_spec (heapPred_strict_weak links.fireTime) consistent.valid front nonempty
        refine ⟨_, rfl, .fired t timeoutMs _ set (by omega) ⟨popped, fun u member => ?_⟩ members rfl rfl⟩
        have kept : u ∈ Active links \ {t} := members ▸ member
        exact consistent.lag u kept.1
    · simp only [due, ↓reduceIte]
      have early : ∀ u ∈ Active links, links.now < links.movedFireTime u := by
        intro u member
        have := least u member
        have := consistent.lag u member
        omega
      split
      · exact ⟨_, rfl, .idle _ _ consistent rfl rfl rfl early⟩
      · exact ⟨_, rfl, .idle _ _ consistent rfl rfl rfl early⟩

/-- Set timers whose requested time point has come. -/
def Ripe (links : RunLoopLinks ι) : Set ι := {t ∈ Active links | links.movedFireTime t ≤ links.now}

/-- Among the timers whose time point has come, the loop takes one with the least
key. Passes that continue leave the keys of these alone. -/
private theorem processLoop_least (handler : ι → List (TimerCall ι)) (timeoutMs : Int)
    (passes : Nat) {links : RunLoopLinks ι} (consistent : Consistent links)
    (nonempty : links.activeTimers.empty = false) {result : Processed ι} {t : ι}
    (ran : processLoop handler timeoutMs passes links = some result) (fires : result.fired = some t) :
    ∀ u ∈ Ripe links, links.fireTime t ≤ links.fireTime u := by
  induction passes generalizing links with
  | zero => cases ran
  | succ passes ih =>
    obtain ⟨first, front, set, least⟩ := front_least consistent nonempty
    simp only [processLoop, front] at ran
    by_cases due : links.fireTime first ≤ links.now
    · simp only [due, ↓reduceIte] at ran
      by_cases moved : links.movedFireTime first > links.now
      · simp only [moved, ↓reduceIte] at ran
        obtain ⟨again, same, nonempty'⟩ := rekeyed_spec consistent nonempty front set
        have later := ih again nonempty' ran
        intro u ripe
        have other : u ≠ first := by
          rintro rfl
          have come : links.movedFireTime u ≤ links.now := ripe.2
          omega
        have kept : u ∈ Ripe (rekeyed links first) := ⟨same ▸ ripe.1, ripe.2⟩
        have bound := later u kept
        by_cases self : t = first
        · rw [self]
          exact least u ripe.1
        · simpa [rekeyed, other, self] using bound
      · simp only [moved, ↓reduceIte, Option.some.injEq] at ran
        subst ran
        cases fires
        exact fun u ripe => least u ripe.1
    · simp only [due, ↓reduceIte] at ran
      split at ran <;> · cases ran; cases fires

/-- `process_timer` always returns, and does what `Outcome` says. -/
theorem processTimer_outcome (handler : ι → List (TimerCall ι)) (timeoutMs : Int)
    {links : RunLoopLinks ι} (consistent : Consistent links) :
    ∃ result, processTimer handler timeoutMs links = some result ∧ Outcome handler links result := by
  unfold processTimer
  split
  · rename_i empty
    refine ⟨_, rfl, .idle _ _ consistent rfl rfl rfl fun t member => ?_⟩
    have := nonempty_of_member consistent.valid member
    simp [empty] at this
  · rename_i nonempty
    obtain ⟨finite, small⟩ := active_small consistent
    have bound : (Due links).ncard ≤ (Active links).ncard :=
      Set.ncard_le_ncard (fun u member => member.1) finite
    exact processLoop_outcome handler timeoutMs _ consistent (by simpa using nonempty) (by omega)

/-! ## Runs -/

/-- What happened to the timers, in order. -/
inductive Entry (ι : Type) where
  | called (call : TimerCall ι)
  | fired (timer : ι) (now : Int)

/-- What one entry does to the time point a timer is set for. -/
def Entry.request (t : ι) (before : Option Int) : Entry ι → Option Int
  | .called (.onceAt u tp) => if u = t then some tp else before
  | .called (.cancel u) => if u = t then none else before
  | .fired u _ => if u = t then none else before

/-- The time point of the most recent `once_at` of a timer, unless it fired or
was cancelled since. -/
def requested (trace : List (Entry ι)) (t : ι) : Option Int := trace.foldl (Entry.request t) none

/-- A step of the program around the timers. The clock only moves forward. -/
inductive Step (ι : Type) where
  | call (call : TimerCall ι)
  | clock (elapsed : Nat)
  | process (handler : ι → List (TimerCall ι)) (timeoutMs : Int)

/-- Perform one step and extend the trace; no result if `process_timer` never
returns. -/
def perform (state : RunLoopLinks ι × List (Entry ι)) :
    Step ι → Option (RunLoopLinks ι × List (Entry ι))
  | .call c => some (state.1.call c, state.2 ++ [.called c])
  | .clock elapsed => some ({ state.1 with now := state.1.now + elapsed }, state.2)
  | .process handler timeoutMs =>
    match state.1.processTimer handler timeoutMs with
    | none => none
    | some result =>
      let entries := match result.fired with
        | none => []
        | some t => .fired t state.1.now :: (handler t).map .called
      some (result.links, state.2 ++ entries)

def run (start : Int) (steps : List (Step ι)) : Option (RunLoopLinks ι × List (Entry ι)) :=
  steps.foldlM perform ({ now := start }, [])

/-- The heap and the trace tell the same story. -/
structure Tracks (state : RunLoopLinks ι × List (Entry ι)) : Prop where
  consistent : Consistent state.1
  set : ∀ t ∈ Active state.1, requested state.2 t = some (state.1.movedFireTime t)
  unset : ∀ t, t ∉ Active state.1 → requested state.2 t = none
  /-- Every handler ran while its timer was set for a time point that was due. -/
  due : ∀ before t at_ after, state.2 = before ++ .fired t at_ :: after →
    ∃ tp ≤ at_, requested before t = some tp

theorem requested_append (trace : List (Entry ι)) (entry : Entry ι) (t : ι) :
    requested (trace ++ [entry]) t = entry.request t (requested trace t) := by
  simp [requested]

omit [DecidableEq ι] in
/-- What holds of every firing in a trace holds in the longer trace, if it holds of
the new entry. -/
private theorem fired_append {trace : List (Entry ι)} {e : Entry ι} {P : List (Entry ι) → ι → Int → Prop}
    (earlier : ∀ before t at_ after, trace = before ++ .fired t at_ :: after → P before t at_)
    (new : ∀ t at_, e = .fired t at_ → P trace t at_) :
    ∀ before t at_ after, trace ++ [e] = before ++ .fired t at_ :: after → P before t at_ := by
  intro before t at_ after split
  rcases List.eq_nil_or_concat after with rfl | ⟨init, last, rfl⟩
  · obtain ⟨same, last⟩ := List.append_inj' split rfl
    subst same
    exact new t at_ (List.singleton_inj.mp last)
  · have shape : trace ++ [e] = (before ++ .fired t at_ :: init) ++ [last] := by
      simpa using split
    exact earlier before t at_ init (List.append_inj' shape rfl).1

private theorem call_tracks {links : RunLoopLinks ι} {trace : List (Entry ι)}
    (tracks : Tracks (links, trace)) (c : TimerCall ι) :
    Tracks (links.call c, trace ++ [.called c]) := by
  have due := fired_append (e := .called c) tracks.due (by intro t at_ impossible; cases impossible)
  cases c with
  | onceAt t tp =>
    obtain ⟨consistent, active, moved, -⟩ := onceAt_spec tracks.consistent t tp
    refine ⟨consistent, fun u member => ?_, fun u absent => ?_, due⟩
    · rw [requested_append]
      simp only [Entry.request, call, moved]
      by_cases same : u = t
      · simp [same]
      · rw [if_neg (Ne.symm same), Function.update_of_ne same]
        exact tracks.set u (Set.mem_of_mem_insert_of_ne (active ▸ member) same)
    · have outside : u ∉ insert t (Active links) := active ▸ absent
      simp only [Set.mem_insert_iff, not_or] at outside
      rw [requested_append]
      simp only [Entry.request]
      rw [if_neg (Ne.symm outside.1)]
      exact tracks.unset u outside.2
  | cancel t =>
    obtain ⟨consistent, active, moved, -⟩ := cancel_spec tracks.consistent t
    refine ⟨consistent, fun u member => ?_, fun u absent => ?_, due⟩
    · have kept : u ∈ Active links \ {t} := active ▸ member
      rw [requested_append]
      simp only [Entry.request, call, moved]
      rw [if_neg (fun same => kept.2 same.symm)]
      exact tracks.set u kept.1
    · rw [requested_append]
      simp only [Entry.request]
      split
      · rfl
      · rename_i other
        refine tracks.unset u fun member => absent ?_
        exact active ▸ ⟨member, fun same => other same.symm⟩

private theorem calls_tracks (calls : List (TimerCall ι)) {links : RunLoopLinks ι}
    {trace : List (Entry ι)} (tracks : Tracks (links, trace)) :
    Tracks (calls.foldl call links, trace ++ calls.map .called) := by
  induction calls generalizing links trace with
  | nil => simpa using tracks
  | cons c rest ih => simpa using ih (call_tracks tracks c)

/-- The handler that runs belongs to a set, due timer, and the calls it makes
are tracked like any others. -/
private theorem outcome_tracks {handler : ι → List (TimerCall ι)} {links : RunLoopLinks ι}
    {trace : List (Entry ι)} {result : Processed ι} (tracks : Tracks (links, trace))
    (outcome : Outcome handler links result) :
    Tracks (result.links, trace ++ match result.fired with
      | none => []
      | some t => .fired t links.now :: (handler t).map .called) := by
  cases outcome with
  | idle timeoutMs after consistent active moved now early =>
    refine ⟨consistent, fun t member => ?_, fun t absent => ?_, by simpa using tracks.due⟩
    · simpa [moved] using tracks.set t (active ▸ member)
    · simpa using tracks.unset t (active ▸ absent)
  | fired t timeoutMs popped set due consistent active moved now =>
    have popped_tracks : Tracks (popped, trace ++ [.fired t links.now]) := by
      refine ⟨consistent, fun u member => ?_, fun u absent => ?_, fired_append tracks.due ?_⟩
      · have kept : u ∈ Active links \ {t} := active ▸ member
        rw [requested_append]
        simp only [Entry.request, moved]
        rw [if_neg (fun same => kept.2 same.symm)]
        exact tracks.set u kept.1
      · rw [requested_append]
        simp only [Entry.request]
        split
        · rfl
        · rename_i other
          refine tracks.unset u fun member => absent ?_
          exact active ▸ ⟨member, fun same => other same.symm⟩
      · intro u at_ same
        cases same
        exact ⟨_, due, tracks.set t set⟩
    simpa using calls_tracks (handler t) popped_tracks

private theorem perform_tracks {state : RunLoopLinks ι × List (Entry ι)} (tracks : Tracks state)
    (step : Step ι) : ∃ after, perform state step = some after ∧ Tracks after := by
  obtain ⟨links, trace⟩ := state
  cases step with
  | call c => exact ⟨_, rfl, call_tracks tracks c⟩
  | clock elapsed =>
    exact ⟨_, rfl, ⟨tracks.consistent.valid, tracks.consistent.lag⟩, tracks.set, tracks.unset,
      tracks.due⟩
  | process handler timeoutMs =>
    obtain ⟨result, ran, outcome⟩ := processTimer_outcome handler timeoutMs tracks.consistent
    refine ⟨_, ?_, outcome_tracks tracks outcome⟩
    simp only [perform, ran]

/-- Every run completes, and its heap and trace agree. -/
theorem run_tracks (start : Int) (steps : List (Step ι)) :
    ∃ state, run start steps = some state ∧ Tracks state := by
  have initial : Tracks (({ now := start } : RunLoopLinks ι), []) :=
    ⟨⟨empty_valid, fun t member => by simp [Active] at member⟩,
      fun t member => by simp [Active] at member, fun t _ => rfl,
      fun before t at_ after split => by simp at split⟩
  unfold run
  generalize (({ now := start } : RunLoopLinks ι), ([] : List (Entry ι))) = state at initial
  induction steps generalizing state with
  | nil => exact ⟨state, rfl, initial⟩
  | cons step rest ih =>
    obtain ⟨after, ran, tracks⟩ := perform_tracks initial step
    rw [List.foldlM_cons, ran]
    exact ih after tracks

/-- A timer that ends up set after being unset was armed in between. -/
private theorem armed_between (between : List (Entry ι)) {t : ι} {tp : Int}
    (set : between.foldl (Entry.request t) none = some tp) :
    ∃ tp, .called (.onceAt t tp) ∈ between := by
  induction between with
  | nil => cases set
  | cons entry rest ih =>
    by_cases arms : ∃ tp, entry = .called (.onceAt t tp)
    · obtain ⟨tp, rfl⟩ := arms
      exact ⟨tp, List.mem_cons_self⟩
    · have unset : entry.request t none = none := by
        cases entry with
        | fired u _ => simp [Entry.request]
        | called c =>
          cases c with
          | cancel u => simp [Entry.request]
          | onceAt u tp =>
            have other : u ≠ t := by
              rintro rfl
              exact arms ⟨tp, rfl⟩
            simp [Entry.request, other]
      rw [List.foldl_cons, unset] at set
      obtain ⟨tp, member⟩ := ih set
      exact ⟨tp, List.mem_cons_of_mem _ member⟩

/-- **Timer service safety.** For every run, whatever the handlers do: all calls
of `process_timer` return; the set timers are those the trace says are set; a
handler runs only while its timer is set for a time point that has come, and
again only after the timer was armed again, as also after a cancel; and when
`process_timer` returns false no set timer's requested time point has come. -/
theorem timer_service_safety (start : Int) (steps : List (Step ι)) :
    ∃ links trace, run start steps = some (links, trace) ∧
      (∀ t, links.isSet t = true ↔ ∃ tp, requested trace t = some tp) ∧
      (∀ before t at_ after, trace = before ++ .fired t at_ :: after →
        ∃ tp ≤ at_, requested before t = some tp) ∧
      (∀ before ended between t at_ after,
        (ended = .called (.cancel t) ∨ ∃ earlier, ended = .fired t earlier) →
        trace = before ++ ended :: (between ++ .fired t at_ :: after) →
        ∃ tp, .called (.onceAt t tp) ∈ between) ∧
      ∀ handler timeoutMs, ∃ result, links.processTimer handler timeoutMs = some result ∧
        (∀ t, result.fired = some t →
          links.isSet t = true ∧ ∃ tp ≤ links.now, requested trace t = some tp) ∧
        (result.fired = none → ∀ t tp, result.links.isSet t = true →
          requested trace t = some tp → result.links.now < tp) := by
  obtain ⟨⟨links, trace⟩, ran, tracks⟩ := run_tracks start steps
  refine ⟨links, trace, ran, fun t => ?_, tracks.due, ?_, fun handler timeoutMs => ?_⟩
  · rw [isSet_iff]
    constructor
    · exact fun set => ⟨_, tracks.set t set⟩
    · rintro ⟨tp, armed⟩
      by_contra unset
      rw [tracks.unset t unset] at armed
      cases armed
  · intro before ended between t at_ after ends shape
    obtain ⟨tp, -, armed⟩ := tracks.due (before ++ ended :: between) t at_ after (by simpa using shape)
    have cleared : ended.request t (requested before t) = none := by
      rcases ends with rfl | ⟨earlier, rfl⟩ <;> simp [Entry.request]
    unfold requested at armed cleared
    rw [List.foldl_append, List.foldl_cons, cleared] at armed
    exact armed_between between armed
  · obtain ⟨result, returned, outcome⟩ := processTimer_outcome handler timeoutMs tracks.consistent
    refine ⟨result, returned, ?_, ?_⟩
    · intro t fires
      cases outcome with
      | fired u _ popped set due _ _ _ _ =>
        cases fires
        exact ⟨(isSet_iff links t).mpr set, _, due, tracks.set t set⟩
      | idle => cases fires
    · intro idle t tp set armed
      cases outcome with
      | fired => cases idle
      | idle _ after _ active _ now early =>
        have member : t ∈ Active links := active ▸ (isSet_iff after t).mp set
        have same := (tracks.set t member).symm.trans armed
        cases same
        exact now ▸ early t member

section Order

/-- No set timer is asked for an earlier time point than the one that fires. -/
def FiresFirst (trace : List (Entry ι)) (t : ι) : Prop :=
  ∃ tp, requested trace t = some tp ∧ ∀ u earlier, requested trace u = some earlier → tp ≤ earlier

/-- Of the timers whose time point has come, those with the least heap key were asked
for the least time point. -/
def InOrder (links : RunLoopLinks ι) : Prop :=
  ∀ t ∈ Ripe links, (∀ u ∈ Ripe links, links.fireTime t ≤ links.fireTime u) →
    ∀ u ∈ Ripe links, links.movedFireTime t ≤ links.movedFireTime u

/-- No two timers whose time point has come have the same heap key. -/
def Apart (links : RunLoopLinks ι) : Prop :=
  ∀ t ∈ Ripe links, ∀ u ∈ Ripe links, links.fireTime t = links.fireTime u → t = u

/-- Every call of `process_timer` in the run finds the timers in order. -/
def KeepsOrder (start : Int) (steps : List (Step ι)) : Prop :=
  ∀ before handler timeoutMs after links trace, steps = before ++ .process handler timeoutMs :: after →
    run start before = some (links, trace) → InOrder links

private theorem processTimer_least {handler : ι → List (TimerCall ι)} {timeoutMs : Int}
    {links : RunLoopLinks ι} (consistent : Consistent links) {result : Processed ι} {t : ι}
    (ran : processTimer handler timeoutMs links = some result) (fires : result.fired = some t) :
    t ∈ Ripe links ∧ ∀ u ∈ Ripe links, links.fireTime t ≤ links.fireTime u := by
  obtain ⟨result', ran', outcome⟩ := processTimer_outcome handler timeoutMs consistent
  rw [ran] at ran'
  cases ran'
  refine ⟨?_, ?_⟩
  · cases outcome with
    | fired u _ popped set due => cases fires; exact ⟨set, due⟩
    | idle => cases fires
  · unfold processTimer at ran
    split at ran
    · cases ran
      cases fires
    · rename_i nonempty
      exact processLoop_least handler timeoutMs _ consistent (by simpa using nonempty) ran fires

/-- A timer fires first if it was asked for the least time point of those that have
come: the others are later than now. -/
private theorem firesFirst_iff {links : RunLoopLinks ι} {trace : List (Entry ι)}
    (tracks : Tracks (links, trace)) {t : ι} (ripe : t ∈ Ripe links) :
    FiresFirst trace t ↔ ∀ u ∈ Ripe links, links.movedFireTime t ≤ links.movedFireTime u := by
  have asked := tracks.set t ripe.1
  constructor
  · rintro ⟨tp, armed, first⟩ u other
    rw [asked] at armed
    cases armed
    exact first u _ (tracks.set u other.1)
  · intro first
    refine ⟨_, asked, fun u earlier armed => ?_⟩
    have set : u ∈ Active links := by
      by_contra unset
      rw [tracks.unset u unset] at armed
      cases armed
    have same := (tracks.set u set).symm.trans armed
    cases same
    by_cases come : links.movedFireTime u ≤ links.now
    · exact first u ⟨set, come⟩
    · have due : links.movedFireTime t ≤ links.now := ripe.2
      show links.movedFireTime t ≤ links.movedFireTime u
      omega

private theorem calls_first {trace : List (Entry ι)} (calls : List (TimerCall ι))
    (earlier : ∀ before t at_ after, trace = before ++ .fired t at_ :: after → FiresFirst before t) :
    ∀ before t at_ after, trace ++ calls.map .called = before ++ .fired t at_ :: after →
      FiresFirst before t := by
  induction calls generalizing trace with
  | nil => simpa using earlier
  | cons c rest ih =>
    have more := ih (fired_append (e := .called c) earlier (by intro t at_ impossible; cases impossible))
    simpa using more

/-- One step keeps every firing first. -/
private theorem perform_first {state after : RunLoopLinks ι × List (Entry ι)}
    (tracks : Tracks state) {step : Step ι}
    (ordered : ∀ handler timeoutMs, step = .process handler timeoutMs → InOrder state.1)
    (performed : perform state step = some after)
    (earlier : ∀ before t at_ after, state.2 = before ++ .fired t at_ :: after → FiresFirst before t) :
    ∀ before t at_ rest, after.2 = before ++ .fired t at_ :: rest → FiresFirst before t := by
  obtain ⟨links, trace⟩ := state
  cases step with
  | call c =>
    cases performed
    exact fired_append earlier (by intro t at_ impossible; cases impossible)
  | clock elapsed =>
    cases performed
    exact earlier
  | process handler timeoutMs =>
    simp only [perform] at performed
    split at performed
    · cases performed
    · rename_i result ran
      cases performed
      cases fires : result.fired with
      | none => simpa using earlier
      | some t =>
        obtain ⟨ripe, least⟩ := processTimer_least tracks.consistent ran fires
        have first := (firesFirst_iff tracks ripe).mpr (ordered handler timeoutMs rfl t ripe least)
        have extended := fired_append (e := .fired t links.now) (P := fun before t _ =>
          FiresFirst before t) earlier fun u at_ same => by cases same; exact first
        have done := calls_first (handler t) extended
        simpa using done

private theorem runFrom_first (steps : List (Step ι)) {state last : RunLoopLinks ι × List (Entry ι)}
    (tracks : Tracks state)
    (ordered : ∀ before handler timeoutMs after reached,
      steps = before ++ .process handler timeoutMs :: after →
      before.foldlM perform state = some reached → InOrder reached.1)
    (ran : steps.foldlM perform state = some last)
    (earlier : ∀ before t at_ after, state.2 = before ++ .fired t at_ :: after → FiresFirst before t) :
    ∀ before t at_ after, last.2 = before ++ .fired t at_ :: after → FiresFirst before t := by
  induction steps generalizing state with
  | nil =>
    cases ran
    exact earlier
  | cons step rest ih =>
    obtain ⟨next, performed, tracks'⟩ := perform_tracks tracks step
    rw [List.foldlM_cons, performed] at ran
    refine ih tracks' (fun before handler timeoutMs after reached split through => ?_) ran ?_
    · refine ordered (step :: before) handler timeoutMs after reached (by rw [split]; rfl) ?_
      rw [List.foldlM_cons, performed]
      exact through
    · refine perform_first tracks (fun handler timeoutMs same => ?_) performed earlier
      exact ordered [] handler timeoutMs rest state (by rw [same]; rfl) rfl

/-- In every run whose calls of `process_timer` find the timers in order, each timer
that fires was asked for a time point that is least among those of the set timers. And
whether or not the run was so, where heap keys differ one more call fires such a timer
exactly if the timers are in order. -/
theorem timers_fire_in_order (start : Int) (steps : List (Step ι)) :
    ∃ links trace, run start steps = some (links, trace) ∧
      (KeepsOrder start steps → ∀ before t at_ after, trace = before ++ .fired t at_ :: after →
        FiresFirst before t) ∧
      ∀ handler timeoutMs, ∃ result, links.processTimer handler timeoutMs = some result ∧
        (Apart links → ((∀ t, result.fired = some t → FiresFirst trace t) ↔ InOrder links)) := by
  have initial : Tracks (({ now := start } : RunLoopLinks ι), []) :=
    ⟨⟨empty_valid, fun t member => by simp [Active] at member⟩,
      fun t member => by simp [Active] at member, fun t _ => rfl,
      fun before t at_ after split => by simp at split⟩
  obtain ⟨⟨links, trace⟩, ran, tracks⟩ := run_tracks start steps
  refine ⟨links, trace, ran, fun ordered => ?_, fun handler timeoutMs => ?_⟩
  · exact runFrom_first steps initial (fun before handler timeoutMs after reached split through =>
      ordered before handler timeoutMs after reached.1 reached.2 split through) ran
        fun before t at_ after split => by simp at split
  · obtain ⟨result, returned, outcome⟩ := processTimer_outcome handler timeoutMs tracks.consistent
    refine ⟨result, returned, fun apart => ⟨fun first t ripe least => ?_, fun ordered t fires => ?_⟩⟩
    · cases fires : result.fired with
      | none =>
        cases outcome with
        | fired => cases fires
        | idle _ after _ _ _ _ early =>
          exact absurd (early t ripe.1) (not_lt.mpr ripe.2)
      | some u =>
        obtain ⟨ripe', least'⟩ := processTimer_least tracks.consistent returned fires
        have same : t = u := apart t ripe u ripe' (le_antisymm (least u ripe') (least' t ripe))
        subst same
        exact (firesFirst_iff tracks ripe).mp (first t fires)
    · obtain ⟨ripe, least⟩ := processTimer_least tracks.consistent returned fires
      exact (firesFirst_iff tracks ripe).mpr (ordered t ripe least)

/-- A plain call of `once_at` forgets the timer first. -/
def plainCalls (calls : List (TimerCall ι)) : List (TimerCall ι) :=
  calls.flatMap fun
    | .onceAt t tp => [.cancel t, .onceAt t tp]
    | .cancel t => [.cancel t]

/-- The run with every `once_at` performed as `cancel` and `once_at`, also by the
handlers. -/
def plainSteps (steps : List (Step ι)) : List (Step ι) :=
  steps.flatMap fun
    | .call c => (plainCalls [c]).map .call
    | .clock elapsed => [.clock elapsed]
    | .process handler timeoutMs => [.process (fun t => plainCalls (handler t)) timeoutMs]

/-- No key lags behind. -/
private structure Exact (links : RunLoopLinks ι) : Prop where
  consistent : Consistent links
  keys : ∀ t ∈ Active links, links.fireTime t = links.movedFireTime t

private theorem cancel_exact {links : RunLoopLinks ι} (exact_ : Exact links) (t : ι) :
    Exact (links.cancel t) := by
  obtain ⟨consistent, active, -, -⟩ := cancel_spec exact_.consistent t
  refine ⟨consistent, fun u member => ?_⟩
  rw [active] at member
  exact exact_.keys u member.1

private theorem onceAt_exact {links : RunLoopLinks ι} (exact_ : Exact links) {t : ι}
    (unset : t ∉ Active links) (tp : Int) :
    Exact (links.onceAt t tp) := by
  obtain ⟨consistent, active, -, -⟩ := onceAt_spec exact_.consistent t tp
  have other : ¬(links.isSet t = true ∧ tp ≥ links.fireTime t) :=
    fun moves => unset ((isSet_iff links t).mp moves.1)
  refine ⟨consistent, fun u member => ?_⟩
  rw [active] at member
  simp only [onceAt, other, ↓reduceIte]
  by_cases same : u = t
  · simp [same]
  · simpa [same] using exact_.keys u (Set.mem_of_mem_insert_of_ne member same)

private theorem plainCalls_exact (calls : List (TimerCall ι)) {links : RunLoopLinks ι}
    (exact_ : Exact links) :
    Exact ((plainCalls calls).foldl call links) := by
  induction calls generalizing links with
  | nil => exact exact_
  | cons c rest ih =>
    rw [plainCalls, List.flatMap_cons, List.foldl_append]
    refine ih ?_
    cases c with
    | cancel t => exact cancel_exact exact_ t
    | onceAt t tp =>
      have unset : t ∉ Active (links.cancel t) := by
        rw [(cancel_spec exact_.consistent t).2.1]
        simp
      exact onceAt_exact (cancel_exact exact_ t) unset tp

private theorem processTimer_exact (handler : ι → List (TimerCall ι)) (timeoutMs : Int)
    {links : RunLoopLinks ι} (exact_ : Exact links) {result : Processed ι}
    (ran : links.processTimer (fun t => plainCalls (handler t)) timeoutMs = some result) :
    Exact result.links := by
  unfold processTimer at ran
  split at ran
  · cases ran
    exact exact_
  · rename_i nonempty
    have nonempty : links.activeTimers.empty = false := by simpa using nonempty
    obtain ⟨t, front, set, least⟩ := front_least exact_.consistent nonempty
    have key := exact_.keys t set
    -- the key is the time point, so no pass continues
    cases size : links.activeTimers.size with
    | zero =>
      rw [size] at ran
      cases ran
    | succ passes =>
      rw [size] at ran
      simp only [processLoop, front] at ran
      split at ran
      · rename_i due
        rw [if_neg (by omega)] at ran
        cases ran
        obtain ⟨popped, members, -⟩ :=
          popFront_spec (heapPred_strict_weak links.fireTime) exact_.consistent.valid front nonempty
        refine plainCalls_exact (handler t) ⟨⟨popped, fun u member => ?_⟩, fun u member => ?_⟩
        · have kept : u ∈ Active links \ {t} := members ▸ member
          exact exact_.consistent.lag u kept.1
        · have kept : u ∈ Active links \ {t} := members ▸ member
          exact exact_.keys u kept.1
      · split at ran <;> · cases ran; exact exact_

omit [DecidableEq ι] in
private theorem exact_inOrder {links : RunLoopLinks ι} (exact_ : Exact links) : InOrder links := by
  intro t ripe least u other
  rw [← exact_.keys t ripe.1, ← exact_.keys u other.1]
  exact least u other

private theorem plainSteps_inOrder (steps : List (Step ι)) {state : RunLoopLinks ι × List (Entry ι)}
    (exact_ : Exact state.1) :
    ∀ before handler timeoutMs after reached,
      plainSteps steps = before ++ .process handler timeoutMs :: after →
      before.foldlM perform state = some reached → InOrder reached.1 := by
  induction steps generalizing state with
  | nil =>
    intro before handler timeoutMs after reached split
    simp [plainSteps] at split
  | cons step rest ih =>
    intro before handler timeoutMs after reached split through
    rw [plainSteps, List.flatMap_cons] at split
    cases step with
    | call c =>
      -- a call is one or two steps, none of them a `process`
      have calls :
          ∀ (calls : List (TimerCall ι)) (before : List (Step ι))
            (state : RunLoopLinks ι × List (Entry ι)),
          Exact (calls.foldl call state.1) →
          calls.map .call ++ plainSteps rest = before ++ .process handler timeoutMs :: after →
          before.foldlM perform state = some reached → InOrder reached.1 := by
        intro calls
        induction calls with
        | nil =>
          exact fun before state exact_ split through =>
            ih exact_ before handler timeoutMs after reached split through
        | cons c calls ihCalls =>
          intro before state exact_ split through
          cases before with
          | nil => simp at split
          | cons first before =>
            simp only [List.map_cons, List.cons_append, List.cons.injEq] at split
            obtain ⟨rfl, split⟩ := split
            exact ihCalls before _ exact_ split through
      exact calls (plainCalls [c]) before state (plainCalls_exact [c] exact_) split through
    | clock elapsed =>
      cases before with
      | nil => simp at split
      | cons first before =>
        simp only [List.cons_append, List.nil_append, List.cons.injEq] at split
        obtain ⟨rfl, split⟩ := split
        have later :
            Exact (({ state.1 with now := state.1.now + elapsed }, state.2) :
            RunLoopLinks ι × List (Entry ι)).1 :=
          ⟨⟨exact_.consistent.valid, exact_.consistent.lag⟩, exact_.keys⟩
        exact ih later before handler timeoutMs after reached split through
    | process handler' timeoutMs' =>
      cases before with
      | nil =>
        cases through
        exact exact_inOrder exact_
      | cons first before =>
        simp only [List.cons_append, List.nil_append, List.cons.injEq] at split
        obtain ⟨rfl, split⟩ := split
        rw [List.foldlM_cons, perform] at through
        cases ran : state.1.processTimer (fun t => plainCalls (handler' t)) timeoutMs' with
        | none =>
          rw [ran] at through
          cases through
        | some result =>
          rw [ran] at through
          exact ih (processTimer_exact handler' timeoutMs' exact_ ran) before handler timeoutMs
            after reached split through

/-- Where every `once_at` cancels first, the timers are always in order. -/
theorem plain_keepsOrder (start : Int) (steps : List (Step ι)) :
    KeepsOrder start (plainSteps steps) := by
  have initial : Exact ({ now := start } : RunLoopLinks ι) :=
    ⟨⟨empty_valid, fun t member => by simp [Active] at member⟩,
      fun t member => by simp [Active] at member⟩
  intro before handler timeoutMs after links trace split ran
  exact plainSteps_inOrder steps initial before handler timeoutMs after (links, trace) split ran

private def movedTimer : List (Step Bool) :=
  [.call (.onceAt false 10), .call (.onceAt false 30), .call (.onceAt true 20), .clock 40]

/-- A timer that was moved from 10 to 30 fires before one that was asked for 20, when
both have come. -/
theorem moved_timer_overtakes : ∃ links trace, run 0 movedTimer = some (links, trace) ∧
    ∃ result, links.processTimer (fun _ => []) 0 = some result ∧ result.fired = some false ∧
      requested trace false = some 30 ∧ requested trace true = some 20 ∧ ¬FiresFirst trace false := by
  let trace : List (Entry Bool) :=
    [.called (.onceAt false 10), .called (.onceAt false 30), .called (.onceAt true 20)]
  have later : requested trace false = some 30 := rfl
  have sooner : requested trace true = some 20 := rfl
  refine ⟨_, trace, rfl, _, rfl, by decide +kernel, later, sooner, ?_⟩
  rintro ⟨tp, armed, first⟩
  have least := first true 20 sooner
  rw [later] at armed
  cases armed
  omega

end Order

end Crablib.TimerProofs
