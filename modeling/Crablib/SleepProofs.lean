import Crablib.TimerProofs

/-! How long the loop sleeps. The timeout comes from the key of the heap front alone,
rounded up to the next millisecond, and no key is later than what was asked for. -/
namespace Crablib.SleepProofs
open RunLoopLinks TimerProofs

variable {ι : Type}

/-- The timeout that `process_timer` leaves when it ran no handler: the one it was given
if no key is near, else the time up to the least key. -/
inductive Rests (timeoutMs : Int) (links : RunLoopLinks ι) : Int → Prop where
  | long (far : ∀ t ∈ Active links, links.now + maxSleepMs * nanosPerMs ≤ links.fireTime t) :
      Rests timeoutMs links timeoutMs
  | short (t : ι) (set : t ∈ Active links) (least : ∀ u ∈ Active links,
      links.fireTime t ≤ links.fireTime u)
      (early : links.now < links.fireTime t)
      (near : links.fireTime t < links.now + maxSleepMs * nanosPerMs) :
      Rests timeoutMs links (1 + (links.fireTime t - links.now) / nanosPerMs)

private theorem Rests.within {links : RunLoopLinks ι} {timeoutMs : Int}
    (rests : Rests maxSleepMs links timeoutMs) :
    1 ≤ timeoutMs ∧ timeoutMs ≤ maxSleepMs := by
  cases rests with
  | long far => exact ⟨by decide, Int.le_refl _⟩
  | short t set least early near =>
    simp only [maxSleepMs, nanosPerMs] at near ⊢
    omega

/-- The loop wakes up less than a millisecond behind the least key. -/
private theorem Rests.wakes {links : RunLoopLinks ι} {timeoutMs : Int}
    (rests : Rests maxSleepMs links timeoutMs) :
    ∀ t ∈ Active links, links.now + timeoutMs * nanosPerMs ≤ links.fireTime t + nanosPerMs := by
  intro u member
  cases rests with
  | long far =>
    have bound := far u member
    simp only [nanosPerMs] at bound ⊢
    omega
  | short t set least early near =>
    have bound := least u member
    simp only [nanosPerMs]
    omega

private theorem Rests.rounds {links : RunLoopLinks ι} {timeoutMs : Int}
    (rests : Rests maxSleepMs links timeoutMs) (shorter : timeoutMs < maxSleepMs) :
    ∃ t ∈ Active links, (∀ u ∈ Active links, links.fireTime t ≤ links.fireTime u) ∧
      links.fireTime t < links.now + timeoutMs * nanosPerMs := by
  cases rests with
  | long far => exact absurd shorter (Int.lt_irrefl _)
  | short t set least early near =>
    refine ⟨t, set, least, ?_⟩
    simp only [nanosPerMs]
    omega

variable [DecidableEq ι]

private theorem processLoop_rests (handler : ι → List (TimerCall ι)) (timeoutMs : Int)
    (passes : Nat) {links : RunLoopLinks ι} (consistent : Consistent links)
    (nonempty : links.activeTimers.empty = false) {result : Processed ι}
    (ran : processLoop handler timeoutMs passes links = some result) (idle : result.fired = none) :
    Rests timeoutMs result.links result.timeoutMs := by
  induction passes generalizing links with
  | zero => cases ran
  | succ passes ih =>
    obtain ⟨t, front, set, least⟩ := front_least consistent nonempty
    simp only [processLoop, front] at ran
    split at ran
    · split at ran
      · obtain ⟨again, -, nonempty'⟩ := rekeyed_spec consistent nonempty front set
        exact ih again nonempty' ran
      · cases ran
        cases idle
    · rename_i early
      split at ran
      · rename_i far
        cases ran
        apply Rests.long
        intro u member
        exact Int.le_trans far (least u member)
      · rename_i near
        cases ran
        exact .short t set least (Int.not_le.mp early) (Int.not_le.mp near)

private theorem processTimer_rests (handler : ι → List (TimerCall ι)) (timeoutMs : Int)
    {links : RunLoopLinks ι} (consistent : Consistent links) {result : Processed ι}
    (ran : processTimer handler timeoutMs links = some result) (idle : result.fired = none) :
    Rests timeoutMs result.links result.timeoutMs := by
  unfold processTimer at ran
  split at ran
  · rename_i empty
    cases ran
    apply Rests.long
    intro t member
    have nonempty := nonempty_of_member consistent.valid member
    rw [empty] at nonempty
    cases nonempty
  · rename_i nonempty
    exact processLoop_rests handler timeoutMs _ consistent (by simpa using nonempty) ran idle

/-- When no timer fires, the loop sleeps for at least a millisecond and at most
`MAX_SLEEP_MS`. It wakes up at most a millisecond behind what was asked of any set
timer, and a shorter sleep ends behind the least key of the heap. -/
theorem sleep_bounded (start : Int) (steps : List (Step ι)) :
    ∃ links trace, run start steps = some (links, trace) ∧
      ∀ handler, ∃ result, processTimer handler maxSleepMs links = some result ∧
        (result.fired = none →
          1 ≤ result.timeoutMs ∧ result.timeoutMs ≤ maxSleepMs ∧
          (∀ t, links.isSet t = true →
            ∃ tp, requested trace t = some tp ∧
            links.now + result.timeoutMs * nanosPerMs ≤ tp + nanosPerMs) ∧
          (result.timeoutMs < maxSleepMs →
            ∃ t, result.links.isSet t = true ∧
              (∀ u, result.links.isSet u = true → result.links.fireTime t ≤ result.links.fireTime u) ∧
              result.links.fireTime t < links.now + result.timeoutMs * nanosPerMs)) := by
  obtain ⟨⟨links, trace⟩, ran, tracks⟩ := run_tracks start steps
  refine ⟨links, trace, ran, fun handler => ?_⟩
  obtain ⟨result, processed, outcome⟩ := processTimer_outcome handler maxSleepMs tracks.consistent
  refine ⟨result, processed, fun idle => ?_⟩
  have rests := processTimer_rests handler maxSleepMs tracks.consistent processed idle
  cases outcome with
  | fired => cases idle
  | idle timeoutMs after consistent active moved now early =>
    refine ⟨rests.within.1, rests.within.2, fun t set => ?_, fun shorter => ?_⟩
    · have member := (isSet_iff links t).mp set
      have wakes := rests.wakes t (active ▸ member)
      have lag := consistent.lag t (active ▸ member)
      refine ⟨links.movedFireTime t, tracks.set t member, ?_⟩
      rw [now] at wakes
      rw [moved] at lag
      exact Int.le_trans wakes (Int.add_le_add_right lag nanosPerMs)
    · obtain ⟨t, set, least, behind⟩ := rests.rounds shorter
      rw [now] at behind
      exact ⟨t, (isSet_iff after t).mpr set, fun u member =>
        least u ((isSet_iff after u).mp member), behind⟩

end Crablib.SleepProofs
