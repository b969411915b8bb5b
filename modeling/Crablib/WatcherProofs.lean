import Crablib.Network.Watcher

/-! Calls of watchers are neither lost nor made up. A watcher that was called is in one
of the two lists until its handler is started or it is cancelled; a watcher in neither
list gets there by a call only. What was fired is moved on because the eventfd is
written after every call and read before what was fired is moved. -/
namespace Crablib.WatcherProofs
open WatcherSystem

variable {τ ω : Type} {s : WatcherSystem τ ω} {w : ω}

/-- The watcher is on its way to its handler. -/
def Called (s : WatcherSystem τ ω) (w : ω) : Prop :=
  w ∈ s.links.firedObjects ∨ .watcher w ∈ s.links.triggeredCallables

/-- Every list holds an object once, and a watcher that is being cancelled is out of
the queue of handlers already. -/
structure Tidy (s : WatcherSystem τ ω) : Prop where
  fired : s.links.firedObjects.Nodup
  triggered : s.links.triggeredCallables.Nodup
  cancelling : ∀ w, s.running = .cancelling w → .watcher w ∉ s.links.triggeredCallables

section Lists

variable [DecidableEq ω] {queue : List (Callable ω)}

private theorem mem_foldl_pushBack (fired : List ω) (c : Callable ω) :
    c ∈ fired.foldl (fun queue w => IntrusiveList.pushBack queue (.watcher w)) queue ↔
      c ∈ queue ∨ ∃ w ∈ fired, c = .watcher w := by
  induction fired generalizing queue with
  | nil => simp
  | cons first fired ih => simp [ih, or_assoc]

private theorem nodup_foldl_pushBack (fired : List ω) (nodup : queue.Nodup) :
    (fired.foldl (fun queue w => IntrusiveList.pushBack queue (.watcher w)) queue).Nodup := by
  induction fired generalizing queue with
  | nil => exact nodup
  | cons first fired ih => exact ih (IntrusiveList.nodup_pushBack nodup _)

theorem nodup_triggerCalledWatchers {l : WatcherLinks ω} (nodup : l.triggeredCallables.Nodup) :
    l.triggerCalledWatchers.triggeredCallables.Nodup :=
  nodup_foldl_pushBack l.firedObjects nodup

theorem mem_triggerCalledWatchers (l : WatcherLinks ω) (c : Callable ω) :
    c ∈ l.triggerCalledWatchers.triggeredCallables ↔
      c ∈ l.triggeredCallables ∨ ∃ w ∈ l.firedObjects, c = .watcher w :=
  mem_foldl_pushBack l.firedObjects c

end Lists

section Steps

@[simp] private theorem wakeup_links (s : WatcherSystem τ ω) : s.wakeup.links = s.links := by
  unfold WatcherSystem.wakeup
  split <;> rfl

@[simp] private theorem wakeup_running (s : WatcherSystem τ ω) : s.wakeup.running = s.running := by
  unfold WatcherSystem.wakeup
  split <;> rfl

section Callers

variable [DecidableEq τ]

@[simp] private theorem setCaller_links (s : WatcherSystem τ ω) (t : τ) (call : Option ω) :
    (s.setCaller t call).links = s.links := rfl

@[simp] private theorem setCaller_running (s : WatcherSystem τ ω) (t : τ) (call : Option ω) :
    (s.setCaller t call).running = s.running := rfl

end Callers

variable [DecidableEq ω]

@[simp] private theorem epollWait_fired (s : WatcherSystem τ ω) :
    s.epollWait.links.firedObjects = s.links.firedObjects := by
  unfold WatcherSystem.epollWait
  split <;> rfl

@[simp] private theorem epollWait_running (s : WatcherSystem τ ω) : s.epollWait.running = s.running := by
  unfold WatcherSystem.epollWait
  split <;> rfl

private theorem mem_epollWait (s : WatcherSystem τ ω) (w : ω) :
    .watcher w ∈ s.epollWait.links.triggeredCallables ↔ .watcher w ∈ s.links.triggeredCallables := by
  unfold WatcherSystem.epollWait
  split <;> simp

/-- What starting a handler does. -/
private theorem startFront_cases (s : WatcherSystem τ ω) :
    (s.links.triggeredCallables = [] ∧ s.startFront = s) ∨
      ∃ c rest, s.links.triggeredCallables = c :: rest ∧
      s.startFront.links = { s.links with triggeredCallables := rest } ∧
        s.startFront.running = if c = .wake then .read else s.running := by
  unfold WatcherSystem.startFront
  split
  · rename_i empty
    exact .inl ⟨empty, rfl⟩
  · rename_i rest queue
    exact .inr ⟨_, rest, queue, rfl, rfl⟩
  · rename_i w rest queue
    exact .inr ⟨_, rest, queue, rfl, rfl⟩

variable [DecidableEq τ]

theorem tidy_next (tidy : Tidy s) (a : Act τ ω) (enabled : s.Enabled a) : Tidy (s.next a) := by
  obtain ⟨fired, triggered, cancelling⟩ := tidy
  cases a with
  | callWatcher t w => exact ⟨IntrusiveList.nodup_pushBack fired w, triggered, cancelling⟩
  | wakeup t =>
    exact ⟨by simpa [next] using fired, by simpa [next] using triggered, by
      simpa [next] using cancelling⟩
  | cancelLoop =>
    exact ⟨by simpa [next] using fired, by simpa [next] using triggered, by
      simpa [next] using cancelling⟩
  | epollWait =>
    have nodup : s.epollWait.links.triggeredCallables.Nodup := by
      unfold WatcherSystem.epollWait
      split
      · exact IntrusiveList.nodup_pushBack triggered _
      · exact triggered
    refine ⟨by simpa [next] using fired, nodup, fun w during => ?_⟩
    simp only [next, epollWait_running] at during
    simpa [next, mem_epollWait] using cancelling w during
  | startFront =>
    rcases startFront_cases s with ⟨-, same⟩ | ⟨c, rest, queue, links, running⟩
    · simp only [next, same]
      exact ⟨fired, triggered, cancelling⟩
    · rw [queue] at triggered
      obtain ⟨-, nodup⟩ := List.nodup_cons.mp triggered
      refine ⟨by simpa [next, links] using fired, by simpa [next, links] using nodup, fun w during => ?_⟩
      simp only [next, running] at during
      split at during
      · cases during
      · rw [show s.running = .free from enabled] at during
        cases during
  | eventfdRead => exact ⟨fired, triggered, fun w during => by cases during⟩
  | triggerCalledWatchers =>
    exact ⟨List.nodup_nil, nodup_triggerCalledWatchers triggered, fun w during => by cases during⟩
  | cancelCallable w =>
    refine ⟨fired, IntrusiveList.nodup_unlink triggered _, fun w' during => ?_⟩
    cases during
    intro member
    exact ((IntrusiveList.mem_unlink triggered).mp member).1 rfl
  | cancelCalledWatcher =>
    obtain ⟨w, during⟩ := enabled
    simp only [next, during]
    exact ⟨IntrusiveList.nodup_unlink fired w, triggered, fun w' later => by cases later⟩

/-- A step keeps a watcher on its way, unless it starts its handler or belongs to its
cancellation. -/
theorem called_next (tidy : Tidy s) (called : Called s w) (a : Act τ ω)
    (kept : s.running ≠ .cancelling w) (other : a ≠ .cancelCallable w) :
    s.started a = some (.watcher w) ∨ Called (s.next a) w := by
  unfold Called at called ⊢
  cases a with
  | callWatcher t w' =>
    right
    rcases called with member | member
    · left
      simp [next, WatcherLinks.callWatcher, member]
    · exact .inr member
  | wakeup t => simpa [next, started] using called
  | cancelLoop => simpa [next, started] using called
  | epollWait => simpa [next, started, mem_epollWait] using called
  | startFront =>
    rcases startFront_cases s with ⟨-, same⟩ | ⟨c, rest, queue, links, -⟩
    · right
      simpa only [next, same] using called
    · rw [queue] at called
      simp only [next, links, started, queue, List.head?_cons, Option.some.injEq]
      rcases called with member | member
      · exact .inr (.inl member)
      · rcases List.mem_cons.mp member with front | later
        · exact .inl front.symm
        · exact .inr (.inr later)
  | eventfdRead => exact .inr called
  | triggerCalledWatchers =>
    right
    right
    rw [next, mem_triggerCalledWatchers]
    rcases called with member | member
    · exact .inr ⟨w, member, rfl⟩
    · exact .inl member
  | cancelCallable w' =>
    have different : w ≠ w' := by
      rintro rfl
      exact other rfl
    right
    rcases called with member | member
    · exact .inl member
    · right
      rw [next, WatcherLinks.cancelCallable, IntrusiveList.mem_unlink tidy.triggered]
      exact ⟨by simpa using different, member⟩
  | cancelCalledWatcher =>
    right
    simp only [next]
    split
    · rename_i w' during
      rcases called with member | member
      · left
        rw [WatcherLinks.cancelCalledWatcher, IntrusiveList.mem_unlink tidy.fired]
        refine ⟨?_, member⟩
        rintro rfl
        exact kept during
      · exact .inr member
    · exact called

/-- A step that is not a call of a watcher does not put it on its way. -/
theorem not_called_next (absent : ¬Called s w) (a : Act τ ω) (quiet : ∀ t, a ≠ .callWatcher t w) :
    s.started a ≠ some (.watcher w) ∧ ¬Called (s.next a) w := by
  unfold Called at absent ⊢
  rw [not_or] at absent ⊢
  obtain ⟨unfired, untriggered⟩ := absent
  cases a with
  | callWatcher t w' =>
    have different : w ≠ w' := by
      rintro rfl
      exact quiet t rfl
    refine ⟨by simp [started], ?_, untriggered⟩
    simp [next, WatcherLinks.callWatcher, unfired, different]
  | wakeup t => simpa [next, started] using ⟨unfired, untriggered⟩
  | cancelLoop => simpa [next, started] using ⟨unfired, untriggered⟩
  | epollWait => simpa [next, started, mem_epollWait] using ⟨unfired, untriggered⟩
  | startFront =>
    rcases startFront_cases s with ⟨empty, same⟩ | ⟨c, rest, queue, links, -⟩
    · simp only [next, same, started, empty]
      exact ⟨by simp, unfired, by simp⟩
    · rw [queue, List.mem_cons, not_or] at untriggered
      simp only [next, links, started, queue, List.head?_cons]
      refine ⟨?_, unfired, untriggered.2⟩
      intro front
      exact untriggered.1 (Option.some.inj front).symm
  | eventfdRead => exact ⟨by simp [started], unfired, untriggered⟩
  | triggerCalledWatchers =>
    refine ⟨by simp [started], by simp [next, WatcherLinks.triggerCalledWatchers], ?_⟩
    rw [next, mem_triggerCalledWatchers]
    rintro (member | ⟨w', member, same⟩)
    · exact untriggered member
    · cases same
      exact unfired member
  | cancelCallable w' =>
    exact ⟨by simp [started], unfired, fun member => untriggered (List.mem_of_mem_erase member)⟩
  | cancelCalledWatcher =>
    refine ⟨by simp [started], ?_⟩
    simp only [next]
    split
    · exact ⟨fun member => unfired (List.mem_of_mem_erase member), untriggered⟩
    · exact ⟨unfired, untriggered⟩

end Steps

section Wake

/-- The eventfd will be handled: it was written since `epoll_wait` reported it, its
handler is queued, or the handler has not read it yet. -/
def Reported (s : WatcherSystem τ ω) : Prop :=
  s.unreported = true ∨ .wake ∈ s.links.triggeredCallables ∨ s.running = .read

/-- A written eventfd will be handled, and what was fired waits for a caller to write it,
for its handler, or for the end of the handler. -/
structure Woken (s : WatcherSystem τ ω) : Prop where
  reported : 0 < s.wakeValue → Reported s
  fired : s.links.firedObjects ≠ [] →
    (∃ t, s.callers t ≠ none) ∨ 0 < s.wakeValue ∨ .wake ∈ s.links.triggeredCallables ∨
    s.running = .read ∨ s.running = .trigger

private theorem reported_wakeup (woken : Woken s) : 0 < s.wakeup.wakeValue ∧ Reported s.wakeup := by
  unfold WatcherSystem.wakeup
  split
  · exact ⟨Nat.succ_pos _, .inl rfl⟩
  · rename_i full
    have positive : 0 < s.wakeValue := by
      have : 0 < maxWakeValue := by decide
      omega
    exact ⟨positive, woken.reported positive⟩

private theorem woken_wakeup (woken : Woken s) : Woken s.wakeup := by
  obtain ⟨positive, reported⟩ := reported_wakeup woken
  exact ⟨fun _ => reported, fun _ => .inr (.inl positive)⟩

private theorem woken_startFront (woken : Woken s) : Woken s.startFront := by
  obtain ⟨reported, fired⟩ := woken
  unfold WatcherSystem.startFront
  split
  · exact ⟨reported, fired⟩
  · exact ⟨fun _ => .inr (.inr rfl), fun _ => .inr (.inr (.inr (.inl rfl)))⟩
  · rename_i w rest queue
    refine ⟨fun positive => ?_, fun some_ => ?_⟩
    · simpa [Reported, queue] using reported positive
    · simpa [queue] using fired some_

variable [DecidableEq ω]

private theorem woken_epollWait (woken : Woken s) : Woken s.epollWait := by
  obtain ⟨reported, fired⟩ := woken
  unfold WatcherSystem.epollWait
  split
  · refine ⟨fun _ => .inr (.inl (by simp)), fun some_ => ?_⟩
    right
    right
    left
    simp
  · rename_i nothing
    refine ⟨fun positive => ?_, fired⟩
    right
    rcases reported positive with unreported | later
    · simp [unreported, Nat.pos_iff_ne_zero.mp positive] at nothing
    · exact later

variable [DecidableEq τ]

theorem woken_next (woken : Woken s) (a : Act τ ω) (enabled : s.Enabled a) : Woken (s.next a) := by
  cases a with
  | callWatcher t w => exact ⟨woken.reported, fun _ => .inl ⟨t, by simp [next, setCaller]⟩⟩
  | wakeup t =>
    obtain ⟨positive, reported⟩ := reported_wakeup woken
    exact ⟨fun _ => reported, fun _ => .inr (.inl positive)⟩
  | cancelLoop => exact woken_wakeup woken
  | epollWait => exact woken_epollWait woken
  | startFront => exact woken_startFront woken
  | eventfdRead =>
    exact ⟨fun positive => absurd positive (Nat.lt_irrefl 0), fun _ => .inr (.inr (.inr (.inr rfl)))⟩
  | triggerCalledWatchers =>
    refine ⟨fun positive => ?_, fun some_ => absurd rfl some_⟩
    have during : s.running = .trigger := enabled
    rcases woken.reported positive with unreported | pending | reading
    · exact .inl unreported
    · right
      left
      rw [next, mem_triggerCalledWatchers]
      exact .inl pending
    · rw [during] at reading
      cases reading
  | cancelCallable w =>
    have free : s.running = .free := enabled
    have kept : Callable.wake ∈ (s.next (.cancelCallable w)).links.triggeredCallables ↔
        Callable.wake ∈ s.links.triggeredCallables := by
      simp [next, WatcherLinks.cancelCallable, IntrusiveList.unlink, List.mem_erase_of_ne]
    obtain ⟨reported, fired⟩ := woken
    simp only [Reported, free, reduceCtorEq, or_false] at reported fired
    refine ⟨fun positive => ?_, fun some_ => ?_⟩
    · rcases reported positive with unreported | pending
      · exact .inl unreported
      · exact .inr (.inl (kept.mpr pending))
    · rcases fired some_ with caller | positive | pending
      · exact .inl caller
      · exact .inr (.inl positive)
      · exact .inr (.inr (.inl (kept.mpr pending)))
  | cancelCalledWatcher =>
    obtain ⟨w, during⟩ := enabled
    obtain ⟨reported, fired⟩ := woken
    simp only [Reported, during, reduceCtorEq, or_false] at reported fired
    simp only [next, during]
    refine ⟨fun positive => ?_, fun some_ => ?_⟩
    · rcases reported positive with unreported | pending
      · exact .inl unreported
      · exact .inr (.inl pending)
    · have before : s.links.firedObjects ≠ [] := by
        intro empty
        simp [WatcherLinks.cancelCalledWatcher, IntrusiveList.unlink, empty] at some_
      rcases fired before with caller | positive | pending
      · exact .inl caller
      · exact .inr (.inl positive)
      · exact .inr (.inr (.inl pending))

end Wake

section Runs

private theorem start_tidy : Tidy ({} : WatcherSystem τ ω) :=
  ⟨List.nodup_nil, List.nodup_nil, fun _ during => by cases during⟩

private theorem start_woken : Woken ({} : WatcherSystem τ ω) :=
  ⟨fun positive => absurd positive (Nat.lt_irrefl 0), fun some_ => absurd rfl some_⟩

variable [DecidableEq τ] [DecidableEq ω]

theorem tidy_after (tidy : Tidy s) {run : List (Act τ ω)}
    (real : s.Interleaving run) : Tidy (s.after run) :=
  Run.invariant_of_meets (P := Tidy) (fun _ a (kept : Tidy _) enabled =>
    tidy_next kept a enabled) tidy run real

theorem woken_after (woken : Woken s) {run : List (Act τ ω)} (real : s.Interleaving run) :
    Woken (s.after run) :=
  Run.invariant_of_meets (P := Woken) (fun _ a (kept : Woken _) enabled =>
    woken_next kept a enabled) woken run real

private theorem running_next (a : Act τ ω) (kept : s.running ≠ .cancelling w)
    (other : a ≠ .cancelCallable w) :
    (s.next a).running ≠ .cancelling w := by
  cases a with
  | callWatcher t w' => exact kept
  | wakeup t => simpa [next] using kept
  | cancelLoop => simpa [next] using kept
  | epollWait => simpa [next] using kept
  | startFront =>
    rcases startFront_cases s with ⟨-, same⟩ | ⟨c, rest, -, -, running⟩
    · simpa only [next, same] using kept
    · rw [next, running]
      split
      · exact nofun
      · exact kept
  | eventfdRead => exact nofun
  | triggerCalledWatchers => exact nofun
  | cancelCallable w' =>
    intro same
    cases same
    exact other rfl
  | cancelCalledWatcher =>
    simp only [next]
    split
    · exact nofun
    · exact kept

/-- A watcher that was called is on its way until its handler is started. -/
theorem called_after (tidy : Tidy s) (called : Called s w) (kept : s.running ≠ .cancelling w)
    {run : List (Act τ ω)} (real : s.Interleaving run) (uncancelled : .cancelCallable w ∉ run) :
    s.Starts w run ∨ Called (s.after run) w := by
  induction run generalizing s with
  | nil => exact .inr called
  | cons a run ih =>
    rw [List.mem_cons, not_or] at uncancelled
    have other : a ≠ .cancelCallable w := Ne.symm uncancelled.1
    rcases called_next tidy called a kept other with starts | called'
    · left
      simp [Starts, starts]
    · rcases ih (tidy_next tidy a real.1) called' (running_next a kept other) real.2
        uncancelled.2 with starts | still
      · left
        exact List.mem_cons_of_mem _ starts
      · exact .inr still

/-- A watcher that is not on its way stays so without a call. -/
theorem not_called_after (absent : ¬Called s w) (run : List (Act τ ω))
    (quiet : ∀ t, .callWatcher t w ∉ run) :
    ¬Called (s.after run) w := by
  induction run generalizing s with
  | nil => exact absent
  | cons a run ih =>
    have quietHere : ∀ t, a ≠ .callWatcher t w := by
      rintro t rfl
      exact quiet t List.mem_cons_self
    exact ih (not_called_next absent a quietHere).2 fun t member =>
      quiet t (List.mem_cons_of_mem a member)

/-- No call of a watcher is lost and none is made up, in any interleaving. After its
`call_watcher` step a call that no `cancel` overlaps or follows has had the handler
started, or the watcher is in one of the lists. What was fired while no caller is about
to write the eventfd will be moved on. After a `cancel` has completed the handler is not
started before the next call. -/
theorem watcher_calls_kept (before rest : List (Act τ ω))
    (real : ({} : WatcherSystem τ ω).Interleaving (before ++ rest)) :
    (∀ t w later, rest = .callWatcher t w :: later → (after {} before).running ≠ .cancelling w →
      .cancelCallable w ∉ later →
      Starts (after {} (before ++ [.callWatcher t w])) w later ∨
        w ∈ (after {} (before ++ rest)).links.firedObjects ∨
        .watcher w ∈ (after {} (before ++ rest)).links.triggeredCallables) ∧
    ((after {} before).links.firedObjects ≠ [] → (∀ t, (after {} before).callers t = none) →
      (0 < (after {} before).wakeValue ∧ (after {} before).unreported = true) ∨
        .wake ∈ (after {} before).links.triggeredCallables ∨
        (after {} before).running = .read ∨ (after {} before).running = .trigger) ∧
    (∀ w between later, (after {} before).running = .cancelling w →
      rest = .cancelCalledWatcher :: between ++ .startFront :: later →
      started (after {} (before ++ .cancelCalledWatcher :: between)) .startFront = some (.watcher w) →
      ∃ t, .callWatcher t w ∈ between) := by
  obtain ⟨realBefore, realRest⟩ := Run.meets_append.mp real
  have tidy := tidy_after start_tidy realBefore
  refine ⟨?_, ?_, ?_⟩
  · intro t w later split kept uncancelled
    subst split
    have called : Called ((after {} before).next (.callWatcher t w)) w := by
      left
      simp [next, WatcherLinks.callWatcher]
    have outcome := called_after (tidy_next tidy _ realRest.1) called
      (running_next _ kept (by simp)) realRest.2 uncancelled
    simpa only [after, Run.after_append, Run.after_cons, Run.after_nil, Called] using outcome
  · intro some_ nobody
    have woken := woken_after start_woken realBefore
    rcases woken.fired some_ with ⟨t, caller⟩ | positive | pending
    · exact absurd (nobody t) caller
    · rcases woken.reported positive with unreported | pending | reading
      · exact .inl ⟨positive, unreported⟩
      · exact .inr (.inl pending)
      · exact .inr (.inr (.inl reading))
    · exact .inr pending
  · intro w between later during split starts
    subst split
    apply Classical.byContradiction
    intro unseen
    have quiet : ∀ t, .callWatcher t w ∉ between := not_exists.mp unseen
    have absent : ¬Called ((after {} before).next .cancelCalledWatcher) w := by
      simp only [next, during, Called, not_or]
      refine ⟨fun member => ?_, tidy.cancelling w during⟩
      exact ((IntrusiveList.mem_unlink tidy.fired).mp member).1 rfl
    have still := not_called_after absent between quiet
    apply (not_called_next still .startFront (by simp)).1
    simpa only [after, Run.after_append, Run.after_cons] using starts

/-- The loop has been woken by one thread and has read the eventfd. -/
def wokenRun : List (Act Nat Nat) := [.callWatcher 0 0, .wakeup 0, .epollWait, .startFront, .eventfdRead]

/-- Another thread's call lands between the read and the end of the handler, and the
handler of the first watcher is started before that thread writes the eventfd. -/
def lateRun : List (Act Nat Nat) := [.triggerCalledWatchers, .startFront, .wakeup 1]

theorem watcher_calls_kept_late :
    Starts (after {} (wokenRun ++ [.callWatcher 1 1])) 1 lateRun ∨
      1 ∈ (after {} (wokenRun ++ .callWatcher 1 1 :: lateRun)).links.firedObjects ∨
      .watcher 1 ∈ (after {} (wokenRun ++ .callWatcher 1 1 :: lateRun)).links.triggeredCallables := by
  have real : ({} : WatcherSystem Nat Nat).Interleaving (wokenRun ++ .callWatcher 1 1 :: lateRun) :=
    ⟨rfl, nofun, rfl, rfl, rfl, rfl, rfl, rfl, nofun, trivial⟩
  exact (watcher_calls_kept wokenRun _ real).1 1 1 lateRun rfl nofun (by decide)

end Runs

end Crablib.WatcherProofs
