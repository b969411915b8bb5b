import Crablib.Network.DnsResolver
import Crablib.WatcherProofs

/-! The protocol between resolvers and the worker. A resolver that is resolving is at
one place: in the queue, with the worker, or with its watcher. Along this way its
request, the worker's copy of it and the addresses belong to its last `resolve`, and
`cancel` takes it from wherever it is. -/
namespace Crablib.DnsProofs
open DnsSystem

variable {ι κ α : Type} {owner : ι → κ} {syncResolve : DnsRequest → List α}
  {s : DnsSystem ι κ α} {i : ι}

section Links

variable {l : WatcherLinks ι}

/-- Every list of a loop holds an object once. -/
structure Distinct (l : WatcherLinks ι) : Prop where
  fired : l.firedObjects.Nodup
  triggered : l.triggeredCallables.Nodup

variable [DecidableEq ι]

private theorem distinct_cancel (distinct : Distinct l) (j : ι) : Distinct (l.cancel j) :=
  ⟨IntrusiveList.nodup_unlink distinct.fired j, IntrusiveList.nodup_unlink distinct.triggered _⟩

private theorem mem_fired_cancel (distinct : Distinct l) (j : ι) :
    i ∈ (l.cancel j).firedObjects ↔ i ≠ j ∧ i ∈ l.firedObjects :=
  IntrusiveList.mem_unlink distinct.fired

private theorem mem_triggered_cancel (distinct : Distinct l) (j : ι) :
    .watcher i ∈ (l.cancel j).triggeredCallables ↔ i ≠ j ∧ .watcher i ∈ l.triggeredCallables := by
  rw [WatcherLinks.cancel, WatcherLinks.cancelCalledWatcher, WatcherLinks.cancelCallable,
    IntrusiveList.mem_unlink distinct.triggered]
  simp

private theorem mem_triggered_trigger (l : WatcherLinks ι) (i : ι) :
    .watcher i ∈ l.triggerCalledWatchers.triggeredCallables ↔ .watcher i ∈ l.triggeredCallables ∨
      i ∈ l.firedObjects := by
  simp [WatcherProofs.mem_triggerCalledWatchers]

end Links

section Resolvers

variable [DecidableEq ι]

@[simp] private theorem setResolver_same (s : DnsSystem ι κ α) (i : ι) (r : DnsResolver α) :
    (s.setResolver i r).resolvers i = r := by
  simp [setResolver]

private theorem setResolver_other (s : DnsSystem ι κ α) (r : DnsResolver α) {i j : ι} (other : i ≠ j) :
    (s.setResolver j r).resolvers i = s.resolvers i := by
  simp [setResolver, other]

@[simp] private theorem setResolver_links (s : DnsSystem ι κ α) (i : ι) (r : DnsResolver α) :
    (s.setResolver i r).links = s.links := rfl

@[simp] private theorem setResolver_workQueue (s : DnsSystem ι κ α) (i : ι) (r : DnsResolver α) :
    (s.setResolver i r).workQueue = s.workQueue := rfl

@[simp] private theorem setResolver_executingRequest (s : DnsSystem ι κ α) (i : ι) (r : DnsResolver α) :
    (s.setResolver i r).executingRequest = s.executingRequest := rfl

end Resolvers

section Loops

variable [DecidableEq κ]

@[simp] private theorem setLinks_resolvers (s : DnsSystem ι κ α) (k : κ) (l : WatcherLinks ι) :
    (s.setLinks k l).resolvers = s.resolvers := rfl

@[simp] private theorem setLinks_workQueue (s : DnsSystem ι κ α) (k : κ) (l : WatcherLinks ι) :
    (s.setLinks k l).workQueue = s.workQueue := rfl

@[simp] private theorem setLinks_executingRequest (s : DnsSystem ι κ α) (k : κ) (l : WatcherLinks ι) :
    (s.setLinks k l).executingRequest = s.executingRequest := rfl

@[simp] private theorem setLinks_same (s : DnsSystem ι κ α) (k : κ) (l : WatcherLinks ι) :
    (s.setLinks k l).links k = l := by
  simp [setLinks]

private theorem setLinks_other (s : DnsSystem ι κ α) (l : WatcherLinks ι) {k k' : κ} (other : k' ≠ k) :
    (s.setLinks k l).links k' = s.links k' := by
  simp [setLinks, other]

/-- What holds of the changed lists and of all lists before holds of all lists. -/
private theorem links_setLinks {P : κ → WatcherLinks ι → Prop} {k : κ}
    {l : WatcherLinks ι} (changed : P k l) (others : ∀ k', P k' (s.links k')) (k' : κ) :
    P k' ((s.setLinks k l).links k') := by
  by_cases same : k' = k
  · subst same
    rw [setLinks_same]
    exact changed
  · rw [setLinks_other s l same]
    exact others k'

end Loops

section Tidiness

/-- The lists hold an object once, a loop has its own resolvers only, and the worker has
a request only while it has a job. -/
structure Tidy (owner : ι → κ) (s : DnsSystem ι κ α) : Prop where
  queue : s.workQueue.Nodup
  distinct : ∀ k, Distinct (s.links k)
  fired : ∀ k, ∀ i ∈ (s.links k).firedObjects, owner i = k
  triggered : ∀ k i, .watcher i ∈ (s.links k).triggeredCallables → owner i = k
  idle : s.job = none → s.executingRequest = none

/-- What `Tidy` says of one loop. -/
private structure TidyLinks (owner : ι → κ) (k : κ) (l : WatcherLinks ι) : Prop where
  distinct : Distinct l
  fired : ∀ i ∈ l.firedObjects, owner i = k
  triggered : ∀ i, .watcher i ∈ l.triggeredCallables → owner i = k

private theorem Tidy.links (tidy : Tidy owner s) (k : κ) : TidyLinks owner k (s.links k) :=
  ⟨tidy.distinct k, tidy.fired k, tidy.triggered k⟩

private theorem Tidy.of_links (queue : s.workQueue.Nodup) (links : ∀ k, TidyLinks owner k (s.links k))
    (idle : s.job = none → s.executingRequest = none) : Tidy owner s :=
  ⟨queue, fun k => (links k).distinct, fun k => (links k).fired, fun k => (links k).triggered, idle⟩

private theorem start_tidy : Tidy owner ({} : DnsSystem ι κ α) :=
  Tidy.of_links List.nodup_nil (fun _ => ⟨⟨List.nodup_nil, List.nodup_nil⟩, nofun, nofun⟩) fun _ => rfl

private theorem tidyLinks_rest {k : κ} {l : WatcherLinks ι} {c : Callable ι}
    {rest : List (Callable ι)} (tidy : TidyLinks owner k l)
    (queue : l.triggeredCallables = c :: rest) :
    TidyLinks owner k { l with triggeredCallables := rest } where
  distinct := ⟨tidy.distinct.fired, (List.nodup_cons.mp (queue ▸ tidy.distinct.triggered)).2⟩
  fired := tidy.fired
  triggered i member := tidy.triggered i (by rw [queue]; exact List.mem_cons_of_mem c member)

variable [DecidableEq ι]

private theorem tidyLinks_cancel {k : κ} {l : WatcherLinks ι} (tidy : TidyLinks owner k l) (j : ι) :
    TidyLinks owner k (l.cancel j) where
  distinct := distinct_cancel tidy.distinct j
  fired i member := tidy.fired i ((mem_fired_cancel tidy.distinct j).mp member).2
  triggered i member := tidy.triggered i ((mem_triggered_cancel tidy.distinct j).mp member).2

private theorem tidyLinks_call {l : WatcherLinks ι} {j : ι} (tidy : TidyLinks owner (owner j) l) :
    TidyLinks owner (owner j) (l.callWatcher j) where
  distinct := ⟨IntrusiveList.nodup_pushBack tidy.distinct.fired j, tidy.distinct.triggered⟩
  fired i member := by
    rcases IntrusiveList.mem_pushBack.mp member with before | rfl
    · exact tidy.fired i before
    · rfl
  triggered := tidy.triggered

private theorem tidyLinks_trigger {k : κ} {l : WatcherLinks ι} (tidy : TidyLinks owner k l) :
    TidyLinks owner k l.triggerCalledWatchers where
  distinct := ⟨List.nodup_nil, WatcherProofs.nodup_triggerCalledWatchers tidy.distinct.triggered⟩
  fired i member := by cases member
  triggered i member := by
    rcases (mem_triggered_trigger l i).mp member with before | fired
    · exact tidy.triggered i before
    · exact tidy.fired i fired

variable [DecidableEq κ]

private theorem tidy_cancel (tidy : Tidy owner s) (j : ι) : Tidy owner (s.cancel owner j) := by
  unfold DnsSystem.cancel
  split
  · exact tidy
  · refine Tidy.of_links (IntrusiveList.nodup_unlink tidy.queue j) ?_ fun none_ => ?_
    · exact links_setLinks (P := TidyLinks owner) (tidyLinks_cancel (tidy.links _) j) tidy.links
    · have nobody : s.executingRequest = none := tidy.idle none_
      simp [nobody]

theorem tidy_next (tidy : Tidy owner s) (a : Act ι κ) : Tidy owner (next owner syncResolve s a) := by
  cases a with
  | cancel j => exact tidy_cancel tidy j
  | destroy j =>
    have cancelled := tidy_cancel tidy j
    exact Tidy.of_links cancelled.queue
      (links_setLinks (P := TidyLinks owner) (tidyLinks_cancel (cancelled.links _) j)
        cancelled.links) cancelled.idle
  | submit j request =>
    exact Tidy.of_links (IntrusiveList.nodup_pushBack tidy.queue j) tidy.links tidy.idle
  | takeJob =>
    simp only [next, takeJob]
    split
    · exact tidy
    · rename_i j rest queue
      exact Tidy.of_links (List.nodup_cons.mp (queue ▸ tidy.queue)).2 tidy.links nofun
  | publish =>
    simp only [next, publish]
    split
    · exact tidy
    · split
      · rename_i nobody
        exact Tidy.of_links tidy.queue tidy.links fun _ => nobody
      · exact Tidy.of_links tidy.queue
          (links_setLinks (P := TidyLinks owner) (tidyLinks_call (tidy.links _)) tidy.links) fun _ => rfl
  | trigger k =>
    exact Tidy.of_links tidy.queue
      (links_setLinks (P := TidyLinks owner) (tidyLinks_trigger (tidy.links k)) tidy.links) tidy.idle
  | dispatch k =>
    simp only [next, dispatch]
    split
    · exact tidy
    · rename_i rest queue
      exact Tidy.of_links tidy.queue
        (links_setLinks (P := TidyLinks owner) (tidyLinks_rest (tidy.links k) queue) tidy.links)
        tidy.idle
    · rename_i j rest queue
      exact Tidy.of_links tidy.queue
        (links_setLinks (P := TidyLinks owner) (tidyLinks_rest (tidy.links k) queue) tidy.links)
        tidy.idle

end Tidiness

/-- Where a resolver is. -/
inductive Place where
  | nowhere
  | queued
  | executing
  | fired
  | triggered
  deriving DecidableEq

section Places

variable {place : Place} {request : DnsRequest}

/-- A resolver is at a place and at no other, and what is kept for it there belongs to
the request. -/
structure Stands (owner : ι → κ) (syncResolve : DnsRequest → List α) (s : DnsSystem ι κ α)
    (i : ι) (place : Place) (request : DnsRequest) : Prop where
  resolving : (s.resolvers i).resolving = true ↔ place ≠ .nowhere
  queued : i ∈ s.workQueue ↔ place = .queued
  executing : s.executingRequest = some i ↔ place = .executing
  fired : i ∈ (s.links (owner i)).firedObjects ↔ place = .fired
  triggered : .watcher i ∈ (s.links (owner i)).triggeredCallables ↔ place = .triggered
  asked : place = .queued → (s.resolvers i).request = request
  job : place = .executing → s.job = some request
  names : place = .fired ∨ place = .triggered → (s.resolvers i).names = syncResolve request

/-- A step that changes nothing of a resolver leaves it where it is. -/
private theorem Stands.frame {after : DnsSystem ι κ α}
    (stands : Stands owner syncResolve s i place request)
    (resolver : after.resolvers i = s.resolvers i) (queue : i ∈ after.workQueue ↔ i ∈ s.workQueue)
    (executing : after.executingRequest = some i ↔ s.executingRequest = some i)
    (job : s.executingRequest = some i → after.job = s.job)
    (fired : i ∈ (after.links (owner i)).firedObjects ↔ i ∈ (s.links (owner i)).firedObjects)
    (triggered : .watcher i ∈ (after.links (owner i)).triggeredCallables ↔
      .watcher i ∈ (s.links (owner i)).triggeredCallables) :
    Stands owner syncResolve after i place request where
  resolving := by rw [resolver, stands.resolving]
  queued := queue.trans stands.queued
  executing := executing.trans stands.executing
  fired := fired.trans stands.fired
  triggered := triggered.trans stands.triggered
  asked here := by rw [resolver, stands.asked here]
  job here := by rw [job (stands.executing.mpr here), stands.job here]
  names here := by rw [resolver, stands.names here]

private theorem start_stands (i : ι) : Stands owner syncResolve ({} : DnsSystem ι κ α) i .nowhere {} :=
  ⟨by simp, by simp, by simp, by simp, by simp, nofun, nofun, by simp⟩

variable [DecidableEq ι]

private theorem stands_submit (stands : Stands owner syncResolve s i place request)
    (idle : (s.resolvers i).resolving = false) (asked : DnsRequest) :
    Stands owner syncResolve (s.submit i asked) i .queued asked := by
  have nowhere : place = .nowhere := by
    apply Classical.byContradiction
    intro elsewhere
    rw [stands.resolving.mpr elsewhere] at idle
    cases idle
  subst nowhere
  refine ⟨by simp [submit], by simp [submit], ?_, ?_, ?_, fun _ => by simp [submit], nofun, by simp⟩
  · simpa [submit] using stands.executing
  · simpa [submit] using stands.fired
  · simpa [submit] using stands.triggered

private theorem stands_submit_other (stands : Stands owner syncResolve s i place request)
    {j : ι} (other : i ≠ j) (asked : DnsRequest) :
    Stands owner syncResolve (s.submit j asked) i place request :=
  stands.frame (setResolver_other _ _ other) (by simp [submit, other]) Iff.rfl
    (fun _ => rfl) Iff.rfl Iff.rfl

private theorem stands_takeJob (tidy : Tidy owner s)
    (stands : Stands owner syncResolve s i place request) (free : s.job = none) :
    ∃ place', Stands owner syncResolve s.takeJob i place' request ∧
      (place = .nowhere → place' = .nowhere) := by
  have nobody : s.executingRequest = none := tidy.idle free
  unfold takeJob
  split
  · exact ⟨place, stands, id⟩
  · rename_i j rest queue
    have nodup := tidy.queue
    rw [queue] at nodup
    obtain ⟨absent, -⟩ := List.nodup_cons.mp nodup
    by_cases own : i = j
    · subst own
      have here : place = .queued := stands.queued.mp (by rw [queue]; exact List.mem_cons_self)
      subst here
      refine ⟨.executing, ⟨?_, ?_, ?_, ?_, ?_, nofun, fun _ => ?_, by simp⟩, nofun⟩
      · simpa using stands.resolving
      · simp [absent]
      · simp
      · simpa using stands.fired
      · simpa using stands.triggered
      · rw [stands.asked rfl]
    · refine ⟨place, stands.frame (setResolver_other _ _ own) ?_ ?_ ?_ Iff.rfl Iff.rfl, id⟩
      · simp [queue, own]
      · simp [nobody, Ne.symm own]
      · simp [nobody]

variable [DecidableEq κ]

omit [DecidableEq ι] in
/-- Taking another handler from the front of a queue. -/
private theorem Stands.rest {k : κ} {c : Callable ι} {rest : List (Callable ι)}
    (stands : Stands owner syncResolve s i place request)
    (queue : (s.links k).triggeredCallables = c :: rest) (other : c ≠ .watcher i) :
    Stands owner syncResolve (s.setLinks k { s.links k with triggeredCallables := rest }) i place
      request := by
  refine stands.frame rfl Iff.rfl Iff.rfl (fun _ => rfl) ?_ ?_
  · by_cases loop : owner i = k
    · subst loop
      rw [setLinks_same]
    · rw [setLinks_other s _ loop]
  · by_cases loop : owner i = k
    · subst loop
      simp [queue, Ne.symm other]
    · rw [setLinks_other s _ loop]

private theorem stands_cancel (tidy : Tidy owner s)
    (stands : Stands owner syncResolve s i place request) :
    Stands owner syncResolve (s.cancel owner i) i .nowhere request := by
  unfold DnsSystem.cancel
  split
  · rename_i idle
    have nowhere : place = .nowhere := by
      apply Classical.byContradiction
      intro elsewhere
      simp [stands.resolving.mpr elsewhere] at idle
    rw [← nowhere]
    exact stands
  · have distinct := tidy.distinct (owner i)
    refine ⟨by simp, ?_, ?_, ?_, ?_, nofun, nofun, by simp⟩
    · simp [IntrusiveList.mem_unlink tidy.queue]
    · by_cases own : s.executingRequest = some i
      · simp [own]
      · simp [own]
    · simp [mem_fired_cancel distinct]
    · simp [mem_triggered_cancel distinct]

private theorem stands_cancel_other (tidy : Tidy owner s)
    (stands : Stands owner syncResolve s i place request) {j : ι} (other : i ≠ j) :
    Stands owner syncResolve (s.cancel owner j) i place request := by
  unfold DnsSystem.cancel
  split
  · exact stands
  · apply stands.frame
    · exact setResolver_other _ _ other
    · simp [IntrusiveList.mem_unlink tidy.queue, other]
    · by_cases own : s.executingRequest = some j
      · simp [own, Ne.symm other]
      · simp [own]
    · exact fun _ => rfl
    · by_cases loop : owner i = owner j
      · simp [loop, mem_fired_cancel (tidy.distinct (owner j)), other]
      · simp [setLinks_other s _ loop]
    · by_cases loop : owner i = owner j
      · simp [loop, mem_triggered_cancel (tidy.distinct (owner j)), other]
      · simp [setLinks_other s _ loop]

/-- The destructor of the watcher takes it out of lists in which `cancel` has left no
trace of it. -/
private theorem stands_unwatch (tidy : Tidy owner s)
    (stands : Stands owner syncResolve s i place request) {j : ι} (left : i = j → place = .nowhere) :
    Stands owner syncResolve (s.setLinks (owner j) ((s.links (owner j)).cancel j)) i place request := by
  have distinct := tidy.distinct (owner j)
  by_cases own : i = j
  · subst own
    have nowhere := left rfl
    subst nowhere
    refine stands.frame rfl Iff.rfl Iff.rfl (fun _ => rfl) ?_ ?_
    · simp [mem_fired_cancel distinct, stands.fired]
    · simp [mem_triggered_cancel distinct, stands.triggered]
  · refine stands.frame rfl Iff.rfl Iff.rfl (fun _ => rfl) ?_ ?_
    · by_cases loop : owner i = owner j
      · simp [loop, mem_fired_cancel distinct, own]
      · rw [setLinks_other s _ loop]
    · by_cases loop : owner i = owner j
      · simp [loop, mem_triggered_cancel distinct, own]
      · rw [setLinks_other s _ loop]

private theorem stands_publish (stands : Stands owner syncResolve s i place request) :
    ∃ place', Stands owner syncResolve (s.publish owner syncResolve) i place' request ∧
      (place = .nowhere → place' = .nowhere) := by
  unfold publish
  split
  · exact ⟨place, stands, id⟩
  · rename_i job taken
    simp only
    split
    · rename_i nobody
      refine ⟨place, stands.frame rfl Iff.rfl Iff.rfl ?_ Iff.rfl Iff.rfl, id⟩
      simp [nobody]
    · rename_i j working
      by_cases own : i = j
      · subst own
        have here : place = .executing := stands.executing.mp working
        subst here
        have same : job = request := by
          have jobOf := stands.job rfl
          rw [taken] at jobOf
          exact Option.some.inj jobOf
        subst same
        refine ⟨.fired, ⟨?_, ?_, by simp, ?_, ?_, nofun, nofun, by simp⟩, nofun⟩
        · simpa using stands.resolving
        · simpa using stands.queued
        · simp [WatcherLinks.callWatcher]
        · simpa [WatcherLinks.callWatcher] using stands.triggered
      · refine ⟨place, stands.frame ?_ Iff.rfl ?_ ?_ ?_ ?_, id⟩
        · exact setResolver_other _ _ own
        · simp [working, Ne.symm own]
        · simp [working, Ne.symm own]
        · by_cases loop : owner i = owner j
          · simp [loop, WatcherLinks.callWatcher, own]
          · simp [setLinks, loop, setResolver]
        · by_cases loop : owner i = owner j
          · simp [loop, WatcherLinks.callWatcher]
          · simp [setLinks, loop, setResolver]

private theorem stands_trigger (stands : Stands owner syncResolve s i place request) (k : κ) :
    ∃ place', Stands owner syncResolve (s.setLinks k (s.links k).triggerCalledWatchers) i place'
      request ∧ (place = .nowhere → place' = .nowhere) := by
  by_cases loop : owner i = k
  · subst loop
    by_cases here : place = .fired
    · subst here
      refine ⟨.triggered, ⟨?_, ?_, ?_, ?_, ?_, nofun, nofun, fun _ => stands.names (.inl rfl)⟩, nofun⟩
      · simpa using stands.resolving
      · simpa using stands.queued
      · simpa using stands.executing
      · simp [WatcherLinks.triggerCalledWatchers]
      · simp [mem_triggered_trigger, stands.fired]
    · have absent : i ∉ (s.links (owner i)).firedObjects := fun member => here (stands.fired.mp member)
      refine ⟨place, stands.frame rfl Iff.rfl Iff.rfl (fun _ => rfl) ?_ ?_, id⟩
      · simp [WatcherLinks.triggerCalledWatchers, absent]
      · simp [mem_triggered_trigger, absent]
  · refine ⟨place, stands.frame rfl Iff.rfl Iff.rfl (fun _ => rfl) ?_ ?_, id⟩
    · rw [setLinks_other s _ loop]
    · rw [setLinks_other s _ loop]

private theorem stands_dispatch (tidy : Tidy owner s)
    (stands : Stands owner syncResolve s i place request) (k : κ) :
    ∃ place', Stands owner syncResolve (s.dispatch k) i place' request ∧
      (place = .nowhere → place' = .nowhere) ∧ ∀ names, s.invoked (.dispatch k) = some (i, names) →
        names = syncResolve request ∧ place = .triggered ∧ place' = .nowhere := by
  unfold dispatch invoked
  split
  · rename_i empty
    exact ⟨place, stands, id, by simp [empty]⟩
  · rename_i rest queue
    exact ⟨place, stands.rest queue nofun, id, by simp [queue]⟩
  · rename_i j rest queue
    have owned : owner j = k := tidy.triggered k j (by rw [queue]; exact List.mem_cons_self)
    have nodup := (tidy.distinct k).triggered
    rw [queue] at nodup
    obtain ⟨absent, -⟩ := List.nodup_cons.mp nodup
    by_cases own : i = j
    · subst own
      subst owned
      have here : place = .triggered := stands.triggered.mp (by rw [queue]; exact List.mem_cons_self)
      subst here
      refine ⟨.nowhere, ⟨by simp, ?_, ?_, ?_, ?_, nofun, nofun, by simp⟩, nofun, ?_⟩
      · simpa using stands.queued
      · simpa using stands.executing
      · simpa using stands.fired
      · simp [absent]
      · intro names same
        simp only [queue, Option.some.injEq, Prod.mk.injEq, true_and] at same
        exact ⟨same.symm.trans (stands.names (.inr rfl)), rfl, rfl⟩
    · refine ⟨place, ?_, id, ?_⟩
      · have taken := stands.rest queue (by simp [Ne.symm own])
        exact taken.frame (setResolver_other _ _ own) Iff.rfl Iff.rfl (fun _ => rfl) Iff.rfl Iff.rfl
      · intro names same
        simp [queue, Ne.symm own] at same

/-- The step takes a request back. -/
def withdraws (i : ι) (a : Act ι κ) : Prop := a = .cancel i ∨ a = .destroy i

/-- What a step other than its next `resolve` does to a resolver: it stays out of the
protocol when it is, its cancellation takes it out, and so does its handler, which gets
the addresses of the request. -/
theorem stands_next (tidy : Tidy owner s) (stands : Stands owner syncResolve s i place request)
    (a : Act ι κ) (enabled : s.Enabled a) (other : ∀ asked, a ≠ .submit i asked) :
    ∃ place', Stands owner syncResolve (next owner syncResolve s a) i place' request ∧
      (place = .nowhere ∨ withdraws i a → place' = .nowhere) ∧
      ∀ names, s.invoked a = some (i, names) → names = syncResolve request ∧ place = .triggered ∧
      place' = .nowhere := by
  cases a with
  | cancel j =>
    by_cases own : i = j
    · subst own
      exact ⟨.nowhere, stands_cancel tidy stands, fun _ => rfl, nofun⟩
    · refine ⟨place, stands_cancel_other tidy stands own, ?_, nofun⟩
      simp [withdraws, Ne.symm own]
  | destroy j =>
    by_cases own : i = j
    · subst own
      exact ⟨.nowhere, stands_unwatch (tidy_cancel tidy i) (stands_cancel tidy stands) fun _ =>
        rfl, fun _ => rfl, nofun⟩
    · refine ⟨place, stands_unwatch (tidy_cancel tidy j) (stands_cancel_other tidy stands own)
        fun same => absurd same own, ?_, nofun⟩
      simp [withdraws, Ne.symm own]
  | submit j asked =>
    have own : i ≠ j := by
      rintro rfl
      exact other asked rfl
    exact ⟨place, stands_submit_other stands own asked, by simp [withdraws], nofun⟩
  | takeJob =>
    obtain ⟨place', moved, out⟩ := stands_takeJob tidy stands enabled
    exact ⟨place', moved, by simpa [withdraws] using out, nofun⟩
  | publish =>
    obtain ⟨place', moved, out⟩ := stands_publish stands
    exact ⟨place', moved, by simpa [withdraws] using out, nofun⟩
  | trigger k =>
    obtain ⟨place', moved, out⟩ := stands_trigger stands k
    exact ⟨place', moved, by simpa [withdraws] using out, nofun⟩
  | dispatch k =>
    obtain ⟨place', moved, out, passes⟩ := stands_dispatch tidy stands k
    exact ⟨place', moved, by simpa [withdraws] using out, passes⟩

end Places

section Runs

variable [DecidableEq ι] [DecidableEq κ] {place : Place} {request : DnsRequest}

private theorem answers_cons (s : DnsSystem ι κ α) (i : ι) (a : Act ι κ) (run : List (Act ι κ)) :
    answers owner syncResolve s i (a :: run) =
      (match s.invoked a with
        | some (j, names) => if j = i then [names] else []
        | none => []) ++ answers owner syncResolve (next owner syncResolve s a) i run := by
  simp only [answers, Run.seen_cons, List.filterMap_cons]
  cases s.invoked a with
  | none => rfl
  | some seen =>
    obtain ⟨j, names⟩ := seen
    by_cases own : j = i
    · simp [own]
    · simp [own]

/-- Up to its next `resolve` a resolver gets the addresses of its request at most once,
and none when it is out of the protocol, where it stays. -/
theorem answers_after (tidy : Tidy owner s) (stands : Stands owner syncResolve s i place request)
    {run : List (Act ι κ)} (real : s.Interleaving owner syncResolve run)
    (alone : ∀ asked, .submit i asked ∉ run) :
    (answers owner syncResolve s i run = [] ∨
      place ≠ .nowhere ∧ answers owner syncResolve s i run = [syncResolve request]) ∧
      (place = .nowhere → Stands owner syncResolve (s.after owner syncResolve run) i
        .nowhere request) := by
  induction run generalizing s place with
  | nil =>
    refine ⟨.inl rfl, ?_⟩
    rintro rfl
    exact stands
  | cons a run ih =>
    have other : ∀ asked, a ≠ .submit i asked := by
      rintro asked rfl
      exact alone asked List.mem_cons_self
    obtain ⟨place', moved, out, passes⟩ := stands_next tidy stands a real.1 other
    obtain ⟨later, stays⟩ :=
      ih (tidy_next tidy a) moved real.2 fun asked member => alone asked (List.mem_cons_of_mem a member)
    refine ⟨?_, fun nowhere => stays (out (.inl nowhere))⟩
    rw [answers_cons]
    have here : (s.invoked a = some (i, syncResolve request) ∧ place = .triggered ∧ place' = .nowhere) ∨
        ∀ names, s.invoked a ≠ some (i, names) := by
      by_cases invoked_ : ∃ names, s.invoked a = some (i, names)
      · obtain ⟨names, invoked_⟩ := invoked_
        obtain ⟨rfl, triggered, gone⟩ := passes names invoked_
        exact .inl ⟨invoked_, triggered, gone⟩
      · exact .inr (not_exists.mp invoked_)
    rcases here with ⟨invoked_, rfl, rfl⟩ | absent
    · right
      have none_ : answers owner syncResolve (next owner syncResolve s a) i run = [] := by
        rcases later with none_ | ⟨elsewhere, -⟩
        · exact none_
        · exact absurd rfl elsewhere
      simp [invoked_, none_]
    · have silent : (match s.invoked a with
          | some (j, names) => if j = i then [names] else []
          | none => ([] : List (List α))) = [] := by
        split
        · rename_i j names invoked_
          have other : j ≠ i := by
            rintro rfl
            exact absent names invoked_
          rw [if_neg other]
        · rfl
      rw [silent, List.nil_append]
      rcases later with none_ | ⟨elsewhere, one⟩
      · exact .inl none_
      · refine .inr ⟨fun nowhere => elsewhere (out (.inl nowhere)), one⟩

theorem tidy_after (tidy : Tidy owner s) (run : List (Act ι κ)) :
    Tidy owner (s.after owner syncResolve run) :=
  Run.invariant_of_keeps (P := Tidy owner) (fun _ a (kept : Tidy owner _) => tidy_next kept a) tidy run

/-- Every resolver is at one place in every state of every run. -/
theorem stands_after (tidy : Tidy owner s) (stands : Stands owner syncResolve s i place request)
    {run : List (Act ι κ)} (real : s.Interleaving owner syncResolve run) :
    ∃ place' request', Stands owner syncResolve (s.after owner syncResolve run) i place' request' := by
  induction run generalizing s place request with
  | nil => exact ⟨place, request, stands⟩
  | cons a run ih =>
    by_cases own : ∃ asked, a = .submit i asked
    · obtain ⟨asked, rfl⟩ := own
      exact ih (tidy_next tidy _) (stands_submit stands real.1 asked) real.2
    · obtain ⟨place', moved, -, -⟩ := stands_next tidy stands a real.1 (not_exists.mp own)
      exact ih (tidy_next tidy a) moved real.2

/-- The protocol of the resolvers, in any interleaving. After a `resolve`, and up to the
next one, the handler is invoked at most once and gets the addresses of that request.
After a `cancel` or the destructor it is not invoked and the worker does not refer to the
resolver, and what the worker refers to is resolving. -/
theorem dns_resolver_protocol (before later : List (Act ι κ)) (a : Act ι κ) (i : ι)
    (real : ({} : DnsSystem ι κ α).Interleaving owner syncResolve (before ++ a :: later)) :
    ((∀ asked, .submit i asked ∉ later) →
      (∀ request, a = .submit i request →
        answers owner syncResolve (after owner syncResolve {} (before ++ [a])) i later = [] ∨
          answers owner syncResolve (after owner syncResolve {} (before ++ [a])) i later =
            [syncResolve request]) ∧
      (withdraws i a →
        answers owner syncResolve (after owner syncResolve {} (before ++ [a])) i later = [] ∧
          (after owner syncResolve {} (before ++ a :: later)).executingRequest ≠ some i)) ∧
    ((after owner syncResolve {} before).executingRequest = some i →
      ((after owner syncResolve {} before).resolvers i).resolving = true) := by
  obtain ⟨realBefore, enabled, realLater⟩ := Run.meets_append.mp real
  have tidy : Tidy owner (after owner syncResolve {} before) := tidy_after start_tidy before
  obtain ⟨place, old, stands⟩ := stands_after start_tidy (start_stands i) realBefore
  have step :
      after owner syncResolve {} (before ++ [a]) =
      next owner syncResolve (after owner syncResolve {} before) a := by
    simp only [after, Run.after_append, Run.after_cons, Run.after_nil]
  have whole : after owner syncResolve {} (before ++ a :: later) =
      after owner syncResolve (next owner syncResolve (after owner syncResolve {} before) a) later := by
    simp only [after, Run.after_append, Run.after_cons]
  refine ⟨fun alone => ⟨?_, ?_⟩, ?_⟩
  · rintro request rfl
    rw [step]
    obtain ⟨once, -⟩ := answers_after (tidy_next tidy _)
      (stands_submit stands enabled request) realLater alone
    rcases once with none_ | ⟨-, one⟩
    · exact .inl none_
    · exact .inr one
  · intro withdrawn
    have other : ∀ asked, a ≠ .submit i asked := by
      rintro asked rfl
      rcases withdrawn with same | same <;> cases same
    obtain ⟨place', moved, out, -⟩ := stands_next tidy stands a enabled other
    have nowhere := out (.inr withdrawn)
    subst nowhere
    obtain ⟨once, stays⟩ := answers_after (tidy_next tidy a) moved realLater alone
    refine ⟨?_, ?_⟩
    · rw [step]
      rcases once with none_ | ⟨elsewhere, -⟩
      · exact none_
      · exact absurd rfl elsewhere
    · rw [whole]
      intro working
      cases (stays rfl).executing.mp working
  · intro working
    rw [stands.resolving, stands.executing.mp working]
    exact nofun

/-- A resolver is submitted again while the worker resolves its first request. -/
def resubmitted : List (Act Nat Nat) := [.submit 0 { port := 1 }, .takeJob, .cancel 0]

/-- The worker drops the first result and comes back with the second one. -/
def answered : List (Act Nat Nat) := [.publish, .takeJob, .publish, .trigger 0, .dispatch 0]

/-- The address of a name is its port. -/
def portOf (request : DnsRequest) : List UInt16 := [request.port]

theorem dns_resolver_protocol_resubmitted :
    answers (fun _ => 0) portOf
      (after (fun _ => 0) portOf {} (resubmitted ++ [.submit 0 { port := 2 }])) 0 answered = [] ∨
      answers (fun _ => 0) portOf
      (after (fun _ => 0) portOf {} (resubmitted ++ [.submit 0 { port := 2 }])) 0 answered = [[2]] := by
  have real : ({} : DnsSystem Nat Nat UInt16).Interleaving (fun _ => 0) portOf
      (resubmitted ++ .submit 0 { port := 2 } :: answered) :=
    ⟨rfl, rfl, trivial, rfl, nofun, rfl, nofun, trivial, trivial, trivial⟩
  exact ((dns_resolver_protocol resubmitted answered _ 0 real).1 (by simp [answered])).1 _ rfl

end Runs

end Crablib.DnsProofs
