import Crablib.Network.RunLoop

/-! When the loop starts the handler of a socket. To each socket the loop does what
the socket's own methods say, and its queue holds exactly the sockets that are marked
as pending. A closed socket is therefore either queued for one last invocation or for
none, and only `connect` and `accept` change that. -/
namespace Crablib.RunLoopProofs
open RunLoop

variable {ι : Type} {l : RunLoop ι} {i : ι}

/-- The queue holds every pending socket once. -/
structure Linked (l : RunLoop ι) : Prop where
  nodup : l.triggeredCallables.Nodup
  pending : ∀ i, (l.sockets i).pending = true ↔ i ∈ l.triggeredCallables

theorem linked_start : Linked (RunLoop.start : RunLoop ι) :=
  ⟨List.nodup_nil, fun i => by simp [RunLoop.start]⟩

section Sockets

/-- What a call leaves of the sockets: one is what the socket's own method makes of it,
the others are what they were. -/
def Changes (l next : RunLoop ι) (i : ι) (s : TcpSocket) : Prop :=
  next.sockets i = s ∧ ∀ j, j ≠ i → next.sockets j = l.sockets j

/-- Methods one after the other. -/
private theorem Changes.after {first second third : RunLoop ι} {s : TcpSocket}
    (one : Changes first second i s) (f : TcpSocket → TcpSocket)
    (two : Changes second third i (f (second.sockets i))) : Changes first third i (f s) :=
  ⟨two.1.trans (congrArg f one.1), fun j other => (two.2 j other).trans (one.2 j other)⟩

variable [DecidableEq ι]

@[simp] private theorem setSocket_same (l : RunLoop ι) (i : ι) (s : TcpSocket) :
    (l.setSocket i s).sockets i = s := by
  simp [setSocket]

private theorem setSocket_other (l : RunLoop ι) (s : TcpSocket) {i j : ι} (other : j ≠ i) :
    (l.setSocket i s).sockets j = l.sockets j := by
  simp [setSocket, other]

@[simp] private theorem setSocket_triggered (l : RunLoop ι) (i : ι) (s : TcpSocket) :
    (l.setSocket i s).triggeredCallables = l.triggeredCallables := rfl

private theorem changes_setSocket (l : RunLoop ι) (i : ι) (s : TcpSocket) :
    Changes l (l.setSocket i s) i s :=
  ⟨setSocket_same l i s, fun _ other => setSocket_other l s other⟩

private theorem changes_addPendingCallable (l : RunLoop ι) (i : ι) (canRead canWrite : Bool) :
    Changes l (l.addPendingCallable i canRead canWrite) i
      ((l.sockets i).addPendingCallable canRead canWrite) :=
  changes_setSocket l i _

/-- What `close` makes of an open socket. -/
private def shut (s : TcpSocket) : TcpSocket := { s with fdValid := false }

/-- A socket with a new descriptor. -/
private def fresh (s : TcpSocket) : TcpSocket := { s with fdValid := true, descriptor := {} }

theorem changes_close (l : RunLoop ι) (i : ι) (withEvent : Bool) :
    Changes l (l.close i withEvent) i ((l.sockets i).close withEvent) := by
  simp only [RunLoop.close, TcpSocket.close]
  split
  · exact ⟨rfl, fun _ _ => rfl⟩
  · have cancelled : Changes l (l.cancelCallable i) i (l.sockets i).cancelCallable :=
      changes_setSocket l i _
    have closed := cancelled.after shut (changes_setSocket _ i _)
    cases withEvent with
    | false => exact closed
    | true =>
      exact closed.after (·.addPendingCallable true false) (changes_addPendingCallable _ i true false)

theorem changes_afterMethod (l : RunLoop ι) (i : ι) (s : TcpSocket) :
    Changes l (l.afterMethod i s) i s := by
  unfold afterMethod
  split
  · exact (changes_close l i true).after (fun _ => s) (changes_setSocket _ i s)
  · exact changes_setSocket l i s

theorem changes_connect (l : RunLoop ι) (i : ι) (result : ConnectResult) :
    Changes l (l.connect i result).2 i ((l.sockets i).connect result).2 := by
  have closed := changes_close l i false
  have opened := closed.after fresh (changes_setSocket _ i _)
  cases result with
  | failed => exact closed
  | inProgress => exact opened
  | immediate =>
    exact opened.after (·.addPendingCallable true true) (changes_addPendingCallable _ i true true)

theorem changes_accept {next : RunLoop ι} {accepted : Accepted}
    (taken : l.accept i accepted = .ok next) :
    ∃ s, (l.sockets i).accept accepted = .ok s ∧ Changes l next i s := by
  have closed := changes_close l i false
  have opened := closed.after fresh (changes_setSocket _ i _)
  cases accepted with
  | missing => cases taken
  | ready =>
    cases taken
    exact ⟨_, rfl, opened⟩
  | refused =>
    cases taken
    exact ⟨_, rfl, opened.after (·.close true) (changes_close _ i true)⟩

end Sockets

section Queue

variable [DecidableEq ι]

private theorem linked_setSocket (linked : Linked l) {s : TcpSocket}
    (same : s.pending = (l.sockets i).pending) :
    Linked (l.setSocket i s) where
  nodup := linked.nodup
  pending j := by
    by_cases own : j = i
    · subst own
      rw [setSocket_same, same]
      exact linked.pending j
    · rw [setSocket_other l s own]
      exact linked.pending j

private theorem linked_addPendingCallable (linked : Linked l) (i : ι) (canRead canWrite : Bool) :
    Linked (l.addPendingCallable i canRead canWrite) where
  nodup := IntrusiveList.nodup_pushBack linked.nodup i
  pending j := by
    obtain ⟨own, others⟩ := changes_addPendingCallable l i canRead canWrite
    simp only [RunLoop.addPendingCallable, IntrusiveList.mem_pushBack] at own others ⊢
    by_cases same : j = i
    · subst same
      simp [TcpSocket.addPendingCallable]
    · rw [others j same, linked.pending j]
      simp [same]

private theorem linked_cancelCallable (linked : Linked l) (i : ι) : Linked (l.cancelCallable i) where
  nodup := IntrusiveList.nodup_unlink linked.nodup i
  pending j := by
    simp only [RunLoop.cancelCallable, IntrusiveList.mem_unlink linked.nodup, setSocket]
    by_cases same : j = i
    · simp [same, TcpSocket.cancelCallable]
    · simp [same, linked.pending j]

theorem linked_close (linked : Linked l) (i : ι) (withEvent : Bool) : Linked (l.close i withEvent) := by
  unfold RunLoop.close
  split
  · exact linked
  · have closed :
        Linked ((l.cancelCallable i).setSocket i
          { (l.cancelCallable i).sockets i with fdValid := false }) :=
      linked_setSocket (linked_cancelCallable linked i) rfl
    cases withEvent with
    | false => exact closed
    | true => exact linked_addPendingCallable closed i true false

theorem linked_unlinkFront (linked : Linked l) : Linked l.unlinkFront := by
  unfold unlinkFront
  split
  · exact linked
  · rename_i front rest queue
    have nodup := linked.nodup
    rw [queue] at nodup
    obtain ⟨absent, nodup'⟩ := List.nodup_cons.mp nodup
    refine ⟨nodup', fun j => ?_⟩
    have before := linked.pending j
    rw [queue] at before
    by_cases same : j = front
    · subst same
      simp [setSocket, absent]
    · simpa [setSocket, same] using before

end Queue

section Methods

variable [DecidableEq ι]

/-- What a read or a write does to the two flags: nothing, or it has found the stream
broken or at its end and closed the socket with an event. -/
def ReadsOrEnds (s next : TcpSocket) : Prop :=
  (next.fdValid = s.fdValid ∧ next.pending = s.pending) ∨
    (s.fdValid = true ∧ next.fdValid = false ∧ next.pending = true)

private theorem close_ends {s : TcpSocket} (valid : s.fdValid = true) :
    ReadsOrEnds s (s.close true) := by
  right
  simp [TcpSocket.close, TcpSocket.isOpen, valid, TcpSocket.addPendingCallable]

theorem readSome_ends (s : TcpSocket) (count : Nat) : ReadsOrEnds s (s.readSome count).2 := by
  unfold TcpSocket.readSome
  split
  · exact .inl ⟨rfl, rfl⟩
  · rename_i ready
    have valid : s.fdValid = true := by
      simp only [Bool.or_eq_true, Bool.not_eq_eq_eq_not, Bool.not_true, not_or,
        Bool.not_eq_false] at ready
      exact ready.1
    split
    · exact close_ends valid
    · split
      · exact .inl ⟨rfl, rfl⟩
      · exact close_ends valid
      · exact close_ends valid
      · exact .inl ⟨rfl, rfl⟩

theorem writeSome_ends (s : TcpSocket) (val : Bytes) : ReadsOrEnds s (s.writeSome val).2 := by
  unfold TcpSocket.writeSome
  split
  · exact .inl ⟨rfl, rfl⟩
  · rename_i ready
    have valid : s.fdValid = true := by
      simp only [Bool.or_eq_true, Bool.not_eq_eq_eq_not, Bool.not_true, not_or,
        Bool.not_eq_false] at ready
      exact ready.1
    split
    · exact .inl ⟨rfl, rfl⟩
    · exact .inl ⟨rfl, rfl⟩
    · exact .inl ⟨rfl, rfl⟩
    · rename_i later _
      exact close_ends (s := { s with descriptor.sends := later }) valid

private theorem linked_afterMethod (linked : Linked l) {s : TcpSocket}
    (ends : ReadsOrEnds (l.sockets i) s) :
    Linked (l.afterMethod i s) := by
  unfold afterMethod
  rcases ends with ⟨sameFd, samePending⟩ | ⟨valid, closed, queued⟩
  · rw [sameFd]
    simp only [Bool.and_not_self, Bool.false_eq_true, ↓reduceIte]
    exact linked_setSocket linked samePending
  · simp only [valid, closed, Bool.not_false, Bool.and_self, ↓reduceIte]
    apply linked_setSocket (linked_close linked i true)
    rw [queued, (changes_close l i true).1]
    simp [TcpSocket.close, TcpSocket.isOpen, valid, TcpSocket.addPendingCallable]

private theorem writeShutdown_flags (s : TcpSocket) :
    s.writeShutdown.fdValid = s.fdValid ∧ s.writeShutdown.pending = s.pending := by
  unfold TcpSocket.writeShutdown
  split <;> exact ⟨rfl, rfl⟩

theorem linked_perform (linked : Linked l) (call : Call ι) : Linked (l.perform call) := by
  have closed := fun i => linked_close linked i false
  have opened := fun i : ι =>
    linked_setSocket (closed i)
      (s := { (l.close i false).sockets i with fdValid := true, descriptor := {} }) rfl
  cases call with
  | close i withEvent => exact linked_close linked i withEvent
  | destroy i => exact closed i
  | connect i result =>
    cases result with
    | failed => exact closed i
    | inProgress => exact opened i
    | immediate => exact linked_addPendingCallable (opened i) i true true
  | accept i accepted =>
    cases accepted with
    | missing => exact linked
    | ready => exact opened i
    | refused => exact linked_close (opened i) i true
  | readSome i count => exact linked_afterMethod linked (readSome_ends _ count)
  | writeSome i val => exact linked_afterMethod linked (writeSome_ends _ val)
  | writeShutdown i => exact linked_setSocket linked (writeShutdown_flags _).2

private theorem linked_step (linked : Linked l) (events : List (Event ι)) : Linked (l.step events) := by
  unfold RunLoop.step
  generalize events.take maxEvents = batch
  induction batch generalizing l with
  | nil => exact linked
  | cons e batch ih =>
    rw [List.foldl_cons]
    apply ih
    split
    · exact linked_addPendingCallable linked e.socket e.canRead e.canWrite
    · exact linked

theorem linked_next (linked : Linked l) (h : Happening ι) : Linked (l.next h) := by
  cases h with
  | step events => exact linked_step linked events
  | invoke => exact linked_unlinkFront linked
  | call call => exact linked_perform linked call

theorem linked_after (linked : Linked l) (run : List (Happening ι)) : Linked (l.after run) :=
  Run.invariant_of_keeps (P := Linked) (fun _ h (kept : Linked _) => linked_next kept h) linked run

end Methods

section Closed

/-- What a step that does not open a closed socket can do to it: it stays closed, it is
not queued again, and only its own start or another close takes it from the queue. -/
structure StaysClosed (l next : RunLoop ι) (i : ι) (isStarted isClosed : Prop) : Prop where
  invalid : (next.sockets i).fdValid = false
  notQueued : (next.sockets i).pending = true → (l.sockets i).pending = true
  started : isStarted → (l.sockets i).pending = true ∧ (next.sockets i).pending = false
  kept : ¬isStarted → ¬isClosed → (next.sockets i).pending = (l.sockets i).pending

private theorem staysClosed_of_same {next : RunLoop ι} {P : Prop} (down : (l.sockets i).fdValid = false)
    (same : next.sockets i = l.sockets i) : StaysClosed l next i False P where
  invalid := same ▸ down
  notQueued := by
    rw [same]
    exact id
  started := False.elim
  kept _ _ := by rw [same]

private theorem staysClosed_of_flags {next : RunLoop ι} {s : TcpSocket}
    (down : (l.sockets i).fdValid = false) (changes : Changes l next i s)
    (flags : s.fdValid = (l.sockets i).fdValid ∧ s.pending = (l.sockets i).pending) :
    StaysClosed l next i False False where
  invalid := by rw [changes.1, flags.1, down]
  notQueued := by
    rw [changes.1, flags.2]
    exact id
  started := False.elim
  kept _ _ := by rw [changes.1, flags.2]

variable [DecidableEq ι]

/-- `connect` and `accept`. -/
def opens (i : ι) : Happening ι → Bool
  | .call (.connect j _) => j = i
  | .call (.accept j _) => j = i
  | _ => false

/-- `close`, with an event or without, and the destructor. -/
def closes (i : ι) : Happening ι → Bool
  | .call (.close j _) => j = i
  | .call (.destroy j) => j = i
  | _ => false

/-- Nothing more will be said about the socket: `close(false)` and the destructor. -/
def silences (i : ι) : Call ι → Bool
  | .close j false => j = i
  | .destroy j => j = i
  | _ => false

/-- The socket is open and the call ends in `close(true)`: the method itself, a read or
a write that finds the stream broken or at its end, or an `accept` that epoll refuses. -/
def closesWithEvent (l : RunLoop ι) (i : ι) : Call ι → Bool
  | .close j true => j = i && (l.sockets i).isOpen
  | .accept j .refused => j = i
  | .readSome j count => j = i && (l.sockets i).fdValid && !((l.sockets i).readSome count).2.fdValid
  | .writeSome j val => j = i && (l.sockets i).fdValid && !((l.sockets i).writeSome val).2.fdValid
  | _ => false

private theorem step_down (down : (l.sockets i).fdValid = false) (events : List (Event ι)) :
    (l.step events).sockets i = l.sockets i := by
  unfold RunLoop.step
  generalize events.take maxEvents = batch
  induction batch generalizing l with
  | nil => rfl
  | cons e batch ih =>
    rw [List.foldl_cons]
    by_cases open_ : (l.sockets e.socket).fdValid = true
    · have other : i ≠ e.socket := by
        rintro rfl
        rw [down] at open_
        cases open_
      have same := (changes_addPendingCallable l e.socket e.canRead e.canWrite).2 i other
      rw [if_pos open_, ih (by rw [same, down]), same]
    · rw [if_neg open_, ih down]

private theorem close_flags (s : TcpSocket) (withEvent : Bool) :
    (s.close withEvent).fdValid = false ∧ ((s.close withEvent).pending = true → withEvent = true ∧
      s.isOpen = true) := by
  unfold TcpSocket.close
  split
  · rename_i shut
    simp only [Bool.not_eq_eq_eq_not, Bool.not_true, TcpSocket.isOpen, Bool.or_eq_false_iff] at shut
    exact ⟨shut.1, fun queued => by rw [shut.2] at queued; cases queued⟩
  · rename_i opened
    simp only [Bool.not_eq_eq_eq_not, Bool.not_true, Bool.not_eq_false] at opened
    cases withEvent with
    | false => exact ⟨rfl, fun queued => by cases queued⟩
    | true => exact ⟨rfl, fun _ => ⟨rfl, opened⟩⟩

private theorem staysClosed_close (down : (l.sockets i).fdValid = false) (withEvent : Bool) :
    StaysClosed l (l.close i withEvent) i False True where
  invalid := by rw [(changes_close l i withEvent).1, (close_flags _ withEvent).1]
  notQueued queued := by
    rw [(changes_close l i withEvent).1] at queued
    have opened := ((close_flags _ withEvent).2 queued).2
    simpa [TcpSocket.isOpen, down] using opened
  started := False.elim
  kept _ open_ := absurd trivial open_

private theorem readsOrEnds_down {s next : TcpSocket} (down : s.fdValid = false)
    (ends : ReadsOrEnds s next) :
    next.fdValid = s.fdValid ∧ next.pending = s.pending := by
  rcases ends with same | ⟨valid, -⟩
  · exact same
  · rw [down] at valid
    cases valid

private theorem perform_down (down : (l.sockets i).fdValid = false) (call : Call ι)
    (quiet : opens i (.call call) = false) :
    StaysClosed l (l.perform call) i False (closes i (.call call) = true) := by
  -- a call on another socket leaves this one as it is
  have elsewhere {j : ι} {s : TcpSocket} {next : RunLoop ι} {closed : Prop}
    (changes : Changes l next j s) (other : j ≠ i) :
      StaysClosed l next i False closed := staysClosed_of_same down (changes.2 i other.symm)
  cases call with
  | close j withEvent =>
    by_cases own : j = i
    · subst own
      simpa [closes, perform] using staysClosed_close down withEvent
    · exact elsewhere (changes_close l j withEvent) own
  | destroy j =>
    by_cases own : j = i
    · subst own
      simpa [closes, perform] using staysClosed_close down false
    · exact elsewhere (changes_close l j false) own
  | connect j result =>
    have own : j ≠ i := by simpa [opens] using quiet
    exact elsewhere (changes_connect l j result) own
  | accept j accepted =>
    have own : j ≠ i := by simpa [opens] using quiet
    simp only [perform]
    split
    · rename_i taken
      obtain ⟨s, -, changes⟩ := changes_accept taken
      exact elsewhere changes own
    · exact staysClosed_of_same down rfl
  | readSome j count =>
    by_cases own : j = i
    · subst own
      simpa [closes, perform] using
        staysClosed_of_flags down (changes_afterMethod l j _)
        (readsOrEnds_down down (readSome_ends _ count))
    · exact elsewhere (changes_afterMethod l j _) own
  | writeSome j val =>
    by_cases own : j = i
    · subst own
      simpa [closes, perform] using
        staysClosed_of_flags down (changes_afterMethod l j _)
        (readsOrEnds_down down (writeSome_ends _ val))
    · exact elsewhere (changes_afterMethod l j _) own
  | writeShutdown j =>
    by_cases own : j = i
    · subst own
      simpa [closes, perform] using
        staysClosed_of_flags down (changes_setSocket l j _) (writeShutdown_flags _)
    · exact elsewhere (changes_setSocket l j _) own

private theorem unlinkFront_down (linked : Linked l) (down : (l.sockets i).fdValid = false) :
    StaysClosed l l.unlinkFront i (l.triggeredCallables.head? = some i) False := by
  unfold unlinkFront
  split
  · rename_i queue
    simpa [queue] using staysClosed_of_same (P := False) down (rfl : l.sockets i = l.sockets i)
  · rename_i front rest queue
    by_cases own : front = i
    · subst own
      refine ⟨by simpa using down, fun queued => by simp at queued, fun _ => ⟨?_, by simp⟩,
        fun other => absurd (by rw [queue]; rfl) other⟩
      rw [linked.pending, queue]
      exact List.mem_cons_self
    · have absent : ¬l.triggeredCallables.head? = some i := by simpa [queue] using own
      have same := staysClosed_of_same (P := False) down
        (setSocket_other l { l.sockets front with pending := false } (Ne.symm own))
      exact ⟨same.invalid, same.notQueued, fun started => absurd started absent, fun _ => same.kept id⟩

/-- A step that does not open a closed socket keeps it closed. -/
theorem next_down (linked : Linked l) (down : (l.sockets i).fdValid = false) (h : Happening ι)
    (quiet : opens i h = false) :
    StaysClosed l (l.next h) i (l.invoked h = some i) (closes i h = true) := by
  cases h with
  | step events => simpa [invoked, RunLoop.next] using staysClosed_of_same down (step_down down events)
  | invoke => simpa [invoked, closes, RunLoop.next] using unlinkFront_down linked down
  | call call => simpa [invoked, RunLoop.next] using perform_down down call quiet

end Closed

section Invocations

variable [DecidableEq ι]

private theorem invocations_cons (l : RunLoop ι) (i : ι) (h : Happening ι) (run : List (Happening ι)) :
    l.invocations i (h :: run) = (l.next h).invocations i run + if l.invoked h = some i then 1
      else 0 := by
  simp only [invocations, Run.seen_cons, List.count_cons, beq_iff_eq]

/-- A closed socket is started at most once, and not at all when it is not queued. -/
theorem invocations_down (linked : Linked l) (down : (l.sockets i).fdValid = false)
    (run : List (Happening ι)) (quiet : ∀ h ∈ run, opens i h = false) :
    l.invocations i run ≤ (l.sockets i).pending.toNat := by
  induction run generalizing l with
  | nil => exact Nat.zero_le _
  | cons h run ih =>
    have stays := next_down linked down h (quiet h List.mem_cons_self)
    have rest := ih (linked_next linked h) stays.invalid fun later member =>
      quiet later (List.mem_cons_of_mem h member)
    rw [invocations_cons]
    by_cases started : l.invoked h = some i
    · obtain ⟨queued, gone⟩ := stays.started started
      rw [gone] at rest
      simp only [started, ↓reduceIte, queued, Bool.toNat_true]
      simpa using rest
    · simp only [started, ↓reduceIte, Nat.add_zero]
      refine Nat.le_trans rest ?_
      cases queued : ((l.next h).sockets i).pending with
      | false => exact Nat.zero_le _
      | true => exact Nat.le_of_eq (congrArg Bool.toNat (stays.notQueued queued).symm)

/-- A queued socket that is neither started nor closed again stays queued. -/
theorem queued_until_started (linked : Linked l) (down : (l.sockets i).fdValid = false)
    (queued : (l.sockets i).pending = true) (run : List (Happening ι))
    (quiet : ∀ h ∈ run, opens i h = false) (left : ∀ h ∈ run, closes i h = false)
    (unstarted : l.invocations i run = 0) :
    ((l.after run).sockets i).pending = true := by
  induction run generalizing l with
  | nil => exact queued
  | cons h run ih =>
    have stays := next_down linked down h (quiet h List.mem_cons_self)
    rw [invocations_cons] at unstarted
    have later : ¬l.invoked h = some i := by
      intro started
      simp [started] at unstarted
    have unclosed : ¬closes i h = true := by simp [left h List.mem_cons_self]
    apply ih (linked_next linked h) stays.invalid
    · rw [stays.kept later unclosed, queued]
    · exact fun later member => quiet later (List.mem_cons_of_mem h member)
    · exact fun later member => left later (List.mem_cons_of_mem h member)
    · omega

private theorem down_after (linked : Linked l) (down : (l.sockets i).fdValid = false)
    (run : List (Happening ι)) (quiet : ∀ h ∈ run, opens i h = false) :
    ((l.after run).sockets i).fdValid = false := by
  induction run generalizing l with
  | nil => exact down
  | cons h run ih =>
    exact ih (linked_next linked h) (next_down linked down h (quiet h List.mem_cons_self)).invalid
      fun later member => quiet later (List.mem_cons_of_mem h member)

/-- The loop after a run from its start and one more call. -/
def afterCall (before : List (Happening ι)) (call : Call ι) : RunLoop ι :=
  (RunLoop.start.after before).next (.call call)

private theorem linked_afterCall (before : List (Happening ι)) (call : Call ι) :
    Linked (afterCall before call) :=
  linked_next (linked_after linked_start before) _

private theorem silences_shut {call : Call ι} (silent : silences i call = true) :
    ((l.perform call).sockets i).fdValid = false ∧ ((l.perform call).sockets i).pending = false := by
  have shut : ((l.close i false).sockets i).fdValid = false ∧
      ((l.close i false).sockets i).pending = false := by
    rw [(changes_close l i false).1]
    have flags := close_flags (l.sockets i) false
    refine ⟨flags.1, Bool.eq_false_iff.mpr fun queued => ?_⟩
    cases (flags.2 queued).1
  unfold silences at silent
  split at silent
  · cases of_decide_eq_true silent
    exact shut
  · cases of_decide_eq_true silent
    exact shut
  · cases silent

private theorem close_event {s : TcpSocket} (opened : s.isOpen = true) :
    (s.close true).fdValid = false ∧ (s.close true).pending = true := by
  simp [TcpSocket.close, opened, TcpSocket.addPendingCallable]

private theorem ends_queued {s next : TcpSocket} (ends : ReadsOrEnds s next) (valid : s.fdValid = true)
    (closed : next.fdValid = false) : next.pending = true := by
  rcases ends with ⟨same, -⟩ | ⟨-, -, queued⟩
  · rw [closed, valid] at same
    cases same
  · exact queued

private theorem closesWithEvent_queued {call : Call ι} (closed : closesWithEvent l i call = true) :
    ((l.perform call).sockets i).fdValid = false ∧ ((l.perform call).sockets i).pending = true := by
  unfold closesWithEvent at closed
  split at closed
  · simp only [Bool.and_eq_true, decide_eq_true_eq] at closed
    obtain ⟨rfl, opened⟩ := closed
    rw [perform, (changes_close l _ true).1]
    exact close_event opened
  · cases of_decide_eq_true closed
    simp only [perform]
    split
    · rename_i taken
      obtain ⟨s, made, changes⟩ := changes_accept taken
      rw [changes.1]
      cases made
      exact close_event rfl
    · rename_i thrown
      cases thrown
  · simp only [Bool.and_eq_true, decide_eq_true_eq, Bool.not_eq_eq_eq_not, Bool.not_true] at closed
    obtain ⟨⟨rfl, valid⟩, gone⟩ := closed
    rw [perform, (changes_afterMethod l _ _).1]
    exact ⟨gone, ends_queued (readSome_ends _ _) valid gone⟩
  · simp only [Bool.and_eq_true, decide_eq_true_eq, Bool.not_eq_eq_eq_not, Bool.not_true] at closed
    obtain ⟨⟨rfl, valid⟩, gone⟩ := closed
    rw [perform, (changes_afterMethod l _ _).1]
    exact ⟨gone, ends_queued (writeSome_ends _ _) valid gone⟩
  · cases closed

/-- No handler is started for a socket between `close(false)` or its destruction and the
next `connect` or `accept`. After `close(true)` it is started at most once; until then it
stays queued and open, unless it is closed again, and it finds itself closed. -/
theorem no_callback_after_close (before between : List (Happening ι)) (call : Call ι) (i : ι)
    (quiet : ∀ h ∈ between, opens i h = false) :
    (silences i call = true → (afterCall before call).invocations i between = 0) ∧
    (closesWithEvent (RunLoop.start.after before) i call = true →
      (afterCall before call).invocations i between ≤ 1 ∧
      ((afterCall before call).invocations i between = 0 → (∀ h ∈ between, closes i h = false) →
        i ∈ ((afterCall before call).after between).triggeredCallables ∧
          (((afterCall before call).after between).sockets i).isOpen = true) ∧
      ∀ first later, between = first ++ .invoke :: later →
        ((afterCall before call).after first).invoked .invoke = some i →
        ((((afterCall before call).after first).next .invoke).sockets i).isOpen = false) := by
  have linked := linked_afterCall before call
  constructor
  · intro silent
    obtain ⟨down, unqueued⟩ := silences_shut (l := RunLoop.start.after before) silent
    have most := invocations_down linked down between quiet
    rw [show ((afterCall before call).sockets i).pending = false from unqueued] at most
    exact Nat.le_zero.mp most
  · intro closed
    obtain ⟨down, queued⟩ := closesWithEvent_queued closed
    refine ⟨?_, ?_, ?_⟩
    · have most := invocations_down linked down between quiet
      rwa [show ((afterCall before call).sockets i).pending = true from queued] at most
    · intro unstarted left
      have still := queued_until_started linked down queued between quiet left unstarted
      refine ⟨((linked_after linked between).pending i).mp still, ?_⟩
      simp [TcpSocket.isOpen, still]
    · intro first later split started
      have quietFirst : ∀ h ∈ first, opens i h = false :=
        fun h member => quiet h (by simp [split, member])
      have stays := next_down (linked_after linked first)
        (down_after linked down first quietFirst) .invoke rfl
      simp [TcpSocket.isOpen, stays.invalid, (stays.started started).2]

/-- Two sockets of one batch: the handler of the first closes the second, with an
event, and `epoll_wait` returns once more before the second is started. -/
theorem no_callback_after_close_batch :
    (afterCall
      ([.call (.connect 0 .inProgress), .call (.connect 1 .inProgress),
        .step [⟨0, true, true⟩, ⟨1, true, true⟩], .invoke] : List (Happening Nat))
      (.close 1 true)).invocations 1 [.step [⟨0, true, false⟩, ⟨1, true, false⟩],
      .invoke, .invoke] ≤ 1 :=
  ((no_callback_after_close _ _ _ _ (by decide)).2 (by decide)).1

end Invocations

end Crablib.RunLoopProofs
