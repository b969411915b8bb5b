import Crablib.Http.WebReader
import Crablib.SocketProofs

/-! When two connections cannot be told apart, from the streams up. Buffers are
alike if they hold the same bytes at the same positions, whatever lies in the
rest of their storage; sockets are alike if they differ only in what a closed
descriptor left behind. Every operation takes alike to alike and returns the
same. -/
namespace Crablib.AlikeProofs
open StreamsProofs SocketProofs

section Streams

/-- Buffers with the same queue at the same place, of the size every connection
reads with. -/
structure SameBuffer (b d : Buffer) : Prop where
  room : b.capacity = 8192
  capacity : d.capacity = b.capacity
  readPos : d.readPos = b.readPos
  writePos : d.writePos = b.writePos
  contents : contents d = contents b

variable {b d : Buffer}

theorem make_same : SameBuffer (.make 8192) (.make 8192) := ⟨rfl, rfl, rfl, rfl, rfl⟩

theorem SameBuffer.size (same : SameBuffer b d) : d.size = b.size := by
  simp [Buffer.size, same.readPos, same.writePos]

theorem SameBuffer.empty (same : SameBuffer b d) : d.empty = b.empty := by
  simp [Buffer.empty, same.size]

theorem SameBuffer.readable (same : SameBuffer b d) : d.readable = b.readable := by
  simp [readable_eq, same.contents, Buffer.readCount, same.readPos, same.writePos, same.capacity]

theorem SameBuffer.writeCount (same : SameBuffer b d) : d.writeCount = b.writeCount := by
  simp [Buffer.writeCount, same.readPos, same.writePos, same.capacity]

theorem clear_make (same : SameBuffer b b) : SameBuffer b.clear (.make 8192) :=
  ⟨same.room, same.room.symm, rfl,
    rfl, by simp [StreamsProofs.contents, Buffer.clear, Buffer.make, Buffer.size]⟩

theorem SameBuffer.clear (same : SameBuffer b d) : SameBuffer b.clear d.clear :=
  ⟨same.room, same.capacity, rfl, rfl, by simp⟩

private theorem didRead_same (same : SameBuffer b d) (count : Nat)
    (available : b.readPos + count ≤ b.writePos) (available' : d.readPos + count ≤ d.writePos) :
    SameBuffer (b.didRead count available) (d.didRead count available') := by
  have back : d.wrapped count = b.wrapped count := by simp [Buffer.wrapped, same.readPos, same.capacity]
  have queue : contents (d.didRead count available') = contents (b.didRead count available) := by
    rw [contents_didRead, contents_didRead, same.contents]
  refine ⟨by simp [same.room], by simp [same.capacity], ?_, ?_, queue⟩
  · unfold Buffer.didRead
    simp only [same.readPos, same.writePos, back]
    split <;> rfl
  · unfold Buffer.didRead
    simp only [same.readPos, same.writePos, back]
    split <;> rfl

private theorem didWrite_same (same : SameBuffer b d) (val : Bytes) (room : val.length ≤ b.writeCount)
    (fits : b.writePos + val.length ≤ b.readPos + b.capacity)
    (fits' : d.writePos + val.length ≤ d.readPos + d.capacity) :
    SameBuffer ((b.store val).didWrite val.length fits) ((d.store val).didWrite val.length fits') := by
  refine ⟨same.room, same.capacity, same.readPos, ?_, ?_⟩
  · simp [Buffer.didWrite, Buffer.store, same.writePos]
  · rw [contents_didWrite b val room, contents_didWrite d val (same.writeCount ▸ room), same.contents]

/-- Reading alike sources into alike buffers. -/
theorem readLoop_same {σ : Type} {input : IStream σ} {R : σ → σ → Prop}
    (respects : ∀ s t count, 0 < count → R s t →
      (input.readSome t count).1 = (input.readSome s count).1 ∧
        R (input.readSome s count).2 (input.readSome t count).2)
    (passes : Nat) {s t : σ} (same : SameBuffer b d) (start : R s t) :
    (Buffer.readLoop input passes d t).1 = (Buffer.readLoop input passes b s).1 ∧
      SameBuffer (Buffer.readLoop input passes b s).2.1 (Buffer.readLoop input passes d t).2.1 ∧
      R (Buffer.readLoop input passes b s).2.2 (Buffer.readLoop input passes d t).2.2 := by
  induction passes generalizing b d s t with
  | zero => exact ⟨rfl, same, start⟩
  | succ passes ih =>
    simp only [Buffer.readLoop, same.writeCount]
    split
    · exact ⟨rfl, same, start⟩
    · rename_i room
      obtain ⟨bytes, after⟩ := respects s t b.writeCount (Nat.pos_of_ne_zero room) start
      have filled := didWrite_same same (input.readSome s b.writeCount).1 (input.bounded s b.writeCount)
        (Nat.le_trans (Nat.add_le_add_left (input.bounded s b.writeCount) _) b.writeCount_bound)
        (by
          have := same.readPos
          have := same.writePos
          have := same.capacity
          have := b.writeCount_bound
          have := input.bounded s b.writeCount
          omega)
      simp only [bytes]
      split
      · exact ⟨rfl, filled, after⟩
      · obtain ⟨count, buffers, sources⟩ := ih filled after
        exact ⟨by rw [count], buffers, sources⟩

theorem parseWith_same {ε σ : Type} {p : Bytes → Except ε (σ × Bytes)} (same : SameBuffer b d) :
    match b.parseWith p with
    | .error e => d.parseWith p = .error e
    | .ok (s, rest) => ∃ rest', d.parseWith p = .ok (s, rest') ∧ SameBuffer rest rest' := by
  simp only [Buffer.parseWith, same.readable]
  cases parsed : p b.readable with
  | error e => rfl
  | ok result => exact ⟨_, rfl, didRead_same same _ _ _⟩

/-- Writing a stream to alike sinks. -/
theorem writeLoop_same {σ : Type} (out : OStream σ) {R : σ → σ → Prop}
    (respects : ∀ s t val, R s t →
      (out.writeSome t val).1 = (out.writeSome s val).1 ∧ R (out.writeSome s val).2
      (out.writeSome t val).2)
    (passes : Nat) (front : StringStream) (maxCount : Nat) {s t : σ} (start : R s t) :
    (StringStream.writeLoop out passes front maxCount t).1 =
      (StringStream.writeLoop out passes front maxCount s).1 ∧
      (StringStream.writeLoop out passes front maxCount t).2.1 =
        (StringStream.writeLoop out passes front maxCount s).2.1 ∧
      R (StringStream.writeLoop out passes front maxCount s).2.2
        (StringStream.writeLoop out passes front maxCount t).2.2 := by
  induction passes generalizing front maxCount s t with
  | zero => exact ⟨rfl, rfl, start⟩
  | succ passes ih =>
    simp only [StringStream.writeLoop]
    split
    · exact ⟨rfl, rfl, start⟩
    · obtain ⟨count, after⟩ := respects s t (front.unread.take (min front.size maxCount)) start
      simp only [count]
      split
      · exact ⟨rfl, rfl, after⟩
      · obtain ⟨total, rest, sinks⟩ := ih (front.skip _ (StringStream.skip_available out front _ s))
          (maxCount - (out.writeSome s (front.unread.take (min front.size maxCount))).1) after
        exact ⟨by rw [total], rest, sinks⟩

/-- Reading a chunk does not look beyond the buffered bytes. -/
theorem read_same (same : SameBuffer b d) (state : Http.WebState) (w : Http.WebReader) :
    (w.read state d).1 = (w.read state b).1 ∧ (w.read state d).2.1 = (w.read state b).2.1 ∧
      (w.read state d).2.2.1 = (w.read state b).2.2.1 ∧
      SameBuffer (w.read state b).2.2.2 (w.read state d).2.2.2 := by
  have body : ∀ (w : Http.WebReader) {b d : Buffer}, SameBuffer b d →
      (w.readBody d).1 = (w.readBody b).1 ∧ (w.readBody d).2.1 = (w.readBody b).2.1 ∧
        (w.readBody d).2.2.1 = (w.readBody b).2.2.1 ∧
        SameBuffer (w.readBody b).2.2.2 (w.readBody d).2.2.2 := by
    intro w b d same
    have parsed := parseWith_same (p := w.wmBodyParser.parse) same
    unfold Http.WebReader.readBody
    cases done : b.parseWith w.wmBodyParser.parse with
    | error e =>
      simp only [done] at parsed
      simp only [parsed]
      exact ⟨trivial, trivial, trivial, same⟩
    | ok result =>
      simp only [done] at parsed
      obtain ⟨rest', done', same'⟩ := parsed
      simp only [done']
      split
      · exact ⟨rfl, rfl, rfl, same'⟩
      · exact ⟨rfl, rfl, rfl, same'⟩
  cases state with
  | header =>
    have parsed := parseWith_same (p := w.wmHeaderParser.parse) same
    simp only [Http.WebReader.read, Http.WebReader.readHeader]
    cases done : b.parseWith w.wmHeaderParser.parse with
    | error e =>
      simp only [done] at parsed
      simp only [parsed]
      exact ⟨trivial, trivial, trivial, same⟩
    | ok result =>
      simp only [done] at parsed
      obtain ⟨rest', done', same'⟩ := parsed
      simp only [done']
      split
      · exact ⟨rfl, rfl, rfl, same'⟩
      · exact body _ same'
  | body => exact body w same
  | ready => exact body w same

end Streams

section Sockets
open TcpSocket

variable {loose : Prop}

/-- Sockets that no caller can tell apart. A socket that is not open keeps the
record of its last descriptor and a stale readiness flag, which a new descriptor
takes over. Such a flag goes unnoticed while nothing has arrived, which `loose`
says may be relied on. -/
structure Alike (loose : Prop) (s t : TcpSocket) : Prop where
  fdValid : t.fdValid = s.fdValid
  pending : t.pending = s.pending
  canWrite : t.canWrite = s.canWrite
  silent : s.fdValid = false → s.canWrite = false
  descriptor : s.isOpen = true → t.descriptor = s.descriptor
  canRead : t.canRead = s.canRead ∨ loose ∧ (s.fdValid = true → s.descriptor.incoming = [])

variable {s t : TcpSocket}

theorem Alike.isOpen (alike : Alike loose s t) : t.isOpen = s.isOpen := by
  simp [TcpSocket.isOpen, alike.fdValid, alike.pending]

theorem Alike.flag (alike : Alike loose s t) (valid : s.fdValid = true) :
    t.canRead = s.canRead ∨ loose ∧ s.descriptor.incoming = [] :=
  alike.canRead.imp_right fun nothing => ⟨nothing.1, nothing.2 valid⟩

/-- An open socket determines its like up to the readiness flag. -/
theorem Alike.eq_of_open (alike : Alike loose s t) (opened : s.isOpen = true) :
    t = { s with canRead := t.canRead } := by
  have fdValid := alike.fdValid
  have pending := alike.pending
  have canWrite := alike.canWrite
  have descriptor := alike.descriptor opened
  cases s
  cases t
  simp_all

theorem Alike.close (alike : Alike loose s t) (withEvent : Bool) :
    Alike loose (s.close withEvent) (t.close withEvent) := by
  cases opened : s.isOpen with
  | false =>
    have opened' := alike.isOpen.trans opened
    simpa [TcpSocket.close, opened, opened'] using alike
  | true =>
    have opened' := alike.isOpen.trans opened
    have descriptor := alike.descriptor opened
    cases withEvent <;>
      exact ⟨by simp [TcpSocket.close, opened, opened', addPendingCallable, cancelCallable],
        by simp [TcpSocket.close, opened, opened', addPendingCallable, cancelCallable],
        by simp [TcpSocket.close, opened, opened', addPendingCallable, cancelCallable],
        by simp [TcpSocket.close, opened, addPendingCallable, cancelCallable],
        by simp [descriptor],
        .inl (by simp [TcpSocket.close, opened, opened', addPendingCallable, cancelCallable])⟩

/-- Sockets with one valid descriptor that differ in the flag at most. -/
theorem alike_of_flag (valid : s.fdValid = true) (fdValid : t.fdValid = s.fdValid)
    (pending : t.pending = s.pending) (canWrite : t.canWrite = s.canWrite)
    (descriptor : t.descriptor = s.descriptor)
    (flag : t.canRead = s.canRead ∨ loose ∧ s.descriptor.incoming = []) : Alike loose s t :=
  ⟨fdValid, pending, canWrite, fun invalid => by simp [valid] at invalid, fun _ => descriptor,
    flag.imp_right fun nothing => ⟨nothing.1, fun _ => nothing.2⟩⟩

theorem Alike.writeShutdown (alike : Alike loose s t) : Alike loose s.writeShutdown t.writeShutdown := by
  cases valid : s.fdValid with
  | false =>
    have valid' := alike.fdValid.trans valid
    simpa [TcpSocket.writeShutdown, valid, valid'] using alike
  | true =>
    have opened : s.isOpen = true := by simp [TcpSocket.isOpen, valid]
    have flag := alike.flag valid
    rw [alike.eq_of_open opened]
    unfold TcpSocket.writeShutdown
    split
    · exact alike_of_flag valid rfl rfl rfl rfl flag
    · exact alike_of_flag valid rfl rfl rfl rfl flag

theorem alike_refl (silent : s.fdValid = false → s.canWrite = false) : Alike loose s s :=
  ⟨rfl, rfl, rfl, silent, fun _ => rfl, .inl rfl⟩

/-- A closed socket is like a new one. -/
theorem alike_closed (silent : s.fdValid = false → s.canWrite = false) :
    Alike True (s.close false) {} := by
  have closed := close_isOpen_false s
  have invalid := close_fdValid s false
  have writable := ((alike_refl silent : Alike False s s).close false).silent invalid
  simp only [TcpSocket.isOpen, invalid, Bool.false_or] at closed
  exact ⟨invalid.symm, closed.symm, writable.symm,
    fun _ => writable, by simp [TcpSocket.isOpen, invalid, closed],
    .inr ⟨trivial, by simp [invalid]⟩⟩

theorem readSome_silent (count : Nat) (silent : s.fdValid = false → s.canWrite = false) :
    (s.readSome count).2.fdValid = false → (s.readSome count).2.canWrite = false := by
  have closed := ((alike_refl silent : Alike False s s).close true).silent
  unfold TcpSocket.readSome
  split
  · exact silent
  · split
    · exact closed
    · split
      · exact silent
      · exact closed
      · exact closed
      · exact silent

/-- When nothing has arrived, asking lowers the flag. -/
private theorem readSome_nothing (valid : s.fdValid = true)
    (nothing : s.descriptor.incoming = []) {count : Nat} (positive : 0 < count) :
    s.readSome count = ([], { s with canRead := false }) := by
  have ne : count ≠ 0 := Nat.ne_of_gt positive
  cases flag : s.canRead with
  | false =>
    cases s
    simp_all [TcpSocket.readSome]
  | true => simp [TcpSocket.readSome, valid, flag, ne, nothing]

/-- A read of at least one byte. -/
theorem Alike.readSome (alike : Alike loose s t) (count : Nat) (positive : 0 < count) :
    (t.readSome count).1 = (s.readSome count).1 ∧
      Alike loose (s.readSome count).2 (t.readSome count).2 := by
  cases valid : s.fdValid with
  | false =>
    have valid' := alike.fdValid.trans valid
    simpa [TcpSocket.readSome, valid, valid'] using alike
  | true =>
    have opened : s.isOpen = true := by simp [TcpSocket.isOpen, valid]
    have same := alike.eq_of_open opened
    rcases alike.flag valid with equal | ⟨rely, nothing⟩
    · rw [equal] at same
      rw [same]
      exact ⟨rfl, alike_refl (readSome_silent count alike.silent)⟩
    · rw [readSome_nothing valid nothing positive, same,
        readSome_nothing (s := { s with canRead := t.canRead }) valid nothing positive]
      exact ⟨rfl, alike_of_flag valid rfl rfl rfl rfl (.inl rfl)⟩

/-- Sending does not look at the readiness to read. -/
private theorem writeSome_flag (valid : s.fdValid = true) (canRead : Bool) (val : Bytes) :
    { s with canRead := canRead }.writeSome val =
      ((s.writeSome val).1,
        if (s.writeSome val).2.fdValid then { (s.writeSome val).2 with canRead := canRead }
        else (s.writeSome val).2) := by
  cases writable : s.canWrite with
  | false => simp [TcpSocket.writeSome, valid, writable]
  | true =>
    cases sends : s.descriptor.sends with
    | nil => simp [TcpSocket.writeSome, valid, writable, sends]
    | cons result later =>
      cases result with
      | accept extra => simp [TcpSocket.writeSome, valid, writable, sends]
      | again => simp [TcpSocket.writeSome, valid, writable, sends]
      | error =>
        simp [TcpSocket.writeSome, valid, writable, sends, TcpSocket.close,
          TcpSocket.isOpen, addPendingCallable, cancelCallable]

theorem writeSome_silent (val : Bytes) (silent : s.fdValid = false → s.canWrite = false) :
    (s.writeSome val).2.fdValid = false → (s.writeSome val).2.canWrite = false := by
  unfold TcpSocket.writeSome
  split
  · exact silent
  · split
    · exact silent
    · exact silent
    · exact fun _ => rfl
    · rename_i later _
      exact ((alike_refl silent : Alike False { s with descriptor.sends := later } _).close true).silent

theorem Alike.writeSome (alike : Alike loose s t) (val : Bytes) :
    (t.writeSome val).1 = (s.writeSome val).1 ∧ Alike loose (s.writeSome val).2 (t.writeSome val).2 := by
  cases valid : s.fdValid with
  | false =>
    have valid' := alike.fdValid.trans valid
    simpa [TcpSocket.writeSome, valid, valid'] using alike
  | true =>
    have opened : s.isOpen = true := by simp [TcpSocket.isOpen, valid]
    have wrote := (writeSome_spec s val).1
    rw [alike.eq_of_open opened, writeSome_flag valid]
    refine ⟨rfl, ?_⟩
    split
    · rename_i valid'
      refine alike_of_flag valid' rfl rfl rfl rfl ?_
      rw [(wrote.valid valid').2.2, wrote.incoming]
      exact alike.flag valid
    · exact alike_refl (writeSome_silent val alike.silent)

/-- A new descriptor; a stale flag is the only difference left. -/
private theorem Alike.opened (alike : Alike loose s t) (descriptor : Descriptor)
    (nothing : descriptor.incoming = []) :
    Alike loose { s with fdValid := true, descriptor := descriptor }
      { t with fdValid := true, descriptor := descriptor } :=
  ⟨rfl, alike.pending, alike.canWrite, fun invalid => by simp at invalid, fun _ => rfl,
    alike.canRead.imp_right fun rely => ⟨rely.1, fun _ => nothing⟩⟩

private theorem Alike.addPendingCallable (alike : Alike loose s t) (opened : s.isOpen = true)
    (valid : s.fdValid = true) (canRead canWrite : Bool) :
    Alike loose (s.addPendingCallable canRead canWrite) (t.addPendingCallable canRead canWrite) := by
  refine ⟨alike.fdValid, rfl, by simp [TcpSocket.addPendingCallable, alike.canWrite], fun invalid => ?_,
    fun _ => alike.descriptor opened, ?_⟩
  · have invalid' : s.fdValid = false := invalid
    simp [valid] at invalid'
  · rcases alike.canRead with equal | rely
    · exact .inl (by simp [TcpSocket.addPendingCallable, equal])
    · exact .inr rely

theorem Alike.connect (alike : Alike loose s t) (result : ConnectResult) :
    (t.connect result).1 = (s.connect result).1 ∧
      Alike loose (s.connect result).2 (t.connect result).2 := by
  have closed := alike.close false
  cases result with
  | failed => exact ⟨rfl, closed⟩
  | inProgress => exact ⟨rfl, closed.opened {} rfl⟩
  | immediate => exact ⟨rfl, (closed.opened {} rfl).addPendingCallable rfl rfl true true⟩

theorem Alike.accept (alike : Alike loose s t) (accepted : Accepted) :
    match s.accept accepted with
    | .error e => t.accept accepted = .error e
    | .ok u => ∃ v, t.accept accepted = .ok v ∧ Alike loose u v := by
  have opened := (alike.close false).opened {} rfl
  cases accepted with
  | missing => rfl
  | ready => exact ⟨_, rfl, opened⟩
  | refused => exact ⟨_, rfl, opened.close true⟩

theorem Alike.notify (alike : Alike loose s t) (canRead canWrite : Bool) :
    Alike loose (s.notify canRead canWrite) (t.notify canRead canWrite) := by
  unfold TcpSocket.notify
  rw [alike.fdValid]
  split
  · rename_i valid
    exact alike.addPendingCallable (by simp [TcpSocket.isOpen, valid]) valid canRead canWrite
  · exact alike

theorem Alike.plan (alike : Alike loose s t) (sends : List SendResult) :
    Alike loose (s.plan sends) (t.plan sends) :=
  ⟨alike.fdValid, alike.pending, alike.canWrite, alike.silent,
    fun opened => by simp [TcpSocket.plan, alike.descriptor opened], alike.canRead⟩

/-- Bytes arrive unseen where the flags agree. -/
theorem Alike.arrive (alike : Alike loose s t) (arrivals : List Arrival)
    (flags : t.canRead = s.canRead) :
    Alike loose (s.arrive arrivals) (t.arrive arrivals) := by
  cases valid : s.fdValid with
  | false =>
    have valid' := alike.fdValid.trans valid
    simpa [TcpSocket.arrive, valid, valid'] using alike
  | true =>
    have valid' := alike.fdValid.trans valid
    have descriptor := alike.descriptor (by simp [TcpSocket.isOpen, valid])
    simp only [TcpSocket.arrive, valid, valid', ↓reduceIte]
    exact alike_of_flag rfl rfl alike.pending alike.canWrite (by simp [descriptor]) (.inl flags)

/-- Bytes arrive with the event that reports them. -/
theorem Alike.arriveNotify (alike : Alike loose s t) (arrivals : List Arrival) (canWrite : Bool) :
    Alike loose ((s.arrive arrivals).notify (!arrivals.isEmpty) canWrite)
      ((t.arrive arrivals).notify (!arrivals.isEmpty) canWrite) := by
  cases valid : s.fdValid with
  | false =>
    have valid' := alike.fdValid.trans valid
    simpa [TcpSocket.arrive, TcpSocket.notify, valid, valid'] using alike
  | true =>
    have valid' := alike.fdValid.trans valid
    have descriptor := alike.descriptor (by simp [TcpSocket.isOpen, valid])
    simp only [TcpSocket.arrive, TcpSocket.notify, valid, valid', ↓reduceIte]
    refine alike_of_flag rfl rfl rfl (by simp [TcpSocket.addPendingCallable, alike.canWrite])
      (by simp [TcpSocket.addPendingCallable, descriptor]) ?_
    cases arrivals with
    | nil =>
      rcases alike.flag valid with equal | ⟨rely, nothing⟩
      · exact .inl (by simp [TcpSocket.addPendingCallable, equal])
      · exact .inr ⟨rely, by simp [TcpSocket.addPendingCallable, nothing]⟩
    | cons first later => exact .inl (by simp [TcpSocket.addPendingCallable])

theorem Alike.unlinked (alike : Alike loose s t) :
    Alike loose { s with pending := false } { t with pending := false } :=
  ⟨alike.fdValid, rfl, alike.canWrite, alike.silent,
    fun opened => alike.descriptor (by simp_all [TcpSocket.isOpen]), alike.canRead⟩

end Sockets

section Buffered
open BufferedTcpSocket

variable {loose : Prop}

structure AlikeBuffered (loose : Prop) (s t : BufferedTcpSocket) : Prop where
  pieces : t.dataToWrite = s.dataToWrite
  total : t.totalDataToWrite = s.totalDataToWrite
  asked : t.writeShutdownAsked = s.writeShutdownAsked
  timer : t.shutdownTimer = s.shutdownTimer
  sock : Alike loose s.sock t.sock

variable {s t : BufferedTcpSocket}

theorem AlikeBuffered.isOpen (alike : AlikeBuffered loose s t) : t.isOpen = s.isOpen := alike.sock.isOpen

theorem AlikeBuffered.close (alike : AlikeBuffered loose s t) (withEvent : Bool) :
    AlikeBuffered loose (s.close withEvent) (t.close withEvent) :=
  ⟨rfl, rfl, rfl, rfl, alike.sock.close withEvent⟩

theorem alikeBuffered_closed (alike : AlikeBuffered loose s s) : AlikeBuffered True (s.close false) {} :=
  ⟨rfl, rfl, rfl, rfl, alike_closed alike.sock.silent⟩

theorem AlikeBuffered.connect (alike : AlikeBuffered loose s t) (result : ConnectResult) :
    (t.connect result).1 = (s.connect result).1 ∧
      AlikeBuffered loose (s.connect result).2 (t.connect result).2 := by
  obtain ⟨connected, socks⟩ := alike.sock.connect result
  exact ⟨connected, alike.pieces, alike.total, alike.asked, alike.timer, socks⟩

theorem AlikeBuffered.accept (alike : AlikeBuffered loose s t) (accepted : Accepted) :
    match s.accept accepted with
    | .error e => t.accept accepted = .error e
    | .ok u => ∃ v, t.accept accepted = .ok v ∧ AlikeBuffered loose u v := by
  have socks := alike.sock.accept accepted
  cases done : s.sock.accept accepted with
  | error e =>
    simp only [done] at socks
    simp [BufferedTcpSocket.accept, done, socks, bind, Except.bind]
  | ok u =>
    simp only [done] at socks
    obtain ⟨v, done', socks⟩ := socks
    simp only [BufferedTcpSocket.accept, done, done', bind, Except.bind, pure, Except.pure]
    exact ⟨_, rfl, alike.pieces, alike.total, alike.asked, alike.timer, socks⟩

/-- Alike sockets differ in what is below them only. -/
theorem AlikeBuffered.below (alike : AlikeBuffered loose s t) :
    ∃ u, t = { s with sock := u } ∧ Alike loose s.sock u := by
  obtain ⟨pieces, total, asked, timer, socks⟩ := alike
  cases s
  cases t
  simp only at pieces total asked timer socks
  subst pieces total asked timer
  exact ⟨_, rfl, socks⟩

theorem alike_above {u : TcpSocket} (socks : Alike loose s.sock u) :
    AlikeBuffered loose s { s with sock := u } :=
  ⟨rfl, rfl, rfl, rfl, socks⟩

theorem AlikeBuffered.readSome (alike : AlikeBuffered loose s t) (count : Nat) (positive : 0 < count) :
    (t.readSome count).1 = (s.readSome count).1 ∧
      AlikeBuffered loose (s.readSome count).2 (t.readSome count).2 := by
  obtain ⟨u, rfl, socks⟩ := alike.below
  simp only [BufferedTcpSocket.readSome]
  split
  · exact ⟨rfl, alike⟩
  · obtain ⟨bytes, after⟩ := socks.readSome count positive
    exact ⟨bytes, rfl, rfl, rfl, rfl, after⟩

theorem AlikeBuffered.buffer (alike : AlikeBuffered loose s t) (val : Bytes) :
    AlikeBuffered loose (s.buffer val) (t.buffer val) := by
  have opened := alike.isOpen
  obtain ⟨u, rfl, socks⟩ := alike.below
  simp only [BufferedTcpSocket.buffer, opened]
  split
  · exact alike
  · exact ⟨rfl, rfl, rfl, rfl, socks⟩

private theorem drain_same {u v : TcpSocket} (alike : Alike loose u v) (total : Nat)
    (pieces : List StringStream) :
    (drain v total pieces).1 = (drain u total pieces).1 ∧
      (drain v total pieces).2.1 = (drain u total pieces).2.1 ∧
      Alike loose (drain u total pieces).2.2 (drain v total pieces).2.2 := by
  induction pieces generalizing u v total with
  | nil => exact ⟨rfl, rfl, alike⟩
  | cons front later ih =>
    obtain ⟨count, rest, socks⟩ := writeLoop_same TcpSocket.ostream (R := Alike loose)
      (fun _ _ val alike => alike.writeSome val) (front.size + 1) front front.size alike
    have count' : (front.writeTo TcpSocket.ostream v).1 = (front.writeTo TcpSocket.ostream u).1 := count
    have rest' :
        (front.writeTo TcpSocket.ostream v).2.1 = (front.writeTo TcpSocket.ostream u).2.1 := rest
    simp only [drain, count', rest']
    split
    · exact ih socks _
    · exact ⟨rfl, rfl, socks⟩

theorem AlikeBuffered.flush (alike : AlikeBuffered loose s t) : AlikeBuffered loose s.flush t.flush := by
  obtain ⟨u, rfl, socks⟩ := alike.below
  obtain ⟨pieces, total, after⟩ := drain_same socks s.totalDataToWrite s.dataToWrite
  simp only [BufferedTcpSocket.flush, pieces, total]
  split
  · exact ⟨rfl, rfl, rfl, rfl, after.writeShutdown⟩
  · exact ⟨rfl, rfl, rfl, rfl, after⟩

theorem AlikeBuffered.write (alike : AlikeBuffered loose s t) (val : Bytes) (bo : BufferOptions) :
    AlikeBuffered loose (s.write val bo) (t.write val bo) := by
  cases bo with
  | bufferOnly => exact alike.buffer val
  | write =>
    have opened := alike.isOpen
    have buffered := (alike.buffer val).flush
    obtain ⟨u, rfl, socks⟩ := alike.below
    simp only [BufferedTcpSocket.write, opened]
    split
    · exact alike
    · split
      · obtain ⟨count, after⟩ := socks.writeSome val
        simp only [count]
        exact ((alike_above (s := { s with sock := _ }) after).buffer _).flush
      · exact buffered

theorem AlikeBuffered.writeString (alike : AlikeBuffered loose s t) (ss : Bytes) (bo : BufferOptions) :
    AlikeBuffered loose (s.writeString ss bo) (t.writeString ss bo) := by
  cases bo with
  | bufferOnly => exact alike.buffer ss
  | write => exact (alike.buffer ss).flush

theorem AlikeBuffered.writeShutdown (alike : AlikeBuffered loose s t) :
    AlikeBuffered loose s.writeShutdown t.writeShutdown := by
  have opened := alike.isOpen
  obtain ⟨u, rfl, socks⟩ := alike.below
  simp only [BufferedTcpSocket.writeShutdown, opened]
  split
  · exact alike
  · split
    · exact ⟨rfl, rfl, rfl, rfl, socks.writeShutdown⟩
    · exact ⟨rfl, rfl, rfl, rfl, socks⟩

theorem AlikeBuffered.sockHandler (alike : AlikeBuffered loose s t) :
    AlikeBuffered loose s.sockHandler t.sockHandler := by
  have flushed := alike.flush
  obtain ⟨u, same, socks⟩ := flushed.below
  simp only [BufferedTcpSocket.sockHandler, alike.isOpen, same]
  split
  · split
    · exact ⟨rfl, rfl, rfl, rfl, (socks.readSome 4096 (by decide)).2⟩
    · exact alike_above socks
  · exact alike.close false

theorem AlikeBuffered.shutdownTimerHandler (alike : AlikeBuffered loose s t) :
    AlikeBuffered loose s.shutdownTimerHandler t.shutdownTimerHandler :=
  ⟨rfl, rfl, rfl, rfl, alike.sock.close false⟩

/-- Filling alike buffers from alike sockets. -/
theorem AlikeBuffered.readFrom (alike : AlikeBuffered loose s t) {b d : Buffer} (same : SameBuffer b d) :
    (d.readFrom istream t).1 = (b.readFrom istream s).1 ∧
      SameBuffer (b.readFrom istream s).2.1 (d.readFrom istream t).2.1 ∧
      AlikeBuffered loose (b.readFrom istream s).2.2 (d.readFrom istream t).2.2 := by
  unfold Buffer.readFrom
  rw [same.capacity]
  exact readLoop_same (fun _ _ count positive alike => alike.readSome count positive) _ same alike

end Buffered

end Crablib.AlikeProofs
