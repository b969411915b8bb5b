import Crablib.StreamsProofs
import Crablib.Network.BufferedTcpSocket

/-! What the sockets do to the outgoing byte stream. `stream` is the bytes the
descriptor accepted followed by the bytes still buffered; writing extends it by
exactly what was handed in, and flushing only moves bytes from its second part
to its first. -/
namespace Crablib.SocketProofs
open StreamsProofs

section Descriptor
open TcpSocket

/-- The effect of any number of `send` calls on a socket. -/
structure Wrote (s t : TcpSocket) (bytes : Bytes) : Prop where
  sent : t.descriptor.sent = s.descriptor.sent ++ bytes
  finAt : t.descriptor.finAt = s.descriptor.finAt
  incoming : t.descriptor.incoming = s.descriptor.incoming
  isOpen : t.isOpen = s.isOpen
  valid : t.fdValid = true → s.fdValid = true ∧ t.pending = s.pending ∧ t.canRead = s.canRead
  writable : t.canWrite = true → s.canWrite = true

/-- The state in which the next `send` would be tried. -/
def Writable (s : TcpSocket) : Prop := s.fdValid = true ∧ s.canWrite = true

theorem Wrote.refl (s : TcpSocket) : Wrote s s [] :=
  ⟨by simp, rfl, rfl, rfl, fun valid => ⟨valid, rfl, rfl⟩, id⟩

theorem Wrote.trans {s t u : TcpSocket} {front back : Bytes} (first : Wrote s t front)
    (second : Wrote t u back) : Wrote s u (front ++ back) where
  sent := by rw [second.sent, first.sent, List.append_assoc]
  finAt := second.finAt.trans first.finAt
  incoming := second.incoming.trans first.incoming
  isOpen := second.isOpen.trans first.isOpen
  valid := fun valid => by
    obtain ⟨middle, pending, canRead⟩ := second.valid valid
    obtain ⟨start, pending', canRead'⟩ := first.valid middle
    exact ⟨start, pending.trans pending', canRead.trans canRead'⟩
  writable := fun writable => first.writable (second.writable writable)

theorem close_isOpen_false (s : TcpSocket) : (s.close false).isOpen = false := by
  unfold TcpSocket.close
  split
  · rename_i closed
    simpa using closed
  · rfl

@[simp] theorem close_isOpen (s : TcpSocket) : (s.close true).isOpen = s.isOpen := by
  unfold TcpSocket.close
  split
  · rfl
  · rename_i opened
    simp only [Bool.not_eq_true', Bool.not_eq_false] at opened
    simp [TcpSocket.isOpen, addPendingCallable] at opened ⊢
    exact opened

@[simp] theorem close_descriptor (s : TcpSocket) (withEvent : Bool) :
    (s.close withEvent).descriptor = s.descriptor := by
  unfold TcpSocket.close
  split
  · rfl
  · split <;> rfl

theorem close_fdValid (s : TcpSocket) (withEvent : Bool) : (s.close withEvent).fdValid = false := by
  unfold TcpSocket.close
  split
  · rename_i closed
    simp only [TcpSocket.isOpen, Bool.not_eq_true', Bool.or_eq_false_iff] at closed
    exact closed.1
  · split <;> rfl

theorem close_canWrite (s : TcpSocket) (valid : s.fdValid = true) : (s.close true).canWrite = false := by
  simp [TcpSocket.close, TcpSocket.isOpen, valid, addPendingCallable, cancelCallable]

/-- `write_some` sends a prefix, which is empty only if the socket cannot be
written to afterwards. -/
theorem writeSome_spec (s : TcpSocket) (val : Bytes) :
    Wrote s (s.writeSome val).2 (val.take (s.writeSome val).1) ∧
      (0 < (s.writeSome val).1 → Writable (s.writeSome val).2) ∧
      (val ≠ [] → (s.writeSome val).1 = 0 → ¬Writable (s.writeSome val).2) := by
  unfold TcpSocket.writeSome
  split
  · rename_i refused
    refine ⟨by simpa using Wrote.refl s, by simp, fun _ _ writable => ?_⟩
    have valid : s.fdValid = true := writable.1
    have canWrite : s.canWrite = true := writable.2
    simp [valid, canWrite] at refused
  · rename_i open_
    have writable : Writable s := by simpa [Writable] using open_
    split
    · refine ⟨⟨rfl, rfl, rfl, rfl, fun valid => ⟨valid, rfl, rfl⟩, id⟩, fun _ => writable, ?_⟩
      intro some none
      exact absurd (List.length_eq_zero_iff.mp none) some
    · rename_i extra later _
      refine ⟨⟨rfl, rfl, rfl, rfl, fun valid => ⟨valid, rfl, rfl⟩, id⟩, fun _ => writable, ?_⟩
      intro some none
      have := List.length_pos_iff.mpr some
      simp only at none
      omega
    · exact ⟨⟨by simp, rfl, rfl, rfl, fun valid => ⟨valid, rfl, rfl⟩, by simp⟩, by
        simp, by simp [Writable]⟩
    · rename_i later _
      have valid := close_fdValid { s with descriptor.sends := later } true
      refine ⟨⟨by simp, by simp, by simp, ?_, ?_, ?_⟩, by simp, ?_⟩
      · rw [close_isOpen]
        rfl
      · simp [valid]
      · intro writable'
        simp [close_canWrite { s with descriptor.sends := later } writable.1] at writable'
      · simp [Writable, valid]

/-- A chain of `write_some` calls is one long write. -/
theorem takes_wrote {s t : TcpSocket} {took : Bytes}
    (takes : Takes ostream s took t) : Wrote s t took := by
  induction takes with
  | refl s => exact Wrote.refl s
  | step val _ ih => exact (writeSome_spec _ val).1.trans ih

theorem writeTo_spec (front : StringStream) (s : TcpSocket) :
    Wrote s (front.writeTo ostream s).2.2 (front.unread.take (front.writeTo ostream s).1) ∧
      (front.writeTo ostream s).1 ≤ front.size ∧
      (front.writeTo ostream s).2.1.unread = front.unread.drop (front.writeTo ostream s).1 ∧
      (front.unread ≠ [] → (front.writeTo ostream s).2.1.unread = [] →
        Writable (front.writeTo ostream s).2.2) ∧
      ((front.writeTo ostream s).2.1.unread ≠ [] → ¬Writable (front.writeTo ostream s).2.2) := by
  have delivered := writeTo_delivers ostream front s
  refine ⟨takes_wrote delivered.taken, delivered.count_le, delivered.kept,
    fun some done => ?_, fun left => ?_⟩
  · exact writeTo_finishes ostream Writable (fun t val => (writeSome_spec t val).2.1) _ _ some done
  · exact writeTo_stops ostream (fun t => ¬Writable t) (fun t val => (writeSome_spec t val).2.2) _ _ left

/-- The effect of any number of `recv` calls: bytes leave the queue, and a
broken connection is closed with an event to come. -/
structure Received (s t : TcpSocket) : Prop where
  sent : t.descriptor.sent = s.descriptor.sent
  finAt : t.descriptor.finAt = s.descriptor.finAt
  sends : t.descriptor.sends = s.descriptor.sends
  isOpen : t.isOpen = s.isOpen
  valid : t.fdValid = true → s.fdValid = true ∧ t.pending = s.pending ∧ t.canWrite = s.canWrite

theorem Received.refl (s : TcpSocket) : Received s s :=
  ⟨rfl, rfl, rfl, rfl, fun valid => ⟨valid, rfl, rfl⟩⟩

theorem Received.trans {s t u : TcpSocket} (first : Received s t)
    (second : Received t u) : Received s u where
  sent := second.sent.trans first.sent
  finAt := second.finAt.trans first.finAt
  sends := second.sends.trans first.sends
  isOpen := second.isOpen.trans first.isOpen
  valid := fun valid => by
    obtain ⟨middle, pending, canWrite⟩ := second.valid valid
    obtain ⟨start, pending', canWrite'⟩ := first.valid middle
    exact ⟨start, pending.trans pending', canWrite.trans canWrite'⟩

theorem close_received (s : TcpSocket) : Received s (s.close true) := by
  refine ⟨by simp, by simp, by simp, close_isOpen s, fun valid => ?_⟩
  simp [close_fdValid] at valid

theorem readSome_received (s : TcpSocket) (count : Nat) : Received s (s.readSome count).2 := by
  unfold TcpSocket.readSome
  split
  · exact Received.refl s
  · split
    · exact close_received s
    · split
      · exact ⟨rfl, rfl, rfl, rfl, fun valid => ⟨valid, rfl, rfl⟩⟩
      · exact close_received s
      · exact close_received s
      · exact ⟨rfl, rfl, rfl, rfl, fun valid => ⟨valid, rfl, rfl⟩⟩

end Descriptor

section Buffered
open BufferedTcpSocket

/-- The buffered bytes, in the order they will be sent. -/
def unsent (pieces : List StringStream) : Bytes := pieces.flatMap StringStream.unread

/-- Everything handed in that was not dropped: accepted, then buffered. -/
def stream (s : BufferedTcpSocket) : Bytes := s.sock.descriptor.sent ++ unsent s.dataToWrite

/-- The byte counter is right and no buffered piece is empty. -/
structure Accounted (total : Nat) (pieces : List StringStream) : Prop where
  total : total = (pieces.map StringStream.size).sum
  nonempty : ∀ piece ∈ pieces, piece.unread ≠ []

@[simp] theorem unsent_nil : unsent [] = [] := rfl

@[simp] theorem unsent_cons (front : StringStream) (later : List StringStream) :
    unsent (front :: later) = front.unread ++ unsent later := rfl

theorem unsent_length (pieces : List StringStream) :
    (unsent pieces).length = (pieces.map StringStream.size).sum := by
  induction pieces with
  | nil => rfl
  | cons front later ih => simp [ih]

theorem append_unsent (pieces : List StringStream) (val : Bytes) :
    unsent (append pieces val) = unsent pieces ++ val := by
  unfold append
  split
  · rename_i back last
    obtain ⟨before, rfl⟩ := List.getLast?_eq_some_iff.mp last
    split <;> simp [unsent]
  · simp [unsent]

theorem append_nonempty {pieces : List StringStream} {val : Bytes} (some : val ≠ [])
    (nonempty : ∀ piece ∈ pieces, piece.unread ≠ []) :
    ∀ piece ∈ append pieces val, piece.unread ≠ [] := by
  unfold append
  split
  · rename_i back last
    obtain ⟨before, rfl⟩ := List.getLast?_eq_some_iff.mp last
    split
    · simp only [List.dropLast_concat, List.forall_mem_append, List.forall_mem_singleton,
        unread_write] at nonempty ⊢
      exact ⟨nonempty.1, by simp [some]⟩
    · simp only [List.forall_mem_append (p := fun piece : StringStream => piece.unread ≠ []),
        List.forall_mem_singleton, unread_ofString] at nonempty ⊢
      exact ⟨nonempty, some⟩
  · simp only [List.forall_mem_append, List.forall_mem_singleton, unread_ofString]
    exact ⟨nonempty, some⟩

theorem append_accounted {total : Nat} {pieces : List StringStream} (accounted : Accounted total pieces)
    {val : Bytes} (some : val ≠ []) : Accounted (total + val.length) (append pieces val) := by
  refine ⟨?_, append_nonempty some accounted.nonempty⟩
  rw [← unsent_length, append_unsent, List.length_append, unsent_length, accounted.total]

/-- What flushing leaves behind. -/
structure Drained (sock : TcpSocket) (total : Nat) (pieces : List StringStream)
    (result : List StringStream × Nat × TcpSocket) : Prop where
  wrote : ∃ bytes, Wrote sock result.2.2 bytes ∧ unsent pieces = bytes ++ unsent result.1
  accounted : Accounted total pieces → Accounted result.2.1 result.1
  finished : pieces ≠ [] → result.1 = [] → (∀ piece ∈ pieces, piece.unread ≠ []) → Writable result.2.2
  stopped : result.1 ≠ [] → ¬Writable result.2.2

theorem drain_spec (sock : TcpSocket) (total : Nat) (pieces : List StringStream) :
    Drained sock total pieces (drain sock total pieces) := by
  induction pieces generalizing sock total with
  | nil => exact ⟨⟨[], Wrote.refl sock, rfl⟩, id, by simp, by simp [drain]⟩
  | cons front later ih =>
    obtain ⟨wrote, count, kept, finished, stopped⟩ := writeTo_spec front sock
    simp only [drain]
    split
    · rename_i done
      rw [stream_empty_iff] at done
      obtain ⟨⟨bytes, more, same⟩, accounted, last, halted⟩ :=
        ih (front.writeTo TcpSocket.ostream sock).2.2 (total - (front.writeTo TcpSocket.ostream sock).1)
      have whole : front.unread.length ≤ (front.writeTo TcpSocket.ostream sock).1 := by
        simpa [kept] using done
      rw [List.take_of_length_le whole] at wrote
      rw [unread_length] at whole
      refine ⟨⟨_, wrote.trans more, by rw [unsent_cons, same, List.append_assoc]⟩, fun before => ?_,
        fun _ none nonempty => ?_, halted⟩
      · refine accounted ⟨?_, fun piece member => before.nonempty piece (List.mem_cons_of_mem _ member)⟩
        have := before.total
        simp only [List.map_cons, List.sum_cons] at this
        omega
      · by_cases more : later = []
        · subst more
          exact finished (nonempty front List.mem_cons_self) done
        · exact last more none fun piece member => nonempty piece (List.mem_cons_of_mem _ member)
    · rename_i left
      rw [stream_empty_iff] at left
      refine ⟨⟨_, wrote, ?_⟩, fun before => ⟨?_, ?_⟩, by simp, fun _ => stopped left⟩
      · rw [unsent_cons, unsent_cons, kept, ← List.append_assoc, List.take_append_drop]
      · have := before.total
        have size := congrArg List.length kept
        simp only [unread_length, List.length_drop] at size
        simp only [List.map_cons, List.sum_cons] at this ⊢
        omega
      · intro piece member
        rcases List.mem_cons.mp member with rfl | member
        · exact left
        · exact before.nonempty piece (List.mem_cons_of_mem _ member)

/-- The effect of writing calls on a socket: the stream grows by `bytes`, and
nothing but a broken connection changes on the reading side. -/
structure Extends (s t : BufferedTcpSocket) (bytes : Bytes) : Prop where
  stream : stream t = stream s ++ bytes
  asked : t.writeShutdownAsked = s.writeShutdownAsked
  isOpen : t.isOpen = s.isOpen
  incoming : t.sock.descriptor.incoming = s.sock.descriptor.incoming
  valid : t.sock.fdValid = true →
    s.sock.fdValid = true ∧ t.sock.pending = s.sock.pending ∧ t.sock.canRead = s.sock.canRead
  accounted : Accounted s.totalDataToWrite s.dataToWrite → Accounted t.totalDataToWrite t.dataToWrite

theorem Extends.refl (s : BufferedTcpSocket) : Extends s s [] :=
  ⟨by simp, rfl, rfl, rfl, fun valid => ⟨valid, rfl, rfl⟩, id⟩

theorem Extends.trans {s t u : BufferedTcpSocket} {front back : Bytes} (first : Extends s t front)
    (second : Extends t u back) : Extends s u (front ++ back) where
  stream := by rw [second.stream, first.stream, List.append_assoc]
  asked := second.asked.trans first.asked
  isOpen := second.isOpen.trans first.isOpen
  incoming := second.incoming.trans first.incoming
  valid := fun valid => by
    obtain ⟨middle, pending, canRead⟩ := second.valid valid
    obtain ⟨start, pending', canRead'⟩ := first.valid middle
    exact ⟨start, pending.trans pending', canRead.trans canRead'⟩
  accounted := fun before => second.accounted (first.accounted before)

/-- What the socket keeps of the bytes it is handed: all of them while it is
open and no shutdown was asked, none after. -/
def takes (s : BufferedTcpSocket) (val : Bytes) : Bytes :=
  if s.isOpen && !s.writeShutdownAsked then val else []

theorem takes_of_open {s : BufferedTcpSocket} (opened : s.isOpen = true)
    (asked : s.writeShutdownAsked = false) (val : Bytes) : takes s val = val := by
  simp [takes, opened, asked]

theorem takes_of_closed {s : BufferedTcpSocket} (closed : (!s.isOpen || s.writeShutdownAsked) = true)
    (val : Bytes) : takes s val = [] := by
  simp only [Bool.or_eq_true, Bool.not_eq_true'] at closed
  rcases closed with closed | asked
  · simp [takes, closed]
  · simp [takes, asked]

theorem Extends.takes {s t : BufferedTcpSocket} {bytes : Bytes}
    (extends_ : Extends s t bytes) (val : Bytes) :
    takes t val = takes s val := by
  simp [SocketProofs.takes, extends_.asked, extends_.isOpen]

theorem buffer_extends (s : BufferedTcpSocket) (val : Bytes) :
    Extends s (s.buffer val) (takes s val) := by
  unfold buffer
  split
  · rename_i dropped
    have none : SocketProofs.takes s val = [] := by
      rcases (Bool.or_eq_true _ _).mp dropped with closed | empty
      · exact takes_of_closed closed val
      · simp [SocketProofs.takes, List.isEmpty_iff.mp empty]
    rw [none]
    exact Extends.refl s
  · rename_i kept
    simp only [Bool.or_eq_true, Bool.not_eq_true', List.isEmpty_iff, not_or, Bool.not_eq_false,
      Bool.not_eq_true] at kept
    obtain ⟨⟨opened, asked⟩, some⟩ := kept
    rw [takes_of_open opened asked]
    refine ⟨?_, rfl, rfl, rfl, fun valid => ⟨valid, rfl, rfl⟩, fun before =>
      append_accounted before some⟩
    simp [stream, append_unsent]

/-- Asking the descriptor to shut down moves no byte. -/
theorem shutdownNow_extends (s : BufferedTcpSocket) : Extends s s.shutdownNow [] := by
  have shut : s.sock.writeShutdown.descriptor.sent = s.sock.descriptor.sent ∧
      s.sock.writeShutdown.descriptor.incoming = s.sock.descriptor.incoming ∧
      s.sock.writeShutdown.fdValid = s.sock.fdValid ∧ s.sock.writeShutdown.pending = s.sock.pending ∧
      s.sock.writeShutdown.canRead = s.sock.canRead := by
    unfold TcpSocket.writeShutdown
    split <;> simp
  obtain ⟨sent, incoming, fdValid, pending, canRead⟩ := shut
  refine ⟨by simp [stream, shutdownNow, sent], rfl, ?_, incoming, fun valid =>
    ⟨?_, pending, canRead⟩, id⟩
  · simp [BufferedTcpSocket.isOpen, TcpSocket.isOpen, shutdownNow, fdValid, pending]
  · exact fdValid ▸ valid

theorem flush_extends (s : BufferedTcpSocket) : Extends s s.flush [] := by
  obtain ⟨⟨bytes, wrote, same⟩, accounted, -, -⟩ := drain_spec s.sock s.totalDataToWrite s.dataToWrite
  have moved : Extends s { s with
      dataToWrite := (drain s.sock s.totalDataToWrite s.dataToWrite).1
      totalDataToWrite := (drain s.sock s.totalDataToWrite s.dataToWrite).2.1
      sock := (drain s.sock s.totalDataToWrite s.dataToWrite).2.2 } [] :=
    ⟨by simp [stream, same, wrote.sent], rfl, wrote.isOpen, wrote.incoming, wrote.valid, accounted⟩
  simp only [flush]
  split
  · exact moved.trans (shutdownNow_extends _)
  · exact moved

/-- Sending directly keeps the order, as nothing is buffered. -/
theorem direct_extends (s : BufferedTcpSocket) (val : Bytes) (empty : s.dataToWrite.isEmpty = true) :
    Extends s { s with sock := (s.sock.writeSome val).2 } (val.take (s.sock.writeSome val).1) := by
  have wrote := (writeSome_spec s.sock val).1
  refine ⟨?_, rfl, wrote.isOpen, wrote.incoming, wrote.valid, id⟩
  simp [stream, List.isEmpty_iff.mp empty, wrote.sent]

theorem writeSome_extends (s : BufferedTcpSocket) (val : Bytes) :
    Extends s (s.writeSome val).2 (val.take (s.writeSome val).1) := by
  unfold BufferedTcpSocket.writeSome
  split
  · simpa using Extends.refl s
  · rename_i free
    simp only [Bool.or_eq_true, Bool.not_eq_true', not_or, Bool.not_eq_false] at free
    exact direct_extends s val free.2

theorem write_extends (s : BufferedTcpSocket) (val : Bytes) (bo : BufferOptions) :
    Extends s (s.write val bo) (takes s val) := by
  unfold BufferedTcpSocket.write
  split
  · exact buffer_extends s val
  · split
    · rename_i closed
      rw [takes_of_closed closed]
      exact Extends.refl s
    · rename_i kept
      simp only [Bool.or_eq_true, Bool.not_eq_true', not_or, Bool.not_eq_false, Bool.not_eq_true] at kept
      rw [takes_of_open kept.1 kept.2]
      split
      · rename_i empty
        -- what the descriptor does not take at once is buffered behind it
        have direct := direct_extends s val empty
        have rest := buffer_extends { s with sock := (s.sock.writeSome val).2 }
          (val.drop (s.sock.writeSome val).1)
        rw [direct.takes, takes_of_open kept.1 kept.2] at rest
        simpa using (direct.trans rest).trans (flush_extends _)
      · have buffered := buffer_extends s val
        rw [takes_of_open kept.1 kept.2] at buffered
        simpa using buffered.trans (flush_extends _)

theorem writeString_extends (s : BufferedTcpSocket) (ss : Bytes) (bo : BufferOptions) :
    Extends s (s.writeString ss bo) (takes s ss) := by
  unfold writeString
  split
  · exact buffer_extends s ss
  · simpa [bufferString] using (buffer_extends s ss).trans (flush_extends _)

/-- A socket event that leaves the socket open flushes and may discard input. -/
theorem sockHandler_keeps (s : BufferedTcpSocket) (opened : s.sockHandler.isOpen = true) :
    s.sockHandler.writeShutdownAsked = s.writeShutdownAsked ∧ stream s.sockHandler = stream s := by
  unfold sockHandler at opened ⊢
  split at opened
  · rename_i open_
    have flushed := flush_extends s
    rw [if_pos open_]
    simp only
    split
    · have received := readSome_received s.flush.sock 4096
      exact ⟨flushed.asked, by simpa [stream, received.sent] using flushed.stream⟩
    · exact ⟨flushed.asked, by simpa using flushed.stream⟩
  · simp [BufferedTcpSocket.isOpen, BufferedTcpSocket.close, close_isOpen_false] at opened

/-- Asking for the shutdown moves no byte and closes nothing. -/
theorem writeShutdown_keeps (s : BufferedTcpSocket) :
    stream s.writeShutdown = stream s ∧ s.writeShutdown.isOpen = s.isOpen := by
  unfold BufferedTcpSocket.writeShutdown
  split
  · exact ⟨rfl, rfl⟩
  · simp only
    split
    · have moved := shutdownNow_extends { s with writeShutdownAsked := true }
      exact ⟨moved.stream.trans (List.append_nil _), moved.isOpen⟩
    · exact ⟨rfl, rfl⟩

/-- An open socket remembers that it was asked. -/
theorem writeShutdown_of_open {s : BufferedTcpSocket} (opened : s.isOpen = true) :
    s.writeShutdown.writeShutdownAsked = true := by
  unfold BufferedTcpSocket.writeShutdown
  split
  · rename_i asked
    simpa [opened] using asked
  · simp only
    split <;> rfl

end Buffered

end Crablib.SocketProofs
