import Crablib.InboundProofs

/-! The bytes that reach a descriptor, followed into the read buffer. What was
taken from the socket starts what arrived, and while the socket may be read, the
descriptor holds the rest: no byte is lost, doubled or moved, however the segments
are cut and the reads interleave with writes. -/
namespace Crablib.ArrivalProofs
open StreamsProofs SocketProofs InboundProofs

/-- The bytes that segments bring. -/
def brought : List Arrival → Bytes
  | [] => []
  | .data first rest :: later => first :: rest ++ brought later
  | .fin :: later => brought later
  | .reset :: later => brought later

theorem brought_append (front back : List Arrival) :
    brought (front ++ back) = brought front ++ brought back := by
  induction front with
  | nil => rfl
  | cons arrival front ih => cases arrival <;> simp [brought, ih]

private theorem brought_afterRecv (segment : Bytes) (count : Nat) (later : List Arrival) :
    segment.take count ++ brought (TcpSocket.afterRecv segment count later) =
      segment ++ brought later := by
  unfold TcpSocket.afterRecv
  split
  · rename_i none
    rw [List.take_of_length_le (List.drop_eq_nil_iff.mp none)]
  · rename_i first rest some_
    rw [brought, ← List.append_assoc, ← some_, List.take_append_drop]

/-- What was taken from the socket starts what arrived, and the descriptor holds
the rest as long as it may be read. -/
structure Behind (taken arrived : Bytes) (s : BufferedTcpSocket) : Prop where
  placed : taken <+: arrived
  whole : s.writeShutdownAsked = false → s.sock.fdValid = true →
    arrived = taken ++ brought s.sock.descriptor.incoming

variable {taken arrived got bytes : Bytes} {s t : BufferedTcpSocket}

/-- A descriptor that nothing has reached. -/
theorem behind_fresh (none : s.sock.descriptor.incoming = []) : Behind [] [] s :=
  ⟨List.prefix_rfl, fun _ _ => by rw [none]; rfl⟩

/-- Nothing is read from a socket that has been closed or shut down. -/
theorem behind_closed (placed : taken <+: arrived)
    (closed : s.writeShutdownAsked = true ∨ s.sock.fdValid = false) :
    Behind taken arrived s := by
  refine ⟨placed, fun unasked valid => ?_⟩
  rcases closed with asked | invalid
  · rw [asked] at unasked
    cases unasked
  · rw [invalid] at valid
    cases valid

theorem Behind.extends_ (behind : Behind taken arrived s) (extends_ : Extends s t bytes) :
    Behind taken arrived t := by
  refine ⟨behind.placed, fun unasked valid => ?_⟩
  rw [extends_.incoming]
  exact behind.whole (extends_.asked ▸ unasked) (extends_.valid valid).1

/-- The peer's next segments. -/
theorem Behind.arrive (behind : Behind taken arrived s) (arrivals : List Arrival) :
    Behind taken (arrived ++ if s.sock.fdValid then brought arrivals else [])
      { s with sock := s.sock.arrive arrivals } := by
  refine ⟨behind.placed.trans (List.prefix_append _ _), fun unasked valid => ?_⟩
  unfold TcpSocket.arrive at valid ⊢
  cases open_ : s.sock.fdValid with
  | false => simp [open_] at valid
  | true => simp [behind.whole unasked open_, brought_append]

/-- Changes of the socket that leave its receiving side alone. -/
theorem Behind.keep (behind : Behind taken arrived s)
    (asked : t.writeShutdownAsked = s.writeShutdownAsked)
    (valid : t.sock.fdValid = true → s.sock.fdValid = true)
    (incoming : t.sock.descriptor.incoming = s.sock.descriptor.incoming) : Behind taken arrived t := by
  refine ⟨behind.placed, fun unasked open_ => ?_⟩
  rw [incoming]
  exact behind.whole (asked ▸ unasked) (valid open_)

private theorem readTcp_whole {sock : TcpSocket}
    (whole : sock.fdValid = true → arrived = taken ++ brought sock.descriptor.incoming)
    (placed : taken <+: arrived) (count : Nat) :
    taken ++ (sock.readSome count).1 <+: arrived ∧ ((sock.readSome count).2.fdValid = true →
      arrived = taken ++ (sock.readSome count).1 ++
        brought (sock.readSome count).2.descriptor.incoming) := by
  unfold TcpSocket.readSome
  split
  · simpa using ⟨placed, whole⟩
  · rename_i readable
    have open_ : sock.fdValid = true := by
      cases valid : sock.fdValid with
      | true => rfl
      | false => simp [valid] at readable
    split
    · simpa [close_fdValid] using placed
    · split
      · simpa using ⟨placed, whole⟩
      · simpa [close_fdValid] using placed
      · simpa [close_fdValid] using placed
      · rename_i first rest later some_
        have front := brought_afterRecv (first :: rest) count later
        have same : arrived = taken ++ (first :: rest).take count ++
            brought (TcpSocket.afterRecv (first :: rest) count later) := by
          rw [List.append_assoc, front]
          simpa [some_, brought] using whole open_
        exact ⟨same ▸ List.prefix_append _ _, fun _ => same⟩

theorem readSome_behind (behind : Behind taken arrived s) (count : Nat) :
    Behind (taken ++ (s.readSome count).1) arrived (s.readSome count).2 := by
  unfold BufferedTcpSocket.readSome
  split
  · rename_i asked
    exact behind_closed (by simpa using behind.placed) (.inl asked)
  · rename_i unasked
    obtain ⟨placed, whole⟩ := readTcp_whole (behind.whole (by simpa using unasked)) behind.placed count
    exact ⟨placed, fun _ => whole⟩

theorem reads_behind (behind : Behind taken arrived s)
    (reads : Reads BufferedTcpSocket.istream s got t) :
    Behind (taken ++ got) arrived t := by
  induction reads generalizing taken with
  | refl s => simpa using behind
  | step count _ _ ih =>
    rw [← List.append_assoc]
    exact ih (readSome_behind behind count)

/-- Filling a read buffer. -/
theorem readFrom_behind {used : Bytes} {b : Buffer} (behind : Behind (used ++ contents b) arrived s) :
    Behind (used ++ contents (b.readFrom BufferedTcpSocket.istream s).2.1) arrived
      (b.readFrom BufferedTcpSocket.istream s).2.2 := by
  obtain ⟨got, filled⟩ := readFrom_filled BufferedTcpSocket.istream b s
  have read := reads_behind behind filled.reads
  rw [List.append_assoc, ← filled.contents] at read
  exact read

/-- The socket's own handler, whatever it flushes or discards. -/
theorem sockHandler_behind (behind : Behind taken arrived s) : Behind taken arrived s.sockHandler := by
  unfold BufferedTcpSocket.sockHandler
  split
  · have flushed := behind.extends_ (flush_extends s)
    simp only
    split
    · rename_i done
      have asked : s.flush.writeShutdownAsked = true := by simp_all
      exact behind_closed flushed.placed (.inl asked)
    · exact flushed
  · exact behind_closed behind.placed (.inr (close_fdValid s.sock false))

/-- A parser uses the front of the buffer, and the rest stays there. -/
theorem parseWith_used {ε σ : Type} {p : Bytes → Except ε (σ × Bytes)} {q : σ} {b after : Buffer}
    (suffix : ∀ {bytes rest : Bytes} {q : σ}, p bytes = .ok (q, rest) → ∃ used, bytes = used ++ rest)
    (parsed : b.parseWith p = .ok (q, after)) :
    ∃ used rest, p (used ++ rest) = .ok (q, rest) ∧ contents b = used ++ contents after ∧
      after.capacity = b.capacity := by
  unfold Buffer.parseWith at parsed
  split at parsed
  · cases parsed
  · rename_i state rest done
    cases parsed
    obtain ⟨used, split⟩ := suffix done
    have count : b.readable.length - rest.length = used.length := by
      rw [split, List.length_append]
      omega
    have read : used ++ rest = (contents b).take b.readCount := split ▸ readable_eq b
    have short : used.length ≤ b.readCount := by
      have length := congrArg List.length read
      rw [List.length_append, List.length_take] at length
      omega
    have front : (contents b).take used.length = used := by
      have cut := congrArg (List.take used.length) read
      rw [List.take_left, List.take_take, Nat.min_eq_left short] at cut
      exact cut.symm
    refine ⟨used, rest, by rw [← split]; exact done, ?_, didRead_capacity b _ _⟩
    rw [contents_didRead, count]
    exact ((List.take_append_drop used.length (contents b)).symm.trans (by rw [front]))

end Crablib.ArrivalProofs
