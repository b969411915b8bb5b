import Crablib.SocketProofs
import Crablib.Http.WebReader

/-! How received bytes reach a parser. `ready` is what the socket would return
if it were read now; filling the empty read buffer takes a prefix of it, and a
parser sees the whole buffer, because a buffer that is only filled when empty
never wraps. -/
namespace Crablib.InboundProofs
open StreamsProofs SocketProofs
open Http (queued)

/-- The bytes in front of the end of the stream. -/
def lead : List Arrival → Bytes
  | .data first rest :: later => first :: rest ++ lead later
  | _ => []

/-- What reading the socket would return. -/
def readyTcp (s : TcpSocket) : Bytes := if s.fdValid && s.canRead then lead s.descriptor.incoming else []

def ready (s : BufferedTcpSocket) : Bytes := if s.writeShutdownAsked then [] else readyTcp s.sock

theorem readyTcp_of_refused {s : TcpSocket} (refused : (!s.fdValid || !s.canRead) = true) :
    readyTcp s = [] := by
  simp only [Bool.or_eq_true, Bool.not_eq_true'] at refused
  rcases refused with invalid | unreadable
  · simp [readyTcp, invalid]
  · simp [readyTcp, unreadable]

theorem lead_afterRecv (segment : Bytes) (count : Nat) (later : List Arrival) :
    segment.take count ++ lead (TcpSocket.afterRecv segment count later) = segment ++ lead later := by
  unfold TcpSocket.afterRecv
  split
  · rename_i none
    rw [List.take_of_length_le (List.drop_eq_nil_iff.mp none)]
  · rename_i first rest some
    simp only [lead]
    rw [← List.append_assoc, ← some, List.take_append_drop]

/-- `recv` takes a prefix of what is ready, and nothing only if nothing is. -/
theorem readSome_ready (s : TcpSocket) (count : Nat) (positive : 0 < count) :
    readyTcp s = (s.readSome count).1 ++ readyTcp (s.readSome count).2 ∧
      ((s.readSome count).1 = [] → readyTcp (s.readSome count).2 = []) := by
  unfold TcpSocket.readSome
  split
  · rename_i refused
    have nothing := readyTcp_of_refused refused
    exact ⟨by simp [nothing], fun _ => nothing⟩
  · rename_i open_
    have readable : s.fdValid = true ∧ s.canRead = true := by simpa using open_
    split
    · omega
    · split
      · rename_i none
        simp [readyTcp, none, lead]
      · rename_i ended
        simp [readyTcp, ended, lead, close_fdValid]
      · rename_i broken
        simp [readyTcp, broken, lead, close_fdValid]
      · rename_i first rest later some
        constructor
        · simp only [readyTcp, readable, Bool.and_self, ↓reduceIte, some]
          exact (lead_afterRecv (first :: rest) count later).symm
        · intro nothing
          have := congrArg List.length nothing
          simp only [List.length_take, List.length_cons, List.length_nil] at this
          omega

/-- The effect of reading on a buffered socket: nothing on its writing side. -/
structure Quiet (s t : BufferedTcpSocket) : Prop where
  received : Received s.sock t.sock
  pieces : t.dataToWrite = s.dataToWrite
  total : t.totalDataToWrite = s.totalDataToWrite
  asked : t.writeShutdownAsked = s.writeShutdownAsked
  timer : t.shutdownTimer = s.shutdownTimer

theorem Quiet.refl (s : BufferedTcpSocket) : Quiet s s := ⟨Received.refl s.sock, rfl, rfl, rfl, rfl⟩

theorem Quiet.trans {s t u : BufferedTcpSocket} (first : Quiet s t)
    (second : Quiet t u) : Quiet s u where
  received := first.received.trans second.received
  pieces := second.pieces.trans first.pieces
  total := second.total.trans first.total
  asked := second.asked.trans first.asked
  timer := second.timer.trans first.timer

theorem Quiet.stream {s t : BufferedTcpSocket} (quiet : Quiet s t) : stream t = stream s := by
  simp [SocketProofs.stream, quiet.pieces, quiet.received.sent]

theorem Quiet.isOpen {s t : BufferedTcpSocket} (quiet : Quiet s t) : t.isOpen = s.isOpen :=
  quiet.received.isOpen

theorem Quiet.extends_ {s t : BufferedTcpSocket} (quiet : Quiet s t) :
    Accounted s.totalDataToWrite s.dataToWrite → Accounted t.totalDataToWrite t.dataToWrite := by
  rw [quiet.pieces, quiet.total]
  exact id

theorem readSome_quiet (s : BufferedTcpSocket) (count : Nat) : Quiet s (s.readSome count).2 := by
  unfold BufferedTcpSocket.readSome
  split
  · exact Quiet.refl s
  · exact ⟨readSome_received s.sock count, rfl, rfl, rfl, rfl⟩

theorem reads_quiet {s t : BufferedTcpSocket} {got : Bytes}
    (reads : Reads BufferedTcpSocket.istream s got t) :
    Quiet s t := by
  induction reads with
  | refl s => exact Quiet.refl s
  | step count _ _ ih => exact (readSome_quiet _ count).trans ih

/-- What one read into a buffer does to the socket. -/
theorem readFrom_quiet (b : Buffer) (s : BufferedTcpSocket) :
    Quiet s (b.readFrom BufferedTcpSocket.istream s).2.2 := by
  obtain ⟨got, filled⟩ := readFrom_filled BufferedTcpSocket.istream b s
  exact reads_quiet filled.reads

theorem buffered_readSome_ready (s : BufferedTcpSocket) (count : Nat) (positive : 0 < count) :
    ready s = (s.readSome count).1 ++ ready (s.readSome count).2 ∧
      ((s.readSome count).1 = [] → ready (s.readSome count).2 = []) := by
  unfold BufferedTcpSocket.readSome
  split
  · rename_i asked
    simp [ready, asked]
  · rename_i unasked
    simpa [ready, unasked] using readSome_ready s.sock count positive

/-- A buffer that is only filled when empty. -/
structure Linear (b : Buffer) : Prop where
  low : b.writePos ≤ b.capacity
  rewound : b.size = 0 → b.readPos = 0

theorem linear_clear (b : Buffer) : Linear b.clear := ⟨Nat.zero_le _, fun _ => rfl⟩

theorem linear_readable {b : Buffer} (linear : Linear b) : b.readable = contents b := by
  have ordered := b.ordered
  have bounded := b.bounded
  have low := linear.low
  rw [readable_eq, List.take_of_length_le]
  rw [contents_length]
  unfold Buffer.size Buffer.readCount
  split <;> omega

theorem linear_didRead {b : Buffer} (linear : Linear b) (count : Nat)
    (available : b.readPos + count ≤ b.writePos) : Linear (b.didRead count available) := by
  have low := linear.low
  unfold Buffer.didRead
  split
  · exact linear_clear b
  · rename_i more
    refine ⟨?_, ?_⟩
    · show b.writePos - b.wrapped count ≤ b.capacity
      omega
    · intro none
      simp only [Buffer.size] at none
      omega

/-- A chain of reads takes what is ready off the front. -/
private theorem reads_ready {s t : BufferedTcpSocket} {got : Bytes}
    (reads : Reads BufferedTcpSocket.istream s got t) :
    ready s = got ++ ready t := by
  induction reads with
  | refl s => rfl
  | step count positive _ ih =>
    rw [(buffered_readSome_ready _ count positive).1, List.append_assoc, ← ih]; rfl

/-- What the first line of the loop of `advance_state` does to an empty buffer:
it takes a prefix of what is ready, all of it or as much as fits. -/
theorem readFrom_spec {b : Buffer} (linear : Linear b) (empty : contents b = [])
    (s : BufferedTcpSocket) :
    let got := b.readFrom BufferedTcpSocket.istream s
    Linear got.2.1 ∧ got.2.1.capacity = b.capacity ∧ got.1 = (contents got.2.1).length ∧
      Quiet s got.2.2 ∧ ready s = contents got.2.1 ++ ready got.2.2 ∧
      ((contents got.2.1).length = b.capacity ∨ ready got.2.2 = []) := by
  have none : b.size = 0 := by rw [← contents_length, empty, List.length_nil]
  obtain ⟨got, filled⟩ := readFrom_filled BufferedTcpSocket.istream b s
  have start := filled.readPos.trans (linear.rewound none)
  have same : contents (b.readFrom BufferedTcpSocket.istream s).2.1 = got := by
    rw [filled.contents, empty, List.nil_append]
  have bounded := (b.readFrom BufferedTcpSocket.istream s).2.1.bounded
  rw [start, filled.capacity] at bounded
  refine ⟨⟨?_, fun _ => start⟩, filled.capacity, ?_, reads_quiet filled.reads, ?_,
    filled.stops.imp_right ?_⟩
  · rw [filled.capacity]
    omega
  · rw [filled.count, same]
  · rw [same]
    exact reads_ready filled.reads
  · rintro ⟨before, count, positive, dry⟩
    have none := (buffered_readSome_ready before count positive).2
    rw [show before.readSome count = ([], _) from dry] at none
    exact none rfl

/-- `parse(Buffer &)` parses the whole contents and keeps what is left. -/
theorem parseWith_spec {ε σ : Type} {p : Bytes → Except ε (σ × Bytes)}
    (suffix : ∀ {bytes rest : Bytes} {s : σ}, p bytes = .ok (s, rest) → ∃ used, bytes = used ++ rest)
    {b : Buffer} (linear : Linear b) :
    match p (contents b) with
    | .error e => b.parseWith p = .error e
    | .ok (s, rest) =>
      ∃ after, b.parseWith p = .ok (s, after) ∧ contents after = rest ∧ Linear after ∧
        after.capacity = b.capacity := by
  unfold Buffer.parseWith
  have whole := linear_readable linear
  rw [← whole]
  cases parsed : p b.readable with
  | error e => rfl
  | ok result =>
    obtain ⟨s, rest⟩ := result
    obtain ⟨used, split⟩ := suffix parsed
    refine ⟨_, rfl, ?_, linear_didRead linear _ _, didRead_capacity b _ _⟩
    rw [contents_didRead, ← whole, split, List.length_append, Nat.add_sub_cancel, List.drop_left]

end Crablib.InboundProofs
