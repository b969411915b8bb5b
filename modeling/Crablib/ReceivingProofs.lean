import Crablib.FrameProofs

/-! Receiving frames. A socket flows when it takes all that is written to it and
all that has arrived was reported; a reader owes frames when the bytes to come
are the rest of the one it is inside, and the others. Reading what has arrived
keeps both, whichever way the bytes were cut. -/
namespace Crablib.ReceivingProofs
open Http StreamsProofs SocketProofs InboundProofs FrameProofs

section Sockets
open BufferedTcpSocket

/-- The kernel accepts everything that is written. -/
structure Accepting (s : TcpSocket) : Prop where
  valid : s.fdValid = true
  writable : s.canWrite = true
  sends : s.descriptor.sends = []

/-- A socket with nothing left to write, and nothing to read but data. -/
structure Flowing (s : BufferedTcpSocket) : Prop where
  accepting : Accepting s.sock
  flushed : s.dataToWrite = []
  total : s.totalDataToWrite = 0
  unasked : s.writeShutdownAsked = false
  data : ∀ arrival ∈ s.sock.descriptor.incoming, ∃ first rest, arrival = .data first rest
  reported : s.sock.canRead = false → s.sock.descriptor.incoming = []

variable {s : BufferedTcpSocket}

theorem Flowing.isOpen (flowing : Flowing s) : s.isOpen = true := by
  simp [BufferedTcpSocket.isOpen, TcpSocket.isOpen, flowing.accepting.valid]

theorem Flowing.ready (flowing : Flowing s) : ready s = lead s.sock.descriptor.incoming := by
  cases readable : s.sock.canRead with
  | true => simp [InboundProofs.ready, readyTcp, flowing.unasked, flowing.accepting.valid, readable]
  | false =>
    simp [InboundProofs.ready, readyTcp, flowing.unasked, readable, flowing.reported readable, lead]

private theorem writeSome_accepting {t : TcpSocket} (accepting : Accepting t) (val : Bytes) :
    Accepting (t.writeSome val).2 := by
  have open_ : (!t.fdValid || !t.canWrite) = false := by simp [accepting.valid, accepting.writable]
  simp only [TcpSocket.writeSome, open_, Bool.false_eq_true, ↓reduceIte, accepting.sends]
  exact ⟨accepting.valid, accepting.writable, by simp [TcpSocket.afterSend, accepting.sends]⟩

private theorem drain_accepting {t : TcpSocket} (accepting : Accepting t) (total : Nat)
    (pieces : List StringStream) :
    Accepting (drain t total pieces).2.2 := by
  induction pieces generalizing t total with
  | nil => exact accepting
  | cons front later ih =>
    have after : Accepting (front.writeTo TcpSocket.ostream t).2.2 :=
      (writeTo_delivers TcpSocket.ostream front t).taken.preserves (fun _ val held =>
        writeSome_accepting held val) accepting
    simp only [drain]
    split
    · exact ih after _
    · exact after

/-- What is written while the kernel accepts everything is sent at once. -/
theorem flush_accepting (accepting : Accepting s.sock) (unasked : s.writeShutdownAsked = false)
    (accounted : Accounted s.totalDataToWrite s.dataToWrite) :
    Accepting s.flush.sock ∧ s.flush.dataToWrite = [] ∧ s.flush.totalDataToWrite = 0 := by
  have drained := drain_spec s.sock s.totalDataToWrite s.dataToWrite
  have after := drain_accepting accepting s.totalDataToWrite s.dataToWrite
  have empty : (drain s.sock s.totalDataToWrite s.dataToWrite).1 = [] := by
    by_cases none : (drain s.sock s.totalDataToWrite s.dataToWrite).1 = []
    · exact none
    · exact absurd ⟨after.valid, after.writable⟩ (drained.stopped none)
  have counted := (drained.accounted accounted).total
  rw [empty] at counted
  simp only [flush, unasked, Bool.false_and, Bool.false_eq_true, ↓reduceIte]
  exact ⟨after, empty, by simpa using counted⟩

/-- A header and a body written to a socket that flows. -/
theorem Flowing.writes (flowing : Flowing s) (header body : Bytes) :
    let t := (s.buffer header).writeString body .write
    Flowing t ∧ InboundProofs.ready t = InboundProofs.ready s ∧
    SocketProofs.stream t = SocketProofs.stream s ++ (header ++ body) ∧
      t.sock.pending = s.sock.pending := by
  intro t
  have opened := flowing.isOpen
  have first := buffer_extends s header
  have second := writeString_extends (s.buffer header) body .write
  rw [first.takes, takes_of_open opened flowing.unasked] at second
  rw [takes_of_open opened flowing.unasked] at first
  have both : Extends s t (header ++ body) := first.trans second
  have start : Accounted s.totalDataToWrite s.dataToWrite := by
    rw [flowing.flushed, flowing.total]
    exact ⟨rfl, by simp⟩
  have buffered : Extends s ((s.buffer header).buffer body) (header ++ body) := by
    have more := buffer_extends (s.buffer header) body
    rw [first.takes, takes_of_open opened flowing.unasked] at more
    exact first.trans more
  have sock : ((s.buffer header).buffer body).sock = s.sock := by
    unfold BufferedTcpSocket.buffer
    split <;> split <;> rfl
  obtain ⟨accepting, flushed, total⟩ := flush_accepting (s := (s.buffer header).buffer body)
    (sock ▸ flowing.accepting) (buffered.asked.trans flowing.unasked) (buffered.accounted start)
  obtain ⟨-, pending, canRead⟩ := both.valid accepting.valid
  have flowing' : Flowing t :=
    ⟨accepting, flushed, total, both.asked.trans flowing.unasked,
        both.incoming ▸ flowing.data, fun unreadable =>
      both.incoming.trans (flowing.reported (canRead.symm.trans unreadable))⟩
  exact ⟨flowing', by rw [flowing'.ready, flowing.ready, both.incoming], both.stream, pending⟩

private theorem afterRecv_data {first : UInt8} {rest : Bytes} {later : List Arrival}
    (data : ∀ arrival ∈ later, ∃ first rest, arrival = .data first rest) (count : Nat) :
    ∀ arrival ∈ TcpSocket.afterRecv (first :: rest) count later, ∃ first rest,
      arrival = .data first rest := by
  unfold TcpSocket.afterRecv
  split
  · exact data
  · intro arrival member
    rcases List.mem_cons.mp member with rfl | old
    · exact ⟨_, _, rfl⟩
    · exact data arrival old

/-- How a read can go where there is only data. -/
private theorem readSome_cases {t : TcpSocket} (valid : t.fdValid = true)
    (data : ∀ arrival ∈ t.descriptor.incoming, ∃ first rest, arrival = .data first rest)
    {count : Nat} (positive : 0 < count) :
    (t.readSome count).2 = t ∨
    (t.descriptor.incoming = [] ∧ (t.readSome count).2 = { t with canRead := false }) ∨
    ∃ first rest later, t.descriptor.incoming = .data first rest :: later ∧ t.canRead = true ∧
      (t.readSome count).2 = { t with
        descriptor.incoming := TcpSocket.afterRecv (first :: rest) count later } := by
  unfold TcpSocket.readSome
  split
  · exact .inl rfl
  · rename_i readable
    split
    · omega
    · split
      · rename_i none
        exact .inr (.inl ⟨none, rfl⟩)
      · rename_i later some_
        obtain ⟨first, rest, impossible⟩ := data .fin (by simp [some_])
        cases impossible
      · rename_i later some_
        obtain ⟨first, rest, impossible⟩ := data .reset (by simp [some_])
        cases impossible
      · rename_i first rest later some_
        exact .inr (.inr ⟨first, rest, later, some_, by simpa [valid] using readable, rfl⟩)

/-- Reading where there is only data leaves the descriptor valid and only data. -/
theorem readSome_data {t : TcpSocket} (valid : t.fdValid = true)
    (data : ∀ arrival ∈ t.descriptor.incoming, ∃ first rest, arrival = .data first rest)
    {count : Nat} (positive : 0 < count) :
    (t.readSome count).2.fdValid = true ∧
      ∀ arrival ∈ (t.readSome count).2.descriptor.incoming, ∃ first rest,
      arrival = .data first rest := by
  obtain same | ⟨none, same⟩ | ⟨first, rest, later, some_, -, same⟩ := readSome_cases valid data positive
  · rw [same]
    exact ⟨valid, data⟩
  · rw [same]
    exact ⟨valid, data⟩
  · rw [same]
    exact ⟨valid, afterRecv_data (fun arrival member => data arrival (by simp [some_, member])) count⟩

private theorem readSome_flowing (flowing : Flowing s) {count : Nat} (positive : 0 < count) :
    Flowing (s.readSome count).2 := by
  have read := readSome_data flowing.accepting.valid flowing.data positive
  unfold BufferedTcpSocket.readSome
  split
  · exact flowing
  · obtain same | ⟨none, same⟩ | ⟨first, rest, later, some_, readable, same⟩ :=
      readSome_cases flowing.accepting.valid flowing.data positive
    · simp only [same]
      exact flowing
    · simp only [same]
      exact { flowing with accepting := { flowing.accepting with }, reported := fun _ => none }
    · simp only [same] at read ⊢
      refine { flowing with accepting := { flowing.accepting with }, data := read.2,
                            reported := fun unreadable => ?_ }
      have unreadable' : s.sock.canRead = false := unreadable
      simp [unreadable'] at readable

/-- Filling an empty buffer from a socket that flows. -/
theorem fill_flowing {b : Buffer} (flowing : Flowing s) (linear : Linear b) (room : 0 < b.capacity)
    (empty : contents b = []) :
    let got := b.readFrom BufferedTcpSocket.istream s
    Flowing got.2.2 ∧ Linear got.2.1 ∧ got.2.1.capacity = b.capacity ∧
      ready s = contents got.2.1 ++ ready got.2.2 ∧ (got.1 = 0 ↔ contents got.2.1 = []) ∧
      (contents got.2.1 = [] → ready got.2.2 = []) ∧
      SocketProofs.stream got.2.2 = SocketProofs.stream s ∧
      got.2.2.sock.pending = s.sock.pending := by
  intro got
  obtain ⟨linear', capacity, count, quiet, split, ended⟩ := readFrom_spec linear empty s
  have flowing' : Flowing got.2.2 := by
    obtain ⟨_, filled⟩ := readFrom_filled BufferedTcpSocket.istream b s
    exact filled.reads.preserves (fun _ _ positive held => readSome_flowing held positive) flowing
  refine ⟨flowing', linear', capacity, split, by rw [count]; exact List.length_eq_zero_iff,
    fun none => ?_, quiet.stream, (quiet.received.valid flowing'.accepting.valid).2.1⟩
  rcases ended with full | done
  · rw [none] at full
    simp only [List.length_nil] at full
    omega
  · exact done

end Sockets

section Frames

/-- The header parser refuses the first of these bytes, if there is one. -/
def Refused (tail : Bytes) : Prop :=
  ∀ first later, tail = first :: later → ∃ e, WebMessageHeaderParser.consume {} first = .error e

/-- The reader between or inside frames, with the bytes to come: the rest of the
frame it is inside, the other frames and a tail. -/
inductive Owes (tail : Bytes) : List Frame → WebState → WebReader → Bytes → Prop where
  | idle {w : WebReader} (fresh : w.wmHeaderParser = {}) : Owes tail [] .header w tail
  | inside {f : Frame} {frames : List Frame} {state : WebState} {w : WebReader} {rest : Bytes}
      (inside : Inside f state w rest) :
      Owes tail (f :: frames) state w (rest ++ (frames.flatMap Frame.bytes ++ tail))

variable {tail : Bytes} {frames : List Frame} {state : WebState} {w : WebReader} {b : Buffer}

theorem owes_start (frames : List Frame) (fresh : w.wmHeaderParser = {}) :
    Owes tail frames .header w (frames.flatMap Frame.bytes ++ tail) := by
  cases frames with
  | nil => exact .idle fresh
  | cons f frames =>
    rw [List.flatMap_cons, List.append_assoc]
    exact .inside (inside_start f fresh)

theorem Owes.unready {bytes : Bytes} (owes : Owes tail frames state w bytes) : state ≠ .ready := by
  cases owes with
  | idle fresh => simp
  | inside inside => cases inside <;> simp

/-- Nothing is to come: there was no other frame. -/
theorem Owes.done (owes : Owes tail frames state w []) : frames = [] ∧ tail = [] := by
  generalize none : ([] : Bytes) = bytes at owes
  cases owes with
  | idle fresh => exact ⟨rfl, rfl⟩
  | inside inside => simp [inside.ne_nil] at none

/-- A header that is refused leaves the reader as it was. -/
private theorem readHeader_refused {first : UInt8} {later : Bytes} {e : Error} (linear : Linear b)
    (holds : contents b = first :: later) (fresh : w.wmHeaderParser = {})
    (refused : WebMessageHeaderParser.consume {} first = .error e) :
    w.readHeader b = (.fail e, .header, w, b) := by
  have spec := parseWith_spec (p := w.wmHeaderParser.parse) Scanner.rest_suffix linear
  have scanned : w.wmHeaderParser.parse (first :: later) = .error e := by
    rw [fresh]
    exact Scanner.scan_fail rfl refused later
  rw [holds, scanned] at spec
  simp only [WebReader.readHeader, spec]

/-- One pass over a part of the bytes to come: it ends inside a frame, at the end
of one, or at the refused tail. -/
theorem Owes.read {part rest : Bytes} (owes : Owes tail frames state w (part ++ rest))
    (refused : Refused tail) (some_ : part ≠ []) (linear : Linear b) (held : contents b = part) :
    (∃ state' w' after, w.read state b = (.nothing, state', w', after) ∧
      contents after = [] ∧ Linear after ∧
      after.capacity = b.capacity ∧ Owes tail frames state' w' rest ∧ w'.webMessage = w.webMessage) ∨
    (∃ f later extra after, frames = f :: later ∧
      w.read state b = ((f.complete w).onChunk.1, (f.complete w).onChunk.2.1,
        (f.complete w).onChunk.2.2, after) ∧
      contents after = extra ∧ Linear after ∧ after.capacity = b.capacity ∧
      extra ++ rest = later.flatMap Frame.bytes ++ tail ∧ extra.length < part.length) ∨
    ∃ e, frames = [] ∧ tail ≠ [] ∧ state = .header ∧ w.read state b = (.fail e, .header, w, b) := by
  generalize whole : part ++ rest = bytes at owes
  cases owes with
  | idle fresh =>
    obtain ⟨first, later, rfl⟩ := List.exists_cons_of_ne_nil some_
    obtain ⟨e, refused⟩ := refused first (later ++ rest) whole.symm
    exact .inr (.inr ⟨e, rfl, by simp [← whole], rfl, readHeader_refused linear held fresh refused⟩)
  | inside inside =>
    rename_i f later mid
    obtain ⟨mid, more, rfl, rfl⟩ | ⟨mid, rfl, cut⟩ := cut_cases whole
    · obtain ⟨state', w', after, read, none, linear', capacity, inside', same⟩ :=
        read_part inside more linear held
      exact .inl ⟨state', w', after, read, none, linear', capacity, .inside inside', same⟩
    · obtain ⟨after, left, linear', capacity, read⟩ := read_whole inside linear held
      have := List.length_pos_iff.mpr inside.ne_nil
      exact .inr (.inl ⟨f, later, mid, after, rfl, read, left, linear', capacity,
        cut.symm, by simp; omega⟩)

end Frames

end Crablib.ReceivingProofs
