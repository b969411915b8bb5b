import Crablib.Library.Run
import Crablib.SocketProofs

/-! Runs of a buffered socket: any calls of its user, any answers of the kernel
and any events, in any order. No byte handed in is lost or moved, and the
conditions are found under which the final FIN is never lost. -/
namespace Crablib.SocketRunProofs
open BufferedTcpSocket SocketProofs StreamsProofs

/-- What can happen to an open socket. The first group are calls of the user,
the rest are the peer, the kernel and the run loop. -/
inductive SocketOp where
  | buffer (val : Bytes)
  | bufferString (ss : Bytes)
  | write (val : Bytes) (bo : BufferOptions)
  | writeString (ss : Bytes) (bo : BufferOptions)
  | writeSome (val : Bytes)
  | writeShutdown
  | readSome (count : Nat)
  | arrive (arrivals : List Arrival)
  | plan (sends : List SendResult)
  | notify (canRead canWrite : Bool)
  | dispatch
  | shutdownTimer
  deriving DecidableEq

/-- The socket after the run loop took its callable off the list. -/
def unlinked (s : BufferedTcpSocket) : BufferedTcpSocket := { s with sock.pending := false }

/-- The run loop takes a pending callable off its list and calls it. -/
def dispatch (s : BufferedTcpSocket) : BufferedTcpSocket :=
  if s.sock.pending then (unlinked s).sockHandler else s

def perform (s : BufferedTcpSocket) : SocketOp → BufferedTcpSocket
  | .buffer val => s.buffer val
  | .bufferString ss => s.bufferString ss
  | .write val bo => s.write val bo
  | .writeString ss bo => s.writeString ss bo
  | .writeSome val => (s.writeSome val).2
  | .writeShutdown => s.writeShutdown
  | .readSome count => (s.readSome count).2
  | .arrive arrivals => { s with sock := s.sock.arrive arrivals }
  | .plan sends => { s with sock := s.sock.plan sends }
  | .notify canRead canWrite => { s with sock := s.sock.notify canRead canWrite }
  | .dispatch => dispatch s
  | .shutdownTimer => if s.shutdownTimer then s.shutdownTimerHandler else s

/-- The data an operation hands in; of a `write_some` only the accepted part. -/
def handed (s : BufferedTcpSocket) : SocketOp → Bytes
  | .buffer val => val
  | .bufferString ss => ss
  | .write val _ => val
  | .writeString ss _ => ss
  | .writeSome val => val.take (s.writeSome val).1
  | _ => []

/-- A socket together with everything its user handed in. -/
structure Ledger where
  socket : BufferedTcpSocket
  handed : Bytes := []

def record (l : Ledger) (op : SocketOp) : Ledger :=
  ⟨perform l.socket op, l.handed ++ handed l.socket op⟩

/-- A socket just connected or accepted, whatever its readiness flags are. -/
structure Fresh (s : BufferedTcpSocket) : Prop where
  valid : s.sock.fdValid = true
  nothing : s.dataToWrite = []
  zero : s.totalDataToWrite = 0
  unasked : s.writeShutdownAsked = false
  unsent : s.sock.descriptor.sent = []
  noFin : s.sock.descriptor.finAt = []

theorem accept_fresh (s : BufferedTcpSocket) {t : BufferedTcpSocket}
    (accepted : (s.close false).accept .ready = .ok t) : Fresh t := by
  simp only [BufferedTcpSocket.accept, TcpSocket.accept, bind, Except.bind, pure,
    Except.pure] at accepted
  cases accepted
  exact ⟨rfl, rfl, rfl, rfl, rfl, rfl⟩

theorem connect_fresh (s : BufferedTcpSocket) (result : ConnectResult)
    (connected : ((s.close false).connect result).1 = true) :
    Fresh ((s.close false).connect result).2 := by
  cases result with
  | failed => simp [BufferedTcpSocket.connect, TcpSocket.connect] at connected
  | inProgress => exact ⟨rfl, rfl, rfl, rfl, rfl, rfl⟩
  | immediate => exact ⟨rfl, rfl, rfl, rfl, rfl, rfl⟩

/-- The accounting of a ledger: while the socket is open for writing, what it
accepted and what it buffers is what was handed in. -/
structure Balanced (l : Ledger) : Prop where
  accounted : Accounted l.socket.totalDataToWrite l.socket.dataToWrite
  whole : l.socket.isOpen = true → l.socket.writeShutdownAsked = false → stream l.socket = l.handed

theorem fresh_balanced {s : BufferedTcpSocket} (fresh : Fresh s) : Balanced ⟨s, []⟩ := by
  refine ⟨⟨by simp [fresh.zero, fresh.nothing], by simp [fresh.nothing]⟩, fun _ _ => ?_⟩
  simp [stream, fresh.nothing, fresh.unsent]

/-- Operations that extend the stream by what they take keep the balance. -/
private theorem balanced_of_extends {l : Ledger} {t : BufferedTcpSocket} {bytes val : Bytes}
    (balanced : Balanced l) (extends_ : Extends l.socket t bytes)
    (same : l.socket.isOpen = true → l.socket.writeShutdownAsked = false → bytes = val) :
    Balanced ⟨t, l.handed ++ val⟩ := by
  refine ⟨extends_.accounted balanced.accounted, fun opened unasked => ?_⟩
  rw [extends_.isOpen] at opened
  rw [extends_.asked] at unasked
  rw [extends_.stream, balanced.whole opened unasked, same opened unasked]

private theorem balanced_of_takes {l : Ledger} {t : BufferedTcpSocket} {val : Bytes}
    (balanced : Balanced l) (extends_ : Extends l.socket t (takes l.socket val)) :
    Balanced ⟨t, l.handed ++ val⟩ :=
  balanced_of_extends balanced extends_ fun opened unasked => takes_of_open opened unasked val

/-- Steps that touch neither the accepted nor the buffered bytes. -/
private theorem balanced_of_same {l : Ledger} {t : BufferedTcpSocket} (balanced : Balanced l)
    (pieces : t.dataToWrite = l.socket.dataToWrite)
    (total : t.totalDataToWrite = l.socket.totalDataToWrite)
    (sent : t.sock.descriptor.sent = l.socket.sock.descriptor.sent)
    (opened : t.isOpen = true → l.socket.isOpen = true)
    (asked : t.writeShutdownAsked = false → l.socket.writeShutdownAsked = false) :
    Balanced ⟨t, l.handed⟩ := by
  refine ⟨by simpa only [pieces, total] using balanced.accounted, fun opened' unasked => ?_⟩
  rw [← balanced.whole (opened opened') (asked unasked)]
  simp [stream, pieces, sent]

private theorem balanced_of_received {l : Ledger} {sock : TcpSocket} (balanced : Balanced l)
    (received : Received l.socket.sock sock) : Balanced ⟨{ l.socket with sock := sock }, l.handed⟩ := by
  refine balanced_of_same balanced rfl rfl received.sent (fun opened => ?_) id
  simpa [BufferedTcpSocket.isOpen, received.isOpen] using opened

private theorem balanced_of_closed (handed : Bytes) (s : BufferedTcpSocket) :
    Balanced ⟨s.close false, handed⟩ := by
  refine ⟨⟨rfl, by simp [BufferedTcpSocket.close]⟩, fun opened => ?_⟩
  simp [BufferedTcpSocket.isOpen, BufferedTcpSocket.close, close_isOpen_false] at opened

private theorem dispatch_balanced {l : Ledger} (balanced : Balanced l) :
    Balanced ⟨dispatch l.socket, l.handed⟩ := by
  unfold dispatch
  split
  · have off : Balanced ⟨unlinked l.socket, l.handed⟩ := by
      refine balanced_of_same balanced rfl rfl rfl (fun opened => ?_) id
      simp only [unlinked, BufferedTcpSocket.isOpen, TcpSocket.isOpen, Bool.or_false] at opened ⊢
      simp [opened]
    simp only [sockHandler]
    split
    · have flushed : Balanced ⟨(unlinked l.socket).flush, l.handed⟩ := by
        simpa using balanced_of_extends off (flush_extends _) (fun _ _ => rfl)
      split
      · exact balanced_of_received flushed (readSome_received _ 4096)
      · exact flushed
    · exact balanced_of_closed l.handed _
  · exact balanced

/-- One operation keeps the balance. -/
theorem record_balanced (l : Ledger) (op : SocketOp) (balanced : Balanced l) :
    Balanced (record l op) := by
  cases op with
  | buffer val => exact balanced_of_takes balanced (buffer_extends _ val)
  | bufferString ss => exact balanced_of_takes balanced (buffer_extends _ ss)
  | write val bo => exact balanced_of_takes balanced (write_extends _ val bo)
  | writeString ss bo => exact balanced_of_takes balanced (writeString_extends _ ss bo)
  | writeSome val => exact balanced_of_extends balanced (writeSome_extends _ val) fun _ _ => rfl
  | writeShutdown =>
    simp only [record, perform, handed, List.append_nil, BufferedTcpSocket.writeShutdown]
    split
    · exact balanced
    · have asked : Balanced ⟨{ l.socket with writeShutdownAsked := true }, l.handed⟩ :=
        balanced_of_same balanced rfl rfl rfl id (by simp)
      split
      · simpa using balanced_of_extends asked (shutdownNow_extends _) (fun _ _ => rfl)
      · exact asked
  | readSome count =>
    simp only [record, perform, handed, List.append_nil, BufferedTcpSocket.readSome]
    split
    · exact balanced
    · exact balanced_of_received balanced (readSome_received _ count)
  | arrive arrivals =>
    simp only [record, perform, handed, List.append_nil, TcpSocket.arrive]
    split
    · exact balanced_of_same balanced rfl rfl rfl id id
    · exact balanced
  | plan sends =>
    simp only [record, perform, handed, List.append_nil]
    exact balanced_of_same balanced rfl rfl rfl id id
  | notify canRead canWrite =>
    simp only [record, perform, handed, List.append_nil, TcpSocket.notify]
    split
    · rename_i valid
      refine balanced_of_same balanced rfl rfl rfl (fun _ => ?_) id
      simp [BufferedTcpSocket.isOpen, TcpSocket.isOpen, valid]
    · exact balanced
  | dispatch =>
    simp only [record, perform, handed, List.append_nil]
    exact dispatch_balanced balanced
  | shutdownTimer =>
    simp only [record, perform, handed, List.append_nil]
    split
    · exact balanced_of_closed l.handed _
    · exact balanced

/-- In every run of an open socket before the shutdown is asked, the bytes the
descriptor accepted and the buffered ones are together, in order, the data
handed in. The counter is the number of buffered bytes and no piece is empty. -/
theorem byte_stream_integrity {s : BufferedTcpSocket} (fresh : Fresh s) (ops : List SocketOp) :
    let l := Run.after record ⟨s, []⟩ ops
    (l.socket.isOpen = true → l.socket.writeShutdownAsked = false →
      l.socket.sock.descriptor.sent ++ l.socket.dataToWrite.flatMap StringStream.unread = l.handed) ∧
    l.socket.totalDataToWrite = (l.socket.dataToWrite.map StringStream.size).sum ∧
    ∀ piece ∈ l.socket.dataToWrite, piece.empty = false := by
  intro l
  have balanced : Balanced l := Run.invariant_of_keeps record_balanced (fresh_balanced fresh) ops
  refine ⟨balanced.whole, balanced.accounted.total, fun piece member => ?_⟩
  rw [Bool.eq_false_iff, ne_eq, stream_empty_iff]
  exact balanced.accounted.nonempty piece member

/-- A listening server's first socket, the state most runs start in. -/
def acceptedSocket : BufferedTcpSocket := { sock := { fdValid := true } }

theorem acceptedSocket_fresh : Fresh acceptedSocket := ⟨rfl, rfl, rfl, rfl, rfl, rfl⟩

/-- A partial write, a small piece joined to the partly sent tail, and a flush. -/
theorem byte_stream_integrity_partial :
    Fresh acceptedSocket ∧
      (Run.after record ⟨acceptedSocket, []⟩ [.notify false true, .plan [.accept 1, .again],
        .write (str "abcde") .write, .buffer (str "fg"), .notify false true,
        .dispatch]).handed = str "abcdefg" ∧
      (Run.after record ⟨acceptedSocket, []⟩ [.notify false true, .plan [.accept 1, .again],
        .write (str "abcde") .write, .buffer (str "fg"), .notify false true,
        .dispatch]).socket.totalDataToWrite = 0 :=
  ⟨acceptedSocket_fresh, by decide,
    (byte_stream_integrity acceptedSocket_fresh _).2.1.trans (by decide)⟩

/-- The FIN of a socket that was asked to shut down is not lost: it was sent,
once and after the last byte, or bytes are still buffered and the event that
will flush them is to come, from the kernel or already on the loop's list. -/
def FinKept (s : BufferedTcpSocket) : Prop :=
  s.writeShutdownAsked = true → s.sock.fdValid = true →
    s.dataToWrite = [] ∧ s.sock.descriptor.finAt = [s.sock.descriptor.sent.length] ∨
      s.dataToWrite ≠ [] ∧ (s.sock.canWrite = false ∨ s.sock.pending = true)

/-- The states in which asking for the shutdown leads to the FIN: with nothing
buffered the descriptor must be writable, otherwise an event must be awaited. -/
def ShutdownSafe (s : BufferedTcpSocket) : Prop :=
  s.sock.fdValid = true → s.writeShutdownAsked = false →
    s.dataToWrite = [] ∧ s.sock.canWrite = true ∨
      s.dataToWrite ≠ [] ∧ (s.sock.canWrite = false ∨ s.sock.pending = true)

def SafeStep (s : BufferedTcpSocket) : SocketOp → Prop
  | .writeShutdown => ShutdownSafe s
  | _ => True

/-- `FinKept` with what it needs to survive: no FIN goes out early. -/
structure FinInvariant (s : BufferedTcpSocket) : Prop where
  accounted : Accounted s.totalDataToWrite s.dataToWrite
  early : s.sock.fdValid = true → s.writeShutdownAsked = false → s.sock.descriptor.finAt = []
  kept : s.sock.fdValid = true → s.writeShutdownAsked = true →
    s.dataToWrite = [] ∧ s.sock.descriptor.finAt = [s.sock.descriptor.sent.length] ∨
      s.dataToWrite ≠ [] ∧ s.sock.descriptor.finAt = [] ∧
      (s.sock.canWrite = false ∨ s.sock.pending = true)

theorem FinInvariant.finKept {s : BufferedTcpSocket} (fin : FinInvariant s) : FinKept s := by
  intro asked valid
  rcases fin.kept valid asked with sent | ⟨left, -, event⟩
  · exact .inl sent
  · exact .inr ⟨left, event⟩

theorem fresh_fin {s : BufferedTcpSocket} (fresh : Fresh s) : FinInvariant s where
  accounted := (fresh_balanced fresh).accounted
  early := fun _ _ => fresh.noFin
  kept := fun _ asked => by simp [fresh.unasked] at asked

private theorem fin_of_invalid {s : BufferedTcpSocket}
    (accounted : Accounted s.totalDataToWrite s.dataToWrite)
    (invalid : s.sock.fdValid = false) : FinInvariant s :=
  ⟨accounted, fun valid => by simp [invalid] at valid, fun valid => by simp [invalid] at valid⟩

private theorem fin_of_closed (s : BufferedTcpSocket) : FinInvariant (s.close false) :=
  fin_of_invalid ⟨rfl, by simp [BufferedTcpSocket.close]⟩ (close_fdValid s.sock false)

/-- Before the shutdown is asked, it is enough that no FIN goes out. -/
private theorem fin_of_unasked {s t : BufferedTcpSocket} {bytes : Bytes} (fin : FinInvariant s)
    (unasked : s.writeShutdownAsked = false) (extends_ : Extends s t bytes)
    (finAt : t.sock.descriptor.finAt = s.sock.descriptor.finAt) : FinInvariant t where
  accounted := extends_.accounted fin.accounted
  early := fun valid _ => finAt.trans (fin.early (extends_.valid valid).1 unasked)
  kept := fun _ asked => by simp [extends_.asked, unasked] at asked

private theorem fin_of_received {s : BufferedTcpSocket} {sock : TcpSocket} (fin : FinInvariant s)
    (received : Received s.sock sock) : FinInvariant { s with sock := sock } where
  accounted := fin.accounted
  early := fun valid unasked => received.finAt.trans (fin.early (received.valid valid).1 unasked)
  kept := fun valid asked => by
    obtain ⟨valid', pending, canWrite⟩ := received.valid valid
    simpa only [received.finAt, received.sent, pending, canWrite] using fin.kept valid' asked

theorem flush_empty {s : BufferedTcpSocket} (nothing : s.dataToWrite = []) : s.flush = s := by
  cases s
  simp_all [flush, drain]

/-- Flushing a socket that is not to be shut down sends no FIN. -/
theorem flush_unasked {s : BufferedTcpSocket} (unasked : s.writeShutdownAsked = false) :
    s.flush.sock.descriptor.finAt = s.sock.descriptor.finAt := by
  obtain ⟨⟨bytes, wrote, -⟩, -, -, -⟩ := drain_spec s.sock s.totalDataToWrite s.dataToWrite
  simpa [flush, unasked] using wrote.finAt

/-- Flushing a socket that is to be shut down sends the FIN behind the last
byte, or stops because the descriptor takes no more. -/
theorem flush_asked {s : BufferedTcpSocket} (accounted : Accounted s.totalDataToWrite s.dataToWrite)
    (asked : s.writeShutdownAsked = true) (left : s.dataToWrite ≠ [])
    (noFin : s.sock.descriptor.finAt = []) (valid : s.flush.sock.fdValid = true) :
    s.flush.dataToWrite = [] ∧
        s.flush.sock.descriptor.finAt = [s.flush.sock.descriptor.sent.length] ∨
      s.flush.dataToWrite ≠ [] ∧ s.flush.sock.descriptor.finAt = [] ∧ s.flush.sock.canWrite = false := by
  obtain ⟨⟨bytes, wrote, -⟩, -, finished, stopped⟩ := drain_spec s.sock s.totalDataToWrite s.dataToWrite
  by_cases done : (drain s.sock s.totalDataToWrite s.dataToWrite).1 = []
  · obtain ⟨fdValid, canWrite⟩ := finished left done accounted.nonempty
    left
    simp [flush, asked, done, left, shutdownNow, TcpSocket.writeShutdown, fdValid,
      canWrite, wrote.finAt, noFin]
  · right
    have still : (drain s.sock s.totalDataToWrite s.dataToWrite).1.isEmpty = false := by
      simpa [List.isEmpty_eq_false_iff] using done
    simp only [flush, asked, still, Bool.and_false, Bool.false_and, Bool.false_eq_true,
      ↓reduceIte] at valid ⊢
    refine ⟨done, wrote.finAt.trans noFin, ?_⟩
    cases writable : (drain s.sock s.totalDataToWrite s.dataToWrite).2.2.canWrite with
    | false => rfl
    | true => exact absurd ⟨valid, writable⟩ (stopped done)

/-- A flush needs no awaited event: it establishes the invariant from less. -/
private theorem flush_fin {s : BufferedTcpSocket}
    (accounted : Accounted s.totalDataToWrite s.dataToWrite)
    (early : s.sock.fdValid = true → s.writeShutdownAsked = false → s.sock.descriptor.finAt = [])
    (kept : s.sock.fdValid = true → s.writeShutdownAsked = true →
      s.dataToWrite = [] ∧ s.sock.descriptor.finAt = [s.sock.descriptor.sent.length] ∨
        s.dataToWrite ≠ [] ∧ s.sock.descriptor.finAt = []) : FinInvariant s.flush := by
  have moved := flush_extends s
  refine ⟨moved.accounted accounted, fun valid unasked => ?_, fun valid asked => ?_⟩
  · rw [moved.asked] at unasked
    exact (flush_unasked unasked).trans (early (moved.valid valid).1 unasked)
  · rw [moved.asked] at asked
    rcases kept (moved.valid valid).1 asked with ⟨nothing, sent⟩ | ⟨left, noFin⟩
    · rw [flush_empty nothing]
      exact .inl ⟨nothing, sent⟩
    · rcases flush_asked accounted asked left noFin valid with sent | ⟨more, noFin', refused⟩
      · exact .inl sent
      · exact .inr ⟨more, noFin', .inl refused⟩

private theorem fin_flush {s : BufferedTcpSocket} (fin : FinInvariant s) : FinInvariant s.flush :=
  flush_fin fin.accounted fin.early fun valid asked =>
    (fin.kept valid asked).imp id fun ⟨left, noFin, _⟩ => ⟨left, noFin⟩

private theorem fin_dispatch {s : BufferedTcpSocket} (fin : FinInvariant s) :
    FinInvariant (dispatch s) := by
  unfold dispatch
  split
  · have flushed : FinInvariant (unlinked s).flush :=
      flush_fin fin.accounted fin.early fun valid asked =>
        (fin.kept valid asked).imp id fun ⟨left, noFin, _⟩ => ⟨left, noFin⟩
    simp only [sockHandler]
    split
    · split
      · exact fin_of_received flushed (readSome_received _ 4096)
      · exact flushed
    · exact fin_of_closed _
  · exact fin

private theorem fin_buffer {s : BufferedTcpSocket} (fin : FinInvariant s) (val : Bytes) :
    FinInvariant (s.buffer val) := by
  cases asked : s.writeShutdownAsked with
  | true => simpa [buffer, asked] using fin
  | false =>
    refine fin_of_unasked fin asked (buffer_extends s val) ?_
    unfold buffer
    split <;> rfl

private theorem fin_direct {s : BufferedTcpSocket} (fin : FinInvariant s)
    (asked : s.writeShutdownAsked = false) (val : Bytes) (empty : s.dataToWrite.isEmpty = true) :
    FinInvariant { s with sock := (s.sock.writeSome val).2 } :=
  fin_of_unasked fin asked (direct_extends s val empty) (writeSome_spec s.sock val).1.finAt

private theorem fin_write {s : BufferedTcpSocket} (fin : FinInvariant s) (val : Bytes)
    (bo : BufferOptions) :
    FinInvariant (s.write val bo) := by
  unfold BufferedTcpSocket.write
  split
  · exact fin_buffer fin val
  · split
    · exact fin
    · rename_i kept
      simp only [Bool.or_eq_true, Bool.not_eq_true', not_or, Bool.not_eq_false, Bool.not_eq_true] at kept
      split
      · rename_i empty
        exact fin_flush (fin_buffer (fin_direct fin kept.2 val empty) _)
      · exact fin_flush (fin_buffer fin val)

/-- The FIN that a `write_shutdown` on a valid descriptor sends at once. -/
private theorem writeShutdown_effect {s : BufferedTcpSocket} (valid : s.sock.fdValid = true)
    (unasked : s.writeShutdownAsked = false) :
    s.writeShutdown.writeShutdownAsked = true ∧ s.writeShutdown.sock.fdValid = true ∧
      s.writeShutdown.dataToWrite = s.dataToWrite ∧
      s.writeShutdown.totalDataToWrite = s.totalDataToWrite ∧
      s.writeShutdown.sock.pending = s.sock.pending ∧ s.writeShutdown.sock.canWrite = s.sock.canWrite ∧
      s.writeShutdown.sock.descriptor.sent = s.sock.descriptor.sent ∧
      s.writeShutdown.sock.descriptor.finAt =
        if s.dataToWrite = [] ∧ s.sock.canWrite = true then
          s.sock.descriptor.finAt ++ [s.sock.descriptor.sent.length]
        else s.sock.descriptor.finAt := by
  have opened : s.isOpen = true := by simp [BufferedTcpSocket.isOpen, TcpSocket.isOpen, valid]
  by_cases nothing : s.dataToWrite = [] <;> cases writable : s.sock.canWrite <;>
    simp [BufferedTcpSocket.writeShutdown, opened, unasked, nothing, shutdownNow,
      TcpSocket.writeShutdown, valid, writable]

private theorem writeShutdown_again {s : BufferedTcpSocket} (asked : s.writeShutdownAsked = true) :
    s.writeShutdown = s := by
  simp [BufferedTcpSocket.writeShutdown, asked]

private theorem writeShutdown_invalid {s : BufferedTcpSocket} (invalid : s.sock.fdValid = false) :
    s.writeShutdown.sock.fdValid = false ∧ s.writeShutdown.dataToWrite = s.dataToWrite ∧
      s.writeShutdown.totalDataToWrite = s.totalDataToWrite := by
  simp only [BufferedTcpSocket.writeShutdown]
  split
  · exact ⟨invalid, rfl, rfl⟩
  · split <;> simp [shutdownNow, TcpSocket.writeShutdown, invalid]

/-- Asking for the shutdown keeps the FIN exactly in the safe states. -/
theorem writeShutdown_finKept_iff {s : BufferedTcpSocket} (fin : FinInvariant s) :
    FinKept s.writeShutdown ↔ ShutdownSafe s := by
  cases asked : s.writeShutdownAsked with
  | true =>
    rw [writeShutdown_again asked]
    exact ⟨fun _ _ unasked => by simp [asked] at unasked, fun _ => fin.finKept⟩
  | false =>
    cases valid : s.sock.fdValid with
    | false =>
      have invalid := (writeShutdown_invalid valid).1
      exact ⟨fun _ valid' => by simp [valid] at valid', fun _ _ valid' => by simp [invalid] at valid'⟩
    | true =>
      obtain ⟨asked', valid', pieces, -, pending, canWrite, sent, finAt⟩ :=
        writeShutdown_effect valid asked
      have noFin := fin.early valid asked
      simp only [FinKept, ShutdownSafe, asked', valid', valid, asked, pieces, pending,
        canWrite, sent, finAt, noFin, forall_const]
      by_cases nothing : s.dataToWrite = [] <;> cases s.sock.canWrite <;> simp [nothing]

private theorem fin_writeShutdown {s : BufferedTcpSocket} (fin : FinInvariant s)
    (safe : ShutdownSafe s) :
    FinInvariant s.writeShutdown := by
  cases asked : s.writeShutdownAsked with
  | true => rwa [writeShutdown_again asked]
  | false =>
    cases valid : s.sock.fdValid with
    | false =>
      obtain ⟨invalid, pieces, total⟩ := writeShutdown_invalid valid
      exact fin_of_invalid (by simpa only [pieces, total] using fin.accounted) invalid
    | true =>
      obtain ⟨asked', -, pieces, total, pending, canWrite, sent, finAt⟩ :=
        writeShutdown_effect valid asked
      have noFin := fin.early valid asked
      refine ⟨by simpa only [pieces, total] using fin.accounted, fun _ unasked => ?_, fun _ _ => ?_⟩
      · simp [asked'] at unasked
      · rw [pieces, pending, canWrite, sent, finAt, noFin]
        rcases safe valid asked with ⟨nothing, writable⟩ | ⟨left, event⟩
        · exact .inl ⟨nothing, by simp [nothing, writable]⟩
        · exact .inr ⟨left, by simp [left], event⟩

/-- Every operation keeps the invariant, a shutdown that is asked for only
from a safe state. -/
theorem perform_fin (s : BufferedTcpSocket) (op : SocketOp) (fin : FinInvariant s)
    (safe : SafeStep s op) :
    FinInvariant (perform s op) := by
  cases op with
  | buffer val => exact fin_buffer fin val
  | bufferString ss => exact fin_buffer fin ss
  | write val bo => exact fin_write fin val bo
  | writeString ss bo =>
    cases bo with
    | bufferOnly => exact fin_buffer fin ss
    | write => exact fin_flush (fin_buffer fin ss)
  | writeSome val =>
    simp only [perform, BufferedTcpSocket.writeSome]
    split
    · exact fin
    · rename_i free
      simp only [Bool.or_eq_true, Bool.not_eq_true', not_or, Bool.not_eq_false, Bool.not_eq_true] at free
      exact fin_direct fin free.1 val free.2
  | writeShutdown => exact fin_writeShutdown fin safe
  | readSome count =>
    simp only [perform, BufferedTcpSocket.readSome]
    split
    · exact fin
    · exact fin_of_received fin (readSome_received _ count)
  | arrive arrivals =>
    simp only [perform, TcpSocket.arrive]
    split
    · exact ⟨fin.accounted, fin.early, fin.kept⟩
    · exact fin
  | plan sends => exact ⟨fin.accounted, fin.early, fin.kept⟩
  | notify canRead canWrite =>
    simp only [perform, TcpSocket.notify]
    split
    · refine ⟨fin.accounted, fin.early, fun valid asked => ?_⟩
      rcases fin.kept valid asked with sent | ⟨left, noFin, -⟩
      · exact .inl sent
      · exact .inr ⟨left, noFin, .inr rfl⟩
    · exact fin
  | dispatch => exact fin_dispatch fin
  | shutdownTimer =>
    simp only [perform]
    split
    · exact fin_of_closed _
    · exact fin

/-- In every run whose shutdowns are asked for in safe states, the FIN is kept
in the state reached: sent once behind the last byte, or bytes are buffered and,
unless the handler is already on the loop's list, the descriptor is known not to
be writable. In any state on the way, a shutdown asked for keeps the FIN exactly
if the state is safe. -/
theorem fin_kept_on_safe_runs {s : BufferedTcpSocket} (fresh : Fresh s) (ops : List SocketOp)
    (safe : Run.Meets perform SafeStep s ops) :
    let t := Run.after perform s ops
    FinKept t ∧
      (t.writeShutdownAsked = true → t.sock.fdValid = true → t.sock.pending = false →
        t.dataToWrite = [] ∧ t.sock.descriptor.finAt = [t.sock.descriptor.sent.length] ∨
          t.dataToWrite ≠ [] ∧ t.sock.canWrite = false) ∧
      (FinKept t.writeShutdown ↔ ShutdownSafe t) := by
  intro t
  have fin : FinInvariant t := Run.invariant_of_meets perform_fin (fresh_fin fresh) ops safe
  refine ⟨fin.finKept, fun asked valid idle => ?_, writeShutdown_finKept_iff fin⟩
  rcases fin.finKept asked valid with sent | ⟨left, refused | event⟩
  · exact .inl sent
  · exact .inr ⟨left, refused⟩
  · simp [idle] at event

/-- A write meets `EAGAIN`, so its data waits when the shutdown is asked for. -/
def waitingThenShutdown : List SocketOp :=
  [.notify false true, .dispatch, .plan [.again], .write (str "a") .write, .writeShutdown,
    .notify false true, .dispatch]

theorem fin_kept_on_safe_runs_waiting :
    Run.Meets perform SafeStep acceptedSocket waitingThenShutdown ∧
      FinKept (Run.after perform acceptedSocket waitingThenShutdown) := by
  have safe : Run.Meets perform SafeStep acceptedSocket waitingThenShutdown := by
    refine ⟨trivial, trivial, trivial, trivial, fun _ _ => .inr ⟨fun nothing => ?_, .inl rfl⟩,
      trivial, trivial, trivial⟩
    exact absurd (congrArg List.length nothing) (by decide)
  exact ⟨safe, (fin_kept_on_safe_runs acceptedSocket_fresh _ safe).1⟩

/-- A direct write meets `EAGAIN`, so nothing is buffered and the descriptor is
not writable when the shutdown is asked for; the next event does not help. -/
def refusedThenShutdown : List SocketOp :=
  [.notify false true, .dispatch, .plan [.again], .writeSome (str "a"), .writeShutdown,
    .notify false true, .dispatch]

/-- Data is buffered on a writable descriptor when the shutdown is asked for,
and no event is due. -/
def bufferedThenShutdown : List SocketOp :=
  [.notify false true, .dispatch, .buffer (str "a"), .writeShutdown]

/-- Both runs lose the FIN of a socket that stays valid. -/
theorem fin_lost :
    ¬FinKept (Run.after perform acceptedSocket refusedThenShutdown) ∧
      ¬FinKept (Run.after perform acceptedSocket bufferedThenShutdown) := by
  constructor
  · intro kept
    rcases kept rfl rfl with ⟨-, fin⟩ | ⟨left, -⟩
    · exact absurd fin (by decide)
    · exact left rfl
  · intro kept
    rcases kept rfl rfl with ⟨nothing, -⟩ | ⟨-, refused | event⟩
    · exact absurd (congrArg List.length nothing) (by decide)
    · exact absurd refused (by decide)
    · exact absurd event (by decide)

end Crablib.SocketRunProofs
