import Crablib.ServerConnectionProofs

/-! The end of a connection. After a malformed request or the answer to the
last one, the read buffer is empty and the socket refuses to read, so nothing
the peer sends later can become a request: the connection is sealed, and only
`accept` opens it again. -/
namespace Crablib.ServerEndProofs
open Http ServerConnection ServerRun StreamsProofs SocketProofs InboundProofs ServerConnectionProofs

/-- A socket that reads nothing. -/
def Shut (s : BufferedTcpSocket) : Prop := s.writeShutdownAsked = true ∨ s.sock.fdValid = false

theorem shut_extends {s t : BufferedTcpSocket} {bytes : Bytes} (shut : Shut s)
    (extends_ : Extends s t bytes) :
    Shut t := by
  rcases shut with asked | invalid
  · exact .inl (extends_.asked.trans asked)
  · right
    cases valid : t.sock.fdValid with
    | false => rfl
    | true => simp [(extends_.valid valid).1] at invalid

theorem shut_received {s : BufferedTcpSocket} {sock : TcpSocket} (shut : Shut s)
    (received : Received s.sock sock) :
    Shut { s with sock := sock } := by
  rcases shut with asked | invalid
  · exact .inl asked
  · right
    show sock.fdValid = false
    cases valid : sock.fdValid with
    | false => rfl
    | true => simp [(received.valid valid).1] at invalid

theorem shut_close (s : BufferedTcpSocket) : Shut (s.close false) := .inr (close_fdValid s.sock false)

/-- Asking for the shutdown shuts every socket: one that is not open already
reads nothing. -/
theorem shut_writeShutdown (s : BufferedTcpSocket) : Shut s.writeShutdown := by
  unfold BufferedTcpSocket.writeShutdown
  split
  · rename_i refused
    simp only [Bool.or_eq_true, Bool.not_eq_true', BufferedTcpSocket.isOpen, TcpSocket.isOpen,
      Bool.or_eq_false_iff] at refused
    rcases refused with ⟨invalid, -⟩ | asked
    · exact .inr invalid
    · exact .inl asked
  · simp only
    split
    · exact .inl rfl
    · exact .inl rfl

theorem shut_sockHandler {s : BufferedTcpSocket} (shut : Shut s) : Shut s.sockHandler := by
  unfold BufferedTcpSocket.sockHandler
  split
  · have flushed := shut_extends shut (flush_extends s)
    simp only
    split
    · exact shut_received flushed (readSome_received _ 4096)
    · exact flushed
  · exact shut_close s

theorem shut_readSome {s : BufferedTcpSocket} (shut : Shut s) (count : Nat) :
    s.readSome count = ([], s) := by
  rcases shut with asked | invalid
  · simp [BufferedTcpSocket.readSome, asked]
  · simp [BufferedTcpSocket.readSome, TcpSocket.readSome, invalid]

/-- Reading from a shut socket leaves an empty buffer empty. -/
theorem shut_readFrom {s : BufferedTcpSocket} (shut : Shut s) (b : Buffer) :
    (b.readFrom BufferedTcpSocket.istream s).1 = 0 ∧
      (b.readFrom BufferedTcpSocket.istream s).2.1.size = b.size ∧
      (b.readFrom BufferedTcpSocket.istream s).2.2 = s := by
  have nothing : BufferedTcpSocket.istream.readSome s b.writeCount = ([], s) :=
    shut_readSome shut b.writeCount
  simp only [Buffer.readFrom, Buffer.readLoop]
  split
  · exact ⟨rfl, rfl, rfl⟩
  · simp [nothing, Buffer.size, Buffer.didWrite, Buffer.store]

/-- A pass over a connection whose socket is shut and whose buffer is empty finds
nothing and stops. -/
theorem shut_turn {σ : Type} {e : EndpointProofs.Endpoint σ} (models : e.Models) {s : σ}
    (shut : Shut (e.sock s)) (drained : (e.readBuffer s).size = 0) :
    (e.turn s).1 = .stop false ∧ ∃ b, b.size = 0 ∧ (e.turn s).2 = e.filled s b (e.sock s) := by
  obtain ⟨count, size, same⟩ := shut_readFrom shut (e.readBuffer s)
  have empty : (e.readBuffer s).empty = true := by simp [Buffer.empty, drained]
  rw [models.turn, if_pos empty]
  simp only [count, same, ↓reduceIte, true_and]
  exact ⟨_, size.trans drained, rfl⟩

/-- A connection that delivers no request any more. -/
structure Sealed (c : ServerConnection) : Prop where
  shut : Shut c.sock
  drained : c.readBuffer.size = 0
  unready : c.state ≠ .requestReady

variable {c d : ServerConnection}

theorem sealed_close (c : ServerConnection) : Sealed c.close := ⟨shut_close c.sock, rfl, by simp [close]⟩

theorem sealed_turn (ended : Sealed c) : Sealed c.turn.2 := by
  obtain ⟨-, b, drained, turned⟩ := shut_turn EndpointProofs.server_models ended.shut ended.drained
  rw [show c.turn.2 = _ from turned]
  exact ⟨ended.shut, drained, ended.unready⟩

theorem sealed_onException (unready : c.state ≠ .requestReady) : Sealed c.onException :=
  ⟨shut_writeShutdown c.sock, rfl, unready⟩

private theorem sealed_advanceState (ended : Sealed c) : Sealed c.advanceState.2 :=
  advanceState_preserves (fun _ => sealed_turn)
    (fun _ _ _ _ thrown => sealed_onException (turn_throws thrown).unready) ended

private theorem sealed_sockHandler (ended : Sealed c) : Sealed c.sockHandler.2 := by
  unfold sockHandler
  split
  · exact sealed_close c
  · split
    · exact ended
    · exact sealed_advanceState ended

/-- Operations that only write keep the seal. -/
private theorem sealed_of_extends {bytes : Bytes} (ended : Sealed c)
    (extends_ : Extends c.sock d.sock bytes) (buffer : d.readBuffer = c.readBuffer)
    (unready : d.state ≠ .requestReady) : Sealed d :=
  ⟨shut_extends ended.shut extends_, by rw [buffer]; exact ended.drained, unready⟩

private theorem sealed_sendMessage (ended : Sealed c) (message : WebMessage) (bo : BufferOptions) :
    Sealed (c.sendMessage message bo) := by
  simp only [sendMessage]
  split
  · exact ⟨shut_writeShutdown _, rfl, ended.unready⟩
  · exact sealed_of_extends ended ((buffer_extends _ _).trans (writeString_extends _ _ bo)) rfl
      ended.unready

theorem sealed_finishResponse (ended : Sealed c) : Sealed c.finishResponse := by
  simp only [finishResponse]
  split
  · exact ⟨shut_writeShutdown _, rfl, by simp⟩
  · exact ⟨ended.shut, ended.drained, by simp⟩

/-- A body write, whichever overload of the socket it calls. -/
private theorem sealed_writeBody {send : Send} {val : Bytes} {bo : BufferOptions}
    (sends : ∀ s, Extends s (send s val bo) (takes s val)) (ended : Sealed c)
    (done : c.writeBody send val bo = .ok d) : Sealed d := by
  obtain ⟨-, rfl⟩ | ⟨-, -, ⟨remaining, -, -, rfl⟩ | ⟨-, rfl⟩⟩ := writeBody_ok done
  · unfold sendFrame
    split
    · exact ended
    · exact sealed_of_extends ended ((buffer_extends _ _).trans (sends _)) rfl ended.unready
  · simp only [sendCounted]
    split
    · exact sealed_finishResponse (sealed_of_extends ended (sends _) rfl ended.unready)
    · exact sealed_of_extends ended (sends _) rfl ended.unready
  · unfold sendChunk
    split
    · exact ended
    · exact sealed_of_extends ended
        (((buffer_extends _ _).trans (buffer_extends _ _)).trans (write_extends _ _ bo)) rfl
        ended.unready

private theorem sealed_writeLastChunk {bo : BufferOptions} (ended : Sealed c)
    (done : c.writeLastChunk bo = .ok d) :
    Sealed d := by
  obtain ⟨-, rfl⟩ | ⟨-, -, -, rfl⟩ := writeLastChunk_ok done
  · exact sealed_of_extends ended (write_extends _ _ bo) rfl ended.unready
  · exact sealed_finishResponse (sealed_of_extends ended (writeString_extends _ _ bo) rfl ended.unready)

private theorem sealed_writeHeader {resp : ResponseHeader} {bo : BufferOptions} (ended : Sealed c)
    (done : c.writeHeader resp bo = .ok d) : Sealed d := by
  obtain ⟨-, rfl⟩ | ⟨-, -, -, -, rfl⟩ := writeHeader_ok done
  · exact ended
  · exact sealed_of_extends ended (writeString_extends _ _ bo) rfl (by simp [sendHeader])

private theorem sealed_writeMessage {message : WebMessage} {bo : BufferOptions} (ended : Sealed c)
    (done : c.writeMessage message bo = .ok d) : Sealed d := by
  obtain ⟨-, rfl⟩ | ⟨-, -, rfl⟩ := writeMessage_ok done
  · exact ended
  · exact sealed_sendMessage ended message bo

private theorem sealed_writeResponse (ended : Sealed c) (resp : Response) :
    Sealed (c.writeResponse resp).2 := by
  obtain same | ⟨withHeader, header, rest⟩ := writeResponse_parts c resp
  · rwa [same]
  · have first := sealed_writeHeader ended header
    obtain same | ⟨bo, withBody, body, last⟩ := rest
    · rwa [same]
    · have second := sealed_writeBody (fun s => writeString_extends s _ bo) first body
      obtain same | finished := last
      · rwa [same]
      · exact sealed_writeLastChunk second finished

private theorem sealed_pingTimer (ended : Sealed c) (done : c.onWmPingTimer = .ok d) : Sealed d := by
  obtain rfl | ⟨pinged, rfl, rfl | sent⟩ := onWmPingTimer_ok done
  · exact ended
  · exact sealed_of_extends ended (writeString_extends _ _ .write) rfl ended.unready
  · have fired : Sealed { c with wmPingTimer := false } := ⟨ended.shut, ended.drained, ended.unready⟩
    have kept := sealed_writeMessage fired sent
    exact ⟨kept.shut, kept.drained, kept.unready⟩

private theorem sealed_dispatch (ended : Sealed c) : Sealed c.dispatch.2 := by
  unfold dispatch
  split
  · exact sealed_sockHandler ⟨shut_sockHandler ended.shut, ended.drained, ended.unready⟩
  · exact ended

/-- Whether the operation starts a new connection. -/
def reopens : ServerOp → Bool
  | .accept .ready => true
  | .accept .refused => true
  | _ => false

/-- Nothing but a new connection breaks the seal. -/
theorem perform_sealed (ended : Sealed c) (op : ServerOp) (same : reopens op = false) :
    Sealed (perform c op).conn := by
  cases op with
  | accept accepted =>
    cases accepted with
    | missing => exact sealed_close c
    | ready => simp [reopens] at same
    | refused => simp [reopens] at same
  | close => exact sealed_close c
  | readNextRequest => simpa [perform, readNextRequest, ended.unready] using ended
  | readNextMessage =>
    simp only [perform, readNextMessage]
    split
    · exact ended
    · exact sealed_advanceState ⟨ended.shut, ended.drained, by simp [takeMessage]⟩
  | webSocketUpgrade =>
    refine settle_conn ended fun d done => ?_
    obtain ⟨-, rfl⟩ | ⟨-, -, -, rfl⟩ := webSocketUpgrade_ok done
    · exact ended
    · exact sealed_of_extends ended (writeString_extends _ _ .write) rfl (by simp [sendUpgrade])
  | writeResponse resp =>
    rw [perform, settleAfter_conn]
    exact sealed_writeResponse ended resp
  | writeHeader resp bo => exact settle_conn ended fun d => sealed_writeHeader ended
  | writeMessage message bo => exact settle_conn ended fun d => sealed_writeMessage ended
  | writeOpcode opcode =>
    refine settle_conn ended fun d done => ?_
    obtain ⟨-, rfl⟩ | ⟨-, -, -, rfl⟩ := writeOpcode_ok done
    · exact ended
    · exact sealed_of_extends ended (buffer_extends _ _) rfl ended.unready
  | writeData val bo =>
    exact settle_conn ended fun d => sealed_writeBody (fun s => write_extends s val bo) ended
  | writeString ss bo =>
    exact settle_conn ended fun d => sealed_writeBody (fun s => writeString_extends s ss bo) ended
  | writeLastChunk bo => exact settle_conn ended fun d => sealed_writeLastChunk ended
  | arrive arrivals =>
    refine ⟨?_, ended.drained, ended.unready⟩
    simp only [perform, TcpSocket.arrive]
    split
    · exact ended.shut
    · exact ended.shut
  | plan sends => exact ⟨ended.shut, ended.drained, ended.unready⟩
  | notify canRead canWrite =>
    refine ⟨?_, ended.drained, ended.unready⟩
    simp only [perform, TcpSocket.notify]
    split
    · exact ended.shut
    · exact ended.shut
  | dispatch => exact sealed_dispatch ended
  | pingTimer => exact settle_conn ended fun d => sealed_pingTimer ended
  | shutdownTimer =>
    simp only [perform, shutdownTimerHandler]
    split
    · exact sealed_sockHandler ⟨shut_close _, ended.drained, ended.unready⟩
    · exact ended

/-- The `catch` of `advance_state` seals the connection. -/
theorem caught_seals (thrown : caught c = true) : Sealed c.advanceState.2 := by
  simp only [caught, Bool.and_eq_true, beq_iff_eq] at thrown
  obtain ⟨flushed, ended⟩ := thrown
  unfold advanceState
  rw [if_neg (by simpa using flushed)]
  split
  · rename_i again
    simp [again] at ended
  · rename_i stopped
    simp [stopped] at ended
  · rename_i e next threw
    obtain ⟨last, -, thrown⟩ := tryLoop_throws (P := fun _ => True) (fun _ _ => trivial) _ trivial threw
    exact sealed_onException (turn_throws thrown).unready

theorem catches_seals (op : ServerOp) (thrown : catches c op = true) : Sealed (perform c op).conn := by
  cases op <;> simp only [catches, Bool.false_eq_true] at thrown
  case readNextRequest =>
    simp only [Bool.and_eq_true, beq_iff_eq] at thrown
    simpa [perform, readNextRequest, thrown.1] using caught_seals thrown.2
  case readNextMessage =>
    simp only [Bool.and_eq_true, beq_iff_eq, Bool.not_eq_true'] at thrown
    simpa [perform, readNextMessage, thrown.1] using caught_seals thrown.2
  case dispatch =>
    simp only [Bool.and_eq_true, Bool.not_eq_true'] at thrown
    obtain ⟨⟨⟨pending, opened⟩, idle⟩, threw⟩ := thrown
    simpa [perform, dispatch, pending, sockHandler, opened, idle] using caught_seals threw

/-- A response to the last request is due or being sent. -/
def Closing (c : ServerConnection) : Prop :=
  (c.state = .responseHeader ∨ c.state = .responseBody) ∧ c.requestParser.req.keepAlive = false

private theorem closing_finishResponse (last : Closing c) : Sealed c.finishResponse := by
  simp only [finishResponse, last.2, Bool.not_false, ↓reduceIte]
  exact ⟨shut_writeShutdown _, rfl, by simp⟩

/-- A body write to the last request either seals the connection or leaves the
response unfinished. -/
private theorem closing_writeBody {send : Send} {val : Bytes} {bo : BufferOptions} (last : Closing c)
    (done : c.writeBody send val bo = .ok d) : Closing d ∨ Sealed d := by
  obtain ⟨-, rfl⟩ | ⟨-, -, ⟨remaining, -, -, rfl⟩ | ⟨-, rfl⟩⟩ := writeBody_ok done
  · left
    unfold sendFrame
    split <;> exact last
  · simp only [sendCounted]
    split
    · exact .inr (closing_finishResponse last)
    · exact .inl last
  · left
    unfold sendChunk
    split <;> exact last

private theorem closing_writeLastChunk {bo : BufferOptions} (last : Closing c)
    (done : c.writeLastChunk bo = .ok d) :
    Closing d ∨ Sealed d := by
  obtain ⟨-, rfl⟩ | ⟨-, -, -, rfl⟩ := writeLastChunk_ok done
  · exact .inl last
  · exact .inr (closing_finishResponse last)

private theorem closing_writeHeader {resp : ResponseHeader} {bo : BufferOptions} (last : Closing c)
    (done : c.writeHeader resp bo = .ok d) : Closing d := by
  obtain ⟨-, rfl⟩ | ⟨-, -, -, -, rfl⟩ := writeHeader_ok done
  · exact last
  · exact ⟨.inr rfl, last.2⟩

private theorem closing_writeResponse (last : Closing c) (resp : Response) :
    Closing (c.writeResponse resp).2 ∨ Sealed (c.writeResponse resp).2 := by
  obtain same | ⟨withHeader, header, rest⟩ := writeResponse_parts c resp
  · rw [same]
    exact .inl last
  · have first := closing_writeHeader last header
    obtain same | ⟨bo, withBody, body, tail⟩ := rest
    · rw [same]
      exact .inl first
    · have second := closing_writeBody first body
      obtain same | finished := tail
      · rwa [same]
      · rcases second with open_ | ended
        · exact closing_writeLastChunk open_ finished
        · exact .inr (sealed_writeLastChunk ended finished)

private theorem settle_closing {result : Except Error ServerConnection} (last : Closing c)
    (after : ∀ d, result = .ok d → Closing d ∨ Sealed d) :
    Closing (settle c result).conn ∨ Sealed (settle c result).conn :=
  settle_conn (P := fun d => Closing d ∨ Sealed d) (.inl last) after

/-- Whatever is written to the last request, its response stays unfinished or
the connection is sealed. -/
theorem closing_perform (last : Closing c) (op : ServerOp) (writes : isWrite op = true) :
    Closing (perform c op).conn ∨ Sealed (perform c op).conn := by
  have http : c.isStateWebsocket = false := by
    rcases last.1 with header | body
    · simp [isStateWebsocket, header]
    · simp [isStateWebsocket, body]
  cases op <;> simp only [isWrite, Bool.false_eq_true] at writes
  case webSocketUpgrade =>
    refine settle_closing last fun d done => ?_
    obtain ⟨-, rfl⟩ | ⟨-, -, upgradable, -⟩ := webSocketUpgrade_ok done
    · exact .inl last
    · simp [RequestHeader.isWebsocketUpgrade, last.2] at upgradable
  case writeResponse resp =>
    rw [perform, settleAfter_conn]
    exact closing_writeResponse last resp
  case writeHeader resp bo =>
    exact settle_closing last fun d done => .inl (closing_writeHeader last done)
  case writeMessage message bo =>
    refine settle_closing last fun d done => ?_
    obtain ⟨-, rfl⟩ | ⟨-, web, -⟩ := writeMessage_ok done
    · exact .inl last
    · simp [http] at web
  case writeOpcode opcode =>
    refine settle_closing last fun d done => ?_
    obtain ⟨-, rfl⟩ | ⟨-, web, -⟩ := writeOpcode_ok done
    · exact .inl last
    · simp [http] at web
  case writeData val bo => exact settle_closing last fun d => closing_writeBody last
  case writeString ss bo => exact settle_closing last fun d => closing_writeBody last
  case writeLastChunk bo => exact settle_closing last fun d => closing_writeLastChunk last

/-- Completing the response to the last request, on any path, seals the
connection. -/
theorem completesLast_seals (op : ServerOp) (completed : completesLast c op = true) :
    Sealed (perform c op).conn := by
  simp only [completesLast, Bool.and_eq_true, Bool.or_eq_true, beq_iff_eq,
    Bool.not_eq_true'] at completed
  obtain ⟨⟨⟨writes, due⟩, closes⟩, idle⟩ := completed
  have writes' : isWrite op = true := by
    cases op <;> simp_all [isResponseWrite, isWrite]
  rcases closing_perform ⟨due, closes⟩ op writes' with ⟨open_, -⟩ | ended
  · simp [idle] at open_
  · exact ended

/-- A connection and whether it has ended since it was last accepted. -/
structure History where
  conn : ServerConnection
  ended : Bool := false

def track (h : History) (op : ServerOp) : History :=
  ⟨(perform h.conn op).conn, !reopens op && (h.ended || catches h.conn op || completesLast h.conn op)⟩

private theorem track_sealed (h : History) (op : ServerOp) (before : h.ended = true → Sealed h.conn) :
    (track h op).ended = true → Sealed (track h op).conn := by
  intro now
  simp only [track, Bool.and_eq_true, Bool.not_eq_true', Bool.or_eq_true] at now ⊢
  obtain ⟨same, (ended | thrown) | completed⟩ := now
  · exact perform_sealed (before ended) op same
  · exact catches_seals op thrown
  · exact completesLast_seals op completed

/-- In every run, from the exception that `advance_state` catches or the end of
the response to a request without keep-alive on, `read_next` returns no request,
whatever the peer, the kernel and the user do, until a new connection is
accepted. -/
theorem no_request_after_end (c : ServerConnection) (ops : List ServerOp)
    (ended : (Run.after track ⟨c, false⟩ ops).ended = true) :
    (Run.after track ⟨c, false⟩ ops).conn.readNextRequest.1 = none := by
  have sealed_ := Run.invariant_of_keeps (P := fun h : History => h.ended = true → Sealed h.conn)
    track_sealed (s := ⟨c, false⟩) (by simp) ops ended
  simp [readNextRequest, sealed_.unready]

/-- A segment that reaches the descriptor, and the event that it causes. -/
def received (bytes : Bytes) : List ServerOp := [.arrive (segment bytes), .notify true true, .dispatch]

/-- A request that closes the connection is answered; the peer sends another. -/
def answeredThenMore : List ServerOp :=
  .accept .ready :: received (str "GET / HTTP/1.0\r\n\r\n") ++ [.readNextRequest,
    .writeHeader { status := 200, contentLength := some 1 } .write, .writeData (str "a") .write] ++
    received (str "GET / HTTP/1.1\r\n\r\n")

/-- A malformed request is followed by a good one. -/
def malformedThenMore : List ServerOp :=
  .accept .ready :: received (str "G\r\n") ++ received (str "GET / HTTP/1.1\r\n\r\n")

theorem no_request_after_end_runs :
    (Run.after track ⟨{}, false⟩ answeredThenMore).ended = true ∧
      (Run.after track ⟨{}, false⟩ answeredThenMore).conn.readNextRequest.1 = none ∧
      (Run.after track ⟨{}, false⟩ malformedThenMore).ended = true ∧
      (Run.after track ⟨{}, false⟩ malformedThenMore).conn.readNextRequest.1 = none := by
  have answered : (Run.after track ⟨{}, false⟩ answeredThenMore).ended = true := by decide +kernel
  have malformed : (Run.after track ⟨{}, false⟩ malformedThenMore).ended = true := by decide +kernel
  exact ⟨answered, no_request_after_end {} _ answered, malformed, no_request_after_end {} _ malformed⟩

end Crablib.ServerEndProofs
