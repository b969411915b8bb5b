import Crablib.ProgressProofs
import Crablib.ServerEndProofs

/-! The loop of `advance_state` of a server connection ends. In every state that
parses, the parser of the state is not good when a pass starts, or the
connection is sealed and no pass continues; every operation of a run keeps this. -/
namespace Crablib.ServerProgressProofs
open Http ServerConnection ServerRun StreamsProofs SocketProofs InboundProofs ParserProofs
open ServerConnectionProofs ServerEndProofs ProgressProofs EndpointProofs

/-- Whether the parser that the state reads with has nothing to do. -/
def parserGood (c : ServerConnection) : Bool :=
  match c.state with
  | .requestHeader => c.requestParser.isGood
  | .requestBody => c.httpBodyParser.isGood
  | .web .header => c.reader.wmHeaderParser.isGood
  | .web .body => c.reader.wmBodyParser.isGood
  | _ => false

def advancing : Advancing ServerConnection where
  turn := turn
  tryLoop := tryLoop
  readBuffer := readBuffer
  sock := sock
  parserGood := parserGood
  onException := onException
  advanceState := advanceState

/-- The parser that the state reads with has something to do. -/
def Due (c : ServerConnection) : Prop :=
  match c.state with
  | .requestHeader => c.requestParser.isGood = false
  | .requestBody => BodyDue c.httpBodyParser
  | .web state => ReaderDue state c.reader
  | _ => True

variable {c d : ServerConnection}

private theorem Due.running (due : Due c) : parserGood c = false := by
  unfold Due at due
  unfold parserGood
  split at due
  · rename_i state
    simpa only [state] using due
  · rename_i state
    simpa only [state] using due.running
  · rename_i web state
    cases web with
    | header => simpa only [state, ReaderDue] using due
    | body => simp [state, WebMessageBodyParser.isGood, due.1]
    | ready => simp [state]
  · split <;> simp_all

/-- Nothing but the state and the parsers matters. -/
private theorem Due.keep (due : Due c) (state : d.state = c.state)
    (request : d.requestParser = c.requestParser) (body : d.httpBodyParser = c.httpBodyParser)
    (reader : d.reader = c.reader) : Due d := by
  unfold Due at *
  rw [state, request, body, reader]
  exact due

private theorem due_sendMessage (due : Due c) (message : WebMessage) (bo : BufferOptions) :
    Due (c.sendMessage message bo) := by
  simp only [sendMessage]
  split
  · exact due
  · exact due

private theorem due_writeMessage {message : WebMessage} {bo : BufferOptions}
    (done : c.writeMessage message bo = .ok d) (due : Due c) : Due d := by
  obtain ⟨-, rfl⟩ | ⟨-, -, rfl⟩ := writeMessage_ok done
  · exact due
  · exact due_sendMessage due message bo

/-- A pong leaves the read buffer and what the peer sent alone. -/
private theorem writePong_left {body : Bytes}
    (done : c.writeMessage { opcode := .pong, body := body } .write = .ok d) :
    d.readBuffer = c.readBuffer ∧ d.sock.sock.descriptor.incoming = c.sock.sock.descriptor.incoming := by
  obtain ⟨-, rfl⟩ | ⟨-, -, rfl⟩ := writeMessage_ok done
  · exact ⟨rfl, rfl⟩
  · exact ⟨rfl, ((buffer_extends _ _).trans (writeString_extends _ _ .write)).incoming⟩

private theorem readRequestBody_leaves {size : Nat} (state : c.state = .requestBody)
    (sound : Sound c.httpBodyParser) (fewer : ∀ {parser after},
      c.readBuffer.parseWith c.httpBodyParser.parse = .ok (parser, after) → after.size < size) :
    advancing.Leaves Due size (queued c.sock.sock.descriptor.incoming) c.readRequestBody := by
  unfold readRequestBody
  split
  · trivial
  · rename_i parser after parsed
    simp only
    split
    · rename_i running
      refine ⟨?_, fewer parsed, rfl⟩
      have due := body_due sound parsed (by simpa using running)
      simpa only [Due, state] using due
    · trivial

private theorem readRequestHeader_leaves (state : c.state = .requestHeader)
    (running : c.requestParser.isGood = false) (some : c.readBuffer.size ≠ 0) :
    advancing.Leaves Due c.readBuffer.size (queued c.sock.sock.descriptor.incoming)
      c.readRequestHeader := by
  unfold readRequestHeader
  split
  · trivial
  · rename_i parser after parsed
    have shorter : after.size < c.readBuffer.size :=
      scan_lt (m := RequestParser.machine) running some parsed
    simp only
    split
    · rename_i waiting
      refine ⟨?_, shorter, rfl⟩
      simpa only [Due, state, Bool.not_eq_true'] using waiting
    -- a body of no bytes is good at once, and the pass stops
    · exact readRequestBody_leaves rfl (make_sound _ _)
        fun parsed' => Nat.lt_of_le_of_lt (parseWith_le parsed') shorter

private theorem webMessage_leaves {state : WebState} (reads : state ≠ .ready)
    (due : ReaderDue state c.reader) (some : c.readBuffer.size ≠ 0) :
    advancing.Leaves Due c.readBuffer.size (queued c.sock.sock.descriptor.incoming)
      (c.readWebMessage state) :=
  readWebMessage_leaves server_models reads due some (fun _ _ _ next => next)
    due_writeMessage writePong_left

private theorem switchState_leaves (due : Due c) (some : c.readBuffer.size ≠ 0) :
    advancing.Leaves Due c.readBuffer.size (queued c.sock.sock.descriptor.incoming) c.switchState := by
  unfold switchState
  unfold Due at due
  split
  · rename_i state
    rw [state] at due
    exact readRequestHeader_leaves state due some
  · rename_i state
    rw [state] at due
    exact readRequestBody_leaves state due.sound (body_lt due some)
  · rename_i state
    rw [state] at due
    exact webMessage_leaves (by simp) due some
  · rename_i state
    rw [state] at due
    exact webMessage_leaves (by simp) due some
  · exact due

/-- The loop never has to skip a parser: the one the state reads with has
something to do, or nothing is read any more. -/
def Held (c : ServerConnection) : Prop := Due c ∨ Sealed c

private theorem progresses : advancing.Progresses Due Sealed where
  running _ due := due.running
  leaves _ due := turn_leaves server_models (fun _ _ _ due => due) (fun _ => switchState_leaves) due
  stops _ ended := ⟨(shut_turn server_models ended.shut ended.drained).1, sealed_turn ended⟩
  catches _ _ _ thrown := sealed_onException (turn_throws thrown).unready

private theorem advanceState_held (held : Held c) : Held c.advanceState.2 :=
  progresses.advanceState_kept (looping_models server_models) held

private theorem sockHandler_held (held : Held c) : Held c.sockHandler.2 := by
  unfold sockHandler
  split
  · exact .inr (sealed_close c)
  · split
    · exact held
    · exact advanceState_held held

private theorem due_finishResponse (c : ServerConnection) : Due c.finishResponse := rfl

/-- A body write, whichever overload of the socket it calls. -/
private theorem due_writeBody {send : Send} {val : Bytes} {bo : BufferOptions} (due : Due c)
    (done : c.writeBody send val bo = .ok d) : Due d := by
  obtain ⟨-, rfl⟩ | ⟨-, -, ⟨remaining, -, -, rfl⟩ | ⟨-, rfl⟩⟩ := writeBody_ok done
  · unfold sendFrame
    split
    · exact due
    · exact due
  · simp only [sendCounted]
    split
    · exact due_finishResponse _
    · exact due
  · unfold sendChunk
    split
    · exact due
    · exact due

private theorem due_writeLastChunk {bo : BufferOptions} (due : Due c)
    (done : c.writeLastChunk bo = .ok d) : Due d := by
  obtain ⟨-, rfl⟩ | ⟨-, -, -, rfl⟩ := writeLastChunk_ok done
  · exact due
  · exact due_finishResponse _

private theorem due_writeHeader {resp : ResponseHeader} {bo : BufferOptions} (due : Due c)
    (done : c.writeHeader resp bo = .ok d) : Due d := by
  obtain ⟨-, rfl⟩ | ⟨-, -, -, -, rfl⟩ := writeHeader_ok done
  · exact due
  · trivial

private theorem due_writeResponse (due : Due c) (resp : Response) : Due (c.writeResponse resp).2 := by
  obtain same | ⟨withHeader, header, rest⟩ := writeResponse_parts c resp
  · rwa [same]
  · have first := due_writeHeader due header
    obtain same | ⟨bo, withBody, body, last⟩ := rest
    · rwa [same]
    · have second := due_writeBody first body
      obtain same | finished := last
      · rwa [same]
      · exact due_writeLastChunk second finished

private theorem due_pingTimer (due : Due c) (done : c.onWmPingTimer = .ok d) : Due d := by
  obtain rfl | ⟨pinged, rfl, rfl | sent⟩ := onWmPingTimer_ok done
  · exact due
  · exact due
  · have fired : Due { c with wmPingTimer := false } := due
    have kept := due_writeMessage sent fired
    exact kept

/-- `accept` starts with a new parser, unless it throws. -/
private theorem accept_held (c : ServerConnection) (accepted : Accepted) :
    Held (c.accept accepted).2 := by
  unfold accept
  split
  · exact .inr (sealed_close c)
  · exact .inl rfl

private theorem perform_due (due : Due c) (op : ServerOp) : Held (perform c op).conn := by
  cases op with
  | accept accepted =>
    rw [perform, settleAfter_conn]
    exact accept_held c accepted
  | close => exact .inr (sealed_close c)
  | readNextRequest =>
    simp only [perform, readNextRequest]
    split
    · exact .inl due
    · exact advanceState_held (.inl trivial)
  | readNextMessage =>
    simp only [perform, readNextMessage]
    split
    · exact .inl due
    · exact advanceState_held (.inl rfl)
  | webSocketUpgrade =>
    refine settle_conn (.inl due) fun d done => .inl ?_
    obtain ⟨-, rfl⟩ | ⟨-, -, -, rfl⟩ := webSocketUpgrade_ok done
    · exact due
    · rfl
  | writeResponse resp =>
    rw [perform, settleAfter_conn]
    exact .inl (due_writeResponse due resp)
  | writeHeader resp bo => exact settle_conn (.inl due) fun d done => .inl (due_writeHeader due done)
  | writeMessage message bo =>
    exact settle_conn (.inl due) fun d done => .inl (due_writeMessage done due)
  | writeOpcode opcode =>
    refine settle_conn (.inl due) fun d done => .inl ?_
    obtain ⟨-, rfl⟩ | ⟨-, -, -, rfl⟩ := writeOpcode_ok done
    · exact due
    · exact due
  | writeData val bo => exact settle_conn (.inl due) fun d done => .inl (due_writeBody due done)
  | writeString ss bo => exact settle_conn (.inl due) fun d done => .inl (due_writeBody due done)
  | writeLastChunk bo => exact settle_conn (.inl due) fun d done => .inl (due_writeLastChunk due done)
  | arrive arrivals => exact .inl due
  | plan sends => exact .inl due
  | notify canRead canWrite => exact .inl due
  | dispatch =>
    simp only [perform, dispatch]
    split
    · exact sockHandler_held (.inl due)
    · exact .inl due
  | pingTimer => exact settle_conn (.inl due) fun d done => .inl (due_pingTimer due done)
  | shutdownTimer =>
    simp only [perform, shutdownTimerHandler]
    split
    · exact sockHandler_held (.inl due)
    · exact .inl due

private theorem perform_held (held : Held c) (op : ServerOp) : Held (perform c op).conn := by
  rcases held with due | ended
  · exact perform_due due op
  · cases same : reopens op with
    | false => exact .inr (perform_sealed ended op same)
    | true =>
      cases op with
      | accept accepted =>
        rw [perform, settleAfter_conn]
        exact accept_held c accepted
      | _ => simp [reopens] at same

theorem held_afterOps (history : List ServerOp) : Held (afterOps {} history) := by
  have start : Held {} := .inl rfl
  exact Run.invariant_of_keeps (P := Held) (fun _ op held => perform_held held op) start history

/-- The connections that the calls of `advance_state` start from, besides the
reached one itself. -/
inductive Enters (c : ServerConnection) : ServerConnection → Prop where
  | reached : Enters c c
  | request (ready : c.state = .requestReady) : Enters c c.takeRequest
  | message (ready : c.state = .web .ready) (whole : c.writingWebMessageBody = false) :
      Enters c c.takeMessage
  | event (pending : c.sock.sock.pending = true) : Enters c c.socketEvent
  | timer (set : c.sock.shutdownTimer = true) : Enters c { c with sock := c.sock.shutdownTimerHandler }

private theorem enters_held (held : Held c) (enters : Enters c d) : Held d := by
  cases enters with
  | reached => exact held
  | request ready => exact .inl trivial
  | message ready whole => exact .inl rfl
  | event pending =>
    rcases held with due | ended
    · exact .inl due
    · exact .inr ⟨shut_sockHandler ended.shut, ended.drained, ended.unready⟩
  | timer set =>
    rcases held with due | ended
    · exact .inl due
    · exact .inr ⟨shut_close _, ended.drained, ended.unready⟩

/-- In every run the loop of `advance_state` ends wherever it starts. -/
theorem server_terminates (history : List ServerOp) (enters : Enters (afterOps {} history) d) :
    advancing.Terminates d :=
  progresses.keeps.terminates (looping_models server_models) (enters_held (held_afterOps history) enters)

end Crablib.ServerProgressProofs
