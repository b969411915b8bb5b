import Crablib.AlikeProofs
import Crablib.PairingProofs

/-! Two server connections that cannot be told apart. They agree in everything
that the state they are in still reads; the members a later step overwrites may
differ. Every operation takes such connections to such connections and returns
the same to its caller. -/
namespace Crablib.ServerHistoryProofs
open Http ServerConnection ServerRun StreamsProofs SocketProofs AlikeProofs ServerConnectionProofs
open PairingProofs
open EndpointProofs (server server_models)

variable {loose : Prop} {c f : ServerConnection}

/-- Connections that agree in what their state reads. -/
structure Same (loose : Prop) (c f : ServerConnection) : Prop where
  state : f.state = c.state
  writing : f.writingWebMessageBody = c.writingWebMessageBody
  pingTimer : f.wmPingTimer = c.wmPingTimer
  request : f.requestParser = c.requestParser
  buffer : SameBuffer c.readBuffer f.readBuffer
  sock : AlikeBuffered loose c.sock f.sock
  message : f.reader.webMessage = c.reader.webMessage
  body : c.state = .requestBody ∨ c.state = .requestReady → f.httpBodyParser = c.httpBodyParser
  web : c.isStateWebsocket = true → f.reader = c.reader
  remaining : c.state = .responseBody → f.remainingBodyContentLength = c.remainingBodyContentLength

/-- The members in which such connections may differ. -/
theorem Same.below (same : Same loose c f) :
    ∃ b p w r s, f = { c with
      readBuffer := b
      httpBodyParser := p
      reader := w
      remainingBodyContentLength := r
      sock := s } := by
  obtain ⟨state, writing, pingTimer, request, -, -, -, -, -, -⟩ := same
  cases c
  cases f
  simp only at state writing pingTimer request
  subst state writing pingTimer request
  exact ⟨_, _, _, _, _, rfl⟩

theorem Same.isOpen (same : Same loose c f) : f.isOpen = c.isOpen := same.sock.isOpen

theorem Same.isStateWebsocket (same : Same loose c f) : f.isStateWebsocket = c.isStateWebsocket := by
  simp [ServerConnection.isStateWebsocket, same.state]

theorem Same.isWritingBody (same : Same loose c f) : f.isWritingBody = c.isWritingBody := by
  simp [ServerConnection.isWritingBody, same.state, same.writing]

theorem Same.close (same : Same loose c f) : Same loose c.close f.close where
  state := rfl
  writing := rfl
  pingTimer := rfl
  request := same.request
  buffer := same.buffer.clear
  sock := same.sock.close false
  message := same.message
  body := by simp [ServerConnection.close]
  web := by simp [ServerConnection.close, ServerConnection.isStateWebsocket]
  remaining := by simp [ServerConnection.close]

/-- Writes change the socket and the timer. -/
theorem Same.send (same : Same loose c f) {s t : BufferedTcpSocket}
    (socks : AlikeBuffered loose s t) (timer : Bool) :
    Same loose { c with sock := s, wmPingTimer := timer } { f with sock := t, wmPingTimer := timer } :=
  ⟨same.state, same.writing, rfl, same.request, same.buffer, socks, same.message, same.body,
    same.web, same.remaining⟩

theorem Same.sendOnly (same : Same loose c f) {s t : BufferedTcpSocket}
    (socks : AlikeBuffered loose s t) :
    Same loose { c with sock := s } { f with sock := t } :=
  ⟨same.state, same.writing, same.pingTimer, same.request, same.buffer, socks,
    same.message, same.body, same.web, same.remaining⟩

/-- A streamed web message starts or ends. -/
theorem Same.stream (same : Same loose c f) (writing : Bool) :
    Same loose { c with writingWebMessageBody := writing } { f with writingWebMessageBody := writing } :=
  ⟨same.state, rfl, same.pingTimer, same.request, same.buffer, same.sock,
    same.message, same.body, same.web, same.remaining⟩

/-- The read buffer is dropped where the connection is shut down. -/
theorem Same.drop (same : Same loose c f) {s t : BufferedTcpSocket} (socks : AlikeBuffered loose s t) :
    Same loose { c with wmPingTimer := false, readBuffer := c.readBuffer.clear, sock := s }
      { f with wmPingTimer := false, readBuffer := f.readBuffer.clear, sock := t } :=
  ⟨same.state, same.writing, rfl, same.request, same.buffer.clear, socks, same.message, same.body,
    same.web, same.remaining⟩

theorem Same.sendMessage (same : Same loose c f) (message : WebMessage) (bo : BufferOptions) :
    Same loose (c.sendMessage message bo) (f.sendMessage message bo) := by
  have sent := (same.sock.buffer
    (webMessageHeader true message.opcode.toNat (payload message).length none)).writeString
    (payload message) bo
  simp only [ServerConnection.sendMessage, same.pingTimer]
  split
  · exact same.drop sent.writeShutdown
  · exact same.send sent _

/-- A call that throws or changes the connection. -/
inductive Calls (loose : Prop) :
    Except Error ServerConnection → Except Error ServerConnection → Prop where
  | error (e : Error) : Calls loose (.error e) (.error e)
  | ok {c f : ServerConnection} (same : Same loose c f) : Calls loose (.ok c) (.ok f)

/-- A check that both calls make. -/
theorem Calls.check {expr : Bool} {message : String} {next next' : Unit → Except Error ServerConnection}
    (rest : expr = true → Calls loose (next ()) (next' ())) :
    Calls loose (invariant expr message >>= next) (invariant expr message >>= next') := by
  cases expr with
  | false => exact .error _
  | true => exact rest rfl

theorem Same.writeMessage (same : Same loose c f) (message : WebMessage) (bo : BufferOptions) :
    Calls loose (c.writeMessage message bo) (f.writeMessage message bo) := by
  simp only [ServerConnection.writeMessage, same.isOpen, same.isStateWebsocket, same.writing]
  split
  · exact .ok same
  · refine Calls.check fun _ => Calls.check fun _ => .ok (same.sendMessage message bo)

theorem Same.sendUpgrade (same : Same loose c f) : Same loose c.sendUpgrade f.sendUpgrade where
  state := rfl
  writing := same.writing
  pingTimer := rfl
  request := same.request
  buffer := same.buffer
  sock := by
    simp only [ServerConnection.sendUpgrade, ServerConnection.upgradeResponse, same.request]
    exact same.sock.writeString _ .write
  message := same.message
  body := by simp [ServerConnection.sendUpgrade]
  web := fun _ => by simp [ServerConnection.sendUpgrade, same.message]
  remaining := by simp [ServerConnection.sendUpgrade]

theorem Same.webSocketUpgrade (same : Same loose c f) :
    Calls loose c.webSocketUpgrade f.webSocketUpgrade := by
  simp only [ServerConnection.webSocketUpgrade, same.isOpen, same.state, same.request]
  split
  · exact .ok same
  · refine Calls.check fun _ => ?_
    split
    · exact .error _
    · exact .ok same.sendUpgrade

theorem Same.sendHeader (same : Same loose c f) (resp : ResponseHeader) (bo : BufferOptions) :
    Same loose (c.sendHeader resp bo) (f.sendHeader resp bo) where
  state := rfl
  writing := same.writing
  pingTimer := same.pingTimer
  request := same.request
  buffer := same.buffer
  sock := by
    simp only [ServerConnection.sendHeader, ServerConnection.completeHeader, same.request]
    exact same.sock.writeString _ bo
  message := same.message
  body := by simp [ServerConnection.sendHeader]
  web := by simp [ServerConnection.sendHeader, ServerConnection.isStateWebsocket]
  remaining := fun _ => rfl

theorem Same.writeHeader (same : Same loose c f) (resp : ResponseHeader) (bo : BufferOptions) :
    Calls loose (c.writeHeader resp bo) (f.writeHeader resp bo) := by
  simp only [ServerConnection.writeHeader, same.isOpen, same.state]
  split
  · exact .ok same
  · exact Calls.check fun _ => Calls.check fun _ => Calls.check fun _ => .ok (same.sendHeader resp bo)

theorem Same.writeOpcode (same : Same loose c f) (opcode : WebMessageOpcode) :
    Calls loose (c.writeOpcode opcode) (f.writeOpcode opcode) := by
  simp only [ServerConnection.writeOpcode, same.isOpen, same.isStateWebsocket, same.writing]
  split
  · exact .ok same
  · refine Calls.check fun _ => Calls.check fun _ => Calls.check fun _ => .ok ?_
    exact (same.stream true).sendOnly (same.sock.buffer _)

theorem Same.finishResponse (same : Same loose c f) : Same loose c.finishResponse f.finishResponse := by
  simp only [ServerConnection.finishResponse, same.request]
  split
  · exact ⟨rfl, same.writing, same.pingTimer, rfl, same.buffer.clear, same.sock.writeShutdown,
      same.message, by simp, by simp [ServerConnection.isStateWebsocket], by simp⟩
  · exact ⟨rfl, same.writing, same.pingTimer, rfl, same.buffer, same.sock, same.message, by simp,
      by simp [ServerConnection.isStateWebsocket], by simp⟩

/-- A body write, whichever overload of the socket it calls. -/
theorem Same.writeBody (same : Same loose c f) (send : Send) (val : Bytes) (bo : BufferOptions)
    (sends : ∀ {s t}, AlikeBuffered loose s t → AlikeBuffered loose (send s val bo) (send t val bo)) :
    Calls loose (c.writeBody send val bo) (f.writeBody send val bo) := by
  simp only [ServerConnection.writeBody, same.isWritingBody, same.writing]
  refine Calls.check fun writing => ?_
  split
  · refine .ok ?_
    simp only [sendFrame, same.pingTimer]
    split
    · exact same
    · exact same.send (sends (same.sock.buffer _)) _
  · rename_i plain
    have state : c.state = .responseBody := by
      simpa [ServerConnection.isWritingBody, plain] using writing
    rw [same.remaining state]
    split
    · rename_i remaining counted
      refine Calls.check fun _ => .ok ?_
      have sent : Same loose
          { c with remainingBodyContentLength := some (remaining - val.length),
                   sock := send c.sock val bo }
          { f with remainingBodyContentLength := some (remaining - val.length),
                   sock := send f.sock val bo } :=
        ⟨same.state, same.writing, same.pingTimer, same.request, same.buffer, sends same.sock,
          same.message, same.body, same.web, fun _ => rfl⟩
      simp only [sendCounted]
      split
      · exact sent.finishResponse
      · exact sent
    · refine .ok ?_
      simp only [sendChunk]
      split
      · exact same
      · exact same.sendOnly (((same.sock.buffer _).buffer _).write _ bo)

theorem Same.writeLastChunk (same : Same loose c f) (bo : BufferOptions) :
    Calls loose (c.writeLastChunk bo) (f.writeLastChunk bo) := by
  simp only [ServerConnection.writeLastChunk, same.isWritingBody, same.writing, same.state]
  refine Calls.check fun writing => ?_
  split
  · refine .ok ?_
    simp only [sendLastFrame, same.pingTimer]
    exact (same.stream false).send (same.sock.write _ bo) _
  · rename_i plain
    have state : c.state = .responseBody := by
      simpa [ServerConnection.isWritingBody, plain] using writing
    rw [same.remaining state]
    refine Calls.check fun _ => Calls.check fun _ => .ok ?_
    exact (same.sendOnly (same.sock.writeString _ bo)).finishResponse

theorem Same.writeResponse (same : Same loose c f) (resp : Response) :
    (f.writeResponse resp).1 = (c.writeResponse resp).1 ∧
      Same loose (c.writeResponse resp).2 (f.writeResponse resp).2 := by
  simp only [ServerConnection.writeResponse, same.isOpen]
  split
  · exact ⟨rfl, same⟩
  · have header := same.writeHeader resp.header .bufferOnly
    generalize c.writeHeader resp.header .bufferOnly = x at header
    generalize f.writeHeader resp.header .bufferOnly = y at header
    cases header with
    | error e => exact ⟨rfl, same⟩
    | ok first =>
      rename_i c' f'
      simp only
      generalize (if resp.header.transferEncodingChunked = true then
        BufferOptions.bufferOnly else .write) = bo
      have body := first.writeBody BufferedTcpSocket.writeString resp.body bo
        fun alike => alike.writeString _ bo
      simp only [ServerConnection.writeString]
      generalize c'.writeBody BufferedTcpSocket.writeString resp.body bo = x at body
      generalize f'.writeBody BufferedTcpSocket.writeString resp.body bo = y at body
      cases body with
      | error e => exact ⟨rfl, first⟩
      | ok second =>
        rename_i c'' f''
        simp only
        split
        · have last := second.writeLastChunk .write
          generalize c''.writeLastChunk .write = x at last
          generalize f''.writeLastChunk .write = y at last
          cases last with
          | error e => exact ⟨rfl, second⟩
          | ok third => exact ⟨rfl, third⟩
        · exact ⟨rfl, second⟩

theorem Same.onWmPingTimer (same : Same loose c f) : Calls loose c.onWmPingTimer f.onWmPingTimer := by
  have fired : Same loose { c with wmPingTimer := false } { f with wmPingTimer := false } :=
    same.send same.sock false
  simp only [ServerConnection.onWmPingTimer, same.pingTimer,
    BufferedTcpSocket.getTotalBufferSize, same.sock.total]
  split
  · exact .ok same
  · by_cases flushed : c.sock.totalDataToWrite = 0
    · simp only [flushed, ne_eq, not_true_eq_false, ↓reduceIte]
      have pinged := fired.writeMessage { opcode := .ping } .write
      generalize ServerConnection.writeMessage { c with wmPingTimer := false } { opcode := .ping }
        .write = x at pinged ⊢
      generalize ServerConnection.writeMessage { f with wmPingTimer := false } { opcode := .ping }
        .write = y at pinged ⊢
      cases pinged with
      | error e => exact .error e
      | ok same' => exact .ok (same'.send same'.sock true)
    · simp only [flushed, ne_eq, not_false_eq_true, ↓reduceIte]
      exact .ok (same.send (same.sock.writeString [] .write) true)

/-- What a pass of the loop returns, with the connection it leaves. -/
def Passes (loose : Prop) (x y : Turn × ServerConnection) : Prop := y.1 = x.1 ∧ Same loose x.2 y.2

private theorem readRequestBody_same (same : Same loose c f) (state : c.state = .requestBody) :
    Passes loose c.readRequestBody f.readRequestBody := by
  have parser := same.body (.inl state)
  have parsed := parseWith_same (p := c.httpBodyParser.parse) same.buffer
  unfold readRequestBody
  rw [parser]
  cases done : c.readBuffer.parseWith c.httpBodyParser.parse with
  | error e =>
    simp only [done] at parsed
    simp only [parsed]
    exact ⟨rfl, same⟩
  | ok result =>
    simp only [done] at parsed
    obtain ⟨rest', done', same'⟩ := parsed
    simp only [done']
    split
    · exact ⟨rfl, same.state, same.writing, same.pingTimer, same.request, same', same.sock, same.message,
        fun _ => rfl, same.web, same.remaining⟩
    · exact ⟨rfl, rfl, same.writing, same.pingTimer, same.request, same', same.sock, same.message,
        fun _ => rfl, by simp [ServerConnection.isStateWebsocket], by simp⟩

private theorem readRequestHeader_same (same : Same loose c f) (state : c.state = .requestHeader) :
    Passes loose c.readRequestHeader f.readRequestHeader := by
  have parsed := parseWith_same (p := c.requestParser.parse) same.buffer
  unfold readRequestHeader
  rw [same.request]
  cases done : c.readBuffer.parseWith c.requestParser.parse with
  | error e =>
    simp only [done] at parsed
    simp only [parsed]
    exact ⟨rfl, same⟩
  | ok result =>
    simp only [done] at parsed
    obtain ⟨rest', done', same'⟩ := parsed
    simp only [done']
    split
    · exact ⟨rfl, same.state, same.writing, same.pingTimer, rfl, same', same.sock, same.message,
        by simp [state], same.web, same.remaining⟩
    · exact readRequestBody_same ⟨rfl, same.writing, same.pingTimer, rfl, same', same.sock, same.message,
        fun _ => rfl, by simp [ServerConnection.isStateWebsocket], by simp⟩ rfl

private theorem readWebMessage_same (same : Same loose c f)
    (web : c.isStateWebsocket = true) (state : WebState) :
    Passes loose (c.readWebMessage state) (f.readWebMessage state) := by
  have reader := same.web web
  obtain ⟨action, next, parsers, buffers⟩ := read_same same.buffer state c.reader
  have here : Same loose
      { c with
        state := .web (c.reader.read state c.readBuffer).2.1
        reader := (c.reader.read state c.readBuffer).2.2.1
        readBuffer := (c.reader.read state c.readBuffer).2.2.2 }
      { f with
        state := .web (c.reader.read state c.readBuffer).2.1
        reader := (c.reader.read state c.readBuffer).2.2.1
        readBuffer := (c.reader.read state f.readBuffer).2.2.2 } :=
    ⟨rfl, same.writing, same.pingTimer, same.request, buffers, same.sock, rfl, by simp,
      fun _ => rfl, by simp⟩
  simp only [readWebMessage, reader, action, next, parsers]
  split
  · exact ⟨rfl, here⟩
  · exact ⟨rfl, here⟩
  · exact ⟨rfl, here⟩
  · rename_i body _
    have answered := here.writeMessage { opcode := .pong, body := body } .write
    revert answered
    generalize ServerConnection.writeMessage _ { opcode := .pong, body := body } .write = x
    generalize ServerConnection.writeMessage _ { opcode := .pong, body := body } .write = y
    intro answered
    cases answered with
    | error e => exact ⟨rfl, here⟩
    | ok same' => exact ⟨rfl, same'⟩
  · have answered := here.writeMessage
      { opcode := .close, closeCode := WebMessage.closeStatusNotUtf8 } .write
    revert answered
    generalize ServerConnection.writeMessage
      _ { opcode := .close, closeCode := WebMessage.closeStatusNotUtf8 } .write = x
    generalize ServerConnection.writeMessage
      _ { opcode := .close, closeCode := WebMessage.closeStatusNotUtf8 } .write = y
    intro answered
    cases answered with
    | error e => exact ⟨rfl, here⟩
    | ok same' => exact ⟨rfl, same'⟩

private theorem switchState_same (same : Same loose c f) : Passes loose c.switchState f.switchState := by
  unfold switchState
  rw [same.state]
  split
  · rename_i state
    exact readRequestHeader_same same state
  · rename_i state
    exact readRequestBody_same same state
  · rename_i state
    exact readWebMessage_same same (by simp [ServerConnection.isStateWebsocket, state]) _
  · rename_i state
    exact readWebMessage_same same (by simp [ServerConnection.isStateWebsocket, state]) _
  · exact ⟨rfl, same⟩

private theorem turn_same (same : Same loose c f) : Passes loose c.turn f.turn := by
  obtain ⟨count, buffers, socks⟩ := same.sock.readFrom same.buffer
  have read : Same loose
      { c with
        readBuffer := (c.readBuffer.readFrom BufferedTcpSocket.istream c.sock).2.1
        sock := (c.readBuffer.readFrom BufferedTcpSocket.istream c.sock).2.2 }
      { f with
        readBuffer := (f.readBuffer.readFrom BufferedTcpSocket.istream f.sock).2.1
        sock := (f.readBuffer.readFrom BufferedTcpSocket.istream f.sock).2.2 } :=
    ⟨same.state, same.writing, same.pingTimer, same.request, buffers, socks,
      same.message, same.body, same.web, same.remaining⟩
  simp only [turn, same.buffer.empty, count]
  split
  · split
    · exact ⟨rfl, read⟩
    · exact switchState_same read
  · exact switchState_same same

private theorem tryLoop_same (passes : Nat) (same : Same loose c f) :
    Passes loose (tryLoop passes c) (tryLoop passes f) :=
  server_models.counted.follows server_models.counted (fun _ _ same => ⟨rfl, same⟩)
    (fun _ _ => turn_same) passes same

/-- Both connections take the same number of passes, as a socket that is open
keeps its descriptor. -/
private theorem passes_same (same : Same loose c f) (opened : c.isOpen = true) :
    f.passes = c.passes := by
  simp only [passes, same.buffer.size, same.sock.sock.descriptor opened]

theorem Same.advanceState (same : Same loose c f) (opened : c.isOpen = true) :
    f.advanceState.1 = c.advanceState.1 ∧ Same loose c.advanceState.2 f.advanceState.2 ∧
      caught f = caught c := by
  obtain ⟨ended, next⟩ := tryLoop_same c.passes same
  simp only [ServerConnection.advanceState, caught,
    BufferedTcpSocket.getTotalBufferSize, same.sock.total, passes_same same opened]
  generalize tryLoop c.passes c = x at ended next
  generalize tryLoop c.passes f = y at ended next
  obtain ⟨ending, c'⟩ := x
  obtain ⟨ending', f'⟩ := y
  simp only at ended next
  subst ended
  by_cases flushed : c.sock.totalDataToWrite = 0
  · simp only [flushed, ne_eq, not_true_eq_false, ↓reduceIte]
    cases ending' with
    | again => exact ⟨rfl, next, trivial⟩
    | stop result => exact ⟨rfl, next, trivial⟩
    | throw e => exact ⟨rfl, next.drop next.sock.writeShutdown, trivial⟩
  · simp only [flushed, ne_eq, not_false_eq_true, ↓reduceIte]
    exact ⟨trivial, same, trivial⟩

theorem Same.takeRequest (same : Same loose c f) : Same loose c.takeRequest f.takeRequest where
  state := rfl
  writing := same.writing
  pingTimer := same.pingTimer
  request := by simp [ServerConnection.takeRequest, same.request]
  buffer := same.buffer
  sock := same.sock
  message := same.message
  body := by simp [ServerConnection.takeRequest]
  web := by simp [ServerConnection.takeRequest, ServerConnection.isStateWebsocket]
  remaining := by simp [ServerConnection.takeRequest]

theorem Same.takeMessage (same : Same loose c f) (web : c.isStateWebsocket = true) :
    Same loose c.takeMessage f.takeMessage where
  state := rfl
  writing := same.writing
  pingTimer := same.pingTimer
  request := same.request
  buffer := same.buffer
  sock := same.sock
  message := rfl
  body := by simp [ServerConnection.takeMessage]
  web := fun _ => by simp [ServerConnection.takeMessage, same.web web]
  remaining := by simp [ServerConnection.takeMessage]

/-- The connection is open in every state but the first. -/
private theorem opened_of_mode (mode : Mode c) (state : c.state ≠ .requestHeader) : c.isOpen = true := by
  rcases mode with dead | serving | ⟨opened, -⟩
  · exact absurd dead.state state
  · exact serving.opened
  · exact opened

theorem Same.sockHandler (same : Same loose c f) :
    f.sockHandler.1 = c.sockHandler.1 ∧ Same loose c.sockHandler.2 f.sockHandler.2 := by
  simp only [ServerConnection.sockHandler, same.isOpen, same.isWritingBody]
  split
  · exact ⟨rfl, same.close⟩
  · rename_i opened
    split
    · exact ⟨rfl, same⟩
    · obtain ⟨result, next, -⟩ := same.advanceState (by simpa using opened)
      exact ⟨result, next⟩

theorem Same.socketEvent (same : Same loose c f) : Same loose c.socketEvent f.socketEvent := by
  have unlinked :
      AlikeBuffered loose { c.sock with sock.pending := false } { f.sock with sock.pending := false } :=
    ⟨same.sock.pieces, same.sock.total, same.sock.asked, same.sock.timer, same.sock.sock.unlinked⟩
  exact same.sendOnly unlinked.sockHandler

theorem Same.dispatch (same : Same loose c f) :
    f.dispatch.1 = c.dispatch.1 ∧ Same loose c.dispatch.2 f.dispatch.2 := by
  simp only [ServerConnection.dispatch, same.sock.sock.pending]
  split
  · exact same.socketEvent.sockHandler
  · exact ⟨rfl, same⟩

theorem Same.shutdownTimerHandler (same : Same loose c f) :
    f.shutdownTimerHandler.1 = c.shutdownTimerHandler.1 ∧
      Same loose c.shutdownTimerHandler.2 f.shutdownTimerHandler.2 := by
  simp only [ServerConnection.shutdownTimerHandler, same.sock.timer]
  split
  · exact (same.sendOnly same.sock.shutdownTimerHandler).sockHandler
  · exact ⟨rfl, same⟩

/-- `accept` closes the connection first. -/
private theorem accept_of_closed (closed : Same loose c.close f.close) (accepted : Accepted) :
    (f.accept accepted).1 = (c.accept accepted).1 ∧
      Same loose (c.accept accepted).2 (f.accept accepted).2 := by
  have socks := closed.sock.accept accepted
  simp only [ServerConnection.accept]
  cases done : c.close.sock.accept accepted with
  | error e =>
    simp only [done] at socks
    simp only [socks]
    exact ⟨trivial, closed⟩
  | ok s =>
    simp only [done] at socks
    obtain ⟨t, done', socks⟩ := socks
    simp only [done']
    exact ⟨trivial, rfl, rfl, rfl, rfl, closed.buffer, socks, closed.message, by simp,
      by simp [ServerConnection.isStateWebsocket], by simp⟩

private theorem settle_same {x y : Except Error ServerConnection} (same : Same loose c f)
    (calls : Calls loose x y) :
    (settle f y).error = (settle c x).error ∧ (settle f y).request = (settle c x).request ∧
      (settle f y).message = (settle c x).message ∧ Same loose (settle c x).conn (settle f y).conn := by
  cases calls with
  | error e => exact ⟨rfl, rfl, rfl, same⟩
  | ok next => exact ⟨rfl, rfl, rfl, next⟩

private theorem settleAfter_same {x y : Except Error Unit × ServerConnection} (result : y.1 = x.1)
    (same : Same loose x.2 y.2) :
    (settleAfter y).error = (settleAfter x).error ∧ (settleAfter y).request = (settleAfter x).request ∧
      (settleAfter y).message = (settleAfter x).message ∧
      Same loose (settleAfter x).conn (settleAfter y).conn := by
  simp only [settleAfter, result]
  split <;> exact ⟨rfl, rfl, rfl, same⟩

/-- One operation: both connections show the same and stay the same. Where
bytes arrive without an event that reports them, the flags must agree. -/
theorem Same.perform (same : Same loose c f) (mode : Mode c) (op : ServerOp)
    (fair : loose → isArrive op = false) :
    observe f op = observe c op ∧
      Same loose (ServerRun.perform c op).conn (ServerRun.perform f op).conn := by
  have both : ∀ {x y : Effect}, catches f op = catches c op → ServerRun.perform c op = x →
    ServerRun.perform f op = y →
      y.error = x.error ∧ y.request = x.request ∧ y.message = x.message ∧ Same loose x.conn y.conn →
      observe f op = observe c op ∧
      Same loose (ServerRun.perform c op).conn (ServerRun.perform f op).conn := by
    rintro x y caught rfl rfl ⟨error, request, message, next⟩
    exact ⟨by simp [observe, error, request, message, caught], next⟩
  cases op with
  | accept accepted =>
    obtain ⟨result, next⟩ := accept_of_closed same.close accepted
    exact both rfl rfl rfl (settleAfter_same result next)
  | close => exact both rfl rfl rfl ⟨rfl, rfl, rfl, same.close⟩
  | readNextRequest =>
    by_cases ready : c.state = .requestReady
    · have opened := opened_of_mode mode (by simp [ready])
      obtain ⟨-, next, caught⟩ := same.takeRequest.advanceState opened
      refine both (by simp [catches, same.state, ready, caught]) rfl rfl ?_
      simp only [ServerRun.perform, readNextRequest, same.state, ready, ne_eq,
        not_true_eq_false, ↓reduceIte, same.request, same.body (.inr ready), true_and]
      exact next
    · refine both (by simp [catches, same.state, beq_eq_false_iff_ne.mpr ready]) rfl rfl ?_
      simp only [ServerRun.perform, readNextRequest, same.state, ready, ne_eq,
        not_false_eq_true, ↓reduceIte, true_and]
      exact same
  | readNextMessage =>
    by_cases ready : c.state = .web .ready ∧ c.writingWebMessageBody = false
    · obtain ⟨state, plain⟩ := ready
      have opened := opened_of_mode mode (by simp [state])
      obtain ⟨-, next, caught⟩ :=
        (same.takeMessage (by simp [ServerConnection.isStateWebsocket, state])).advanceState opened
      refine both (by simp [catches, same.state, state, same.writing, plain, caught]) rfl rfl ?_
      simp only [ServerRun.perform, readNextMessage, same.state, state, same.writing, plain,
        ne_eq, not_true_eq_false, Bool.false_eq_true, or_self, ↓reduceIte, same.message, true_and]
      exact next
    · have waiting : c.state ≠ .web .ready ∨ c.writingWebMessageBody = true := by
        by_cases state : c.state = .web .ready
        · exact .inr (by simpa [state] using ready)
        · exact .inl state
      refine both (by simp only [catches, same.state, same.writing]; grind) rfl rfl ?_
      simp only [ServerRun.perform, readNextMessage, same.state, same.writing,
        waiting, ↓reduceIte, true_and]
      exact same
  | webSocketUpgrade => exact both rfl rfl rfl (settle_same same same.webSocketUpgrade)
  | writeResponse resp =>
    obtain ⟨result, next⟩ := same.writeResponse resp
    exact both rfl rfl rfl (settleAfter_same result next)
  | writeHeader resp bo => exact both rfl rfl rfl (settle_same same (same.writeHeader resp bo))
  | writeMessage message bo => exact both rfl rfl rfl (settle_same same (same.writeMessage message bo))
  | writeOpcode opcode => exact both rfl rfl rfl (settle_same same (same.writeOpcode opcode))
  | writeData val bo =>
    exact both rfl rfl rfl (settle_same same (same.writeBody _ val bo fun alike => alike.write val bo))
  | writeString ss bo =>
    exact both rfl rfl rfl (settle_same same (same.writeBody _ ss bo fun alike =>
      alike.writeString ss bo))
  | writeLastChunk bo => exact both rfl rfl rfl (settle_same same (same.writeLastChunk bo))
  | arrive arrivals =>
    have flags : f.sock.sock.canRead = c.sock.sock.canRead :=
      same.sock.sock.canRead.resolve_right fun relied => by simpa [isArrive] using fair relied.1
    exact both rfl rfl rfl ⟨rfl, rfl, rfl,
      same.sendOnly ⟨same.sock.pieces, same.sock.total, same.sock.asked,
      same.sock.timer, same.sock.sock.arrive arrivals flags⟩⟩
  | plan sends =>
    exact both rfl rfl rfl ⟨rfl, rfl, rfl,
      same.sendOnly ⟨same.sock.pieces, same.sock.total, same.sock.asked,
      same.sock.timer, same.sock.sock.plan sends⟩⟩
  | notify canRead canWrite =>
    exact both rfl rfl rfl ⟨rfl, rfl, rfl,
      same.sendOnly ⟨same.sock.pieces, same.sock.total, same.sock.asked,
      same.sock.timer, same.sock.sock.notify canRead canWrite⟩⟩
  | dispatch =>
    have event := same.socketEvent
    refine both ?_ rfl rfl ⟨rfl, rfl, rfl, same.dispatch.2⟩
    simp only [catches, same.sock.sock.pending, event.isOpen, event.isWritingBody]
    cases opened : c.socketEvent.isOpen with
    | false => simp
    | true => rw [(event.advanceState opened).2.2]
  | pingTimer => exact both rfl rfl rfl (settle_same same same.onWmPingTimer)
  | shutdownTimer => exact both rfl rfl rfl ⟨rfl, rfl, rfl, same.shutdownTimerHandler.2⟩

/-- Segments that arrive with the event that reports them. -/
private theorem segments_same (same : Same loose c f) (arrivals : List Arrival) (canWrite : Bool) :
    Same loose { c with sock.sock := (c.sock.sock.arrive arrivals).notify (!arrivals.isEmpty) canWrite }
      { f with sock.sock := (f.sock.sock.arrive arrivals).notify (!arrivals.isEmpty) canWrite } :=
  same.sendOnly ⟨same.sock.pieces, same.sock.total, same.sock.asked, same.sock.timer,
    same.sock.sock.arriveNotify arrivals canWrite⟩

theorem mode_afterOps (mode : Mode c) (ops : List ServerOp) : Mode (afterOps c ops) :=
  Run.invariant_of_keeps (P := Mode) (fun _ op held => perform_mode held op) mode ops

/-- One input: both connections show the same and stay the same. -/
theorem input_lockstep (same : Same True c f) (mode : Mode c) (input : Input) :
    Run.seen (fun c op => (perform c op).conn) observe f input.ops =
        Run.seen (fun c op => (perform c op).conn) observe c input.ops ∧
      Same True (afterOps c input.ops) (afterOps f input.ops) ∧ Mode (afterOps c input.ops) := by
  refine ⟨?_, ?_, mode_afterOps mode input.ops⟩
  · cases input with
    | single op other => simp [Input.ops, (same.perform mode op fun _ => other).1]
    | segments arrivals canWrite =>
      have reported := segments_same same arrivals canWrite
      have mode' : Mode (afterOps c [.arrive arrivals, .notify (!arrivals.isEmpty) canWrite]) :=
        mode_afterOps mode _
      have dispatched := (reported.perform mode' .dispatch fun _ => rfl).1
      simp only [Input.ops, Run.seen_cons, Run.seen_nil, List.cons.injEq, and_true]
      exact ⟨rfl, rfl, dispatched⟩
  · cases input with
    | single op other => exact (same.perform mode op fun _ => other).2
    | segments arrivals canWrite => exact (segments_same same arrivals canWrite).dispatch.2

/-- Connections that are the same are never told apart. -/
theorem observed_same (same : Same True c f) (mode : Mode c) (inputs : List Input) :
    observed f inputs = observed c inputs :=
  Run.seen_eq_of_lockstep (R := fun c f => Same True c f ∧ Mode c)
    (fun _ _ input held => input_lockstep held.1 held.2 input) ⟨same, mode⟩ inputs

/-- A connection that can be reached: it is like itself, with all that this
says about its buffer and its socket. -/
structure Reached (c : ServerConnection) : Prop where
  self : Same False c c
  mode : Mode c

theorem reached_start : Reached {} where
  self := ⟨rfl, rfl, rfl, rfl, make_same, ⟨rfl, rfl, rfl, rfl, alike_refl fun _ => rfl⟩, rfl,
    fun _ => rfl, fun _ => rfl, fun _ => rfl⟩
  mode := .inl ⟨rfl, rfl, rfl, rfl, rfl⟩

theorem reached (history : List ServerOp) : Reached (afterOps {} history) :=
  Run.invariant_of_keeps (P := Reached)
    (fun _ op held => ⟨(held.self.perform held.mode op fun impossible => impossible.elim).2,
    perform_mode held.mode op⟩) reached_start history

/-- Closing leaves a connection like a new one, but for the request parser,
which `accept` makes new, and a message that was left behind. -/
private theorem close_same (held : Reached c) (clean : c.reader.webMessage = none) :
    Same True c.close { requestParser := c.requestParser } :=
  ⟨rfl, rfl, rfl, rfl, clear_make held.self.buffer, alikeBuffered_closed held.self.sock, clean.symm,
    by simp [ServerConnection.close], by
    simp [ServerConnection.close, ServerConnection.isStateWebsocket],
    by simp [ServerConnection.close]⟩

/-- After an accept that got a connection, only a message that was left behind
tells a used connection from a new one. -/
theorem accept_same (held : Reached c) (clean : c.reader.webMessage = none) {accepted : Accepted}
    (got : accepted ≠ .missing) :
    Same True (c.accept accepted).2 (({} : ServerConnection).accept accepted).2 := by
  have closed : Same True c.close ({ requestParser := c.requestParser } : ServerConnection).close :=
    close_same held clean
  have next := (accept_of_closed closed accepted).2
  cases accepted with
  | missing => exact absurd rfl got
  | ready => exact next
  | refused => exact next

end Crablib.ServerHistoryProofs
