import Crablib.AlikeProofs
import Crablib.ClientRun
import Crablib.EndpointProofs

/-! Two client connections that cannot be told apart, as in
`ServerHistoryProofs`. The client drops the parsers of an old connection when it
writes the first request of a new one. -/
namespace Crablib.ClientHistoryProofs
open Http ClientConnection ClientRun StreamsProofs SocketProofs InboundProofs AlikeProofs
open EndpointProofs (client client_models)

variable {loose : Prop} {c d f : ClientConnection}

/-- The states in which the response parser is at work or keeps a response. -/
def awaits : ClientState → Bool
  | .responseHeader => true
  | .responseBody => true
  | .responseReady => true
  | .webUpgradeResponseHeader => true
  | _ => false

def isWeb : ClientState → Bool
  | .web _ => true
  | _ => false

/-- Connections that agree in what their state reads. -/
structure Same (loose : Prop) (c f : ClientConnection) : Prop where
  state : f.state = c.state
  dnsOpen : f.dnsOpen = c.dnsOpen
  waiting : f.waitingRequest = c.waitingRequest
  protocol : f.protocol = c.protocol
  host : f.host = c.host
  port : f.port = c.port
  keys : f.keys = c.keys
  buffer : SameBuffer c.readBuffer f.readBuffer
  sock : AlikeBuffered loose c.sock f.sock
  message : f.reader.webMessage = c.reader.webMessage
  response : awaits c.state = true → f.responseParser = c.responseParser
  body : c.state = .responseBody ∨ c.state = .responseReady → f.httpBodyParser = c.httpBodyParser
  web : isWeb c.state = true → f.reader = c.reader
  upgrade : c.state = .webUpgradeResponseHeader → f.secWebsocketKey = c.secWebsocketKey

theorem Same.isOpen (same : Same loose c f) : f.isOpen = c.isOpen := by
  simp [ClientConnection.isOpen, same.dnsOpen, same.sock.isOpen]

theorem Same.close (same : Same loose c f) : Same loose c.close f.close where
  state := rfl
  dnsOpen := rfl
  waiting := rfl
  protocol := rfl
  host := rfl
  port := rfl
  keys := same.keys
  buffer := same.buffer.clear
  sock := same.sock.close false
  message := same.message
  response := by simp [ClientConnection.close, awaits]
  body := by simp [ClientConnection.close]
  web := by simp [ClientConnection.close, isWeb]
  upgrade := by simp [ClientConnection.close]

theorem Same.onSock (same : Same loose c f) {s t : BufferedTcpSocket} (socks : AlikeBuffered loose s t) :
    Same loose { c with sock := s } { f with sock := t } :=
  { same with sock := socks }

/-- In these states nothing of the parsers is read. -/
theorem Same.idle (same : Same loose c f) {state : ClientState}
    (quiet : state = .resolvingHost ∨ state = .waitingWriteRequest) :
    Same loose { c with state := state } { f with state := state } :=
  { same with
    state := rfl
    response := by rcases quiet with rfl | rfl <;> simp [awaits]
    body := by rcases quiet with rfl | rfl <;> simp
    web := by rcases quiet with rfl | rfl <;> simp [isWeb]
    upgrade := by rcases quiet with rfl | rfl <;> simp }

/-- The read buffer is dropped where the connection is shut down. -/
theorem Same.drop (same : Same loose c f) {s t : BufferedTcpSocket} (socks : AlikeBuffered loose s t) :
    Same loose { c with readBuffer := c.readBuffer.clear, sock := s } { f with
      readBuffer := f.readBuffer.clear, sock := t } :=
  { same with buffer := same.buffer.clear, sock := socks }

theorem Same.connectAddress (same : Same loose c f) (host : Bytes) (port : UInt16)
    (result : ConnectResult) :
    (f.connectAddress host port result).1 = (c.connectAddress host port result).1 ∧
      Same loose (c.connectAddress host port result).2 (f.connectAddress host port result).2 := by
  have closed := same.close
  obtain ⟨connected, socks⟩ := closed.sock.connect result
  simp only [ClientConnection.connectAddress, connected]
  split
  · exact ⟨rfl, closed.onSock socks⟩
  · refine ⟨rfl, ?_⟩
    have open_ := (closed.onSock socks).idle (.inr rfl : ClientState.waitingWriteRequest = _ ∨ _)
    exact { open_ with host := rfl, port := rfl, protocol := rfl }

theorem Same.connectHost (same : Same loose c f) (host : Bytes) (port : UInt16) (protocol : Bytes) :
    (f.connectHost host port protocol).1 = (c.connectHost host port protocol).1 ∧
      Same loose (c.connectHost host port protocol).2 (f.connectHost host port protocol).2 := by
  have closed := same.close
  simp only [ClientConnection.connectHost]
  split
  · exact ⟨rfl, closed⟩
  · refine ⟨rfl, ?_⟩
    have resolving := closed.idle (.inl rfl : ClientState.resolvingHost = _ ∨ _)
    exact { resolving with dnsOpen := rfl, host := rfl, port := rfl, protocol := rfl }

/-- A call that throws or changes the connection. -/
inductive Calls (loose : Prop) :
    Except Error ClientConnection → Except Error ClientConnection → Prop where
  | error (e : Error) : Calls loose (.error e) (.error e)
  | ok {c f : ClientConnection} (same : Same loose c f) : Calls loose (.ok c) (.ok f)

/-- A check that both calls make. -/
theorem Calls.check {expr : Bool} {message : String} {next next' : Unit → Except Error ClientConnection}
    (rest : expr = true → Calls loose (next ()) (next' ())) :
    Calls loose (invariant expr message >>= next) (invariant expr message >>= next') := by
  cases expr with
  | false => exact .error _
  | true => exact rest rfl

theorem Same.sendRequest (same : Same loose c f) (header : RequestHeader) (body : Bytes) :
    Same loose (c.sendRequest header body) (f.sendRequest header body) := by
  have socks : AlikeBuffered loose ((c.sock.bufferString header.toString).writeString body .write)
      ((f.sock.bufferString header.toString).writeString body .write) :=
    (same.sock.buffer header.toString).writeString body .write
  simp only [ClientConnection.sendRequest]
  split
  · exact { same with
      state := rfl, sock := socks, response := fun _ => rfl, body := by simp, web := by
        simp [isWeb], upgrade := fun _ => rfl }
  · exact { same with
      state := rfl, sock := socks, response := fun _ => rfl, body := by simp, web := by
        simp [isWeb], upgrade := by simp }

theorem Same.writeRequest (same : Same loose c f) (req : Request) :
    Calls loose (c.writeRequest req) (f.writeRequest req) := by
  simp only [ClientConnection.writeRequest, same.isOpen, same.state, same.waiting, same.host]
  split
  · exact .ok same
  · split
    · exact Calls.check fun _ => .ok { same with state := rfl, host := rfl, waiting := rfl }
    · exact Calls.check fun _ => Calls.check fun _ => Calls.check fun _ => .ok (same.sendRequest _ _)

theorem Same.sendMessage (same : Same loose c f) (message : WebMessage) :
    Same loose (c.sendMessage message) (f.sendMessage message) := by
  have socks := (same.sock.buffer (webMessageHeader true message.opcode.toNat (payload message).length
    (some (c.keys.headD 0)))).writeString (maskData 0 (payload message) (c.keys.headD 0)) .write
  simp only [ClientConnection.sendMessage, same.keys]
  split
  · exact { same with keys := rfl, buffer := same.buffer.clear, sock := socks.writeShutdown }
  · exact { same with keys := rfl, sock := socks }

theorem Same.writeMessage (same : Same loose c f) (message : WebMessage) :
    Calls loose (c.writeMessage message) (f.writeMessage message) := by
  simp only [ClientConnection.writeMessage, same.isOpen, mayWriteMessage, same.state]
  split
  · exact .ok same
  · exact Calls.check fun _ => .ok (same.sendMessage message)

/-- What a pass of the loop returns, with the connection it leaves. -/
def Passes (loose : Prop) (x y : Turn × ClientConnection) : Prop := y.1 = x.1 ∧ Same loose x.2 y.2

private theorem readResponseBody_same (same : Same loose c f) (state : c.state = .responseBody) :
    Passes loose c.readResponseBody f.readResponseBody := by
  have parser := same.body (.inl state)
  have parsed := parseWith_same (p := c.httpBodyParser.parse) same.buffer
  unfold readResponseBody
  rw [parser]
  cases done : c.readBuffer.parseWith c.httpBodyParser.parse with
  | error e =>
    simp only [done] at parsed
    simp only [parsed]
    exact ⟨rfl, same⟩
  | ok result =>
    simp only [done] at parsed
    obtain ⟨rest', done', same'⟩ := parsed
    simp only [done']
    split
    · exact ⟨rfl, { same with buffer := same', body := fun _ => rfl }⟩
    · exact ⟨rfl, { same with
        state := rfl, buffer := same', response := fun _ => same.response (by simp [awaits, state])
        body := fun _ => rfl, web := by simp [isWeb], upgrade := by simp }⟩

private theorem readResponseHeader_same (same : Same loose c f) (state : c.state = .responseHeader) :
    Passes loose c.readResponseHeader f.readResponseHeader := by
  have parser := same.response (by simp [awaits, state])
  have parsed := parseWith_same (p := c.responseParser.parse) same.buffer
  unfold readResponseHeader
  rw [parser]
  cases done : c.readBuffer.parseWith c.responseParser.parse with
  | error e =>
    simp only [done] at parsed
    simp only [parsed]
    exact ⟨rfl, same⟩
  | ok result =>
    simp only [done] at parsed
    obtain ⟨rest', done', same'⟩ := parsed
    simp only [done']
    have here : Same loose { c with responseParser := result.1, readBuffer := result.2 }
        { f with responseParser := result.1, readBuffer := rest' } :=
      { same with buffer := same', response := fun _ => rfl }
    split
    · exact ⟨rfl, here⟩
    · split
      · exact ⟨rfl, here⟩
      · exact readResponseBody_same { here with
          state := rfl, response := fun _ => rfl, body := fun _ => rfl, web := by simp [isWeb]
          upgrade := by simp } rfl

private theorem readUpgradeResponse_same (same : Same loose c f)
    (state : c.state = .webUpgradeResponseHeader) :
    Passes loose c.readUpgradeResponse f.readUpgradeResponse := by
  have parser := same.response (by simp [awaits, state])
  have parsed := parseWith_same (p := c.responseParser.parse) same.buffer
  unfold readUpgradeResponse
  rw [parser]
  cases done : c.readBuffer.parseWith c.responseParser.parse with
  | error e =>
    simp only [done] at parsed
    simp only [parsed]
    exact ⟨rfl, same⟩
  | ok result =>
    simp only [done] at parsed
    obtain ⟨rest', done', same'⟩ := parsed
    simp only [done', same.upgrade state]
    have here : Same loose { c with responseParser := result.1, readBuffer := result.2 }
        { f with responseParser := result.1, readBuffer := rest',
                 secWebsocketKey := c.secWebsocketKey } :=
      { same with buffer := same', response := fun _ => rfl, upgrade := fun _ => rfl }
    split
    · exact ⟨rfl, here⟩
    · split
      · exact ⟨rfl, here⟩
      · split
        · exact ⟨rfl, here⟩
        · split
          · exact ⟨rfl, here⟩
          · exact ⟨rfl, { here with
              state := rfl, message := same.message, response := by simp [awaits], body := by simp
              web := fun _ => by simp [same.message], upgrade := by simp }⟩

private theorem readWebMessage_same (same : Same loose c f)
    (web : isWeb c.state = true) (state : WebState) :
    Passes loose (c.readWebMessage state) (f.readWebMessage state) := by
  have reader := same.web web
  obtain ⟨action, next, parsers, buffers⟩ := read_same same.buffer state c.reader
  have here : Same loose
      { c with
        state := .web (c.reader.read state c.readBuffer).2.1
        reader := (c.reader.read state c.readBuffer).2.2.1
        readBuffer := (c.reader.read state c.readBuffer).2.2.2 }
      { f with
        state := .web (c.reader.read state c.readBuffer).2.1
        reader := (c.reader.read state c.readBuffer).2.2.1
        readBuffer := (c.reader.read state f.readBuffer).2.2.2 } :=
    { same with
      state := rfl, buffer := buffers, message := rfl, response := by simp [awaits], body := by simp
      web := fun _ => rfl, upgrade := by simp }
  simp only [readWebMessage, reader, action, next, parsers]
  split
  · exact ⟨rfl, here⟩
  · exact ⟨rfl, here⟩
  · exact ⟨rfl, here⟩
  · rename_i body _
    have answered := here.writeMessage { opcode := .pong, body := body }
    revert answered
    generalize ClientConnection.writeMessage _ { opcode := .pong, body := body } = x
    generalize ClientConnection.writeMessage _ { opcode := .pong, body := body } = y
    intro answered
    cases answered with
    | error e => exact ⟨rfl, here⟩
    | ok same' => exact ⟨rfl, same'⟩
  · have answered := here.writeMessage { opcode := .close, closeCode := WebMessage.closeStatusNotUtf8 }
    revert answered
    generalize ClientConnection.writeMessage
      _ { opcode := .close, closeCode := WebMessage.closeStatusNotUtf8 } = x
    generalize ClientConnection.writeMessage
      _ { opcode := .close, closeCode := WebMessage.closeStatusNotUtf8 } = y
    intro answered
    cases answered with
    | error e => exact ⟨rfl, here⟩
    | ok same' => exact ⟨rfl, same'⟩

private theorem switchState_same (same : Same loose c f) : Passes loose c.switchState f.switchState := by
  unfold switchState
  rw [same.state]
  split
  · rename_i state
    exact readResponseHeader_same same state
  · rename_i state
    exact readResponseBody_same same state
  · rename_i state
    exact readUpgradeResponse_same same state
  · rename_i state
    exact readWebMessage_same same (by simp [isWeb, state]) _
  · rename_i state
    exact readWebMessage_same same (by simp [isWeb, state]) _
  · exact ⟨rfl, same⟩

private theorem turn_same (same : Same loose c f) : Passes loose c.turn f.turn := by
  obtain ⟨count, buffers, socks⟩ := same.sock.readFrom same.buffer
  have read : Same loose
      { c with
        readBuffer := (c.readBuffer.readFrom BufferedTcpSocket.istream c.sock).2.1
        sock := (c.readBuffer.readFrom BufferedTcpSocket.istream c.sock).2.2 }
      { f with
        readBuffer := (f.readBuffer.readFrom BufferedTcpSocket.istream f.sock).2.1
        sock := (f.readBuffer.readFrom BufferedTcpSocket.istream f.sock).2.2 } :=
    { same with buffer := buffers, sock := socks }
  simp only [turn, same.buffer.empty, count]
  split
  · split
    · exact ⟨rfl, read⟩
    · exact switchState_same read
  · exact switchState_same same

private theorem tryLoop_same (passes : Nat) (same : Same loose c f) :
    Passes loose (tryLoop passes c) (tryLoop passes f) :=
  client_models.counted.follows client_models.counted (fun _ _ same => ⟨rfl, same⟩)
    (fun _ _ => turn_same) passes same

/-- Both connections take the same number of passes, as a socket that is open
keeps its descriptor. -/
private theorem passes_same (same : Same loose c f) (opened : c.sock.isOpen = true) :
    f.passes = c.passes := by
  simp only [passes, same.buffer.size, same.sock.sock.descriptor opened]

theorem Same.advanceState (same : Same loose c f) (opened : c.sock.isOpen = true) :
    f.advanceState.1 = c.advanceState.1 ∧ Same loose c.advanceState.2 f.advanceState.2 ∧
      caught f = caught c := by
  obtain ⟨ended, next⟩ := tryLoop_same c.passes same
  simp only [ClientConnection.advanceState, caught,
    BufferedTcpSocket.getTotalBufferSize, same.sock.total, passes_same same opened]
  generalize tryLoop c.passes c = x at ended next
  generalize tryLoop c.passes f = y at ended next
  obtain ⟨ending, c'⟩ := x
  obtain ⟨ending', f'⟩ := y
  simp only at ended next
  subst ended
  by_cases flushed : c.sock.totalDataToWrite = 0
  · simp only [flushed, ne_eq, not_true_eq_false, ↓reduceIte]
    cases ending' with
    | again => exact ⟨rfl, next, trivial⟩
    | stop result => exact ⟨rfl, next, trivial⟩
    | throw e => exact ⟨rfl, next.drop next.sock.writeShutdown, trivial⟩
  · simp only [flushed, ne_eq, not_false_eq_true, ↓reduceIte]
    exact ⟨trivial, same, trivial⟩

theorem Same.takeResponse (same : Same loose c f) : Same loose c.takeResponse f.takeResponse :=
  { same with
    state := rfl
    response := by simp [ClientConnection.takeResponse, awaits]
    body := by simp [ClientConnection.takeResponse]
    web := by simp [ClientConnection.takeResponse, isWeb]
    upgrade := by simp [ClientConnection.takeResponse] }

theorem Same.takeMessage (same : Same loose c f) (web : isWeb c.state = true) :
    Same loose c.takeMessage f.takeMessage :=
  { same with
    state := rfl
    message := rfl
    response := by simp [ClientConnection.takeMessage, awaits]
    body := by simp [ClientConnection.takeMessage]
    web := fun _ => by simp [ClientConnection.takeMessage, same.web web]
    upgrade := by simp [ClientConnection.takeMessage] }

theorem Same.sockHandler (same : Same loose c f) :
    f.sockHandler.1 = c.sockHandler.1 ∧ Same loose c.sockHandler.2 f.sockHandler.2 := by
  simp only [ClientConnection.sockHandler, same.sock.isOpen]
  split
  · exact ⟨rfl, same.close⟩
  · rename_i opened
    obtain ⟨result, next, -⟩ := same.advanceState (by simpa using opened)
    exact ⟨result, next⟩

theorem Same.socketEvent (same : Same loose c f) : Same loose c.socketEvent f.socketEvent := by
  have unlinked :
      AlikeBuffered loose { c.sock with sock.pending := false } { f.sock with sock.pending := false } :=
    ⟨same.sock.pieces, same.sock.total, same.sock.asked, same.sock.timer, same.sock.sock.unlinked⟩
  exact same.onSock unlinked.sockHandler

theorem Same.dispatch (same : Same loose c f) :
    f.dispatch.1 = c.dispatch.1 ∧ Same loose c.dispatch.2 f.dispatch.2 := by
  simp only [ClientConnection.dispatch, same.sock.sock.pending]
  split
  · exact same.socketEvent.sockHandler
  · exact ⟨rfl, same⟩

theorem Same.shutdownTimerHandler (same : Same loose c f) :
    f.shutdownTimerHandler.1 = c.shutdownTimerHandler.1 ∧
      Same loose c.shutdownTimerHandler.2 f.shutdownTimerHandler.2 := by
  simp only [ClientConnection.shutdownTimerHandler, same.sock.timer]
  split
  · exact (same.onSock same.sock.shutdownTimerHandler).sockHandler
  · exact ⟨rfl, same⟩

theorem Same.dnsHandler (same : Same loose c f) (result : Option ConnectResult) :
    (f.dnsHandler result).1 = (c.dnsHandler result).1 ∧
      Same loose (c.dnsHandler result).2 (f.dnsHandler result).2 := by
  have resolved : Same loose { c with dnsOpen := false }
      { f with dnsOpen := false, protocol := c.protocol, waitingRequest := c.waitingRequest } :=
    { same with dnsOpen := rfl, protocol := rfl, waiting := rfl }
  simp only [ClientConnection.dnsHandler, same.dnsOpen, same.protocol, same.waiting]
  split
  · exact ⟨rfl, same⟩
  · split
    · exact ⟨rfl, resolved.close⟩
    · rename_i result
      split
      · exact ⟨rfl, resolved⟩
      · obtain ⟨connected, socks⟩ := same.sock.connect result
        simp only [connected]
        split
        · exact ⟨rfl, (resolved.onSock socks).close⟩
        · have open_ := (resolved.onSock socks).idle (.inr rfl : ClientState.waitingWriteRequest = _ ∨ _)
          split
          · exact ⟨rfl, open_⟩
          · rename_i req _
            have sent := open_.writeRequest req
            revert sent
            generalize ClientConnection.writeRequest _ req = x
            generalize ClientConnection.writeRequest _ req = y
            intro sent
            cases sent with
            | error e => exact ⟨rfl, open_⟩
            | ok same' => exact ⟨rfl, { same' with waiting := rfl }⟩

/-- The socket is open in every state but the first. -/
def Settled (c : ClientConnection) : Prop := c.sock.isOpen = false → c.state = .resolvingHost

theorem Settled.opened (settled : Settled c) (state : c.state ≠ .resolvingHost) :
    c.sock.isOpen = true := by
  cases opened : c.sock.isOpen with
  | true => rfl
  | false => exact absurd (settled opened) state

/-- Steps that leave the socket as open as it was and do not leave the first
state. -/
structure Steady (c d : ClientConnection) : Prop where
  isOpen : d.sock.isOpen = c.sock.isOpen
  state : c.state = .resolvingHost → d.state = .resolvingHost

theorem Steady.settled (steady : Steady c d) (settled : Settled c) : Settled d := fun closed =>
  steady.state (settled (steady.isOpen ▸ closed))

theorem Steady.refl (c : ClientConnection) : Steady c c := ⟨rfl, id⟩

theorem Steady.trans {e : ClientConnection} (first : Steady c d) (second : Steady d e) : Steady c e :=
  ⟨second.isOpen.trans first.isOpen, fun state => second.state (first.state state)⟩

private theorem settled_close (c : ClientConnection) : Settled c.close := fun _ => rfl

private theorem steady_sendMessage (c : ClientConnection) (message : WebMessage) :
    Steady c (c.sendMessage message) := by
  have buffered := buffer_extends c.sock
    (webMessageHeader true message.opcode.toNat (payload message).length (some (c.keys.headD 0)))
  have sent := (writeString_extends
    (c.sock.buffer (webMessageHeader true message.opcode.toNat (payload message).length
    (some (c.keys.headD 0)))) (maskData 0 (payload message) (c.keys.headD 0))
    .write).isOpen.trans buffered.isOpen
  simp only [ClientConnection.sendMessage]
  split
  · exact ⟨(writeShutdown_keeps _).2.trans sent, id⟩
  · exact ⟨sent, id⟩

private theorem steady_writeMessage {message : WebMessage}
    (done : c.writeMessage message = .ok d) : Steady c d := by
  simp only [ClientConnection.writeMessage] at done
  split at done
  · cases done
    exact Steady.refl c
  · simp only [bind_eq_ok, invariant_ok, pure_eq_ok] at done
    obtain ⟨-, -, rfl⟩ := done
    exact steady_sendMessage c message

theorem readResponseBody_sock (c : ClientConnection) : c.readResponseBody.2.sock = c.sock := by
  unfold readResponseBody
  split
  · rfl
  · simp only
    split <;> rfl

theorem readResponseHeader_sock (c : ClientConnection) : c.readResponseHeader.2.sock = c.sock := by
  unfold readResponseHeader
  split
  · rfl
  · simp only
    split
    · rfl
    · split
      · rfl
      · exact readResponseBody_sock _

theorem readUpgradeResponse_sock (c : ClientConnection) : c.readUpgradeResponse.2.sock = c.sock := by
  unfold readUpgradeResponse
  split
  · rfl
  · simp only
    split
    · rfl
    · split
      · rfl
      · split
        · rfl
        · split <;> rfl

private theorem readWebMessage_isOpen (c : ClientConnection) (state : WebState) :
    (c.readWebMessage state).2.sock.isOpen = c.sock.isOpen := by
  simp only [readWebMessage]
  split
  · rfl
  · rfl
  · rfl
  · split
    · rfl
    · rename_i written
      exact (steady_writeMessage written).isOpen
  · split
    · rfl
    · rename_i written
      exact (steady_writeMessage written).isOpen

private theorem steady_switchState (c : ClientConnection) : Steady c c.switchState.2 := by
  unfold switchState
  split
  · rename_i state
    exact ⟨by rw [readResponseHeader_sock], by simp [state]⟩
  · rename_i state
    exact ⟨by rw [readResponseBody_sock], by simp [state]⟩
  · rename_i state
    exact ⟨by rw [readUpgradeResponse_sock], by simp [state]⟩
  · rename_i state
    exact ⟨readWebMessage_isOpen c .header, by simp [state]⟩
  · rename_i state
    exact ⟨readWebMessage_isOpen c .body, by simp [state]⟩
  · exact Steady.refl c

theorem steady_turn (c : ClientConnection) : Steady c c.turn.2 := by
  unfold turn
  split
  · have quiet := readFrom_quiet c.readBuffer c.sock
    have filled : Steady c { c with
        readBuffer := (c.readBuffer.readFrom BufferedTcpSocket.istream c.sock).2.1
        sock := (c.readBuffer.readFrom BufferedTcpSocket.istream c.sock).2.2 } :=
      ⟨quiet.isOpen, id⟩
    simp only
    split
    · exact filled
    · exact filled.trans (steady_switchState _)
  · exact steady_switchState c

theorem steady_advanceState (c : ClientConnection) : Steady c c.advanceState.2 := by
  refine client_models.preserves (P := Steady c) (fun d steady => steady.trans (steady_turn d)) ?_
    (Steady.refl c)
  intro d error next steady thrown
  have thrown' : d.turn = (.throw error, next) := thrown
  have kept := steady.trans (steady_turn d)
  rw [thrown'] at kept
  exact kept.trans ⟨(writeShutdown_keeps _).2, id⟩

theorem steady_writeRequest {req : Request} (done : c.writeRequest req = .ok d) : Steady c d := by
  simp only [ClientConnection.writeRequest] at done
  split at done
  · cases done
    exact Steady.refl c
  · split at done
    · simp only [bind_eq_ok, invariant_ok, pure_eq_ok] at done
      obtain ⟨-, -, rfl⟩ := done
      exact ⟨rfl, id⟩
    · rename_i state
      simp only [bind_eq_ok, invariant_ok, pure_eq_ok] at done
      obtain ⟨-, -, -, -, -, -, rfl⟩ := done
      refine ⟨?_, fun first => absurd first state⟩
      have buffered := (buffer_extends c.sock { req.header with host := c.host }.toString).isOpen
      have sent := (writeString_extends (c.sock.buffer { req.header with host := c.host }.toString)
        req.body .write).isOpen
      simp only [ClientConnection.sendRequest]
      split <;> exact sent.trans buffered

private theorem settled_settle {result : Except Error ClientConnection} (settled : Settled c)
    (keeps : ∀ d, result = .ok d → Steady c d) : Settled (settle c result).conn := by
  cases result with
  | error e => exact settled
  | ok d => exact (keeps d rfl).settled settled

@[simp] theorem settleAfter_conn {α : Type} (result : Except Error α × ClientConnection) :
    (settleAfter result).conn = result.2 := by
  unfold settleAfter
  split <;> rfl

/-- A socket that connects is open. -/
theorem connect_isOpen (s : BufferedTcpSocket) {result : ConnectResult}
    (connected : (s.connect result).1 = true) :
    (s.connect result).2.isOpen = true := by
  cases result with
  | failed => simp [BufferedTcpSocket.connect, TcpSocket.connect] at connected
  | inProgress =>
    simp [BufferedTcpSocket.connect, TcpSocket.connect, BufferedTcpSocket.isOpen, TcpSocket.isOpen]
  | immediate =>
    simp [BufferedTcpSocket.connect, TcpSocket.connect, BufferedTcpSocket.isOpen, TcpSocket.isOpen,
      TcpSocket.addPendingCallable]

private theorem settled_of_open (opened : c.sock.isOpen = true) : Settled c := fun closed => by
  simp [opened] at closed

private theorem settled_dnsHandler (settled : Settled c) (result : Option ConnectResult) :
    Settled (c.dnsHandler result).2 := by
  simp only [ClientConnection.dnsHandler]
  split
  · exact settled
  · split
    · exact settled_close _
    · rename_i result
      split
      · exact settled
      · split
        · exact settled_close _
        · rename_i connected
          have opened : (c.sock.connect result).2.isOpen = true :=
            connect_isOpen c.sock (by simpa using connected)
          split
          · exact settled_of_open opened
          · split
            · exact settled_of_open opened
            · rename_i written
              exact settled_of_open ((steady_writeRequest written).isOpen.trans opened)

theorem perform_settled (settled : Settled c) (op : ClientRun.ClientOp) :
    Settled (perform c op).conn := by
  cases op with
  | connectAddress host port result =>
    simp only [perform, ClientConnection.connectAddress]
    split
    · exact fun _ => rfl
    · rename_i connected
      exact settled_of_open (connect_isOpen c.close.sock (by simpa using connected))
  | connectHost host port protocol =>
    simp only [perform, ClientConnection.connectHost, settleAfter_conn]
    split
    · exact settled_close c
    · exact fun _ => rfl
  | close => exact settled_close c
  | readNextResponse =>
    simp only [perform, readNextResponse]
    split
    · exact settled
    · rename_i ready
      have state : c.state = .responseReady := by simpa using ready
      exact (steady_advanceState c.takeResponse).settled
        (settled_of_open (settled.opened (by simp [state])))
  | readNextMessage =>
    simp only [perform, readNextMessage]
    split
    · exact settled
    · rename_i ready
      have state : c.state = .web .ready := by simpa using ready
      exact (steady_advanceState c.takeMessage).settled
        (settled_of_open (settled.opened (by simp [state])))
  | webSocketUpgrade rh rdata => exact settled_settle settled fun _ done => steady_writeRequest done
  | writeRequest req => exact settled_settle settled fun _ done => steady_writeRequest done
  | writeMessage message => exact settled_settle settled fun _ done => steady_writeMessage done
  | dnsHandler result =>
    simp only [perform, settleAfter_conn]
    exact settled_dnsHandler settled result
  | arrive arrivals =>
    have steady : Steady c (perform c (.arrive arrivals)).conn := by
      refine ⟨?_, id⟩
      simp only [perform, TcpSocket.arrive]
      split <;> rfl
    exact steady.settled settled
  | plan sends => exact settled
  | notify canRead canWrite =>
    have steady : Steady c (perform c (.notify canRead canWrite)).conn := by
      refine ⟨?_, id⟩
      simp only [perform, TcpSocket.notify]
      split
      · rename_i valid
        simp [BufferedTcpSocket.isOpen, TcpSocket.isOpen, TcpSocket.addPendingCallable, valid]
      · rfl
    exact steady.settled settled
  | dispatch =>
    simp only [perform, ClientConnection.dispatch]
    split
    · unfold ClientConnection.sockHandler
      split
      · exact settled_close _
      · rename_i opened
        exact (steady_advanceState _).settled (settled_of_open (by simpa using opened))
    · exact settled
  | shutdownTimer =>
    simp only [perform, ClientConnection.shutdownTimerHandler]
    split
    · have closed : c.sock.shutdownTimerHandler.isOpen = false := close_isOpen_false _
      simp only [ClientConnection.sockHandler, closed, Bool.not_false, ↓reduceIte]
      exact settled_close _
    · exact settled

private theorem settle_same {x y : Except Error ClientConnection} (same : Same loose c f)
    (calls : Calls loose x y) :
    (settle f y).error = (settle c x).error ∧ (settle f y).connected = (settle c x).connected ∧
      (settle f y).response = (settle c x).response ∧ (settle f y).message = (settle c x).message ∧
      Same loose (settle c x).conn (settle f y).conn := by
  cases calls with
  | error e => exact ⟨rfl, rfl, rfl, rfl, same⟩
  | ok next => exact ⟨rfl, rfl, rfl, rfl, next⟩

private theorem settleAfter_same {α : Type}
    {x y : Except Error α × ClientConnection} (result : y.1 = x.1) (same : Same loose x.2 y.2) :
    (settleAfter y).error = (settleAfter x).error ∧
      (settleAfter y).connected = (settleAfter x).connected ∧
      (settleAfter y).response = (settleAfter x).response ∧
      (settleAfter y).message = (settleAfter x).message ∧
      Same loose (settleAfter x).conn (settleAfter y).conn := by
  simp only [settleAfter, result]
  split <;> exact ⟨rfl, rfl, rfl, rfl, same⟩

/-- One operation: both connections show the same and stay the same. Where
bytes arrive without an event that reports them, the flags must agree. -/
theorem Same.perform (same : Same loose c f) (settled : Settled c) (op : ClientRun.ClientOp)
    (fair : loose → isArrive op = false) :
    observe f op = observe c op ∧
      Same loose (ClientRun.perform c op).conn (ClientRun.perform f op).conn := by
  have both : ∀ {x y : Effect}, catches f op = catches c op → ClientRun.perform c op = x →
    ClientRun.perform f op = y →
      y.error = x.error ∧ y.connected = x.connected ∧ y.response = x.response ∧ y.message = x.message ∧
        Same loose x.conn y.conn →
      observe f op = observe c op ∧
      Same loose (ClientRun.perform c op).conn (ClientRun.perform f op).conn := by
    rintro x y caught rfl rfl ⟨error, connected, response, message, next⟩
    exact ⟨by simp [observe, error, connected, response, message, caught], next⟩
  have tcp : ∀ {s t : TcpSocket}, Alike loose s t →
      Same loose { c with sock.sock := s } { f with sock.sock := t } := fun socks =>
    same.onSock ⟨same.sock.pieces, same.sock.total, same.sock.asked, same.sock.timer, socks⟩
  cases op with
  | connectAddress host port result =>
    obtain ⟨connected, next⟩ := same.connectAddress host port result
    exact both rfl rfl rfl ⟨rfl, connected, rfl, rfl, next⟩
  | connectHost host port protocol =>
    obtain ⟨result, next⟩ := same.connectHost host port protocol
    exact both rfl rfl rfl (settleAfter_same result next)
  | close => exact both rfl rfl rfl ⟨rfl, rfl, rfl, rfl, same.close⟩
  | readNextResponse =>
    by_cases ready : c.state = .responseReady
    · have opened := settled.opened (by simp [ready])
      obtain ⟨-, next, caught⟩ := same.takeResponse.advanceState opened
      refine both (by simp [catches, same.state, ready, caught]) rfl rfl ?_
      simp only [ClientRun.perform, readNextResponse, same.state, ready, ne_eq,
        not_true_eq_false, ↓reduceIte,
        same.response (by simp [awaits, ready]), same.body (.inr ready), true_and]
      exact next
    · refine both (by simp [catches, same.state, beq_eq_false_iff_ne.mpr ready]) rfl rfl ?_
      simp only [ClientRun.perform, readNextResponse, same.state, ready, ne_eq,
        not_false_eq_true, ↓reduceIte, true_and]
      exact same
  | readNextMessage =>
    by_cases ready : c.state = .web .ready
    · have opened := settled.opened (by simp [ready])
      obtain ⟨-, next, caught⟩ := (same.takeMessage (by simp [isWeb, ready])).advanceState opened
      refine both (by simp [catches, same.state, ready, caught]) rfl rfl ?_
      simp only [ClientRun.perform, readNextMessage, same.state, ready, ne_eq,
        not_true_eq_false, ↓reduceIte, same.message, true_and]
      exact next
    · refine both (by simp [catches, same.state, beq_eq_false_iff_ne.mpr ready]) rfl rfl ?_
      simp only [ClientRun.perform, readNextMessage, same.state, ready, ne_eq,
        not_false_eq_true, ↓reduceIte, true_and]
      exact same
  | webSocketUpgrade rh rdata => exact both rfl rfl rfl (settle_same same (same.writeRequest _))
  | writeRequest req => exact both rfl rfl rfl (settle_same same (same.writeRequest req))
  | writeMessage message => exact both rfl rfl rfl (settle_same same (same.writeMessage message))
  | dnsHandler result =>
    obtain ⟨ended, next⟩ := same.dnsHandler result
    exact both rfl rfl rfl (settleAfter_same ended next)
  | arrive arrivals =>
    have flags : f.sock.sock.canRead = c.sock.sock.canRead :=
      same.sock.sock.canRead.resolve_right fun relied => by simpa [isArrive] using fair relied.1
    exact both rfl rfl rfl ⟨rfl, rfl, rfl, rfl, tcp (same.sock.sock.arrive arrivals flags)⟩
  | plan sends => exact both rfl rfl rfl ⟨rfl, rfl, rfl, rfl, tcp (same.sock.sock.plan sends)⟩
  | notify canRead canWrite =>
    exact both rfl rfl rfl ⟨rfl, rfl, rfl, rfl, tcp (same.sock.sock.notify canRead canWrite)⟩
  | dispatch =>
    have event := same.socketEvent
    refine both ?_ rfl rfl ⟨rfl, rfl, rfl, rfl, same.dispatch.2⟩
    simp only [catches, same.sock.sock.pending, event.sock.isOpen]
    cases opened : c.socketEvent.sock.isOpen with
    | false => simp
    | true => rw [(event.advanceState opened).2.2]
  | shutdownTimer => exact both rfl rfl rfl ⟨rfl, rfl, rfl, rfl, same.shutdownTimerHandler.2⟩

/-- Segments that arrive with the event that reports them. -/
private theorem segments_same (same : Same loose c f) (arrivals : List Arrival) (canWrite : Bool) :
    Same loose { c with sock.sock := (c.sock.sock.arrive arrivals).notify (!arrivals.isEmpty) canWrite }
      { f with sock.sock := (f.sock.sock.arrive arrivals).notify (!arrivals.isEmpty) canWrite } :=
  same.onSock ⟨same.sock.pieces, same.sock.total, same.sock.asked, same.sock.timer,
    same.sock.sock.arriveNotify arrivals canWrite⟩

theorem settled_afterOps (settled : Settled c) (ops : List ClientRun.ClientOp) :
    Settled (afterOps c ops) :=
  Run.invariant_of_keeps (P := Settled) (fun _ op held => perform_settled held op) settled ops

/-- One input: both connections show the same and stay the same. -/
theorem input_lockstep (same : Same True c f) (settled : Settled c) (input : Input) :
    Run.seen (fun c op => (perform c op).conn) observe f input.ops =
        Run.seen (fun c op => (perform c op).conn) observe c input.ops ∧
      Same True (afterOps c input.ops) (afterOps f input.ops) ∧ Settled (afterOps c input.ops) := by
  refine ⟨?_, ?_, settled_afterOps settled input.ops⟩
  · cases input with
    | single op other => simp [Input.ops, (same.perform settled op fun _ => other).1]
    | segments arrivals canWrite =>
      have reported := segments_same same arrivals canWrite
      have settled' : Settled (afterOps c [.arrive arrivals, .notify (!arrivals.isEmpty) canWrite]) :=
        settled_afterOps settled _
      have dispatched := (reported.perform settled' .dispatch fun _ => rfl).1
      simp only [Input.ops, Run.seen_cons, Run.seen_nil, List.cons.injEq, and_true]
      exact ⟨rfl, rfl, dispatched⟩
  · cases input with
    | single op other => exact (same.perform settled op fun _ => other).2
    | segments arrivals canWrite => exact (segments_same same arrivals canWrite).dispatch.2

/-- Connections that are the same are never told apart. -/
theorem observed_same (same : Same True c f) (settled : Settled c) (inputs : List Input) :
    observed f inputs = observed c inputs :=
  Run.seen_eq_of_lockstep (R := fun c f => Same True c f ∧ Settled c)
    (fun _ _ input held => input_lockstep held.1 held.2 input) ⟨same, settled⟩ inputs

/-- A connection that can be reached: it is like itself, with all that this
says about its buffer and its socket. -/
structure Reached (c : ClientConnection) : Prop where
  self : Same False c c
  settled : Settled c

theorem reached_start (keys : List UInt32) : Reached { keys := keys } where
  self := ⟨rfl, rfl, rfl, rfl, rfl, rfl, rfl, make_same,
    ⟨rfl, rfl, rfl, rfl, alike_refl fun _ => rfl⟩, rfl,
    fun _ => rfl, fun _ => rfl, fun _ => rfl, fun _ => rfl⟩
  settled := fun _ => rfl

theorem reached (keys : List UInt32) (history : List ClientRun.ClientOp) :
    Reached (afterOps { keys := keys } history) :=
  Run.invariant_of_keeps (P := Reached)
    (fun _ op held =>
      ⟨(held.self.perform held.settled op fun impossible => impossible.elim).2,
        perform_settled held.settled op⟩)
    (reached_start keys) history

/-- After a close, only a message that was left behind tells a used connection
from a new one that draws the same random numbers. -/
theorem close_same (held : Reached c) (clean : c.reader.webMessage = none) :
    Same True c.close { keys := c.keys } :=
  ⟨rfl, rfl, rfl, rfl, rfl, rfl, rfl, clear_make held.self.buffer,
    alikeBuffered_closed held.self.sock, clean.symm,
    by simp [ClientConnection.close, awaits], by simp [ClientConnection.close], by
    simp [ClientConnection.close, isWeb], by simp [ClientConnection.close]⟩

end Crablib.ClientHistoryProofs
