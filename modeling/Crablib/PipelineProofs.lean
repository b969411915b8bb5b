import Crablib.Http.Server
import Crablib.ParserProofs
import Crablib.ServerEndProofs

/-! Requests that arrive back to back. A request handler that answers at once
leaves the connection waiting for the next request; bytes that were received
behind the answered request are then parsed only if something calls
`advance_state`, and nothing does. The condition under which no input is left
behind is that none was there when `on_client_handler` was entered. -/
namespace Crablib.PipelineProofs
open Http ServerConnection ServerRun StreamsProofs SocketProofs InboundProofs
open ServerConnectionProofs ServerEndProofs
open ParserProofs

variable {c d : ServerConnection}

/-- The states in which nothing waits to be read by the user. -/
def Unready (c : ServerConnection) : Prop := c.state ≠ .requestReady ∧ c.state ≠ .web .ready

/-- The effect of the user's writes on the reading side. -/
structure Written (c d : ServerConnection) : Prop where
  buffer : d.readBuffer = c.readBuffer ∨
    d.readBuffer = c.readBuffer.clear ∧ (d.sock.writeShutdownAsked = true ∨ d.isOpen = false)
  asked : c.sock.writeShutdownAsked = true → d.sock.writeShutdownAsked = true
  isOpen : d.isOpen = c.isOpen
  parser : d.httpBodyParser = c.httpBodyParser
  mode : c.isStateWebsocket = true ∨ c.writingWebMessageBody = false →
    d.isStateWebsocket = true ∨ d.writingWebMessageBody = false
  unready : Unready c → Unready d

theorem Written.refl (c : ServerConnection) : Written c c := ⟨.inl rfl, id, rfl, rfl, id, id⟩

theorem clear_clear (b : Buffer) : b.clear.clear = b.clear := rfl

theorem Written.trans {e : ServerConnection} (first : Written c d)
    (second : Written d e) : Written c e where
  buffer := by
    rcases second.buffer with same | ⟨cleared, stopped⟩
    · rcases first.buffer with same' | ⟨cleared', stopped'⟩
      · exact .inl (same.trans same')
      · refine .inr ⟨same.trans cleared', ?_⟩
        exact stopped'.imp second.asked fun closed => second.isOpen.trans closed
    · right
      rcases first.buffer with same' | ⟨cleared', -⟩
      · exact ⟨by rw [cleared, same'], stopped⟩
      · exact ⟨by rw [cleared, cleared', clear_clear], stopped⟩
  asked := fun before => second.asked (first.asked before)
  isOpen := second.isOpen.trans first.isOpen
  parser := second.parser.trans first.parser
  mode := fun before => second.mode (first.mode before)
  unready := fun before => second.unready (first.unready before)

/-- Asking for the shutdown is remembered unless the socket is not open. -/
theorem writeShutdown_asked (s : BufferedTcpSocket) :
    s.writeShutdown.writeShutdownAsked = true ∨ s.writeShutdown.isOpen = false := by
  unfold BufferedTcpSocket.writeShutdown
  split
  · rename_i refused
    simp only [Bool.or_eq_true, Bool.not_eq_true'] at refused
    exact refused.symm
  · simp only
    split <;> exact .inl rfl

theorem writeShutdown_monotone {s : BufferedTcpSocket} (asked : s.writeShutdownAsked = true) :
    s.writeShutdown.writeShutdownAsked = true := by
  simp [BufferedTcpSocket.writeShutdown, asked]

/-- Writes that only send. -/
private theorem written_of_extends {bytes : Bytes} (extends_ : Extends c.sock d.sock bytes)
    (buffer : d.readBuffer = c.readBuffer) (parser : d.httpBodyParser = c.httpBodyParser)
    (mode : c.isStateWebsocket = true ∨ c.writingWebMessageBody = false →
      d.isStateWebsocket = true ∨ d.writingWebMessageBody = false)
    (unready : Unready c → Unready d) : Written c d :=
  ⟨.inl buffer, fun before => extends_.asked.trans before, extends_.isOpen, parser, mode, unready⟩

/-- The end of a response, which is never a web message. -/
private theorem written_finishResponse (plain : c.writingWebMessageBody = false) :
    Written c c.finishResponse := by
  simp only [finishResponse]
  split
  · exact ⟨.inr ⟨rfl, writeShutdown_asked c.sock⟩, writeShutdown_monotone,
      (writeShutdown_keeps c.sock).2, rfl, fun _ => .inr plain, fun _ => by simp [Unready]⟩
  · exact ⟨.inl rfl, id, rfl, rfl, fun _ => .inr plain, fun _ => by simp [Unready]⟩

private theorem written_writeBody {send : Send} {val : Bytes} {bo : BufferOptions}
    (sends : ∀ s, Extends s (send s val bo) (takes s val))
    (done : c.writeBody send val bo = .ok d) : Written c d := by
  obtain ⟨-, rfl⟩ | ⟨plain, -, ⟨remaining, -, -, rfl⟩ | ⟨-, rfl⟩⟩ := writeBody_ok done
  · unfold sendFrame
    split
    · exact Written.refl c
    · exact written_of_extends ((buffer_extends _ _).trans (sends _)) rfl rfl id id
  · have sent : Written c { c with
        remainingBodyContentLength := some (remaining - val.length)
        sock := send c.sock val bo } := written_of_extends (sends c.sock) rfl rfl id id
    simp only [sendCounted]
    split
    · exact sent.trans (written_finishResponse plain)
    · exact sent
  · unfold sendChunk
    split
    · exact Written.refl c
    · exact written_of_extends
        (((buffer_extends _ _).trans (buffer_extends _ _)).trans (write_extends _ _ bo)) rfl rfl id id

private theorem written_writeLastChunk {bo : BufferOptions}
    (done : c.writeLastChunk bo = .ok d) : Written c d := by
  obtain ⟨-, rfl⟩ | ⟨plain, -, -, rfl⟩ := writeLastChunk_ok done
  · exact written_of_extends (write_extends _ _ bo) rfl rfl (fun _ => .inr rfl) id
  · have sent : Written c { c with sock := c.sock.writeString (str "0\r\n\r\n") bo } :=
      written_of_extends (writeString_extends c.sock _ bo) rfl rfl id id
    exact sent.trans (written_finishResponse plain)

private theorem written_writeHeader {resp : ResponseHeader} {bo : BufferOptions}
    (done : c.writeHeader resp bo = .ok d) :
    Written c d := by
  obtain ⟨-, rfl⟩ | ⟨-, state, -, -, rfl⟩ := writeHeader_ok done
  · exact Written.refl _
  · refine written_of_extends (writeString_extends _ _ bo) rfl rfl (fun mode => ?_) fun _ => by
      simp [Unready, sendHeader]
    exact .inr (mode.resolve_left (by simp [isStateWebsocket, state]))

private theorem written_writeMessage {message : WebMessage} {bo : BufferOptions}
    (done : c.writeMessage message bo = .ok d) : Written c d := by
  obtain ⟨-, rfl⟩ | ⟨-, -, rfl⟩ := writeMessage_ok done
  · exact Written.refl _
  · simp only [sendMessage]
    have sent := (buffer_extends c.sock
      (webMessageHeader true message.opcode.toNat (payload message).length none)).trans
      (writeString_extends _ (payload message) bo)
    split
    · refine ⟨.inr ⟨rfl, writeShutdown_asked _⟩, fun before => ?_, ?_, rfl, id, id⟩
      · exact writeShutdown_monotone (sent.asked.trans before)
      · exact (writeShutdown_keeps _).2.trans sent.isOpen
    · exact written_of_extends sent rfl rfl id id

private theorem written_writeResponse (c : ServerConnection) (resp : Response) :
    Written c (c.writeResponse resp).2 := by
  obtain same | ⟨withHeader, header, rest⟩ := writeResponse_parts c resp
  · rw [same]
    exact Written.refl c
  · have first := written_writeHeader header
    obtain same | ⟨bo, withBody, body, last⟩ := rest
    · rwa [same]
    · have second := first.trans (written_writeBody (fun s => writeString_extends s _ bo) body)
      obtain same | finished := last
      · rwa [same]
      · exact second.trans (written_writeLastChunk finished)

theorem perform_written
    (op : ServerOp) (writes : isWrite op = true) : Written c (perform c op).conn := by
  have stay := Written.refl c
  cases op <;> simp only [isWrite, Bool.false_eq_true] at writes
  case webSocketUpgrade =>
    refine settle_conn stay fun d done => ?_
    obtain ⟨-, rfl⟩ | ⟨-, -, -, rfl⟩ := webSocketUpgrade_ok done
    · exact stay
    · exact written_of_extends (writeString_extends _ _ .write) rfl rfl (fun _ => .inl rfl)
        fun _ => by simp [Unready, sendUpgrade]
  case writeResponse resp =>
    rw [perform, settleAfter_conn]
    exact written_writeResponse c resp
  case writeHeader resp bo => exact settle_conn stay fun d => written_writeHeader
  case writeMessage message bo => exact settle_conn stay fun d => written_writeMessage
  case writeOpcode opcode =>
    refine settle_conn stay fun d done => ?_
    obtain ⟨-, rfl⟩ | ⟨-, web, -, rfl⟩ := writeOpcode_ok done
    · exact stay
    · exact written_of_extends (buffer_extends _ _) rfl rfl (fun _ => .inl web) id
  case writeData val bo =>
    exact settle_conn stay fun d => written_writeBody fun s => write_extends s val bo
  case writeString ss bo =>
    exact settle_conn stay fun d => written_writeBody fun s => writeString_extends s ss bo
  case writeLastChunk bo => exact settle_conn stay fun d => written_writeLastChunk

/-- Between responses there is nothing to write to. -/
structure Idle (c : ServerConnection) : Prop where
  plain : c.writingWebMessageBody = false
  state : c.state = .requestHeader ∨ c.state = .requestBody ∨ c.state = .requestReady

theorem Idle.http (idle : Idle c) : c.isStateWebsocket = false := by
  rcases idle.state with state | state | state <;> simp [isStateWebsocket, state]

theorem Idle.notHeader (idle : Idle c) : c.state ≠ .responseHeader := by
  rcases idle.state with state | state | state <;> simp [state]

theorem Idle.notBody (idle : Idle c) : c.state ≠ .responseBody := by
  rcases idle.state with state | state | state <;> simp [state]

/-- A write between responses throws or does nothing. -/
theorem perform_idle (idle : Idle c) (op : ServerOp) (writes : isWrite op = true) :
    (perform c op).conn = c := by
  cases op <;> simp only [isWrite, Bool.false_eq_true] at writes
  case webSocketUpgrade =>
    refine settle_conn (P := fun d => d = c) rfl fun d done => ?_
    obtain ⟨-, same⟩ | ⟨-, header, -⟩ := webSocketUpgrade_ok done
    · exact same
    · exact absurd header idle.notHeader
  case writeResponse resp =>
    rw [perform, settleAfter_conn]
    obtain same | ⟨withHeader, header, -⟩ := writeResponse_parts c resp
    · exact same
    · obtain ⟨closed, -⟩ | ⟨-, state, -⟩ := writeHeader_ok header
      · simp [writeResponse, closed]
      · exact absurd state idle.notHeader
  case writeHeader resp bo =>
    refine settle_conn (P := fun d => d = c) rfl fun d done => ?_
    obtain ⟨-, same⟩ | ⟨-, header, -⟩ := writeHeader_ok done
    · exact same
    · exact absurd header idle.notHeader
  case writeMessage message bo =>
    refine settle_conn (P := fun d => d = c) rfl fun d done => ?_
    obtain ⟨-, same⟩ | ⟨-, web, -⟩ := writeMessage_ok done
    · exact same
    · simp [idle.http] at web
  case writeOpcode opcode =>
    refine settle_conn (P := fun d => d = c) rfl fun d done => ?_
    obtain ⟨-, same⟩ | ⟨-, web, -⟩ := writeOpcode_ok done
    · exact same
    · simp [idle.http] at web
  case writeData val bo =>
    refine settle_conn (P := fun d => d = c) rfl fun d done => ?_
    obtain ⟨writing, -⟩ | ⟨-, body, -⟩ := writeBody_ok done
    · simp [idle.plain] at writing
    · exact absurd body idle.notBody
  case writeString ss bo =>
    refine settle_conn (P := fun d => d = c) rfl fun d done => ?_
    obtain ⟨writing, -⟩ | ⟨-, body, -⟩ := writeBody_ok done
    · simp [idle.plain] at writing
    · exact absurd body idle.notBody
  case writeLastChunk bo =>
    refine settle_conn (P := fun d => d = c) rfl fun d done => ?_
    obtain ⟨writing, -⟩ | ⟨-, body, -⟩ := writeLastChunk_ok done
    · simp [idle.plain] at writing
    · exact absurd body idle.notBody

section User
open Client

variable {user : Nat → UserCall} {who : Client}

private theorem forward_conn (who : Client) {result : Except Error ServerConnection}
    {next : Client → Client} (same : ∀ who, (next who).conn = who.conn) :
    (who.forward result next).2.conn = (settle who.conn result).conn := by
  cases result with
  | error e => rfl
  | ok conn => exact same _

/-- What a client does to its connection is one of the connection's writes. -/
theorem client_perform_conn (who : Client) (date : Bytes) (op : ClientOp) :
    (who.perform date op).2.conn = who.conn ∨
      ∃ write, isWrite write = true ∧
      (who.perform date op).2.conn = (ServerRun.perform who.conn write).conn := by
  cases op with
  | write response =>
    refine .inr ⟨.writeResponse { response with header := dated response.header date }, rfl, ?_⟩
    simp only [Client.perform, Client.write, ServerRun.perform, settleAfter_conn]
    split <;> rfl
  | writeMessage wm =>
    refine .inr ⟨.writeMessage wm .write, rfl, ?_⟩
    simp only [Client.perform, Client.writeMessage]
    split <;> exact forward_conn _ fun _ => rfl
  | writeData val bo => exact .inr ⟨.writeData val bo, rfl, forward_conn who fun _ => rfl⟩
  | writeString ss bo => exact .inr ⟨.writeString ss bo, rfl, forward_conn who fun _ => rfl⟩
  | writeLastChunk bo => exact .inr ⟨.writeLastChunk bo, rfl, forward_conn who fun _ => rfl⟩
  | webSocketUpgrade => exact .inr ⟨.webSocketUpgrade, rfl, forward_conn who fun _ => rfl⟩
  | postponeResponse =>
    left
    simp only [Client.perform]
    split <;> rfl
  | startWriteStream response =>
    exact .inr ⟨.writeHeader (dated response date) .write, rfl, forward_conn who fun _ => rfl⟩
  | startWriteMessage opcode => exact .inr ⟨.writeOpcode opcode, rfl, forward_conn who fun _ => rfl⟩

/-- What every write keeps, the user's code keeps. -/
theorem runOps_keeps {P : ServerConnection → Prop}
    (keeps : ∀ c op, isWrite op = true → P c → P (ServerRun.perform c op).conn) (date : Bytes)
    (ops : List ClientOp) (start : P who.conn) : P (who.runOps date ops).conn := by
  induction ops generalizing who with
  | nil => exact start
  | cons op ops ih =>
    show P ((who.perform date op).2.runOps date ops).conn
    apply ih
    obtain same | ⟨write, writes, same⟩ := client_perform_conn who date op
    · rwa [same]
    · rw [same]
      exact keeps who.conn write writes start

theorem invoke_keeps {P : ServerConnection → Prop}
    (keeps : ∀ c op, isWrite op = true → P c → P (ServerRun.perform c op).conn) (start : P who.conn) :
    P (who.invoke user).conn :=
  runOps_keeps keeps _ _ start

theorem call_keeps {P : ServerConnection → Prop}
    (keeps : ∀ c op, isWrite op = true → P c → P (ServerRun.perform c op).conn) (isSet : Bool)
    (start : P who.conn) : P (who.call user isSet).2.conn := by
  unfold call
  split
  · exact start
  · split <;> exact invoke_keeps keeps start

end User

/-- What the parsers and the read buffer are like in HTTP mode. -/
structure Reading (c : ServerConnection) : Prop where
  linear : Linear c.readBuffer
  room : 0 < c.readBuffer.capacity
  sound : Sound c.httpBodyParser
  plain : c.writingWebMessageBody = false

/-- A connection that waits for bytes of a request, with nothing left to parse. -/
structure Resting (c : ServerConnection) : Prop extends Reading c where
  drained : contents c.readBuffer = []
  state : c.state = .requestHeader ∨ c.state = .requestBody

/-- What `advance_state` and its caller check. -/
structure Going (s : BufferedTcpSocket) : Prop where
  flushed : s.totalDataToWrite = 0
  opened : s.isOpen = true

/-- A connection whose request is complete; what follows it may be buffered. -/
structure Ready (c : ServerConnection) : Prop extends Reading c where
  state : c.state = .requestReady
  going : Going c.sock

theorem Resting.idle (resting : Resting c) : Idle c :=
  ⟨resting.plain, resting.state.imp_right fun body => .inl body⟩

theorem Ready.idle (ready : Ready c) : Idle c := ⟨ready.plain, .inr (.inr ready.state)⟩

theorem resting_close (room : 0 < c.readBuffer.capacity)
    (sound : Sound c.httpBodyParser) : Resting c.close :=
  ⟨⟨linear_clear _, room, sound, rfl⟩, contents_clear _, .inl rfl⟩

theorem Reading.sock (reading : Reading c) (s : BufferedTcpSocket) : Reading { c with sock := s } :=
  ⟨reading.linear, reading.room, reading.sound, reading.plain⟩

theorem Resting.sock (resting : Resting c) (s : BufferedTcpSocket) : Resting { c with sock := s } :=
  ⟨resting.toReading.sock s, resting.drained, resting.state⟩

/-- How a pass of the loop can end when nothing but requests is read. -/
def Passed : Turn × ServerConnection → Prop
  | (.again, d) => Resting d ∧ Going d.sock
  | (.stop false, d) => Resting d
  | (.stop true, d) => Ready d
  | (.throw _, d) => Reading d ∧ (d.state = .requestHeader ∨ d.state = .requestBody)

private theorem readRequestBody_passed (reading : Reading c) (going : Going c.sock)
    (state : c.state = .requestBody) : Passed c.readRequestBody := by
  have spec := parseWith_spec (p := c.httpBodyParser.parse)
    (fun done => (body_parses reading.sound done).2.suffix) reading.linear
  unfold readRequestBody
  cases parsed : c.httpBodyParser.parse (contents c.readBuffer) with
  | error e =>
    simp only [parsed] at spec
    rw [spec]
    exact ⟨reading, .inr state⟩
  | ok result =>
    obtain ⟨parser, rest⟩ := result
    simp only [parsed] at spec
    obtain ⟨after, done, left, linear, capacity⟩ := spec
    obtain ⟨sound, parses⟩ := body_parses reading.sound parsed
    have reading' :
        ∀ state', Reading { c with httpBodyParser := parser, readBuffer := after, state := state' } :=
      fun _ => ⟨linear, capacity ▸ reading.room, sound, reading.plain⟩
    rw [done]
    simp only
    split
    · rename_i waiting
      have all := parses.all (by simpa using waiting)
      exact ⟨⟨reading' c.state, left.trans all, .inr state⟩, going⟩
    · exact ⟨reading' .requestReady, rfl, going⟩

private theorem readRequestHeader_passed (reading : Reading c) (going : Going c.sock)
    (state : c.state = .requestHeader) : Passed c.readRequestHeader := by
  have spec := parseWith_spec (p := c.requestParser.parse)
    (fun done => (scan_parses done).suffix) reading.linear
  unfold readRequestHeader
  cases parsed : c.requestParser.parse (contents c.readBuffer) with
  | error e =>
    simp only [parsed] at spec
    rw [spec]
    exact ⟨reading, .inl state⟩
  | ok result =>
    obtain ⟨parser, rest⟩ := result
    simp only [parsed] at spec
    obtain ⟨after, done, left, linear, capacity⟩ := spec
    rw [done]
    simp only
    split
    · rename_i waiting
      have all := (scan_parses parsed).all (by simpa [RequestParser.machine] using waiting)
      exact ⟨⟨⟨linear, capacity ▸ reading.room, reading.sound, reading.plain⟩,
        left.trans all, .inl state⟩, going⟩
    · exact readRequestBody_passed ⟨linear, capacity ▸ reading.room, make_sound _ _,
        reading.plain⟩ going rfl

private theorem switchState_passed (reading : Reading c) (going : Going c.sock)
    (state : c.state = .requestHeader ∨ c.state = .requestBody) : Passed c.switchState := by
  rcases state with state | state
  · simpa only [switchState, state] using readRequestHeader_passed reading going state
  · simpa only [switchState, state] using readRequestBody_passed reading going state

/-- One pass reads what is ready and parses all of it, or up to the end of the
request. -/
private theorem turn_passed (resting : Resting c) (going : Going c.sock) : Passed c.turn := by
  obtain ⟨linear, capacity, count, quiet, -, -⟩ := readFrom_spec resting.linear resting.drained c.sock
  have empty : c.readBuffer.empty = true := (empty_iff _).mpr resting.drained
  have reading : Reading { c with
      readBuffer := (c.readBuffer.readFrom BufferedTcpSocket.istream c.sock).2.1
      sock := (c.readBuffer.readFrom BufferedTcpSocket.istream c.sock).2.2 } :=
    ⟨linear, capacity ▸ resting.room, resting.sound, resting.plain⟩
  simp only [turn, empty, ↓reduceIte]
  split
  · rename_i nothing
    exact ⟨reading, List.length_eq_zero_iff.mp (count.symm.trans nothing), resting.state⟩
  · exact switchState_passed reading ⟨quiet.total.trans going.flushed,
      quiet.isOpen.trans going.opened⟩ resting.state

private theorem tryLoop_passed (passes : Nat) (resting : Resting c) (going : Going c.sock) :
    Passed (tryLoop passes c) := by
  induction passes generalizing c with
  | zero => exact resting
  | succ passes ih =>
    have passed := turn_passed resting going
    unfold tryLoop
    split <;> rename_i turned <;> rw [turned] at passed
    · exact ih passed.1 passed.2
    · exact passed
    · exact passed

/-- `advance_state` while a request is awaited: the handler is called for a
complete request or for an exception. -/
theorem advanceState_resting (resting : Resting c) (opened : c.isOpen = true) :
    (c.advanceState.1 = false ∧ Resting c.advanceState.2) ∨
      (c.advanceState.1 = true ∧ (Resting c.advanceState.2 ∨ Ready c.advanceState.2)) := by
  unfold advanceState
  split
  · exact .inl ⟨rfl, resting⟩
  · rename_i flushed
    have passed := tryLoop_passed c.passes resting ⟨Decidable.of_not_not flushed, opened⟩
    split <;> rename_i ended <;> rw [ended] at passed
    · exact .inl ⟨rfl, passed.1⟩
    · rename_i result next
      cases result with
      | false => exact .inl ⟨rfl, passed⟩
      | true => exact .inr ⟨rfl, .inr passed⟩
    · obtain ⟨reading, state⟩ := passed
      refine .inr ⟨rfl, .inl ⟨⟨linear_clear _, reading.room, reading.sound, reading.plain⟩,
        contents_clear _, state⟩⟩

/-- The connection in which the request handler runs. `read_next` fills an empty
read buffer from the socket before the handler is called. -/
private theorem taken_spec (ready : Ready c) :
    let taken := c.takeRequest.advanceState.2
    Reading taken ∧ taken.state = .responseHeader ∧ taken.isOpen = c.isOpen ∧
      taken.requestParser.req.keepAlive = c.requestParser.req.keepAlive ∧
      (contents taken.readBuffer = [] ↔ contents c.readBuffer = [] ∧
        InboundProofs.ready c.sock = []) := by
  have flushed : c.takeRequest.sock.getTotalBufferSize = 0 := ready.going.flushed
  have reading : Reading c.takeRequest := ⟨ready.linear, ready.room, ready.sound, ready.plain⟩
  -- the loop stops in its first pass, in this state
  have stops : ∀ d : ServerConnection, d.state = .responseHeader → d.switchState = (.stop false, d) := by
    intro d state
    simp [switchState, state]
  simp only [advanceState, flushed, ne_eq, not_true_eq_false, ↓reduceIte, passes, tryLoop, turn]
  by_cases empty : c.readBuffer.empty = true
  · have drained : contents c.readBuffer = [] := (empty_iff _).mp empty
    obtain ⟨linear, capacity, count, quiet, split, ended⟩ := readFrom_spec ready.linear drained c.sock
    have filled : contents (c.readBuffer.readFrom BufferedTcpSocket.istream c.sock).2.1 = [] ↔
        InboundProofs.ready c.sock = [] := by
      constructor
      · intro nothing
        rw [split, nothing, List.nil_append]
        rcases ended with full | done
        · rw [nothing] at full
          exact absurd full.symm (Nat.ne_of_gt ready.room)
        · exact done
      · intro nothing
        rw [nothing] at split
        exact (List.append_eq_nil_iff.mp split.symm).1
    simp only [takeRequest, empty, ↓reduceIte, stops, ite_self]
    refine ⟨⟨linear, capacity ▸ ready.room, ready.sound, ready.plain⟩, trivial, quiet.isOpen, rfl, ?_⟩
    simpa [drained] using filled
  · have some : contents c.readBuffer ≠ [] := fun drained => empty ((empty_iff _).mpr drained)
    simp only [takeRequest, empty, Bool.false_eq_true, ↓reduceIte, stops]
    exact ⟨⟨ready.linear, ready.room, ready.sound, ready.plain⟩, trivial, rfl, rfl, by simp [some]⟩

section Handler
open Client Server

variable {user : Nat → UserCall} {who : Client}

/-- A connection that offers nothing ends the loop of `on_client_handler`. -/
private theorem clientLoop_unready (passes : Nat) (unready : Unready who.conn) :
    clientLoop user passes who = (.ok (), who) := by
  cases passes with
  | zero => rfl
  | succ passes =>
    have message : who.conn.readNextMessage = (none, who.conn) := by simp [readNextMessage, unready.2]
    have request : who.conn.readNextRequest = (none, who.conn) := by simp [readNextRequest, unready.1]
    simp only [clientLoop, message, request]

private theorem write_keeps {P : ServerConnection → Prop}
    (keeps : ∀ c op, isWrite op = true → P c → P (ServerRun.perform c op).conn) (response : Response)
    (date : Bytes) (start : P who.conn) : P (who.write response date).2.conn :=
  runOps_keeps keeps date [.write response] start

private theorem handleRequest_keeps {P : ServerConnection → Prop}
    (keeps : ∀ c op, isWrite op = true → P c → P (ServerRun.perform c op).conn) (start : P who.conn) :
    P (onClientHandleRequest user who).2.conn := by
  have after : P (who.invoke user).conn := invoke_keeps keeps start
  simp only [onClientHandleRequest]
  split
  · exact write_keeps keeps _ _ after
  · split
    · exact write_keeps keeps _ _ after
    · exact after
  · split <;> exact after

/-- `on_client_handler` with a complete request: whatever every write keeps,
from the connection the request was taken from, holds at its return. -/
private theorem handler_ready {P : ServerConnection → Prop}
    (keeps : ∀ c op, isWrite op = true → P c → P (ServerRun.perform c op).conn)
    (unready : ∀ c, P c → Unready c) (ready : Ready who.conn)
    (start : P who.conn.takeRequest.advanceState.2)
    (returned : (onClientHandler user who).2.conn.state ≠ .requestReady) :
    P (onClientHandler user who).2.conn := by
  have called : (who.call user who.rwdHandler).2.conn = who.conn :=
    call_keeps (P := fun c => c = who.conn)
      (fun c op writes same => by rw [same, perform_idle ready.idle op writes]) _ rfl
  have opened : who.conn.isOpen = true := ready.going.opened
  simp only [onClientHandler, opened, Bool.not_true, Bool.false_eq_true, ↓reduceIte] at returned ⊢
  cases streamed : who.call user who.rwdHandler with
  | mk ending next =>
    rw [streamed] at called returned
    have conn : next.conn = who.conn := called
    cases ending with
    | error e =>
      simp only [conn] at returned
      exact absurd ready.state returned
    | ok _ =>
      have message : next.conn.readNextMessage = (none, next.conn) := by
        simp [readNextMessage, conn, ready.state]
      have request : next.conn.readNextRequest =
          (some { header := next.conn.requestParser.req, body := next.conn.httpBodyParser.body },
            next.conn.takeRequest.advanceState.2) := by
        simp [readNextRequest, conn, ready.state]
      simp only [clientLoop, message, request]
      have handled :
          P (onClientHandleRequest user
            { next with conn := next.conn.takeRequest.advanceState.2 }).2.conn :=
        handleRequest_keeps keeps (by rw [conn]; exact start)
      split
      · rename_i failed
        rwa [failed] at handled
      · rename_i next' answered
        rw [answered] at handled
        rw [clientLoop_unready _ (unready _ handled)]
        exact handled

/-- The events of one client. -/
inductive ClientEvent where
  | arrive (arrivals : List Arrival)
  | plan (sends : List SendResult)
  | notify (canRead canWrite : Bool)
  | dispatch
  | shutdownTimer

/-- The client after an event, before the server's handler, and whether that
handler is called. -/
def settled (who : Client) : ClientEvent → Bool × Client
  | .arrive arrivals => (false, { who with conn.sock.sock := who.conn.sock.sock.arrive arrivals })
  | .plan sends => (false, { who with conn.sock.sock := who.conn.sock.sock.plan sends })
  | .notify canRead canWrite =>
    (false, { who with conn.sock.sock := who.conn.sock.sock.notify canRead canWrite })
  | .dispatch => (who.conn.dispatch.1, { who with conn := who.conn.dispatch.2 })
  | .shutdownTimer =>
    (who.conn.shutdownTimerHandler.1, { who with conn := who.conn.shutdownTimerHandler.2 })

/-- An event of a client and all that the server does about it. -/
def handle (user : Nat → UserCall) (who : Client) (event : ClientEvent) : Client :=
  if who.erased then who
  else if (settled who event).1 then (onClientHandler user (settled who event).2).2
  else (settled who event).2

/-- `on_client_handler` is entered with a complete request. -/
def EntersReady (who : Client) (event : ClientEvent) : Prop :=
  who.erased = false ∧ (settled who event).1 = true ∧ (settled who event).2.conn.state = .requestReady

/-- The request handler writes a complete response before it returns. -/
def Answers (user : Nat → UserCall) (who : Client) (event : ClientEvent) : Prop :=
  EntersReady who event → (handle user who event).conn.state = .requestHeader

/-- No byte behind the request was received when `on_client_handler` is entered
with it, unless the connection is to be closed after the answer. -/
def Alone (who : Client) (event : ClientEvent) : Prop :=
  EntersReady who event → (settled who event).2.conn.requestParser.req.keepAlive = true →
    (settled who event).2.conn.readBuffer.empty = true ∧
    InboundProofs.ready (settled who event).2.conn.sock = []

/-- A connection on which the next request would be read at once. -/
structure Waiting (c : ServerConnection) : Prop where
  opened : c.isOpen = true
  unasked : c.sock.writeShutdownAsked = false
  idle : c.isWritingBody = false
  flushed : c.getTotalBufferSize = 0

private theorem sockHandler_resting (resting : Resting c) :
    (c.sockHandler.1 = false ∧ Resting c.sockHandler.2) ∨
      (c.sockHandler.1 = true ∧ (Resting c.sockHandler.2 ∨ Ready c.sockHandler.2)) := by
  unfold sockHandler
  split
  · exact .inr ⟨rfl, .inl (resting_close resting.room resting.sound)⟩
  · rename_i opened
    have idle : c.isWritingBody = false := by
      rcases resting.state with state | state <;> simp [isWritingBody, resting.plain, state]
    simp only [idle, Bool.false_eq_true, ↓reduceIte]
    exact advanceState_resting resting (by simpa using opened)

private theorem settled_resting (resting : Resting who.conn) (event : ClientEvent) :
    ((settled who event).1 = false ∧ Resting (settled who event).2.conn) ∨
      ((settled who event).1 = true ∧
        (Resting (settled who event).2.conn ∨ Ready (settled who event).2.conn)) := by
  cases event with
  | arrive arrivals => exact .inl ⟨rfl, resting.sock _⟩
  | plan sends => exact .inl ⟨rfl, resting.sock _⟩
  | notify canRead canWrite => exact .inl ⟨rfl, resting.sock _⟩
  | dispatch =>
    simp only [settled, dispatch]
    split
    · exact sockHandler_resting (resting.sock _)
    · exact .inl ⟨rfl, resting⟩
  | shutdownTimer =>
    simp only [settled, shutdownTimerHandler]
    split
    · exact sockHandler_resting (resting.sock _)
    · exact .inl ⟨rfl, resting⟩

/-- `on_client_handler` without a complete request does nothing to the
connection. -/
private theorem handler_resting (resting : Resting who.conn) :
    (onClientHandler user who).2.conn = who.conn := by
  have called : ∀ (next : Client) isSet, next.conn = who.conn →
      (next.call user isSet).2.conn = who.conn :=
    fun next isSet same => call_keeps (P := fun c => c = who.conn)
      (fun c op writes same => by rw [same, perform_idle resting.idle op writes]) isSet same
  unfold onClientHandler
  split
  · unfold onClientDisconnected
    have told := called who who.dHandler rfl
    split
    · rename_i failed
      rwa [failed] at told
    · rename_i next done
      rw [done] at told
      have streamed := called next next.rwdHandler told
      split
      · rename_i failed
        rwa [failed] at streamed
      · rename_i next' done'
        rw [done'] at streamed
        have closed := called next' next'.wsHandler streamed
        split
        · rename_i failed
          rwa [failed] at closed
        · rename_i done''
          rwa [done''] at closed
  · have streamed := called who who.rwdHandler rfl
    split
    · rename_i failed
      rwa [failed] at streamed
    · rename_i next done
      rw [done] at streamed
      have unready : Unready next.conn := by
        have same : next.conn = who.conn := streamed
        rcases resting.state with state | state <;> simp [Unready, same, state]
      rw [clientLoop_unready _ unready]
      exact streamed

/-- The user's writes keep both what they did so far and the end of the last
response. -/
private def Served (taken c : ServerConnection) : Prop :=
  Written taken c ∧ Unready c ∧ (Closing taken → Closing c ∨ Sealed c)

private theorem served_keeps (taken c : ServerConnection) (op : ServerOp) (writes : isWrite op = true)
    (served : Served taken c) : Served taken (perform c op).conn := by
  obtain ⟨written, unready, closing⟩ := served
  refine ⟨written.trans (perform_written op writes), (perform_written op writes).unready unready,
    fun last => ?_⟩
  rcases closing last with open_ | ended
  · exact closing_perform open_ op writes
  · refine .inr (perform_sealed ended op ?_)
    cases op <;> simp_all [isWrite, reopens]

/-- The connection at the return of `on_client_handler`, compared with the one
the request was taken from. -/
private theorem handler_served (ready : Ready who.conn)
    (returned : (onClientHandler user who).2.conn.state ≠ .requestReady) :
    Served who.conn.takeRequest.advanceState.2 (onClientHandler user who).2.conn := by
  obtain ⟨-, state, -⟩ := taken_spec ready
  refine handler_ready (served_keeps _) (fun _ served => served.2.1) ready
    ⟨Written.refl _, ?_, .inl⟩ returned
  simp [Unready, state]

/-- At the return of `on_client_handler` the read buffer is empty exactly if no
byte behind the request had been received when it was entered. -/
private theorem handler_drained_iff (ready : Ready who.conn)
    (returned : (onClientHandler user who).2.conn.state ≠ .requestReady)
    (waiting : Waiting (onClientHandler user who).2.conn) :
    (onClientHandler user who).2.conn.readBuffer.empty = true ↔
      who.conn.readBuffer.empty = true ∧ InboundProofs.ready who.conn.sock = [] := by
  obtain ⟨-, -, -, -, drained⟩ := taken_spec ready
  obtain ⟨written, -, -⟩ := handler_served ready returned
  rcases written.buffer with same | ⟨-, asked | closed⟩
  · rw [same, empty_iff, empty_iff, drained]
  · simp [waiting.unasked] at asked
  · simp [waiting.opened] at closed

private theorem handler_rests (ready : Ready who.conn)
    (answered : (onClientHandler user who).2.conn.state = .requestHeader)
    (alone : who.conn.requestParser.req.keepAlive = true →
      who.conn.readBuffer.empty = true ∧ InboundProofs.ready who.conn.sock = []) :
    Resting (onClientHandler user who).2.conn := by
  obtain ⟨reading, state, -, keepAlive, drained⟩ := taken_spec ready
  have returned : (onClientHandler user who).2.conn.state ≠ .requestReady := by simp [answered]
  obtain ⟨written, -, closing⟩ := handler_served ready returned
  have plain : (onClientHandler user who).2.conn.writingWebMessageBody = false := by
    have mode := written.mode (.inr reading.plain)
    exact mode.resolve_left (by simp [isStateWebsocket, answered])
  have sound : Sound (onClientHandler user who).2.conn.httpBodyParser := written.parser ▸ reading.sound
  rcases written.buffer with same | ⟨cleared, -⟩
  · refine ⟨⟨same ▸ reading.linear, same ▸ reading.room, sound, plain⟩, ?_, .inl answered⟩
    cases last : who.conn.requestParser.req.keepAlive with
    | true =>
      obtain ⟨empty, nothing⟩ := alone last
      rw [same, drained]
      exact ⟨(empty_iff _).mp empty, nothing⟩
    | false =>
      rcases closing ⟨.inl state, keepAlive.trans last⟩ with ⟨open_, -⟩ | ended
      · simp [answered] at open_
      · exact List.length_eq_zero_iff.mp ((contents_length _).trans ended.drained)
  · refine ⟨⟨?_, ?_, sound, plain⟩, ?_, .inl answered⟩
    · rw [cleared]
      exact linear_clear _
    · rw [cleared]
      exact reading.room
    · rw [cleared]
      exact contents_clear _

private theorem settled_ready (resting : Resting who.conn) {event : ClientEvent}
    (enters : EntersReady who event) :
    Ready (settled who event).2.conn := by
  obtain ⟨-, -, state⟩ := enters
  rcases settled_resting resting event with ⟨-, waits⟩ | ⟨-, waits | ready⟩
  · rcases waits.state with other | other <;> simp [other] at state
  · rcases waits.state with other | other <;> simp [other] at state
  · exact ready

theorem handle_resting (user : Nat → UserCall) (who : Client) (event : ClientEvent)
    (resting : Resting who.conn) (meets : Answers user who event ∧ Alone who event) :
    Resting (handle user who event).conn := by
  obtain ⟨answers, alone⟩ := meets
  cases erased : who.erased with
  | true => simpa [handle, erased] using resting
  | false =>
    rcases settled_resting resting event with ⟨quiet, waits⟩ | ⟨called, waits | ready⟩
    · simpa [handle, erased, quiet] using waits
    · simp only [handle, erased, called, Bool.false_eq_true, ↓reduceIte]
      rwa [handler_resting waits]
    · have enters : EntersReady who event := ⟨erased, called, ready.state⟩
      have answered := answers enters
      simp only [handle, erased, called, Bool.false_eq_true, ↓reduceIte] at answered ⊢
      exact handler_rests ready answered (alone enters)

/-- The client that `accept_all` creates. -/
def newClient (accepted : Accepted) : Client := { conn := (({} : ServerConnection).accept accepted).2 }

theorem newClient_resting (accepted : Accepted) : Resting (newClient accepted).conn := by
  have room : 0 < (Buffer.make 8192).capacity := by decide
  have fresh : ∀ (s : BufferedTcpSocket) parser,
      Resting { ({} : ServerConnection).close with sock := s, requestParser := parser } :=
    fun _ _ => ⟨⟨linear_clear _, room, make_sound none false, rfl⟩, contents_clear _, .inl rfl⟩
  cases accepted with
  | missing => exact fresh _ _
  | ready => exact fresh _ _
  | refused => exact fresh _ _

/-- In every run of a client whose handler answers each request before it
returns, and in which no byte behind a request has been received when
`on_client_handler` is entered with it, no received byte is left in the read
buffer of a connection that waits for the next request. From any state of such a
run, a request that is answered leaves none exactly under that condition. -/
theorem no_stranded_input (user : Nat → UserCall) (accepted : Accepted) (events : List ClientEvent)
    (meets : Run.Meets (handle user) (fun who event => Answers user who event ∧ Alone who event)
      (newClient accepted) events) :
    let who := Run.after (handle user) (newClient accepted) events
    (Waiting who.conn → who.conn.readBuffer.empty = true) ∧
      ∀ event, EntersReady who event → Answers user who event → Waiting (handle user who event).conn →
        ((handle user who event).conn.readBuffer.empty = true ↔
          (settled who event).2.conn.readBuffer.empty = true ∧
            InboundProofs.ready (settled who event).2.conn.sock = []) := by
  intro who
  have resting : Resting who.conn :=
    Run.invariant_of_meets (handle_resting user) (newClient_resting accepted) events meets
  refine ⟨fun _ => (empty_iff _).mpr resting.drained, fun event enters answers waiting => ?_⟩
  have answered := answers enters
  simp only [handle, enters.1, enters.2.1, Bool.false_eq_true, ↓reduceIte] at answered waiting ⊢
  exact handler_drained_iff (settled_ready resting enters) (by simp [answered]) waiting

instance (who : Client) (event : ClientEvent) : Decidable (EntersReady who event) :=
  inferInstanceAs (Decidable (_ ∧ _ ∧ _))

instance (user : Nat → UserCall) (who : Client) (event : ClientEvent) :
    Decidable (Answers user who event) :=
  inferInstanceAs (Decidable (_ → _))

instance (who : Client) (event : ClientEvent) : Decidable (Alone who event) :=
  inferInstanceAs (Decidable (_ → _ → _ ∧ _))

/-- A handler that answers every request with the same text. -/
def answerAll : Nat → UserCall := fun _ => { ops := [.write (.simpleText 200 (str "ok"))] }

/-- A segment, and the event that reports it. -/
def received (bytes : Bytes) : List ClientEvent :=
  [.arrive (segment bytes), .notify true true, .dispatch]

/-- A request in its shortest form. -/
def getRequest : Bytes := str "GET / HTTP/1.1\r\n\r\n"

/-- Two requests, each in a segment of its own. -/
theorem no_stranded_input_apart :
    Run.Meets (handle answerAll) (fun who event => Answers answerAll who event ∧
      Alone who event) (newClient .ready)
        (received getRequest ++ received getRequest) ∧
      (Waiting (Run.after (handle answerAll) (newClient .ready)
          (received getRequest ++ received getRequest)).conn →
        (Run.after (handle answerAll) (newClient .ready)
          (received getRequest ++ received getRequest)).conn.readBuffer.empty = true) := by
  have meets :
      Run.Meets (handle answerAll) (fun who event => Answers answerAll who event ∧ Alone who event)
      (newClient .ready) (received getRequest ++ received getRequest) := by
    decide +kernel
  exact ⟨meets, (no_stranded_input answerAll .ready _ meets).1⟩

/-- Two requests in one segment: the first is answered, the second stays in the
read buffer of a connection on which no event is due. -/
theorem second_request_stranded :
    Run.Meets (handle answerAll) (Answers answerAll) (newClient .ready)
        (received (getRequest ++ getRequest)) ∧
      Waiting (Run.after (handle answerAll) (newClient .ready)
        (received (getRequest ++ getRequest))).conn ∧
      (Run.after (handle answerAll) (newClient .ready)
        (received (getRequest ++ getRequest))).conn.readBuffer.empty = false := by
  refine ⟨by decide +kernel, ⟨?_, ?_, ?_, ?_⟩, ?_⟩ <;> decide +kernel

end Handler

end Crablib.PipelineProofs
