import Crablib.ClientHistoryProofs
import Crablib.ServerProgressProofs

/-! The loop of `advance_state` of a client connection ends, as in
`ServerProgressProofs`. What stands for the seal of a server connection here is
that the socket reads nothing and the read buffer is empty. -/
namespace Crablib.ClientProgressProofs
open Http ClientConnection ClientRun StreamsProofs SocketProofs InboundProofs ParserProofs
open ClientHistoryProofs ServerEndProofs ProgressProofs EndpointProofs

/-- Whether the parser that the state reads with has nothing to do. -/
def parserGood (c : ClientConnection) : Bool :=
  match c.state with
  | .responseHeader => c.responseParser.isGood
  | .responseBody => c.httpBodyParser.isGood
  | .webUpgradeResponseHeader => c.responseParser.isGood
  | .web .header => c.reader.wmHeaderParser.isGood
  | .web .body => c.reader.wmBodyParser.isGood
  | _ => false

def advancing : Advancing ClientConnection where
  turn := turn
  tryLoop := tryLoop
  readBuffer := readBuffer
  sock := sock
  parserGood := parserGood
  onException := onException
  advanceState := advanceState

/-- The parser that the state reads with has something to do. -/
def Due (c : ClientConnection) : Prop :=
  match c.state with
  | .responseHeader => c.responseParser.isGood = false
  | .responseBody => BodyDue c.httpBodyParser
  | .webUpgradeResponseHeader => c.responseParser.isGood = false
  | .web state => ReaderDue state c.reader
  | _ => True

variable {c d : ClientConnection}

private theorem Due.running (due : Due c) : parserGood c = false := by
  unfold Due at due
  unfold parserGood
  split at due
  · rename_i state
    simpa only [state] using due
  · rename_i state
    simpa only [state] using due.running
  · rename_i state
    simpa only [state] using due
  · rename_i web state
    cases web with
    | header => simpa only [state, ReaderDue] using due
    | body => simp [state, WebMessageBodyParser.isGood, due.1]
    | ready => simp [state]
  · split <;> simp_all

/-- A message can be dropped, or it is sent. -/
theorem writeMessage_cases {message : WebMessage} (done : c.writeMessage message = .ok d) :
    d = c ∨ c.mayWriteMessage = true ∧ d = c.sendMessage message := by
  simp only [ClientConnection.writeMessage] at done
  split at done
  · cases done
    exact .inl rfl
  · simp only [bind_eq_ok, invariant_ok, pure_eq_ok] at done
    obtain ⟨-, may, rfl⟩ := done
    exact .inr ⟨may, rfl⟩

private theorem due_writeMessage {message : WebMessage}
    (done : c.writeMessage message = .ok d) (due : Due c) :
    Due d := by
  obtain rfl | ⟨-, rfl⟩ := writeMessage_cases done
  · exact due
  · simp only [sendMessage]
    split
    · exact due
    · exact due

/-- A pong leaves the read buffer and what the peer sent alone. -/
private theorem writePong_left {body : Bytes}
    (done : c.writeMessage { opcode := .pong, body := body } = .ok d) :
    d.readBuffer = c.readBuffer ∧ d.sock.sock.descriptor.incoming = c.sock.sock.descriptor.incoming := by
  obtain rfl | ⟨-, rfl⟩ := writeMessage_cases done
  · exact ⟨rfl, rfl⟩
  · exact ⟨rfl, ((buffer_extends _ _).trans (writeString_extends _ _ .write)).incoming⟩

private theorem readResponseBody_leaves {size : Nat} (state : c.state = .responseBody)
    (sound : Sound c.httpBodyParser) (fewer : ∀ {parser after},
      c.readBuffer.parseWith c.httpBodyParser.parse = .ok (parser, after) → after.size < size) :
    advancing.Leaves Due size (queued c.sock.sock.descriptor.incoming) c.readResponseBody := by
  unfold readResponseBody
  split
  · trivial
  · rename_i parser after parsed
    simp only
    split
    · rename_i running
      refine ⟨?_, fewer parsed, rfl⟩
      have due := body_due sound parsed (by simpa using running)
      simpa only [Due, state] using due
    · trivial

private theorem readResponseHeader_leaves (state : c.state = .responseHeader)
    (running : c.responseParser.isGood = false) (some : c.readBuffer.size ≠ 0) :
    advancing.Leaves Due c.readBuffer.size (queued c.sock.sock.descriptor.incoming)
      c.readResponseHeader := by
  unfold readResponseHeader
  split
  · trivial
  · rename_i parser after parsed
    have shorter : after.size < c.readBuffer.size :=
      scan_lt (m := ResponseParser.machine) running some parsed
    simp only
    split
    · rename_i waiting
      refine ⟨?_, shorter, rfl⟩
      simpa only [Due, state, Bool.not_eq_true'] using waiting
    · split
      · trivial
      -- a body of no bytes is good at once, and the pass stops
      · exact readResponseBody_leaves rfl (make_sound _ _)
          fun parsed' => Nat.lt_of_le_of_lt (parseWith_le parsed') shorter

private theorem readUpgradeResponse_leaves (state : c.state = .webUpgradeResponseHeader)
    (running : c.responseParser.isGood = false) (some : c.readBuffer.size ≠ 0) :
    advancing.Leaves Due c.readBuffer.size (queued c.sock.sock.descriptor.incoming)
      c.readUpgradeResponse := by
  unfold readUpgradeResponse
  split
  · trivial
  · rename_i parser after parsed
    have shorter : after.size < c.readBuffer.size :=
      scan_lt (m := ResponseParser.machine) running some parsed
    simp only
    split
    · rename_i waiting
      refine ⟨?_, shorter, rfl⟩
      simpa only [Due, state, Bool.not_eq_true'] using waiting
    · split
      · trivial
      · split
        · trivial
        · split
          · trivial
          -- both parsers of the web socket start anew
          · exact ⟨rfl, shorter, rfl⟩

private theorem webMessage_leaves {state : WebState} (reads : state ≠ .ready)
    (due : ReaderDue state c.reader) (some : c.readBuffer.size ≠ 0) :
    advancing.Leaves Due c.readBuffer.size (queued c.sock.sock.descriptor.incoming)
      (c.readWebMessage state) :=
  readWebMessage_leaves client_models reads due some (fun _ _ _ next => next)
    due_writeMessage writePong_left

private theorem switchState_leaves (due : Due c) (some : c.readBuffer.size ≠ 0) :
    advancing.Leaves Due c.readBuffer.size (queued c.sock.sock.descriptor.incoming) c.switchState := by
  unfold switchState
  unfold Due at due
  split
  · rename_i state
    rw [state] at due
    exact readResponseHeader_leaves state due some
  · rename_i state
    rw [state] at due
    exact readResponseBody_leaves state due.sound (body_lt due some)
  · rename_i state
    rw [state] at due
    exact readUpgradeResponse_leaves state due some
  · rename_i state
    rw [state] at due
    exact webMessage_leaves (by simp) due some
  · rename_i state
    rw [state] at due
    exact webMessage_leaves (by simp) due some
  · exact due

/-- A connection that parses nothing any more. -/
structure Silent (c : ClientConnection) : Prop where
  shut : Shut c.sock
  drained : c.readBuffer.size = 0

def Held (c : ClientConnection) : Prop := Due c ∨ Silent c

private theorem progresses : advancing.Progresses Due Silent where
  running _ due := due.running
  leaves _ due := turn_leaves client_models (fun _ _ _ due => due) (fun _ => switchState_leaves) due
  stops _ silent := by
    obtain ⟨stops, b, drained, turned⟩ := shut_turn client_models silent.shut silent.drained
    exact ⟨stops, by rw [show advancing.turn = client.turn from rfl, turned]; exact ⟨silent.shut,
      drained⟩⟩
  catches _ _ _ _ := ⟨shut_writeShutdown _, rfl⟩

private theorem advanceState_held (held : Held c) : Held c.advanceState.2 :=
  progresses.advanceState_kept (looping_models client_models) held

private theorem sockHandler_held (held : Held c) : Held c.sockHandler.2 := by
  unfold sockHandler
  split
  · exact .inl trivial
  · exact advanceState_held held

private theorem settle_held {result : Except Error ClientConnection} (held : Held c)
    (after : ∀ d, result = .ok d → Held d) : Held (settle c result).conn := by
  cases result with
  | error e => exact held
  | ok d => exact after d rfl

/-- A request that is sent meets a new parser. -/
private theorem writeRequest_held {req : Request} (done : c.writeRequest req = .ok d)
    (held : Held c) : Held d := by
  simp only [ClientConnection.writeRequest] at done
  split at done
  · cases done
    exact held
  · split at done
    · simp only [bind_eq_ok, invariant_ok, pure_eq_ok] at done
      obtain ⟨-, -, rfl⟩ := done
      rcases held with due | silent
      · exact .inl due
      · exact .inr ⟨silent.shut, silent.drained⟩
    · simp only [bind_eq_ok, invariant_ok, pure_eq_ok] at done
      obtain ⟨-, -, -, -, -, -, rfl⟩ := done
      simp only [sendRequest]
      split
      · exact .inl rfl
      · exact .inl rfl

private theorem writeMessage_held {message : WebMessage}
    (done : c.writeMessage message = .ok d) (held : Held c) :
    Held d := by
  rcases held with due | silent
  · exact .inl (due_writeMessage done due)
  · obtain rfl | ⟨-, rfl⟩ := writeMessage_cases done
    · exact .inr silent
    · simp only [sendMessage]
      split
      · exact .inr ⟨shut_writeShutdown _, rfl⟩
      · refine .inr ⟨?_, silent.drained⟩
        exact shut_extends silent.shut ((buffer_extends _ _).trans (writeString_extends _ _ .write))

/-- The resolver's answer opens a socket in a state that reads nothing, or
closes the connection. -/
private theorem dnsHandler_held (held : Held c) (result : Option ConnectResult) :
    Held (c.dnsHandler result).2 := by
  simp only [dnsHandler]
  split
  · exact held
  · split
    · exact .inl trivial
    · split
      · rcases held with due | silent
        · exact .inl due
        · exact .inr ⟨silent.shut, silent.drained⟩
      · split
        · exact .inl trivial
        · split
          · exact .inl trivial
          · split
            · exact .inl trivial
            · rename_i written sent
              have kept := writeRequest_held sent (.inl trivial)
              rcases kept with due | silent
              · exact .inl due
              · exact .inr ⟨silent.shut, silent.drained⟩

private theorem event_held {s : BufferedTcpSocket} (held : Held c) (shut : Shut c.sock → Shut s) :
    Held { c with sock := s } := by
  rcases held with due | silent
  · exact .inl due
  · exact .inr ⟨shut silent.shut, silent.drained⟩

private theorem socketEvent_held (held : Held c) : Held c.socketEvent :=
  event_held held fun shut => shut_sockHandler shut

private theorem timer_held (held : Held c) : Held { c with sock := c.sock.shutdownTimerHandler } :=
  event_held held fun _ => shut_close _

private theorem perform_held (held : Held c) (op : ClientRun.ClientOp) : Held (perform c op).conn := by
  cases op with
  | connectAddress host port result =>
    simp only [perform, connectAddress]
    split
    · exact .inl trivial
    · exact .inl trivial
  | connectHost host port protocol =>
    simp only [perform, connectHost, settleAfter_conn]
    split
    · exact .inl trivial
    · exact .inl trivial
  | close => exact .inl trivial
  | readNextResponse =>
    simp only [perform, readNextResponse]
    split
    · exact held
    · exact advanceState_held (.inl trivial)
  | readNextMessage =>
    simp only [perform, readNextMessage]
    split
    · exact held
    · exact advanceState_held (.inl rfl)
  | webSocketUpgrade rh rdata => exact settle_held held fun d done => writeRequest_held done held
  | writeRequest req => exact settle_held held fun d done => writeRequest_held done held
  | writeMessage message => exact settle_held held fun d done => writeMessage_held done held
  | dnsHandler result =>
    simp only [perform, settleAfter_conn]
    exact dnsHandler_held held result
  | arrive arrivals =>
    refine event_held held fun shut => ?_
    simp only [TcpSocket.arrive]
    split
    · exact shut
    · exact shut
  | plan sends => exact event_held held fun shut => shut
  | notify canRead canWrite =>
    refine event_held held fun shut => ?_
    simp only [TcpSocket.notify]
    split
    · exact shut
    · exact shut
  | dispatch =>
    simp only [perform, dispatch]
    split
    · exact sockHandler_held (socketEvent_held held)
    · exact held
  | shutdownTimer =>
    simp only [perform, shutdownTimerHandler]
    split
    · exact sockHandler_held (timer_held held)
    · exact held

theorem held_afterOps (keys : List UInt32) (history : List ClientRun.ClientOp) :
    Held (afterOps { keys := keys } history) := by
  have start : Held { keys := keys } := .inl trivial
  exact Run.invariant_of_keeps (P := Held) (fun _ op held => perform_held held op) start history

/-- The connections that the calls of `advance_state` start from, besides the
reached one itself. -/
inductive Enters (c : ClientConnection) : ClientConnection → Prop where
  | reached : Enters c c
  | response (ready : c.state = .responseReady) : Enters c c.takeResponse
  | message (ready : c.state = .web .ready) : Enters c c.takeMessage
  | event (pending : c.sock.sock.pending = true) : Enters c c.socketEvent
  | timer (set : c.sock.shutdownTimer = true) : Enters c { c with sock := c.sock.shutdownTimerHandler }

private theorem enters_held (held : Held c) (enters : Enters c d) : Held d := by
  cases enters with
  | reached => exact held
  | response ready => exact .inl trivial
  | message ready => exact .inl rfl
  | event pending => exact socketEvent_held held
  | timer set => exact timer_held held

/-- In every run the loop of `advance_state` ends wherever it starts. -/
theorem client_terminates (keys : List UInt32) (history : List ClientRun.ClientOp)
    (enters : Enters (afterOps { keys := keys } history) d) : advancing.Terminates d :=
  progresses.keeps.terminates (looping_models client_models)
    (enters_held (held_afterOps keys history) enters)

/-- `advance_state` of both connections terminates, in every run and however
much data waits in the socket. -/
theorem advanceState_terminates :
    (∀ (history : List ServerRun.ServerOp) (c : ServerConnection),
      ServerProgressProofs.Enters (ServerRun.afterOps {} history) c →
        ServerProgressProofs.advancing.Terminates c) ∧
    ∀ (keys : List UInt32) (history : List ClientRun.ClientOp) (c : ClientConnection),
      Enters (afterOps { keys := keys } history) c → advancing.Terminates c := by
  constructor
  · intro history c enters
    exact ServerProgressProofs.server_terminates history enters
  · intro keys history c enters
    exact client_terminates keys history enters

/-- A request whose body is empty, and the first bytes of the next one. -/
def requested : List ServerRun.ServerOp :=
  [.accept .ready, .arrive [.data (ch 'P') (str "OST / HTTP/1.1\r\nContent-Length: 0\r\n\r\nGET"), .fin],
    .notify true true]

/-- A request is sent, and the head of its response arrives. -/
def answered : List ClientRun.ClientOp :=
  [.connectAddress (str "h") 80 .immediate, .dispatch,
    .writeRequest { header := { httpVersionMajor := 1, method := str "GET", path := str "/" } },
    .arrive [.data (ch 'H') (str "TTP/1.1 200 OK\r\nContent-Length: 3\r\n\r\na")], .notify true true]

theorem advanceState_terminates_events :
    ServerProgressProofs.advancing.Terminates (ServerRun.afterOps {} requested).socketEvent ∧
      advancing.Terminates (afterOps { keys := [] } answered).socketEvent := by
  have served : (ServerRun.afterOps {} requested).sock.sock.pending = true := by decide +kernel
  have asked : (afterOps { keys := [] } answered).sock.sock.pending = true := by decide +kernel
  exact ⟨advanceState_terminates.1 requested _ (.event served),
    advanceState_terminates.2 [] answered _ (.event asked)⟩

end Crablib.ClientProgressProofs
