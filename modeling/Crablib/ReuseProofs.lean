import Crablib.RequestRunProofs

/-! When a connection is used again. `send` looks at the host, the port and the protocol
of the open connection, not at what the last response said about it. A response is read
only when nothing waits to be sent, so a connection that the server has announced to
close stays silent until the next request, if that request does not go to it. -/
namespace Crablib.ReuseProofs
open Http RequestRun StreamsProofs SocketProofs InboundProofs ClientHistoryProofs RequestRunProofs
open EndpointProofs (client client_models)

variable {c d : ClientConnection}

/-- The object and, for the TCP connection that is open now, the `keep_alive` of the
responses that were received on it. -/
structure Ledger where
  requests : ClientRequestSimple := {}
  received : List Bool := []

/-- The result of the resolver starts a new TCP connection. -/
def startsConnection (r : ClientRequestSimple) : RequestOp → Bool
  | .dnsHandler _ => r.connection.dnsOpen
  | _ => false

/-- What was received earlier on the TCP connection that an operation has to do with. -/
def earlier (l : Ledger) (op : RequestOp) : List Bool :=
  if startsConnection l.requests op then [] else l.received

/-- One operation; what was received is forgotten with the TCP connection. -/
def record (l : Ledger) (op : RequestOp) : Ledger where
  requests := (perform l.requests op).requests
  received :=
    if (perform l.requests op).requests.connection.sock.isOpen then
      earlier l op ++ (perform l.requests op).response.toList.map (·.header.keepAlive)
    else []

def recorded (l : Ledger) (ops : List RequestOp) : Ledger := Run.after record l ops

/-- What was sent on the TCP connection. -/
def sent (r : ClientRequestSimple) : Bytes := r.connection.sock.sock.descriptor.sent

/-- A `send` that would reuse the connection finds no response on it that announced its
end. -/
def Spares (l : Ledger) (op : RequestOp) : Prop :=
  ∀ call, target op = some call → l.requests.connection.isOpen = true →
    l.requests.isElsewhere call.1.header.host call.2.1 call.2.2 = false → false ∉ l.received

instance (l : Ledger) (op : RequestOp) : Decidable (Spares l op) :=
  match targets : target op with
  | none => isTrue fun call same => by
    rw [targets] at same
    cases same
  | some call =>
    decidable_of_iff (l.requests.connection.isOpen = true →
        l.requests.isElsewhere call.1.header.host call.2.1 call.2.2 = false → false ∉ l.received)
      ⟨fun spares _ same => by
        cases targets.symm.trans same
        exact spares, fun spares => spares call targets⟩

section Advance

/-- Nothing waits to be sent while HTTP is read. -/
def Unwritten (c : ClientConnection) : Prop := (∃ w, c.state = .web w) ∨ c.sock.dataToWrite = []

/-- Steps that keep the byte counter right and write in the web-socket states only. -/
structure Keeps (c d : ClientConnection) : Prop where
  accounted : Accounted c.sock.totalDataToWrite c.sock.dataToWrite →
    Accounted d.sock.totalDataToWrite d.sock.dataToWrite
  unwritten : Unwritten c → Unwritten d

private theorem Keeps.refl (c : ClientConnection) : Keeps c c := ⟨id, id⟩

private theorem Keeps.trans {e : ClientConnection} (first : Keeps c d)
    (second : Keeps d e) : Keeps c e :=
  ⟨second.accounted ∘ first.accounted, second.unwritten ∘ first.unwritten⟩

private theorem Keeps.of_sock (same : d.sock = c.sock) (http : ∀ w, c.state ≠ .web w) : Keeps c d where
  accounted before := by
    rw [same]
    exact before
  unwritten before := by
    rcases before with ⟨w, web⟩ | empty
    · exact absurd web (http w)
    · right
      rw [same]
      exact empty

private theorem shutdown_data (s : BufferedTcpSocket) :
    s.writeShutdown.dataToWrite = s.dataToWrite ∧
      s.writeShutdown.totalDataToWrite = s.totalDataToWrite := by
  unfold BufferedTcpSocket.writeShutdown
  split
  · exact ⟨rfl, rfl⟩
  · simp only
    split <;> exact ⟨rfl, rfl⟩

private theorem writeMessage_accounted {message : WebMessage} (done : c.writeMessage message = .ok d)
    (before : Accounted c.sock.totalDataToWrite c.sock.dataToWrite) :
    Accounted d.sock.totalDataToWrite d.sock.dataToWrite ∧ d.state = c.state := by
  simp only [ClientConnection.writeMessage] at done
  split at done
  · cases done
    exact ⟨before, rfl⟩
  · simp only [bind_eq_ok, invariant_ok, pure_eq_ok] at done
    obtain ⟨-, -, rfl⟩ := done
    have buffered := buffer_extends c.sock
      (webMessageHeader true message.opcode.toNat (payload message).length (some (c.keys.headD 0)))
    have sent := (writeString_extends
      (c.sock.buffer (webMessageHeader true message.opcode.toNat (payload message).length
      (some (c.keys.headD 0)))) (maskData 0 (payload message) (c.keys.headD 0)) .write).accounted
      (buffered.accounted before)
    simp only [ClientConnection.sendMessage]
    split
    · obtain ⟨pieces, total⟩ :=
        shutdown_data ((c.sock.buffer
          (webMessageHeader true message.opcode.toNat (payload message).length
        (some (c.keys.headD 0)))).writeString (maskData 0 (payload message) (c.keys.headD 0)) .write)
      refine ⟨?_, rfl⟩
      simp only [pieces, total]
      exact sent
    · exact ⟨sent, rfl⟩

private theorem readWebMessage_keeps (c : ClientConnection) (state : WebState) :
    Keeps c (c.readWebMessage state).2 := by
  have written {message : WebMessage} {d : ClientConnection}
      (done : ({ c with
        state := .web (c.reader.read state c.readBuffer).2.1
        reader := (c.reader.read state c.readBuffer).2.2.1
        readBuffer := (c.reader.read state c.readBuffer).2.2.2 } :
            ClientConnection).writeMessage message = .ok d) :
      Keeps c d := by
    refine ⟨fun before => (writeMessage_accounted done before).1,
      fun _ => .inl ⟨(c.reader.read state c.readBuffer).2.1, ?_⟩⟩
    simp only [ClientConnection.writeMessage] at done
    split at done
    · cases done
      rfl
    · simp only [bind_eq_ok, invariant_ok, pure_eq_ok] at done
      obtain ⟨-, -, rfl⟩ := done
      simp only [ClientConnection.sendMessage]
      split <;> rfl
  simp only [ClientConnection.readWebMessage]
  split
  · exact ⟨id, fun _ => .inl ⟨_, rfl⟩⟩
  · exact ⟨id, fun _ => .inl ⟨_, rfl⟩⟩
  · exact ⟨id, fun _ => .inl ⟨_, rfl⟩⟩
  · split
    · exact ⟨id, fun _ => .inl ⟨_, rfl⟩⟩
    · rename_i done
      exact written done
  · split
    · exact ⟨id, fun _ => .inl ⟨_, rfl⟩⟩
    · rename_i done
      exact written done

private theorem switchState_keeps (c : ClientConnection) : Keeps c c.switchState.2 := by
  unfold ClientConnection.switchState
  split
  · rename_i state
    exact Keeps.of_sock (readResponseHeader_sock c) (by simp [state])
  · rename_i state
    exact Keeps.of_sock (readResponseBody_sock c) (by simp [state])
  · rename_i state
    exact Keeps.of_sock (readUpgradeResponse_sock c) (by simp [state])
  · exact readWebMessage_keeps c .header
  · exact readWebMessage_keeps c .body
  · exact Keeps.refl c

private theorem turn_keeps (c : ClientConnection) : Keeps c c.turn.2 := by
  unfold ClientConnection.turn
  split
  · have quiet := readFrom_quiet c.readBuffer c.sock
    have filled : Keeps c { c with
        readBuffer := (c.readBuffer.readFrom BufferedTcpSocket.istream c.sock).2.1
        sock := (c.readBuffer.readFrom BufferedTcpSocket.istream c.sock).2.2 } := by
      refine ⟨quiet.extends_, fun before => ?_⟩
      rcases before with web | empty
      · exact .inl web
      · exact .inr (quiet.pieces.trans empty)
    simp only
    split
    · exact filled
    · exact filled.trans (switchState_keeps _)
  · exact switchState_keeps c

/-- `advance_state` keeps the byte counter right, and when it advances, nothing waited to
be sent. -/
theorem advanceState_keeps (c : ClientConnection) : Keeps c c.advanceState.2 := by
  refine client_models.preserves (P := Keeps c) (fun d keeps => keeps.trans (turn_keeps d)) ?_
    (Keeps.refl c)
  intro d error next keeps thrown
  have thrown' : d.turn = (.throw error, next) := thrown
  have kept := keeps.trans (turn_keeps d)
  rw [thrown'] at kept
  obtain ⟨pieces, total⟩ := shutdown_data next.sock
  refine kept.trans ⟨fun before => ?_, fun before => ?_⟩
  · simpa [ClientConnection.onException, client, pieces, total] using before
  · simpa [Unwritten, ClientConnection.onException, client, pieces] using before

end Advance

section Silence

/-- A connection that waits for a request and has nothing to send. -/
structure Silent (c : ClientConnection) : Prop where
  unsent : c.sock.dataToWrite = []
  state : c.state = .waitingWriteRequest ∨ c.state = .resolvingHost

private theorem switchState_waits (waits : c.state = .waitingWriteRequest ∨ c.state = .resolvingHost) :
    c.switchState = (.stop false, c) := by
  unfold ClientConnection.switchState
  rcases waits with state | state <;> rw [state]

private theorem silent_turn (silent : Silent c) :
    c.turn.1 = .stop false ∧ Quiet c.sock c.turn.2.sock ∧ c.turn.2.state = c.state := by
  unfold ClientConnection.turn
  split
  · have quiet := readFrom_quiet c.readBuffer c.sock
    simp only
    split
    · exact ⟨rfl, quiet, rfl⟩
    · rw [switchState_waits]
      · exact ⟨rfl, quiet, rfl⟩
      · exact silent.state
  · rw [switchState_waits silent.state]
    exact ⟨rfl, Quiet.refl c.sock, rfl⟩

/-- A silent connection that receives something keeps it for later. -/
theorem silent_advanceState (silent : Silent c) :
    c.advanceState.1 = false ∧ Quiet c.sock c.advanceState.2.sock ∧
      c.advanceState.2.state = c.state := by
  unfold ClientConnection.advanceState
  split
  · exact ⟨rfl, Quiet.refl c.sock, rfl⟩
  · obtain ⟨stops, quiet, state⟩ := silent_turn silent
    have looped : ClientConnection.tryLoop c.passes c = (.stop false, c.turn.2) := by
      unfold ClientConnection.passes ClientConnection.tryLoop
      split <;> rename_i turned <;> rw [turned] at stops <;> cases stops
      rw [turned]
    rw [looped]
    exact ⟨rfl, quiet, state⟩

private theorem silent_quiet (silent : Silent c) (quiet : Quiet c.sock d.sock)
    (state : d.state = c.state) : Silent d :=
  ⟨quiet.pieces.trans silent.unsent, state ▸ silent.state⟩

/-- The socket's own handler, when there is nothing to send. -/
private theorem sockHandler_silent {s : BufferedTcpSocket} (unsent : s.dataToWrite = []) :
    s.sockHandler.dataToWrite = [] ∧ s.sockHandler.sock.descriptor.sent = s.sock.descriptor.sent := by
  have flushed : s.flush = s := by
    obtain ⟨pieces, total, asked, sock, timer⟩ := s
    cases unsent
    simp [BufferedTcpSocket.flush, BufferedTcpSocket.drain]
  unfold BufferedTcpSocket.sockHandler
  split
  · rw [flushed]
    simp only
    split
    · exact ⟨unsent, (readSome_received s.sock 4096).sent⟩
    · exact ⟨unsent, rfl⟩
  · exact ⟨rfl, by simp [BufferedTcpSocket.close]⟩

private theorem close_sent (c : ClientConnection) :
    c.close.sock.sock.descriptor.sent = c.sock.sock.descriptor.sent := by
  simp [ClientConnection.close, BufferedTcpSocket.close]

private theorem close_sock_closed (c : ClientConnection) : c.close.sock.isOpen = false :=
  close_isOpen_false c.sock.sock

/-- A socket event on a silent connection sends nothing. Either the connection is closed
by it, or it is as silent as before and its user hears nothing. -/
theorem silent_dispatch (silent : Silent c) :
    c.dispatch.2.sock.sock.descriptor.sent = c.sock.sock.descriptor.sent ∧
      (c.dispatch.2.sock.isOpen = false ∧ c.dispatch.2.isOpen = false ∨ c.dispatch.1 = false ∧
        Silent c.dispatch.2) := by
  unfold ClientConnection.dispatch
  split
  · obtain ⟨unsent, same⟩ :=
      sockHandler_silent (s := { c.sock with sock.pending := false }) silent.unsent
    have event : Silent c.socketEvent := ⟨unsent, silent.state⟩
    unfold ClientConnection.sockHandler
    split
    · exact ⟨(close_sent _).trans same, .inl ⟨close_sock_closed _, close_closed _⟩⟩
    · obtain ⟨unheard, quiet, state⟩ := silent_advanceState event
      exact ⟨quiet.received.sent.trans same, .inr ⟨unheard, silent_quiet event quiet state⟩⟩
  · exact ⟨rfl, .inr ⟨rfl, silent⟩⟩

end Silence

section Steps

variable {r next : ClientRequestSimple} {response : Option Response}

/-- The byte counter of the connection is right. -/
def Counted (c : ClientConnection) : Prop := Accounted c.sock.totalDataToWrite c.sock.dataToWrite

private theorem counted_empty {pieces : List StringStream}
    (accounted : Accounted 0 pieces) : pieces = [] := by
  cases pieces with
  | nil => rfl
  | cons front later =>
    have sum := accounted.total
    have some_ := accounted.nonempty front List.mem_cons_self
    have size : 0 < front.size := by
      rw [← unread_length]
      exact List.length_pos_iff.mpr some_
    simp only [List.map_cons, List.sum_cons] at sum
    omega

private theorem accounted_nil : Accounted 0 [] := ⟨rfl, by simp⟩

private theorem counted_close (c : ClientConnection) : Counted c.close := accounted_nil

private theorem counted_socketEvent (counted : Counted c) : Counted c.socketEvent := by
  have flushed := (flush_extends { c.sock with sock.pending := false }).accounted counted
  simp only [Counted, ClientConnection.socketEvent, BufferedTcpSocket.sockHandler]
  split
  · split <;> exact flushed
  · exact accounted_nil

/-- An event that calls the user of an open connection has left nothing to send while
HTTP is read. -/
private theorem dispatch_counted (counted : Counted c) :
    Counted c.dispatch.2 ∧ (c.dispatch.1 = true → c.dispatch.2.isOpen = true →
      Unwritten c.dispatch.2) := by
  unfold ClientConnection.dispatch
  split
  · have event := counted_socketEvent counted
    have keeps := advanceState_keeps c.socketEvent
    unfold ClientConnection.sockHandler
    split
    · exact ⟨counted_close _, fun _ opened => absurd opened (by simp [close_closed])⟩
    · refine ⟨keeps.accounted event, fun heard _ => keeps.unwritten (.inr ?_)⟩
      have drained : c.socketEvent.sock.totalDataToWrite = 0 := by
        unfold ClientConnection.advanceState at heard
        split at heard
        · cases heard
        · rename_i nothing
          simpa [BufferedTcpSocket.getTotalBufferSize] using nothing
      have right_ : Accounted c.socketEvent.sock.totalDataToWrite c.socketEvent.sock.dataToWrite := event
      rw [drained] at right_
      exact counted_empty right_
  · exact ⟨counted, by simp⟩

/-- What an operation other than a `send` to the open connection does: the counter stays
right, a response leaves the connection silent, and a silent connection sends nothing and
stays silent until it is closed. -/
structure Orderly (r next : ClientRequestSimple) (response : Option Response) : Prop where
  counted : Counted r.connection → Counted next.connection
  answered : Counted r.connection → response.isSome = true → Silent next.connection
  sent : Silent r.connection → sent next = sent r
  silent : Silent r.connection → next.connection.sock.isOpen = false ∨ response = none ∧
    Silent next.connection

private theorem orderly_same (same : next.connection = r.connection) : Orderly r next none where
  counted := by
    rw [same]
    exact id
  answered _ answer := by cases answer
  sent _ := by rw [ReuseProofs.sent, same, ReuseProofs.sent]
  silent silent := by
    rw [same]
    exact .inr ⟨rfl, silent⟩

private theorem orderly_close (closed : next.connection = r.connection.close) : Orderly r next none where
  counted _ := closed ▸ counted_close _
  answered _ answer := by cases answer
  sent _ := by rw [ReuseProofs.sent, closed, close_sent, ReuseProofs.sent]
  silent _ := .inl (closed ▸ close_sock_closed _)

private theorem onConnection_closed (closed : r.connection.isOpen = false) :
    r.onConnection.2.connection = r.connection := by
  simp only [ClientRequestSimple.onConnection, closed, Bool.not_false, ↓reduceIte,
    ClientRequestSimple.onConnectionClose]
  split <;> rfl

private theorem onConnection_open (opened : r.connection.isOpen = true) :
    r.onConnection.2.connection = r.connection.readNextResponse.2 := by
  simp only [ClientRequestSimple.onConnection, opened, Bool.not_true, Bool.false_eq_true, ↓reduceIte]
  split
  · rename_i c read
    rw [read]
  · rename_i response c read
    rw [read]
    split <;> rfl

private theorem readNextResponse_silent (unwritten : Unwritten c) {response : Response}
    (read : c.readNextResponse.1 = some response) : Silent c.readNextResponse.2 := by
  unfold ClientConnection.readNextResponse at read ⊢
  split
  · rename_i unready
    rw [if_pos unready] at read
    cases read
  · rename_i ready
    have state : c.state = .responseReady := by simpa using ready
    have unsent : c.sock.dataToWrite = [] := by
      rcases unwritten with ⟨w, web⟩ | empty
      · rw [state] at web
        cases web
      · exact empty
    have taken : Silent c.takeResponse := ⟨unsent, .inl rfl⟩
    obtain ⟨-, quiet, kept⟩ := silent_advanceState taken
    exact silent_quiet taken quiet kept

private theorem orderly_dispatch (r : ClientRequestSimple) :
    Orderly r (handle r r.connection.dispatch).requests (handle r r.connection.dispatch).response := by
  unfold handle
  simp only
  cases heard : r.connection.dispatch.1 with
  | false =>
    refine ⟨fun counted => (dispatch_counted counted).1, fun _ answer => (by cases answer),
      fun silent => (silent_dispatch silent).1, fun silent => ?_⟩
    rcases (silent_dispatch silent).2 with ⟨closed, -⟩ | ⟨-, silent'⟩
    · exact .inl closed
    · exact .inr ⟨rfl, silent'⟩
  | true =>
    cases opened : r.connection.dispatch.2.isOpen with
    | false =>
      have same := onConnection_closed (r := { r with connection := r.connection.dispatch.2 }) opened
      simp only [↓reduceIte, Bool.false_eq_true]
      refine ⟨fun counted => ?_, fun _ answer => (by cases answer), fun silent => ?_, fun silent => ?_⟩
      · rw [same]
        exact (dispatch_counted counted).1
      · rw [ReuseProofs.sent, same]
        exact (silent_dispatch silent).1
      · rw [same]
        rcases (silent_dispatch silent).2 with ⟨closed, -⟩ | ⟨unheard, -⟩
        · exact .inl closed
        · rw [heard] at unheard
          cases unheard
    | true =>
      have same := onConnection_open (r := { r with connection := r.connection.dispatch.2 }) opened
      -- a silent connection does not call its user while it is open
      have loud (silent : Silent r.connection) : False := by
        rcases (silent_dispatch silent).2 with ⟨-, closed⟩ | ⟨unheard, -⟩
        · rw [opened] at closed
          cases closed
        · rw [heard] at unheard
          cases unheard
      simp only [↓reduceIte]
      refine ⟨fun counted => ?_, fun counted answered => ?_, fun silent => (loud silent).elim,
        fun silent => (loud silent).elim⟩
      · rw [same]
        unfold ClientConnection.readNextResponse
        split
        · exact (dispatch_counted counted).1
        · exact (advanceState_keeps _).accounted (dispatch_counted counted).1
      · rw [same]
        obtain ⟨response, read⟩ := Option.isSome_iff_exists.mp answered
        exact readNextResponse_silent ((dispatch_counted counted).2 heard opened) read

private theorem orderly_shutdownTimer (r : ClientRequestSimple) :
    Orderly r (handle r r.connection.shutdownTimerHandler).requests
      (handle r r.connection.shutdownTimerHandler).response := by
  unfold ClientConnection.shutdownTimerHandler
  split
  · have closed : r.connection.sock.shutdownTimerHandler.isOpen = false := close_isOpen_false _
    simp only [ClientConnection.sockHandler, closed, Bool.not_false, ↓reduceIte]
    have shut := close_closed { r.connection with sock := r.connection.sock.shutdownTimerHandler }
    have same := onConnection_closed (r := { r with connection :=
      { r.connection with sock := r.connection.sock.shutdownTimerHandler }.close }) shut
    simp only [handle, ↓reduceIte, shut, Bool.false_eq_true]
    refine ⟨fun _ => ?_, fun _ answer => (by cases answer), fun _ => ?_, fun _ => .inl ?_⟩
    · rw [same]
      exact counted_close _
    · rw [ReuseProofs.sent, same, close_sent]
      simp [BufferedTcpSocket.shutdownTimerHandler, BufferedTcpSocket.close, ReuseProofs.sent]
    · rw [same]
      exact close_sock_closed _
  · exact orderly_same rfl

private theorem writeRequest_counted {req : Request} (done : c.writeRequest req = .ok d)
    (counted : Counted c) : Counted d := by
  simp only [ClientConnection.writeRequest] at done
  split at done
  · cases done
    exact counted
  · split at done
    · simp only [bind_eq_ok, invariant_ok, pure_eq_ok] at done
      obtain ⟨-, -, rfl⟩ := done
      exact counted
    · simp only [bind_eq_ok, invariant_ok, pure_eq_ok] at done
      obtain ⟨-, -, -, -, -, -, rfl⟩ := done
      have written (text : Bytes) :
          Accounted ((c.sock.bufferString text).writeString req.body .write).totalDataToWrite
          ((c.sock.bufferString text).writeString req.body .write).dataToWrite :=
        (writeString_extends _ _ _).accounted ((buffer_extends c.sock text).accounted counted)
      simp only [ClientConnection.sendRequest]
      split <;> exact written _

private theorem dnsHandler_counted (counted : Counted c) (result : Option ConnectResult) :
    Counted (c.dnsHandler result).2 ∧
      ((c.dnsHandler result).1 = .ok true → (c.dnsHandler result).2.isOpen = false) := by
  simp only [ClientConnection.dnsHandler]
  split
  · exact ⟨counted, by simp⟩
  · split
    · exact ⟨counted_close _, fun _ => close_closed _⟩
    · split
      · exact ⟨counted, by simp⟩
      · split
        · exact ⟨counted_close _, fun _ => close_closed _⟩
        · split
          · exact ⟨counted, by simp⟩
          · split
            · exact ⟨counted, by simp⟩
            · rename_i written
              have kept := writeRequest_counted written (show Counted _ from counted)
              exact ⟨kept, by simp⟩

/-- No response is read when the resolver is done. -/
private theorem perform_dnsHandler (counted : Counted r.connection) (result : Option ConnectResult) :
    Counted (perform r (.dnsHandler result)).requests.connection ∧
      (perform r (.dnsHandler result)).response = none := by
  obtain ⟨counted', shut⟩ := dnsHandler_counted counted result
  simp only [perform]
  split
  · rename_i calls d done
    rw [done] at counted' shut
    cases calls with
    | false => exact ⟨counted', rfl⟩
    | true =>
      have closed := shut rfl
      have same := onConnection_closed (r := { r with connection := d }) closed
      simp only [handle, ↓reduceIte, closed, Bool.false_eq_true]
      exact ⟨same ▸ counted', trivial⟩
  · rename_i e d done
    rw [done] at counted'
    exact ⟨counted', rfl⟩

private theorem orderly_closed (from_ : c = r.connection ∨ c = r.connection.close)
    (same : next.connection.sock = c.close.sock) :
    Orderly r next none where
  counted _ := by
    simp only [Counted, same]
    exact counted_close c
  answered _ answer := by cases answer
  sent _ := by
    rw [ReuseProofs.sent, same, close_sent, ReuseProofs.sent]
    rcases from_ with rfl | rfl
    · rfl
    · exact close_sent _
  silent _ := by
    left
    rw [same]
    exact close_sock_closed c

end Steps

section Runs

variable {l : Ledger}

/-- A connection on which the server has announced its end is silent. -/
structure Kept (l : Ledger) : Prop where
  counted : Counted l.requests.connection
  silent : (∀ alive ∈ l.received, alive = true) ∨ Silent l.requests.connection

/-- What is asked of one operation. -/
def Allowed (l : Ledger) (op : RequestOp) : Prop :=
  sent (perform l.requests op).requests ≠ sent l.requests → ∀ alive ∈ earlier l op, alive = true

private theorem kept_of_orderly (kept : Kept l) {op : RequestOp}
    (same : startsConnection l.requests op = false)
    (orderly : Orderly l.requests (perform l.requests op).requests (perform l.requests op).response) :
    Kept (record l op) ∧ Allowed l op := by
  have before : earlier l op = l.received := by simp [earlier, same]
  refine ⟨⟨orderly.counted kept.counted, ?_⟩, fun writes => ?_⟩
  · simp only [record, before]
    split
    · rename_i opened
      rcases kept.silent with all | silent
      · cases answer : (perform l.requests op).response with
        | none =>
          left
          simpa using all
        | some response => exact .inr (orderly.answered kept.counted (by simp [answer]))
      · rcases orderly.silent silent with closed | ⟨-, silent'⟩
        · rw [closed] at opened
          cases opened
        · exact .inr silent'
    · exact .inl (by simp)
  · rw [before]
    rcases kept.silent with all | silent
    · exact all
    · exact absurd (orderly.sent silent) writes

private theorem kept_reused {op : RequestOp} (all : ∀ alive ∈ l.received, alive = true)
    (same : startsConnection l.requests op = false)
    (counted : Counted (perform l.requests op).requests.connection)
    (unanswered : (perform l.requests op).response = none) : Kept (record l op) ∧ Allowed l op := by
  have before : earlier l op = l.received := by simp [earlier, same]
  refine ⟨⟨counted, .inl ?_⟩, fun _ => by rw [before]; exact all⟩
  simp only [record, before, unanswered]
  split
  · simpa using all
  · simp

private theorem settle_response (result : Except Error Unit × ClientRequestSimple) :
    (settle result).response = none := by
  unfold settle
  split <;> rfl

private theorem settle_requests (result : Except Error Unit × ClientRequestSimple) :
    (settle result).requests = result.2 := by
  unfold settle
  split <;> rfl

private theorem target_response {op : RequestOp} {call : Request × UInt16 × Bytes}
    (targets : target op = some call) :
    (perform l.requests op).response = none ∧ startsConnection l.requests op = false := by
  cases op with
  | sendTo request port protocol => exact ⟨settle_response _, rfl⟩
  | send uriStr request => exact ⟨settle_response _, rfl⟩
  | get uriStr request => exact ⟨settle_response _, rfl⟩
  | _ => cases targets

private theorem kept_target (kept : Kept l) {op : RequestOp} (spares : Spares l op)
    {call : Request × UInt16 × Bytes} (targets : target op = some call) :
    Kept (record l op) ∧ Allowed l op := by
  obtain ⟨unanswered, same⟩ := target_response (l := l) targets
  have reached := perform_target l.requests op call targets
  have cases_ := sendTo_cases l.requests call.1 call.2.1 call.2.2
  rw [← reached] at cases_
  -- a `send` to the open connection, which has announced nothing
  have all (opened : l.requests.connection.isOpen = true)
      (here : l.requests.isElsewhere call.1.header.host call.2.1 call.2.2 = false) :
      ∀ alive ∈ l.received, alive = true := by
    intro alive member
    cases alive with
    | true => rfl
    | false => exact absurd member (spares call targets opened here)
  generalize after : (perform l.requests op).requests = next at cases_
  cases cases_ with
  | written c opened here done =>
    refine kept_reused (all opened here) same ?_ unanswered
    rw [after]
    exact writeRequest_counted done kept.counted
  | refused opened here =>
    apply kept_of_orderly kept same
    rw [after, unanswered]
    exact orderly_same rfl
  | unsupported c from_ unknown =>
    apply kept_of_orderly kept same
    rw [after, unanswered]
    exact orderly_closed from_ rfl
  | waiting c from_ known =>
    apply kept_of_orderly kept same
    rw [after, unanswered]
    exact orderly_closed from_ rfl

private theorem orderly_kernel {r next : ClientRequestSimple}
    (pieces : next.connection.sock.dataToWrite = r.connection.sock.dataToWrite)
    (total : next.connection.sock.totalDataToWrite = r.connection.sock.totalDataToWrite)
    (state : next.connection.state = r.connection.state) (same : sent next = sent r) :
    Orderly r next none where
  counted := by
    rw [Counted, Counted, pieces, total]
    exact id
  answered _ answer := by cases answer
  sent _ := same
  silent silent := .inr ⟨rfl, pieces.trans silent.unsent, state ▸ silent.state⟩

/-- One operation that spares a connection with an announced end. -/
theorem record_kept (kept : Kept l) (op : RequestOp) (spares : Spares l op) :
    Kept (record l op) ∧ Allowed l op := by
  cases targets : target op with
  | some call => exact kept_target kept spares targets
  | none =>
    have unsent (uriStr : Bytes) (request : Request)
      (untargeted : target.uriTarget uriStr request = none) :
        Orderly l.requests (settle (l.requests.send uriStr request)).requests
          (settle (l.requests.send uriStr request)).response := by
      rw [settle_response]
      apply orderly_same
      rw [settle_requests, perform_untargeted l.requests uriStr request untargeted]
    cases op with
    | sendTo request port protocol => cases targets
    | send uriStr request => exact kept_of_orderly kept rfl (unsent uriStr request targets)
    | get uriStr request => exact kept_of_orderly kept rfl (unsent uriStr _ targets)
    | cancel =>
      apply kept_of_orderly kept rfl
      simp only [perform, ClientRequestSimple.cancel]
      split
      · exact orderly_same rfl
      · exact orderly_close rfl
    | dnsHandler result =>
      cases waits : l.requests.connection.dnsOpen with
      | false =>
        refine kept_of_orderly kept
          (show startsConnection l.requests (.dnsHandler result) = false from waits) ?_
        have nothing : l.requests.connection.dnsHandler result = (.ok false, l.requests.connection) := by
          simp [ClientConnection.dnsHandler, waits]
        simp only [perform, nothing]
        exact orderly_same rfl
      | true =>
        obtain ⟨counted, unanswered⟩ := perform_dnsHandler kept.counted result
        have none_ : earlier l (.dnsHandler result) = [] := by simp [earlier, startsConnection, waits]
        refine ⟨⟨counted, .inl ?_⟩, fun _ => by rw [none_]; simp⟩
        simp only [record, none_, unanswered]
        split <;> simp
    | arrive arrivals =>
      apply kept_of_orderly kept rfl
      refine orderly_kernel rfl rfl rfl ?_
      simp only [ReuseProofs.sent, perform, TcpSocket.arrive]
      split <;> rfl
    | plan sends => exact kept_of_orderly kept rfl (orderly_kernel rfl rfl rfl rfl)
    | notify canRead canWrite =>
      apply kept_of_orderly kept rfl
      refine orderly_kernel rfl rfl rfl ?_
      simp only [ReuseProofs.sent, perform, TcpSocket.notify]
      split <;> rfl
    | dispatch => exact kept_of_orderly kept rfl (orderly_dispatch l.requests)
    | shutdownTimer => exact kept_of_orderly kept rfl (orderly_shutdownTimer l.requests)
    | timeoutTimer =>
      apply kept_of_orderly kept rfl
      simp only [perform]
      split
      · exact orderly_close rfl
      · exact orderly_same rfl

/-- In every run in which no `send` goes to a connection whose end was announced, bytes
are written to a TCP connection only while every response received on it before allowed
to go on. -/
theorem announced_close_respected (ops : List RequestOp) (op : RequestOp)
    (spares : Run.Meets record Spares {} (ops ++ [op]))
    (writes : sent (perform (recorded {} ops).requests op).requests ≠ sent (recorded {} ops).requests) :
    ∀ alive ∈ earlier (recorded {} ops) op, alive = true := by
  obtain ⟨before, last, -⟩ := Run.meets_append.mp spares
  have start : Kept {} := ⟨accounted_nil, .inl (by simp)⟩
  have reached : Kept (recorded {} ops) :=
    Run.invariant_of_meets (P := Kept) (fun _ op kept spares =>
      (record_kept kept op spares).1) start ops before
  exact (record_kept reached op last).2 writes

/-- The response, after its first letter, of a server that keeps the connection or not. -/
def keepingResponse : Bytes := str "TTP/1.1 200 OK\r\ncontent-length: 0\r\n\r\n"

def closingResponse : Bytes := str "TTP/1.1 200 OK\r\nconnection: close\r\ncontent-length: 0\r\n\r\n"

/-- A request is sent and answered. -/
def answeredWith (response : Bytes) : List RequestOp :=
  [.sendTo (requestTo (str "a")) 80 (str "http"), .dnsHandler (some .immediate), .dispatch,
    .arrive [.data (ch 'H') response], .notify true false, .dispatch]

def again : RequestOp := .sendTo (requestTo (str "a")) 80 (str "http")

theorem announced_close_respected_reused :
    false ∉ earlier (recorded {} (answeredWith keepingResponse)) again := by
  have spares : Run.Meets record Spares {} (answeredWith keepingResponse ++ [again]) := by decide +kernel
  have writes : sent (perform (recorded {} (answeredWith keepingResponse)).requests again).requests ≠
      sent (recorded {} (answeredWith keepingResponse)).requests := by
    decide +kernel
  intro member
  cases announced_close_respected _ again spares writes false member

/-- The server answers with `connection: close`, and the next request goes to the same
connection. -/
theorem announced_close_ignored :
    sent (perform (recorded {} (answeredWith closingResponse)).requests again).requests ≠
        sent (recorded {} (answeredWith closingResponse)).requests ∧
      false ∈ earlier (recorded {} (answeredWith closingResponse)) again := by
  decide +kernel

end Runs

end Crablib.ReuseProofs
