import Crablib.ArrivalProofs
import Crablib.ChunkProofs
import Crablib.ClientProgressProofs
import Crablib.Library.Cutting
import Crablib.RequestFramingProofs

/-! The responses a client connection delivers are the responses of the bytes that
arrived since it connected, in order, as `RequestStreamProofs` shows for requests.
After an upgrade was asked for, none is delivered until the next connection. -/
namespace Crablib.ResponseStreamProofs
open Http ClientConnection ClientRun StreamsProofs SocketProofs ParserProofs ChunkProofs
open ArrivalProofs
open ServerEndProofs ClientHistoryProofs
open ClientProgressProofs (writeMessage_cases)
open EndpointProofs (client client_models)
open Cutting

/-- A response is read by its two parsers. -/
def responseStages : Stages ResponseParser BodyParser UInt8 Error Response where
  head := ResponseParser.machine
  start := {}
  waits := rfl
  body := byByte
  enter p := .make p.req.contentLength p.req.transferEncodingChunked
  message p q := { header := p.req, body := q.body }

def responseCutter : Cutter UInt8 Response := responseStages.cutter

/-- The first response of a text, as the two parsers read it in one call each. -/
theorem responseCutter_first {text rest : Bytes} {resp : Response} :
    responseCutter.first text = some (resp, rest) ↔
    ∃ p behind q, ResponseParser.parse {} text = .ok (p, behind) ∧ p.isGood = true ∧
      (BodyParser.make p.req.contentLength p.req.transferEncodingChunked).parse behind =
      .ok (q, rest) ∧ q.isGood = true ∧ resp = { header := p.req, body := q.body } := by
  refine Iff.trans responseStages.first_iff ?_
  constructor
  · rintro ⟨p, q, behind, head, good, body, good', same⟩
    exact ⟨p, behind, q, head, good, (parse_scan (make_sound _ _) behind).trans body, good', same.symm⟩
  · rintro ⟨p, behind, q, head, good, body, good', same⟩
    exact ⟨p, q, behind, head, good, (parse_scan (make_sound _ _) behind).symm.trans body, good',
      same.symm⟩

section Reading

variable {c d : ClientConnection} {used arrived text : Bytes} {delivered : List Response}

/-- What is left in the state of the text of the next response. -/
def Stands (c : ClientConnection) (text : Bytes) : Prop :=
  match c.state with
  | .resolvingHost => False
  | .waitingWriteRequest => text = []
  | .responseHeader => responseStages.InHead text c.responseParser ∧ c.responseParser.isGood = false
  | .responseBody =>
    responseStages.InBody text c.responseParser c.httpBodyParser ∧ c.httpBodyParser.isGood = false ∧
      Sound c.httpBodyParser
  | .responseReady =>
    responseCutter.first text =
      some ({ header := c.responseParser.req, body := c.httpBodyParser.body }, [])
  | .webUpgradeResponseHeader => False
  | .web _ => False

/-- A connection that reads responses: the parsers used a part of what arrived, and
the rest of it is in the read buffer and in the descriptor. -/
structure Reading (c : ClientConnection) (arrived : Bytes) (delivered : List Response)
    (used text : Bytes) : Prop where
  cuts : Cuts responseCutter used delivered text
  behind : Behind (used ++ contents c.readBuffer) arrived c.sock
  stands : Stands c text

/-- A connection that was upgraded or asked to be. -/
def Upgrading (c : ClientConnection) : Prop := c.state = .webUpgradeResponseHeader ∨ isWeb c.state = true

/-- A connection that reads nothing any more. -/
structure Silent (c : ClientConnection) : Prop where
  shut : Shut c.sock
  drained : c.readBuffer.size = 0
  unready : c.state ≠ .responseReady

/-- The responses delivered were cut off the front of what arrived, and the
connection reads responses, or delivers none until it connects again. -/
structure Follows (arrived : Bytes) (delivered : List Response) (c : ClientConnection) : Prop where
  cut : ∃ used text, Cuts responseCutter used delivered text ∧ used <+: arrived
  state : (∃ used text, Reading c arrived delivered used text) ∨ Silent c ∨ Upgrading c

theorem Reading.placed (reading : Reading c arrived delivered used text) : used <+: arrived :=
  (List.prefix_append used _).trans reading.behind.placed

theorem Reading.follows (reading : Reading c arrived delivered used text) :
    Follows arrived delivered c :=
  ⟨⟨used, text, reading.cuts, reading.placed⟩, .inl ⟨used, text, reading⟩⟩

private theorem follows_of_reading (reads : ∃ used text, Reading c arrived delivered used text) :
    Follows arrived delivered c := by
  obtain ⟨used, text, reading⟩ := reads
  exact reading.follows

theorem Reading.unupgraded (reading : Reading c arrived delivered used text) : ¬Upgrading c := by
  have stands := reading.stands
  unfold Stands at stands
  split at stands <;> simp_all [Upgrading, isWeb]

private theorem stands_same (stands : Stands c text) (state : d.state = c.state)
    (response : d.responseParser = c.responseParser) (body : d.httpBodyParser = c.httpBodyParser) :
    Stands d text := by
  unfold Stands at *
  rw [state, response, body]
  exact stands

section Passes

/-- The `catch` ends all reading. -/
private theorem Reading.throws (reading : Reading c arrived delivered used text)
    (unready : d.state ≠ .responseReady) :
    Follows arrived delivered d.onException :=
  ⟨reading.follows.cut, .inr (.inl ⟨shut_writeShutdown _, rfl, unready⟩)⟩

private theorem readResponseBody_turned {d : ClientConnection}
    (before : Reading d arrived delivered used text) (state : c.state = .responseBody)
    {used' text' : Bytes} (cuts : Cuts responseCutter used' delivered text')
    (behind : Behind (used' ++ contents c.readBuffer) arrived c.sock)
    (inBody : responseStages.InBody text' c.responseParser c.httpBodyParser)
    (sound : Sound c.httpBodyParser) :
    client.Caught (Follows arrived delivered) c.readResponseBody := by
  unfold readResponseBody
  split
  · exact before.throws (by simp [state])
  · rename_i parser rest done
    obtain ⟨now, left, took, moved, -⟩ :=
      parseWith_used (fun done => (body_parses sound done).2.suffix) done
    have read : Scanner.scan byByte c.httpBodyParser now = .ok (parser, []) :=
      Scanner.scan_used ((parse_scan sound _).symm.trans took)
    have placed : Behind ((used' ++ now) ++ contents rest) arrived c.sock := by
      rw [List.append_assoc, ← moved]
      exact behind
    simp only
    split
    · rename_i running
      refine follows_of_reading ⟨used' ++ now, text' ++ now, cuts.append now, placed, ?_⟩
      simp only [Stands, state]
      exact ⟨inBody.feed read, by simpa using running, (body_parses sound took).1⟩
    · rename_i good
      refine follows_of_reading ⟨used' ++ now, text' ++ now, cuts.append now, placed, ?_⟩
      exact (inBody.feed read).whole (by simpa [responseStages, byByte] using good)

private theorem readResponseHeader_turned (state : c.state = .responseHeader)
    (reading : Reading c arrived delivered used text) :
    client.Caught (Follows arrived delivered) c.readResponseHeader := by
  have stands := reading.stands
  simp only [Stands, state] at stands
  obtain ⟨inHead, -⟩ := stands
  unfold readResponseHeader
  split
  · exact reading.throws (by simp [state])
  · rename_i parser rest done
    obtain ⟨now, left, took, moved, -⟩ := parseWith_used Scanner.rest_suffix done
    have read := inHead.feed (Scanner.scan_used took)
    have placed : Behind ((used ++ now) ++ contents rest) arrived c.sock := by
      rw [List.append_assoc, ← moved]
      exact reading.behind
    simp only
    split
    · rename_i running
      refine follows_of_reading ⟨used ++ now, text ++ now, reading.cuts.append now, placed, ?_⟩
      simp only [Stands, state]
      exact ⟨read, by simpa using running⟩
    · rename_i good
      split
      · exact reading.throws (by simp [state])
      · exact readResponseBody_turned reading rfl (reading.cuts.append now) placed
          (read.enter (by simpa [responseStages, ResponseParser.machine] using good)) (make_sound _ _)

/-- Nothing but a new connection ends an upgrade. -/
private theorem upgrading_turned
    (cut : ∃ used text, Cuts responseCutter used delivered text ∧ used <+: arrived)
    (upgrading : Upgrading d) : Follows arrived delivered d := ⟨cut, .inr (.inr upgrading)⟩

private theorem sendMessage_state (c : ClientConnection) (message : WebMessage) :
    (c.sendMessage message).state = c.state := by
  simp only [sendMessage]
  split <;> rfl

private theorem writeMessage_state {message : WebMessage} (done : c.writeMessage message = .ok d) :
    d.state = c.state := by
  obtain rfl | ⟨-, rfl⟩ := writeMessage_cases done
  · rfl
  · exact sendMessage_state c message

private theorem readUpgradeResponse_upgrading (state : c.state = .webUpgradeResponseHeader) :
    client.Caught Upgrading c.readUpgradeResponse := by
  have asked : Upgrading c := .inl state
  simp only [readUpgradeResponse]
  split
  · exact asked
  · split
    · exact asked
    · split
      · exact asked
      · split
        · exact asked
        · split
          · exact asked
          · exact .inr rfl

private theorem readWebMessage_upgrading (c : ClientConnection) (state : WebState) :
    client.Caught Upgrading (c.readWebMessage state) := by
  simp only [readWebMessage]
  split
  · exact .inr rfl
  · exact .inr rfl
  · exact .inr rfl
  · split
    · exact .inr rfl
    · rename_i written
      exact .inr (by rw [writeMessage_state written]; rfl)
  · split
    · exact .inr rfl
    · rename_i written
      exact .inr (by rw [writeMessage_state written]; rfl)

private theorem switchState_upgrading (upgrading : Upgrading c) :
    client.Caught Upgrading c.switchState := by
  unfold switchState
  split
  · rename_i state
    simp [Upgrading, state, isWeb] at upgrading
  · rename_i state
    simp [Upgrading, state, isWeb] at upgrading
  · rename_i state
    exact readUpgradeResponse_upgrading state
  · exact readWebMessage_upgrading c .header
  · exact readWebMessage_upgrading c .body
  · exact upgrading

private theorem turn_upgrading (upgrading : Upgrading c) : client.Caught Upgrading c.turn := by
  unfold turn
  split
  · simp only
    split
    · exact upgrading
    · exact switchState_upgrading upgrading
  · exact switchState_upgrading upgrading

private theorem switchState_turned (reading : Reading c arrived delivered used text) :
    client.Caught (Follows arrived delivered) c.switchState := by
  unfold switchState
  split
  · rename_i state
    exact readResponseHeader_turned state reading
  · rename_i state
    have stands := reading.stands
    simp only [Stands, state] at stands
    obtain ⟨inBody, -, sound⟩ := stands
    exact readResponseBody_turned reading state reading.cuts reading.behind inBody sound
  · rename_i state
    exact absurd (.inl state) reading.unupgraded
  · rename_i state
    exact absurd (.inr (by rw [state]; rfl)) reading.unupgraded
  · rename_i state
    exact absurd (.inr (by rw [state]; rfl)) reading.unupgraded
  · exact reading.follows

private theorem silent_turn (silent : Silent c) : c.turn.1 = .stop false ∧ Silent c.turn.2 := by
  obtain ⟨count, size, same⟩ := shut_readFrom silent.shut c.readBuffer
  have empty : c.readBuffer.empty = true := by simp [Buffer.empty, silent.drained]
  simp only [turn, empty, ↓reduceIte, count]
  exact ⟨trivial, by simpa only [same] using silent.shut, size.trans silent.drained, silent.unready⟩

private theorem turn_turned (follows : Follows arrived delivered c) :
    client.Caught (Follows arrived delivered) c.turn := by
  rcases follows.state with ⟨used, text, reading⟩ | silent | upgrading
  · unfold turn
    split
    · have filled : Reading { c with
          readBuffer := (c.readBuffer.readFrom BufferedTcpSocket.istream c.sock).2.1
          sock := (c.readBuffer.readFrom BufferedTcpSocket.istream c.sock).2.2 } arrived
            delivered used text :=
        ⟨reading.cuts, readFrom_behind reading.behind, reading.stands⟩
      simp only
      split
      · exact filled.follows
      · exact switchState_turned filled
    · exact switchState_turned reading
  · obtain ⟨stops, silent'⟩ := silent_turn silent
    have split : c.turn = (.stop false, c.turn.2) := Prod.ext stops rfl
    rw [split]
    exact ⟨follows.cut, .inr (.inl silent')⟩
  · exact (turn_upgrading upgrading).mono fun d => upgrading_turned follows.cut

private theorem advanceState_follows (follows : Follows arrived delivered c) :
    Follows arrived delivered c.advanceState.2 :=
  client_models.caught (fun _ => turn_turned) follows

end Passes

section Calls

/-- What writes leave alone. -/
private theorem follows_writes {bytes : Bytes} (follows : Follows arrived delivered c)
    (extends_ : Extends c.sock d.sock bytes) (buffer : d.readBuffer = c.readBuffer)
    (state : d.state = c.state) (response : d.responseParser = c.responseParser)
    (body : d.httpBodyParser = c.httpBodyParser) : Follows arrived delivered d := by
  refine ⟨follows.cut, ?_⟩
  rcases follows.state with ⟨used, text, reading⟩ | silent | upgrading
  · refine .inl ⟨used, text, reading.cuts, ?_, stands_same reading.stands state response body⟩
    rw [buffer]
    exact reading.behind.extends_ extends_
  · exact .inr (.inl ⟨shut_extends silent.shut extends_, by rw [buffer]; exact silent.drained, by
      rw [state]; exact silent.unready⟩)
  · exact .inr (.inr (by rw [Upgrading, state]; exact upgrading))

private theorem writeMessage_follows {message : WebMessage} (done : c.writeMessage message = .ok d)
    (follows : Follows arrived delivered c) : Follows arrived delivered d := by
  have same := writeMessage_state done
  obtain rfl | ⟨may, rfl⟩ := writeMessage_cases done
  · exact follows
  · refine upgrading_turned follows.cut ?_
    rw [Upgrading, same]
    unfold mayWriteMessage at may
    split at may
    · rename_i state
      exact .inr (by rw [state]; rfl)
    · rename_i state
      exact .inl state
    · cases may

theorem writeRequest_cases {req : Request} (done : c.writeRequest req = .ok d) :
    d = c ∨ d = { c with waitingRequest := some req } ∨
      c.isOpen = true ∧ c.state = .waitingWriteRequest ∧
      d = c.sendRequest { req.header with host := c.host } req.body := by
  simp only [ClientConnection.writeRequest] at done
  split at done
  · cases done
    exact .inl rfl
  · rename_i opened
    split at done
    · simp only [bind_eq_ok, invariant_ok, pure_eq_ok] at done
      obtain ⟨-, -, rfl⟩ := done
      exact .inr (.inl rfl)
    · simp only [bind_eq_ok, invariant_ok, pure_eq_ok, beq_iff_eq] at done
      obtain ⟨-, state, -, -, -, -, rfl⟩ := done
      exact .inr (.inr ⟨by simpa using opened, state, rfl⟩)

/-- A request that is sent meets a new parser, and no byte of its response was used. -/
private theorem sendRequest_follows {header : RequestHeader} {body : Bytes}
    (state : c.state = .waitingWriteRequest) (follows : Follows arrived delivered c) :
    Follows arrived delivered (c.sendRequest header body) := by
  have sent : Extends c.sock ((c.sock.bufferString header.toString).writeString body .write) _ :=
    (buffer_extends _ _).trans (writeString_extends _ _ .write)
  simp only [sendRequest]
  split
  · exact upgrading_turned follows.cut (.inl rfl)
  · rcases follows.state with ⟨used, text, reading⟩ | silent | upgrading
    · have nothing : text = [] := by simpa only [Stands, state] using reading.stands
      subst nothing
      exact Reading.follows ⟨reading.cuts, reading.behind.extends_ sent,
        responseStages.inHead_start, rfl⟩
    · exact ⟨follows.cut, .inr (.inl ⟨shut_extends silent.shut sent, silent.drained, by simp⟩)⟩
    · simp [Upgrading, state, isWeb] at upgrading

private theorem writeRequest_follows {req : Request} (done : c.writeRequest req = .ok d)
    (follows : Follows arrived delivered c) : Follows arrived delivered d := by
  obtain rfl | rfl | ⟨-, state, rfl⟩ := writeRequest_cases done
  · exact follows
  · exact follows_writes follows (Extends.refl _) rfl rfl rfl rfl
  · exact sendRequest_follows state follows

private theorem readNextResponse_follows (follows : Follows arrived delivered c) :
    Follows arrived (delivered ++ c.readNextResponse.1.toList) c.readNextResponse.2 := by
  unfold readNextResponse
  split
  · simpa using follows
  · rename_i ready
    have state : c.state = .responseReady := by simpa using ready
    rcases follows.state with ⟨used, text, reading⟩ | silent | upgrading
    · have stands := reading.stands
      simp only [Stands, state] at stands
      have taken : Reading c.takeResponse arrived
          (delivered ++ [{ header := c.responseParser.req, body := c.httpBodyParser.body }]) used [] :=
        ⟨reading.cuts.snoc stands, reading.behind, rfl⟩
      exact advanceState_follows taken.follows
    · exact absurd state silent.unready
    · simp [Upgrading, state, isWeb] at upgrading

private theorem readNextMessage_follows (follows : Follows arrived delivered c) :
    Follows arrived delivered c.readNextMessage.2 := by
  unfold readNextMessage
  split
  · exact follows
  · exact advanceState_follows (upgrading_turned follows.cut (.inr rfl))

/-- A closed connection, which reads nothing. -/
private theorem close_follows (cut : ∃ used text, Cuts responseCutter used delivered text ∧
      used <+: arrived)
    (c : ClientConnection) :
    Follows arrived delivered c.close :=
  ⟨cut, .inr (.inl ⟨shut_close c.sock, rfl, by simp [close]⟩)⟩

private theorem sockHandler_follows (follows : Follows arrived delivered c) :
    Follows arrived delivered c.sockHandler.2 := by
  unfold ClientConnection.sockHandler
  split
  · exact close_follows follows.cut c
  · exact advanceState_follows follows

/-- A change of the socket that the reading side takes. -/
private theorem follows_sock {s : BufferedTcpSocket} (follows : Follows arrived delivered c)
    (behind : ∀ taken, Behind taken arrived c.sock → Behind taken arrived s)
    (shut : Shut c.sock → Shut s) :
    Follows arrived delivered { c with sock := s } := by
  refine ⟨follows.cut, ?_⟩
  rcases follows.state with ⟨used, text, reading⟩ | silent | upgrading
  · exact .inl ⟨used, text, reading.cuts, behind _ reading.behind,
      stands_same reading.stands rfl rfl rfl⟩
  · exact .inr (.inl ⟨shut silent.shut, silent.drained, silent.unready⟩)
  · exact .inr (.inr upgrading)

private theorem dispatch_follows (follows : Follows arrived delivered c) :
    Follows arrived delivered c.dispatch.2 := by
  unfold ClientConnection.dispatch
  split
  · refine sockHandler_follows (follows_sock follows (fun taken behind => ?_) fun shut =>
      shut_sockHandler shut)
    exact sockHandler_behind (behind.keep rfl id rfl)
  · exact follows

private theorem shutdownTimer_follows (follows : Follows arrived delivered c) :
    Follows arrived delivered c.shutdownTimerHandler.2 := by
  unfold ClientConnection.shutdownTimerHandler
  split
  · have closed : c.sock.shutdownTimerHandler.isOpen = false := close_isOpen_false _
    simp only [ClientConnection.sockHandler, closed, Bool.not_false, ↓reduceIte]
    exact close_follows follows.cut _
  · exact follows

private theorem arrive_follows (follows : Follows arrived delivered c) (arrivals : List Arrival) :
    Follows (arrived ++ if c.sock.sock.fdValid then brought arrivals else []) delivered
      { c with sock.sock := c.sock.sock.arrive arrivals } := by
  obtain ⟨used, text, cuts, placed⟩ := follows.cut
  refine ⟨⟨used, text, cuts, placed.trans (List.prefix_append _ _)⟩, ?_⟩
  rcases follows.state with ⟨used, text, reading⟩ | silent | upgrading
  · exact .inl ⟨used, text, reading.cuts, reading.behind.arrive arrivals,
      stands_same reading.stands rfl rfl rfl⟩
  · refine .inr (.inl ⟨?_, silent.drained, silent.unready⟩)
    simp only [TcpSocket.arrive]
    split
    · exact silent.shut
    · exact silent.shut
  · exact .inr (.inr upgrading)

end Calls
end Reading

section Runs

variable {c d : ClientConnection} {arrived : Bytes} {delivered : List Response}

/-- Whether the operation ends one connection or starts the next. -/
def starts (c : ClientConnection) : ClientRun.ClientOp → Bool
  | .connectAddress _ _ _ => true
  | .connectHost _ _ _ => true
  | .close => true
  | .dnsHandler _ => c.dnsOpen
  | _ => false

/-- The bytes an operation brings to the descriptor. -/
def reached (c : ClientConnection) : ClientRun.ClientOp → Bytes
  | .arrive arrivals => if c.sock.sock.fdValid then brought arrivals else []
  | _ => []

/-- A connection, the bytes that reached its descriptor since it was connected, and
the responses it delivered since. -/
structure Received where
  conn : ClientConnection
  arrived : Bytes := []
  responses : List Response := []

def receive (r : Received) (op : ClientRun.ClientOp) : Received :=
  let effect := perform r.conn op
  if starts r.conn op then ⟨effect.conn, [], []⟩
  else ⟨effect.conn, r.arrived ++ reached r.conn op, r.responses ++ effect.response.toList⟩

private theorem settle_keeps {P : ClientConnection → Prop}
    {result : Except Error ClientConnection} (before : P c) (after : ∀ d, result = .ok d → P d) :
    P (settle c result).conn := by
  cases result with
  | error e => exact before
  | ok d => exact after d rfl

/-- Nothing was delivered of what has not arrived. -/
private theorem nothing_cut : ∃ used text, Cuts responseCutter used [] text ∧ used <+: ([] : Bytes) :=
  ⟨[], [], .done [], List.prefix_rfl⟩

/-- A socket that was just connected, behind an empty buffer. -/
theorem connect_follows {s : BufferedTcpSocket} {result : ConnectResult}
    (state : d.state = .waitingWriteRequest) (sock : d.sock = (s.connect result).2)
    (connected : (s.connect result).1 = true) (drained : d.readBuffer.size = 0) :
    Follows [] [] d := by
  have fresh : d.sock.sock.descriptor.incoming = [] := by
    rw [sock]
    cases result with
    | failed => simp [BufferedTcpSocket.connect, TcpSocket.connect] at connected
    | inProgress => rfl
    | immediate => rfl
  have empty : contents d.readBuffer = [] :=
    List.length_eq_zero_iff.mp (by rw [contents_length]; exact drained)
  refine follows_of_reading ⟨[], [], .done [], ?_, by simp only [Stands, state]⟩
  rw [empty]
  exact behind_fresh fresh

/-- The answer of the resolver: the buffer is empty while it is waited for. -/
private theorem dnsHandler_follows (follows : Follows arrived delivered c)
    (state : c.state = .resolvingHost) (result : Option ConnectResult) :
    Follows [] [] (c.dnsHandler result).2 := by
  have silent : Silent c := by
    rcases follows.state with ⟨used, text, reading⟩ | silent | upgrading
    · simpa only [Stands, state] using reading.stands
    · exact silent
    · simp [Upgrading, state, isWeb] at upgrading
  have resolved : ∀ dnsOpen, Follows [] [] { c with dnsOpen := dnsOpen } := fun _ =>
    ⟨nothing_cut, .inr (.inl ⟨silent.shut, silent.drained, silent.unready⟩)⟩
  unfold ClientConnection.dnsHandler
  split
  · exact resolved c.dnsOpen
  · simp only
    split
    · exact close_follows nothing_cut _
    · split
      · exact resolved false
      · split
        · exact close_follows nothing_cut _
        · rename_i connected
          have open_ := connect_follows (d := { c with
            dnsOpen := false, sock := (c.sock.connect _).2
            state := .waitingWriteRequest }) rfl rfl (by simpa using connected) silent.drained
          split
          · exact open_
          · split
            · exact open_
            · rename_i written done
              exact follows_writes (writeRequest_follows done open_) (Extends.refl _) rfl rfl rfl rfl

private theorem starts_follows (follows : Follows arrived delivered c)
    (parting : RequestFramingProofs.Parting c) (op : ClientRun.ClientOp)
    (starts_ : starts c op = true) : Follows [] [] (perform c op).conn := by
  cases op <;> simp only [starts, Bool.false_eq_true] at starts_
  case connectAddress host port result =>
    simp only [perform, ClientConnection.connectAddress]
    split
    · rename_i failed
      have invalid : (c.close.sock.connect result).2.sock.fdValid = false := by
        cases result with
        | failed => exact close_fdValid _ false
        | inProgress => simp [BufferedTcpSocket.connect, TcpSocket.connect] at failed
        | immediate => simp [BufferedTcpSocket.connect, TcpSocket.connect] at failed
      exact ⟨nothing_cut, .inr (.inl ⟨.inr invalid, rfl, by simp [close]⟩)⟩
    · rename_i connected
      exact connect_follows rfl rfl (by simpa using connected) rfl
  case connectHost host port protocol =>
    simp only [perform, ClientConnection.connectHost, settleAfter_conn]
    split
    · exact close_follows nothing_cut c
    · have closed := close_follows nothing_cut c
      exact ⟨nothing_cut, .inr (.inl ⟨shut_close c.sock, rfl, by simp⟩)⟩
  case close => exact close_follows nothing_cut c
  case dnsHandler result =>
    rw [perform, settleAfter_conn]
    exact dnsHandler_follows follows (parting.resolving starts_) result

theorem response_none {op : ClientRun.ClientOp} (other : op ≠ .readNextResponse) :
    (perform c op).response = none := by
  have settled : ∀ result, (settle c result).response = none := by
    intro result
    cases result <;> rfl
  have settledAfter : ∀ {α : Type} (result : Except Error α × ClientConnection),
      (settleAfter result).response = none := by
    intro α result
    unfold settleAfter
    split <;> rfl
  cases op with
  | readNextResponse => exact absurd rfl other
  | _ => first | rfl | exact settled _ | exact settledAfter _

/-- An operation that brings no bytes and takes no response. -/
private theorem perform_follows (follows : Follows arrived delivered c) (op : ClientRun.ClientOp)
    (same : starts c op = false) (none : isArrive op = false) (unasked : op ≠ .readNextResponse) :
    Follows arrived delivered (perform c op).conn := by
  cases op with
  | connectAddress host port result => simp [starts] at same
  | connectHost host port protocol => simp [starts] at same
  | close => simp [starts] at same
  | readNextResponse => exact absurd rfl unasked
  | readNextMessage => exact readNextMessage_follows follows
  | webSocketUpgrade rh rdata =>
    exact settle_keeps follows fun d done => writeRequest_follows done follows
  | writeRequest req => exact settle_keeps follows fun d done => writeRequest_follows done follows
  | writeMessage message => exact settle_keeps follows fun d done => writeMessage_follows done follows
  | dnsHandler result =>
    have closed : c.dnsOpen = false := same
    simpa [perform, ClientConnection.dnsHandler, closed, settleAfter] using follows
  | arrive arrivals => simp [isArrive] at none
  | plan sends => exact follows_sock follows (fun taken behind => behind.keep rfl id rfl) id
  | notify canRead canWrite =>
    simp only [perform, TcpSocket.notify]
    split
    · exact follows_sock follows (fun taken behind => behind.keep rfl id rfl) id
    · exact follows
  | dispatch => exact dispatch_follows follows
  | shutdownTimer => exact shutdownTimer_follows follows

/-- The connection is in step with what arrived. -/
structure InStep (r : Received) : Prop where
  parting : RequestFramingProofs.Parting r.conn
  follows : Follows r.arrived r.responses r.conn

theorem receive_inStep (r : Received) (op : ClientRun.ClientOp) (inStep : InStep r) :
    InStep (receive r op) := by
  have parting := RequestFramingProofs.perform_parting inStep.parting op
  cases again : starts r.conn op with
  | true =>
    simp only [receive, again, ↓reduceIte]
    exact ⟨parting, starts_follows inStep.follows inStep.parting op again⟩
  | false =>
    simp only [receive, again, Bool.false_eq_true, ↓reduceIte]
    refine ⟨parting, ?_⟩
    by_cases arrives : isArrive op = true
    · cases op <;> simp only [isArrive, Bool.false_eq_true] at arrives
      rename_i arrivals
      simpa [perform, reached] using arrive_follows inStep.follows arrivals
    · by_cases asked : op = .readNextResponse
      · subst asked
        simpa [perform, reached] using readNextResponse_follows inStep.follows
      · have nothing : reached r.conn op = [] := by cases op <;> first | rfl | simp [isArrive] at arrives
        simpa [response_none asked, nothing] using
          perform_follows inStep.follows op again (by simpa using arrives) asked

/-- The response that is ready to be taken. -/
def waiting (c : ClientConnection) : List Response :=
  if c.state = .responseReady then
    [{ header := c.responseParser.req, body := c.httpBodyParser.body }] else []

/-- An open connection that talks HTTP, with nothing left to read. -/
structure Rests (c : ClientConnection) : Prop where
  valid : c.sock.sock.fdValid = true
  unasked : c.sock.writeShutdownAsked = false
  http : c.state ≠ .webUpgradeResponseHeader ∧ isWeb c.state = false
  drained : c.readBuffer.size = 0
  empty : brought c.sock.sock.descriptor.incoming = []

/-- A connection at rest has used all that arrived; what it has not delivered of
that is the response that is ready, or the start of one. -/
private theorem Reading.rests {used text : Bytes} (reading : Reading c arrived delivered used text)
    (rests : Rests c) :
    messages responseCutter arrived = delivered ++ waiting c := by
  have empty : contents c.readBuffer = [] :=
    List.length_eq_zero_iff.mp (by rw [contents_length]; exact rests.drained)
  have all : arrived = used := by
    have whole := reading.behind.whole rests.unasked rests.valid
    rwa [empty, rests.empty, List.append_nil, List.append_nil] at whole
  have later : messages responseCutter text = waiting c := by
    have stands := reading.stands
    unfold Stands at stands
    unfold waiting
    split at stands
    · exact stands.elim
    · rename_i state
      rw [stands, messages_none rfl]
      simp [state]
    · rename_i state
      rw [if_neg (by simp [state])]
      exact messages_none (stands.1.unfinished stands.2)
    · rename_i state
      rw [if_neg (by simp [state])]
      exact messages_none (stands.1.unfinished stands.2.1)
    · rename_i state
      rw [messages_some stands, messages_none rfl]
      simp [state]
    · exact stands.elim
    · exact stands.elim
  rw [all, reading.cuts.messages_eq, later]

theorem inStep_start (keys : List UInt32) : InStep { conn := { keys := keys } } where
  parting := RequestFramingProofs.parting_afterOps keys []
  follows := ⟨nothing_cut, .inr (.inl ⟨.inr rfl, rfl, by simp⟩)⟩

theorem InStep.read {r : Received} (inStep : InStep r) :
    r.responses <+: messages responseCutter r.arrived := by
  obtain ⟨used, text, cuts, later, same⟩ := inStep.follows.cut
  rw [← same, (cuts.append later).messages_eq]
  exact List.prefix_append _ _

theorem InStep.complete {r : Received} (inStep : InStep r) (rests : Rests r.conn) :
    messages responseCutter r.arrived = r.responses ++ waiting r.conn := by
  rcases inStep.follows.state with ⟨used, text, reading⟩ | silent | upgrading
  · exact reading.rests rests
  · rcases silent.shut with asked | invalid
    · rw [rests.unasked] at asked
      cases asked
    · rw [rests.valid] at invalid
      cases invalid
  · rcases upgrading with asked | web
    · exact absurd asked rests.http.1
    · rw [rests.http.2] at web
      cases web

/-- In every run of a client connection, the responses delivered since it last
connected are the first responses of the bytes that reached its descriptor since
then, whatever segments they came in and whatever was written in between. When it is
open, talks HTTP and has nothing left to read, no response is missing. -/
theorem responses_cut_from_stream (keys : List UInt32) (ops : List ClientRun.ClientOp) :
    let r := Run.after receive { conn := { keys := keys } } ops
    r.responses <+: messages responseCutter r.arrived ∧
      (Rests r.conn → messages responseCutter r.arrived = r.responses ++ waiting r.conn) := by
  intro r
  have inStep : InStep r := Run.invariant_of_keeps receive_inStep (inStep_start keys) ops
  exact ⟨inStep.read, inStep.complete⟩

/-- A segment that reaches the descriptor, and the event that it causes. -/
def received (bytes : Bytes) : List ClientRun.ClientOp :=
  [.arrive (segment bytes), .notify true true, .dispatch]

/-- The response to a request comes in segments cut inside its header and its body. -/
def answeredInPieces : List ClientRun.ClientOp :=
  [.connectAddress (str "h") 80 .immediate, .dispatch,
    .writeRequest { header := { method := str "GET", path := str "/", httpVersionMajor := 1,
                                httpVersionMinor := 1 } }] ++
    received (str "HTTP/1.1 200 O") ++ received (str "K\r\nContent-Length: 2\r\n\r\nx") ++
      received (str "y") ++ [.readNextResponse]

theorem responses_cut_from_stream_pieces :
    (Run.after receive { conn := { keys := [] } } answeredInPieces).responses.length = 1 ∧
      messages responseCutter (Run.after receive { conn := { keys := [] } } answeredInPieces).arrived =
        (Run.after receive { conn := { keys := [] } } answeredInPieces).responses ++
          waiting (Run.after receive { conn := { keys := [] } } answeredInPieces).conn := by
  refine ⟨by decide +kernel, (responses_cut_from_stream [] answeredInPieces).2 ?_⟩
  exact ⟨by decide +kernel, by decide +kernel, by decide +kernel, by decide +kernel, by decide +kernel⟩

end Runs
end Crablib.ResponseStreamProofs
