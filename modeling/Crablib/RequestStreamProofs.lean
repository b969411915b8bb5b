import Crablib.ArrivalProofs
import Crablib.ChunkProofs
import Crablib.Library.Cutting
import Crablib.PairingProofs

/-! The requests a server connection delivers are the requests of the bytes that
arrived, in order. The parsers cut one request after the other off the front of the
stream, so what is delivered depends on the bytes alone: not on the segments they
came in, on the read buffer, or on what the user wrote in between. -/
namespace Crablib.RequestStreamProofs
open Http ServerConnection ServerRun StreamsProofs SocketProofs ParserProofs ChunkProofs
open ArrivalProofs
open ServerConnectionProofs ServerEndProofs PairingProofs
open Cutting

section Cutter

/-- A request is read by its two parsers; that it was chunked is hidden. -/
def requestStages : Stages RequestParser BodyParser UInt8 Error Request where
  head := RequestParser.machine
  start := {}
  waits := rfl
  body := byByte
  enter p := .make p.req.contentLength p.req.transferEncodingChunked
  message p q := { header := { p.req with transferEncodingChunked := false }, body := q.body }

def requestCutter : Cutter UInt8 Request := requestStages.cutter

/-- The first request of a text, as the two parsers read it in one call each. -/
theorem requestCutter_first {text rest : Bytes} {req : Request} :
    requestCutter.first text = some (req, rest) ↔
    ∃ p behind q, RequestParser.parse {} text = .ok (p, behind) ∧ p.isGood = true ∧
      (BodyParser.make p.req.contentLength p.req.transferEncodingChunked).parse behind =
        .ok (q, rest) ∧ q.isGood = true ∧
      req = { header := { p.req with transferEncodingChunked := false }, body := q.body } := by
  refine Iff.trans requestStages.first_iff ?_
  constructor
  · rintro ⟨p, q, behind, head, good, body, good', same⟩
    exact ⟨p, behind, q, head, good, (parse_scan (make_sound _ _) behind).trans body, good', same.symm⟩
  · rintro ⟨p, behind, q, head, good, body, good', same⟩
    exact ⟨p, q, behind, head, good, (parse_scan (make_sound _ _) behind).symm.trans body, good',
      same.symm⟩

end Cutter

section Reading

variable {c d : ServerConnection} {used arrived text : Bytes} {delivered : List Request}

/-- What is left in the state of the text of the next request. -/
def Stands (c : ServerConnection) (text : Bytes) : Prop :=
  match c.state with
  | .requestHeader => requestStages.InHead text c.requestParser ∧ c.requestParser.isGood = false
  | .requestBody =>
    ∃ p, requestStages.InBody text p c.httpBodyParser ∧ c.httpBodyParser.isGood = false ∧
      Sound c.httpBodyParser ∧ c.requestParser.req = { p.req with transferEncodingChunked := false }
  | .requestReady =>
    requestCutter.first text =
      some ({ header := c.requestParser.req, body := c.httpBodyParser.body }, [])
  | .responseHeader => text = []
  | .responseBody => text = []
  | .web _ => False

/-- A connection that reads requests: the parsers used a part of what arrived, and
the rest of it is in the read buffer and in the descriptor. -/
structure Reading (c : ServerConnection) (arrived : Bytes) (delivered : List Request)
    (used text : Bytes) : Prop where
  cuts : Cuts requestCutter used delivered text
  behind : Behind (used ++ contents c.readBuffer) arrived c.sock
  stands : Stands c text

/-- The requests delivered were cut off the front of what arrived, and the connection
reads requests, or never delivers one again. -/
structure Follows (arrived : Bytes) (delivered : List Request) (c : ServerConnection) : Prop where
  cut : ∃ used text, Cuts requestCutter used delivered text ∧ used <+: arrived
  state : (∃ used text, Reading c arrived delivered used text) ∨ Sealed c

theorem Reading.http (reading : Reading c arrived delivered used text) : c.isStateWebsocket = false := by
  have stands := reading.stands
  unfold Stands at stands
  split at stands <;> simp_all [isStateWebsocket]

theorem Reading.placed (reading : Reading c arrived delivered used text) : used <+: arrived :=
  (List.prefix_append used _).trans reading.behind.placed

theorem Reading.follows (reading : Reading c arrived delivered used text) :
    Follows arrived delivered c :=
  ⟨⟨used, text, reading.cuts, reading.placed⟩, .inl ⟨used, text, reading⟩⟩

theorem Reading.ends (reading : Reading c arrived delivered used text) (ended : Sealed d) :
    Follows arrived delivered d :=
  ⟨⟨used, text, reading.cuts, reading.placed⟩, .inr ended⟩

private theorem readRequestBody_reading {p : RequestParser} (state : c.state = .requestBody)
    (cuts : Cuts requestCutter used delivered text)
    (behind : Behind (used ++ contents c.readBuffer) arrived c.sock)
    (inBody : requestStages.InBody text p c.httpBodyParser) (sound : Sound c.httpBodyParser)
    (same : c.requestParser.req = { p.req with transferEncodingChunked := false }) :
    ∃ used text, Reading c.readRequestBody.2 arrived delivered used text := by
  unfold readRequestBody
  split
  · rename_i e failed
    -- a parser that is good throws nothing
    have running : c.httpBodyParser.isGood = false := by
      cases good : c.httpBodyParser.isGood with
      | false => rfl
      | true => simp [Buffer.parseWith, parse_scan sound, Scanner.scan_good (m := byByte) good] at failed
    refine ⟨used, text, cuts, behind, ?_⟩
    simp only [Stands, state]
    exact ⟨p, inBody, running, sound, same⟩
  · rename_i parser rest done
    obtain ⟨now, left, took, moved, -⟩ :=
      parseWith_used (fun done => (body_parses sound done).2.suffix) done
    have read : Scanner.scan byByte c.httpBodyParser now = .ok (parser, []) :=
      Scanner.scan_used ((parse_scan sound _).symm.trans took)
    have placed : Behind ((used ++ now) ++ contents rest) arrived c.sock := by
      rw [List.append_assoc, ← moved]
      exact behind
    refine ⟨used ++ now, text ++ now, ?_⟩
    simp only
    split
    · rename_i running
      refine ⟨cuts.append now, placed, ?_⟩
      simp only [Stands, state]
      exact ⟨p, inBody.feed read, by simpa using running, (body_parses sound took).1, same⟩
    · rename_i good
      refine ⟨cuts.append now, placed, ?_⟩
      have whole := (inBody.feed read).whole (by simpa [requestStages, byByte] using good)
      simp only [Stands, same]
      exact whole

private theorem readRequestHeader_reading (state : c.state = .requestHeader)
    (reading : Reading c arrived delivered used text) :
    ∃ used text, Reading c.readRequestHeader.2 arrived delivered used text := by
  have stands := reading.stands
  simp only [Stands, state] at stands
  obtain ⟨inHead, -⟩ := stands
  unfold readRequestHeader
  split
  · exact ⟨used, text, reading⟩
  · rename_i parser rest done
    obtain ⟨now, left, took, moved, -⟩ := parseWith_used Scanner.rest_suffix done
    have read := inHead.feed (Scanner.scan_used took)
    have placed : Behind ((used ++ now) ++ contents rest) arrived c.sock := by
      rw [List.append_assoc, ← moved]
      exact reading.behind
    simp only
    split
    · rename_i running
      refine ⟨used ++ now, text ++ now, reading.cuts.append now, placed, ?_⟩
      simp only [Stands, state]
      exact ⟨read, by simpa using running⟩
    · rename_i good
      exact readRequestBody_reading rfl (reading.cuts.append now) placed
        (read.enter (by simpa [requestStages, RequestParser.machine] using good)) (make_sound _ _) rfl

private theorem switchState_reading (reading : Reading c arrived delivered used text) :
    ∃ used text, Reading c.switchState.2 arrived delivered used text := by
  unfold switchState
  split
  · rename_i state
    exact readRequestHeader_reading state reading
  · rename_i state
    have stands := reading.stands
    simp only [Stands, state] at stands
    obtain ⟨p, inBody, -, sound, same⟩ := stands
    exact readRequestBody_reading state reading.cuts reading.behind inBody sound same
  · rename_i web
    simpa [isStateWebsocket, web] using reading.http
  · rename_i web
    simpa [isStateWebsocket, web] using reading.http
  · exact ⟨used, text, reading⟩

private theorem follows_of_reading (reads : ∃ used text, Reading c arrived delivered used text) :
    Follows arrived delivered c := by
  obtain ⟨used, text, reading⟩ := reads
  exact reading.follows

private theorem turn_follows (follows : Follows arrived delivered c) :
    Follows arrived delivered c.turn.2 := by
  rcases follows.state with ⟨used, text, reading⟩ | ended
  · unfold turn
    split
    · have filled : Reading { c with
          readBuffer := (c.readBuffer.readFrom BufferedTcpSocket.istream c.sock).2.1
          sock := (c.readBuffer.readFrom BufferedTcpSocket.istream c.sock).2.2 } arrived
            delivered used text :=
        ⟨reading.cuts, readFrom_behind reading.behind, reading.stands⟩
      simp only
      split
      · exact filled.follows
      · exact follows_of_reading (switchState_reading filled)
    · exact follows_of_reading (switchState_reading reading)
  · exact ⟨follows.cut, .inr (sealed_turn ended)⟩

private theorem advanceState_follows (follows : Follows arrived delivered c) :
    Follows arrived delivered c.advanceState.2 :=
  advanceState_preserves (fun _ => turn_follows)
    (fun _ _ _ held thrown => ⟨held.cut, .inr (sealed_onException (turn_throws thrown).unready)⟩) follows

/-- What writes leave alone. -/
private theorem Reading.writes {bytes : Bytes} (reading : Reading c arrived delivered used text)
    (extends_ : Extends c.sock d.sock bytes) (buffer : d.readBuffer = c.readBuffer)
    (stands : Stands d text) :
    Reading d arrived delivered used text :=
  ⟨reading.cuts, by rw [buffer]; exact reading.behind.extends_ extends_, stands⟩

private theorem stands_same (stands : Stands c text) (state : d.state = c.state)
    (request : d.requestParser = c.requestParser) (body : d.httpBodyParser = c.httpBodyParser) :
    Stands d text := by
  unfold Stands at *
  rw [state, request, body]
  exact stands

/-- The end of a response, with no byte of the next request used yet. -/
private theorem finishResponse_follows (reading : Reading c arrived delivered used []) :
    Follows arrived delivered c.finishResponse := by
  simp only [finishResponse]
  split
  · exact reading.ends ⟨shut_writeShutdown _, rfl, by simp⟩
  · exact Reading.follows ⟨reading.cuts, reading.behind, requestStages.inHead_start, rfl⟩

private theorem writeBody_follows {send : Send} {val : Bytes} {bo : BufferOptions}
    (sends : ∀ s, Extends s (send s val bo) (takes s val))
    (reading : Reading c arrived delivered used text) (done : c.writeBody send val bo = .ok d) :
    Follows arrived delivered d := by
  obtain ⟨-, rfl⟩ | ⟨-, state, ⟨remaining, -, -, rfl⟩ | ⟨-, rfl⟩⟩ := writeBody_ok done
  · unfold sendFrame
    split
    · exact reading.follows
    · exact (reading.writes (d := { c with
          sock := send (c.sock.buffer (webMessageHeader false 0 val.length none)) val bo
          wmPingTimer := c.wmPingTimer || bo = .write })
        ((buffer_extends _ _).trans (sends _)) rfl (stands_same reading.stands rfl rfl rfl)).follows
  · have nothing : text = [] := by simpa only [Stands, state] using reading.stands
    subst nothing
    simp only [sendCounted]
    split
    · exact finishResponse_follows
        (reading.writes (sends _) rfl (stands_same reading.stands rfl rfl rfl))
    · exact (reading.writes (d := { c with
          remainingBodyContentLength := some (remaining - val.length)
          sock := send c.sock val bo }) (sends _) rfl (stands_same reading.stands rfl rfl rfl)).follows
  · unfold sendChunk
    split
    · exact reading.follows
    · exact (reading.writes (d := { c with
        sock := ((c.sock.buffer (hex val.length ++ crlf)).buffer val).write crlf bo })
        (((buffer_extends _ _).trans (buffer_extends _ _)).trans (write_extends _ _ bo)) rfl
        (stands_same reading.stands rfl rfl rfl)).follows

private theorem writeLastChunk_follows {bo : BufferOptions}
    (reading : Reading c arrived delivered used text) (done : c.writeLastChunk bo = .ok d) :
    Follows arrived delivered d := by
  obtain ⟨-, rfl⟩ | ⟨-, state, -, rfl⟩ := writeLastChunk_ok done
  · exact (reading.writes (d := c.sendLastFrame bo) (write_extends _ _ bo) rfl
      (stands_same reading.stands rfl rfl rfl)).follows
  · have nothing : text = [] := by simpa only [Stands, state] using reading.stands
    subst nothing
    exact finishResponse_follows
      (reading.writes (writeString_extends _ _ bo) rfl (stands_same reading.stands rfl rfl rfl))

private theorem writeHeader_reading {resp : ResponseHeader} {bo : BufferOptions}
    (reading : Reading c arrived delivered used text) (done : c.writeHeader resp bo = .ok d) :
    Reading d arrived delivered used text := by
  obtain ⟨-, rfl⟩ | ⟨-, state, -, -, rfl⟩ := writeHeader_ok done
  · exact reading
  · have nothing : text = [] := by simpa only [Stands, state] using reading.stands
    exact reading.writes (writeString_extends _ _ bo) rfl nothing

private theorem writeResponse_follows (reading : Reading c arrived delivered used text)
    (resp : Response) :
    Follows arrived delivered (c.writeResponse resp).2 := by
  obtain same | ⟨withHeader, header, rest⟩ := writeResponse_parts c resp
  · rw [same]
    exact reading.follows
  · have first := writeHeader_reading reading header
    obtain same | ⟨bo, withBody, body, last⟩ := rest
    · rw [same]
      exact first.follows
    · have second := writeBody_follows (fun s => writeString_extends s _ bo) first body
      obtain same | finished := last
      · rwa [same]
      · rcases second.state with ⟨used, text, reading⟩ | ended
        · exact writeLastChunk_follows reading finished
        · refine ⟨second.cut, .inr ?_⟩
          simpa [perform, settle, finished] using perform_sealed ended (.writeLastChunk .write) rfl

private theorem dispatch_follows (reading : Reading c arrived delivered used text) :
    Follows arrived delivered c.dispatch.2 := by
  unfold dispatch
  split
  · have handled : Reading c.socketEvent arrived delivered used text := by
      refine ⟨reading.cuts, ?_, stands_same reading.stands rfl rfl rfl⟩
      exact sockHandler_behind (reading.behind.keep rfl id rfl)
    unfold ServerConnection.sockHandler
    split
    · exact reading.ends (sealed_close _)
    · split
      · exact handled.follows
      · exact advanceState_follows handled.follows
  · exact reading.follows

private theorem follows_settled {result : Except Error ServerConnection}
    (reading : Reading c arrived delivered used text)
    (after : ∀ d, result = .ok d → Follows arrived delivered d) :
    Follows arrived delivered (settle c result).conn :=
  settle_conn (P := Follows arrived delivered) reading.follows after

/-- An operation that brings no bytes and takes no request: the connection goes on
reading requests, is sealed, or was upgraded. -/
private theorem perform_follows (reading : Reading c arrived delivered used text) (op : ServerOp)
    (same : reopens op = false) (none : isArrive op = false) (unasked : op ≠ .readNextRequest) :
    Follows arrived delivered (perform c op).conn ∨ (perform c op).conn.isStateWebsocket = true := by
  cases op with
  | accept accepted =>
    cases accepted with
    | missing => exact .inl (reading.ends (sealed_close c))
    | ready => simp [reopens] at same
    | refused => simp [reopens] at same
  | close => exact .inl (reading.ends (sealed_close c))
  | readNextRequest => exact absurd rfl unasked
  | readNextMessage =>
    have unready : c.state ≠ .web .ready := by
      intro web
      simpa [isStateWebsocket, web] using reading.http
    simpa [perform, readNextMessage, unready] using Or.inl reading.follows
  | webSocketUpgrade =>
    simp only [perform]
    cases done : c.webSocketUpgrade with
    | error e => exact .inl reading.follows
    | ok d =>
      obtain ⟨-, rfl⟩ | ⟨-, -, -, rfl⟩ := webSocketUpgrade_ok done
      · exact .inl reading.follows
      · exact .inr rfl
  | writeResponse resp =>
    rw [perform, settleAfter_conn]
    exact .inl (writeResponse_follows reading resp)
  | writeHeader resp bo =>
    exact .inl (follows_settled reading fun d done => (writeHeader_reading reading done).follows)
  | writeMessage message bo =>
    refine .inl (follows_settled reading fun d done => ?_)
    obtain ⟨-, rfl⟩ | ⟨-, web, -⟩ := writeMessage_ok done
    · exact reading.follows
    · simp [reading.http] at web
  | writeOpcode opcode =>
    refine .inl (follows_settled reading fun d done => ?_)
    obtain ⟨-, rfl⟩ | ⟨-, web, -⟩ := writeOpcode_ok done
    · exact reading.follows
    · simp [reading.http] at web
  | writeData val bo =>
    exact .inl (follows_settled reading fun d =>
      writeBody_follows (fun s => write_extends s val bo) reading)
  | writeString ss bo =>
    exact .inl (follows_settled reading fun d =>
      writeBody_follows (fun s => writeString_extends s ss bo) reading)
  | writeLastChunk bo => exact .inl (follows_settled reading fun d => writeLastChunk_follows reading)
  | arrive arrivals => simp [isArrive] at none
  | plan sends =>
    exact .inl (Reading.follows ⟨reading.cuts, reading.behind.keep rfl id rfl,
      stands_same reading.stands rfl rfl rfl⟩)
  | notify canRead canWrite =>
    refine .inl (Reading.follows ⟨reading.cuts, ?_, stands_same reading.stands rfl rfl rfl⟩)
    simp only [perform, TcpSocket.notify]
    split
    · exact reading.behind.keep rfl id rfl
    · exact reading.behind
  | dispatch => exact .inl (dispatch_follows reading)
  | pingTimer =>
    refine .inl (follows_settled reading fun d done => ?_)
    obtain rfl | ⟨pinged, rfl, rfl | sent⟩ := onWmPingTimer_ok done
    · exact reading.follows
    · have flushed :
          Reading { c with wmPingTimer := true, sock := c.sock.writeString [] .write } arrived
          delivered used text :=
        reading.writes (writeString_extends _ _ .write) rfl (stands_same reading.stands rfl rfl rfl)
      exact flushed.follows
    · obtain ⟨-, rfl⟩ | ⟨-, web, -⟩ := writeMessage_ok sent
      · have set : Reading { c with wmPingTimer := true } arrived delivered used text :=
          ⟨reading.cuts, reading.behind, stands_same reading.stands rfl rfl rfl⟩
        exact set.follows
      · have http : c.isStateWebsocket = true := web
        simp [reading.http] at http
  | shutdownTimer =>
    simp only [perform, shutdownTimerHandler]
    split
    · have closed : (c.sock.shutdownTimerHandler).isOpen = false := close_isOpen_false _
      simp only [ServerConnection.sockHandler, isOpen, closed, Bool.not_false, ↓reduceIte]
      exact .inl (reading.ends (sealed_close _))
    · exact .inl reading.follows

private theorem readNextRequest_follows (reading : Reading c arrived delivered used text) :
    Follows arrived (delivered ++ c.readNextRequest.1.toList) c.readNextRequest.2 := by
  unfold readNextRequest
  split
  · simpa using reading.follows
  · rename_i ready
    have state : c.state = .requestReady := by simpa using ready
    have stands := reading.stands
    simp only [Stands, state] at stands
    have taken : Reading c.takeRequest arrived
        (delivered ++ [{ header := c.requestParser.req, body := c.httpBodyParser.body }]) used [] :=
      ⟨reading.cuts.snoc stands, reading.behind, rfl⟩
    exact advanceState_follows taken.follows

private theorem arrive_follows (reading : Reading c arrived delivered used text)
    (arrivals : List Arrival) :
    Follows (arrived ++ if c.sock.sock.fdValid then brought arrivals else []) delivered
      { c with sock.sock := c.sock.sock.arrive arrivals } :=
  Reading.follows ⟨reading.cuts, reading.behind.arrive arrivals, stands_same reading.stands rfl rfl rfl⟩

end Reading

section Runs

/-- The bytes an operation brings to the descriptor. -/
def reached (c : ServerConnection) : ServerOp → Bytes
  | .arrive arrivals => if c.sock.sock.fdValid then brought arrivals else []
  | _ => []

/-- A connection, the bytes that reached its descriptor since it was accepted, and
the requests it delivered since. -/
structure Received where
  conn : ServerConnection := {}
  arrived : Bytes := []
  requests : List Request := []

def receive (r : Received) (op : ServerOp) : Received :=
  let effect := perform r.conn op
  if reopens op then ⟨effect.conn, [], []⟩
  else ⟨effect.conn, r.arrived ++ reached r.conn op, r.requests ++ effect.request.toList⟩

/-- The request that is ready to be taken. -/
def waiting (c : ServerConnection) : List Request :=
  if c.state = .requestReady then [{ header := c.requestParser.req, body := c.httpBodyParser.body }]
    else []

/-- An open connection that serves requests, with nothing left to read. -/
structure Rests (c : ServerConnection) : Prop where
  valid : c.sock.sock.fdValid = true
  unasked : c.sock.writeShutdownAsked = false
  http : c.isStateWebsocket = false
  drained : c.readBuffer.size = 0
  empty : brought c.sock.sock.descriptor.incoming = []

/-- A connection in step with what arrived, upgraded or closed. -/
structure InStep (r : Received) : Prop where
  mode : Mode r.conn
  cut : ∃ used text, Cuts requestCutter used r.requests text ∧ used <+: r.arrived
  follows : Follows r.arrived r.requests r.conn ∨ r.conn.isStateWebsocket = true ∨ Dead r.conn

variable {r : Received} {c : ServerConnection} {arrived : Bytes} {delivered : List Request}

theorem request_none_of {op : ServerOp} (other : op ≠ .readNextRequest) :
    (perform c op).request = none := by
  have settled : ∀ result, (settle c result).request = none := by
    intro result
    cases result <;> rfl
  have settledAfter : ∀ result, (settleAfter result).request = none := by
    intro result
    unfold settleAfter
    split <;> rfl
  cases op with
  | readNextRequest => exact absurd rfl other
  | _ => first | rfl | exact settled _ | exact settledAfter _

theorem request_none (unready : c.state ≠ .requestReady) (op : ServerOp) :
    (perform c op).request = none := by
  by_cases asked : op = .readNextRequest
  · simp [asked, perform, readNextRequest, unready]
  · exact request_none_of asked

private theorem web_unready (web : c.isStateWebsocket = true) : c.state ≠ .requestReady := by
  intro ready
  simp [isStateWebsocket, ready] at web

/-- A connection that was just accepted has used nothing, and nothing has arrived. -/
private theorem accept_reading (c : ServerConnection) {op : ServerOp} (again : reopens op = true) :
    Reading (perform c op).conn [] [] [] [] := by
  have none : contents c.close.readBuffer = [] := contents_clear c.readBuffer
  unfold reopens at again
  split at again
  · refine ⟨.done [], ?_, requestStages.inHead_start, rfl⟩
    show Behind (contents c.close.readBuffer) [] _
    rw [none]
    exact behind_fresh rfl
  · refine ⟨.done [], ?_, requestStages.inHead_start, rfl⟩
    show Behind (contents c.close.readBuffer) [] _
    rw [none]
    exact behind_fresh rfl
  · cases again

/-- One operation of a connection that reads requests. -/
private theorem receive_reading {used text : Bytes}
    (reading : Reading c arrived delivered used text) (op : ServerOp) (same : reopens op = false) :
    Follows (arrived ++ reached c op) (delivered ++ (perform c op).request.toList) (perform c op).conn ∨
      (perform c op).request = none ∧ reached c op = [] ∧
      (perform c op).conn.isStateWebsocket = true := by
  by_cases arrives : isArrive op = true
  · cases op <;> simp only [isArrive, Bool.false_eq_true] at arrives
    rename_i arrivals
    left
    simpa [perform, reached] using arrive_follows reading arrivals
  · by_cases asked : op = .readNextRequest
    · subst asked
      left
      simpa [perform, reached] using readNextRequest_follows reading
    · have none : (perform c op).request = none := request_none_of asked
      have nothing : reached c op = [] := by cases op <;> first | rfl | simp [isArrive] at arrives
      rcases perform_follows reading op same (by simpa using arrives) asked with follows | web
      · left
        simpa [none, nothing] using follows
      · exact .inr ⟨none, nothing, web⟩

theorem receive_inStep (r : Received) (op : ServerOp) (inStep : InStep r) : InStep (receive r op) := by
  have mode := perform_mode inStep.mode op
  obtain ⟨used, text, cuts, placed⟩ := inStep.cut
  cases again : reopens op with
  | true =>
    simp only [receive, again, ↓reduceIte]
    have reading := accept_reading r.conn again
    exact ⟨mode, reading.follows.cut, .inl reading.follows⟩
  | false =>
    simp only [receive, again, Bool.false_eq_true, ↓reduceIte]
    -- a connection that is not ready delivers nothing, and what arrives only adds
    have idle : r.conn.state ≠ .requestReady → (perform r.conn op).request.toList = [] ∧
        ∃ used text, Cuts requestCutter used (r.requests ++ (perform r.conn op).request.toList) text ∧
          used <+: r.arrived ++ reached r.conn op := by
      intro unready
      have none := request_none unready op
      exact ⟨by simp [none], used, text, by simpa [none] using cuts,
        placed.trans (List.prefix_append _ _)⟩
    rcases inStep.follows with follows | web | dead
    · rcases follows.state with ⟨used, text, reading⟩ | ended
      · rcases receive_reading reading op again with follows | ⟨none, nothing, web⟩
        · exact ⟨mode, follows.cut, .inl follows⟩
        · refine ⟨mode, ⟨used, text, ?_, ?_⟩, .inr (.inl web)⟩
          · simpa [none] using reading.cuts
          · simpa [nothing] using reading.placed
      · obtain ⟨-, cut⟩ := idle ended.unready
        exact ⟨mode, cut, .inl ⟨cut, .inr (perform_sealed ended op again)⟩⟩
    · obtain ⟨-, cut⟩ := idle (web_unready web)
      have opened : r.conn.isOpen = true := by
        rcases inStep.mode with dead | serving | ⟨opened, -⟩
        · simp [isStateWebsocket, dead.state] at web
        · simp [serving.http] at web
        · exact opened
      rcases perform_web opened web op again with dead | talked
      · exact ⟨mode, cut, .inr (.inr dead)⟩
      · exact ⟨mode, cut, .inr (.inl talked.web)⟩
    · obtain ⟨-, cut⟩ := idle (by simp [dead.state])
      exact ⟨mode, cut, .inr (.inr (perform_dead dead op again).1)⟩

theorem inStep_start : InStep {} :=
  ⟨.inl ⟨rfl, rfl, rfl, rfl, rfl⟩, ⟨[], [], .done [], List.prefix_rfl⟩,
    .inr (.inr ⟨rfl, rfl, rfl, rfl, rfl⟩)⟩

/-- A connection at rest has used all that arrived; what it has not delivered of
that is the request that is ready, or the start of one. -/
private theorem Reading.rests {used text : Bytes} (reading : Reading c arrived delivered used text)
    (rests : Rests c) :
    messages requestCutter arrived = delivered ++ waiting c := by
  have empty : contents c.readBuffer = [] :=
    List.length_eq_zero_iff.mp (by rw [contents_length]; exact rests.drained)
  have all : arrived = used := by
    have whole := reading.behind.whole rests.unasked rests.valid
    rwa [empty, rests.empty, List.append_nil, List.append_nil] at whole
  have later : messages requestCutter text = waiting c := by
    have stands := reading.stands
    unfold Stands at stands
    unfold waiting
    split at stands
    · rename_i state
      rw [if_neg (by simp [state])]
      exact messages_none (stands.1.unfinished stands.2)
    · rename_i state
      obtain ⟨p, inBody, running, -⟩ := stands
      rw [if_neg (by simp [state])]
      exact messages_none (inBody.unfinished running)
    · rename_i state
      rw [messages_some stands, messages_none rfl]
      simp [state]
    · rename_i state
      rw [stands, messages_none rfl]
      simp [state]
    · rename_i state
      rw [stands, messages_none rfl]
      simp [state]
    · exact stands.elim
  rw [all, reading.cuts.messages_eq, later]

theorem InStep.read (inStep : InStep r) : r.requests <+: messages requestCutter r.arrived := by
  obtain ⟨used, text, cuts, later, same⟩ := inStep.cut
  rw [← same, (cuts.append later).messages_eq]
  exact List.prefix_append _ _

theorem InStep.complete (inStep : InStep r) (rests : Rests r.conn) :
    messages requestCutter r.arrived = r.requests ++ waiting r.conn := by
  rcases inStep.follows with follows | web | dead
  · rcases follows.state with ⟨used, text, reading⟩ | ended
    · exact reading.rests rests
    · rcases ended.shut with asked | invalid
      · rw [rests.unasked] at asked
        cases asked
      · rw [rests.valid] at invalid
        cases invalid
  · rw [rests.http] at web
    cases web
  · have closed := dead.closed
    simp [isOpen, BufferedTcpSocket.isOpen, TcpSocket.isOpen, rests.valid] at closed

/-- In every run of a server connection, the requests delivered since the accept are
the first requests of the bytes that reached its descriptor since then: what is
delivered depends on these bytes alone, whatever segments they came in and whatever
the user, the kernel and the timers did in between. When the connection is open in
HTTP mode and nothing is left to read, no request is missing: those delivered and the
one that is ready are all there are. -/
theorem requests_cut_from_stream (ops : List ServerOp) :
    let r := Run.after receive {} ops
    r.requests <+: messages requestCutter r.arrived ∧
      (Rests r.conn → messages requestCutter r.arrived = r.requests ++ waiting r.conn) := by
  intro r
  have inStep : InStep r := Run.invariant_of_keeps receive_inStep inStep_start ops
  exact ⟨inStep.read, inStep.complete⟩

/-- Two requests in segments cut inside them; the first one is answered, and the
second one is ready then. -/
def cutInside : List ServerOp :=
  .accept .ready :: ServerEndProofs.received (str "GET / HT") ++
    ServerEndProofs.received (str "TP/1.1\r\n\r\nPOST /a HTTP/1.1\r\nContent-Length: 2\r\n\r\nx") ++
    [.readNextRequest, .writeResponse
      { header := { status := 200, contentLength := some 0 }, body := [] }] ++
    ServerEndProofs.received (str "y")

theorem requests_cut_from_stream_split :
    (Run.after receive {} cutInside).requests.length = 1 ∧
      (waiting (Run.after receive {} cutInside).conn).length = 1 ∧
      messages requestCutter (Run.after receive {} cutInside).arrived =
        (Run.after receive {} cutInside).requests ++ waiting (Run.after receive {} cutInside).conn := by
  refine ⟨by decide +kernel, by decide +kernel, (requests_cut_from_stream cutInside).2 ?_⟩
  exact ⟨by decide +kernel, by decide +kernel, by decide +kernel, by decide +kernel, by decide +kernel⟩

end Runs
end Crablib.RequestStreamProofs
