import Crablib.HearingProofs
import Crablib.ResponseStreamProofs

/-! The web messages a client connection delivers are the messages in the bytes behind
the answer to its upgrade, and it takes no answer but the one to its own key. -/
namespace Crablib.UpgradeStreamProofs
open Http ClientConnection ClientRun StreamsProofs SocketProofs ArrivalProofs Cutting HearingProofs
open ServerEndProofs
open ClientHistoryProofs (isWeb settleAfter_conn)
open ClientProgressProofs (writeMessage_cases)
open ResponseStreamProofs (Received receive reached starts responseCutter responseStages Upgrading
  writeRequest_cases)
open EndpointProofs (client client_models)

variable {c d : ClientConnection} {base head arrived : Bytes} {left : Option WebMessage}
    {delivered : List WebMessage}
variable {responses : List Response} {p : ResponseParser}

section Web

/-- An answer to the upgrade, and the key it proves to know. -/
structure IsAnswer (key : Bytes) (p : ResponseParser) : Prop where
  good : p.isGood = true
  upgrade : p.req.isWebsocketUpgrade = true
  bodiless : p.req.contentLength = none ∧ p.req.transferEncodingChunked = false
  accept : p.req.secWebsocketAccept = ResponseHeader.generateSecWebsocketAccept key

/-- An open connection that reads the answer to its upgrade, or gets no byte of it any
more. -/
structure Awaits (responses : List Response) (arrived : Bytes) (left : Option WebMessage)
    (c : ClientConnection) : Prop where
  state : c.state = .webUpgradeResponseHeader
  begun : c.reader.webMessage = left
  reads : ∃ base, Cuts responseCutter base responses [] ∧
    ((∃ text, responseStages.InHead text c.responseParser ∧
      Behind (base ++ text ++ contents c.readBuffer) arrived c.sock) ∨
      base <+: arrived ∧ Shut c.sock ∧ contents c.readBuffer = [])

/-- A connection that hears web messages behind the answer. -/
structure HearsWeb (responses : List Response) (arrived : Bytes) (left : Option WebMessage)
    (delivered : List WebMessage) (c : ClientConnection) : Prop where
  answered : ∃ base head p, Cuts responseCutter base responses [] ∧ responseStages.InHead head p ∧
    IsAnswer c.secWebsocketKey p ∧ ∃ state, c.state = .web state ∧
    Hears (base ++ head) arrived left delivered (ear client c state)

/-- An open connection that was upgraded or asked to be. -/
structure Tuned (responses : List Response) (arrived : Bytes) (left : Option WebMessage)
    (delivered : List WebMessage) (c : ClientConnection) : Prop where
  opened : c.sock.isOpen = true
  resolved : c.dnsOpen = false
  mode : Awaits responses arrived left c ∧ delivered = [] ∨ HearsWeb responses arrived left delivered c

/-- What writes leave alone. -/
private theorem Tuned.writes {bytes : Bytes} (tuned : Tuned responses arrived left delivered c)
    (extends_ : Extends c.sock d.sock bytes) (state : d.state = c.state) (reader : d.reader = c.reader)
    (buffer : d.readBuffer = c.readBuffer) (parser : d.responseParser = c.responseParser)
    (key : d.secWebsocketKey = c.secWebsocketKey) (resolved : d.dnsOpen = c.dnsOpen) :
    Tuned responses arrived left delivered d := by
  refine ⟨extends_.isOpen.trans tuned.opened, resolved.trans tuned.resolved, ?_⟩
  rcases tuned.mode with ⟨awaits, nothing⟩ | ⟨base, head, p, cuts, inHead, answer, web, here, heard⟩
  · obtain ⟨base, cuts, reads⟩ := awaits.reads
    refine .inl ⟨⟨state.trans awaits.state, by rw [reader]; exact awaits.begun, base, cuts, ?_⟩, nothing⟩
    rw [parser, buffer]
    rcases reads with ⟨text, inHead, behind⟩ | ⟨placed, shut, drained⟩
    · exact .inl ⟨text, inHead, behind.extends_ extends_⟩
    · exact .inr ⟨placed, shut_extends shut extends_, drained⟩
  · refine .inr ⟨base, head, p, cuts, inHead, by rwa [key], web, state.trans here, ?_⟩
    have moved := heard.extends_ extends_
    simp only [ear, client] at moved ⊢
    rwa [reader, buffer]

/-- The connection reads no more. -/
private theorem Tuned.silence (tuned : Tuned responses arrived left delivered c) {b : Buffer}
    {s : BufferedTcpSocket} (opened : s.isOpen = true) (drained : contents b = []) (shut : Shut s)
    (keys : List UInt32) :
    Tuned responses arrived left delivered { c with keys := keys, readBuffer := b, sock := s } := by
  refine ⟨opened, tuned.resolved, ?_⟩
  rcases tuned.mode with ⟨awaits, nothing⟩ | ⟨base, head, p, cuts, inHead, answer, web, here, heard⟩
  · obtain ⟨base, cuts, reads⟩ := awaits.reads
    refine .inl ⟨⟨awaits.state, awaits.begun, base, cuts, .inr ⟨?_, shut, drained⟩⟩, nothing⟩
    rcases reads with ⟨text, inHead, behind⟩ | ⟨placed, -⟩
    · rw [List.append_assoc] at behind
      exact (List.prefix_append _ _).trans behind.placed
    · exact placed
  · exact .inr ⟨base, head, p, cuts, inHead, answer, web, here, heard.silence drained shut⟩

private theorem Tuned.onException (tuned : Tuned responses arrived left delivered c) :
    Tuned responses arrived left delivered c.onException :=
  tuned.silence ((writeShutdown_keeps _).2.trans tuned.opened) (contents_clear _)
    (shut_writeShutdown _) c.keys

private theorem Tuned.sendMessage (tuned : Tuned responses arrived left delivered c)
    (message : WebMessage) :
    Tuned responses arrived left delivered (c.sendMessage message) := by
  have sent := (buffer_extends c.sock
    (webMessageHeader true message.opcode.toNat (payload message).length (some (c.keys.headD 0)))).trans
    (writeString_extends _ (maskData 0 (payload message) (c.keys.headD 0)) .write)
  simp only [ClientConnection.sendMessage]
  split
  · exact tuned.silence (((writeShutdown_keeps _).2.trans sent.isOpen).trans tuned.opened)
      (contents_clear _) (shut_writeShutdown _) c.keys.tail
  · exact tuned.writes (d := { c with
      keys := c.keys.tail
      sock := (c.sock.buffer (webMessageHeader true message.opcode.toNat (payload message).length
        (some (c.keys.headD 0)))).writeString
        (maskData 0 (payload message) (c.keys.headD 0)) .write }) sent rfl rfl rfl rfl rfl rfl

private theorem writeMessage_open {message : WebMessage} (opened : c.sock.isOpen = true)
    (done : c.writeMessage message = .ok d) :
    d = c.sendMessage message := by
  simp [ClientConnection.writeMessage, ClientConnection.isOpen, opened] at done
  exact done.2.symm

private theorem Tuned.writeMessage {message : WebMessage}
    (tuned : Tuned responses arrived left delivered c) (done : c.writeMessage message = .ok d) :
    Tuned responses arrived left delivered d := by
  obtain rfl | ⟨-, rfl⟩ := writeMessage_cases done
  · exact tuned
  · exact tuned.sendMessage message

private theorem readWebMessage_tuned {used text : Bytes} {chunks : List WebChunk} {state : WebState}
    (opened : c.sock.isOpen = true) (resolved : c.dnsOpen = false)
    (cuts : Cuts responseCutter base responses []) (inHead : responseStages.InHead head p)
    (answer : IsAnswer c.secWebsocketKey p)
    (listening : Listening (base ++ head) arrived left delivered (ear client c state) used chunks
      text)
    (unready : state ≠ .ready) :
    client.Caught (Tuned responses arrived left delivered) (c.readWebMessage state) := by
  refine readWebMessage_caught client_models listening unready ?_ ?_ ?_
    Tuned.writeMessage Tuned.onException
  · intro next w b heard
    exact ⟨opened, resolved, .inr ⟨base, head, p, cuts, inHead, answer, next, rfl, heard⟩⟩
  · intro next w b silenced
    exact ⟨(writeShutdown_keeps _).2.trans opened, resolved,
      .inr ⟨base, head, p, cuts, inHead, answer, next, rfl,
      silenced (contents_clear _) (shut_writeShutdown _)⟩⟩
  · intro next w b d silenced done
    rw [writeMessage_open (c := { c with state := .web next, reader := w, readBuffer := b }) opened done]
    have sent := (buffer_extends c.sock (webMessageHeader true WebMessageOpcode.close.toNat
      (payload { opcode := .close, closeCode := WebMessage.closeStatusNotUtf8 }).length
      (some (c.keys.headD 0)))).trans
      (writeString_extends _ (maskData 0
        (payload { opcode := .close, closeCode := WebMessage.closeStatusNotUtf8 })
        (c.keys.headD 0)) .write)
    exact ⟨((writeShutdown_keeps _).2.trans sent.isOpen).trans opened, resolved,
      .inr ⟨base, head, p, cuts, inHead, answer, next,
      rfl, silenced (contents_clear _) (shut_writeShutdown _)⟩⟩

private theorem switchState_tuned {used text : Bytes} {chunks : List WebChunk} {state : WebState}
    (opened : c.sock.isOpen = true) (resolved : c.dnsOpen = false) (here : c.state = .web state)
    (cuts : Cuts responseCutter base responses []) (inHead : responseStages.InHead head p)
    (answer : IsAnswer c.secWebsocketKey p)
    (listening : Listening (base ++ head) arrived left delivered (ear client c state) used chunks text) :
    client.Caught (Tuned responses arrived left delivered) c.switchState := by
  cases state with
  | header =>
    simpa only [switchState, here] using
      readWebMessage_tuned opened resolved cuts inHead answer listening (by simp)
  | body =>
    simpa only [switchState, here] using
      readWebMessage_tuned opened resolved cuts inHead answer listening (by simp)
  | ready =>
    simp only [switchState, here]
    exact ⟨opened, resolved, .inr ⟨base, head, p, cuts, inHead, answer, .ready, here, listening.hears⟩⟩

/-- The answer to the upgrade, read from the buffer. -/
private theorem readUpgradeResponse_tuned {text : Bytes} (opened : c.sock.isOpen = true)
    (resolved : c.dnsOpen = false) (state : c.state = .webUpgradeResponseHeader)
    (begun : c.reader.webMessage = left) (cuts : Cuts responseCutter base responses [])
    (inHead : responseStages.InHead text c.responseParser)
    (behind : Behind (base ++ text ++ contents c.readBuffer) arrived c.sock) :
    client.Caught (Tuned responses arrived left []) c.readUpgradeResponse := by
  have kept : Tuned responses arrived left [] c :=
    ⟨opened, resolved, .inl ⟨⟨state, begun, base, cuts, .inl ⟨text, inHead, behind⟩⟩, rfl⟩⟩
  simp only [readUpgradeResponse]
  split
  · exact kept.onException
  · rename_i parser rest done
    obtain ⟨now, left', took, moved, -⟩ := parseWith_used Scanner.rest_suffix done
    have read := inHead.feed (Scanner.scan_used took)
    have placed : Behind (base ++ (text ++ now) ++ contents rest) arrived c.sock := by
      rw [moved] at behind
      simpa using behind
    have parsed :
        Tuned responses arrived left [] { c with responseParser := parser, readBuffer := rest } :=
      ⟨opened, resolved, .inl ⟨⟨state, begun, base, cuts, .inl ⟨text ++ now, read, placed⟩⟩, rfl⟩⟩
    split
    · exact parsed
    · rename_i good
      split
      · exact parsed.onException
      · rename_i upgrade
        split
        · exact parsed.onException
        · rename_i bodiless
          split
          · exact parsed.onException
          · rename_i accept
            have answer : IsAnswer c.secWebsocketKey parser :=
              ⟨by simpa using good, by simpa using upgrade, by
                simpa [not_or] using bodiless, by simpa using accept⟩
            refine ⟨opened, resolved,
              .inr ⟨base, text ++ now, parser, cuts, read, answer, .header, rfl, ?_⟩⟩
            have starts := listening_start (e := ear client { c with
              responseParser := parser
              readBuffer := rest
              reader := { c.reader with wmHeaderParser := {}, wmBodyParser := {} }
              state := .web .header } .header) placed rfl rfl
            rw [← begun]
            exact starts.hears

private theorem turn_tuned (tuned : Tuned responses arrived left delivered c) :
    client.Caught (Tuned responses arrived left delivered) c.turn := by
  obtain ⟨opened, resolved, mode⟩ := tuned
  have opened' : (c.readBuffer.readFrom BufferedTcpSocket.istream c.sock).2.2.isOpen = true :=
    (InboundProofs.readFrom_quiet c.readBuffer c.sock).isOpen.trans opened
  rcases mode with ⟨⟨state, begun, base, cuts, reads⟩, rfl⟩ | ⟨base, head, p, cuts, inHead,
    answer, web, here, heard⟩
  · have switch : ∀ {f : ClientConnection}, f.state = .webUpgradeResponseHeader →
        f.switchState = f.readUpgradeResponse := by
      intro f state'
      simp only [switchState, state']
    rcases reads with ⟨text, inHead, behind⟩ | ⟨placed, shut, drained⟩
    · unfold turn
      split
      · have filled := readFrom_behind behind
        simp only
        split
        · exact ⟨opened', resolved, .inl ⟨⟨state, begun, base, cuts, .inl ⟨text, inHead, filled⟩⟩, rfl⟩⟩
        · rw [switch (f := { c with
            readBuffer := (c.readBuffer.readFrom BufferedTcpSocket.istream c.sock).2.1
            sock := (c.readBuffer.readFrom BufferedTcpSocket.istream c.sock).2.2 }) state]
          exact readUpgradeResponse_tuned opened' resolved state begun cuts inHead filled
      · rw [switch state]
        exact readUpgradeResponse_tuned opened resolved state begun cuts inHead behind
    · obtain ⟨nothing, size, same⟩ := shut_readFrom shut c.readBuffer
      have empty : c.readBuffer.empty = true := (empty_iff _).mpr drained
      have drained' : contents (c.readBuffer.readFrom BufferedTcpSocket.istream c.sock).2.1 = [] := by
        apply List.length_eq_zero_iff.mp
        rw [contents_length, size, ← contents_length, drained, List.length_nil]
      simp only [turn, empty, ↓reduceIte, nothing]
      exact ⟨opened', resolved,
        .inl ⟨⟨state, begun, base, cuts, .inr ⟨placed, by simpa only [same] using shut, drained'⟩⟩, rfl⟩⟩
  · refine turn_caught client_models heard ?_ ?_
    · intro b t quiet heard'
      exact ⟨quiet.isOpen.trans opened, resolved,
        .inr ⟨base, head, p, cuts, inHead, answer, web, here, heard'⟩⟩
    · intro b t quiet used chunks text listening
      exact switchState_tuned (c := { c with readBuffer := b, sock := t })
        (quiet.isOpen.trans opened) resolved here cuts inHead answer listening

private theorem Tuned.advanceState (tuned : Tuned responses arrived left delivered c) :
    Tuned responses arrived left delivered c.advanceState.2 :=
  client_models.caught (fun _ => turn_tuned) tuned

/-- The socket goes on, and the rest is left alone. -/
private theorem Tuned.moves (tuned : Tuned responses arrived left delivered c)
    {s : BufferedTcpSocket} {more : Bytes} (opened : s.isOpen = true)
    (behind : ∀ taken, Behind taken arrived c.sock → Behind taken (arrived ++ more) s)
    (shut : Shut c.sock → Shut s) :
    Tuned responses (arrived ++ more) left delivered { c with sock := s } := by
  refine ⟨opened, tuned.resolved, ?_⟩
  rcases tuned.mode with ⟨⟨state, begun, base, cuts, reads⟩, nothing⟩ | ⟨base, head, p, cuts,
    inHead, answer, web, here, heard⟩
  · refine .inl ⟨⟨state, begun, base, cuts, ?_⟩, nothing⟩
    rcases reads with ⟨text, inHead, held⟩ | ⟨placed, ended, drained⟩
    · exact .inl ⟨text, inHead, behind _ held⟩
    · exact .inr ⟨placed.trans (List.prefix_append _ _), shut ended, drained⟩
  · exact .inr ⟨base, head, p, cuts, inHead, answer, web, here, heard.moves behind shut⟩

private theorem Tuned.stays (tuned : Tuned responses arrived left delivered c)
    {s : BufferedTcpSocket} (opened : s.isOpen = true)
    (behind : ∀ taken, Behind taken arrived c.sock → Behind taken arrived s)
    (shut : Shut c.sock → Shut s) :
    Tuned responses arrived left delivered { c with sock := s } := by
  rw [← List.append_nil arrived] at behind ⊢
  refine tuned.moves opened (fun taken held => ?_) shut
  exact behind taken (by rwa [List.append_nil])

/-- A closed connection, to which nothing happens before it connects again. -/
structure Closed (c : ClientConnection) : Prop where
  state : c.state = .resolvingHost
  resolved : c.dnsOpen = false
  closed : c.sock.isOpen = false

private theorem closed_close (c : ClientConnection) : Closed c.close :=
  ⟨rfl, rfl, close_isOpen_false c.sock.sock⟩

private theorem Tuned.upgrading (tuned : Tuned responses arrived left delivered c) : Upgrading c := by
  rcases tuned.mode with ⟨awaits, -⟩ | ⟨-, -, -, -, -, -, web, here, -⟩
  · exact .inl awaits.state
  · exact .inr (by rw [here]; rfl)

private theorem dispatch_tuned (tuned : Tuned responses arrived left delivered c) :
    Closed c.dispatch.2 ∨ Tuned responses arrived left delivered c.dispatch.2 := by
  unfold ClientConnection.dispatch
  split
  · unfold ClientConnection.sockHandler
    split
    · exact .inl (closed_close _)
    · rename_i opened
      have handled : Tuned responses arrived left delivered c.socketEvent := by
        have open_ : c.socketEvent.sock.isOpen = true := by
          simpa only [Bool.not_eq_true', Bool.not_eq_false] using opened
        refine tuned.stays open_ (fun taken behind => ?_) fun shut => ?_
        · exact sockHandler_behind (behind.keep rfl id rfl)
        · exact shut_sockHandler (s := { c.sock with sock.pending := false }) shut
      exact .inr handled.advanceState
  · exact .inr tuned

/-- An operation of a connection that was upgraded or asked to be. -/
theorem perform_tuned (tuned : Tuned responses arrived left delivered c) (op : ClientRun.ClientOp)
    (same : starts c op = false) :
    (perform c op).response = none ∧
      ((perform c op).message = none ∧ Closed (perform c op).conn ∨
        Tuned responses (arrived ++ reached c op) left (delivered ++ (perform c op).message.toList)
          (perform c op).conn) := by
  have upgrading := tuned.upgrading
  have busy : c.state ≠ .resolvingHost ∧ c.state ≠ .waitingWriteRequest ∧ c.state ≠ .responseReady := by
    rcases upgrading with state | web
    · simp [state]
    · refine ⟨?_, ?_, ?_⟩ <;> (intro state; simp [state, isWeb] at web)
  have stay : Tuned responses (arrived ++ []) left (delivered ++ []) c := by simpa using tuned
  have settled : ∀ {result : Except Error ClientConnection},
    (∀ d, result = .ok d → Tuned responses arrived left delivered d) →
      Tuned responses (arrived ++ []) left (delivered ++ (settle c result).message.toList)
        (settle c result).conn := by
    intro result after
    cases result with
    | error e => exact stay
    | ok d => simpa [settle] using after d rfl
  refine ⟨?_, ?_⟩
  · by_cases read : op = .readNextResponse
    · simp [read, perform, readNextResponse, busy.2.2]
    · exact ResponseStreamProofs.response_none read
  cases op with
  | connectAddress host port result => simp [starts] at same
  | connectHost host port protocol => simp [starts] at same
  | close => simp [starts] at same
  | dnsHandler result =>
    simpa [perform, ClientConnection.dnsHandler, tuned.resolved, settleAfter, reached] using .inr tuned
  | readNextResponse => simpa [perform, readNextResponse, busy.2.2, reached] using .inr tuned
  | readNextMessage =>
    right
    simp only [perform, readNextMessage, reached, List.append_nil]
    split
    · simpa using tuned
    · rename_i ready
      have state : c.state = .web .ready := by simpa using ready
      rcases tuned.mode with ⟨awaits, -⟩ | ⟨base, head, p, cuts, inHead, answer, web, here, heard⟩
      · simp [awaits.state] at state
      · have ready' : web = .ready := by simpa [here] using state
        have took :
            Tuned responses arrived left (delivered ++ [c.reader.webMessage.getD {}]) c.takeMessage :=
          ⟨tuned.opened, tuned.resolved,
            .inr ⟨base, head, p, cuts, inHead, answer, .header, rfl, heard.take ready'⟩⟩
        exact took.advanceState
  | webSocketUpgrade rh rdata =>
    refine .inr (settled fun d done => ?_)
    obtain rfl | rfl | ⟨-, state, -⟩ := writeRequest_cases done
    · exact tuned
    · exact tuned.writes (d := { c with waitingRequest := some _ }) (Extends.refl _)
        rfl rfl rfl rfl rfl rfl
    · exact absurd state busy.2.1
  | writeRequest req =>
    refine .inr (settled fun d done => ?_)
    obtain rfl | rfl | ⟨-, state, -⟩ := writeRequest_cases done
    · exact tuned
    · exact tuned.writes (d := { c with waitingRequest := some req }) (Extends.refl _)
        rfl rfl rfl rfl rfl rfl
    · exact absurd state busy.2.1
  | writeMessage message => exact .inr (settled fun d => tuned.writeMessage)
  | arrive arrivals =>
    right
    rw [show (perform c (.arrive arrivals)).message.toList = [] from rfl, List.append_nil]
    refine tuned.moves ?_ (fun taken behind => behind.arrive arrivals) fun shut =>
      shut_arrive shut arrivals
    simpa [BufferedTcpSocket.isOpen, TcpSocket.isOpen, TcpSocket.arrive, apply_ite] using tuned.opened
  | plan sends =>
    right
    have planned :
        Tuned responses arrived left delivered { c with sock.sock := c.sock.sock.plan sends } :=
      tuned.stays tuned.opened (fun taken behind => behind.keep rfl id rfl) id
    simpa [perform, reached] using planned
  | notify canRead canWrite =>
    right
    simp only [perform, TcpSocket.notify, reached, List.append_nil, Option.toList_none]
    split
    · refine tuned.stays ?_ (fun taken behind => behind.keep rfl id rfl) id
      simp [BufferedTcpSocket.isOpen, TcpSocket.isOpen, TcpSocket.addPendingCallable]
    · exact tuned
  | dispatch =>
    rcases dispatch_tuned tuned with closed | tuned
    · exact .inl ⟨rfl, closed⟩
    · exact .inr (by simpa [perform, reached] using tuned)
  | shutdownTimer =>
    simp only [perform, shutdownTimerHandler]
    split
    · left
      have closed : c.sock.shutdownTimerHandler.isOpen = false := close_isOpen_false _
      simp only [ClientConnection.sockHandler, closed, Bool.not_false, ↓reduceIte]
      exact ⟨trivial, closed_close _⟩
    · exact .inr stay

end Web

section Asked
open ResponseStreamProofs (Follows connect_follows)

/-- A request to upgrade is written while the connection reads nothing. -/
private theorem asks_tuned (follows : Follows arrived responses c) (resolved : c.dnsOpen = false)
    (opened : c.sock.isOpen = true) (state : c.state = .waitingWriteRequest)
    {header : RequestHeader} (upgrade : header.isWebsocketUpgrade = true) (body : Bytes) :
    Tuned responses arrived c.reader.webMessage [] (c.sendRequest header body) := by
  have sent : Extends c.sock ((c.sock.bufferString header.toString).writeString body .write) _ :=
    (buffer_extends _ _).trans (writeString_extends _ _ .write)
  simp only [sendRequest, upgrade, ↓reduceIte]
  refine ⟨sent.isOpen.trans opened, resolved, .inl ⟨⟨rfl, rfl, ?_⟩, rfl⟩⟩
  rcases follows.state with ⟨used, text, reading⟩ | silent | upgrading
  · have nothing : text = [] := by simpa only [ResponseStreamProofs.Stands, state] using reading.stands
    have cuts := reading.cuts
    rw [nothing] at cuts
    refine ⟨used, cuts, .inl ⟨[], responseStages.inHead_start, ?_⟩⟩
    simpa using reading.behind.extends_ sent
  · obtain ⟨used, text, cuts, placed⟩ := follows.cut
    obtain ⟨base, split, cuts'⟩ := cuts.front responseStages.cutter_exact
    have drained : contents c.readBuffer = [] :=
      List.length_eq_zero_iff.mp ((contents_length _).trans silent.drained)
    exact ⟨base, cuts', .inr ⟨(split ▸ List.prefix_append base text).trans placed,
      shut_extends silent.shut sent, drained⟩⟩
  · simp [Upgrading, state, isWeb] at upgrading

/-- A request that is written leaves the connection as it was, or upgrading. -/
private theorem writeRequest_tuned {req : Request} (follows : Follows arrived responses c)
    (resolved : c.state = .waitingWriteRequest → c.dnsOpen = false) (plain : ¬Upgrading c)
    (done : c.writeRequest req = .ok d) :
    ¬Upgrading d ∨ d.state = .webUpgradeResponseHeader ∧
      Tuned responses arrived d.reader.webMessage [] d := by
  obtain rfl | rfl | ⟨opened, state, rfl⟩ := writeRequest_cases done
  · exact .inl plain
  · exact .inl plain
  · have resolved := resolved state
    have opened' : c.sock.isOpen = true := by simpa [ClientConnection.isOpen, resolved] using opened
    cases upgrade : ({ req.header with host := c.host } : RequestHeader).isWebsocketUpgrade with
    | true =>
      have tuned := asks_tuned follows resolved opened' state upgrade req.body
      have same :
          c.reader = (c.sendRequest { req.header with host := c.host } req.body).reader := by
        simp [sendRequest, upgrade]
      rw [same] at tuned
      exact .inr ⟨by simp [sendRequest, upgrade], tuned⟩
    | false =>
      left
      simp [sendRequest, upgrade, Upgrading, isWeb]

private theorem readResponseBody_plain (state : c.state = .responseBody) :
    client.Caught (fun d => ¬Upgrading d) c.readResponseBody := by
  have plain : ¬Upgrading c := by simp [Upgrading, state, isWeb]
  unfold readResponseBody
  split
  · exact plain
  · simp only
    split
    · exact plain
    · simp [EndpointProofs.Endpoint.Caught, Upgrading, isWeb]

private theorem turn_plain (plain : ¬Upgrading c) : client.Caught (fun d => ¬Upgrading d) c.turn := by
  have switch : ∀ {f : ClientConnection}, f.state = c.state →
      client.Caught (fun d => ¬Upgrading d) f.switchState := by
    intro f same
    have plain' : ¬Upgrading f := by rwa [Upgrading, same]
    unfold switchState
    split
    · rename_i state
      unfold readResponseHeader
      split
      · exact plain'
      · simp only
        split
        · exact plain'
        · split
          · exact plain'
          · exact readResponseBody_plain rfl
    · rename_i state
      exact readResponseBody_plain state
    · rename_i state
      exact absurd (.inl state) plain'
    · rename_i state
      exact absurd (.inr (by rw [state]; rfl)) plain'
    · rename_i state
      exact absurd (.inr (by rw [state]; rfl)) plain'
    · exact plain'
  unfold turn
  split
  · simp only
    split
    · exact plain
    · exact switch rfl
  · exact switch rfl

private theorem advanceState_plain (plain : ¬Upgrading c) : ¬Upgrading c.advanceState.2 :=
  client_models.caught (fun _ => turn_plain) plain

private theorem sockHandler_plain (plain : ¬Upgrading c) : ¬Upgrading c.sockHandler.2 := by
  unfold ClientConnection.sockHandler
  split
  · simp [Upgrading, close, isWeb]
  · exact advanceState_plain plain

theorem message_none (op : ClientRun.ClientOp) (unready : c.state ≠ .web .ready) :
    (perform c op).message = none := by
  have settled : ∀ result, (settle c result).message = none := by
    intro result
    cases result <;> rfl
  have settledAfter : ∀ {α : Type} (result : Except Error α × ClientConnection),
      (settleAfter result).message = none := by
    intro α result
    unfold settleAfter
    split <;> rfl
  cases op with
  | readNextMessage => simp [perform, readNextMessage, unready]
  | _ => first | rfl | exact settled _ | exact settledAfter _

/-- What an operation does that neither starts a connection nor brings a message. -/
private theorem perform_plain (follows : Follows arrived responses c)
    (parting : RequestFramingProofs.Parting c) (plain : ¬Upgrading c) (op : ClientRun.ClientOp)
    (same : starts c op = false) :
    ¬Upgrading (perform c op).conn ∨ reached c op = [] ∧ (perform c op).response = none ∧
      (perform c op).conn.state = .webUpgradeResponseHeader ∧
        Tuned responses arrived (perform c op).conn.reader.webMessage [] (perform c op).conn := by
  have settled : ∀ {result : Except Error ClientConnection},
      (∀ d, result = .ok d → ¬Upgrading d ∨ d.state = .webUpgradeResponseHeader ∧
        Tuned responses arrived d.reader.webMessage [] d) →
      ¬Upgrading (settle c result).conn ∨ ([] : Bytes) = [] ∧ (settle c result).response = none ∧
        (settle c result).conn.state = .webUpgradeResponseHeader ∧
          Tuned responses arrived (settle c result).conn.reader.webMessage []
            (settle c result).conn := by
    intro result after
    cases result with
    | error e => exact .inl plain
    | ok d => exact (after d rfl).imp id fun tuned => ⟨rfl, rfl, tuned⟩
  cases op with
  | connectAddress host port result => simp [starts] at same
  | connectHost host port protocol => simp [starts] at same
  | close => simp [starts] at same
  | dnsHandler result =>
    have closed : c.dnsOpen = false := same
    exact .inl (by simpa [perform, ClientConnection.dnsHandler, closed, settleAfter] using plain)
  | readNextResponse =>
    left
    simp only [perform, readNextResponse]
    split
    · exact plain
    · exact advanceState_plain (by simp [Upgrading, takeResponse, isWeb])
  | readNextMessage =>
    left
    simp only [perform, readNextMessage]
    split
    · exact plain
    · rename_i ready
      have state : c.state = .web .ready := by simpa using ready
      exact absurd (.inr (by rw [state]; rfl)) plain
  | webSocketUpgrade rh rdata =>
    exact settled fun d done =>
      writeRequest_tuned follows (fun state => parting.resolved (by simp [state])) plain done
  | writeRequest req =>
    exact settled fun d done =>
      writeRequest_tuned follows (fun state => parting.resolved (by simp [state])) plain done
  | writeMessage message =>
    refine settled fun d done => .inl ?_
    obtain rfl | ⟨may, -⟩ := writeMessage_cases done
    · exact plain
    · unfold mayWriteMessage at may
      split at may
      · rename_i state
        exact absurd (.inr (by rw [state]; rfl)) plain
      · rename_i state
        exact absurd (.inl state) plain
      · cases may
  | arrive arrivals => exact .inl plain
  | plan sends => exact .inl plain
  | notify canRead canWrite =>
    left
    simp only [perform, TcpSocket.notify]
    split
    · exact plain
    · exact plain
  | dispatch =>
    left
    simp only [perform, ClientConnection.dispatch]
    split
    · exact sockHandler_plain (c := c.socketEvent) plain
    · exact plain
  | shutdownTimer =>
    left
    simp only [perform, shutdownTimerHandler]
    split
    · exact sockHandler_plain plain
    · exact plain

/-- A connection that starts talks HTTP, unless a request to upgrade waited for its
name. -/
private theorem starts_tuned (parting : RequestFramingProofs.Parting c)
    (follows : Follows arrived responses c) (op : ClientRun.ClientOp) (again : starts c op = true) :
    ¬Upgrading (perform c op).conn ∨ (perform c op).conn.state = .webUpgradeResponseHeader ∧
      Tuned [] [] (perform c op).conn.reader.webMessage [] (perform c op).conn := by
  cases op <;> simp only [starts, Bool.false_eq_true] at again
  case connectAddress host port result =>
    left
    simp only [perform, ClientConnection.connectAddress]
    split <;> simp [Upgrading, close, isWeb]
  case connectHost host port protocol =>
    left
    rw [perform, settleAfter_conn, ClientConnection.connectHost]
    split <;> simp [Upgrading, close, isWeb]
  case close => exact .inl (by simp [perform, Upgrading, close, isWeb])
  case dnsHandler result =>
    have state := parting.resolving again
    have silent : c.readBuffer.size = 0 := by
      rcases follows.state with ⟨used, text, reading⟩ | silent | upgrading
      · have stands := reading.stands
        simp [ResponseStreamProofs.Stands, state] at stands
      · exact silent.drained
      · simp [Upgrading, state, isWeb] at upgrading
    have resolving : ∀ dnsOpen, ¬Upgrading { c with dnsOpen := dnsOpen } := by
      simp [Upgrading, state, isWeb]
    rw [perform, settleAfter_conn]
    unfold ClientConnection.dnsHandler
    simp only [again, Bool.not_true, Bool.false_eq_true, ↓reduceIte]
    split
    · exact .inl (by simp [Upgrading, close, isWeb])
    · split
      · exact .inl (resolving false)
      · split
        · exact .inl (by simp [Upgrading, close, isWeb])
        · rename_i connected
          have open_ := connect_follows (d := { c with
            dnsOpen := false, sock := (c.sock.connect _).2
            state := .waitingWriteRequest }) rfl rfl (by simpa using connected) silent
          split
          · exact .inl (by simp [Upgrading, isWeb])
          · split
            · exact .inl (by simp [Upgrading, isWeb])
            · rename_i written done
              rcases writeRequest_tuned open_ (fun _ => rfl) (by simp [Upgrading, isWeb]) done with
                plain | ⟨state, tuned⟩
              · exact .inl plain
              · exact .inr ⟨state, tuned.writes (d := { written with waitingRequest := none })
                  (Extends.refl _) rfl rfl rfl rfl rfl rfl⟩

end Asked

section Runs
open ResponseStreamProofs (InStep receive_inStep inStep_start)

/-- A run of a connection with the messages it delivered since it was connected. `left`
is the message that had been begun when the upgrade was asked for. -/
structure Heard extends Received where
  messages : List WebMessage := []
  left : Option WebMessage := none

def hear (r : Heard) (op : ClientRun.ClientOp) : Heard :=
  let effect := perform r.conn op
  { toReceived := receive r.toReceived op
    messages := if starts r.conn op then [] else r.messages ++ effect.message.toList
    left := if effect.conn.state = .webUpgradeResponseHeader then
      effect.conn.reader.webMessage else r.left }

/-- An open connection that was upgraded, with nothing left to read. -/
structure Rests (c : ClientConnection) : Prop where
  valid : c.sock.sock.fdValid = true
  unasked : c.sock.writeShutdownAsked = false
  web : isWeb c.state = true
  drained : c.readBuffer.size = 0
  empty : brought c.sock.sock.descriptor.incoming = []

/-- The messages were heard behind an answer in what arrived. -/
structure Told (responses : List Response) (arrived : Bytes) (left : Option WebMessage)
    (delivered : List WebMessage) : Prop where
  heard : ∃ base head p used chunks text, Cuts responseCutter base responses [] ∧
    responseStages.InHead head p ∧ p.isGood = true ∧
    Cuts chunkCutter used chunks text ∧ base ++ head ++ used <+: arrived ∧
    delivered <+: (heard left chunks).messages

/-- A connection in touch with the bytes behind its upgrade. -/
structure InTouch (r : Heard) : Prop where
  inStep : InStep r.toReceived
  told : r.messages = [] ∨ Told r.responses r.arrived r.left r.messages
  tuned : Upgrading r.conn → Tuned r.responses r.arrived r.left r.messages r.conn
  quiet : ¬Upgrading r.conn → r.messages = [] ∨ Closed r.conn

variable {r : Heard}

theorem Told.more (told : Told responses arrived left delivered) (more : Bytes) :
    Told responses (arrived ++ more) left delivered := by
  obtain ⟨base, head, p, used, chunks, text, cuts, inHead, good, cuts', placed, first⟩ := told.heard
  exact ⟨base, head, p, used, chunks, text, cuts, inHead, good, cuts',
    placed.trans (List.prefix_append _ _), first⟩

private theorem Tuned.told (tuned : Tuned responses arrived left delivered c) :
    delivered = [] ∨ Told responses arrived left delivered := by
  rcases tuned.mode with ⟨-, nothing⟩ | ⟨base, head, p, cuts, inHead, answer, state, -, hears⟩
  · exact .inl nothing
  · obtain ⟨used, chunks, text, cuts', placed, first⟩ := hears.cut
    exact .inr ⟨base, head, p, used, chunks, text, cuts, inHead, answer.good, cuts', placed,
      (List.prefix_append _ _).trans first⟩

private theorem Tuned.begun (tuned : Tuned responses arrived left delivered c)
    (state : c.state = .webUpgradeResponseHeader) :
    c.reader.webMessage = left := by
  rcases tuned.mode with ⟨awaits, -⟩ | ⟨-, -, -, -, -, -, web, here, -⟩
  · exact awaits.begun
  · simp [here] at state

private theorem reach {arrived : Bytes} (same : base ++ head ++ used ++ later = arrived) :
    arrived = base ++ head ++ (used ++ later) := by
  rw [← same, List.append_assoc]

private theorem closed_plain (closed : Closed c) : ¬Upgrading c := by
  simp [Upgrading, closed.state, isWeb]

/-- Nothing happens to a closed connection before it connects again. -/
private theorem perform_closed (closed : Closed c) (op : ClientRun.ClientOp)
    (same : starts c op = false) :
    Closed (perform c op).conn ∧ (perform c op).response = none := by
  have shut : c.isOpen = false := by simp [ClientConnection.isOpen, closed.resolved, closed.closed]
  obtain ⟨invalid, idle⟩ : c.sock.sock.fdValid = false ∧ c.sock.sock.pending = false := by
    simpa [BufferedTcpSocket.isOpen, TcpSocket.isOpen] using closed.closed
  cases op with
  | connectAddress host port result => simp [starts] at same
  | connectHost host port protocol => simp [starts] at same
  | close => simp [starts] at same
  | dnsHandler result =>
    simpa [perform, ClientConnection.dnsHandler, closed.resolved, settleAfter] using closed
  | readNextResponse => simpa [perform, readNextResponse, closed.state] using closed
  | readNextMessage => simpa [perform, readNextMessage, closed.state] using closed
  | webSocketUpgrade rh rdata =>
    simpa [perform, webSocketUpgrade, writeRequest, shut, settle, pure, Except.pure] using closed
  | writeRequest req => simpa [perform, writeRequest, shut, settle, pure, Except.pure] using closed
  | writeMessage message =>
    simpa [perform, ClientConnection.writeMessage, shut, settle, pure, Except.pure] using closed
  | arrive arrivals => simpa [perform, TcpSocket.arrive, invalid] using closed
  | plan sends => exact ⟨⟨closed.state, closed.resolved, closed.closed⟩, rfl⟩
  | notify canRead canWrite => simpa [perform, TcpSocket.notify, invalid] using closed
  | dispatch => simpa [perform, ClientConnection.dispatch, idle] using closed
  | shutdownTimer =>
    simp only [perform, shutdownTimerHandler]
    split
    · have gone : c.sock.shutdownTimerHandler.isOpen = false := close_isOpen_false _
      simp only [ClientConnection.sockHandler, gone, Bool.not_false, ↓reduceIte]
      exact ⟨closed_close _, trivial⟩
    · exact ⟨closed, trivial⟩

theorem hear_inTouch (r : Heard) (op : ClientRun.ClientOp) (inTouch : InTouch r) :
    InTouch (hear r op) := by
  have inStep := receive_inStep r.toReceived op inTouch.inStep
  cases again : starts r.conn op with
  | true =>
    have same : receive r.toReceived op = ⟨(perform r.conn op).conn, [], []⟩ := by simp [receive, again]
    simp only [hear, again, ↓reduceIte, same] at inStep ⊢
    rcases starts_tuned inTouch.inStep.parting inTouch.inStep.follows op again with
      plain | ⟨state, tuned⟩
    · exact ⟨inStep, .inl rfl, fun upgrading => absurd upgrading plain, fun _ => .inl rfl⟩
    · simp only [state, ↓reduceIte]
      exact ⟨inStep, .inl rfl, fun _ => tuned, fun _ => .inl rfl⟩
  | false =>
    have same : receive r.toReceived op =
        ⟨(perform r.conn op).conn, r.arrived ++ reached r.conn op,
          r.responses ++ (perform r.conn op).response.toList⟩ := by
      simp [receive, again]
    simp only [hear, again, Bool.false_eq_true, ↓reduceIte, same] at inStep ⊢
    by_cases before : Upgrading r.conn
    · obtain ⟨none, after⟩ := perform_tuned (inTouch.tuned before) op again
      simp only [none, Option.toList_none, List.append_nil] at inStep ⊢
      rcases after with ⟨silent, closed⟩ | tuned
      · have unasked : (perform r.conn op).conn.state ≠ .webUpgradeResponseHeader := by
          simp [closed.state]
        simp only [silent, Option.toList_none, List.append_nil, unasked, ↓reduceIte]
        exact ⟨inStep, inTouch.told.imp id fun told => told.more _, fun upgrading =>
          absurd upgrading (closed_plain closed), fun _ => .inr closed⟩
      · have kept :
            (if (perform r.conn op).conn.state = .webUpgradeResponseHeader then
            (perform r.conn op).conn.reader.webMessage else r.left) = r.left := by
          split
          · rename_i state
            exact tuned.begun state
          · rfl
        rw [kept]
        exact ⟨inStep, tuned.told, fun _ => tuned, fun plain => absurd tuned.upgrading plain⟩
    · have unready : r.conn.state ≠ .web .ready := fun state => before (.inr (by rw [state]; rfl))
      simp only [message_none op unready, Option.toList_none, List.append_nil]
      rcases inTouch.quiet before with silent | closed
      · simp only [silent]
        rcases perform_plain inTouch.inStep.follows inTouch.inStep.parting before op again with
          plain | ⟨nothing, none, state, tuned⟩
        · exact ⟨inStep, .inl rfl, fun upgrading => absurd upgrading plain, fun _ => .inl rfl⟩
        · simp only [nothing, none, state, Option.toList_none, List.append_nil, ↓reduceIte] at inStep ⊢
          exact ⟨inStep, .inl rfl, fun _ => tuned, fun _ => .inl rfl⟩
      · obtain ⟨closed', none⟩ := perform_closed closed op again
        have unasked : (perform r.conn op).conn.state ≠ .webUpgradeResponseHeader := by
          simp [closed'.state]
        simp only [none, Option.toList_none, List.append_nil, unasked, ↓reduceIte] at inStep ⊢
        exact ⟨inStep, inTouch.told.imp id fun told => told.more _, fun upgrading =>
          absurd upgrading (closed_plain closed'), fun _ => .inr closed'⟩

theorem inTouch_start (keys : List UInt32) : InTouch { conn := { keys := keys } } :=
  ⟨inStep_start keys, .inl rfl, fun upgrading => by simp [Upgrading, isWeb] at upgrading,
    fun _ => .inl rfl⟩

end Runs
end Crablib.UpgradeStreamProofs
