import Crablib.Exchange
import Crablib.WebModeProofs

/-! Requests and responses of a server connection pair up. The log of a run is
what its operations took and emitted; the connection's state is the phase of
the exchange that the log leads to, so every log is accepted. -/
namespace Crablib.PairingProofs
open Http ServerConnection ServerRun StreamsProofs SocketProofs InboundProofs
open ServerConnectionProofs ServerEndProofs
open WebModeProofs
open Exchange (Entry Phase started)

/-- Where the exchange stands. -/
def phaseOf (c : ServerConnection) : Phase :=
  match c.state with
  | .requestHeader => .idle
  | .requestBody => .idle
  | .requestReady => .idle
  | .responseHeader => .owed
  | .responseBody => started c.remainingBodyContentLength
  | .web _ => .upgraded

/-- The bytes the outgoing stream of one connection has more than the other. -/
def grown (c d : ServerConnection) : Bytes := (stream d.sock).drop (stream c.sock).length

/-- The log of a call that returned. -/
def ifReturned (result : Except Error ServerConnection)
    (log : ServerConnection → List Entry) : List Entry :=
  match result with
  | .ok d => log d
  | .error _ => []

def headerEntries (c : ServerConnection) (resp : ResponseHeader) : List Entry :=
  if c.isOpen then [.header (c.completeHeader resp).toString (resp.contentLength.map UInt64.toNat)]
    else []

def bodyEntries (c : ServerConnection) (val : Bytes) : List Entry :=
  match c.remainingBodyContentLength with
  | some remaining => if remaining - val.length = 0 then [.data val, .complete []] else [.data val]
  | none => if val.length = 0 then [] else [.chunk val (hex val.length ++ crlf ++ val ++ crlf)]

def lastEntries : List Entry := [.complete (str "0\r\n\r\n")]

def responseEntries (c : ServerConnection) (resp : Response) : List Entry :=
  let chunked := resp.header.transferEncodingChunked
  if !c.isOpen then []
  else
    ifReturned (c.writeHeader resp.header .bufferOnly) fun withHeader =>
      headerEntries c resp.header ++
        ifReturned (withHeader.writeString resp.body (if chunked then .bufferOnly else .write))
          fun withBody =>
          bodyEntries withHeader resp.body ++
            if chunked then ifReturned (withBody.writeLastChunk .write) fun _ => lastEntries else []

/-- What an operation took and emitted. After the upgrade everything emitted
belongs to web messages. -/
def entries (c : ServerConnection) (op : ServerOp) : List Entry :=
  if c.isStateWebsocket then [.web (grown c (perform c op).conn)]
  else
    match op with
    | .readNextRequest => if c.readNextRequest.1.isSome then [.request] else []
    | .webSocketUpgrade =>
      ifReturned c.webSocketUpgrade fun _ => if c.isOpen then [.upgrade c.upgradeResponse.toString]
        else []
    | .writeResponse resp => responseEntries c resp
    | .writeHeader resp bo => ifReturned (c.writeHeader resp bo) fun _ => headerEntries c resp
    | .writeData val bo => ifReturned (c.writeData val bo) fun _ => bodyEntries c val
    | .writeString ss bo => ifReturned (c.writeString ss bo) fun _ => bodyEntries c ss
    | .writeLastChunk bo => ifReturned (c.writeLastChunk bo) fun _ => lastEntries
    | _ => []

/-- A connection, its outgoing stream when it was accepted, and the log since. -/
structure Ledger where
  conn : ServerConnection := {}
  base : Bytes := []
  log : List Entry := []

def record (l : Ledger) (op : ServerOp) : Ledger :=
  let next := (perform l.conn op).conn
  if reopens op then ⟨next, stream next.sock, []⟩ else ⟨next, l.base, l.log ++ entries l.conn op⟩

variable {c d : ServerConnection}

/-- An open connection in HTTP mode. Only between responses can the shutdown
have been asked for, and no request follows then. -/
structure Serving (c : ServerConnection) : Prop where
  opened : c.isOpen = true
  http : c.isStateWebsocket = false
  plain : c.writingWebMessageBody = false
  ended : c.sock.writeShutdownAsked = true → Sealed c ∧ phaseOf c = .idle

/-- A connection after its close; nothing happens to it until it is accepted. -/
structure Dead (c : ServerConnection) : Prop where
  closed : c.isOpen = false
  state : c.state = .requestHeader
  plain : c.writingWebMessageBody = false
  pingTimer : c.wmPingTimer = false
  shutdownTimer : c.sock.shutdownTimer = false

theorem dead_close (c : ServerConnection) : Dead c.close :=
  ⟨close_isOpen_false c.sock.sock, rfl, rfl, rfl, rfl⟩

/-- The effect of operations in HTTP mode: the stream grows by the log, and the
phase advances along it. -/
structure Step (c d : ServerConnection) (log : List Entry) : Prop where
  serving : Serving d
  stream : stream d.sock = stream c.sock ++ log.flatMap Entry.bytes
  phase : Exchange.run (phaseOf c) log = some (phaseOf d)

theorem Step.refl (serving : Serving c) : Step c c [] := ⟨serving, by simp, rfl⟩

theorem Step.trans {e : ServerConnection} {r s : List Entry} (front : Step c d r)
    (back : Step d e s) : Step c e (r ++ s) where
  serving := back.serving
  stream := by rw [back.stream, front.stream, List.flatMap_append, List.append_assoc]
  phase := by simp only [Exchange.run_append, front.phase, Option.bind_some, back.phase]

theorem Serving.unasked (serving : Serving c) (busy : phaseOf c ≠ .idle) :
    c.sock.writeShutdownAsked = false := by
  cases asked : c.sock.writeShutdownAsked with
  | false => rfl
  | true => exact absurd (serving.ended asked).2 busy

theorem Serving.takes (serving : Serving c) (busy : phaseOf c ≠ .idle) (val : Bytes) :
    takes c.sock val = val :=
  takes_of_open serving.opened (serving.unasked busy) val

/-- A write in the middle of a response. -/
private theorem serving_of_extends {bytes : Bytes} (serving : Serving c) (busy : phaseOf c ≠ .idle)
    (extends_ : Extends c.sock d.sock bytes) (http : d.isStateWebsocket = false)
    (plain : d.writingWebMessageBody = false) : Serving d where
  opened := extends_.isOpen.trans serving.opened
  http := http
  plain := plain
  ended := fun asked => by simp [extends_.asked, serving.unasked busy] at asked

theorem step_writeHeader {resp : ResponseHeader} {bo : BufferOptions} (serving : Serving c)
    (done : c.writeHeader resp bo = .ok d) : Step c d (headerEntries c resp) := by
  obtain ⟨closed, -⟩ | ⟨opened, state, -, -, rfl⟩ := writeHeader_ok done
  · simp [serving.opened] at closed
  · have busy : phaseOf c ≠ .idle := by simp [phaseOf, state]
    have extends_ := writeString_extends c.sock (c.completeHeader resp).toString bo
    rw [serving.takes busy] at extends_
    refine ⟨serving_of_extends serving busy extends_ rfl serving.plain, ?_, ?_⟩
    · simpa [headerEntries, opened, sendHeader, Entry.bytes] using extends_.stream
    · simp [headerEntries, opened, phaseOf, state, sendHeader, Exchange.advance]

/-- The end of a response, in a state where its last bytes were just written. -/
theorem step_finishResponse {t : Bytes} (serving : Serving c) (busy : phaseOf c ≠ .idle)
    (stop : Exchange.advance (phaseOf c) (.complete t) = some .idle) :
    Serving c.finishResponse ∧ stream c.finishResponse.sock = stream c.sock ∧
      Exchange.advance (phaseOf c) (.complete t) = some (phaseOf c.finishResponse) := by
  have unasked := serving.unasked busy
  simp only [finishResponse]
  split
  · obtain ⟨same, opened⟩ := writeShutdown_keeps c.sock
    refine ⟨⟨opened.trans serving.opened, rfl, serving.plain,
      fun _ => ⟨⟨shut_writeShutdown _, rfl, by simp⟩, rfl⟩⟩, same, stop⟩
  · refine ⟨⟨serving.opened, rfl, serving.plain, fun asked => ?_⟩, rfl, stop⟩
    simp [unasked] at asked

theorem step_writeBody {send : Send} {val : Bytes} {bo : BufferOptions}
    (sends : ∀ s, Extends s (send s val bo) (takes s val)) (serving : Serving c)
    (done : c.writeBody send val bo = .ok d) : Step c d (bodyEntries c val) := by
  obtain ⟨writing, -⟩ | ⟨-, state, body⟩ := writeBody_ok done
  · simp [serving.plain] at writing
  · obtain ⟨remaining, counted, fits, rfl⟩ | ⟨chunked, rfl⟩ := body
    · have phase : phaseOf c = .counted remaining := by simp [phaseOf, state, counted, started]
      have busy : phaseOf c ≠ .idle := by simp [phase]
      have extends_ := sends c.sock
      rw [serving.takes busy] at extends_
      have wrote : Step c { c with
          remainingBodyContentLength := some (remaining - val.length)
          sock := send c.sock val bo } [.data val] := by
        refine ⟨serving_of_extends serving busy extends_ serving.http serving.plain, ?_, ?_⟩
        · simpa [Entry.bytes] using extends_.stream
        · simp [Exchange.advance, fits, phaseOf, state, counted, started]
      simp only [sendCounted, bodyEntries, counted]
      split
      · rename_i last
        obtain ⟨after, same, advanced⟩ := step_finishResponse (t := []) wrote.serving
          (by simp [phaseOf, state, started]) (by simp [phaseOf, state, started, last, Exchange.advance])
        refine Step.trans (s := [.complete []]) wrote ⟨after, ?_, ?_⟩
        · simpa [Entry.bytes] using same
        · simpa using advanced
      · exact wrote
    · have phase : phaseOf c = .chunked := by simp [phaseOf, state, chunked, started]
      have busy : phaseOf c ≠ .idle := by simp [phase]
      simp only [sendChunk, bodyEntries, chunked]
      split
      · exact Step.refl serving
      · have size := buffer_extends c.sock (hex val.length ++ crlf)
        have payload := buffer_extends (c.sock.buffer (hex val.length ++ crlf)) val
        have ending := write_extends ((c.sock.buffer (hex val.length ++ crlf)).buffer val) crlf bo
        rw [payload.takes, size.takes, serving.takes busy] at ending
        rw [size.takes, serving.takes busy] at payload
        rw [serving.takes busy] at size
        have extends_ := (size.trans payload).trans ending
        refine ⟨serving_of_extends serving busy extends_ serving.http serving.plain, ?_, ?_⟩
        · simpa [Entry.bytes] using extends_.stream
        · simp [Exchange.advance, phaseOf, state, chunked, started]

theorem step_writeLastChunk {bo : BufferOptions} (serving : Serving c)
    (done : c.writeLastChunk bo = .ok d) :
    Step c d lastEntries := by
  obtain ⟨writing, -⟩ | ⟨-, state, chunked, rfl⟩ := writeLastChunk_ok done
  · simp [serving.plain] at writing
  · have phase : phaseOf c = .chunked := by simp [phaseOf, state, chunked, started]
    have busy : phaseOf c ≠ .idle := by simp [phase]
    have extends_ := writeString_extends c.sock (str "0\r\n\r\n") bo
    rw [serving.takes busy] at extends_
    have wrote : Serving { c with sock := c.sock.writeString (str "0\r\n\r\n") bo } :=
      serving_of_extends serving busy extends_ serving.http serving.plain
    obtain ⟨after, same, advanced⟩ := step_finishResponse (t := str "0\r\n\r\n") wrote busy
      (by simp [phaseOf, state, chunked, started, Exchange.advance])
    refine ⟨after, ?_, ?_⟩
    · simpa [sendLastChunk, lastEntries, Entry.bytes, extends_.stream] using same
    · have stopped : Exchange.advance (phaseOf c) (.complete (str "0\r\n\r\n")) =
        some (phaseOf (c.sendLastChunk bo)) := advanced
      simp [lastEntries, stopped]

private theorem step_ifReturned {result : Except Error ServerConnection}
    {log : ServerConnection → List Entry} (serving : Serving c)
    (after : ∀ d, result = .ok d → Step c d (log d)) :
    Step c (settle c result).conn (ifReturned result log) := by
  cases result with
  | error e => exact Step.refl serving
  | ok d => exact after d rfl

theorem step_writeResponse (serving : Serving c) (resp : Response) :
    Step c (c.writeResponse resp).2 (responseEntries c resp) := by
  simp only [writeResponse, responseEntries, serving.opened, Bool.not_true,
    Bool.false_eq_true, ↓reduceIte]
  cases header : c.writeHeader resp.header .bufferOnly with
  | error e => exact Step.refl serving
  | ok withHeader =>
    have first := step_writeHeader serving header
    simp only [ifReturned]
    generalize (if resp.header.transferEncodingChunked = true then
      BufferOptions.bufferOnly else .write) = bo
    cases body : withHeader.writeString resp.body bo with
    | error e => simpa using first
    | ok withBody =>
      have second := first.trans
        (step_writeBody (fun s => writeString_extends s _ bo) first.serving body)
      simp only
      split
      · cases last : withBody.writeLastChunk .write with
        | error e => simpa using second
        | ok done => simpa using second.trans (step_writeLastChunk second.serving last)
      · simpa using second

/-- A pass in HTTP mode parses: it sends nothing and stays between responses
if it was there. -/
private theorem switchState_http (http : c.isStateWebsocket = false) :
    c.switchState.2.sock = c.sock ∧ c.switchState.2.isStateWebsocket = false ∧
      c.switchState.2.writingWebMessageBody = c.writingWebMessageBody ∧
      phaseOf c.switchState.2 = phaseOf c := by
  have body : ∀ c : ServerConnection, c.state = .requestBody →
      c.readRequestBody.2.sock = c.sock ∧ c.readRequestBody.2.isStateWebsocket = false ∧
        c.readRequestBody.2.writingWebMessageBody = c.writingWebMessageBody ∧
        phaseOf c.readRequestBody.2 = .idle := by
    intro c state
    unfold readRequestBody
    split
    · simp [isStateWebsocket, phaseOf, state]
    · simp only
      split <;> simp [isStateWebsocket, phaseOf, state]
  unfold switchState
  split
  · rename_i state
    unfold readRequestHeader
    split
    · exact ⟨rfl, http, rfl, rfl⟩
    · simp only
      split
      · exact ⟨rfl, http, rfl, rfl⟩
      · obtain ⟨sock, web, writing, phase⟩ := body { c with
          httpBodyParser := _
          requestParser := _
          readBuffer := _
          state := .requestBody } rfl
        exact ⟨sock, web, writing, by simpa [phaseOf, state] using phase⟩
  · rename_i state
    obtain ⟨sock, web, writing, phase⟩ := body c state
    exact ⟨sock, web, writing, by simpa [phaseOf, state] using phase⟩
  · rename_i web
    simp [isStateWebsocket, web] at http
  · rename_i web
    simp [isStateWebsocket, web] at http
  · exact ⟨rfl, http, rfl, rfl⟩

private theorem step_turn (serving : Serving c) : Step c c.turn.2 [] := by
  obtain ⟨b, sock, quiet, stopped | switched⟩ := turn_cases c
  · have after : Serving c.turn.2 := by
      refine ⟨?_, ?_, ?_, fun asked => ?_⟩
      · rw [stopped]
        exact quiet.isOpen.trans serving.opened
      · rw [stopped]
        exact serving.http
      · rw [stopped]
        exact serving.plain
      · have before : c.sock.writeShutdownAsked = true := by
          rw [stopped] at asked
          exact quiet.asked.symm.trans asked
        refine ⟨sealed_turn (serving.ended before).1, ?_⟩
        rw [stopped]
        exact (serving.ended before).2
    refine ⟨after, ?_, ?_⟩
    · rw [stopped]
      simpa using quiet.stream
    · rw [stopped]
      rfl
  · obtain ⟨same, http, plain, phase⟩ :=
      switchState_http (c := { c with readBuffer := b, sock := sock }) serving.http
    have phase' : phaseOf c.turn.2 = phaseOf c := by
      rw [switched, phase]
      rfl
    refine ⟨⟨?_, ?_, ?_, fun asked => ⟨?_, ?_⟩⟩, ?_, ?_⟩
    · rw [switched, isOpen, same]
      exact quiet.isOpen.trans serving.opened
    · rw [switched, http]
    · rw [switched, plain]
      exact serving.plain
    · rw [switched, same] at asked
      exact sealed_turn (serving.ended (quiet.asked.symm.trans asked)).1
    · rw [switched, same] at asked
      rw [phase']
      exact (serving.ended (quiet.asked.symm.trans asked)).2
    · rw [switched, same]
      simpa using quiet.stream
    · rw [phase']
      rfl

private theorem step_onException (serving : Serving c) (parsing : Parsing c) :
    Step c c.onException [] := by
  obtain ⟨same, opened⟩ := writeShutdown_keeps c.sock
  have idle : phaseOf c = .idle := by
    rcases parsing with header | body | web
    · simp [phaseOf, header]
    · simp [phaseOf, body]
    · simp [serving.http] at web
  refine ⟨⟨opened.trans serving.opened, serving.http, serving.plain,
    fun _ => ?_⟩, by simpa [onException] using same, rfl⟩
  exact ⟨sealed_onException parsing.unready, idle⟩

theorem step_advanceState (serving : Serving c) : Step c c.advanceState.2 [] := by
  refine advanceState_preserves (P := fun d => Step c d []) (fun d step => ?_)
    (fun d e next step thrown => ?_) (Step.refl serving)
  · exact step.trans (step_turn step.serving)
  · have turned := step_turn step.serving
    rw [thrown] at turned
    exact (step.trans turned).trans (step_onException turned.serving (turn_throws thrown))

/-- Changes of the kernel side that `asked` and the streams do not see. -/
theorem step_of_sock {sock : BufferedTcpSocket} (serving : Serving c)
    (opened : sock.isOpen = true) (asked : sock.writeShutdownAsked = c.sock.writeShutdownAsked)
    (shut : Shut c.sock → Shut sock) (same : stream sock = stream c.sock) :
    Step c { c with sock := sock } [] where
  serving :=
    { opened := opened
      http := serving.http
      plain := serving.plain
      ended := fun asked' => by
        obtain ⟨ended, idle⟩ := serving.ended (asked.symm.trans asked')
        exact ⟨⟨shut ended.shut, ended.drained, ended.unready⟩, idle⟩ }
  stream := by simpa using same
  phase := rfl

/-- A socket event in HTTP mode leaves the connection closed, or takes a step. -/
private theorem dispatch_serving (serving : Serving c) : Dead c.dispatch.2 ∨ Step c c.dispatch.2 [] := by
  unfold dispatch
  split
  · unfold ServerConnection.sockHandler
    split
    · exact .inl (dead_close _)
    · rename_i open_
      have opened : c.socketEvent.sock.isOpen = true := by simpa [isOpen] using open_
      have event : Step c c.socketEvent [] := by
        have spec := sockHandler_keeps { c.sock with sock.pending := false } opened
        exact step_of_sock serving opened spec.1 (fun shut => shut_sockHandler shut) spec.2
      split
      · exact .inr event
      · exact .inr (event.trans (step_advanceState event.serving))
  · exact .inr (Step.refl serving)

/-- An operation of an open connection in HTTP mode. -/
theorem perform_serving (serving : Serving c) (op : ServerOp) (same : reopens op = false) :
    Dead (perform c op).conn ∧ entries c op = [] ∨
      (Step c (perform c op).conn (entries c op) ∨
        (perform c op).conn.isOpen = true ∧ (perform c op).conn.isStateWebsocket = true ∧
          stream (perform c op).conn.sock = stream c.sock ++ (entries c op).flatMap Entry.bytes ∧
          Exchange.run (phaseOf c) (entries c op) = some (phaseOf (perform c op).conn)) := by
  simp only [entries, serving.http, Bool.false_eq_true, ↓reduceIte]
  cases op with
  | accept accepted =>
    cases accepted with
    | missing => exact .inl ⟨dead_close c, rfl⟩
    | ready => simp [reopens] at same
    | refused => simp [reopens] at same
  | close => exact .inl ⟨dead_close c, rfl⟩
  | readNextRequest =>
    right
    left
    simp only [perform, readNextRequest]
    split
    · exact Step.refl serving
    · rename_i ready
      have ready' : c.state = .requestReady := by simpa using ready
      have taken : Step c c.takeRequest [.request] := by
        refine ⟨⟨serving.opened, rfl, serving.plain, fun asked => ?_⟩, by
          simp [takeRequest, Entry.bytes], ?_⟩
        · exact absurd ready' (serving.ended asked).1.unready
        · simp [phaseOf, ready', takeRequest, Exchange.advance]
      simpa using taken.trans (step_advanceState taken.serving)
  | readNextMessage =>
    right
    left
    have unready : c.state ≠ .web .ready := by
      intro web
      simpa [isStateWebsocket, web] using serving.http
    simpa [perform, readNextMessage, unready] using Step.refl serving
  | webSocketUpgrade =>
    right
    simp only [perform]
    cases done : c.webSocketUpgrade with
    | error e => exact .inl (Step.refl serving)
    | ok d =>
      obtain ⟨closed, -⟩ | ⟨opened, state, -, rfl⟩ := webSocketUpgrade_ok done
      · simp [serving.opened] at closed
      · have busy : phaseOf c ≠ .idle := by simp [phaseOf, state]
        have extends_ := writeString_extends c.sock c.upgradeResponse.toString .write
        rw [serving.takes busy] at extends_
        refine .inr ⟨extends_.isOpen.trans opened, rfl, ?_, ?_⟩
        · simpa [ifReturned, opened, Entry.bytes, settle, sendUpgrade] using extends_.stream
        · simp [ifReturned, opened, phaseOf, state, settle, sendUpgrade, Exchange.advance]
  | writeResponse resp =>
    right
    left
    rw [perform, settleAfter_conn]
    exact step_writeResponse serving resp
  | writeHeader resp bo => exact .inr (.inl (step_ifReturned serving fun d => step_writeHeader serving))
  | writeMessage message bo =>
    refine .inr (.inl (settle_conn (P := fun d => Step c d []) (Step.refl serving) fun d done => ?_))
    obtain ⟨closed, -⟩ | ⟨-, web, -⟩ := writeMessage_ok done
    · simp [serving.opened] at closed
    · simp [serving.http] at web
  | writeOpcode opcode =>
    refine .inr (.inl (settle_conn (P := fun d => Step c d []) (Step.refl serving) fun d done => ?_))
    obtain ⟨closed, -⟩ | ⟨-, web, -⟩ := writeOpcode_ok done
    · simp [serving.opened] at closed
    · simp [serving.http] at web
  | writeData val bo =>
    exact .inr (.inl (step_ifReturned serving fun d =>
      step_writeBody (fun s => write_extends s val bo) serving))
  | writeString ss bo =>
    exact .inr (.inl (step_ifReturned serving fun d =>
      step_writeBody (fun s => writeString_extends s ss bo) serving))
  | writeLastChunk bo => exact .inr (.inl (step_ifReturned serving fun d => step_writeLastChunk serving))
  | arrive arrivals =>
    right
    left
    simp only [perform, TcpSocket.arrive]
    split
    · exact step_of_sock serving serving.opened rfl id rfl
    · exact Step.refl serving
  | plan sends => exact .inr (.inl (step_of_sock serving serving.opened rfl id rfl))
  | notify canRead canWrite =>
    right
    left
    simp only [perform, TcpSocket.notify]
    split
    · refine step_of_sock serving ?_ rfl id rfl
      simp [BufferedTcpSocket.isOpen, TcpSocket.isOpen, TcpSocket.addPendingCallable]
    · exact Step.refl serving
  | dispatch =>
    rcases dispatch_serving serving with dead | step
    · exact .inl ⟨dead, rfl⟩
    · exact .inr (.inl step)
  | pingTimer =>
    refine .inr (.inl (settle_conn (P := fun d => Step c d []) (Step.refl serving) fun d done => ?_))
    obtain rfl | ⟨pinged, rfl, rfl | sent⟩ := onWmPingTimer_ok done
    · exact Step.refl serving
    · have extends_ := writeString_extends c.sock [] .write
      have flushed := step_of_sock serving (extends_.isOpen.trans serving.opened) extends_.asked
        (fun shut => shut_extends shut extends_) (by simpa [SocketProofs.takes] using extends_.stream)
      refine ⟨⟨flushed.serving.opened, serving.http, serving.plain, fun asked => ?_⟩,
        flushed.stream, rfl⟩
      obtain ⟨ended, idle⟩ := flushed.serving.ended asked
      exact ⟨⟨ended.shut, ended.drained, ended.unready⟩, idle⟩
    · obtain ⟨closed, -⟩ | ⟨-, web, -⟩ := writeMessage_ok sent
      · have opened := serving.opened
        simp_all [isOpen]
      · have http := serving.http
        simp_all [isStateWebsocket]
  | shutdownTimer =>
    simp only [perform, shutdownTimerHandler]
    split
    · left
      have closed : (c.sock.shutdownTimerHandler).isOpen = false := close_isOpen_false _
      simp only [ServerConnection.sockHandler, isOpen, closed, Bool.not_false, ↓reduceIte]
      exact ⟨dead_close _, trivial⟩
    · exact .inr (.inl (Step.refl serving))

/-- An open connection in web-socket mode that emitted something. -/
structure Talked (c d : ServerConnection) : Prop where
  opened : d.isOpen = true
  web : d.isStateWebsocket = true
  stream : ∃ bytes, stream d.sock = stream c.sock ++ bytes

/-- Every elementary step in web-socket mode only adds to the stream. -/
private theorem stream_grows :
    WebRule (fun _ => True) fun c d => ∃ bytes,
      SocketProofs.stream d.sock = SocketProofs.stream c.sock ++ bytes where
  short := fun _ _ => trivial
  trans := by
    rintro c d e ⟨front, same⟩ ⟨back, same'⟩
    exact ⟨front ++ back, by rw [same', same, List.append_assoc]⟩
  silent := fun silent => ⟨[], by rw [silent.stream, List.append_nil]⟩
  message := by
    intro c d message bo _ _ done
    obtain ⟨-, rfl⟩ | ⟨-, -, rfl⟩ := writeMessage_ok done
    · exact ⟨[], (List.append_nil _).symm⟩
    · have sent := (buffer_extends c.sock
        (webMessageHeader true message.opcode.toNat (payload message).length none)).trans
        (writeString_extends _ (payload message) bo)
      simp only [sendMessage]
      split
      · exact ⟨_, (writeShutdown_keeps _).1.trans sent.stream⟩
      · exact ⟨_, sent.stream⟩
  opcode := by
    intro c d opcode _ done
    obtain ⟨-, rfl⟩ | ⟨-, -, -, rfl⟩ := writeOpcode_ok done
    · exact ⟨[], (List.append_nil _).symm⟩
    · exact ⟨_, (buffer_extends c.sock _).stream⟩
  frame := by
    intro c send val bo sends _ _ _
    unfold sendFrame
    split
    · exact ⟨[], (List.append_nil _).symm⟩
    · exact ⟨_, ((buffer_extends c.sock _).trans (sends _)).stream⟩
  last := fun _ _ => ⟨_, (write_extends _ _ _).stream⟩

/-- An operation in web-socket mode: no way leads back to requests. -/
theorem perform_web (opened : c.isOpen = true) (web : c.isStateWebsocket = true) (op : ServerOp)
    (same : reopens op = false) : Dead (perform c op).conn ∨ Talked c (perform c op).conn := by
  rcases perform_webRule stream_grows ⟨opened, web⟩ op same trivial with
    ⟨⟨e, closed⟩, -⟩ | ⟨talking, grows⟩
  · rw [closed]
    exact .inl (dead_close e)
  · exact .inr ⟨talking.opened, talking.web, grows⟩

/-- Nothing but an accept happens to a closed connection. -/
theorem perform_dead (dead : Dead c) (op : ServerOp) (same : reopens op = false) :
    Dead (perform c op).conn ∧ entries c op = [] := by
  have invalid : c.sock.sock.fdValid = false := by
    have closed := dead.closed
    simp only [isOpen, BufferedTcpSocket.isOpen, TcpSocket.isOpen, Bool.or_eq_false_iff] at closed
    exact closed.1
  have idle : c.sock.sock.pending = false := by
    have closed := dead.closed
    simp only [isOpen, BufferedTcpSocket.isOpen, TcpSocket.isOpen, Bool.or_eq_false_iff] at closed
    exact closed.2
  have http : c.isStateWebsocket = false := by simp [isStateWebsocket, dead.state]
  have throws : c.isWritingBody = false := by simp [isWritingBody, dead.state, dead.plain]
  simp only [entries, http, Bool.false_eq_true, ↓reduceIte]
  cases op with
  | accept accepted =>
    cases accepted with
    | missing => exact ⟨dead_close c, rfl⟩
    | ready => simp [reopens] at same
    | refused => simp [reopens] at same
  | close => exact ⟨dead_close c, rfl⟩
  | readNextRequest => simpa [perform, readNextRequest, dead.state] using dead
  | readNextMessage => simpa [perform, readNextMessage, dead.state] using dead
  | webSocketUpgrade =>
    simpa [perform, webSocketUpgrade, dead.closed, settle, ifReturned, pure, Except.pure] using dead
  | writeResponse resp =>
    simpa [perform, writeResponse, responseEntries, dead.closed, settleAfter] using dead
  | writeHeader resp bo =>
    simpa [perform, writeHeader, headerEntries, dead.closed, settle, ifReturned, pure,
      Except.pure] using dead
  | writeMessage message bo =>
    simpa [perform, writeMessage, dead.closed, settle, pure, Except.pure] using dead
  | writeOpcode opcode =>
    simpa [perform, writeOpcode, dead.closed, settle, pure, Except.pure] using dead
  | writeData val bo =>
    simpa [perform, writeData, writeBody, throws, invariant, settle, ifReturned, bind,
      Except.bind] using dead
  | writeString ss bo =>
    simpa [perform, writeString, writeBody, throws, invariant, settle, ifReturned, bind,
      Except.bind] using dead
  | writeLastChunk bo =>
    simpa [perform, writeLastChunk, throws, invariant, settle, ifReturned, bind, Except.bind] using dead
  | arrive arrivals => simpa [perform, TcpSocket.arrive, invalid] using dead
  | plan sends => exact ⟨⟨dead.closed, dead.state, dead.plain, dead.pingTimer, dead.shutdownTimer⟩, rfl⟩
  | notify canRead canWrite => simpa [perform, TcpSocket.notify, invalid] using dead
  | dispatch => simpa [perform, dispatch, idle] using dead
  | pingTimer =>
    simpa [perform, onWmPingTimer, dead.pingTimer, settle, pure, Except.pure] using dead
  | shutdownTimer => simpa [perform, shutdownTimerHandler, dead.shutdownTimer] using dead

/-- A connection that was just accepted serves, one that the system refused too:
its end is noticed at the first event. -/
theorem accept_serving (c : ServerConnection) (op : ServerOp) (again : reopens op = true) :
    Serving (perform c op).conn ∧ phaseOf (perform c op).conn = .idle := by
  unfold reopens at again
  split at again
  · refine ⟨⟨rfl, rfl, rfl, fun asked => ?_⟩, rfl⟩
    cases asked
  · refine ⟨⟨rfl, rfl, rfl, fun asked => ?_⟩, rfl⟩
    cases asked
  · simp at again

/-- What a connection can be between two operations. -/
def Mode (c : ServerConnection) : Prop :=
  Dead c ∨ Serving c ∨ c.isOpen = true ∧ c.isStateWebsocket = true

theorem perform_mode (mode : Mode c) (op : ServerOp) : Mode (perform c op).conn := by
  cases again : reopens op with
  | true => exact .inr (.inl (accept_serving c op again).1)
  | false =>
    rcases mode with dead | serving | ⟨opened, web⟩
    · exact .inl (perform_dead dead op again).1
    · rcases perform_serving serving op again with ⟨dead, -⟩ | step | ⟨opened, web, -⟩
      · exact .inl dead
      · exact .inr (.inl step.serving)
      · exact .inr (.inr ⟨opened, web⟩)
    · rcases perform_web opened web op again with dead | talked
      · exact .inl dead
      · exact .inr (.inr ⟨talked.opened, talked.web⟩)

/-- What a ledger promises: the log is accepted, and while the connection is
open, the log leads to its phase and is what the stream has grown by. -/
structure Recorded (l : Ledger) : Prop where
  accepted : ∃ phase, Exchange.run .idle l.log = some phase ∧
    (l.conn.isOpen = true → phase = phaseOf l.conn)
  whole : l.conn.isOpen = true → stream l.conn.sock = l.base ++ l.log.flatMap Entry.bytes
  mode : Mode l.conn

private theorem recorded_dead {l : Ledger} {d : ServerConnection} (dead : Dead d)
    {log : List Entry} (accepted : ∃ phase, Exchange.run .idle (l.log ++ log) = some phase) :
    Recorded ⟨d, l.base, l.log ++ log⟩ := by
  obtain ⟨phase, ran⟩ := accepted
  exact ⟨⟨phase, ran, fun opened => by simp [dead.closed] at opened⟩,
    fun opened => by simp [dead.closed] at opened, .inl dead⟩

/-- The phase of an open connection after a log that starts at its own. -/
private theorem recorded_open {l : Ledger} (recorded : Recorded l) (opened : l.conn.isOpen = true)
    {d : ServerConnection} {log : List Entry}
    (grew : stream d.sock = stream l.conn.sock ++ log.flatMap Entry.bytes)
    (ran : Exchange.run (phaseOf l.conn) log = some (phaseOf d))
    (mode : Serving d ∨ d.isOpen = true ∧ d.isStateWebsocket = true) :
    Recorded ⟨d, l.base, l.log ++ log⟩ := by
  obtain ⟨phase, before, same⟩ := recorded.accepted
  refine ⟨⟨phaseOf d, ?_, fun _ => rfl⟩, fun _ => ?_, .inr mode⟩
  · simp only [Exchange.run_append, before, same opened, Option.bind_some, ran]
  · rw [grew, recorded.whole opened, List.flatMap_append, List.append_assoc]

private theorem web_phase (web : c.isStateWebsocket = true) : phaseOf c = .upgraded := by
  unfold isStateWebsocket at web
  split at web
  · rename_i state upgraded
    simp [phaseOf, upgraded]
  · simp at web

private theorem grown_eq {bytes : Bytes} (grew : stream d.sock = stream c.sock ++ bytes) :
    grown c d = bytes := by
  simp [grown, grew]

theorem record_recorded (l : Ledger) (op : ServerOp) (recorded : Recorded l) :
    Recorded (record l op) := by
  simp only [record]
  split
  · rename_i again
    obtain ⟨serving, idle⟩ := accept_serving l.conn op again
    exact ⟨⟨.idle, rfl, fun _ => idle.symm⟩, fun _ => by simp, .inr (.inl serving)⟩
  · rename_i same
    have same' : reopens op = false := by simpa using same
    rcases recorded.mode with dead | serving | ⟨opened, web⟩
    · obtain ⟨dead', nothing⟩ := perform_dead dead op same'
      obtain ⟨phase, ran, -⟩ := recorded.accepted
      exact recorded_dead dead' ⟨phase, by rw [nothing, List.append_nil]; exact ran⟩
    · rcases perform_serving serving op same' with ⟨dead, nothing⟩ | step | ⟨opened, web, grew, ran⟩
      · obtain ⟨phase, ran, -⟩ := recorded.accepted
        exact recorded_dead dead ⟨phase, by rw [nothing, List.append_nil]; exact ran⟩
      · exact recorded_open recorded serving.opened step.stream step.phase (.inl step.serving)
      · exact recorded_open recorded serving.opened grew ran (.inr ⟨opened, web⟩)
    · have log : entries l.conn op = [.web (grown l.conn (perform l.conn op).conn)] := by
        simp [entries, web]
      have phase := web_phase web
      rcases perform_web opened web op same' with dead | talked
      · obtain ⟨last, ran, here⟩ := recorded.accepted
        refine recorded_dead dead ⟨.upgraded, ?_⟩
        simp [Exchange.run_append, ran, here opened, phase, log, Exchange.advance]
      · obtain ⟨bytes, grew⟩ := talked.stream
        refine recorded_open recorded opened ?_ ?_ (.inr ⟨talked.opened, talked.web⟩)
        · simpa [log, grown_eq grew, Entry.bytes] using grew
        · simp [log, phase, web_phase talked.web, Exchange.advance]

theorem recorded_start : Recorded {} :=
  ⟨⟨.idle, rfl, fun opened => by simp [isOpen, BufferedTcpSocket.isOpen, TcpSocket.isOpen] at opened⟩,
    fun _ => rfl, .inl ⟨rfl, rfl, rfl, rfl, rfl⟩⟩

/-- Whether the state of a connection admits a write: a header or an upgrade
answers a request that was taken, body bytes continue a response within the
length announced, the last chunk ends a chunked one. -/
def admits (c : ServerConnection) : ServerOp → Bool
  | .webSocketUpgrade => c.state == .responseHeader && c.requestParser.req.isWebsocketUpgrade
  | .writeResponse _ => c.state == .responseHeader
  | .writeHeader _ _ => c.state == .responseHeader
  | .writeData val _ => admitsBody val
  | .writeString ss _ => admitsBody ss
  | .writeLastChunk _ =>
    c.writingWebMessageBody || c.state == .responseBody && c.remainingBodyContentLength.isNone
  | .writeMessage _ _ => c.isStateWebsocket
  | .writeOpcode _ => c.isStateWebsocket && !c.writingWebMessageBody
  | _ => true
where
  admitsBody (val : Bytes) : Bool :=
    c.writingWebMessageBody ||
      c.state == .responseBody && c.remainingBodyContentLength.all fun remaining =>
      val.length ≤ remaining

private theorem settle_refused {result : Except Error ServerConnection} (refused : ∀ d, result ≠ .ok d) :
    ∃ e, (settle c result).error = some e ∧ (settle c result).conn = c := by
  cases result with
  | error e => exact ⟨e, rfl, rfl⟩
  | ok d => exact absurd rfl (refused d)

private theorem writeHeader_refused {resp : ResponseHeader} {bo : BufferOptions}
    (opened : c.isOpen = true) (state : c.state ≠ .responseHeader) (d : ServerConnection) :
    c.writeHeader resp bo ≠ .ok d := by
  intro done
  obtain ⟨closed, -⟩ | ⟨-, header, -⟩ := writeHeader_ok done
  · simp [opened] at closed
  · exact state header

private theorem writeBody_refused {send : Send} {val : Bytes} {bo : BufferOptions}
    (refused : admits.admitsBody c val = false) (d : ServerConnection) :
    c.writeBody send val bo ≠ .ok d := by
  intro done
  obtain ⟨writing, -⟩ | ⟨-, state, ⟨remaining, counted, fits, -⟩ | ⟨chunked, -⟩⟩ := writeBody_ok done
  · simp [admits.admitsBody, writing] at refused
  · simp [admits.admitsBody, state, counted, fits] at refused
  · simp [admits.admitsBody, state, chunked] at refused

/-- A write that the state does not admit throws and changes nothing. -/
theorem perform_refused (opened : c.isOpen = true) (op : ServerOp) (refused : admits c op = false) :
    ∃ e, (perform c op).error = some e ∧ (perform c op).conn = c := by
  cases op <;> simp only [admits, Bool.true_eq_false] at refused
  case webSocketUpgrade =>
    refine settle_refused fun d done => ?_
    obtain ⟨closed, -⟩ | ⟨-, header, upgradable, -⟩ := webSocketUpgrade_ok done
    · simp [opened] at closed
    · simp [header, upgradable] at refused
  case writeResponse resp =>
    have state : c.state ≠ .responseHeader := by simpa using refused
    cases header : c.writeHeader resp.header .bufferOnly with
    | ok d => exact absurd header (writeHeader_refused opened state d)
    | error e => exact ⟨e, by simp [perform, settleAfter, writeResponse, opened, header]⟩
  case writeHeader resp bo => exact settle_refused (writeHeader_refused opened (by simpa using refused))
  case writeMessage message bo =>
    refine settle_refused fun d done => ?_
    obtain ⟨closed, -⟩ | ⟨-, web, -⟩ := writeMessage_ok done
    · simp [opened] at closed
    · simp [web] at refused
  case writeOpcode opcode =>
    refine settle_refused fun d done => ?_
    obtain ⟨closed, -⟩ | ⟨-, web, free, -⟩ := writeOpcode_ok done
    · simp [opened] at closed
    · simp [web, free] at refused
  case writeData val bo => exact settle_refused (writeBody_refused refused)
  case writeString ss bo => exact settle_refused (writeBody_refused refused)
  case writeLastChunk bo =>
    refine settle_refused fun d done => ?_
    obtain ⟨writing, -⟩ | ⟨-, state, chunked, -⟩ := writeLastChunk_ok done
    · simp [writing] at refused
    · simp [state, chunked] at refused

/-- In every run of a server connection, with any exceptions caught on the way:
while it is open, its stream since the accept is the log; at every point of the
log there are as many header blocks as requests delivered, or one less; body
bytes stand between a header block and the end of its response, no more of them
than the length announced; and a write that the state does not admit throws and
leaves the connection, and so the stream, as it was. -/
theorem responses_pair_with_requests (ops : List ServerOp) :
    let l := Run.after record {} ops
    (l.conn.isOpen = true → stream l.conn.sock = l.base ++ l.log.flatMap Entry.bytes) ∧
    (∀ before after, l.log = before ++ after →
      Exchange.blocks before ≤ Exchange.requests before ∧
      Exchange.requests before ≤ Exchange.blocks before + 1) ∧
    (∀ before e after, l.log = before ++ e :: after → e.isBody = true →
      ∃ earlier block contentLength since, before = earlier ++ .header block contentLength :: since ∧
        ∀ x ∈ since, x.isBody = true) ∧
    (∀ before block length after, l.log = before ++ .header block (some length) :: after →
      (Exchange.bodyOf after).length ≤ length) ∧
    ∀ op, l.conn.isOpen = true → admits l.conn op = false →
      ∃ e, (perform l.conn op).error = some e ∧ (perform l.conn op).conn = l.conn := by
  intro l
  have recorded : Recorded l := Run.invariant_of_keeps record_recorded recorded_start ops
  obtain ⟨phase, accepted, -⟩ := recorded.accepted
  refine ⟨recorded.whole, fun before after split => ?_, fun before e after split body => ?_,
    fun before block length after split => ?_, fun op opened refused =>
    perform_refused opened op refused⟩
  · exact Exchange.paired (split ▸ accepted)
  · exact Exchange.body_inside (split ▸ accepted) body
  · exact Exchange.body_bounded (split ▸ accepted)

end Crablib.PairingProofs
