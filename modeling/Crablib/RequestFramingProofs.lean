import Crablib.BodyTextProofs
import Crablib.ClientHistoryProofs
import Crablib.RequestLineProofs

/-! A whole request, from the call that writes it to the two parsers that read it.
The header announces the length that the caller gave, the body is appended as it is,
and nothing compares the two. -/
namespace Crablib.RequestFramingProofs
open Http Scanner ClientConnection ClientRun SocketProofs HeaderProofs HeaderTextProofs
open FramingProofs RequestTextProofs
open BodyTextProofs ClientHistoryProofs RequestLineProofs
open EndpointProofs (client client_models)

section Headers

/-- A request header whose fields are text that its lines can hold. -/
structure RequestWellFormed (req : RequestHeader) : Prop where
  line : IsRequestLine req
  host : IsPlain req.host
  origin : IsPlain req.origin
  basicAuthorization : IsPlain req.basicAuthorization
  secWebsocketKey : IsPlain req.secWebsocketKey
  secWebsocketVersion : IsPlain req.secWebsocketVersion
  common : WellFormed req.toRequestResponseHeader

variable {req : RequestHeader}

private theorem leads_authorization (plain : IsPlain req.basicAuthorization) {f : Framing} :
    Leads requestFramed (if req.basicAuthorization.isEmpty then []
      else line (str "authorization") (str "basic " ++ req.basicAuthorization)) f f := by
  split
  · exact leads_nil
  · refine leads_line ⟨by decide, List.all_iff_forall_prop.mp (by decide)⟩ (by decide) ?_
    intro c member
    have basic : ∀ c ∈ str "basic ", isCtl c = false := List.all_iff_forall_prop.mp (by decide)
    rcases List.mem_append.mp member with front | token
    · exact basic c front
    · exact plain c token

/-- The header is read to its end, with the framing that it announces. -/
theorem header_read (ok : RequestWellFormed req) (unchunked : req.transferEncodingChunked = false) :
    ∃ q, scan plain {} req.toString = .ok (q, []) ∧ q.isGood = true ∧
      framing q.req.toRequestResponseHeader = announcedFraming req.toRequestResponseHeader := by
  obtain ⟨p, r, state, at_, fresh, first⟩ := scan_firstLine ok.line
  have field : ∀ {name value : Bytes} {f : Framing}, IsToken name →
    toLower name ∉ framingNames → IsPlain value →
      Leads requestFramed (optionalLine name value) f f := leads_optionalLine
  have leads :
      Leads requestFramed (optionalLine (str "host") req.host ++
      optionalLine (str "origin") req.origin ++
      (if req.basicAuthorization.isEmpty then []
      else line (str "authorization") (str "basic " ++ req.basicAuthorization)) ++
      req.toStringCommon ++ optionalLine (str "sec-websocket-key") req.secWebsocketKey ++
      optionalLine (str "sec-websocket-version") req.secWebsocketVersion) {}
        (announcedFraming req.toRequestResponseHeader) :=
    (((((field ⟨by decide, List.all_iff_forall_prop.mp (by decide)⟩ (by decide) ok.host).trans
      (field ⟨by decide, List.all_iff_forall_prop.mp (by decide)⟩ (by decide) ok.origin)).trans
      (leads_authorization ok.basicAuthorization)).trans
      (leads_toStringCommon ok.common fun chunked => by rw [unchunked] at chunked; cases chunked)).trans
      (field ⟨by decide, List.all_iff_forall_prop.mp (by decide)⟩ (by decide) ok.secWebsocketKey)).trans
      (field ⟨by decide, List.all_iff_forall_prop.mp (by decide)⟩ (by decide) ok.secWebsocketVersion)
  obtain ⟨q, s, at_', same, scanned⟩ := leads _ r at_ fresh
  have lines := (scanned (crlf ++ [])).trans (scan_end at_' [])
  have behind := reader.scan_ok state lines
  refine ⟨{ p with lines := { q with state := .good, header := {}, req := s } }, ?_, ?_, same⟩
  · have text :
        req.toString = requestLine req ++
        (optionalLine (str "host") req.host ++ optionalLine (str "origin") req.origin ++
        (if req.basicAuthorization.isEmpty then []
        else line (str "authorization") (str "basic " ++ req.basicAuthorization)) ++
        req.toStringCommon ++ optionalLine (str "sec-websocket-key") req.secWebsocketKey ++
        optionalLine (str "sec-websocket-version") req.secWebsocketVersion ++ (crlf ++ [])) := by
      simp only [RequestHeader.toString, requestLine, List.append_assoc, List.append_nil]
    rw [text, first]
    exact behind
  · simp [RequestParser.isGood, state]

end Headers

section Decoding

/-- The two parsers read the bytes as a request with this body, and leave nothing. -/
def Decodes (bytes body : Bytes) : Prop :=
  ∃ p rest q, RequestParser.parse {} bytes = .ok (p, rest) ∧ p.isGood = true ∧
    (BodyParser.make p.req.contentLength p.req.transferEncodingChunked).parse rest = .ok (q, []) ∧
    q.isGood = true ∧ q.body = body

/-- A length that is the body's, or none where there is no body. -/
def Announced (length : Option UInt64) (body : Bytes) : Prop :=
  length.map UInt64.toNat = some body.length ∨ length = none ∧ body = []

/-- A parser that is good, or has nothing to read, stops. -/
private theorem parseLoop_stops {p : BodyParser} {bytes : Bytes}
    (stops : bytes = [] ∨ p.isGood = true) (passes : Nat) :
    BodyParser.parseLoop passes p bytes = .ok (p, bytes) := by
  cases passes with
  | zero => rfl
  | succ passes =>
    rcases stops with rfl | good
    · rfl
    · simp [BodyParser.parseLoop, good]

/-- A body is taken in one block, which is all of it or as much as was announced. -/
private theorem counted_length {n : UInt64} {q : BodyParser} {body : Bytes}
    (parsed : (BodyParser.make (some n) false).parse body = .ok (q, [])) (good : q.isGood = true) :
    n.toNat = body.length := by
  by_cases done : body = [] ∨ n.toNat = 0
  · have stops : body = [] ∨ (BodyParser.make (some n) false).isGood = true := by
      rcases done with empty | zero
      · exact .inl empty
      · exact .inr (by simp [BodyParser.make, zero, BodyParser.isGood])
    rw [BodyParser.parse, parseLoop_stops stops] at parsed
    simp only [Except.ok.injEq, Prod.mk.injEq] at parsed
    obtain ⟨same, empty⟩ := parsed
    rw [← same] at good
    rw [empty]
    apply Classical.byContradiction
    intro more
    simp [BodyParser.make, show n.toNat ≠ 0 from more, BodyParser.isGood] at good
  · obtain ⟨some_, more⟩ := not_or.mp done
    have start :
        BodyParser.make (some n) false = { state := .contentLengthBody, remainingBytes := n.toNat } := by
      simp [BodyParser.make, more]
    obtain ⟨c, rest, split⟩ := List.exists_cons_of_ne_nil some_
    have running : (body.isEmpty || (BodyParser.make (some n) false).isGood) = false := by
      rw [split, start]
      rfl
    have passes : body.length = rest.length + 1 := by rw [split, List.length_cons]
    rw [BodyParser.parse, passes, BodyParser.parseLoop, running, start] at parsed
    simp only [Bool.false_eq_true, ↓reduceIte, BodyParser.consume, BodyParser.takeBody,
      List.length_take] at parsed
    by_cases enough : n.toNat ≤ body.length
    · rw [if_pos (by omega), parseLoop_stops (.inr rfl)] at parsed
      simp only [Except.ok.injEq, Prod.mk.injEq, List.drop_eq_nil_iff] at parsed
      omega
    · rw [if_neg (by omega), parseLoop_stops (.inl (List.drop_eq_nil_iff.mpr (by omega)))] at parsed
      simp only [Except.ok.injEq, Prod.mk.injEq] at parsed
      rw [← parsed.1] at good
      cases good

/-- A body is taken whole exactly if it is as long as it was announced. -/
theorem carried_iff (length : Option UInt64) (body : Bytes) :
    (∃ q, (BodyParser.make length false).parse body = .ok (q, []) ∧ q.isGood = true ∧
      q.body = body) ↔ Announced length body := by
  constructor
  · rintro ⟨q, parsed, good, -⟩
    cases length with
    | none =>
      rw [BodyParser.parse, parseLoop_stops (.inr rfl)] at parsed
      simp only [Except.ok.injEq, Prod.mk.injEq] at parsed
      exact .inr ⟨rfl, parsed.2⟩
    | some n => exact .inl (congrArg some (counted_length parsed good))
  · rintro (same | ⟨rfl, rfl⟩)
    · obtain ⟨n, announced, same⟩ := Option.map_eq_some_iff.mp same
      rw [announced]
      exact parse_counted same
    · exact ⟨BodyParser.make none false, rfl, rfl, rfl⟩

/-- A request is read back exactly if its header is not too long and announces the
length of the body. -/
private theorem decodes_iff {req : RequestHeader} (ok : RequestWellFormed req)
    (unchunked : req.transferEncodingChunked = false) (body : Bytes) :
    Decodes (req.toString ++ body) body ↔
      req.toString.length ≤ ({} : RequestParser).maxTotalLength ∧ Announced req.contentLength body := by
  obtain ⟨p, scanned, good, same⟩ := header_read ok unchunked
  have length : p.req.contentLength = req.contentLength := congrArg Framing.length same
  have chunked : p.req.transferEncodingChunked = false := (congrArg Framing.chunked same).trans unchunked
  constructor
  · rintro ⟨q, rest, r, parsed, -, read, good', same'⟩
    have unlimited :
        scan plain {} (req.toString ++ body) = .ok ({ q with totalLength := 0 }, rest) :=
      limited.scan_within parsed 0
    have whole := scan_whole scanned good body
    rw [unlimited] at whole
    simp only [Except.ok.injEq, Prod.mk.injEq] at whole
    obtain ⟨header, behind⟩ := whole
    have fields : q.req = p.req := by
      rw [← header]
      rfl
    rw [fields, length, chunked, behind] at read
    refine ⟨?_, (carried_iff req.contentLength body).mp ⟨r, read, good', same'⟩⟩
    obtain ⟨bound, total⟩ := limited.scan_count parsed (Nat.zero_le _)
    rw [behind, List.length_append] at total
    have start : limited.count ({} : RequestParser) = 0 := rfl
    have limit : limited.limit {} = ({} : RequestParser).maxTotalLength := rfl
    omega
  · rintro ⟨fits, announced⟩
    obtain ⟨n, parsed⟩ := limited.scan_ok (s := {}) (by simpa [limited] using fits) scanned
    have good' : RequestParser.machine.good (limited.set p n) = true := good
    obtain ⟨r, read, good'', same'⟩ := (carried_iff req.contentLength body).mpr announced
    refine ⟨limited.set p n, body, r, scan_whole parsed good' body, good, ?_, good'', same'⟩
    have fields : (limited.set p n).req = p.req := rfl
    rw [fields, length, chunked]
    exact read

end Decoding

section Asked
variable {c d : ClientConnection}

/-- The states in which received bytes are read. -/
def isReading : ClientState → Bool
  | .responseHeader | .responseBody | .webUpgradeResponseHeader | .web _ => true
  | .resolvingHost | .waitingWriteRequest | .responseReady => false

/-- A connection that was asked to shut down reads no more, and stays in a state in
which it would. -/
structure Parting (c : ClientConnection) : Prop where
  asked : c.sock.writeShutdownAsked = true → isReading c.state = true ∧ c.readBuffer.empty = true
  resolving : c.dnsOpen = true → c.state = .resolvingHost

theorem Parting.unasked (parting : Parting c) (idle : isReading c.state = false) :
    c.sock.writeShutdownAsked = false := by
  cases asked : c.sock.writeShutdownAsked with
  | false => rfl
  | true =>
    rw [(parting.asked asked).1] at idle
    cases idle

theorem Parting.resolved (parting : Parting c) (state : c.state ≠ .resolvingHost) :
    c.dnsOpen = false := by
  cases opened : c.dnsOpen with
  | false => rfl
  | true => exact absurd (parting.resolving opened) state

/-- A connection that was not asked, and is not resolving. -/
private theorem parting_of_unasked (unasked : c.sock.writeShutdownAsked = false)
    (closed : c.dnsOpen = false) : Parting c := by
  constructor
  · intro asked
    rw [unasked] at asked
    cases asked
  · intro opened
    rw [closed] at opened
    cases opened

private theorem parting_close (c : ClientConnection) : Parting c.close := parting_of_unasked rfl rfl

/-- A web message is written without leaving the state, and the one that asks for the
shutdown drops what was received. -/
private theorem writeMessage_parting {message : WebMessage} (done : c.writeMessage message = .ok d) :
    d.state = c.state ∧ d.dnsOpen = c.dnsOpen ∧
      (d.sock.writeShutdownAsked = true → c.sock.writeShutdownAsked = true ∧
        d.readBuffer = c.readBuffer ∨
        c.mayWriteMessage = true ∧ d.readBuffer.empty = true) := by
  simp only [ClientConnection.writeMessage] at done
  split at done
  · cases done
    exact ⟨rfl, rfl, fun asked => .inl ⟨asked, rfl⟩⟩
  · simp only [bind_eq_ok, invariant_ok, pure_eq_ok] at done
    obtain ⟨-, may, rfl⟩ := done
    have buffered := (buffer_extends c.sock
      (webMessageHeader true message.opcode.toNat (payload message).length
      (some (c.keys.headD 0)))).asked
    have sent := (writeString_extends
      (c.sock.buffer (webMessageHeader true message.opcode.toNat (payload message).length
      (some (c.keys.headD 0)))) (maskData 0 (payload message) (c.keys.headD 0))
      .write).asked.trans buffered
    simp only [ClientConnection.sendMessage]
    split
    · refine ⟨rfl, rfl, fun _ => .inr ⟨may, ?_⟩⟩
      rw [StreamsProofs.empty_iff, StreamsProofs.contents_clear]
    · exact ⟨rfl, rfl, fun asked => .inl ⟨sent ▸ asked, rfl⟩⟩

/-- One pass of a connection that was not asked before. -/
structure Passed (c : ClientConnection) (result : Turn × ClientConnection) : Prop where
  dnsOpen : result.2.dnsOpen = c.dnsOpen
  asked : result.2.sock.writeShutdownAsked = true → isReading result.2.state = true ∧
    result.2.readBuffer.empty = true
  thrown : ∀ e, result.1 = .throw e → isReading result.2.state = true

private theorem passed_of_sock {result : Turn × ClientConnection}
    (unasked : c.sock.writeShutdownAsked = false) (sock : result.2.sock = c.sock)
    (dnsOpen : result.2.dnsOpen = c.dnsOpen)
    (thrown : ∀ e, result.1 = .throw e → isReading result.2.state = true) : Passed c result := by
  refine ⟨dnsOpen, ?_, thrown⟩
  intro asked
  rw [sock, unasked] at asked
  cases asked

private theorem readResponseBody_passed (unasked : c.sock.writeShutdownAsked = false)
    (state : c.state = .responseBody) :
    Passed c c.readResponseBody := by
  refine passed_of_sock unasked (readResponseBody_sock c) ?_ ?_
  · unfold readResponseBody
    split
    · rfl
    · simp only
      split <;> rfl
  · intro e thrown
    unfold readResponseBody at thrown ⊢
    split at thrown
    · simp [isReading, state]
    · simp only at thrown
      split at thrown <;> cases thrown

private theorem readResponseHeader_passed (unasked : c.sock.writeShutdownAsked = false)
    (state : c.state = .responseHeader) :
    Passed c c.readResponseHeader := by
  have reading : isReading c.state = true := by rw [state]; rfl
  unfold readResponseHeader
  split
  · exact passed_of_sock unasked rfl rfl fun _ _ => reading
  · rename_i parser rest _
    simp only
    split
    · exact passed_of_sock unasked rfl rfl fun _ _ => reading
    · split
      · exact passed_of_sock unasked rfl rfl fun _ _ => reading
      · have body := readResponseBody_passed (c := { c with
          responseParser := parser, readBuffer := rest
          httpBodyParser := .make parser.req.contentLength parser.req.transferEncodingChunked
          state := .responseBody }) unasked rfl
        exact ⟨body.dnsOpen, body.asked, body.thrown⟩

private theorem readUpgradeResponse_passed (unasked : c.sock.writeShutdownAsked = false)
    (state : c.state = .webUpgradeResponseHeader) : Passed c c.readUpgradeResponse := by
  have reading : isReading c.state = true := by rw [state]; rfl
  unfold readUpgradeResponse
  split
  · exact passed_of_sock unasked rfl rfl fun _ _ => reading
  · simp only
    repeat' split
    all_goals exact passed_of_sock unasked rfl rfl fun _ _ => by first | exact reading | rfl

private theorem readWebMessage_passed (unasked : c.sock.writeShutdownAsked = false) (state : WebState) :
    Passed c (c.readWebMessage state) := by
  have written {message : WebMessage} {d : ClientConnection} {turn : Turn}
    (done : ClientConnection.writeMessage { c with
      state := .web (c.reader.read state c.readBuffer).2.1
      reader := (c.reader.read state c.readBuffer).2.2.1
      readBuffer := (c.reader.read state c.readBuffer).2.2.2 } message = .ok d) :
          Passed c (turn, d) := by
    obtain ⟨same, dnsOpen, asked⟩ := writeMessage_parting done
    refine ⟨dnsOpen, ?_, ?_⟩
    · intro asked_
      rcases asked asked_ with ⟨before, -⟩ | ⟨-, empty⟩
      · rw [unasked] at before
        cases before
      · exact ⟨by rw [same]; rfl, empty⟩
    · intro _ _
      rw [same]
      rfl
  simp only [readWebMessage]
  split
  · exact passed_of_sock unasked rfl rfl fun _ _ => rfl
  · exact passed_of_sock unasked rfl rfl fun _ _ => rfl
  · exact passed_of_sock unasked rfl rfl fun _ _ => rfl
  · split
    · exact passed_of_sock unasked rfl rfl fun _ _ => rfl
    · rename_i done
      exact written done
  · split
    · exact passed_of_sock unasked rfl rfl fun _ _ => rfl
    · rename_i done
      exact written done

private theorem switchState_passed (unasked : c.sock.writeShutdownAsked = false) :
    Passed c c.switchState := by
  unfold switchState
  split
  · rename_i state
    exact readResponseHeader_passed unasked state
  · rename_i state
    exact readResponseBody_passed unasked state
  · rename_i state
    exact readUpgradeResponse_passed unasked state
  · exact readWebMessage_passed unasked .header
  · exact readWebMessage_passed unasked .body
  · exact passed_of_sock unasked rfl rfl fun _ thrown => by cases thrown

/-- A connection that was asked gets nothing from its socket. -/
private theorem readFrom_asked (asked : c.sock.writeShutdownAsked = true) :
    c.readBuffer.readFrom BufferedTcpSocket.istream c.sock = (0, c.readBuffer, c.sock) := by
  have nothing (count : Nat) : BufferedTcpSocket.istream.readSome c.sock count = ([], c.sock) := by
    simp [BufferedTcpSocket.istream, BufferedTcpSocket.readSome, asked]
  have same (b : Buffer) (fits : b.writePos + 0 ≤ b.readPos + b.capacity) :
      (b.store []).didWrite 0 fits = b := by
    obtain ⟨impl, capacity, readPos, writePos, _, _, _⟩ := b
    simp only [Buffer.store, Buffer.didWrite, Nat.add_zero, List.length_nil, Buffer.mk.injEq, and_true]
    funext i
    rw [if_neg (by omega)]
  simp only [Buffer.readFrom, Buffer.readLoop]
  split
  · rfl
  · simp only [nothing, List.length_nil, ↓reduceIte]
    exact congrArg (fun b => (0, b, c.sock)) (same c.readBuffer _)

private theorem turn_passed (parting : Parting c) : Passed c c.turn := by
  unfold turn
  split
  · simp only
    cases asked : c.sock.writeShutdownAsked with
    | true =>
      obtain ⟨reading, empty⟩ := parting.asked asked
      rw [readFrom_asked asked]
      exact ⟨rfl, fun _ => ⟨reading, empty⟩, fun _ _ => reading⟩
    | false =>
      have unasked :
          (c.readBuffer.readFrom BufferedTcpSocket.istream c.sock).2.2.writeShutdownAsked = false :=
        (InboundProofs.readFrom_quiet c.readBuffer c.sock).asked.trans asked
      split
      · refine ⟨rfl, ?_, fun _ thrown => by cases thrown⟩
        intro asked
        rw [unasked] at asked
        cases asked
      · have passed := switchState_passed (c := { c with
          readBuffer := (c.readBuffer.readFrom BufferedTcpSocket.istream c.sock).2.1
          sock := (c.readBuffer.readFrom BufferedTcpSocket.istream c.sock).2.2 }) unasked
        exact ⟨passed.dnsOpen, passed.asked, passed.thrown⟩
  · rename_i some_
    refine switchState_passed ?_
    cases asked : c.sock.writeShutdownAsked with
    | false => rfl
    | true => exact absurd (parting.asked asked).2 some_

private theorem parting_turn (parting : Parting c) : Parting c.turn.2 := by
  have passed := turn_passed parting
  refine ⟨passed.asked, ?_⟩
  intro opened
  exact (steady_turn c).state (parting.resolving (passed.dnsOpen ▸ opened))

private theorem parting_advanceState (parting : Parting c) : Parting c.advanceState.2 := by
  refine client_models.preserves (P := Parting) (fun _ => parting_turn) ?_ parting
  intro d error next parting thrown
  have thrown' : d.turn = (.throw error, next) := thrown
  have kept := parting_turn parting
  have passed := turn_passed parting
  rw [thrown'] at kept passed
  refine ⟨fun _ => ⟨passed.thrown error rfl, ?_⟩, kept.resolving⟩
  show (Buffer.clear _).empty = true
  rw [StreamsProofs.empty_iff, StreamsProofs.contents_clear]

private theorem parting_sockHandler (parting : Parting c) : Parting c.sockHandler.2 := by
  unfold ClientConnection.sockHandler
  split
  · exact parting_close c
  · exact parting_advanceState parting

/-- A request is written by a connection that was not asked, and does not ask. -/
private theorem parting_writeRequest {req : Request} (parting : Parting c)
    (done : c.writeRequest req = .ok d) : Parting d := by
  simp only [ClientConnection.writeRequest] at done
  split at done
  · cases done
    exact parting
  · split at done
    · simp only [bind_eq_ok, invariant_ok, pure_eq_ok] at done
      obtain ⟨-, -, rfl⟩ := done
      exact ⟨parting.asked, parting.resolving⟩
    · simp only [bind_eq_ok, invariant_ok, pure_eq_ok, beq_iff_eq] at done
      obtain ⟨-, state, -, -, -, -, rfl⟩ := done
      have unasked := parting.unasked (by rw [state]; rfl)
      have buffered := (buffer_extends c.sock { req.header with host := c.host }.toString).asked
      have sent := (writeString_extends (c.sock.buffer { req.header with host := c.host }.toString)
        req.body .write).asked
      have closed := parting.resolved (by rw [state]; decide)
      simp only [ClientConnection.sendRequest]
      split <;> exact parting_of_unasked ((sent.trans buffered).trans unasked) closed

private theorem parting_settle {result : Except Error ClientConnection} (parting : Parting c)
    (keeps : ∀ d, result = .ok d → Parting d) : Parting (settle c result).conn := by
  cases result with
  | error e => exact parting
  | ok d => exact keeps d rfl

private theorem parting_dnsHandler (parting : Parting c) (result : Option ConnectResult) :
    Parting (c.dnsHandler result).2 := by
  simp only [ClientConnection.dnsHandler]
  split
  · exact parting
  · rename_i opened
    have unasked : c.sock.writeShutdownAsked = false := by
      refine parting.unasked ?_
      rw [parting.resolving (by simpa using opened)]
      rfl
    split
    · exact parting_close _
    · split
      · exact parting_of_unasked unasked rfl
      · split
        · exact parting_close _
        · rename_i result _ _
          have waiting : Parting { c with
              dnsOpen := false, sock := (c.sock.connect result).2, state := .waitingWriteRequest } :=
            parting_of_unasked unasked rfl
          split
          · exact waiting
          · split
            · exact waiting
            · rename_i written
              have sent := parting_writeRequest waiting written
              exact ⟨sent.asked, sent.resolving⟩

private theorem parting_of_timer (parting : Parting c) :
    Parting { c with sock := c.sock.shutdownTimerHandler } := by
  refine ⟨?_, parting.resolving⟩
  intro asked
  cases asked

theorem perform_parting (parting : Parting c) (op : ClientRun.ClientOp) :
    Parting (perform c op).conn := by
  cases op with
  | connectAddress host port result =>
    simp only [perform, ClientConnection.connectAddress]
    split <;> exact parting_of_unasked rfl rfl
  | connectHost host port protocol =>
    simp only [perform, settleAfter_conn, ClientConnection.connectHost]
    split
    · exact parting_close c
    · refine ⟨?_, fun _ => rfl⟩
      intro asked
      cases asked
  | close => exact parting_close c
  | readNextResponse =>
    simp only [perform, ClientConnection.readNextResponse]
    split
    · exact parting
    · rename_i ready
      have state : c.state = .responseReady := by simpa using ready
      have unasked := parting.unasked (by rw [state]; rfl)
      exact parting_advanceState (parting_of_unasked unasked (parting.resolved (by rw [state]; decide)))
  | readNextMessage =>
    simp only [perform, ClientConnection.readNextMessage]
    split
    · exact parting
    · rename_i ready
      have state : c.state = .web .ready := by simpa using ready
      have closed := parting.resolved (by rw [state]; decide)
      refine parting_advanceState ⟨fun asked => ⟨rfl, (parting.asked asked).2⟩, ?_⟩
      intro opened
      rw [show c.takeMessage.dnsOpen = c.dnsOpen from rfl, closed] at opened
      cases opened
  | webSocketUpgrade rh rdata =>
    exact parting_settle parting fun d done => parting_writeRequest parting done
  | writeRequest req => exact parting_settle parting fun d done => parting_writeRequest parting done
  | writeMessage message =>
    refine parting_settle parting fun d done => ?_
    obtain ⟨state, dnsOpen, asked⟩ := writeMessage_parting done
    refine ⟨?_, ?_⟩
    · intro asked_
      rw [state]
      rcases asked asked_ with ⟨before, same⟩ | ⟨may, empty⟩
      · rw [same]
        exact parting.asked before
      · refine ⟨?_, empty⟩
        simp only [mayWriteMessage] at may
        split at may
        · rename_i web
          rw [web]
          rfl
        · rename_i web
          rw [web]
          rfl
        · cases may
    · rw [state, dnsOpen]
      exact parting.resolving
  | dnsHandler result =>
    simp only [perform, settleAfter_conn]
    exact parting_dnsHandler parting result
  | arrive arrivals => exact ⟨parting.asked, parting.resolving⟩
  | plan sends => exact ⟨parting.asked, parting.resolving⟩
  | notify canRead canWrite => exact ⟨parting.asked, parting.resolving⟩
  | dispatch =>
    simp only [perform, ClientConnection.dispatch]
    split
    · unfold ClientConnection.sockHandler
      split
      · exact parting_close _
      · rename_i opened
        have open_ : c.socketEvent.sock.isOpen = true := by simpa using opened
        have kept := (sockHandler_keeps { c.sock with sock.pending := false } open_).1
        refine parting_advanceState ⟨?_, parting.resolving⟩
        intro asked
        exact parting.asked (kept.symm.trans asked)
    · exact parting
  | shutdownTimer =>
    simp only [perform, ClientConnection.shutdownTimerHandler]
    split
    · exact parting_sockHandler (parting_of_timer parting)
    · exact parting

theorem parting_afterOps (keys : List UInt32) (ops : List ClientRun.ClientOp) :
    Parting (afterOps { keys := keys } ops) :=
  Run.invariant_of_keeps (P := Parting) (fun _ op parting => perform_parting parting op)
    (parting_of_unasked rfl rfl) ops

end Asked

section Writing
variable {c d : ClientConnection} {req : Request}

/-- The header as it is written. -/
def sentHeader (c : ClientConnection) (req : Request) : RequestHeader :=
  { req.header with host := c.host }

/-- The bytes that the call queued are read as a request with its body. -/
def Framed (c d : ClientConnection) (body : Bytes) : Prop :=
  ∃ bytes, stream d.sock = stream c.sock ++ bytes ∧ Decodes bytes body

/-- A request that is not refused is queued as it is, header and body. -/
theorem writeRequest_stream (parting : Parting c) (opened : c.sock.isOpen = true)
    (state : c.state = .waitingWriteRequest) (written : c.writeRequest req = .ok d) :
    stream d.sock = stream c.sock ++ ((sentHeader c req).toString ++ req.body) ∧
      req.header.transferEncodingChunked = false := by
  have unasked := parting.unasked (by rw [state]; rfl)
  have other : ¬ClientState.waitingWriteRequest = .resolvingHost := by decide
  have open_ : c.isOpen = true := by simp [ClientConnection.isOpen, opened]
  simp only [ClientConnection.writeRequest, open_, state, Bool.not_true, Bool.false_eq_true,
    ↓reduceIte, other, bind_eq_ok, invariant_ok, pure_eq_ok] at written
  obtain ⟨-, -, -, -, -, unchunked, rfl⟩ := written
  refine ⟨?_, by simpa using unchunked⟩
  have buffered := buffer_extends c.sock (sentHeader c req).toString
  have sent := writeString_extends (c.sock.buffer (sentHeader c req).toString) req.body .write
  rw [buffered.takes, takes_of_open opened unasked] at sent
  rw [takes_of_open opened unasked] at buffered
  have both := (buffered.trans sent).stream
  simp only [sendRequest]
  split <;> exact both

private theorem framed_iff (parting : Parting c) (opened : c.sock.isOpen = true)
    (state : c.state = .waitingWriteRequest) (written : c.writeRequest req = .ok d)
    (ok : RequestWellFormed (sentHeader c req)) :
    Framed c d req.body ↔
      (sentHeader c req).toString.length ≤ ({} : RequestParser).maxTotalLength ∧
      Announced req.header.contentLength req.body := by
  obtain ⟨grown, unchunked⟩ := writeRequest_stream parting opened state written
  have decodes := decodes_iff ok unchunked req.body
  constructor
  · rintro ⟨bytes, grown', read⟩
    rw [grown] at grown'
    rw [← List.append_cancel_left grown'] at read
    exact decodes.mp read
  · intro announced
    exact ⟨_, grown, decodes.mpr announced⟩

/-- A request that a connection accepts is read back from the bytes it queued exactly
if it announces the length of its body, under a header that a parser accepts. -/
theorem request_framed (keys : List UInt32) (before : List ClientRun.ClientOp) (req : Request)
    (d : ClientConnection) (state : (afterOps { keys := keys } before).state = .waitingWriteRequest)
    (written : (afterOps { keys := keys } before).writeRequest req = .ok d)
    (ok : RequestWellFormed (sentHeader (afterOps { keys := keys } before) req)) :
    Framed (afterOps { keys := keys } before) d req.body ↔
      (sentHeader (afterOps { keys := keys } before) req).toString.length ≤
          ({} : RequestParser).maxTotalLength ∧
        Announced req.header.contentLength req.body := by
  have parting := parting_afterOps keys before
  have opened := (reached keys before).settled.opened (by rw [state]; decide)
  exact framed_iff parting opened state written ok

private def connected : List ClientRun.ClientOp := [.connectAddress (str "crab") 80 .immediate]

private def posted (length : Option UInt64) : Request :=
  { header := { method := str "POST", path := str "/", contentLength := length }, body := str "ok" }

private theorem posted_wellFormed (length : Option UInt64) :
    RequestWellFormed (sentHeader (afterOps { keys := [] } connected) (posted length)) := by
  have host : (afterOps { keys := [] } connected).host = str "crab" := by decide
  rw [sentHeader, host]
  have token : ∀ c ∈ str "POST", isToken c = true := List.all_iff_forall_prop.mp (by decide)
  have slash : PathText (str "/") := .char (by decide) .nil
  have named : ∀ c ∈ str "crab", isCtl c = false := List.all_iff_forall_prop.mp (by decide)
  have none_ : IsPlain [] := by simp [IsPlain]
  have method : str "POST" ≠ [] := by decide
  have path : str "/" ≠ [] := by decide
  exact
    { line :=
        { method := method, token := token, path := path, isPath := slash
          isQuery := by simp [posted], isVersion := ⟨by simp [posted], by simp [posted]⟩ }
      host := named
      origin := none_
      basicAuthorization := none_
      secWebsocketKey := none_
      secWebsocketVersion := none_
      common := { mime := none_, suffix := none_, encodings := by simp [posted],
                  headers := by simp [posted] } }

theorem request_framed_posted :
    ∃ d, (afterOps { keys := [] } connected).state = .waitingWriteRequest ∧
      (afterOps { keys := [] } connected).writeRequest (posted (some 2)) = .ok d ∧
      Framed (afterOps { keys := [] } connected) d (str "ok") := by
  have state : (afterOps { keys := [] } connected).state = .waitingWriteRequest := by decide +kernel
  have accepted :
      ((afterOps { keys := [] } connected).writeRequest (posted (some 2))).toOption.isSome =
      true := by decide +kernel
  cases written : (afterOps { keys := [] } connected).writeRequest (posted (some 2)) with
  | error e =>
    rw [written] at accepted
    cases accepted
  | ok d =>
    refine ⟨d, state, rfl, ?_⟩
    exact (request_framed [] connected (posted (some 2)) d state written (posted_wellFormed _)).mpr
      ⟨by decide +kernel, .inl (by decide)⟩

/-- A body behind a header that announces none is taken for the next request. -/
theorem request_unframed :
    ∃ d, (afterOps { keys := [] } connected).state = .waitingWriteRequest ∧
      (afterOps { keys := [] } connected).writeRequest (posted none) = .ok d ∧
      RequestWellFormed (sentHeader (afterOps { keys := [] } connected) (posted none)) ∧
      ¬Framed (afterOps { keys := [] } connected) d (str "ok") := by
  have state : (afterOps { keys := [] } connected).state = .waitingWriteRequest := by decide +kernel
  have accepted : ((afterOps { keys := [] } connected).writeRequest (posted none)).toOption.isSome =
    true := by decide +kernel
  cases written : (afterOps { keys := [] } connected).writeRequest (posted none) with
  | error e =>
    rw [written] at accepted
    cases accepted
  | ok d =>
    refine ⟨d, state, rfl, posted_wellFormed none, ?_⟩
    intro framed
    have opened := (reached [] connected).settled.opened (by rw [state]; decide)
    obtain ⟨-, announced⟩ :=
      (framed_iff (parting_afterOps [] connected) opened state written (posted_wellFormed none)).mp
        framed
    rcases announced with same | ⟨-, empty⟩
    · cases same
    · exact absurd empty (by decide)

end Writing

end Crablib.RequestFramingProofs
