import Crablib.BodyTextProofs
import Crablib.FramingProofs
import Crablib.ResponseWriteProofs
import Crablib.VersionProofs

/-! A whole response, from the call that writes it to the two parsers that read it.
The header announces a framing and the body is written by another; a response is
read back when the two agree, and a call that throws has changed nothing only when
the header was refused. -/
namespace Crablib.DecodableProofs
open Http Scanner ServerConnection ServerRun SocketProofs HeaderProofs HeaderTextProofs
open FramingProofs ResponseTextProofs
open BodyTextProofs ResponseWriteProofs VersionProofs

section Headers

/-- A response header whose fields are text that a line can hold. -/
structure ResponseWellFormed (resp : ResponseHeader) : Prop where
  status : 100 ≤ resp.status ∧ resp.status ≤ 999
  statusText : IsValue resp.statusText
  date : IsPlain resp.date
  secWebsocketAccept : IsPlain resp.secWebsocketAccept
  common : WellFormed resp.toRequestResponseHeader

variable {resp : ResponseHeader}

private theorem process_status {status : Int} (h : Header) (r s : ResponseHeader)
    (same : r.status = status) (processed : ResponseParser.actions.processReadyHeader h r = .ok s) :
    s.status = status := by
  simp only [ResponseParser.actions, ResponseParser.processReadyHeader] at processed
  repeat' split at processed
  all_goals
    cases processed
    try exact same

/-- No header line changes the status. -/
private theorem lines_status {p q : HeaderLines ResponseHeader} {text rest : Bytes}
    (scanned : scan (lineMachine ResponseParser.actions) p text = .ok (q, rest)) :
    q.req.status = p.req.status :=
  scan_preserves (P := fun lines : HeaderLines ResponseHeader => lines.req.status = p.req.status)
    (fun _ _ _ _ same consumed =>
    consumeLine_keeps (P := fun r : ResponseHeader => r.status = p.req.status) (fun _ same => same)
      process_status same consumed) rfl scanned

/-- The message behind the first line. -/
private def started (resp : ResponseHeader) : ResponseHeader :=
  { toRequestResponseHeader := atStart resp.httpVersionMajor resp.httpVersionMinor,
    status := resp.status, statusText := textOf resp }

/-- The lines behind the first one. -/
private def behindStatus (resp : ResponseHeader) : Bytes :=
  optionalLine (str "date") resp.date ++ resp.toStringCommon ++
    optionalLine (str "sec-websocket-accept") resp.secWebsocketAccept ++ crlf

private theorem scan_toString (isVersion : IsVersion resp.httpVersionMajor resp.httpVersionMinor)
    (ok : ResponseWellFormed resp) (rest : Bytes) :
    scan plain {} (resp.toString ++ rest) =
      scan plain { state := .headerLines, lines := { req := started resp } }
      (behindStatus resp ++ rest) := by
  have first := scan_statusLine isVersion ok.status ok.statusText (behindStatus resp ++ rest)
  simp only [ResponseHeader.toString, textOf, behindStatus, List.append_assoc] at first ⊢
  exact first

private theorem atLine_start (resp : ResponseHeader) :
    ∃ r, AtLine ResponseParser.actions { req := started resp } r ∧
      framing r.toRequestResponseHeader = {} :=
  ⟨_, .first rfl rfl, rfl⟩

/-- A header whose codings can be announced is read to its end, with its status and
its framing. -/
theorem header_read (isVersion : IsVersion resp.httpVersionMajor resp.httpVersionMinor)
    (ok : ResponseWellFormed resp)
    (last : resp.transferEncodingChunked = true → keptCodings resp.transferEncodings = []) :
    ∃ q, scan plain {} resp.toString = .ok (q, []) ∧ q.isGood = true ∧ q.req.status = resp.status ∧
      framing q.req.toRequestResponseHeader = announcedFraming resp.toRequestResponseHeader := by
  obtain ⟨r, at_, fresh⟩ := atLine_start resp
  have leads : Leads responseFramed (optionalLine (str "date") resp.date ++ resp.toStringCommon ++
      optionalLine (str "sec-websocket-accept") resp.secWebsocketAccept) {}
        (announcedFraming resp.toRequestResponseHeader) :=
    ((leads_optionalLine ⟨by decide, List.all_iff_forall_prop.mp (by decide)⟩ (by decide)
      ok.date).trans (leads_toStringCommon ok.common last)).trans
      (leads_optionalLine ⟨by decide, List.all_iff_forall_prop.mp (by decide)⟩ (by decide)
        ok.secWebsocketAccept)
  obtain ⟨q, s, at_', same, scanned⟩ := leads _ r at_ fresh
  have lines := (scanned (crlf ++ [])).trans (scan_end at_' [])
  have behind := reader.scan_ok (s := { state := .headerLines, lines := { req := started resp } })
    rfl lines
  have whole := scan_toString isVersion ok []
  rw [List.append_nil, List.append_nil] at whole
  rw [List.append_nil] at behind
  refine ⟨_, whole.trans behind, rfl, ?_, same⟩
  exact lines_status lines

/-- Chunks behind other codings make the header one that no parser reads. -/
theorem header_refused (isVersion : IsVersion resp.httpVersionMajor resp.httpVersionMinor)
    (ok : ResponseWellFormed resp) (chunked : resp.transferEncodingChunked = true)
    (kept : keptCodings resp.transferEncodings ≠ []) (rest : Bytes) :
    ∃ e, scan plain {} (resp.toString ++ rest) = .error e := by
  obtain ⟨r, at_, fresh⟩ := atLine_start resp
  have date : Leads responseFramed (optionalLine (str "date") resp.date) {} {} :=
    leads_optionalLine ⟨by decide, List.all_iff_forall_prop.mp (by decide)⟩ (by decide) ok.date
  obtain ⟨q, s, at_', same, scanned⟩ := date _ r at_ fresh
  have start : ∃ d more, optionalLine (str "sec-websocket-accept") resp.secWebsocketAccept ++
      (crlf ++ rest) = d :: more ∧ isSp d = false := by
    unfold optionalLine
    split
    · exact ⟨13, 10 :: rest, rfl, by decide⟩
    · exact ⟨ch 's', _, rfl, by decide⟩
  obtain ⟨d, more, split, other⟩ := start
  obtain ⟨e, refused⟩ := toStringCommon_refused ok.common chunked kept at_' same other more
  have lines :
      scan (lineMachine ResponseParser.actions) { req := started resp }
      (behindStatus resp ++ rest) = .error e := by
    simp only [behindStatus, List.append_assoc]
    rw [scanned, split]
    exact refused
  rw [scan_toString isVersion ok]
  exact ⟨e, ResponseTextProofs.reader.scan_error
    (s := { state := .headerLines, lines := { req := started resp } }) rfl lines⟩

end Headers

section Decoding

/-- The two parsers read the bytes as a response with this status and body, and
leave nothing. -/
def Decodes (bytes : Bytes) (resp : Response) : Prop :=
  ∃ p rest q, ResponseParser.parse {} bytes = .ok (p, rest) ∧ p.isGood = true ∧
    p.req.status = resp.header.status ∧
    (BodyParser.make p.req.contentLength p.req.transferEncodingChunked).parse rest = .ok (q, []) ∧
    q.isGood = true ∧ q.body = resp.body

/-- A body in the form that a framing announces. -/
private def Carried (f : Framing) (body bytes : Bytes) : Prop :=
  ∃ q, (BodyParser.make f.length f.chunked).parse bytes = .ok (q, []) ∧ q.isGood = true ∧ q.body = body

variable {header : ResponseHeader} {resp : Response} {bytes : Bytes}

/-- Where the body is carried as announced, all depends on the header. -/
private theorem decodes_iff (isVersion : IsVersion header.httpVersionMajor header.httpVersionMinor)
    (ok : ResponseWellFormed header) (status : header.status = resp.header.status)
    (carried : Carried (announcedFraming header.toRequestResponseHeader) resp.body bytes) :
    Decodes (header.toString ++ bytes) resp ↔
      header.toString.length ≤ ({} : ResponseParser).maxTotalLength ∧
      (header.transferEncodingChunked = true → keptCodings header.transferEncodings = []) := by
  constructor
  · rintro ⟨p, rest, q, parsed, good, -⟩
    have unlimited :
        scan plain {} (header.toString ++ bytes) = .ok ({ p with totalLength := 0 }, rest) :=
      limited.scan_within parsed 0
    have last : header.transferEncodingChunked = true → keptCodings header.transferEncodings = [] := by
      intro chunked
      by_contra kept
      obtain ⟨e, refused⟩ := header_refused isVersion ok chunked kept bytes
      rw [unlimited] at refused
      cases refused
    refine ⟨?_, last⟩
    obtain ⟨q', scanned, good', -⟩ := header_read isVersion ok last
    have whole := scan_whole scanned good' bytes
    rw [unlimited] at whole
    simp only [Except.ok.injEq, Prod.mk.injEq] at whole
    obtain ⟨bound, total⟩ := limited.scan_count parsed (Nat.zero_le _)
    rw [whole.2, List.length_append] at total
    have start : limited.count ({} : ResponseParser) = 0 := rfl
    have limit : limited.limit {} = ({} : ResponseParser).maxTotalLength := rfl
    omega
  · rintro ⟨fits, last⟩
    obtain ⟨p, scanned, good, same, framed⟩ := header_read isVersion ok last
    obtain ⟨n, parsed⟩ := limited.scan_ok (s := {}) (by simpa [limited] using fits) scanned
    have good' : ResponseParser.machine.good (limited.set p n) = true := good
    obtain ⟨q, read, good'', body⟩ := carried
    refine ⟨limited.set p n, bytes, q, scan_whole parsed good' bytes, good,
      same.trans status, ?_, good'', body⟩
    have length : p.req.contentLength = header.contentLength := congrArg Framing.length framed
    have chunked : p.req.transferEncodingChunked = header.transferEncodingChunked :=
      congrArg Framing.chunked framed
    have fields : (limited.set p n).req.contentLength = header.contentLength ∧
        (limited.set p n).req.transferEncodingChunked = header.transferEncodingChunked :=
      ⟨length, chunked⟩
    rw [fields.1, fields.2]
    exact read

end Decoding

section Writing

/-- A call that throws and leaves state and bytes alone, or returns with the response
complete and readable. -/
def Delivers (c : ServerConnection) (resp : Response) : Prop :=
  (∃ e, (c.writeResponse resp).1 = .error e) ∧ (c.writeResponse resp).2.state = c.state ∧
      stream (c.writeResponse resp).2.sock = stream c.sock ∨
    (c.writeResponse resp).1 = .ok () ∧ (c.writeResponse resp).2.state = .requestHeader ∧
      ∃ bytes, stream (c.writeResponse resp).2.sock = stream c.sock ++ bytes ∧ Decodes bytes resp

/-- A response that is refused by its header, or that is framed as it is announced. -/
def Framable (c : ServerConnection) (resp : Response) : Prop :=
  resp.header.isWebsocketUpgrade = true ∨
    resp.header.transferEncodingChunked = false ∧ resp.header.contentLength = none ∨
    (c.completeHeader resp.header).toString.length ≤ ({} : ResponseParser).maxTotalLength ∧
      (resp.header.transferEncodingChunked = false ∧ resp.header.contentLength.map UInt64.toNat =
        some resp.body.length ∨
        resp.header.transferEncodingChunked = true ∧ resp.header.contentLength = none ∧
          ∀ e ∈ resp.header.transferEncodings, toLower e = str "identity")

variable {c : ServerConnection} {resp : Response}

private theorem completed_delivers {bytes : Bytes}
    (completed : Completed c bytes (c.writeResponse resp)) :
    Delivers c resp ↔ Decodes bytes resp := by
  constructor
  · rintro (⟨⟨e, thrown⟩, -⟩ | ⟨-, -, bytes', grown, decodes⟩)
    · rw [completed.returned] at thrown
      cases thrown
    · rw [completed.stream] at grown
      rwa [List.append_cancel_left grown]
  · exact fun decodes => .inr ⟨completed.returned, completed.state, bytes, completed.stream, decodes⟩

/-- A call that throws at once. -/
private theorem refused_delivers {e : Error} (refused : c.writeResponse resp = (.error e, c)) :
    Delivers c resp :=
  .inl ⟨⟨e, by rw [refused]⟩, by rw [refused], by rw [refused]⟩

private theorem complete_wellFormed (ok : ResponseWellFormed resp.header) :
    ResponseWellFormed (c.completeHeader resp.header) :=
  ⟨ok.status, ok.statusText, ok.date, ok.secWebsocketAccept, ok.common.mime, ok.common.suffix,
    ok.common.encodings, ok.common.headers⟩

private theorem keptCodings_nil (encodings : List Bytes) :
    keptCodings encodings = [] ↔ ∀ e ∈ encodings, toLower e = str "identity" := by
  simp [keptCodings, List.filter_eq_nil_iff]

private theorem counted_delivers (owing : Owing c) (known : Known c)
    (ok : ResponseWellFormed resp.header) (upgrade : resp.header.isWebsocketUpgrade = false)
    (unchunked : resp.header.transferEncodingChunked = false)
    (length : resp.header.contentLength.map UInt64.toNat = some resp.body.length) :
    Delivers c resp ↔ (c.completeHeader resp.header).toString.length ≤
      ({} : ResponseParser).maxTotalLength := by
  obtain ⟨n, announced, same⟩ := Option.map_eq_some_iff.mp length
  have carried :
      Carried (announcedFraming (c.completeHeader resp.header).toRequestResponseHeader)
      resp.body resp.body := by
    have framing_ :
        (announcedFraming (c.completeHeader resp.header).toRequestResponseHeader).length = some n ∧
        (announcedFraming (c.completeHeader resp.header).toRequestResponseHeader).chunked = false :=
      ⟨announced, unchunked⟩
    rw [Carried, framing_.1, framing_.2]
    exact parse_counted same
  have isVersion :
      IsVersion (c.completeHeader resp.header).httpVersionMajor
      (c.completeHeader resp.header).httpVersionMinor := known
  rw [completed_delivers (writeResponse_counted owing upgrade unchunked length),
    decodes_iff isVersion (complete_wellFormed ok) rfl carried]
  have plain : (c.completeHeader resp.header).transferEncodingChunked = false := unchunked
  simp [plain]

private theorem chunked_delivers (owing : Owing c) (known : Known c)
    (ok : ResponseWellFormed resp.header) (size : resp.body.length < 2 ^ 64)
    (upgrade : resp.header.isWebsocketUpgrade = false)
    (chunked : resp.header.transferEncodingChunked = true) (length : resp.header.contentLength = none) :
    Delivers c resp ↔ (c.completeHeader resp.header).toString.length ≤
      ({} : ResponseParser).maxTotalLength ∧
      ∀ e ∈ resp.header.transferEncodings, toLower e = str "identity" := by
  have carried :
      Carried (announcedFraming (c.completeHeader resp.header).toRequestResponseHeader) resp.body
      ((if resp.body.length = 0 then [] else hex resp.body.length ++ crlf ++ resp.body ++ crlf) ++
        str "0\r\n\r\n") := by
    have framing_ :
        (announcedFraming (c.completeHeader resp.header).toRequestResponseHeader).length = none ∧
        (announcedFraming (c.completeHeader resp.header).toRequestResponseHeader).chunked = true :=
      ⟨length, chunked⟩
    rw [Carried, framing_.1, framing_.2]
    exact parse_chunked size
  have chunks : (c.completeHeader resp.header).transferEncodingChunked = true := chunked
  have encodings :
      (c.completeHeader resp.header).transferEncodings = resp.header.transferEncodings := rfl
  have isVersion :
      IsVersion (c.completeHeader resp.header).httpVersionMajor
      (c.completeHeader resp.header).httpVersionMinor := known
  rw [completed_delivers (writeResponse_chunked owing upgrade chunked length),
    decodes_iff isVersion (complete_wellFormed ok) rfl carried, encodings, keptCodings_nil]
  simp [chunks]

private theorem misframed_delivers (owing : Owing c)
    (upgrade : resp.header.isWebsocketUpgrade = false) {length : UInt64}
    (announced : resp.header.contentLength = some length)
    (wrong : resp.header.transferEncodingChunked = true ∨ length.toNat ≠ resp.body.length) :
    ¬Delivers c resp := by
  obtain ⟨moved, open_⟩ := writeResponse_misframed owing upgrade announced wrong
  rintro (⟨-, same, -⟩ | ⟨returned, state, -⟩)
  · exact moved (same.trans owing.state)
  · exact open_ ⟨returned, state⟩

/-- A response is delivered exactly when its header is refused at once, or when its
framing is the one that is announced: a length that is the body's, or chunks and no
length and no other coding, under a header that a parser accepts. -/
theorem whole_response_delivered (before : List ServerOp) (resp : Response)
    (opened : (afterOps {} before).isOpen = true)
    (state : (afterOps {} before).state = .responseHeader) (ok : ResponseWellFormed resp.header)
    (size : resp.body.length < 2 ^ 64) :
    Delivers (afterOps {} before) resp ↔ Framable (afterOps {} before) resp := by
  have owing := owing_of_run opened state
  have known := known_of_run before
  generalize afterOps {} before = c at owing known
  unfold Framable
  cases upgrade : resp.header.isWebsocketUpgrade with
  | true =>
    obtain ⟨e, refused⟩ := writeResponse_upgrade owing.opened upgrade
    simp [refused_delivers refused]
  | false =>
    cases chunked : resp.header.transferEncodingChunked with
    | false =>
      cases length : resp.header.contentLength with
      | none =>
        obtain ⟨e, refused⟩ := writeResponse_unframed owing.opened chunked length
        simp [refused_delivers refused]
      | some n =>
        by_cases same : n.toNat = resp.body.length
        · rw [counted_delivers owing known ok upgrade chunked (by simp [length, same])]
          simp [same]
        · simp [misframed_delivers owing upgrade length (.inr same), same]
    | true =>
      cases length : resp.header.contentLength with
      | none =>
        rw [chunked_delivers owing known ok size upgrade chunked length]
        simp
      | some n => simp [misframed_delivers owing upgrade length (.inl chunked)]

private def requested : List ServerOp :=
  .accept .ready :: ServerEndProofs.received (str "GET / HTTP/1.1\r\n\r\n") ++ [.readNextRequest]

private def chunkedResponse : Response :=
  { header :=
      { status := 200, transferEncodingChunked := true, contentTypeMime := str "text/plain",
        transferEncodings := [str "Identity"]
        headers := [{ name := str "Server", value := str "crab " }] }
    body := str "ok" }

theorem whole_response_delivered_chunked : Framable (afterOps
      {} requested) chunkedResponse ∧ Delivers (afterOps {} requested) chunkedResponse := by
  have opened : (afterOps {} requested).isOpen = true ∧ (afterOps
    {} requested).state = .responseHeader := by decide +kernel
  have ok : ResponseWellFormed chunkedResponse.header :=
    { status := by decide +kernel, statusText := by decide +kernel
      date := by unfold IsPlain; decide +kernel, secWebsocketAccept := by unfold IsPlain; decide +kernel
      common :=
        { mime := by unfold IsPlain; decide +kernel
          suffix := by unfold IsPlain; decide +kernel
          encodings := by decide +kernel
          headers := by
            intro h member
            rw [List.mem_singleton.mp member]
            exact ⟨⟨by decide +kernel, by decide +kernel⟩, by decide +kernel, by
              unfold IsPlain; decide +kernel⟩ } }
  have framable : Framable (afterOps {} requested) chunkedResponse :=
    .inr (.inr ⟨by decide +kernel, .inr ⟨rfl, rfl, by decide⟩⟩)
  exact ⟨framable, (whole_response_delivered requested chunkedResponse opened.1 opened.2 ok
    (by decide)).mpr framable⟩

/-- A body that is longer than announced. -/
private def overshooting : Response :=
  { header := { status := 200, contentLength := some 1 }, body := str "ok" }

/-- The call throws, and the header has been written. -/
theorem response_half_written :
    (afterOps {} requested).isOpen = true ∧ (afterOps {} requested).state = .responseHeader ∧
      (∃ e, ((afterOps {} requested).writeResponse overshooting).1 = .error e) ∧
      ((afterOps {} requested).writeResponse overshooting).2.state = .responseBody ∧
      stream ((afterOps {} requested).writeResponse overshooting).2.sock ≠
      stream (afterOps {} requested).sock ∧ ¬Delivers (afterOps {} requested) overshooting := by
  have facts : (afterOps {} requested).isOpen = true ∧ (afterOps {} requested).state = .responseHeader ∧
      ((afterOps {} requested).writeResponse overshooting).1.toOption = none ∧
      ((afterOps {} requested).writeResponse overshooting).2.state = .responseBody ∧
      stream ((afterOps {} requested).writeResponse overshooting).2.sock ≠
      stream (afterOps {} requested).sock := by decide +kernel
  obtain ⟨opened, state, thrown, moved, grown⟩ := facts
  cases result : ((afterOps {} requested).writeResponse overshooting).1 with
  | ok u => simp [result, Except.toOption] at thrown
  | error e =>
    refine ⟨opened, state, ⟨e, rfl⟩, moved, grown, ?_⟩
    rintro (⟨-, same, -⟩ | ⟨returned, -⟩)
    · rw [moved, state] at same
      cases same
    · rw [result] at returned
      cases returned

end Writing

end Crablib.DecodableProofs
