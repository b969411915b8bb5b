import Crablib.Http.Copies
import Crablib.LockstepProofs

/-! The two header parsers of the source are copies of each other, edited by hand. Each
of them is the parser with the shared header lines, seen through a map of its states, so
that what one copy does the other does too. -/
namespace Crablib.CopiesProofs
open Http Scanner HeaderProofs HeaderTextProofs LockstepProofs

private theorem token_checks (c : UInt8) : (!isChar c || isCtl c || isTspecial c) = !isToken c := by
  simp [isToken]

section Requests

/-- The states of the start line; behind it there is one. -/
def requestStartState : Copies.RequestParser.State → RequestParserState
  | .methodStart => .methodStart
  | .methodStartLf => .methodStartLf
  | .method => .method
  | .uriStart => .uriStart
  | .uri => .uri
  | .uriPercent1 => .uriPercent1
  | .uriPercent2 => .uriPercent2
  | .uriQueryString => .uriQueryString
  | .uriAnchor => .uriAnchor
  | .httpVersionH => .httpVersionH
  | .httpVersionHt => .httpVersionHt
  | .httpVersionHtt => .httpVersionHtt
  | .httpVersionHttp => .httpVersionHttp
  | .httpVersionSlash => .httpVersionSlash
  | .httpVersionMajorStart => .httpVersionMajorStart
  | .httpVersionMajor => .httpVersionMajor
  | .httpVersionMinorStart => .httpVersionMinorStart
  | .httpVersionMinor => .httpVersionMinor
  | .statusLineCr => .statusLineCr
  | .statusLineLf => .statusLineLf
  | _ => .headerLines

/-- The states behind the start line; in front of its end there is one. -/
def requestLineState : Copies.RequestParser.State → LineState
  | .headerLineStart => .headerLineStart
  | .headerName => .headerName
  | .headerColon => .headerColon
  | .spaceBeforeHeaderValue => .spaceBeforeHeaderValue
  | .headerValue => .headerValue
  | .headerLf => .headerLf
  | .finalLf => .finalLf
  | .good => .good
  | _ => .firstHeaderLineStart

def requestView (p : Copies.RequestParser) : RequestParser where
  state := requestStartState p.state
  lines :=
    { state := requestLineState p.state, header := p.header,
      headerCmsList := p.headerCmsList, req := p.req }
  percent1HexDigit := p.percent1HexDigit
  totalLength := p.totalLength
  maxTotalLength := p.maxTotalLength

/-- `process_ready_header` does to the message what the shared header lines do, and leaves
nothing else changed but the value. -/
theorem requestReady (p : Copies.RequestParser) : ∃ value,
    p.processReadyHeader = (readyHeader RequestParser.actions (requestView p).lines).map fun req =>
      { p with header.value := value, req := req } := by
  obtain ⟨state, limit, req, ⟨name, value⟩, list, digit, total⟩ := p
  by_cases empty : (list && (trimRight value).isEmpty) = true
  · simp only [Copies.RequestParser.processReadyHeader, readyHeader, requestView, empty, ↓reduceIte]
    exact ⟨_, rfl⟩
  simp only [readyHeader, requestView, RequestParser.actions, empty, Bool.false_eq_true, ↓reduceIte]
  by_cases length : name = str "content-length"
  · simp only [Copies.RequestParser.processReadyHeader, RequestParser.processReadyHeader,
      processCommonHeader, empty, length, ↓reduceIte, Bool.false_eq_true]
    split
    · exact ⟨[], rfl⟩
    · unfold integerCast
      cases integerParse .uint64 (trimRight value) <;> exact ⟨trimRight value, rfl⟩
  by_cases encoding : name = str "transfer-encoding"
  · simp +decide only [Copies.RequestParser.processReadyHeader, RequestParser.processReadyHeader,
      processCommonHeader, empty, encoding, ↓reduceIte, Bool.false_eq_true]
    repeat' first | exact ⟨_, rfl⟩ | exact ⟨[], rfl⟩ | split
  by_cases host : name = str "host"
  · simp +decide only [Copies.RequestParser.processReadyHeader, RequestParser.processReadyHeader,
      processCommonHeader, empty, host, ↓reduceIte, Bool.false_eq_true]
    exact ⟨_, rfl⟩
  by_cases origin : name = str "origin"
  · simp +decide only [Copies.RequestParser.processReadyHeader, RequestParser.processReadyHeader,
      processCommonHeader, empty, origin, ↓reduceIte, Bool.false_eq_true]
    exact ⟨_, rfl⟩
  by_cases type : name = str "content-type"
  · simp +decide only [Copies.RequestParser.processReadyHeader, RequestParser.processReadyHeader,
      processCommonHeader, empty, type, ↓reduceIte, Bool.false_eq_true]
    exact ⟨_, rfl⟩
  by_cases connection : name = str "connection"
  · simp +decide only [Copies.RequestParser.processReadyHeader, RequestParser.processReadyHeader,
      processCommonHeader, empty, connection, ↓reduceIte, Bool.false_eq_true]
    repeat' first | exact ⟨_, rfl⟩ | exact ⟨[], rfl⟩ | split
  by_cases authorization : name = str "authorization"
  · simp +decide only [Copies.RequestParser.processReadyHeader, RequestParser.processReadyHeader,
      processCommonHeader, empty, authorization, ↓reduceIte, Bool.false_eq_true]
    exact ⟨_, rfl⟩
  by_cases upgrade : name = str "upgrade"
  · simp +decide only [Copies.RequestParser.processReadyHeader, RequestParser.processReadyHeader,
      processCommonHeader, empty, upgrade, ↓reduceIte, Bool.false_eq_true]
    repeat' first | exact ⟨_, rfl⟩ | exact ⟨[], rfl⟩ | split
  by_cases key : name = str "sec-websocket-key"
  · simp +decide only [Copies.RequestParser.processReadyHeader, RequestParser.processReadyHeader,
      processCommonHeader, empty, key, ↓reduceIte, Bool.false_eq_true]
    exact ⟨_, rfl⟩
  by_cases version : name = str "sec-websocket-version"
  · simp +decide only [Copies.RequestParser.processReadyHeader, RequestParser.processReadyHeader,
      processCommonHeader, empty, version, ↓reduceIte, Bool.false_eq_true]
    exact ⟨_, rfl⟩
  simp only [Copies.RequestParser.processReadyHeader,
    RequestParser.processReadyHeader, processCommonHeader,
    empty, length, encoding, host, origin, type, connection, authorization, upgrade,
    key, version, ↓reduceIte, Bool.false_eq_true]
  exact ⟨_, rfl⟩

private theorem requestView_value (p : Copies.RequestParser) (c : UInt8)
    (behind : requestStartState p.state = .headerLines) :
    (p.headerValue c).map requestView =
      (headerValue RequestParser.actions (requestView p).lines c).map fun lines =>
        { requestView p with lines := lines } := by
  obtain ⟨value, ready⟩ := requestReady p
  simp only [Copies.RequestParser.headerValue, headerValue, requestView, behind] at ready ⊢
  rw [ready]
  generalize readyHeader RequestParser.actions _ = handed
  cases handed <;> repeat' first | rfl | split

/-- A byte of the header lines. -/
private theorem requestView_line (p : Copies.RequestParser) (c : UInt8)
    (behind : requestStartState p.state = .headerLines) :
    (p.advance c).map requestView =
      (consumeLine RequestParser.actions (requestView p).lines c).map fun lines =>
        { requestView p with lines := lines } := by
  obtain ⟨value, ready⟩ := requestReady p
  have valued := requestView_value p c behind
  obtain ⟨state, limit, req, header, list, digit, total⟩ := p
  cases state
  case headerLineStart =>
    simp only [Copies.RequestParser.advance, requestView, requestLineState, consumeLine] at ready ⊢
    rw [ready]
    by_cases sp : isSp c = true
    · simp only [sp, ↓reduceIte]
      rfl
    generalize readyHeader RequestParser.actions _ = handed
    simp only [sp, Bool.false_eq_true, ↓reduceIte]
    cases handed with
    | error e => rfl
    | ok req =>
      simp only [lineStart, token_checks, Except.map]
      by_cases cr : c = 13
      · simp only [cr, ↓reduceIte]
        rfl
      by_cases lf : c = 10
      · simp only [lf, ↓reduceIte]
        rfl
      simp only [cr, lf, ↓reduceIte]
      cases isToken c <;> rfl
  case headerValue => exact valued
  case spaceBeforeHeaderValue =>
    by_cases sp : isSp c = true
    · simp only [Copies.RequestParser.advance, requestView, requestLineState,
        consumeLine, sp, ↓reduceIte]
      rfl
    · simp only [Copies.RequestParser.advance, sp, Bool.false_eq_true, ↓reduceIte]
      rw [valued]
      simp only [requestView, requestLineState, consumeLine, sp, Bool.false_eq_true, ↓reduceIte]
  case firstHeaderLineStart | headerName | headerColon | headerLf | finalLf | good =>
    simp only [Copies.RequestParser.advance, Copies.RequestParser.headerColon, requestView,
      requestLineState, consumeLine, lineStart, headerColon, token_checks]
    repeat' first | rfl | split
  all_goals cases behind

/-- `consume` behind its length check, of the parser and of its view. -/
theorem requestView_advance (p : Copies.RequestParser) (c : UInt8) :
    (requestView p).advance c = (p.advance c).map requestView := by
  by_cases behind : requestStartState p.state = .headerLines
  · rw [requestView_line p c behind]
    simp only [RequestParser.advance, requestView, behind]
    cases consumeLine RequestParser.actions _ c <;> rfl
  obtain ⟨state, limit, req, header, list, digit, total⟩ := p
  cases state
  case uriPercent1 | uriPercent2 =>
    simp only [RequestParser.advance, requestView, requestStartState, Copies.RequestParser.advance]
    cases fromHexDigit c <;> rfl
  case firstHeaderLineStart | headerLineStart | headerName | headerColon | spaceBeforeHeaderValue |
    headerValue | headerLf | finalLf | good => exact absurd rfl behind
  case httpVersionMajor =>
    simp only [RequestParser.advance, requestView, requestStartState, Copies.RequestParser.advance]
    split
    · rfl
    split
    · rfl
    by_cases big : req.httpVersionMajor * 10 + digitOf c > 1
    · rw [if_pos big]
      exact if_pos big
    · rw [if_neg big]
      exact if_neg big
  case httpVersionMinor =>
    simp only [RequestParser.advance, requestView, requestStartState, Copies.RequestParser.advance]
    repeat' first | rfl | (split; rfl) | split
    by_cases big : req.httpVersionMinor * 10 + digitOf c > 99
    · rw [if_pos big]
      exact if_pos big
    · rw [if_neg big]
      exact if_neg big
  all_goals
    simp only [RequestParser.advance, RequestParser.expectLetter, RequestParser.req,
      requestView, requestStartState, Copies.RequestParser.advance, token_checks]
    repeat' first | rfl | split

/-- The request parser is the one of the shared header lines. -/
def requestHom : Hom Copies.RequestParser.machine RequestParser.machine where
  map := requestView
  good := fun p => by
    obtain ⟨state, limit, req, header, list, digit, total⟩ := p
    cases state <;> rfl
  consume := fun p c => by
    simp only [RequestParser.machine, Copies.RequestParser.machine, RequestParser.consume,
      Copies.RequestParser.consume]
    by_cases long : p.totalLength + 1 > p.maxTotalLength
    · rw [if_pos long]
      exact if_pos long
    · rw [if_neg long]
      exact (if_neg long).trans (requestView_advance { p with totalLength := p.totalLength + 1 } c)

end Requests

section Responses

/-- The states of the status line; behind it there is one. -/
def responseStartState : Copies.ResponseParser.State → ResponseParserState
  | .httpVersionH => .httpVersionH
  | .httpVersionHt => .httpVersionHt
  | .httpVersionHtt => .httpVersionHtt
  | .httpVersionHttp => .httpVersionHttp
  | .httpVersionSlash => .httpVersionSlash
  | .httpVersionMajorStart => .httpVersionMajorStart
  | .httpVersionMajor => .httpVersionMajor
  | .httpVersionMinorStart => .httpVersionMinorStart
  | .httpVersionMinor => .httpVersionMinor
  | .statusCode1 => .statusCode1
  | .statusCode2 => .statusCode2
  | .statusCode3 => .statusCode3
  | .statusCodeSpace => .statusCodeSpace
  | .statusTextStart => .statusTextStart
  | .statusText => .statusText
  | .statusLineLf => .statusLineLf
  | _ => .headerLines

/-- The states behind the status line; in front of its end there is one. -/
def responseLineState : Copies.ResponseParser.State → LineState
  | .headerLineStart => .headerLineStart
  | .headerName => .headerName
  | .headerColon => .headerColon
  | .spaceBeforeHeaderValue => .spaceBeforeHeaderValue
  | .headerValue => .headerValue
  | .headerLf => .headerLf
  | .finalLf => .finalLf
  | .good => .good
  | _ => .firstHeaderLineStart

def responseView (p : Copies.ResponseParser) : ResponseParser where
  state := responseStartState p.state
  lines :=
    { state := responseLineState p.state, header := p.header,
      headerCmsList := p.headerCmsList, req := p.req }
  totalLength := p.totalLength
  maxTotalLength := p.maxTotalLength

/-- `process_ready_header` does to the message what the shared header lines do, and leaves
nothing else changed but the value. -/
theorem responseReady (p : Copies.ResponseParser) : ∃ value,
    p.processReadyHeader = (readyHeader ResponseParser.actions (responseView p).lines).map fun req =>
      { p with header.value := value, req := req } := by
  obtain ⟨state, limit, req, ⟨name, value⟩, list, total⟩ := p
  by_cases empty : (list && (trimRight value).isEmpty) = true
  · simp only [Copies.ResponseParser.processReadyHeader, readyHeader, responseView, empty, ↓reduceIte]
    exact ⟨_, rfl⟩
  simp only [readyHeader, responseView, ResponseParser.actions, empty, Bool.false_eq_true, ↓reduceIte]
  by_cases length : name = str "content-length"
  · simp only [Copies.ResponseParser.processReadyHeader, ResponseParser.processReadyHeader,
      processCommonHeader, empty, length, ↓reduceIte, Bool.false_eq_true]
    split
    · exact ⟨[], rfl⟩
    · unfold integerCast
      cases integerParse .uint64 (trimRight value) <;> exact ⟨trimRight value, rfl⟩
  by_cases encoding : name = str "transfer-encoding"
  · simp +decide only [Copies.ResponseParser.processReadyHeader, ResponseParser.processReadyHeader,
      processCommonHeader, empty, encoding, ↓reduceIte, Bool.false_eq_true]
    repeat' first | exact ⟨_, rfl⟩ | exact ⟨[], rfl⟩ | split
  by_cases type : name = str "content-type"
  · simp +decide only [Copies.ResponseParser.processReadyHeader, ResponseParser.processReadyHeader,
      processCommonHeader, empty, type, ↓reduceIte, Bool.false_eq_true]
    exact ⟨_, rfl⟩
  by_cases connection : name = str "connection"
  · simp +decide only [Copies.ResponseParser.processReadyHeader, ResponseParser.processReadyHeader,
      processCommonHeader, empty, connection, ↓reduceIte, Bool.false_eq_true]
    repeat' first | exact ⟨_, rfl⟩ | exact ⟨[], rfl⟩ | split
  by_cases upgrade : name = str "upgrade"
  · simp +decide only [Copies.ResponseParser.processReadyHeader, ResponseParser.processReadyHeader,
      processCommonHeader, empty, upgrade, ↓reduceIte, Bool.false_eq_true]
    repeat' first | exact ⟨_, rfl⟩ | exact ⟨[], rfl⟩ | split
  by_cases accept : name = str "sec-websocket-accept"
  · simp +decide only [Copies.ResponseParser.processReadyHeader, ResponseParser.processReadyHeader,
      processCommonHeader, empty, accept, ↓reduceIte, Bool.false_eq_true]
    exact ⟨_, rfl⟩
  by_cases date : name = str "date"
  · simp +decide only [Copies.ResponseParser.processReadyHeader, ResponseParser.processReadyHeader,
      processCommonHeader, empty, date, ↓reduceIte, Bool.false_eq_true]
    exact ⟨_, rfl⟩
  by_cases server : name = str "server"
  · simp +decide only [Copies.ResponseParser.processReadyHeader, ResponseParser.processReadyHeader,
      processCommonHeader, empty, server, ↓reduceIte, Bool.false_eq_true]
    exact ⟨_, rfl⟩
  simp only [Copies.ResponseParser.processReadyHeader,
    ResponseParser.processReadyHeader, processCommonHeader,
    empty, length, encoding, type, connection, upgrade, accept, date, server, ↓reduceIte,
    Bool.false_eq_true]
  exact ⟨_, rfl⟩

private theorem responseView_value (p : Copies.ResponseParser) (c : UInt8)
    (behind : responseStartState p.state = .headerLines) :
    (p.headerValue c).map responseView =
      (headerValue ResponseParser.actions (responseView p).lines c).map fun lines =>
        { responseView p with lines := lines } := by
  obtain ⟨value, ready⟩ := responseReady p
  simp only [Copies.ResponseParser.headerValue, headerValue, responseView, behind] at ready ⊢
  rw [ready]
  generalize readyHeader ResponseParser.actions _ = handed
  cases handed <;> repeat' first | rfl | split

/-- A byte of the header lines. -/
private theorem responseView_line (p : Copies.ResponseParser) (c : UInt8)
    (behind : responseStartState p.state = .headerLines) :
    (p.advance c).map responseView =
      (consumeLine ResponseParser.actions (responseView p).lines c).map fun lines =>
        { responseView p with lines := lines } := by
  obtain ⟨value, ready⟩ := responseReady p
  have valued := responseView_value p c behind
  obtain ⟨state, limit, req, header, list, total⟩ := p
  cases state
  case headerLineStart =>
    simp only [Copies.ResponseParser.advance, responseView, responseLineState, consumeLine] at ready ⊢
    rw [ready]
    by_cases sp : isSp c = true
    · simp only [sp, ↓reduceIte]
      rfl
    generalize readyHeader ResponseParser.actions _ = handed
    simp only [sp, Bool.false_eq_true, ↓reduceIte]
    cases handed with
    | error e => rfl
    | ok req =>
      simp only [lineStart, token_checks, Except.map]
      by_cases cr : c = 13
      · simp only [cr, ↓reduceIte]
        rfl
      by_cases lf : c = 10
      · simp only [lf, ↓reduceIte]
        rfl
      simp only [cr, lf, ↓reduceIte]
      cases isToken c <;> rfl
  case headerValue => exact valued
  case spaceBeforeHeaderValue =>
    by_cases sp : isSp c = true
    · simp only [Copies.ResponseParser.advance, responseView, responseLineState,
        consumeLine, sp, ↓reduceIte]
      rfl
    · simp only [Copies.ResponseParser.advance, sp, Bool.false_eq_true, ↓reduceIte]
      rw [valued]
      simp only [responseView, responseLineState, consumeLine, sp, Bool.false_eq_true, ↓reduceIte]
  case firstHeaderLineStart | headerName | headerColon | headerLf | finalLf | good =>
    simp only [Copies.ResponseParser.advance, Copies.ResponseParser.headerColon, responseView,
      responseLineState, consumeLine, lineStart, headerColon, token_checks]
    repeat' first | rfl | split
  all_goals cases behind

/-- `consume` behind its length check, of the parser and of its view. -/
theorem responseView_advance (p : Copies.ResponseParser) (c : UInt8) :
    (responseView p).advance c = (p.advance c).map responseView := by
  by_cases behind : responseStartState p.state = .headerLines
  · rw [responseView_line p c behind]
    simp only [ResponseParser.advance, responseView, behind]
    cases consumeLine ResponseParser.actions _ c <;> rfl
  obtain ⟨state, limit, req, header, list, total⟩ := p
  cases state
  case firstHeaderLineStart | headerLineStart | headerName | headerColon | spaceBeforeHeaderValue |
    headerValue | headerLf | finalLf | good => exact absurd rfl behind
  case httpVersionMajor =>
    simp only [ResponseParser.advance, responseView, responseStartState, Copies.ResponseParser.advance]
    split
    · rfl
    split
    · rfl
    by_cases big : req.httpVersionMajor * 10 + digitOf c > 1
    · rw [if_pos big]
      exact if_pos big
    · rw [if_neg big]
      exact if_neg big
  case httpVersionMinor =>
    simp only [ResponseParser.advance, responseView, responseStartState, Copies.ResponseParser.advance]
    repeat' first | rfl | (split; rfl) | split
    by_cases big : req.httpVersionMinor * 10 + digitOf c > 99
    · rw [if_pos big]
      exact if_pos big
    · rw [if_neg big]
      exact if_neg big
  all_goals
    simp only [ResponseParser.advance, ResponseParser.expectLetter, ResponseParser.statusDigit,
      ResponseParser.statusText, Copies.ResponseParser.statusText, ResponseParser.req,
      responseView, responseStartState, Copies.ResponseParser.advance]
    repeat' first | rfl | split

/-- The response parser is the one of the shared header lines. -/
def responseHom : Hom Copies.ResponseParser.machine ResponseParser.machine where
  map := responseView
  good := fun p => by
    obtain ⟨state, limit, req, header, list, total⟩ := p
    cases state <;> rfl
  consume := fun p c => by
    simp only [ResponseParser.machine, Copies.ResponseParser.machine, ResponseParser.consume,
      Copies.ResponseParser.consume]
    by_cases long : p.totalLength + 1 > p.maxTotalLength
    · rw [if_pos long]
      exact if_pos long
    · rw [if_neg long]
      exact (if_neg long).trans (responseView_advance { p with totalLength := p.totalLength + 1 } c)

end Responses

section Agreement

/-- Both parsers accept, reject or wait, with the same bytes left and for the same
reason. Once the first byte behind the start line is read, they hold the same fields. -/
def SameOutcome (text : Bytes) (x : Except Error (Copies.RequestParser × Bytes))
    (y : Except Error (Copies.ResponseParser × Bytes)) : Prop :=
  Matches (fun _ p q => p.isGood = q.isGood ∧ (text ≠ [] → SameFields p.req q.req)) x y

variable {p : Copies.RequestParser} {q : Copies.ResponseParser} {text : Bytes}

private theorem request_fits {front back : Bytes} (fits : p.parse (front ++ back) ≠ .error tooLong) :
    (requestView p).parse front ≠ .error RequestTextProofs.limited.tooLong := by
  intro long
  have failed : p.parse front = .error tooLong := requestHom.of_error long
  exact fits (scan_append_error failed)

private theorem response_fits {front back : Bytes} (fits : q.parse (front ++ back) ≠ .error tooLong) :
    (responseView q).parse front ≠ .error ResponseTextProofs.limited.tooLong := by
  intro long
  have failed : q.parse front = .error tooLong := responseHom.of_error long
  exact fits (scan_append_error failed)

/-- The start lines of the two parsers leave them at the same place in the header lines. -/
private theorem views_abreast {limit limit' : Nat} {requestLine responseLine : Bytes}
    (request : Copies.RequestParser.parse { maxTotalLength := limit } requestLine = .ok (p, []))
    (requestFirst : p.state = .firstHeaderLineStart)
    (response : Copies.ResponseParser.parse { maxTotalLength := limit' } responseLine = .ok (q, []))
    (responseFirst : q.state = .firstHeaderLineStart)
    (major : p.req.httpVersionMajor = q.req.httpVersionMajor)
    (minor : p.req.httpVersionMinor = q.req.httpVersionMinor)
    (names : ∀ name ∈ headerNames text, name ∉ ownNames) :
    Abreast text (requestView p).lines (responseView q).lines := by
  have requestFresh : RequestFresh (requestView p) :=
    request_fresh (requestHom.scan_ok request) fun _ => by
      simp [requestView, requestLineState, requestFirst]
  have responseFresh : ResponseFresh (responseView q) :=
    response_fresh (responseHom.scan_ok response) fun _ => by
      simp [responseView, responseLineState, responseFirst]
  obtain ⟨lines, fields⟩ := requestFresh
  obtain ⟨lines', fields'⟩ := responseFresh
  rw [lines, lines']
  refine ⟨⟨rfl, fun _ => ?_, fun other => absurd rfl other, fun named => by cases named⟩, names⟩
  show { (requestView p).req.toRequestResponseHeader with
    keepAlive := persists (requestView p).req.httpVersionMajor (requestView p).req.httpVersionMinor } =
      (responseView q).req.toRequestResponseHeader
  have state : (responseView q).state = .headerLines := by
    simp [responseView, responseStartState, responseFirst]
  have sameMajor : (requestView p).req.httpVersionMajor = (responseView q).req.httpVersionMajor := major
  have sameMinor : (requestView p).req.httpVersionMinor = (responseView q).req.httpVersionMinor := minor
  rw [fields, fields', state, sameMajor, sameMinor]
  rfl

/-- Behind start lines of the same version, the request parser and the response parser
go through every text alike, part by part, as long as it brings no header that one of
them handles in its own way and neither comes to its limit. -/
theorem header_parsers_agree {limit limit' : Nat} {requestLine responseLine text : Bytes}
    (request : Copies.RequestParser.parse { maxTotalLength := limit } requestLine = .ok (p, []))
    (requestFirst : p.state = .firstHeaderLineStart)
    (response : Copies.ResponseParser.parse { maxTotalLength := limit' } responseLine = .ok (q, []))
    (responseFirst : q.state = .firstHeaderLineStart)
    (major : p.req.httpVersionMajor = q.req.httpVersionMajor)
    (minor : p.req.httpVersionMinor = q.req.httpVersionMinor)
    (names : ∀ name ∈ headerNames text, name ∉ ownNames)
    (requestFits : p.parse text ≠ .error tooLong) (responseFits : q.parse text ≠ .error tooLong) :
    ∀ front back, text = front ++ back → SameOutcome front (p.parse front) (q.parse front) := by
  rintro front back rfl
  have abreast := views_abreast request requestFirst response responseFirst major minor
    fun name member => names name (namesFrom_front _ front back member)
  have running : (requestView p).lines.state ≠ .good := by
    simp [requestView, requestLineState, requestFirst]
  have left := RequestTextProofs.reader.scan_limited RequestTextProofs.limited (fun _ _ => rfl)
    (by simp [requestView, requestStartState, requestFirst, RequestTextProofs.reader])
    (request_fits requestFits)
  have right := ResponseTextProofs.reader.scan_limited ResponseTextProofs.limited (fun _ _ => rfl)
    (by simp [responseView, responseStartState, responseFirst, ResponseTextProofs.reader])
    (response_fits responseFits)
  have alike := (left.comp (scan_abreast abreast running)).comp right.symm
  have viewed : Matches _ (scan RequestParser.machine (requestHom.map p) front)
    (scan ResponseParser.machine (responseHom.map q) front) := alike
  rw [requestHom.scan_map, responseHom.scan_map] at viewed
  refine (Matches.map_iff.mp viewed).mono ?_
  rintro rest s t ⟨l', ⟨l, ⟨lines, good⟩, state, fields⟩, lines', good'⟩
  refine ⟨?_, fun some_ => ?_⟩
  · calc
      s.isGood = (lineMachine RequestParser.actions).good l := (requestHom.good s).symm.trans good
      _ = (lineMachine ResponseParser.actions).good l' := congrArg (· == LineState.good) state
      _ = t.isGood := good'.symm.trans (responseHom.good t)
  · have same := fields some_
    rwa [← lines, ← lines'] at same

theorem header_parsers_agree_keepAlive :
    ∃ p q, Copies.RequestParser.parse {} (str "GET / HTTP/1.0" ++ crlf) = .ok (p, []) ∧
      Copies.ResponseParser.parse {} (str "HTTP/1.0 200 OK" ++ crlf) = .ok (q, []) ∧
      let text := str "Connection: keep-alive" ++ crlf ++ str "x-id: 7" ++ crlf ++ crlf
      SameOutcome text (p.parse text) (q.parse text) := by
  let p : Copies.RequestParser :=
    { state := .firstHeaderLineStart, totalLength := 16
      req := { method := str "GET", path := str "/", httpVersionMinor := 0 } }
  let q : Copies.ResponseParser :=
    { state := .firstHeaderLineStart, totalLength := 17
      req := { status := 200, statusText := str "OK", httpVersionMinor := 0, keepAlive := false } }
  have request : Copies.RequestParser.parse {} (str "GET / HTTP/1.0" ++ crlf) = .ok (p, []) := rfl
  have response : Copies.ResponseParser.parse {} (str "HTTP/1.0 200 OK" ++ crlf) = .ok (q, []) := rfl
  let text := str "Connection: keep-alive" ++ crlf ++ str "x-id: 7" ++ crlf ++ crlf
  have requestRead : (p.parse text).toOption.isSome = true := by decide +kernel
  have responseRead : (q.parse text).toOption.isSome = true := by decide +kernel
  have names : ∀ name ∈ headerNames text, name ∉ ownNames := by decide +kernel
  refine ⟨p, q, request, response, header_parsers_agree request rfl response rfl rfl rfl names
    (fun failed => ?_) (fun failed => ?_) text [] (List.append_nil _).symm⟩
  · rw [failed] at requestRead
    cases requestRead
  · rw [failed] at responseRead
    cases responseRead

end Agreement

end Crablib.CopiesProofs
