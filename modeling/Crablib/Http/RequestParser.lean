import Crablib.Http.HeaderLines
import Crablib.Library.Scanner

/-! `RequestParser` of `http/request_parser.hxx`. A byte that makes `consume`
throw leaves no parser behind: every caller drops it and the connection with it. -/
namespace Crablib.Http

inductive RequestParserState where
  | methodStart
  | methodStartLf
  | method
  | uriStart
  | uri
  | uriPercent1
  | uriPercent2
  | uriQueryString
  | uriAnchor
  | httpVersionH
  | httpVersionHt
  | httpVersionHtt
  | httpVersionHttp
  | httpVersionSlash
  | httpVersionMajorStart
  | httpVersionMajor
  | httpVersionMinorStart
  | httpVersionMinor
  | statusLineCr
  | statusLineLf
  | headerLines
  deriving DecidableEq, Repr

/-- `lines` holds the header under construction and `req`; its state counts
once `state` is `headerLines`. -/
structure RequestParser where
  state : RequestParserState := .methodStart
  lines : HeaderLines RequestHeader := { req := {} }
  percent1HexDigit : Nat := 0
  totalLength : Nat := 0
  maxTotalLength : Nat := 8192

namespace RequestParser

def req (p : RequestParser) : RequestHeader := p.lines.req

def setReq (p : RequestParser) (req : RequestHeader) : RequestParser := { p with lines.req := req }

def goTo (p : RequestParser) (state : RequestParserState) : RequestParser := { p with state := state }

def isGood (p : RequestParser) : Bool := p.state == .headerLines && p.lines.state == .good

def processReadyHeader (header : Header) (req : RequestHeader) : Except Error RequestHeader :=
  match processCommonHeader header.name header.value req.toRequestResponseHeader with
  | some (.ok common) => .ok { req with toRequestResponseHeader := common }
  | some (.error e) => .error e
  | none =>
    if header.name = str "host" then .ok { req with host := header.value }
    else if header.name = str "origin" then .ok { req with origin := header.value }
    else if header.name = str "authorization" then
      .ok { req with basicAuthorization := (parseAuthorizationBasic
        header.value).getD req.basicAuthorization }
    else if header.name = str "sec-websocket-key" then .ok { req with secWebsocketKey := header.value }
    else if header.name = str "sec-websocket-version" then
      .ok { req with secWebsocketVersion := header.value }
    else .ok { req with headers := req.headers ++ [header] }

def actions : LineActions RequestHeader where
  processReadyHeader := processReadyHeader
  atFirstLine := fun req => { req with keepAlive := req.httpVersionMajor == 1 &&
    req.httpVersionMinor ≥ 1 }
  invalidState := "Invalid request parser state"

/-- A state that waits for one letter of the protocol name. -/
def expectLetter (p : RequestParser) (input : UInt8) (letter : Char) (next : RequestParserState)
    (message : String) : Except Error RequestParser :=
  if input ≠ ch letter then .error (.runtime message) else .ok (p.goTo next)

/-- The shared end of the states that read the target. -/
def pushPath (p : RequestParser) (c : UInt8) : RequestParser :=
  p.setReq { p.req with path := p.req.path ++ [c] }

/-- `consume` after the length check. -/
def advance (p : RequestParser) (input : UInt8) : Except Error RequestParser :=
  match p.state with
  | .methodStart =>
    -- Skip empty lines
    if input = 13 then .ok (p.goTo .methodStartLf)
    else if input = 10 then .ok (p.goTo .method)
    else if !isToken input then .error (.runtime "Invalid character at method start")
    else .ok ((p.setReq { p.req with method := p.req.method ++ [input] }).goTo .method)
  | .methodStartLf =>
    if input ≠ 10 then .error (.runtime "Invalid LF at method start") else .ok (p.goTo .methodStart)
  | .method =>
    if isSp input then .ok (p.goTo .uriStart)
    else if !isToken input then .error (.runtime "Invalid character in method")
    else .ok (p.setReq { p.req with method := p.req.method ++ [input] })
  | .uriStart =>
    if isSp input then .ok p
    else if isCtl input then .error (.runtime "Invalid (control) character at uri start")
    else if input = ch '#' then .error (.runtime "Invalid '#' character at uri start")
    else if input = ch '?' then .error (.runtime "Invalid '?' character at uri start")
    else if input = ch '%' then .ok (p.goTo .uriPercent1)
    else .ok ((p.pushPath input).goTo .uri)
  | .uri =>
    if isSp input then .ok (p.goTo .httpVersionH)
    else if isCtl input then .error (.runtime "Invalid (control) character in uri")
    else if input = ch '#' then .ok (p.goTo .uriAnchor)
    else if input = ch '?' then .ok (p.goTo .uriQueryString)
    else if input = ch '%' then .ok (p.goTo .uriPercent1)
    else .ok (p.pushPath input)
  | .uriPercent1 =>
    match fromHexDigit input with
    | none => .error (.runtime "URI percent-encoding invalid first hex digit")
    | some digit => .ok { p with state := .uriPercent2, percent1HexDigit := digit }
  | .uriPercent2 =>
    match fromHexDigit input with
    | none => .error (.runtime "URI percent-encoding invalid second hex digit")
    | some digit => .ok ((p.pushPath (UInt8.ofNat (p.percent1HexDigit * 16 + digit))).goTo .uri)
  | .uriQueryString =>
    if isSp input then .ok (p.goTo .httpVersionH)
    else if isCtl input then .error (.runtime "Invalid (control) character in uri")
    else if input = ch '#' then .ok (p.goTo .uriAnchor)
    else .ok (p.setReq { p.req with queryString := p.req.queryString ++ [input] })
  | .uriAnchor =>
    if isSp input then .ok (p.goTo .httpVersionH)
    else if isCtl input then .error (.runtime "Invalid (control) character in uri")
    else .ok p
  | .httpVersionH =>
    if isSp input then .ok p
    else p.expectLetter input 'H' .httpVersionHt "Invalid http version, 'H' is expected"
  | .httpVersionHt => p.expectLetter input 'T' .httpVersionHtt "Invalid http version, 'T' is expected"
  | .httpVersionHtt => p.expectLetter input 'T' .httpVersionHttp "Invalid http version, 'T' is expected"
  | .httpVersionHttp =>
    p.expectLetter input 'P' .httpVersionSlash "Invalid http version, 'P' is expected"
  | .httpVersionSlash =>
    p.expectLetter input '/' .httpVersionMajorStart "Invalid http version, '/' is expected"
  | .httpVersionMajorStart =>
    if !isDigit input then .error (.runtime "Invalid http version major start, must be digit")
    else .ok ((p.setReq { p.req with httpVersionMajor := digitOf input }).goTo .httpVersionMajor)
  | .httpVersionMajor =>
    if input = ch '.' then .ok (p.goTo .httpVersionMinorStart)
    else if !isDigit input then .error (.runtime "Invalid http version major, must be digit")
    else
      let major := p.req.httpVersionMajor * 10 + digitOf input
      if major > 1 then .error (.runtime "Unsupported http version")
      else .ok (p.setReq { p.req with httpVersionMajor := major })
  | .httpVersionMinorStart =>
    if !isDigit input then .error (.runtime "Invalid http version minor start, must be digit")
    else .ok ((p.setReq { p.req with httpVersionMinor := digitOf input }).goTo .httpVersionMinor)
  | .httpVersionMinor =>
    if input = 13 then .ok (p.goTo .statusLineLf)
    else if input = 10 then .ok (p.goTo .headerLines)
    else if isSp input then .ok (p.goTo .statusLineCr)
    else if !isDigit input then .error (.runtime "Invalid http version minor, must be digit")
    else
      let minor := p.req.httpVersionMinor * 10 + digitOf input
      if minor > 99 then .error (.runtime "Invalid http version minor, too big")
      else .ok (p.setReq { p.req with httpVersionMinor := minor })
  | .statusLineCr =>
    if isSp input then .ok p
    else if input ≠ 10 then .error (.runtime "Newline is expected")
    else .ok (p.goTo .statusLineLf)
  | .statusLineLf =>
    if input ≠ 10 then .error (.runtime "Newline is expected") else .ok (p.goTo .headerLines)
  | .headerLines =>
    match consumeLine actions p.lines input with
    | .error e => .error e
    | .ok lines => .ok { p with lines := lines }

def consume (p : RequestParser) (input : UInt8) : Except Error RequestParser :=
  if p.totalLength + 1 > p.maxTotalLength then
    .error (.runtime "HTTP Header too long - security violation")
  else { p with totalLength := p.totalLength + 1 }.advance input

/-- `parse` over a range, which also returns what it left. -/
def machine : Scanner.Machine RequestParser UInt8 Error := ⟨consume, isGood⟩

def parse (p : RequestParser) (bytes : Bytes) : Except Error (RequestParser × Bytes) :=
  Scanner.scan machine p bytes

end RequestParser
end Crablib.Http
