import Crablib.Http.HeaderLines
import Crablib.Library.Scanner

/-! `ResponseParser` of `http/response_parser.hxx`. -/
namespace Crablib.Http

inductive ResponseParserState where
  | httpVersionH
  | httpVersionHt
  | httpVersionHtt
  | httpVersionHttp
  | httpVersionSlash
  | httpVersionMajorStart
  | httpVersionMajor
  | httpVersionMinorStart
  | httpVersionMinor
  | statusCode1
  | statusCode2
  | statusCode3
  | statusCodeSpace
  | statusTextStart
  | statusText
  | statusLineLf
  | headerLines
  deriving DecidableEq, Repr

structure ResponseParser where
  state : ResponseParserState := .httpVersionH
  lines : HeaderLines ResponseHeader := { req := {} }
  totalLength : Nat := 0
  maxTotalLength : Nat := 8192

namespace ResponseParser

def req (p : ResponseParser) : ResponseHeader := p.lines.req

def setReq (p : ResponseParser) (req : ResponseHeader) : ResponseParser := { p with lines.req := req }

def goTo (p : ResponseParser) (state : ResponseParserState) : ResponseParser := { p with state := state }

def isGood (p : ResponseParser) : Bool := p.state == .headerLines && p.lines.state == .good

def processReadyHeader (header : Header) (req : ResponseHeader) : Except Error ResponseHeader :=
  match processCommonHeader header.name header.value req.toRequestResponseHeader with
  | some (.ok common) => .ok { req with toRequestResponseHeader := common }
  | some (.error e) => .error e
  | none =>
    if header.name = str "sec-websocket-accept" then .ok { req with secWebsocketAccept := header.value }
    else if header.name = str "date" then .ok { req with date := header.value }
    else if header.name = str "server" then .ok { req with server := header.value }
    else .ok { req with headers := req.headers ++ [header] }

def actions : LineActions ResponseHeader where
  processReadyHeader := processReadyHeader
  atFirstLine := fun req => { req with statusText := trimRight req.statusText }
  invalidState := "Invalid response parser state"

def expectLetter (p : ResponseParser) (input : UInt8) (letter : Char) (next : ResponseParserState)
    (message : String) : Except Error ResponseParser :=
  if input ≠ ch letter then .error (.runtime message) else .ok (p.goTo next)

/-- One digit of the status code. -/
def statusDigit (p : ResponseParser) (input : UInt8) (next : ResponseParserState) (message : String) :
    Except Error ResponseParser :=
  if !isDigit input then .error (.runtime message)
  else .ok ((p.setReq { p.req with status := p.req.status * 10 + digitOf input }).goTo next)

def statusText (p : ResponseParser) (input : UInt8) : Except Error ResponseParser :=
  if input = 13 then .ok (p.goTo .statusLineLf)
  else if input = 10 then .ok (p.goTo .headerLines)
  else if isCtl input then .error (.runtime "Invalid character (control) in status text")
  else .ok ((p.setReq { p.req with statusText := p.req.statusText ++ [input] }).goTo .statusText)

/-- `consume` after the length check. -/
def advance (p : ResponseParser) (input : UInt8) : Except Error ResponseParser :=
  match p.state with
  | .httpVersionH => p.expectLetter input 'H' .httpVersionHt "Invalid http version, 'H' is expected"
  | .httpVersionHt => p.expectLetter input 'T' .httpVersionHtt "Invalid http version, 'T' is expected"
  | .httpVersionHtt => p.expectLetter input 'T' .httpVersionHttp "Invalid http version, 'T' is expected"
  | .httpVersionHttp =>
    p.expectLetter input 'P' .httpVersionSlash "Invalid http version, 'P' is expected"
  | .httpVersionSlash =>
    p.expectLetter input '/' .httpVersionMajorStart "Invalid http version, '/' is expected"
  | .httpVersionMajorStart =>
    if !isDigit input then .error (.runtime "Invalid http version major start, must be digit")
    else .ok ((p.setReq { p.req with httpVersionMajor := digitOf input }).goTo .httpVersionMajor)
  | .httpVersionMajor =>
    if input = ch '.' then .ok (p.goTo .httpVersionMinorStart)
    else if !isDigit input then .error (.runtime "Invalid http version major, must be digit")
    else
      let major := p.req.httpVersionMajor * 10 + digitOf input
      if major > 1 then .error (.runtime "Unsupported http version")
      else .ok (p.setReq { p.req with httpVersionMajor := major })
  | .httpVersionMinorStart =>
    if !isDigit input then .error (.runtime "Invalid http version minor start, must be digit")
    else .ok ((p.setReq { p.req with httpVersionMinor := digitOf input }).goTo .httpVersionMinor)
  | .httpVersionMinor =>
    if isSp input then
      let keepAlive := p.req.httpVersionMajor == 1 && p.req.httpVersionMinor ≥ 1
      .ok ((p.setReq { p.req with keepAlive := keepAlive }).goTo .statusCode1)
    else if !isDigit input then .error (.runtime "Invalid http version minor, must be digit")
    else
      let minor := p.req.httpVersionMinor * 10 + digitOf input
      if minor > 99 then .error (.runtime "Invalid http version minor, too big")
      else .ok (p.setReq { p.req with httpVersionMinor := minor })
  | .statusCode1 =>
    if isSp input then .ok p
    else p.statusDigit input .statusCode2 "Invalid http status code symbol 1, must be digit"
  | .statusCode2 => p.statusDigit input .statusCode3 "Invalid http status code symbol 2, must be digit"
  | .statusCode3 =>
    p.statusDigit input .statusCodeSpace "Invalid http status code symbol 3, must be digit"
  | .statusCodeSpace =>
    -- Empty status text is allowed
    if input = 13 then .ok (p.goTo .statusLineLf)
    else if input = 10 then .ok (p.goTo .headerLines)
    else if !isSp input then .error (.runtime "Invalid http status code, space expected")
    else .ok (p.goTo .statusTextStart)
  | .statusTextStart => if isSp input then .ok p else p.statusText input
  | .statusText => p.statusText input
  | .statusLineLf =>
    if input ≠ 10 then .error (.runtime "Newline is expected") else .ok (p.goTo .headerLines)
  | .headerLines =>
    match consumeLine actions p.lines input with
    | .error e => .error e
    | .ok lines => .ok { p with lines := lines }

def consume (p : ResponseParser) (input : UInt8) : Except Error ResponseParser :=
  if p.totalLength + 1 > p.maxTotalLength then
    .error (.runtime "HTTP Header too long - security violation")
  else { p with totalLength := p.totalLength + 1 }.advance input

def machine : Scanner.Machine ResponseParser UInt8 Error := ⟨consume, isGood⟩

def parse (p : ResponseParser) (bytes : Bytes) : Except Error (ResponseParser × Bytes) :=
  Scanner.scan machine p bytes

end ResponseParser
end Crablib.Http
