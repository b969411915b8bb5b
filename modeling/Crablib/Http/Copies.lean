import Crablib.Http.Types
import Crablib.IntegerCast
import Crablib.Library.Scanner

/-! `RequestParser` and `ResponseParser` line by line as `request_parser.hxx` and
`response_parser.hxx` have them: one `switch` over all states and one
`process_ready_header` in each file, the second a copy of the first that was edited by
hand. A state that falls through into the next one calls it. -/
namespace Crablib.Http.Copies

inductive RequestParser.State where
  | methodStart
  | methodStartLf
  | method
  | uriStart
  | uri
  | uriPercent1
  | uriPercent2
  | uriQueryString
  | uriAnchor
  | httpVersionH
  | httpVersionHt
  | httpVersionHtt
  | httpVersionHttp
  | httpVersionSlash
  | httpVersionMajorStart
  | httpVersionMajor
  | httpVersionMinorStart
  | httpVersionMinor
  | statusLineCr
  | statusLineLf
  | firstHeaderLineStart
  | headerLineStart
  | headerName
  | headerColon
  | spaceBeforeHeaderValue
  | headerValue
  | headerLf
  | finalLf
  | good
  deriving DecidableEq, Repr

structure RequestParser where
  state : RequestParser.State := .methodStart
  maxTotalLength : Nat := 8192
  req : RequestHeader := {}
  header : Header := {}
  headerCmsList : Bool := false
  percent1HexDigit : Nat := 0
  totalLength : Nat := 0

namespace RequestParser

def goTo (p : RequestParser) (state : State) : RequestParser := { p with state := state }

def processReadyHeader (p : RequestParser) : Except Error RequestParser :=
  -- We have no backtracking, so cheat here
  let p := { p with header.value := trimRight p.header.value }
  -- Empty is NOP in CMS list, like `,,keep-alive`
  if p.headerCmsList && p.header.value.isEmpty then .ok p
  else if p.header.name = str "content-length" then
    if p.req.contentLength.isSome then .error (.runtime "content length specified more than once")
    else
      match integerCast .uint64 p.header.value with
      | .ok length => .ok { p with req.contentLength := some (UInt64.ofNat length.toNat) }
      | .error _ => .error (.runtime "Content length is not a number")
  else if p.header.name = str "transfer-encoding" then
    let p := { p with header.value := toLower p.header.value }
    if p.header.value = str "chunked" then
      if !p.req.transferEncodings.isEmpty then
        .error (.runtime "chunk encoding must be applied last")
      else .ok { p with req.transferEncodingChunked := true }
    -- like chunked, it is transparent to user
    else if p.header.value = str "identity" then .ok p
    else .ok { p with req.transferEncodings := p.req.transferEncodings ++ [p.header.value] }
  else if p.header.name = str "host" then .ok { p with req.host := p.header.value }
  else if p.header.name = str "origin" then .ok { p with req.origin := p.header.value }
  else if p.header.name = str "content-type" then
    let parsed := parseContentTypeValue p.header.value
    .ok { p with req.contentTypeMime := parsed.1, req.contentTypeSuffix := parsed.2 }
  else if p.header.name = str "connection" then
    let p := { p with header.value := toLower p.header.value }
    if p.header.value = str "close" then .ok { p with req.keepAlive := false }
    else if p.header.value = str "keep-alive" then .ok { p with req.keepAlive := true }
    else if p.header.value = str "upgrade" then .ok { p with req.connectionUpgrade := true }
    else .error (.runtime "Invalid 'connection' header value")
  else if p.header.name = str "authorization" then
    let auth := (parseAuthorizationBasic p.header.value).getD p.req.basicAuthorization
    .ok { p with req.basicAuthorization := auth }
  else if p.header.name = str "upgrade" then
    let p := { p with header.value := toLower p.header.value }
    if p.header.value = str "websocket" then .ok { p with req.upgradeWebsocket := true }
    else .error (.runtime "Invalid 'upgrade' header value")
  else if p.header.name = str "sec-websocket-key" then
    .ok { p with req.secWebsocketKey := p.header.value }
  else if p.header.name = str "sec-websocket-version" then
    .ok { p with req.secWebsocketVersion := p.header.value }
  else .ok { p with req.headers := p.req.headers ++ [p.header] }

/-- `HEADER_VALUE`. -/
def headerValue (p : RequestParser) (input : UInt8) : Except Error RequestParser :=
  if input = 13 then .ok (p.goTo .headerLf)
  else if input = 10 then .ok (p.goTo .headerLineStart)
  else if isCtl input then .error (.runtime "Invalid character (control) in header value")
  else if p.headerCmsList && input == ch ',' then
    match p.processReadyHeader with
    | .error e => .error e
    | .ok p => .ok { p with state := .spaceBeforeHeaderValue, header.value := [] }
  else .ok { p with state := .headerValue, header.value := p.header.value ++ [input] }

/-- `HEADER_COLON`. -/
def headerColon (p : RequestParser) (input : UInt8) : Except Error RequestParser :=
  if isSp input then .ok (p.goTo .headerColon)
  else if input ≠ ch ':' then .error (.runtime "':' expected")
  -- We will add other comma-separated headers if we need them later
  else
    let list := p.header.name == str "connection" || p.header.name == str "transfer-encoding"
    .ok { p with state := .spaceBeforeHeaderValue, headerCmsList := list }

/-- `consume` after the length check, with the state that it returns. -/
def advance (p : RequestParser) (input : UInt8) : Except Error RequestParser :=
  match p.state with
  | .methodStart =>
    -- Skip empty lines
    if input = 13 then .ok (p.goTo .methodStartLf)
    else if input = 10 then .ok (p.goTo .method)
    else if !isChar input || isCtl input || isTspecial input then
      .error (.runtime "Invalid character at method start")
    else .ok { p with state := .method, req.method := p.req.method ++ [input] }
  | .methodStartLf =>
    if input ≠ 10 then .error (.runtime "Invalid LF at method start")
    else .ok (p.goTo .methodStart)
  | .method =>
    if isSp input then .ok (p.goTo .uriStart)
    else if !isChar input || isCtl input || isTspecial input then
      .error (.runtime "Invalid character in method")
    else .ok { p with state := .method, req.method := p.req.method ++ [input] }
  | .uriStart =>
    if isSp input then .ok (p.goTo .uriStart)
    else if isCtl input then .error (.runtime "Invalid (control) character at uri start")
    else if input = ch '#' then .error (.runtime "Invalid '#' character at uri start")
    else if input = ch '?' then .error (.runtime "Invalid '?' character at uri start")
    else if input = ch '%' then .ok (p.goTo .uriPercent1)
    else .ok { p with state := .uri, req.path := p.req.path ++ [input] }
  | .uri =>
    if isSp input then .ok (p.goTo .httpVersionH)
    else if isCtl input then .error (.runtime "Invalid (control) character in uri")
    else if input = ch '#' then .ok (p.goTo .uriAnchor)
    else if input = ch '?' then .ok (p.goTo .uriQueryString)
    else if input = ch '%' then .ok (p.goTo .uriPercent1)
    else .ok { p with state := .uri, req.path := p.req.path ++ [input] }
  | .uriPercent1 =>
    match fromHexDigit input with
    | none => .error (.runtime "URI percent-encoding invalid first hex digit")
    | some digit => .ok { p with state := .uriPercent2, percent1HexDigit := digit }
  | .uriPercent2 =>
    match fromHexDigit input with
    | none => .error (.runtime "URI percent-encoding invalid second hex digit")
    | some digit =>
      let c := UInt8.ofNat (p.percent1HexDigit * 16 + digit)
      .ok { p with state := .uri, req.path := p.req.path ++ [c] }
  | .uriQueryString =>
    if isSp input then .ok (p.goTo .httpVersionH)
    else if isCtl input then .error (.runtime "Invalid (control) character in uri")
    else if input = ch '#' then .ok (p.goTo .uriAnchor)
    else .ok { p with state := .uriQueryString, req.queryString := p.req.queryString ++ [input] }
  | .uriAnchor =>
    if isSp input then .ok (p.goTo .httpVersionH)
    else if isCtl input then .error (.runtime "Invalid (control) character in uri")
    else .ok (p.goTo .uriAnchor)
  | .httpVersionH =>
    if isSp input then .ok (p.goTo .httpVersionH)
    else if input ≠ ch 'H' then .error (.runtime "Invalid http version, 'H' is expected")
    else .ok (p.goTo .httpVersionHt)
  | .httpVersionHt =>
    if input ≠ ch 'T' then .error (.runtime "Invalid http version, 'T' is expected")
    else .ok (p.goTo .httpVersionHtt)
  | .httpVersionHtt =>
    if input ≠ ch 'T' then .error (.runtime "Invalid http version, 'T' is expected")
    else .ok (p.goTo .httpVersionHttp)
  | .httpVersionHttp =>
    if input ≠ ch 'P' then .error (.runtime "Invalid http version, 'P' is expected")
    else .ok (p.goTo .httpVersionSlash)
  | .httpVersionSlash =>
    if input ≠ ch '/' then .error (.runtime "Invalid http version, '/' is expected")
    else .ok (p.goTo .httpVersionMajorStart)
  | .httpVersionMajorStart =>
    if !isDigit input then .error (.runtime "Invalid http version major start, must be digit")
    else .ok { p with state := .httpVersionMajor, req.httpVersionMajor := digitOf input }
  | .httpVersionMajor =>
    if input = ch '.' then .ok (p.goTo .httpVersionMinorStart)
    else if !isDigit input then .error (.runtime "Invalid http version major, must be digit")
    else
      let major := p.req.httpVersionMajor * 10 + digitOf input
      if major > 1 then .error (.runtime "Unsupported http version")
      else .ok { p with state := .httpVersionMajor, req.httpVersionMajor := major }
  | .httpVersionMinorStart =>
    if !isDigit input then .error (.runtime "Invalid http version minor start, must be digit")
    else .ok { p with state := .httpVersionMinor, req.httpVersionMinor := digitOf input }
  | .httpVersionMinor =>
    if input = 13 then .ok (p.goTo .statusLineLf)
    else if input = 10 then .ok (p.goTo .firstHeaderLineStart)
    else if isSp input then .ok (p.goTo .statusLineCr)
    else if !isDigit input then .error (.runtime "Invalid http version minor, must be digit")
    else
      let minor := p.req.httpVersionMinor * 10 + digitOf input
      if minor > 99 then .error (.runtime "Invalid http version minor, too big")
      else .ok { p with state := .httpVersionMinor, req.httpVersionMinor := minor }
  | .statusLineCr =>
    if isSp input then .ok (p.goTo .statusLineCr)
    else if input ≠ 10 then .error (.runtime "Newline is expected")
    else .ok (p.goTo .statusLineLf)
  | .statusLineLf =>
    if input ≠ 10 then .error (.runtime "Newline is expected")
    else .ok (p.goTo .firstHeaderLineStart)
  | .firstHeaderLineStart =>
    -- Cannot contain LWS
    let keepAlive := p.req.httpVersionMajor == 1 && p.req.httpVersionMinor ≥ 1
    let p := { p with req.keepAlive := keepAlive }
    if input = 13 then .ok (p.goTo .finalLf)
    else if input = 10 then .ok (p.goTo .good)
    else if !isChar input || isCtl input || isTspecial input then
      .error (.runtime "Invalid character at header line start")
    else .ok { p with state := .headerName, header.name := p.header.name ++ [lowerChar input] }
  | .headerLineStart =>
    -- value continuation
    if isSp input then
      .ok { p with state := .headerValue, header.value := p.header.value ++ [input] }
    else
      match p.processReadyHeader with
      | .error e => .error e
      | .ok p =>
        let p := { p with header.name := [], header.value := [] }
        if input = 13 then .ok (p.goTo .finalLf)
        else if input = 10 then .ok (p.goTo .good)
        else if !isChar input || isCtl input || isTspecial input then
          .error (.runtime "Invalid character at header line start")
        else .ok { p with state := .headerName, header.name := p.header.name ++ [lowerChar input] }
  | .headerName =>
    if isSp input then .ok (p.goTo .headerColon)
    else if input ≠ ch ':' then
      if !isChar input || isCtl input || isTspecial input then
        .error (.runtime "Invalid character at header name")
      else .ok { p with state := .headerName, header.name := p.header.name ++ [lowerChar input] }
    else p.headerColon input
  | .headerColon => p.headerColon input
  | .spaceBeforeHeaderValue =>
    if isSp input then .ok (p.goTo .spaceBeforeHeaderValue) else p.headerValue input
  | .headerValue => p.headerValue input
  | .headerLf =>
    if input ≠ 10 then .error (.runtime "Expecting newline") else .ok (p.goTo .headerLineStart)
  | .finalLf =>
    if input ≠ 10 then .error (.runtime "Expecting final newline") else .ok (p.goTo .good)
  | .good => .error (.logic "Invalid request parser state")

def consume (p : RequestParser) (input : UInt8) : Except Error RequestParser :=
  let p := { p with totalLength := p.totalLength + 1 }
  if p.totalLength > p.maxTotalLength then
    .error (.runtime "HTTP Header too long - security violation")
  else p.advance input

def isGood (p : RequestParser) : Bool := p.state == .good

def machine : Scanner.Machine RequestParser UInt8 Error := ⟨consume, isGood⟩

def parse (p : RequestParser) (bytes : Bytes) : Except Error (RequestParser × Bytes) :=
  Scanner.scan machine p bytes

end RequestParser

inductive ResponseParser.State where
  | httpVersionH
  | httpVersionHt
  | httpVersionHtt
  | httpVersionHttp
  | httpVersionSlash
  | httpVersionMajorStart
  | httpVersionMajor
  | httpVersionMinorStart
  | httpVersionMinor
  | statusCode1
  | statusCode2
  | statusCode3
  | statusCodeSpace
  | statusTextStart
  | statusText
  | statusLineLf
  | firstHeaderLineStart
  | headerLineStart
  | headerName
  | headerColon
  | spaceBeforeHeaderValue
  | headerValue
  | headerLf
  | finalLf
  | good
  deriving DecidableEq, Repr

structure ResponseParser where
  state : ResponseParser.State := .httpVersionH
  maxTotalLength : Nat := 8192
  req : ResponseHeader := {}
  header : Header := {}
  headerCmsList : Bool := false
  totalLength : Nat := 0

namespace ResponseParser

def goTo (p : ResponseParser) (state : State) : ResponseParser := { p with state := state }

def processReadyHeader (p : ResponseParser) : Except Error ResponseParser :=
  -- We have no backtracking, so cheat here
  let p := { p with header.value := trimRight p.header.value }
  -- Empty is NOP in CMS list, like `,,keep-alive`
  if p.headerCmsList && p.header.value.isEmpty then .ok p
  else if p.header.name = str "content-length" then
    if p.req.contentLength.isSome then .error (.runtime "content length specified more than once")
    else
      match integerCast .uint64 p.header.value with
      | .ok length => .ok { p with req.contentLength := some (UInt64.ofNat length.toNat) }
      | .error _ => .error (.runtime "Content length is not a number")
  else if p.header.name = str "transfer-encoding" then
    let p := { p with header.value := toLower p.header.value }
    if p.header.value = str "chunked" then
      if !p.req.transferEncodings.isEmpty then
        .error (.runtime "chunk encoding must be applied last")
      else .ok { p with req.transferEncodingChunked := true }
    -- like chunked, it is transparent to user
    else if p.header.value = str "identity" then .ok p
    else .ok { p with req.transferEncodings := p.req.transferEncodings ++ [p.header.value] }
  else if p.header.name = str "content-type" then
    let parsed := parseContentTypeValue p.header.value
    .ok { p with req.contentTypeMime := parsed.1, req.contentTypeSuffix := parsed.2 }
  else if p.header.name = str "connection" then
    let p := { p with header.value := toLower p.header.value }
    if p.header.value = str "close" then .ok { p with req.keepAlive := false }
    else if p.header.value = str "keep-alive" then .ok { p with req.keepAlive := true }
    else if p.header.value = str "upgrade" then .ok { p with req.connectionUpgrade := true }
    else .error (.runtime "Invalid 'connection' header value")
  else if p.header.name = str "upgrade" then
    let p := { p with header.value := toLower p.header.value }
    if p.header.value = str "websocket" then .ok { p with req.upgradeWebsocket := true }
    else .error (.runtime "Invalid 'upgrade' header value")
  else if p.header.name = str "sec-websocket-accept" then
    .ok { p with req.secWebsocketAccept := p.header.value }
  else if p.header.name = str "date" then .ok { p with req.date := p.header.value }
  else if p.header.name = str "server" then .ok { p with req.server := p.header.value }
  else .ok { p with req.headers := p.req.headers ++ [p.header] }

/-- `HEADER_VALUE`. -/
def headerValue (p : ResponseParser) (input : UInt8) : Except Error ResponseParser :=
  if input = 13 then .ok (p.goTo .headerLf)
  else if input = 10 then .ok (p.goTo .headerLineStart)
  else if isCtl input then .error (.runtime "Invalid character (control) in header value")
  else if p.headerCmsList && input == ch ',' then
    match p.processReadyHeader with
    | .error e => .error e
    | .ok p => .ok { p with state := .spaceBeforeHeaderValue, header.value := [] }
  else .ok { p with state := .headerValue, header.value := p.header.value ++ [input] }

/-- `HEADER_COLON`. -/
def headerColon (p : ResponseParser) (input : UInt8) : Except Error ResponseParser :=
  if isSp input then .ok (p.goTo .headerColon)
  else if input ≠ ch ':' then .error (.runtime "':' expected")
  -- We will add other comma-separated headers if we need them later
  else
    let list := p.header.name == str "connection" || p.header.name == str "transfer-encoding"
    .ok { p with state := .spaceBeforeHeaderValue, headerCmsList := list }

/-- `STATUS_TEXT`. -/
def statusText (p : ResponseParser) (input : UInt8) : Except Error ResponseParser :=
  if input = 13 then .ok (p.goTo .statusLineLf)
  else if input = 10 then .ok (p.goTo .firstHeaderLineStart)
  else if isCtl input then .error (.runtime "Invalid character (control) in status text")
  else .ok { p with state := .statusText, req.statusText := p.req.statusText ++ [input] }

/-- `consume` after the length check, with the state that it returns. -/
def advance (p : ResponseParser) (input : UInt8) : Except Error ResponseParser :=
  match p.state with
  | .httpVersionH =>
    if input ≠ ch 'H' then .error (.runtime "Invalid http version, 'H' is expected")
    else .ok (p.goTo .httpVersionHt)
  | .httpVersionHt =>
    if input ≠ ch 'T' then .error (.runtime "Invalid http version, 'T' is expected")
    else .ok (p.goTo .httpVersionHtt)
  | .httpVersionHtt =>
    if input ≠ ch 'T' then .error (.runtime "Invalid http version, 'T' is expected")
    else .ok (p.goTo .httpVersionHttp)
  | .httpVersionHttp =>
    if input ≠ ch 'P' then .error (.runtime "Invalid http version, 'P' is expected")
    else .ok (p.goTo .httpVersionSlash)
  | .httpVersionSlash =>
    if input ≠ ch '/' then .error (.runtime "Invalid http version, '/' is expected")
    else .ok (p.goTo .httpVersionMajorStart)
  | .httpVersionMajorStart =>
    if !isDigit input then .error (.runtime "Invalid http version major start, must be digit")
    else .ok { p with state := .httpVersionMajor, req.httpVersionMajor := digitOf input }
  | .httpVersionMajor =>
    if input = ch '.' then .ok (p.goTo .httpVersionMinorStart)
    else if !isDigit input then .error (.runtime "Invalid http version major, must be digit")
    else
      let major := p.req.httpVersionMajor * 10 + digitOf input
      if major > 1 then .error (.runtime "Unsupported http version")
      else .ok { p with state := .httpVersionMajor, req.httpVersionMajor := major }
  | .httpVersionMinorStart =>
    if !isDigit input then .error (.runtime "Invalid http version minor start, must be digit")
    else .ok { p with state := .httpVersionMinor, req.httpVersionMinor := digitOf input }
  | .httpVersionMinor =>
    if isSp input then
      let keepAlive := p.req.httpVersionMajor == 1 && p.req.httpVersionMinor ≥ 1
      .ok { p with state := .statusCode1, req.keepAlive := keepAlive }
    else if !isDigit input then .error (.runtime "Invalid http version minor, must be digit")
    else
      let minor := p.req.httpVersionMinor * 10 + digitOf input
      if minor > 99 then .error (.runtime "Invalid http version minor, too big")
      else .ok { p with state := .httpVersionMinor, req.httpVersionMinor := minor }
  | .statusCode1 =>
    if isSp input then .ok (p.goTo .statusCode1)
    else if !isDigit input then
      .error (.runtime "Invalid http status code symbol 1, must be digit")
    else .ok { p with state := .statusCode2, req.status := p.req.status * 10 + digitOf input }
  | .statusCode2 =>
    if !isDigit input then .error (.runtime "Invalid http status code symbol 2, must be digit")
    else .ok { p with state := .statusCode3, req.status := p.req.status * 10 + digitOf input }
  | .statusCode3 =>
    if !isDigit input then .error (.runtime "Invalid http status code symbol 3, must be digit")
    else .ok { p with state := .statusCodeSpace, req.status := p.req.status * 10 + digitOf input }
  | .statusCodeSpace =>
    -- Empty status text is allowed
    if input = 13 then .ok (p.goTo .statusLineLf)
    else if input = 10 then .ok (p.goTo .firstHeaderLineStart)
    else if !isSp input then .error (.runtime "Invalid http status code, space expected")
    else .ok (p.goTo .statusTextStart)
  | .statusTextStart => if isSp input then .ok (p.goTo .statusTextStart) else p.statusText input
  | .statusText => p.statusText input
  | .statusLineLf =>
    if input ≠ 10 then .error (.runtime "Newline is expected")
    else .ok (p.goTo .firstHeaderLineStart)
  | .firstHeaderLineStart =>
    -- Cannot contain LWS
    let p := { p with req.statusText := trimRight p.req.statusText }
    if input = 13 then .ok (p.goTo .finalLf)
    else if input = 10 then .ok (p.goTo .good)
    else if !isChar input || isCtl input || isTspecial input then
      .error (.runtime "Invalid character at header line start")
    else .ok { p with state := .headerName, header.name := p.header.name ++ [lowerChar input] }
  | .headerLineStart =>
    -- value continuation
    if isSp input then
      .ok { p with state := .headerValue, header.value := p.header.value ++ [input] }
    else
      match p.processReadyHeader with
      | .error e => .error e
      | .ok p =>
        let p := { p with header.name := [], header.value := [] }
        if input = 13 then .ok (p.goTo .finalLf)
        else if input = 10 then .ok (p.goTo .good)
        else if !isChar input || isCtl input || isTspecial input then
          .error (.runtime "Invalid character at header line start")
        else .ok { p with state := .headerName, header.name := p.header.name ++ [lowerChar input] }
  | .headerName =>
    if isSp input then .ok (p.goTo .headerColon)
    else if input ≠ ch ':' then
      if !isChar input || isCtl input || isTspecial input then
        .error (.runtime "Invalid character at header name")
      else .ok { p with state := .headerName, header.name := p.header.name ++ [lowerChar input] }
    else p.headerColon input
  | .headerColon => p.headerColon input
  | .spaceBeforeHeaderValue =>
    if isSp input then .ok (p.goTo .spaceBeforeHeaderValue) else p.headerValue input
  | .headerValue => p.headerValue input
  | .headerLf =>
    if input ≠ 10 then .error (.runtime "Expecting newline") else .ok (p.goTo .headerLineStart)
  | .finalLf =>
    if input ≠ 10 then .error (.runtime "Expecting final newline") else .ok (p.goTo .good)
  | .good => .error (.logic "Invalid response parser state")

def consume (p : ResponseParser) (input : UInt8) : Except Error ResponseParser :=
  let p := { p with totalLength := p.totalLength + 1 }
  if p.totalLength > p.maxTotalLength then
    .error (.runtime "HTTP Header too long - security violation")
  else p.advance input

def isGood (p : ResponseParser) : Bool := p.state == .good

def machine : Scanner.Machine ResponseParser UInt8 Error := ⟨consume, isGood⟩

def parse (p : ResponseParser) (bytes : Bytes) : Except Error (ResponseParser × Bytes) :=
  Scanner.scan machine p bytes

end ResponseParser
end Crablib.Http.Copies
