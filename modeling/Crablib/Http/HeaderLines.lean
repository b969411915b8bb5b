import Crablib.Http.Types
import Crablib.IntegerCast

/-! The header block of `RequestParser` and `ResponseParser`. The source has it twice,
as `Http.Copies` does line by line; `CopiesProofs` shows that both copies are this
machine, each with its own `process_ready_header` and its own action at the first line. -/
namespace Crablib.Http

inductive LineState where
  | firstHeaderLineStart
  | headerLineStart
  | headerName
  | headerColon
  | spaceBeforeHeaderValue
  | headerValue
  | headerLf
  | finalLf
  | good
  deriving DecidableEq, Repr

/-- The header under construction, and the message the ready ones go to. -/
structure HeaderLines (ρ : Type) where
  state : LineState := .firstHeaderLineStart
  header : Header := {}
  headerCmsList : Bool := false
  req : ρ

/-- What the two parsers do in their own way. -/
structure LineActions (ρ : Type) where
  processReadyHeader : Header → ρ → Except Error ρ
  atFirstLine : ρ → ρ
  invalidState : String

/-- A ready header is trimmed first; empty is NOP in CMS list, like `,,keep-alive`. -/
def readyHeader {ρ : Type} (actions : LineActions ρ) (p : HeaderLines ρ) : Except Error ρ :=
  let header := { p.header with value := trimRight p.header.value }
  if p.headerCmsList && header.value.isEmpty then .ok p.req
  else actions.processReadyHeader header p.req

def isCmsList (name : Bytes) : Bool := name == str "connection" || name == str "transfer-encoding"

/-- The start of a line that does not continue a value. -/
def lineStart {ρ : Type} (p : HeaderLines ρ) (input : UInt8) : Except Error (HeaderLines ρ) :=
  if input = 13 then .ok { p with state := .finalLf }
  else if input = 10 then .ok { p with state := .good }
  else if !isToken input then .error (.runtime "Invalid character at header line start")
  else .ok { p with state := .headerName, header.name := p.header.name ++ [lowerChar input] }

def headerColon {ρ : Type} (p : HeaderLines ρ) (input : UInt8) : Except Error (HeaderLines ρ) :=
  if isSp input then .ok { p with state := .headerColon }
  else if input ≠ ch ':' then .error (.runtime "':' expected")
  -- We will add other comma-separated headers if we need them later
  else .ok { p with state := .spaceBeforeHeaderValue, headerCmsList := isCmsList p.header.name }

def headerValue {ρ : Type} (actions : LineActions ρ) (p : HeaderLines ρ) (input : UInt8) :
    Except Error (HeaderLines ρ) :=
  if input = 13 then .ok { p with state := .headerLf }
  else if input = 10 then .ok { p with state := .headerLineStart }
  else if isCtl input then .error (.runtime "Invalid character (control) in header value")
  else if p.headerCmsList && input == ch ',' then
    match readyHeader actions p with
    | .error e => .error e
    | .ok req => .ok { p with state := .spaceBeforeHeaderValue, header.value := [], req := req }
  else .ok { p with state := .headerValue, header.value := p.header.value ++ [input] }

/-- One byte of the header block. -/
def consumeLine {ρ : Type} (actions : LineActions ρ) (p : HeaderLines ρ) (input : UInt8) :
    Except Error (HeaderLines ρ) :=
  match p.state with
  | .firstHeaderLineStart => lineStart { p with req := actions.atFirstLine p.req } input
  | .headerLineStart =>
    -- value continuation
    if isSp input then .ok { p with state := .headerValue, header.value := p.header.value ++ [input] }
    else
      match readyHeader actions p with
      | .error e => .error e
      | .ok req => lineStart { p with header := {}, req := req } input
  | .headerName =>
    if isSp input then .ok { p with state := .headerColon }
    else if input ≠ ch ':' then
      if !isToken input then .error (.runtime "Invalid character at header name")
      else .ok { p with header.name := p.header.name ++ [lowerChar input] }
    else headerColon p input
  | .headerColon => headerColon p input
  | .spaceBeforeHeaderValue => if isSp input then .ok p else headerValue actions p input
  | .headerValue => headerValue actions p input
  | .headerLf =>
    if input ≠ 10 then .error (.runtime "Expecting newline")
      else .ok { p with state := .headerLineStart }
  | .finalLf =>
    if input ≠ 10 then .error (.runtime "Expecting final newline") else .ok { p with state := .good }
  | .good => .error (.logic actions.invalidState)

/-- The headers both parsers store in the same fields; `none` for other names. -/
def processCommonHeader (name value : Bytes) (req : RequestResponseHeader) :
    Option (Except Error RequestResponseHeader) :=
  if name = str "content-length" then
    if req.contentLength.isSome then some (.error (.runtime "content length specified more than once"))
    else
      match integerParse .uint64 value with
      | .ok length => some (.ok { req with contentLength := some (UInt64.ofNat length.toNat) })
      | .error _ => some (.error (.runtime "Content length is not a number"))
  else if name = str "transfer-encoding" then
    let coding := toLower value
    if coding = str "chunked" then
      if !req.transferEncodings.isEmpty then
        some (.error (.runtime "chunk encoding must be applied last"))
      else some (.ok { req with transferEncodingChunked := true })
    -- like chunked, it is transparent to user
    else if coding = str "identity" then some (.ok req)
    else some (.ok { req with transferEncodings := req.transferEncodings ++ [coding] })
  else if name = str "content-type" then
    let parsed := parseContentTypeValue value
    some (.ok { req with contentTypeMime := parsed.1, contentTypeSuffix := parsed.2 })
  else if name = str "connection" then
    let option := toLower value
    if option = str "close" then some (.ok { req with keepAlive := false })
    else if option = str "keep-alive" then some (.ok { req with keepAlive := true })
    else if option = str "upgrade" then some (.ok { req with connectionUpgrade := true })
    else some (.error (.runtime "Invalid 'connection' header value"))
  else if name = str "upgrade" then
    if toLower value = str "websocket" then some (.ok { req with upgradeWebsocket := true })
    else some (.error (.runtime "Invalid 'upgrade' header value"))
  else none

end Crablib.Http
