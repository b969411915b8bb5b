import Crablib.Http.Types

/-! `QueryParser`, `CookieParser`, `URI`, `URIParser`, `url_decode` and `url_encode` of
`http/query_parser.hxx`. -/
namespace Crablib.Http

structure URI where
  scheme : Bytes := []
  userInfo : Bytes := []
  host : Bytes := []
  port : Bytes := []
  path : Bytes := []
  query : Bytes := []
  deriving DecidableEq, Repr

/-- An escape that is cut short or not of hex digits stays as it is. -/
def urlDecode : Bytes → Bytes
  | sym :: first :: second :: rest =>
    if sym ≠ ch '%' then sym :: urlDecode (first :: second :: rest)
    else
      match fromHexDigit first, fromHexDigit second with
      | some digit1, some digit2 => UInt8.ofNat (digit1 * 16 + digit2) :: urlDecode rest
      | _, _ => sym :: urlDecode (first :: second :: rest)
  | sym :: rest => sym :: urlDecode rest
  | [] => []

/-- One of the digits that `url_encode` writes. -/
def hexdigit (n : Nat) : UInt8 := (str "0123456789abcdef").getD n 0

/-- With `path`, slashes stay as they are. -/
def urlEncode (text : Bytes) (path : Bool) : Bytes :=
  text.flatMap fun c =>
    if !isUriReserved c || (path && c == ch '/') then [c]
    else [ch '%', hexdigit (c.toNat / 16), hexdigit (c.toNat % 16)]

/-- `URI::to_string` -/
def URI.toString (uri : URI) : Bytes :=
  uri.scheme ++ str "://" ++ (if uri.userInfo.isEmpty then []
    else urlEncode uri.userInfo false ++ str "@") ++ uri.host ++
    (if uri.port.isEmpty then [] else str ":" ++ uri.port) ++ urlEncode uri.path true ++
    (if uri.query.isEmpty then [] else str "?" ++ uri.query)

inductive QueryParserState where
  | key
  | keyPercent1
  | keyPercent2
  | value
  | valuePercent1
  | valuePercent2
  deriving DecidableEq, Repr

/-- `parsed` holds the assignments to the map of the source in their order; the
last one to a key is the one that counts. -/
structure QueryParser where
  state : QueryParserState := .key
  percent1HexSym : UInt8 := 0
  key : Bytes := []
  value : Bytes := []
  parsed : List (Bytes × Bytes) := []
  deriving DecidableEq, Repr

namespace QueryParser

def goTo (p : QueryParser) (state : QueryParserState) : QueryParser := { p with state := state }

def pushKey (p : QueryParser) (text : Bytes) : QueryParser := { p with key := p.key ++ text }

def pushValue (p : QueryParser) (text : Bytes) : QueryParser := { p with value := p.value ++ text }

/-- If identical, second one wins. -/
def persistPair (p : QueryParser) : QueryParser :=
  { p with parsed := p.parsed ++ [(p.key, p.value)], key := [], value := [] }

/-- The byte of an escape whose first digit is kept in `percent1_hex_sym`. -/
def escaped (p : QueryParser) (digit2 : Nat) : UInt8 :=
  UInt8.ofNat ((fromHexDigit p.percent1HexSym).getD 0 * 16 + digit2)

def consumeEnd (p : QueryParser) : QueryParser :=
  match p.state with
  | .key => if p.key ≠ [] then p.persistPair.goTo .key else p.goTo .key
  | .value => p.persistPair.goTo .key
  | .keyPercent1 => (p.pushKey [ch '%']).persistPair.goTo .key
  | .keyPercent2 => (p.pushKey [ch '%', p.percent1HexSym]).persistPair.goTo .key
  | .valuePercent1 => (p.pushValue [ch '%']).persistPair.goTo .key
  | .valuePercent2 => (p.pushValue [ch '%', p.percent1HexSym]).persistPair.goTo .key

def consume (p : QueryParser) (input : UInt8) : QueryParser :=
  match p.state with
  | .key =>
    if input = ch '&' then if p.key ≠ [] then p.persistPair.goTo .key else p.goTo .key
    else if input = ch '%' then p.goTo .keyPercent1
    else if input = ch '=' then p.goTo .value
    else if input = ch '+' then (p.pushKey [ch ' ']).goTo .key
    else (p.pushKey [input]).goTo .key
  | .keyPercent1 =>
    if input = ch '=' then (p.pushKey [ch '%']).goTo .value
    else
      match fromHexDigit input with
      | none => (p.pushKey [ch '%', input]).goTo .key
      | some _ => { p with state := .keyPercent2, percent1HexSym := input }
  | .keyPercent2 =>
    if input = ch '=' then (p.pushKey [ch '%', p.percent1HexSym]).goTo .value
    else
      match fromHexDigit input with
      | none => (p.pushKey [ch '%', p.percent1HexSym, input]).goTo .key
      | some digit2 => (p.pushKey [p.escaped digit2]).goTo .key
  | .value =>
    if input = ch '&' then p.persistPair.goTo .key
    else if input = ch '%' then p.goTo .valuePercent1
    else if input = ch '+' then (p.pushValue [ch ' ']).goTo .value
    else (p.pushValue [input]).goTo .value
  | .valuePercent1 =>
    -- the pair is not persisted here
    if input = ch '&' then (p.pushValue [ch '%']).goTo .key
    else
      match fromHexDigit input with
      | none => (p.pushValue [ch '%', input]).goTo .value
      | some _ => { p with state := .valuePercent2, percent1HexSym := input }
  | .valuePercent2 =>
    if input = ch '=' then (p.pushValue [ch '%', p.percent1HexSym]).goTo .value
    else
      match fromHexDigit input with
      | none => (p.pushValue [ch '%', p.percent1HexSym, input]).goTo .value
      | some digit2 => (p.pushValue [p.escaped digit2]).goTo .value

/-- This grammar has no stop state, has to be stopped manually. -/
def parse (p : QueryParser) (text : Bytes) : QueryParser := (text.foldl consume p).consumeEnd

end QueryParser

def parseQueryString (text : Bytes) : List (Bytes × Bytes) := (QueryParser.parse {} text).parsed

inductive CookieParserState where
  | keyWsBefore
  | key
  | valueWsBefore
  | value
  deriving DecidableEq, Repr

/-- `parsed` holds the assignments in their order, as in `QueryParser`. -/
structure CookieParser where
  state : CookieParserState := .keyWsBefore
  key : Bytes := []
  value : Bytes := []
  parsed : List (Bytes × Bytes) := []
  deriving DecidableEq, Repr

namespace CookieParser

def persistPair (p : CookieParser) : CookieParser :=
  { p with parsed := p.parsed ++ [(trimRight p.key, trimRight p.value)], key := [], value := [] }

def consumeEnd (p : CookieParser) : CookieParser :=
  if p.state ≠ .keyWsBefore then { p.persistPair with state := .keyWsBefore } else p

def consumeKey (p : CookieParser) (input : UInt8) : CookieParser :=
  if input = ch ';' then { p.persistPair with state := .keyWsBefore }
  else if input = ch '=' then { p with state := .valueWsBefore }
  else { p with state := .key, key := p.key ++ [input] }

def consumeValue (p : CookieParser) (input : UInt8) : CookieParser :=
  if input = ch ';' then { p.persistPair with state := .keyWsBefore }
  else { p with state := .value, value := p.value ++ [input] }

def consume (p : CookieParser) (input : UInt8) : CookieParser :=
  match p.state with
  | .keyWsBefore => if isSp input then p else if input = ch ';' then p else p.consumeKey input
  | .key => p.consumeKey input
  | .valueWsBefore => if isSp input then p else p.consumeValue input
  | .value => p.consumeValue input

/-- This grammar has no stop state, has to be stopped manually. -/
def parse (p : CookieParser) (text : Bytes) : CookieParser := (text.foldl consume p).consumeEnd

end CookieParser

def parseCookieString (text : Bytes) : List (Bytes × Bytes) := (CookieParser.parse {} text).parsed

/-- The `cookie` headers of a request, in turn. -/
def Request.parseCookies (request : Request) : List (Bytes × Bytes) :=
  (((request.header.headers.filter (·.name = str "cookie")).map (·.value)).foldl
    CookieParser.parse {}).parsed

inductive URIParserState where
  | scheme
  | schemeSep1
  | schemeSep2
  | host
  | port
  | path
  | pathHex1
  | pathHex2
  | query
  | good
  deriving DecidableEq, Repr

structure URIParser where
  state : URIParserState := .scheme
  uri : URI := {}
  percent1HexSym : UInt8 := 0
  userInfoAssigned : Bool := false
  pathComponents : List Bytes := []
  curPath : Bytes := []
  deriving DecidableEq, Repr

namespace URIParser

def goTo (p : URIParser) (state : URIParserState) : URIParser := { p with state := state }

def pushPath (p : URIParser) (text : Bytes) : URIParser := { p with curPath := p.curPath ++ text }

def persistPathComponent (p : URIParser) : URIParser :=
  if p.curPath = str ".." then
    -- up tree from / is NOP
    { p with pathComponents := p.pathComponents.dropLast, curPath := [] }
  else if p.curPath ≠ str "." then
    { p with pathComponents := p.pathComponents ++ [p.curPath], curPath := [] }
  else { p with curPath := [] }

/-- An `@` says that what was read as the host, or as host and port, names the user. -/
def assignUserInfo (p : URIParser) (text : Bytes) : Except Error URIParser :=
  if p.userInfoAssigned then .error (.runtime "URI parser - second @ is prohibited")
  else
    .ok { p with
      state := .host
      userInfoAssigned := true
      uri := { p.uri with userInfo := urlDecode text, host := [] } }

def consume (p : URIParser) (input : UInt8) : Except Error URIParser :=
  match p.state with
  | .scheme =>
    if input = ch ':' then .ok (p.goTo .schemeSep1)
    else .ok { p with uri.scheme := p.uri.scheme ++ [input] }
  | .schemeSep1 =>
    if input ≠ ch '/' then .error (.runtime "Invalid URI parser state: '/' expected after scheme")
    else .ok (p.goTo .schemeSep2)
  | .schemeSep2 =>
    if input ≠ ch '/' then .error (.runtime "Invalid URI parser state: '//' expected after scheme")
    else .ok (p.goTo .host)
  | .host =>
    if input = ch '@' then p.assignUserInfo p.uri.host
    else if input = ch '/' then .ok (p.goTo .path)
    else if input = ch ':' then .ok (p.goTo .port)
    else .ok { p with uri.host := p.uri.host ++ [input] }
  | .port =>
    if input = ch '@' then { p with uri.port := [] }.assignUserInfo
      (p.uri.host ++ [ch ':'] ++ p.uri.port)
    else if input = ch '/' then .ok (p.goTo .path)
    else .ok { p with uri.port := p.uri.port ++ [input] }
  | .path =>
    if input = ch '%' then .ok (p.goTo .pathHex1)
    else if input = ch '?' then .ok (p.goTo .query)
    else if input = ch '/' then .ok p.persistPathComponent
    else .ok (p.pushPath [input])
  | .pathHex1 =>
    if input = ch '?' then .ok ((p.pushPath [ch '%']).goTo .query)
    else
      match fromHexDigit input with
      | none => .ok ((p.pushPath [ch '%', input]).goTo .path)
      | some _ => .ok { p with state := .pathHex2, percent1HexSym := input }
  | .pathHex2 =>
    if input = ch '?' then .ok ((p.pushPath [ch '%', p.percent1HexSym]).goTo .query)
    else
      match fromHexDigit input with
      | none => .ok ((p.pushPath [ch '%', p.percent1HexSym, input]).goTo .path)
      | some digit2 =>
        let digit1 := (fromHexDigit p.percent1HexSym).getD 0
        .ok ((p.pushPath [UInt8.ofNat (digit1 * 16 + digit2)]).goTo .path)
  | .query => .ok { p with uri.query := p.uri.query ++ [input] }
  | .good => .error (.logic "Invalid URI parser state at main consume")

/-- An escape cut short by the end of the text. -/
def flushEscape (p : URIParser) : URIParser :=
  match p.state with
  | .pathHex1 => (p.pushPath [ch '%']).goTo .path
  | .pathHex2 => (p.pushPath [ch '%', p.percent1HexSym]).goTo .path
  | _ => p

def consumeEnd (p : URIParser) : Except Error URIParser :=
  let p := p.flushEscape
  let components := p.pathComponents.flatMap fun pc => ch '/' :: pc
  let p := { p with uri.path := p.uri.path ++ components ++ ch '/' :: p.curPath }
  match p.state with
  | .host | .port | .path | .query => .ok (p.goTo .good)
  -- anything less than a parsed host is invalid
  | _ => .error (.runtime "Invalid URI parser state at consume_last")

/-- The loop of `parse`, which has no state to stop in. -/
def parseRange : URIParser → Bytes → Except Error URIParser
  | p, [] => .ok p
  | p, c :: text =>
    match p.consume c with
    | .error e => .error e
    | .ok next => parseRange next text

def parse (p : URIParser) (text : Bytes) : Except Error URIParser :=
  match p.parseRange text with
  | .error e => .error e
  | .ok read => read.consumeEnd

end URIParser

def parseUri (text : Bytes) : Except Error URI :=
  match URIParser.parse {} text with
  | .error e => .error e
  | .ok p => .ok p.uri

end Crablib.Http
