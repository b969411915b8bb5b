import Crablib.Crypto.Base64
import Crablib.Crypto.Sha1

/-! The data types of `http/types.hpp` and their text form from `types.hxx`.
Names and values of headers are bytes, numbers of the source type `int` are
integers. -/
namespace Crablib.Http

structure Header where
  name : Bytes := []
  value : Bytes := []
  deriving DecidableEq, Repr

structure RequestResponseHeader where
  httpVersionMajor : Int := 1
  httpVersionMinor : Int := 1
  headers : List Header := []
  keepAlive : Bool := true
  contentLength : Option UInt64 := none
  transferEncodingChunked : Bool := false
  transferEncodings : List Bytes := []
  connectionUpgrade : Bool := false
  upgradeWebsocket : Bool := false
  contentTypeMime : Bytes := []
  contentTypeSuffix : Bytes := []
  deriving DecidableEq, Repr

structure RequestHeader extends RequestResponseHeader where
  method : Bytes := []
  path : Bytes := []
  queryString : Bytes := []
  basicAuthorization : Bytes := []
  host : Bytes := []
  origin : Bytes := []
  secWebsocketKey : Bytes := []
  secWebsocketVersion : Bytes := []
  deriving DecidableEq, Repr

structure ResponseHeader extends RequestResponseHeader where
  status : Int := 0
  statusText : Bytes := []
  secWebsocketAccept : Bytes := []
  date : Bytes := []
  server : Bytes := []
  deriving DecidableEq, Repr

structure Request where
  header : RequestHeader := {}
  body : Bytes := []
  deriving DecidableEq, Repr

structure Response where
  header : ResponseHeader := {}
  body : Bytes := []
  deriving DecidableEq, Repr

inductive WebMessageOpcode where
  | text
  | binary
  | close
  | ping
  | pong
  deriving DecidableEq, Repr

def WebMessageOpcode.toNat : WebMessageOpcode → Nat
  | .text => 1
  | .binary => 2
  | .close => 8
  | .ping => 9
  | .pong => 10

structure WebMessage where
  opcode : WebMessageOpcode := .close
  body : Bytes := []
  closeCode : UInt16 := 1005
  deriving DecidableEq, Repr

namespace WebMessage

def closeStatusNormal : UInt16 := 1000
def closeStatusNoCode : UInt16 := 1005
def closeStatusDisconnect : UInt16 := 1006
def closeStatusNotUtf8 : UInt16 := 1007
def closeStatusError : UInt16 := 1011

end WebMessage

def isSp (c : UInt8) : Bool := c == 32 || c == 9

def isChar (c : UInt8) : Bool := c.toNat ≤ 127

def isCtl (c : UInt8) : Bool := c.toNat ≤ 31 || c == 127

def isTspecial (c : UInt8) : Bool := (str "()<>@,;:\\\"/[]?=\x7b\x7d \t").contains c

/-- A character allowed in methods and header names. -/
def isToken (c : UInt8) : Bool := isChar c && !isCtl c && !isTspecial c

/-- A character that `url_encode` escapes. -/
def isUriReserved (c : UInt8) : Bool :=
  !isChar c || isCtl c || isSp c || (str "!#$%&'()*+,/:;=?@[]").contains c

/-- `std::tolower` of one character in the C locale. -/
def lowerChar (c : UInt8) : UInt8 := if 65 ≤ c.toNat ∧ c.toNat ≤ 90 then c + 32 else c

def toLower (text : Bytes) : Bytes := text.map lowerChar

def trimRight (text : Bytes) : Bytes := (text.reverse.dropWhile isSp).reverse

/-- `from_hex_digit`, with `none` for its -1. -/
def fromHexDigit (sym : UInt8) : Option Nat :=
  let c := sym.toNat
  if 48 ≤ c ∧ c ≤ 57 then some (c - 48)
  else if 97 ≤ c ∧ c ≤ 102 then some (c - 97 + 10)
  else if 65 ≤ c ∧ c ≤ 70 then some (c - 65 + 10)
  else none

/-- A number as `operator<<` prints it. -/
def decimal (n : Nat) : Bytes := (Nat.toDigits 10 n).map ch

def decimalInt (n : Int) : Bytes := if n < 0 then ch '-' :: decimal n.natAbs else decimal n.toNat

/-- A number as `%llx` prints it. -/
def hex (n : Nat) : Bytes := (Nat.toDigits 16 n).map ch

def crlf : Bytes := [13, 10]

/-- The mime type and what follows the `;`, which may also be left out. -/
def parseContentTypeValue (value : Bytes) : Bytes × Bytes :=
  let stop := fun c => c == ch ';' || isSp c
  let mime := toLower (value.takeWhile fun c => !stop c)
  let rest := (value.dropWhile fun c => !stop c).dropWhile isSp
  let rest := if rest.head? = some (ch ';') then rest.tail else rest
  (mime, rest.dropWhile isSp)

/-- `parse_authorization_basic`: `none` leaves the caller's string as it was. -/
def parseAuthorizationBasic (value : Bytes) : Option Bytes :=
  if value.length < 6 ∨ toLower (value.take 5) ≠ str "basic" ∨ ¬isSp (value.getD 5 0) then none
  else some ((value.drop 6).dropWhile isSp)

def statusToString (status : Int) : Bytes :=
  let mappings : List (Int × String) :=
    [(101, "Switching Protocols"), (200, "OK"), (400, "Bad request"),
      (401, "Unauthorized"), (403, "Forbidden"),
      (404, "Not found"), (422, "Unprocessable Entity"), (500, "Internal Error"),
      (501, "Not implemented"), (502, "Service temporarily overloaded"), (503, "Gateway timeout")]
  match mappings.find? fun m => m.1 = status with
  | some m => str m.2
  | none => str "Unknown"

/-- One header line. -/
def line (name value : Bytes) : Bytes := name ++ str ": " ++ value ++ crlf

/-- A header line that is left out when its value is empty. -/
def optionalLine (name value : Bytes) : Bytes := if value.isEmpty then [] else line name value

namespace RequestResponseHeader

def contentTypeLine (req : RequestResponseHeader) : Bytes :=
  if req.contentTypeMime.isEmpty then []
  else
    str "content-type: " ++ req.contentTypeMime ++
      (if req.contentTypeSuffix.isEmpty then [] else str "; " ++ req.contentTypeSuffix) ++ crlf

def contentLengthLine (req : RequestResponseHeader) : Bytes :=
  match req.contentLength with
  | some length => line (str "content-length") (decimal length.toNat)
  | none => []

def connectionLines (req : RequestResponseHeader) : Bytes :=
  if req.httpVersionMajor = 1 ∧ req.httpVersionMinor = 0 ∧ req.keepAlive then
    line (str "connection") (str "keep-alive")
  else if req.httpVersionMajor = 1 ∧ req.httpVersionMinor = 1 ∧ ¬req.keepAlive then
    line (str "connection") (str "close")
  else if req.connectionUpgrade ∧ req.upgradeWebsocket then
    line (str "connection") (str "upgrade") ++ line (str "upgrade") (str "websocket")
  else []

def transferEncodingLine (req : RequestResponseHeader) : Bytes :=
  let all := req.transferEncodings ++ if req.transferEncodingChunked then [str "chunked"] else []
  if all.isEmpty then []
  else str "transfer-encoding:" ++ str " " ++ (str ", ").intercalate all ++ crlf

/-- `to_string_common` -/
def toStringCommon (req : RequestResponseHeader) : Bytes :=
  req.contentTypeLine ++ req.contentLengthLine ++ req.connectionLines ++ req.transferEncodingLine ++
    req.headers.flatMap fun h => line h.name h.value

end RequestResponseHeader

def version (req : RequestResponseHeader) : Bytes :=
  str "HTTP/" ++ decimalInt req.httpVersionMajor ++ str "." ++ decimalInt req.httpVersionMinor

namespace RequestHeader

def isWebsocketUpgrade (req : RequestHeader) : Bool :=
  req.method == str "GET" && req.httpVersionMajor == 1 && req.httpVersionMinor == 1 &&
    req.connectionUpgrade && req.upgradeWebsocket && !req.secWebsocketKey.isEmpty &&
    req.secWebsocketVersion == str "13" && req.keepAlive

def toString (req : RequestHeader) : Bytes :=
  req.method ++ str " " ++ req.path ++
    (if req.queryString.isEmpty then [] else str "?" ++ req.queryString) ++
    str " " ++ version req.toRequestResponseHeader ++ crlf ++
    optionalLine (str "host") req.host ++ optionalLine (str "origin") req.origin ++
    (if req.basicAuthorization.isEmpty then []
      else line (str "authorization") (str "basic " ++ req.basicAuthorization)) ++
    req.toStringCommon ++ optionalLine (str "sec-websocket-key") req.secWebsocketKey ++
    optionalLine (str "sec-websocket-version") req.secWebsocketVersion ++ crlf

/-- The query stays what it was if the target has none. -/
def setUri (req : RequestHeader) (uri : Bytes) : RequestHeader :=
  match uri.findIdx? (· = ch '?') with
  | none => { req with path := uri }
  | some pos => { req with path := uri.take pos, queryString := uri.drop (pos + 1) }

def getUri (req : RequestHeader) : Bytes :=
  if req.queryString.isEmpty then req.queryString else req.path ++ str "?" ++ req.queryString

end RequestHeader

namespace ResponseHeader

def isWebsocketUpgrade (resp : ResponseHeader) : Bool :=
  resp.status == 101 && resp.connectionUpgrade && resp.upgradeWebsocket &&
    !resp.secWebsocketAccept.isEmpty

def toString (resp : ResponseHeader) : Bytes :=
  version resp.toRequestResponseHeader ++ str " " ++ decimalInt resp.status ++ str " " ++
    (if resp.statusText.isEmpty then statusToString resp.status else resp.statusText) ++ crlf ++
    optionalLine (str "date") resp.date ++ resp.toStringCommon ++
    optionalLine (str "sec-websocket-accept") resp.secWebsocketAccept ++ crlf

/-- The hash starts on a memory of zero bytes; the source leaves it uninitialized. -/
def generateSecWebsocketAccept (secWebsocketKey : Bytes) : Bytes :=
  let guid := str "258EAFA5-E914-47DA-95CA-C5AB0DC85B11"
  let hash := sha1.new (List.replicate 64 0)
  Base64.encode (sha1.finalize (sha1.add (sha1.add hash secWebsocketKey) guid))

end ResponseHeader
end Crablib.Http
