import Crablib.Http.ClientConnection
import Crablib.Http.QueryParser

/-! `ClientRequestSimple` of `http/client_request.hxx`. What a call of a handler
tells the user is a result: `some (.ok response)` for `r_handler`, `some (.error text)`
for `e_handler`. -/
namespace Crablib.Http

/-- `timeoutTimer` says whether the timer is set. -/
structure ClientRequestSimple where
  connection : ClientConnection := {}
  timeoutTimer : Bool := false
  requesting : Bool := false

namespace ClientRequestSimple

def isOpen (r : ClientRequestSimple) : Bool := r.requesting

/-- A connection that is open to somewhere else is of no use. -/
def isElsewhere (r : ClientRequestSimple) (host : Bytes) (port : UInt16) (protocol : Bytes) : Bool :=
  r.connection.isOpen &&
    (host != r.connection.host || port != r.connection.port || protocol != r.connection.protocol)

/-- `send(Request &&, uint16_t, const std::string &)` -/
def sendTo (r : ClientRequestSimple) (request : Request) (port : UInt16) (protocol : Bytes) :
    Except Error Unit × ClientRequestSimple :=
  let kept := if r.isElsewhere request.header.host port protocol then
    r.connection.close else r.connection
  let r := { r with timeoutTimer := false }
  let connected :=
    if !kept.isOpen then kept.connectHost request.header.host port protocol else (.ok (), kept)
  match connected with
  | (.error e, c) => (.error e, { r with connection := c })
  | (.ok (), c) =>
    match c.writeRequest request with
    | .error e => (.error e, { r with connection := c })
    | .ok written => (.ok (), { r with connection := written, requesting := true })

/-- The port of the text, or the one the scheme stands for. -/
def portText (uri : URI) : Except Error Bytes :=
  if !uri.port.isEmpty then .ok uri.port
  else if uri.scheme = str "http" then .ok (str "80")
  else if uri.scheme = str "https" then .ok (str "443")
  else .error (.runtime "port is empty, while scheme unknown - impossible to guess")

/-- The request with its components filled from the URI. -/
def fillRequest (uri : URI) (request : Request) : Request :=
  { request with
    header := { request.header with
      host := uri.host
      path := uri.path
      queryString := uri.query
      basicAuthorization :=
        if uri.userInfo.isEmpty then request.header.basicAuthorization
          else Base64.encode uri.userInfo } }

/-- `send(const std::string &, Request &&)` -/
def send (r : ClientRequestSimple) (uriStr : Bytes) (request : Request) :
    Except Error Unit × ClientRequestSimple :=
  match parseUri uriStr with
  | .error e => (.error e, r)
  | .ok uri =>
    match portText uri >>= integerCast .uint16 with
    | .error e => (.error e, r)
    | .ok port => r.sendTo (fillRequest uri request) (UInt16.ofNat port.toNat) uri.scheme

def get (r : ClientRequestSimple) (uriStr : Bytes) (request : Request) :
    Except Error Unit × ClientRequestSimple :=
  r.send uriStr { request with header := { request.header with method := str "GET" } }

def cancel (r : ClientRequestSimple) : ClientRequestSimple :=
  if !r.requesting then r
  else { r with requesting := false, connection := r.connection.close, timeoutTimer := false }

def onConnectionClose (r : ClientRequestSimple) :
    Option (Except String Response) × ClientRequestSimple :=
  if !r.requesting then (none, { r with timeoutTimer := false })
  else (some (.error "disconnect"), { r with timeoutTimer := false, requesting := false })

def onConnection (r : ClientRequestSimple) : Option (Except String Response) × ClientRequestSimple :=
  if !r.connection.isOpen then r.onConnectionClose
  else
    match r.connection.readNextResponse with
    | (none, c) => (none, { r with connection := c })
    | (some response, c) =>
      if !r.requesting then (none, { r with connection := c })
      else (some (.ok response), { r with connection := c, requesting := false, timeoutTimer := true })

def onTimeoutTimer (r : ClientRequestSimple) : ClientRequestSimple :=
  { r with connection := r.connection.close, timeoutTimer := false }

end ClientRequestSimple
end Crablib.Http
