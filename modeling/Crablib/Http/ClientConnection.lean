import Crablib.Http.BodyParser
import Crablib.Http.ResponseParser
import Crablib.Http.WebReader

/-! `ClientConnection` of `http/connection.hxx`, built without TLS. The random
numbers the run loop hands out for masking keys are an input, `keys`; when they
have run out the next one is 0. -/
namespace Crablib.Http

inductive ClientState where
  | resolvingHost
  | waitingWriteRequest
  | responseHeader
  | responseBody
  | responseReady
  | webUpgradeResponseHeader
  | web (state : WebState)
  deriving DecidableEq, Repr

/-- `dnsOpen` says whether a name is being resolved. -/
structure ClientConnection where
  readBuffer : Buffer := .make 8192
  responseParser : ResponseParser := {}
  httpBodyParser : BodyParser := {}
  reader : WebReader := {}
  secWebsocketKey : Bytes := []
  dnsOpen : Bool := false
  sock : BufferedTcpSocket := {}
  waitingRequest : Option Request := none
  state : ClientState := .resolvingHost
  protocol : Bytes := []
  host : Bytes := []
  port : UInt16 := 0
  keys : List UInt32 := []

namespace ClientConnection

def isOpen (c : ClientConnection) : Bool := c.dnsOpen || c.sock.isOpen

def getTotalBufferSize (c : ClientConnection) : Nat := c.sock.getTotalBufferSize

def close (c : ClientConnection) : ClientConnection :=
  { c with
    state := .resolvingHost
    readBuffer := c.readBuffer.clear
    dnsOpen := false
    waitingRequest := none
    sock := c.sock.close false
    protocol := []
    host := []
    port := 0 }

/-- `connect(const Address &)`; an address is its host text and port here. -/
def connectAddress (c : ClientConnection) (host : Bytes) (port : UInt16) (result : ConnectResult) :
    Bool × ClientConnection :=
  let connected := c.close.sock.connect result
  if !connected.1 then (false, { c.close with sock := connected.2 })
  else
    (true, { c.close with
      sock := connected.2
      host := host
      port := port
      protocol := str "http"
      state := .waitingWriteRequest })

/-- `connect(host, port, protocol)` -/
def connectHost (c : ClientConnection) (host : Bytes) (port : UInt16) (protocol : Bytes) :
    Except Error Unit × ClientConnection :=
  if protocol ≠ str "http" ∧ protocol ≠ str "https" then
    (.error (.runtime "ClientConnection unsupported protocol"), c.close)
  else
    (.ok (), { c.close with
      dnsOpen := true
      host := host
      port := port
      protocol := protocol
      state := .resolvingHost })

/-- `write(Request &&)` behind its checks. -/
def sendRequest (c : ClientConnection) (header : RequestHeader) (body : Bytes) : ClientConnection :=
  let sent := { c with
    sock := (c.sock.bufferString header.toString).writeString body .write
    responseParser := {} }
  if header.isWebsocketUpgrade then
    { sent with state := .webUpgradeResponseHeader, secWebsocketKey := header.secWebsocketKey }
  else { sent with state := .responseHeader }

/-- `write(Request &&)`; a single request may wait for the name to resolve. -/
def writeRequest (c : ClientConnection) (req : Request) : Except Error ClientConnection := do
  if !c.isOpen then return c
  if c.state = .resolvingHost then
    invariant c.waitingRequest.isNone "Duplicate write RESOLVING_HOST state"
    return { c with waitingRequest := some req }
  let header := { req.header with host := c.host }
  invariant (c.state == .waitingWriteRequest) "Connection unexpected write"
  invariant (header.httpVersionMajor != 0 && !header.method.isEmpty && !header.path.isEmpty)
    "Someone forgot to set version, method or path"
  invariant (!header.transferEncodingChunked) "As the whole body is sent, makes no sense"
  return c.sendRequest header req.body

/-- The states in which web messages may be written. -/
def mayWriteMessage (c : ClientConnection) : Bool :=
  match c.state with
  | .web _ => true
  | .webUpgradeResponseHeader => true
  | _ => false

/-- `write(WebMessage &&)` behind its checks: the payload is masked with the
next random key. -/
def sendMessage (c : ClientConnection) (message : WebMessage) : ClientConnection :=
  let key := c.keys.headD 0
  let body := payload message
  let header := webMessageHeader true message.opcode.toNat body.length (some key)
  let sent := { c with
    keys := c.keys.tail
    sock := (c.sock.buffer header).writeString (maskData 0 body key) .write }
  if message.opcode = .close then
    -- We will not attempt to read response. Client logic should not depend on it.
    { sent with readBuffer := sent.readBuffer.clear, sock := sent.sock.writeShutdown }
  else sent

/-- `write(WebMessage &&)` -/
def writeMessage (c : ClientConnection) (message : WebMessage) : Except Error ClientConnection := do
  if !c.isOpen then return c
  invariant c.mayWriteMessage "Connection unexpected write"
  return c.sendMessage message

/-- `rdata` are the 16 random bytes of the key. -/
def webSocketUpgrade (c : ClientConnection) (rh : RequestHeader) (rdata : Bytes) :
    Except Error ClientConnection :=
  c.writeRequest
    { header := { rh with
        httpVersionMajor := 1
        httpVersionMinor := 1
        connectionUpgrade := true
        method := str "GET"
        upgradeWebsocket := true
        secWebsocketVersion := str "13"
        secWebsocketKey := Base64.encode rdata } }

/-- The case `RESPONSE_BODY`. -/
def readResponseBody (c : ClientConnection) : Turn × ClientConnection :=
  match c.readBuffer.parseWith c.httpBodyParser.parse with
  | .error e => (.throw e, c)
  | .ok (parser, rest) =>
    let c := { c with httpBodyParser := parser, readBuffer := rest }
    if !parser.isGood then (.again, c) else (.stop true, { c with state := .responseReady })

/-- The case `RESPONSE_HEADER`, which falls through to handle a body of zero
length. -/
def readResponseHeader (c : ClientConnection) : Turn × ClientConnection :=
  match c.readBuffer.parseWith c.responseParser.parse with
  | .error e => (.throw e, c)
  | .ok (parser, rest) =>
    let c := { c with responseParser := parser, readBuffer := rest }
    if !parser.isGood then (.again, c)
    else if parser.req.isWebsocketUpgrade then (.throw (.runtime "Unexpected web upgrade header"), c)
    else
      { c with
        httpBodyParser := .make parser.req.contentLength parser.req.transferEncodingChunked
        state := .responseBody }.readResponseBody

/-- The case `WEB_UPGRADE_RESPONSE_HEADER`. -/
def readUpgradeResponse (c : ClientConnection) : Turn × ClientConnection :=
  match c.readBuffer.parseWith c.responseParser.parse with
  | .error e => (.throw e, c)
  | .ok (parser, rest) =>
    let c := { c with responseParser := parser, readBuffer := rest }
    if !parser.isGood then (.again, c)
    else if !parser.req.isWebsocketUpgrade then (.throw (.runtime "Expecting web upgrade header"), c)
    else if parser.req.contentLength.isSome ∨ parser.req.transferEncodingChunked then
      (.throw (.runtime "Web upgrade reponse cannot have body"), c)
    else if parser.req.secWebsocketAccept ≠ ResponseHeader.generateSecWebsocketAccept
        c.secWebsocketKey then
      (.throw (.runtime "Wrong value of 'Sec-WebSocket-Accept' header"), c)
    else
      (.again, { c with
        reader := { c.reader with wmHeaderParser := {}, wmBodyParser := {} }
        state := .web .header })

/-- The cases of the web-socket states. -/
def readWebMessage (c : ClientConnection) (state : WebState) : Turn × ClientConnection :=
  let chunk := c.reader.read state c.readBuffer
  let c := { c with state := .web chunk.2.1, reader := chunk.2.2.1, readBuffer := chunk.2.2.2 }
  match chunk.1 with
  | .nothing => (.again, c)
  | .ready => (.stop true, c)
  | .fail e => (.throw e, c)
  | .answer body =>
    match c.writeMessage { opcode := .pong, body := body } with
    | .error e => (.throw e, c)
    | .ok written => (.again, written)
  | .notUtf8 =>
    match c.writeMessage { opcode := .close, closeCode := WebMessage.closeStatusNotUtf8 } with
    | .error e => (.throw e, c)
    | .ok written => (.stop false, written)

/-- The `switch` of `advance_state`. -/
def switchState (c : ClientConnection) : Turn × ClientConnection :=
  match c.state with
  | .responseHeader => c.readResponseHeader
  | .responseBody => c.readResponseBody
  | .webUpgradeResponseHeader => c.readUpgradeResponse
  | .web .header => c.readWebMessage .header
  | .web .body => c.readWebMessage .body
  -- waiting write, closing, etc
  | _ => (.stop false, c)

/-- One pass of the loop of `advance_state`. -/
def turn (c : ClientConnection) : Turn × ClientConnection :=
  if c.readBuffer.empty then
    let got := c.readBuffer.readFrom BufferedTcpSocket.istream c.sock
    let c := { c with readBuffer := got.2.1, sock := got.2.2 }
    if got.1 = 0 then (.stop false, c) else c.switchState
  else c.switchState

/-- The `catch` of `advance_state`. -/
def onException (c : ClientConnection) : ClientConnection :=
  { c with readBuffer := c.readBuffer.clear, sock := c.sock.writeShutdown }

/-- The loop inside the `try`: the pass that ends it, by a return or a throw. -/
def tryLoop : Nat → ClientConnection → Turn × ClientConnection
  | 0, c => (.stop false, c)
  | passes + 1, c =>
    match c.turn with
    | (.again, next) => tryLoop passes next
    | (.stop result, next) => (.stop result, next)
    | (.throw e, next) => (.throw e, next)

/-- A pass that continues uses at least one byte. -/
def passes (c : ClientConnection) : Nat := c.readBuffer.size + queued c.sock.sock.descriptor.incoming + 1

def advanceState (c : ClientConnection) : Bool × ClientConnection :=
  -- do not process new request if data waiting to be sent
  if c.sock.getTotalBufferSize ≠ 0 then (false, c)
  else
    match tryLoop c.passes c with
    | (.again, next) => (false, next)
    | (.stop result, next) => (result, next)
    | (.throw _, next) => (true, next.onException)

/-- What is left of a response header that was moved to the user. -/
def movedFrom (header : ResponseHeader) : ResponseHeader :=
  { header with
    headers := []
    transferEncodings := []
    contentTypeMime := []
    contentTypeSuffix := []
    statusText := []
    secWebsocketAccept := []
    date := []
    server := [] }

/-- `read_next(Response &)` after the response was moved out, before it advances. -/
def takeResponse (c : ClientConnection) : ClientConnection :=
  { c with
    httpBodyParser.body := []
    responseParser := c.responseParser.setReq (movedFrom c.responseParser.req)
    state := .waitingWriteRequest }

/-- `read_next(Response &)` -/
def readNextResponse (c : ClientConnection) : Option Response × ClientConnection :=
  if c.state ≠ .responseReady then (none, c)
  else
    (some { header := c.responseParser.req, body := c.httpBodyParser.body },
      c.takeResponse.advanceState.2)

/-- `read_next(WebMessage &)` after the message was moved out, before it advances. -/
def takeMessage (c : ClientConnection) : ClientConnection :=
  { c with reader := { c.reader with webMessage := none, wmHeaderParser := {} }, state := .web .header }

/-- `read_next(WebMessage &)` -/
def readNextMessage (c : ClientConnection) : Option WebMessage × ClientConnection :=
  if c.state ≠ .web .ready then (none, c)
  else (some (c.reader.webMessage.getD {}), c.takeMessage.advanceState.2)

/-- `dns_handler`: `result` is `none` when no address was found, else how
connecting to the chosen one ends; `true` says that the user's handler is called.
A name resolved for https meets the missing TLS support. -/
def dnsHandler (c : ClientConnection) (result : Option ConnectResult) :
    Except Error Bool × ClientConnection :=
  if !c.dnsOpen then (.ok false, c)
  else
    let resolved := { c with dnsOpen := false }
    match result with
    | none => (.ok true, resolved.close)
    | some result =>
      if c.protocol ≠ str "http" then
        (.error (.runtime "crablib was build without TLS support"), resolved)
      else
        let connected := resolved.sock.connect result
        if !connected.1 then (.ok true, { resolved with sock := connected.2 }.close)
        else
          let waiting := { resolved with sock := connected.2, state := .waitingWriteRequest }
          match c.waitingRequest with
          | none => (.ok false, waiting)
          | some req =>
            match waiting.writeRequest req with
            | .error e => (.error e, waiting)
            | .ok written => (.ok false, { written with waitingRequest := none })

/-- `sock_handler`, and whether it calls the user's handler. -/
def sockHandler (c : ClientConnection) : Bool × ClientConnection :=
  if !c.sock.isOpen then (true, c.close) else c.advanceState

/-- The connection after the run loop took the callable off its list and the
socket's own handler ran. -/
def socketEvent (c : ClientConnection) : ClientConnection :=
  { c with sock := { c.sock with sock.pending := false }.sockHandler }

/-- The run loop calls the socket's callable, and through it `sock_handler`. -/
def dispatch (c : ClientConnection) : Bool × ClientConnection :=
  if c.sock.sock.pending then c.socketEvent.sockHandler else (false, c)

def shutdownTimerHandler (c : ClientConnection) : Bool × ClientConnection :=
  if c.sock.shutdownTimer then { c with sock := c.sock.shutdownTimerHandler }.sockHandler else (false, c)

end ClientConnection
end Crablib.Http
