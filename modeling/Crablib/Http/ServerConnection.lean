import Crablib.Http.BodyParser
import Crablib.Http.RequestParser
import Crablib.Http.WebReader

/-! `ServerConnection` of `http/connection.hxx`. The user's handler is called
last wherever it is called, so the functions that call it return whether they
do. Functions that throw before they change anything return `Except`. -/
namespace Crablib.Http

inductive ServerState where
  | requestHeader
  | requestBody
  | requestReady
  | responseHeader
  | responseBody
  | web (state : WebState)
  deriving DecidableEq, Repr

/-- `wmPingTimer` says whether the ping timer is set; the address of the peer
is left out, as nothing here reads it. -/
structure ServerConnection where
  readBuffer : Buffer := .make 8192
  requestParser : RequestParser := {}
  httpBodyParser : BodyParser := {}
  reader : WebReader := {}
  wmPingTimer : Bool := false
  remainingBodyContentLength : Option Nat := none
  sock : BufferedTcpSocket := {}
  state : ServerState := .requestHeader
  writingWebMessageBody : Bool := false

namespace ServerConnection

def isOpen (c : ServerConnection) : Bool := c.sock.isOpen

def canWrite (c : ServerConnection) : Bool := c.sock.canWrite

def getTotalBufferSize (c : ServerConnection) : Nat := c.sock.getTotalBufferSize

def isStateWebsocket (c : ServerConnection) : Bool :=
  match c.state with
  | .web _ => true
  | _ => false

def isWritingBody (c : ServerConnection) : Bool := c.writingWebMessageBody || c.state == .responseBody

def close (c : ServerConnection) : ServerConnection :=
  { c with
    readBuffer := c.readBuffer.clear
    wmPingTimer := false
    sock := c.sock.close false
    state := .requestHeader
    writingWebMessageBody := false }

/-- `accept` throws only when the acceptor has no descriptor; the connection is
closed already then. -/
def accept (c : ServerConnection) (accepted : Accepted) : Except Error Unit × ServerConnection :=
  match c.close.sock.accept accepted with
  | .error e => (.error e, c.close)
  | .ok sock => (.ok (), { c.close with sock := sock, requestParser := {}, state := .requestHeader })

/-- `write(WebMessage &&)` behind its checks. -/
def sendMessage (c : ServerConnection) (message : WebMessage) (bo : BufferOptions) : ServerConnection :=
  let body := payload message
  let header := webMessageHeader true message.opcode.toNat body.length none
  let sent := { c with sock := (c.sock.buffer header).writeString body bo }
  if message.opcode = .close then
    { sent with
      wmPingTimer := false
      readBuffer := sent.readBuffer.clear
      sock := sent.sock.writeShutdown }
  else { sent with wmPingTimer := sent.wmPingTimer || bo = .write }

/-- `write(WebMessage &&)`, any opcode. Control messages can be sent between
frames of ordinary messages. -/
def writeMessage (c : ServerConnection) (message : WebMessage) (bo : BufferOptions) :
    Except Error ServerConnection := do
  if !c.isOpen then return c
  invariant c.isStateWebsocket "Connection unexpected write"
  invariant (!(message.opcode = .text ∨ message.opcode = .binary) || !c.writingWebMessageBody)
    "Sending new message before previous one finished"
  return c.sendMessage message bo

/-- The case `REQUEST_BODY`. -/
def readRequestBody (c : ServerConnection) : Turn × ServerConnection :=
  match c.readBuffer.parseWith c.httpBodyParser.parse with
  | .error e => (.throw e, c)
  | .ok (parser, rest) =>
    let c := { c with httpBodyParser := parser, readBuffer := rest }
    if !parser.isGood then (.again, c) else (.stop true, { c with state := .requestReady })

/-- The case `REQUEST_HEADER`, which falls through to handle a body of zero
length. -/
def readRequestHeader (c : ServerConnection) : Turn × ServerConnection :=
  match c.readBuffer.parseWith c.requestParser.parse with
  | .error e => (.throw e, c)
  | .ok (parser, rest) =>
    let c := { c with requestParser := parser, readBuffer := rest }
    if !parser.isGood then (.again, c)
    else
      let req := parser.req
      { c with
        httpBodyParser := .make req.contentLength req.transferEncodingChunked
        -- Hide from clients
        requestParser := parser.setReq { req with transferEncodingChunked := false }
        state := .requestBody }.readRequestBody

/-- The cases of the web-socket states. -/
def readWebMessage (c : ServerConnection) (state : WebState) : Turn × ServerConnection :=
  let chunk := c.reader.read state c.readBuffer
  let c := { c with state := .web chunk.2.1, reader := chunk.2.2.1, readBuffer := chunk.2.2.2 }
  match chunk.1 with
  | .nothing => (.again, c)
  | .ready => (.stop true, c)
  | .fail e => (.throw e, c)
  | .answer body =>
    match c.writeMessage { opcode := .pong, body := body } .write with
    | .error e => (.throw e, c)
    | .ok written => (.again, written)
  | .notUtf8 =>
    match c.writeMessage { opcode := .close, closeCode := WebMessage.closeStatusNotUtf8 } .write with
    | .error e => (.throw e, c)
    | .ok written => (.stop false, written)

/-- The `switch` of `advance_state`. -/
def switchState (c : ServerConnection) : Turn × ServerConnection :=
  match c.state with
  | .requestHeader => c.readRequestHeader
  | .requestBody => c.readRequestBody
  | .web .header => c.readWebMessage .header
  | .web .body => c.readWebMessage .body
  -- waiting write, closing, etc
  | _ => (.stop false, c)

/-- One pass of the loop of `advance_state`. -/
def turn (c : ServerConnection) : Turn × ServerConnection :=
  if c.readBuffer.empty then
    let got := c.readBuffer.readFrom BufferedTcpSocket.istream c.sock
    let c := { c with readBuffer := got.2.1, sock := got.2.2 }
    if got.1 = 0 then (.stop false, c) else c.switchState
  else c.switchState

/-- The `catch` of `advance_state`. -/
def onException (c : ServerConnection) : ServerConnection :=
  { c with wmPingTimer := false, readBuffer := c.readBuffer.clear, sock := c.sock.writeShutdown }

/-- The loop inside the `try`: the pass that ends it, by a return or a throw. -/
def tryLoop : Nat → ServerConnection → Turn × ServerConnection
  | 0, c => (.stop false, c)
  | passes + 1, c =>
    match c.turn with
    | (.again, next) => tryLoop passes next
    | (.stop result, next) => (.stop result, next)
    | (.throw e, next) => (.throw e, next)

/-- A pass that continues uses at least one byte. -/
def passes (c : ServerConnection) : Nat := c.readBuffer.size + queued c.sock.sock.descriptor.incoming + 1

def advanceState (c : ServerConnection) : Bool × ServerConnection :=
  -- do not process new request if data waiting to be sent
  if c.sock.getTotalBufferSize ≠ 0 then (false, c)
  else
    match tryLoop c.passes c with
    | (.again, next) => (false, next)
    | (.stop result, next) => (result, next)
    | (.throw _, next) => (true, next.onException)

/-- What the parser keeps of a request that was moved to the user: the params
for the response; strings and lists that were moved are empty. -/
def remembered (header : RequestHeader) : RequestHeader :=
  { header with
    headers := []
    transferEncodings := []
    contentTypeMime := []
    contentTypeSuffix := []
    path := []
    queryString := []
    basicAuthorization := []
    host := []
    origin := [] }

/-- `read_next(Request &)` after the request was moved out, before it advances. -/
def takeRequest (c : ServerConnection) : ServerConnection :=
  { c with
    httpBodyParser.body := []
    requestParser := c.requestParser.setReq (remembered c.requestParser.req)
    state := .responseHeader }

/-- `read_next(Request &)` -/
def readNextRequest (c : ServerConnection) : Option Request × ServerConnection :=
  if c.state ≠ .requestReady then (none, c)
  else
    (some { header := c.requestParser.req, body := c.httpBodyParser.body }, c.takeRequest.advanceState.2)

/-- `read_next(WebMessage &)` after the message was moved out, before it advances. -/
def takeMessage (c : ServerConnection) : ServerConnection :=
  { c with reader := { c.reader with webMessage := none, wmHeaderParser := {} }, state := .web .header }

/-- `read_next(WebMessage &)` -/
def readNextMessage (c : ServerConnection) : Option WebMessage × ServerConnection :=
  -- We can start streaming message at any state, but must not allow reading until finished
  if c.state ≠ .web .ready ∨ c.writingWebMessageBody then (none, c)
  else (some (c.reader.webMessage.getD {}), c.takeMessage.advanceState.2)

/-- The answer to an upgrade request: HTTP/1.1, keep-alive. -/
def upgradeResponse (c : ServerConnection) : ResponseHeader :=
  { connectionUpgrade := true
    upgradeWebsocket := true
    secWebsocketAccept := ResponseHeader.generateSecWebsocketAccept c.requestParser.req.secWebsocketKey
    status := 101 }

/-- `web_socket_upgrade` behind its checks. -/
def sendUpgrade (c : ServerConnection) : ServerConnection :=
  { c with
    sock := c.sock.writeString c.upgradeResponse.toString .write
    reader := { c.reader with wmHeaderParser := {}, wmBodyParser := {} }
    state := .web .header
    wmPingTimer := true }

def webSocketUpgrade (c : ServerConnection) : Except Error ServerConnection := do
  if !c.isOpen then return c
  invariant (c.state == .responseHeader) "Connection unexpected write"
  if !c.requestParser.req.isWebsocketUpgrade then
    throw (.runtime "Attempt to upgrade non-upgradable connection")
  return c.sendUpgrade

/-- The header as it is sent: version and persistence come from the request. -/
def completeHeader (c : ServerConnection) (resp : ResponseHeader) : ResponseHeader :=
  { resp with
    httpVersionMajor := c.requestParser.req.httpVersionMajor
    httpVersionMinor := c.requestParser.req.httpVersionMinor
    keepAlive := c.requestParser.req.keepAlive }

/-- `write(ResponseHeader &)` behind its checks. -/
def sendHeader (c : ServerConnection) (resp : ResponseHeader) (bo : BufferOptions) : ServerConnection :=
  { c with
    remainingBodyContentLength := resp.contentLength.map UInt64.toNat
    sock := c.sock.writeString (c.completeHeader resp).toString bo
    state := .responseBody }

/-- `write(ResponseHeader &)` -/
def writeHeader (c : ServerConnection) (resp : ResponseHeader) (bo : BufferOptions) :
    Except Error ServerConnection := do
  if !c.isOpen then return c
  invariant (c.state == .responseHeader) "Connection unexpected write"
  invariant (!resp.isWebsocketUpgrade) "Please use web_socket_upgrade() function for web socket upgrade"
  invariant (resp.transferEncodingChunked || resp.contentLength.isSome)
    "Please set either chunked encoding or content_length"
  return c.sendHeader resp bo

/-- `write(WebMessageOpcode)`: a 0-length !FIN frame starts the message. -/
def writeOpcode (c : ServerConnection) (opcode : WebMessageOpcode) : Except Error ServerConnection := do
  if !c.isOpen then return c
  invariant c.isStateWebsocket "Connection unexpected write"
  invariant (opcode == .text || opcode == .binary) "Control frames must not be fragmented"
  invariant (!c.writingWebMessageBody) "Sending new message before previous one finished"
  return { c with
    writingWebMessageBody := true
    sock := c.sock.buffer (webMessageHeader false opcode.toNat 0 none) }

/-- The end of a response. -/
def finishResponse (c : ServerConnection) : ServerConnection :=
  let ended :=
    -- We sent it in our response header
    if !c.requestParser.req.keepAlive then
      { c with readBuffer := c.readBuffer.clear, sock := c.sock.writeShutdown }
    else c
  { ended with requestParser := {}, state := .requestHeader }

/-- The overload of the socket that a body write calls. -/
abbrev Send := BufferedTcpSocket → Bytes → BufferOptions → BufferedTcpSocket

/-- Part of a web message; an empty part sends no frame. -/
def sendFrame (send : Send) (c : ServerConnection) (val : Bytes)
    (bo : BufferOptions) : ServerConnection :=
  if val.length = 0 then c
  else
    { c with
      sock := send (c.sock.buffer (webMessageHeader false 0 val.length none)) val bo
      wmPingTimer := c.wmPingTimer || bo = .write }

/-- Part of a body whose length was announced. -/
def sendCounted (send : Send) (c : ServerConnection) (remaining : Nat) (val : Bytes)
    (bo : BufferOptions) : ServerConnection :=
  let sent := { c with
    remainingBodyContentLength := some (remaining - val.length)
    sock := send c.sock val bo }
  if remaining - val.length = 0 then sent.finishResponse else sent

/-- Part of a chunked body; an empty chunk is the terminator, so none is sent. -/
def sendChunk (c : ServerConnection) (val : Bytes) (bo : BufferOptions) : ServerConnection :=
  if val.length = 0 then c
  else { c with sock := ((c.sock.buffer (hex val.length ++ crlf)).buffer val).write crlf bo }

/-- Both body writes; they differ in the overload of the socket they call. -/
def writeBody (send : Send) (c : ServerConnection) (val : Bytes) (bo : BufferOptions) :
    Except Error ServerConnection := do
  invariant c.isWritingBody "Connection unexpected write"
  if c.writingWebMessageBody then return c.sendFrame send val bo
  match c.remainingBodyContentLength with
  | some remaining =>
    invariant (val.length ≤ remaining) "Overshoot content-length"
    return c.sendCounted send remaining val bo
  | none => return c.sendChunk val bo

/-- `write(const uint8_t *, size_t)` -/
def writeData (c : ServerConnection) (val : Bytes) (bo : BufferOptions) :
    Except Error ServerConnection :=
  c.writeBody BufferedTcpSocket.write val bo

/-- `write(std::string &&)` -/
def writeString (c : ServerConnection) (ss : Bytes) (bo : BufferOptions) :
    Except Error ServerConnection :=
  c.writeBody BufferedTcpSocket.writeString ss bo

/-- The end of a streamed web message. -/
def sendLastFrame (c : ServerConnection) (bo : BufferOptions) : ServerConnection :=
  { c with
    sock := c.sock.write (webMessageHeader true 0 0 none) bo
    wmPingTimer := c.wmPingTimer || bo = .write
    writingWebMessageBody := false }

/-- The end of a chunked body. -/
def sendLastChunk (c : ServerConnection) (bo : BufferOptions) : ServerConnection :=
  { c with sock := c.sock.writeString (str "0\r\n\r\n") bo }.finishResponse

def writeLastChunk (c : ServerConnection) (bo : BufferOptions) : Except Error ServerConnection := do
  invariant c.isWritingBody "Connection unexpected write"
  if c.writingWebMessageBody then return c.sendLastFrame bo
  invariant (c.state == .responseBody) "Connection unexpected write"
  invariant c.remainingBodyContentLength.isNone "write_last_chunk is for chunked encoding only"
  return c.sendLastChunk bo

/-- `write(Response &&)`: a later part can throw when an earlier one was
written already. -/
def writeResponse (c : ServerConnection) (resp : Response) : Except Error Unit × ServerConnection :=
  if !c.isOpen then (.ok (), c)
  else
    let chunked := resp.header.transferEncodingChunked
    match c.writeHeader resp.header .bufferOnly with
    | .error e => (.error e, c)
    | .ok withHeader =>
      match withHeader.writeString resp.body (if chunked then .bufferOnly else .write) with
      | .error e => (.error e, withHeader)
      | .ok withBody =>
        if chunked then
          match withBody.writeLastChunk .write with
          | .error e => (.error e, withBody)
          | .ok done => (.ok (), done)
        else (.ok (), withBody)

/-- `sock_handler`, and whether it calls the user's handler. -/
def sockHandler (c : ServerConnection) : Bool × ServerConnection :=
  if !c.isOpen then (true, c.close)
  -- So body streaming will work
  else if c.isWritingBody then (true, c)
  else c.advanceState

/-- The connection after the run loop took the callable off its list and the
socket's own handler ran. -/
def socketEvent (c : ServerConnection) : ServerConnection :=
  { c with sock := { c.sock with sock.pending := false }.sockHandler }

/-- The run loop calls the socket's callable, and through it `sock_handler`. -/
def dispatch (c : ServerConnection) : Bool × ServerConnection :=
  if c.sock.sock.pending then c.socketEvent.sockHandler else (false, c)

def shutdownTimerHandler (c : ServerConnection) : Bool × ServerConnection :=
  if c.sock.shutdownTimer then { c with sock := c.sock.shutdownTimerHandler }.sockHandler else (false, c)

def onWmPingTimer (c : ServerConnection) : Except Error ServerConnection := do
  if !c.wmPingTimer then return c
  let fired := { c with wmPingTimer := false }
  let pinged ←
    -- Flushing buffer is enough
    if fired.sock.getTotalBufferSize ≠ 0 then
      pure { fired with sock := fired.sock.writeString [] .write }
    else fired.writeMessage { opcode := .ping } .write
  return { pinged with wmPingTimer := true }

end ServerConnection
end Crablib.Http
