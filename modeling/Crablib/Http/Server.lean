import Crablib.Http.ServerConnection

/-! `Client` and `Server` of `http/server.hxx`, for one client of the list. The
user's code is a script: what it does when it is called for the n-th time.
`start_write_stream` calls its handler last, so what the handler does there are
the next operations of the same call. -/
namespace Crablib.Http

/-- How a call of the user's code ends. -/
inductive UserEnd where
  | returns
  | unauthorized (realm : Bytes)
  | throws (what : Bytes)
  deriving DecidableEq

/-- The exception that leaves the user's code. -/
def UserEnd.error : UserEnd → Option Error
  | .returns => none
  | .unauthorized _ => some (.runtime "Error Authorization Required")
  | .throws what => some (.runtime (String.ofList (what.map fun c => Char.ofNat c.toNat)))

inductive ClientOp where
  | write (response : Response)
  | writeMessage (wm : WebMessage)
  | writeData (val : Bytes) (bo : BufferOptions)
  | writeString (ss : Bytes) (bo : BufferOptions)
  | writeLastChunk (bo : BufferOptions)
  | webSocketUpgrade
  | postponeResponse
  | startWriteStream (response : ResponseHeader)
  | startWriteMessage (opcode : WebMessageOpcode)

/-- One call of the user's code, with the text `get_date` returns then. An
exception of an operation that the code does not catch is how the call ends. -/
structure UserCall where
  ops : List ClientOp := []
  ending : UserEnd := .returns
  date : Bytes := []

/-- The handlers are kept as whether they are set. `calls` counts the calls of
the user's code, `erased` says that the server dropped the client. -/
structure Client where
  conn : ServerConnection := {}
  wsHandler : Bool := false
  dHandler : Bool := false
  rwdHandler : Bool := false
  webMessageCloseSent : Bool := false
  calls : Nat := 0
  erased : Bool := false

namespace Response

/-- `Response::simple` -/
def simple (status : Int) (contentType body : Bytes) : Response :=
  let parsed := parseContentTypeValue contentType
  { header :=
      { headers :=
          [⟨str "cache-control", str "no-cache, no-store, must-revalidate"⟩, ⟨str "expires", str "0"⟩]
        status := status
        contentTypeMime := parsed.1
        contentTypeSuffix := parsed.2
        contentLength := some (UInt64.ofNat body.length) }
    body := body }

def simpleText (status : Int) (text : Bytes) : Response :=
  simple status (str "text/plain; charset=utf-8") text

end Response

namespace Client

/-- The defaults of a response header that the server fills in. -/
def dated (response : ResponseHeader) (date : Bytes) : ResponseHeader :=
  { response with
    date := if response.date.isEmpty then date else response.date
    server := if response.server.isEmpty then str "crab" else response.server }

/-- A call of the connection that throws before it changes anything, and what
the client does when it returns. -/
def forward (who : Client) (result : Except Error ServerConnection) (next : Client → Client) :
    Except Error Unit × Client :=
  match result with
  | .error e => (.error e, who)
  | .ok conn => (.ok (), next { who with conn := conn })

def write (who : Client) (response : Response) (date : Bytes) : Except Error Unit × Client :=
  let wrote := who.conn.writeResponse { response with header := dated response.header date }
  match wrote.1 with
  | .error e => (.error e, { who with conn := wrote.2 })
  | .ok _ => (.ok (), { who with conn := wrote.2, dHandler := false })

def writeMessage (who : Client) (wm : WebMessage) : Except Error Unit × Client :=
  let marked := if wm.opcode = .close then { who with webMessageCloseSent := true } else who
  marked.forward (marked.conn.writeMessage wm .write) id

/-- The stream handler is dropped when the body is complete. -/
def dropStream (who : Client) : Client :=
  { who with rwdHandler := who.rwdHandler && who.conn.isWritingBody }

def perform (date : Bytes) (who : Client) : ClientOp → Except Error Unit × Client
  | .write response => who.write response date
  | .writeMessage wm => who.writeMessage wm
  | .writeData val bo => who.forward (who.conn.writeData val bo) dropStream
  | .writeString ss bo => who.forward (who.conn.writeString ss bo) dropStream
  | .writeLastChunk bo =>
    who.forward (who.conn.writeLastChunk bo) fun next => { next with rwdHandler := false }
  | .webSocketUpgrade =>
    who.forward who.conn.webSocketUpgrade fun next =>
      { next with dHandler := false, wsHandler := true, webMessageCloseSent := false }
  | .postponeResponse =>
    if who.conn.isStateWebsocket then
      (.error (.logic "After web socket upgrade you can use only web socket functions"), who)
    else (.ok (), { who with dHandler := true })
  | .startWriteStream response =>
    who.forward (who.conn.writeHeader (dated response date) .write) fun next =>
      { next with dHandler := false, rwdHandler := true }
  | .startWriteMessage opcode =>
    who.forward (who.conn.writeOpcode opcode) fun next => { next with rwdHandler := true }

/-- The operations of one call; those that throw do so into the user's code. -/
def runOps (who : Client) (date : Bytes) (ops : List ClientOp) : Client :=
  ops.foldl (fun who op => (who.perform date op).2) who

/-- The next call of the user's code. -/
def invoke (user : Nat → UserCall) (who : Client) : Client :=
  { who with calls := who.calls + 1 }.runOps (user who.calls).date (user who.calls).ops

/-- Call a handler that may not be set. -/
def call (user : Nat → UserCall) (isSet : Bool) (who : Client) : Except Error Unit × Client :=
  if !isSet then (.ok (), who)
  else
    match (user who.calls).ending.error with
    | some e => (.error e, who.invoke user)
    | none => (.ok (), who.invoke user)

end Client

namespace Server

/-- The answer to `ErrorAuthorization`. -/
def unauthorizedResponse (realm : Bytes) : Response :=
  { header :=
      { headers := [⟨str "WWW-Authenticate",
          str "Basic realm=\"" ++ realm ++ str "\", charset=\"UTF-8\""⟩]
        status := 401 } }

def onClientHandleRequest (user : Nat → UserCall) (who : Client) : Except Error Unit × Client :=
  let after := who.invoke user
  match (user who.calls).ending with
  | .unauthorized realm => after.write (unauthorizedResponse realm) (user who.calls).date
  | .throws what =>
    if after.conn.state = .responseHeader then after.write (.simpleText 422 what) (user who.calls).date
    else (.ok (), after)
  | .returns =>
    if after.conn.state = .responseHeader ∧ !after.dHandler then
      (.error (.logic "r_handler must either write response, call postpone_response or web_socket_upgrade"),
        after)
    else (.ok (), after)

/-- The close message sent for an exception of the user's code. -/
def errorMessage (what : Bytes) : WebMessage :=
  { opcode := .close, body := what, closeCode := WebMessage.closeStatusError }

def onClientHandleMessage (user : Nat → UserCall) (who : Client) (message : WebMessage) :
    Except Error Unit × Client :=
  let after := if who.wsHandler then who.invoke user else who
  match (if who.wsHandler then (user who.calls).ending else .returns) with
  | .unauthorized _ => after.writeMessage (errorMessage (str "Error Authorization Required"))
  | .throws what => after.writeMessage (errorMessage what)
  -- So we will not send second CLOSE on disconnect
  | .returns => (.ok (), { after with wsHandler := after.wsHandler && message.opcode ≠ .close })

/-- The loop of `on_client_handler`. -/
def clientLoop (user : Nat → UserCall) : Nat → Client → Except Error Unit × Client
  | 0, who => (.ok (), who)
  | passes + 1, who =>
    match who.conn.readNextMessage with
    | (some message, conn) =>
      match onClientHandleMessage user { who with conn := conn } message with
      | (.error e, next) => (.error e, next)
      | (.ok _, next) => clientLoop user passes next
    | (none, _) =>
      match who.conn.readNextRequest with
      | (some _, conn) =>
        match onClientHandleRequest user { who with conn := conn } with
        | (.error e, next) => (.error e, next)
        | (.ok _, next) => clientLoop user passes next
      | (none, _) => (.ok (), who)

/-- The message `on_client_disconnected` gives to the web-socket handler. -/
def disconnectMessage (who : Client) : WebMessage :=
  { opcode := .close
    closeCode :=
      if who.webMessageCloseSent then WebMessage.closeStatusNormal
        else WebMessage.closeStatusDisconnect }

/-- `on_client_disconnected` calls every handler that is set and erases the
client. -/
def onClientDisconnected (user : Nat → UserCall) (who : Client) : Except Error Unit × Client :=
  match who.call user who.dHandler with
  | (.error e, next) => (.error e, next)
  | (.ok _, told) =>
    match told.call user told.rwdHandler with
    | (.error e, next) => (.error e, next)
    | (.ok _, streamed) =>
      match streamed.call user streamed.wsHandler with
      | (.error e, next) => (.error e, next)
      | (.ok _, closed) => (.ok (), { closed with erased := true })

/-- `on_client_handler`; every message or request in its loop takes bytes from
the read buffer or the descriptor. -/
def onClientHandler (user : Nat → UserCall) (who : Client) : Except Error Unit × Client :=
  if !who.conn.isOpen then onClientDisconnected user who
  else
    match who.call user who.rwdHandler with
    | (.error e, next) => (.error e, next)
    | (.ok _, streamed) => clientLoop user (streamed.conn.passes + 1) streamed

end Server
end Crablib.Http
