import Crablib.Http.ClientRequest
import Crablib.Library.Run

/-! Runs of `ClientRequestSimple`: calls of its user in any order, exceptions caught and
the run continued, mixed with the peer, the kernel, the resolver and the timers. What
the user does inside a handler are the next calls of the run. -/
namespace Crablib.RequestRun
open Http

/-- `result` of the resolver is as in `ClientConnection.dnsHandler`. -/
inductive RequestOp where
  | sendTo (request : Request) (port : UInt16) (protocol : Bytes)
  | send (uriStr : Bytes) (request : Request)
  | get (uriStr : Bytes) (request : Request)
  | cancel
  | dnsHandler (result : Option ConnectResult)
  | arrive (arrivals : List Arrival)
  | plan (sends : List SendResult)
  | notify (canRead canWrite : Bool)
  | dispatch
  | shutdownTimer
  | timeoutTimer

/-- The object after an operation, the exception that left it, the response that was
read, and the handler that was called. -/
structure Effect where
  requests : ClientRequestSimple
  error : Option Error := none
  response : Option Response := none
  called : Option (Except String Response) := none

/-- A call of the user. -/
def settle (result : Except Error Unit × ClientRequestSimple) : Effect :=
  match result.1 with
  | .ok () => { requests := result.2 }
  | .error e => { requests := result.2, error := some e }

/-- An event of the connection, and `on_connection` when the connection calls it. -/
def handle (r : ClientRequestSimple) (event : Bool × ClientConnection) : Effect :=
  let r := { r with connection := event.2 }
  if event.1 then
    { requests := r.onConnection.2
      response := if r.connection.isOpen then r.connection.readNextResponse.1 else none
      called := r.onConnection.1 }
  else { requests := r }

def perform (r : ClientRequestSimple) : RequestOp → Effect
  | .sendTo request port protocol => settle (r.sendTo request port protocol)
  | .send uriStr request => settle (r.send uriStr request)
  | .get uriStr request => settle (r.get uriStr request)
  | .cancel => { requests := r.cancel }
  | .dnsHandler result =>
    match r.connection.dnsHandler result with
    | (.ok calls, c) => handle r (calls, c)
    | (.error e, c) => { requests := { r with connection := c }, error := some e }
  | .arrive arrivals =>
    { requests := { r with connection.sock.sock := r.connection.sock.sock.arrive arrivals } }
  | .plan sends => { requests := { r with connection.sock.sock := r.connection.sock.sock.plan sends } }
  | .notify canRead canWrite =>
    { requests := { r with connection.sock.sock := r.connection.sock.sock.notify canRead canWrite } }
  | .dispatch => handle r r.connection.dispatch
  | .shutdownTimer => handle r r.connection.shutdownTimerHandler
  | .timeoutTimer => { requests := if r.timeoutTimer then r.onTimeoutTimer else r }

/-- The object after a run. -/
def afterOps (r : ClientRequestSimple) (ops : List RequestOp) : ClientRequestSimple :=
  Run.after (fun r op => (perform r op).requests) r ops

/-- The request, port and protocol that a call of `send` or `get` comes to, when its URI
can be parsed. -/
def target : RequestOp → Option (Request × UInt16 × Bytes)
  | .sendTo request port protocol => some (request, port, protocol)
  | .send uriStr request => uriTarget uriStr request
  | .get uriStr request =>
    uriTarget uriStr { request with header := { request.header with method := str "GET" } }
  | _ => none
where
  uriTarget (uriStr : Bytes) (request : Request) : Option (Request × UInt16 × Bytes) :=
    match parseUri uriStr with
    | .error _ => none
    | .ok uri =>
      match ClientRequestSimple.portText uri >>= integerCast .uint16 with
      | .error _ => none
      | .ok port =>
        some (ClientRequestSimple.fillRequest uri request, UInt16.ofNat port.toNat, uri.scheme)

end Crablib.RequestRun
