import Crablib.Http.ClientConnection
import Crablib.Library.Run

/-! Runs of one client connection: calls of its user in any order, exceptions
caught and the run continued, mixed with the peer, the kernel, the resolver and
the timer. -/
namespace Crablib.ClientRun
open Http ClientConnection

/-- `rdata` of an upgrade are the random bytes it takes; `result` of the
resolver is as in `dnsHandler`. -/
inductive ClientOp where
  | connectAddress (host : Bytes) (port : UInt16) (result : ConnectResult)
  | connectHost (host : Bytes) (port : UInt16) (protocol : Bytes)
  | close
  | readNextResponse
  | readNextMessage
  | webSocketUpgrade (rh : RequestHeader) (rdata : Bytes)
  | writeRequest (req : Request)
  | writeMessage (message : WebMessage)
  | dnsHandler (result : Option ConnectResult)
  | arrive (arrivals : List Arrival)
  | plan (sends : List SendResult)
  | notify (canRead canWrite : Bool)
  | dispatch
  | shutdownTimer

/-- The connection after an operation, what it delivered, and the exception its
caller caught; `connected` is what `connect` returned. -/
structure Effect where
  conn : ClientConnection
  error : Option Error := none
  connected : Bool := true
  response : Option Response := none
  message : Option WebMessage := none

/-- A call that throws before it changes anything. -/
def settle (c : ClientConnection) : Except Error ClientConnection → Effect
  | .ok next => { conn := next }
  | .error e => { conn := c, error := some e }

/-- A call that can throw when it has changed something already. -/
def settleAfter {α : Type} (result : Except Error α × ClientConnection) : Effect :=
  match result.1 with
  | .ok _ => { conn := result.2 }
  | .error e => { conn := result.2, error := some e }

def perform (c : ClientConnection) : ClientOp → Effect
  | .connectAddress host port result =>
    { conn := (c.connectAddress host port result).2, connected := (c.connectAddress host port result).1 }
  | .connectHost host port protocol => settleAfter (c.connectHost host port protocol)
  | .close => { conn := c.close }
  | .readNextResponse => { conn := c.readNextResponse.2, response := c.readNextResponse.1 }
  | .readNextMessage => { conn := c.readNextMessage.2, message := c.readNextMessage.1 }
  | .webSocketUpgrade rh rdata => settle c (c.webSocketUpgrade rh rdata)
  | .writeRequest req => settle c (c.writeRequest req)
  | .writeMessage message => settle c (c.writeMessage message)
  | .dnsHandler result => settleAfter (c.dnsHandler result)
  | .arrive arrivals => { conn := { c with sock.sock := c.sock.sock.arrive arrivals } }
  | .plan sends => { conn := { c with sock.sock := c.sock.sock.plan sends } }
  | .notify canRead canWrite => { conn := { c with sock.sock := c.sock.sock.notify canRead canWrite } }
  | .dispatch => { conn := c.dispatch.2 }
  | .shutdownTimer => { conn := c.shutdownTimerHandler.2 }

/-- Whether `advance_state` would catch an exception. -/
def caught (c : ClientConnection) : Bool :=
  c.sock.getTotalBufferSize == 0 &&
    match (tryLoop c.passes c).1 with
    | .throw _ => true
    | _ => false

/-- Whether `advance_state` caught an exception during the operation. -/
def catches (c : ClientConnection) : ClientOp → Bool
  | .readNextResponse => c.state == .responseReady && caught c.takeResponse
  | .readNextMessage => c.state == .web .ready && caught c.takeMessage
  | .dispatch => c.sock.sock.pending && c.socketEvent.sock.isOpen && caught c.socketEvent
  | _ => false

/-- What an operation lets its caller and its peer's observer see: the exception,
what was delivered, and whether received bytes were taken for a protocol error. -/
structure Observed where
  error : Option Error
  connected : Bool
  response : Option Response
  message : Option WebMessage
  protocolError : Bool
  deriving DecidableEq

def observe (c : ClientConnection) (op : ClientOp) : Observed :=
  { error := (perform c op).error
    connected := (perform c op).connected
    response := (perform c op).response
    message := (perform c op).message
    protocolError := catches c op }

def isArrive : ClientOp → Bool
  | .arrive _ => true
  | _ => false

/-- What a connection meets: a call, a timer or an event, or the next segments
of the peer together with the event that reports them. -/
inductive Input where
  | single (op : ClientOp) (other : isArrive op = false)
  | segments (arrivals : List Arrival) (canWrite : Bool)

/-- The operations an input consists of; an event reports that the descriptor is
readable if something arrived. -/
def Input.ops : Input → List ClientOp
  | .single op _ => [op]
  | .segments arrivals canWrite => [.arrive arrivals, .notify (!arrivals.isEmpty) canWrite, .dispatch]

/-- The connection after a list of operations. -/
def afterOps (c : ClientConnection) (ops : List ClientOp) : ClientConnection :=
  Run.after (fun c op => (perform c op).conn) c ops

/-- What a run of inputs lets its observer see. -/
def observed (c : ClientConnection) (inputs : List Input) : List (List Observed) :=
  Run.seen (fun c input => afterOps c input.ops)
    (fun c input => Run.seen (fun c op => (perform c op).conn) observe c input.ops) c inputs

end Crablib.ClientRun
