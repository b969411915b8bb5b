import Crablib.Http.ServerConnection
import Crablib.Library.Run

/-! Runs of one server connection: calls of its user in any order, exceptions
caught and the run continued, mixed with the peer, the kernel and the timers. -/
namespace Crablib.ServerRun
open Http ServerConnection

inductive ServerOp where
  | accept (accepted : Accepted)
  | close
  | readNextRequest
  | readNextMessage
  | webSocketUpgrade
  | writeResponse (resp : Response)
  | writeHeader (resp : ResponseHeader) (bo : BufferOptions)
  | writeMessage (message : WebMessage) (bo : BufferOptions)
  | writeOpcode (opcode : WebMessageOpcode)
  | writeData (val : Bytes) (bo : BufferOptions)
  | writeString (ss : Bytes) (bo : BufferOptions)
  | writeLastChunk (bo : BufferOptions)
  | arrive (arrivals : List Arrival)
  | plan (sends : List SendResult)
  | notify (canRead canWrite : Bool)
  | dispatch
  | pingTimer
  | shutdownTimer

/-- The connection after an operation, what it delivered, and the exception its
caller caught. -/
structure Effect where
  conn : ServerConnection
  error : Option Error := none
  request : Option Request := none
  message : Option WebMessage := none

/-- A call that throws before it changes anything. -/
def settle (c : ServerConnection) : Except Error ServerConnection → Effect
  | .ok next => { conn := next }
  | .error e => { conn := c, error := some e }

/-- A call that can throw when it has changed something already. -/
def settleAfter (result : Except Error Unit × ServerConnection) : Effect :=
  match result.1 with
  | .ok _ => { conn := result.2 }
  | .error e => { conn := result.2, error := some e }

def perform (c : ServerConnection) : ServerOp → Effect
  | .accept accepted => settleAfter (c.accept accepted)
  | .close => { conn := c.close }
  | .readNextRequest => { conn := c.readNextRequest.2, request := c.readNextRequest.1 }
  | .readNextMessage => { conn := c.readNextMessage.2, message := c.readNextMessage.1 }
  | .webSocketUpgrade => settle c c.webSocketUpgrade
  | .writeResponse resp => settleAfter (c.writeResponse resp)
  | .writeHeader resp bo => settle c (c.writeHeader resp bo)
  | .writeMessage message bo => settle c (c.writeMessage message bo)
  | .writeOpcode opcode => settle c (c.writeOpcode opcode)
  | .writeData val bo => settle c (c.writeData val bo)
  | .writeString ss bo => settle c (c.writeString ss bo)
  | .writeLastChunk bo => settle c (c.writeLastChunk bo)
  | .arrive arrivals => { conn := { c with sock.sock := c.sock.sock.arrive arrivals } }
  | .plan sends => { conn := { c with sock.sock := c.sock.sock.plan sends } }
  | .notify canRead canWrite => { conn := { c with sock.sock := c.sock.sock.notify canRead canWrite } }
  | .dispatch => { conn := c.dispatch.2 }
  | .pingTimer => settle c c.onWmPingTimer
  | .shutdownTimer => { conn := c.shutdownTimerHandler.2 }

/-- Whether `advance_state` would catch an exception. -/
def caught (c : ServerConnection) : Bool :=
  c.sock.getTotalBufferSize == 0 &&
    match (tryLoop c.passes c).1 with
    | .throw _ => true
    | _ => false

/-- Whether `advance_state` caught an exception during the operation. -/
def catches (c : ServerConnection) : ServerOp → Bool
  | .readNextRequest => c.state == .requestReady && caught c.takeRequest
  | .readNextMessage => c.state == .web .ready && !c.writingWebMessageBody && caught c.takeMessage
  | .dispatch =>
    c.sock.sock.pending && c.socketEvent.isOpen && !c.socketEvent.isWritingBody && caught c.socketEvent
  | _ => false

/-- What an operation lets its caller and its peer's observer see: the exception,
what was delivered, and whether received bytes were taken for a protocol error. -/
structure Observed where
  error : Option Error
  request : Option Request
  message : Option WebMessage
  protocolError : Bool
  deriving DecidableEq

def observe (c : ServerConnection) (op : ServerOp) : Observed :=
  { error := (perform c op).error
    request := (perform c op).request
    message := (perform c op).message
    protocolError := catches c op }

def isArrive : ServerOp → Bool
  | .arrive _ => true
  | _ => false

/-- What a connection meets: a call, a timer or an event, or the next segments
of the peer together with the event that reports them. -/
inductive Input where
  | single (op : ServerOp) (other : isArrive op = false)
  | segments (arrivals : List Arrival) (canWrite : Bool)

/-- The operations an input consists of; an event reports that the descriptor is
readable if something arrived. -/
def Input.ops : Input → List ServerOp
  | .single op _ => [op]
  | .segments arrivals canWrite => [.arrive arrivals, .notify (!arrivals.isEmpty) canWrite, .dispatch]

/-- The connection after a list of operations. -/
def afterOps (c : ServerConnection) (ops : List ServerOp) : ServerConnection :=
  Run.after (fun c op => (perform c op).conn) c ops

/-- What a run of inputs lets its observer see. -/
def observed (c : ServerConnection) (inputs : List Input) : List (List Observed) :=
  Run.seen (fun c input => afterOps c input.ops)
    (fun c input => Run.seen (fun c op => (perform c op).conn) observe c input.ops) c inputs

/-- The calls with which the user writes. -/
def isWrite : ServerOp → Bool
  | .webSocketUpgrade => true
  | .writeResponse _ => true
  | .writeHeader _ _ => true
  | .writeMessage _ _ => true
  | .writeOpcode _ => true
  | .writeData _ _ => true
  | .writeString _ _ => true
  | .writeLastChunk _ => true
  | _ => false

/-- The calls that can complete a response. -/
def isResponseWrite : ServerOp → Bool
  | .writeResponse _ => true
  | .writeData _ _ => true
  | .writeString _ _ => true
  | .writeLastChunk _ => true
  | _ => false

/-- Whether the operation completed the response to a request that asked for
the connection to be closed. -/
def completesLast (c : ServerConnection) (op : ServerOp) : Bool :=
  isResponseWrite op && (c.state == .responseHeader || c.state == .responseBody) &&
    !c.requestParser.req.keepAlive && (perform c op).conn.state == .requestHeader

end Crablib.ServerRun
