import Crablib.Library.Run
import Crablib.Network.IntrusiveList
import Crablib.Network.TcpSocket

/-! `RunLoop` of `network.hxx` and `network_posix.hxx` over epoll, with any number
of sockets. A run is the sequence of what happens on the loop's thread: the events
that `epoll_wait` has returned are queued, the handler at the front of the queue is
started, or whoever runs there calls a method of a socket. The calls that follow a
handler's start, up to the next one, are those it makes. -/
namespace Crablib

/-- `ι` names the sockets. `pending` of a socket says that its node is linked, which
is into `triggeredCallables`. -/
structure RunLoop (ι : Type) where
  triggeredCallables : List ι
  sockets : ι → TcpSocket

namespace RunLoop

variable {ι : Type} [DecidableEq ι]

def start : RunLoop ι := ⟨[], fun _ => {}⟩

def setSocket (l : RunLoop ι) (i : ι) (s : TcpSocket) : RunLoop ι :=
  { l with sockets := fun j => if j = i then s else l.sockets j }

def addPendingCallable (l : RunLoop ι) (i : ι) (canRead canWrite : Bool) : RunLoop ι :=
  { l.setSocket i ((l.sockets i).addPendingCallable canRead canWrite) with
    triggeredCallables := IntrusiveList.pushBack l.triggeredCallables i }

def cancelCallable (l : RunLoop ι) (i : ι) : RunLoop ι :=
  { l.setSocket i (l.sockets i).cancelCallable with
    triggeredCallables := IntrusiveList.unlink l.triggeredCallables i }

/-- `TCPSocket::close` -/
def close (l : RunLoop ι) (i : ι) (withEvent : Bool) : RunLoop ι :=
  if !(l.sockets i).isOpen then l
  else
    let cancelled := l.cancelCallable i
    let closed := cancelled.setSocket i { cancelled.sockets i with fdValid := false }
    if withEvent then closed.addPendingCallable i true false else closed

/-- A method that may find the stream at its end or broken: then it has called
`close(true)`. -/
def afterMethod (l : RunLoop ι) (i : ι) (s : TcpSocket) : RunLoop ι :=
  if (l.sockets i).fdValid && !s.fdValid then (l.close i true).setSocket i s else l.setSocket i s

/-- `TCPSocket::connect` -/
def connect (l : RunLoop ι) (i : ι) (result : ConnectResult) : Bool × RunLoop ι :=
  let closed := l.close i false
  match result with
  | .failed => (false, closed)
  | .inProgress => (true, closed.setSocket i { closed.sockets i with fdValid := true, descriptor := {} })
  | .immediate =>
    (true, (closed.setSocket i { closed.sockets i with
      fdValid := true, descriptor := {} }).addPendingCallable i true true)

/-- `TCPSocket::accept` -/
def accept (l : RunLoop ι) (i : ι) (accepted : Accepted) : Except Error (RunLoop ι) :=
  let closed := l.close i false
  let opened := closed.setSocket i { closed.sockets i with fdValid := true, descriptor := {} }
  match accepted with
  | .missing => .error (.logic "TCPAcceptor::accept error, forgot if(can_accept())?")
  | .ready => .ok opened
  | .refused => .ok (opened.close i true)

/-- A call that anyone on the loop's thread may make. -/
inductive Call (ι : Type) where
  | close (i : ι) (withEvent : Bool)
  | destroy (i : ι)
  | connect (i : ι) (result : ConnectResult)
  | accept (i : ι) (accepted : Accepted)
  | readSome (i : ι) (count : Nat)
  | writeSome (i : ι) (val : Bytes)
  | writeShutdown (i : ι)

def perform (l : RunLoop ι) : Call ι → RunLoop ι
  | .close i withEvent => l.close i withEvent
  | .destroy i => l.close i false
  | .connect i result => (l.connect i result).2
  | .accept i accepted =>
    match l.accept i accepted with
    | .ok next => next
    -- thrown before anything is changed
    | .error _ => l
  | .readSome i count => l.afterMethod i ((l.sockets i).readSome count).2
  | .writeSome i val => l.afterMethod i ((l.sockets i).writeSome val).2
  | .writeShutdown i => l.setSocket i (l.sockets i).writeShutdown

/-- One event of the batch that `epoll_wait` returns. -/
structure Event (ι : Type) where
  socket : ι
  canRead : Bool
  canWrite : Bool

def maxEvents : Nat := 512

/-- `RunLoop::step`. The kernel reports nothing for a closed descriptor. -/
def step (l : RunLoop ι) (events : List (Event ι)) : RunLoop ι :=
  (events.take maxEvents).foldl (fun l e =>
    if (l.sockets e.socket).fdValid then l.addPendingCallable e.socket e.canRead e.canWrite else l) l

/-- The callable at the front is unlinked before its handler is started. -/
def unlinkFront (l : RunLoop ι) : RunLoop ι :=
  match l.triggeredCallables with
  | [] => l
  | i :: rest => { l.setSocket i { l.sockets i with pending := false } with triggeredCallables := rest }

/-- What happens next: a batch of events is queued, the handler at the front is
started, or a call is made. `run` waits for events only when its queue is empty and
starts a handler only after the last one returned; a run here may do either at any
time. -/
inductive Happening (ι : Type) where
  | step (events : List (Event ι))
  | invoke
  | call (call : Call ι)

def next (l : RunLoop ι) : Happening ι → RunLoop ι
  | .step events => l.step events
  | .invoke => l.unlinkFront
  | .call call => l.perform call

/-- The socket whose handler is started. -/
def invoked (l : RunLoop ι) : Happening ι → Option ι
  | .invoke => l.triggeredCallables.head?
  | _ => none

/-- The loop after a run. -/
def after (l : RunLoop ι) (run : List (Happening ι)) : RunLoop ι := Run.after next l run

/-- How often the handler of a socket is started in a run. -/
def invocations (l : RunLoop ι) (i : ι) (run : List (Happening ι)) : Nat :=
  (Run.seen next invoked l run).count (some i)

end RunLoop
end Crablib
