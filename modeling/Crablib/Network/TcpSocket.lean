import Crablib.Network.Streams

/-! `TCPSocket` of `network_posix.hxx` over epoll. The kernel side of a
descriptor is what the peer sent and `recv` has not returned yet, how the next
`send` calls will end, and a record of what was accepted and shut down. -/
namespace Crablib

/-- One `recv` result: a non-empty segment, the end of the stream, or an error. -/
inductive Arrival where
  | data (first : UInt8) (rest : Bytes)
  | fin
  | reset
  deriving DecidableEq, Repr

/-- The bytes in one segment. -/
def segment : Bytes → List Arrival
  | [] => []
  | first :: rest => [.data first rest]

/-- One `send` result: `extra + 1` bytes or all there are, `EAGAIN`, or an error. -/
inductive SendResult where
  | accept (extra : Nat)
  | again
  | error
  deriving DecidableEq, Repr

/-- What the kernel holds for one descriptor. `finAt` records, for every
`::shutdown(SHUT_WR)`, how many bytes had been accepted before it; when `sends`
has run out, `send` accepts everything. -/
structure Descriptor where
  incoming : List Arrival := []
  sends : List SendResult := []
  sent : Bytes := []
  finAt : List Nat := []
  deriving DecidableEq, Repr

/-- How `::connect` ended. -/
inductive ConnectResult where
  | failed
  | inProgress
  | immediate
  deriving DecidableEq, Repr

/-- The descriptor a `TCPAcceptor` holds: none, one that epoll takes, or one
that it refuses. -/
inductive Accepted where
  | missing
  | ready
  | refused
  deriving DecidableEq, Repr

/-- A `TCPSocket` with its `Callable`. Closing keeps the record of the
descriptor; the next `connect` or `accept` starts a new one. -/
structure TcpSocket where
  fdValid : Bool := false
  pending : Bool := false
  canRead : Bool := false
  canWrite : Bool := false
  descriptor : Descriptor := {}
  deriving DecidableEq, Repr

namespace TcpSocket

def isOpen (s : TcpSocket) : Bool := s.fdValid || s.pending

def addPendingCallable (s : TcpSocket) (canRead canWrite : Bool) : TcpSocket :=
  { s with canRead := s.canRead || canRead, canWrite := s.canWrite || canWrite, pending := true }

def cancelCallable (s : TcpSocket) : TcpSocket :=
  { s with pending := false, canRead := false, canWrite := false }

def close (s : TcpSocket) (withEvent : Bool) : TcpSocket :=
  if !s.isOpen then s
  else
    let closed := { s.cancelCallable with fdValid := false }
    if withEvent then closed.addPendingCallable true false else closed

def writeShutdown (s : TcpSocket) : TcpSocket :=
  if !s.fdValid || !s.canWrite then s
  else { s with descriptor.finAt := s.descriptor.finAt ++ [s.descriptor.sent.length] }

def connect (s : TcpSocket) (result : ConnectResult) : Bool × TcpSocket :=
  let closed := s.close false
  match result with
  | .failed => (false, closed)
  | .inProgress => (true, { closed with fdValid := true, descriptor := {} })
  -- On some systems if localhost socket is connected right away, no epoll happens
  | .immediate => (true, { closed with fdValid := true, descriptor := {} }.addPendingCallable true true)

def accept (s : TcpSocket) (accepted : Accepted) : Except Error TcpSocket :=
  match accepted with
  | .missing => .error (.logic "TCPAcceptor::accept error, forgot if(can_accept())?")
  | .ready => .ok { s.close false with fdValid := true, descriptor := {} }
  -- for user it will appear as socket was immediately disconnected
  | .refused => .ok ({ s.close false with fdValid := true, descriptor := {} }.close true)

/-- The queue after `recv` took `count` bytes of its first segment. -/
def afterRecv (segment : Bytes) (count : Nat) (later : List Arrival) : List Arrival :=
  match segment.drop count with
  | [] => later
  | first :: rest => .data first rest :: later

def readSome (s : TcpSocket) (count : Nat) : Bytes × TcpSocket :=
  if !s.fdValid || !s.canRead then ([], s)
  -- a read of no bytes returns 0, which is taken for the end of the stream
  else if count = 0 then ([], s.close true)
  else
    match s.descriptor.incoming with
    | [] => ([], { s with canRead := false })
    | .fin :: _ => ([], s.close true)
    | .reset :: _ => ([], s.close true)
    | .data first rest :: later =>
      ((first :: rest).take count,
        { s with descriptor.incoming := afterRecv (first :: rest) count later })

/-- The descriptor after `send` accepted the first `count` bytes of `val`. -/
def afterSend (d : Descriptor) (val : Bytes) (count : Nat) : Descriptor :=
  { d with sends := d.sends.tail, sent := d.sent ++ val.take count }

def writeSome (s : TcpSocket) (val : Bytes) : Nat × TcpSocket :=
  if !s.fdValid || !s.canWrite then (0, s)
  else
    match s.descriptor.sends with
    | [] => (val.length, { s with descriptor := afterSend s.descriptor val val.length })
    | .accept extra :: _ =>
      (min (extra + 1) val.length,
        { s with descriptor := afterSend s.descriptor val (min (extra + 1) val.length) })
    | .again :: later => (0, { s with canWrite := false, descriptor.sends := later })
    | .error :: later => (0, { s with descriptor.sends := later }.close true)

def istream : IStream TcpSocket where
  readSome := readSome
  bounded := by
    intro s count
    unfold readSome
    split
    · simp
    · split
      · simp
      · split <;> grind

def ostream : OStream TcpSocket where
  writeSome := writeSome
  bounded := by
    intro s val
    unfold writeSome
    split
    · simp
    · split <;> grind

/-- The peer's next segments reach the descriptor. -/
def arrive (s : TcpSocket) (arrivals : List Arrival) : TcpSocket :=
  if s.fdValid then { s with descriptor.incoming := s.descriptor.incoming ++ arrivals } else s

/-- The kernel decides how the next `send` calls end. -/
def plan (s : TcpSocket) (sends : List SendResult) : TcpSocket :=
  { s with descriptor.sends := sends }

/-- `epoll_wait` reports the descriptor; closed ones are never reported. -/
def notify (s : TcpSocket) (canRead canWrite : Bool) : TcpSocket :=
  if s.fdValid then s.addPendingCallable canRead canWrite else s

end TcpSocket
end Crablib
