import Crablib.Network.TcpSocket

/-! `BufferedTCPSocket` of `http/connection.hxx`. The user's handler is called
last in every function that calls it, so what it does is the next operation of
a run and the functions here end where it would be called. -/
namespace Crablib

inductive BufferOptions where
  | write
  | bufferOnly
  deriving DecidableEq, Repr

/-- `shutdownTimer` says whether the shutdown timer is set. The byte counter is
a `size_t` that never underflows, see `SocketProofs`. -/
structure BufferedTcpSocket where
  dataToWrite : List StringStream := []
  totalDataToWrite : Nat := 0
  writeShutdownAsked : Bool := false
  sock : TcpSocket := {}
  shutdownTimer : Bool := false

namespace BufferedTcpSocket

def isOpen (s : BufferedTcpSocket) : Bool := s.sock.isOpen

def canWrite (s : BufferedTcpSocket) : Bool := s.sock.canWrite

def getTotalBufferSize (s : BufferedTcpSocket) : Nat := s.totalDataToWrite

def close (s : BufferedTcpSocket) (withEvent : Bool) : BufferedTcpSocket :=
  { s with
    shutdownTimer := false
    dataToWrite := []
    totalDataToWrite := 0
    writeShutdownAsked := false
    sock := s.sock.close withEvent }

def connect (s : BufferedTcpSocket) (result : ConnectResult) : Bool × BufferedTcpSocket :=
  let connected := s.sock.connect result
  (connected.1, { s with sock := connected.2 })

def accept (s : BufferedTcpSocket) (accepted : Accepted) : Except Error BufferedTcpSocket := do
  let sock ← s.sock.accept accepted
  return { s with sock := sock }

def readSome (s : BufferedTcpSocket) (count : Nat) : Bytes × BufferedTcpSocket :=
  if s.writeShutdownAsked then ([], s)
  else
    let got := s.sock.readSome count
    (got.1, { s with sock := got.2 })

def istream : IStream BufferedTcpSocket where
  readSome := readSome
  bounded := by
    intro s count
    unfold readSome
    split
    · simp
    · exact TcpSocket.istream.bounded s.sock count

def writeSome (s : BufferedTcpSocket) (val : Bytes) : Nat × BufferedTcpSocket :=
  if s.writeShutdownAsked || !s.dataToWrite.isEmpty then (0, s)
  else
    let wrote := s.sock.writeSome val
    (wrote.1, { s with sock := wrote.2 })

/-- `data_to_write` with one more piece: a small piece joins a small last
element, even one that is partly sent. -/
def append (dataToWrite : List StringStream) (val : Bytes) : List StringStream :=
  match dataToWrite.getLast? with
  | some back =>
    if back.size < 1024 ∧ val.length < 1024 then dataToWrite.dropLast ++ [back.write val]
    else dataToWrite ++ [.ofString val]
  | none => dataToWrite ++ [.ofString val]

def buffer (s : BufferedTcpSocket) (val : Bytes) : BufferedTcpSocket :=
  if !s.isOpen || s.writeShutdownAsked || val.isEmpty then s
  else
    { s with
      totalDataToWrite := s.totalDataToWrite + val.length
      dataToWrite := append s.dataToWrite val }

/-- The overload that takes a string decides and stores as the other one does. -/
def bufferString (s : BufferedTcpSocket) (ss : Bytes) : BufferedTcpSocket := s.buffer ss

/-- The loop of `write()`: send from the front, stop at the first element that
is not sent whole. -/
def drain (sock : TcpSocket) (total : Nat) : List StringStream → List StringStream × Nat × TcpSocket
  | [] => ([], total, sock)
  | front :: later =>
    let wrote := front.writeTo TcpSocket.ostream sock
    if wrote.2.1.empty then drain wrote.2.2 (total - wrote.1) later
    else (wrote.2.1 :: later, total - wrote.1, wrote.2.2)

/-- `sock.write_shutdown()` followed by arming the timer. -/
def shutdownNow (s : BufferedTcpSocket) : BufferedTcpSocket :=
  { s with sock := s.sock.writeShutdown, shutdownTimer := true }

/-- The protected `write()`. -/
def flush (s : BufferedTcpSocket) : BufferedTcpSocket :=
  let wasEmpty := s.dataToWrite.isEmpty
  let drained := drain s.sock s.totalDataToWrite s.dataToWrite
  let after := { s with dataToWrite := drained.1, totalDataToWrite := drained.2.1, sock := drained.2.2 }
  if after.writeShutdownAsked && after.dataToWrite.isEmpty && !wasEmpty then after.shutdownNow else after

def write (s : BufferedTcpSocket) (val : Bytes) (bo : BufferOptions) : BufferedTcpSocket :=
  match bo with
  | .bufferOnly => s.buffer val
  | .write =>
    if !s.isOpen || s.writeShutdownAsked then s
    else if s.dataToWrite.isEmpty then
      let wrote := s.sock.writeSome val
      ({ s with sock := wrote.2 }.buffer (val.drop wrote.1)).flush
    else (s.buffer val).flush

def writeString (s : BufferedTcpSocket) (ss : Bytes) (bo : BufferOptions) : BufferedTcpSocket :=
  match bo with
  | .bufferOnly => s.bufferString ss
  | .write => (s.bufferString ss).flush

def writeShutdown (s : BufferedTcpSocket) : BufferedTcpSocket :=
  if !s.isOpen || s.writeShutdownAsked then s
  else
    let asked := { s with writeShutdownAsked := true }
    if asked.dataToWrite.isEmpty then asked.shutdownNow else asked

/-- `sock_handler`, run by the loop after it took the callable off its list. -/
def sockHandler (s : BufferedTcpSocket) : BufferedTcpSocket :=
  if s.isOpen then
    let flushed := s.flush
    -- after FIN sent, we consume and discard a bit of received data
    if flushed.writeShutdownAsked && flushed.dataToWrite.isEmpty then
      { flushed with sock := (flushed.sock.readSome 4096).2 }
    else flushed
  else s.close false

def shutdownTimerHandler (s : BufferedTcpSocket) : BufferedTcpSocket :=
  { s with shutdownTimer := false }.close false

end BufferedTcpSocket
end Crablib
