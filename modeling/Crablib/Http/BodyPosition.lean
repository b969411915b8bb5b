import Crablib.Http.Server

/-! The position that `Client` of `http/server.hxx` counts while a body is streamed.
The overload of `write` that takes a string reads the size of it after it was given
away, so the functions on its way are here once more, with what they leave of the
string: one that is copied stays as it is, one that is moved from is empty. -/
namespace Crablib
open Http

namespace BufferedTcpSocket

/-- `buffer(std::string &&)` -/
def bufferMoved (s : BufferedTcpSocket) (ss : Bytes) : BufferedTcpSocket × Bytes :=
  if !s.isOpen || s.writeShutdownAsked || ss.isEmpty then (s, ss)
  else
    let counted := { s with totalDataToWrite := s.totalDataToWrite + ss.length }
    match s.dataToWrite.getLast? with
    | some back =>
      if back.size < 1024 ∧ ss.length < 1024 then
        ({ counted with dataToWrite := s.dataToWrite.dropLast ++ [back.write ss] }, ss)
      else ({ counted with dataToWrite := s.dataToWrite ++ [.ofString ss] }, [])
    | none => ({ counted with dataToWrite := s.dataToWrite ++ [.ofString ss] }, [])

/-- `write(std::string &&)` -/
def writeMoved (s : BufferedTcpSocket) (ss : Bytes) (bo : BufferOptions) : BufferedTcpSocket × Bytes :=
  let buffered := s.bufferMoved ss
  match bo with
  | .bufferOnly => buffered
  | .write => (buffered.1.flush, buffered.2)

theorem bufferMoved_fst (s : BufferedTcpSocket) (ss : Bytes) :
    (s.bufferMoved ss).1 = s.bufferString ss := by
  unfold bufferMoved bufferString buffer append
  split
  · rfl
  · cases last : s.dataToWrite.getLast? with
    | none => rfl
    | some back =>
      dsimp only
      split <;> rfl

theorem writeMoved_fst (s : BufferedTcpSocket) (ss : Bytes) (bo : BufferOptions) :
    (s.writeMoved ss bo).1 = s.writeString ss bo := by
  cases bo with
  | write => exact congrArg flush (bufferMoved_fst s ss)
  | bufferOnly => exact bufferMoved_fst s ss

theorem writeMoved_snd (s : BufferedTcpSocket) (ss : Bytes) (bo : BufferOptions) :
    (s.writeMoved ss bo).2 = (s.bufferMoved ss).2 := by
  cases bo <;> rfl

end BufferedTcpSocket

namespace Http

namespace ServerConnection

/-- `write(std::string &&)` -/
def writeMoved (c : ServerConnection) (ss : Bytes) (bo : BufferOptions) :
    Except Error (ServerConnection × Bytes) := do
  invariant c.isWritingBody "Connection unexpected write"
  if c.writingWebMessageBody then
    if ss.length = 0 then return (c, ss)
    let sent := (c.sock.buffer (webMessageHeader false 0 ss.length none)).writeMoved ss bo
    return ({ c with sock := sent.1, wmPingTimer := c.wmPingTimer || bo = .write }, sent.2)
  match c.remainingBodyContentLength with
  | some remaining =>
    invariant (ss.length ≤ remaining) "Overshoot content-length"
    let sent := c.sock.writeMoved ss bo
    let counted := { c with remainingBodyContentLength := some (remaining - ss.length), sock := sent.1 }
    return (if remaining - ss.length = 0 then counted.finishResponse else counted, sent.2)
  | none =>
    -- Empty chunk is terminator
    if ss.length = 0 then return (c, ss)
    let sent := (c.sock.buffer (hex ss.length ++ crlf)).bufferMoved ss
    return ({ c with sock := sent.1.write crlf bo }, sent.2)

end ServerConnection

/-- A client with its `body_position`. -/
structure StreamingClient where
  client : Client
  bodyPosition : UInt64 := 0

namespace StreamingClient

def getBodyPosition (p : StreamingClient) : UInt64 := p.bodyPosition

/-- `start_write_stream` up to the first call of the handler. -/
def startWriteStream (p : StreamingClient) (response : ResponseHeader) (date : Bytes) :
    Except Error StreamingClient :=
  match p.client.perform date (.startWriteStream response) with
  | (.error e, _) => .error e
  | (.ok _, next) => .ok { client := next, bodyPosition := 0 }

/-- `start_write_stream` of a web message. -/
def startWriteMessage (p : StreamingClient) (opcode : WebMessageOpcode) : Except Error StreamingClient :=
  match p.client.perform [] (.startWriteMessage opcode) with
  | (.error e, _) => .error e
  | (.ok _, next) => .ok { client := next, bodyPosition := 0 }

/-- `write(const uint8_t *, size_t)` -/
def writeData (p : StreamingClient) (val : Bytes) (bo : BufferOptions) : Except Error StreamingClient :=
  match p.client.conn.writeData val bo with
  | .error e => .error e
  | .ok conn =>
    .ok { client := { p.client with conn := conn }.dropStream,
          bodyPosition := p.bodyPosition + UInt64.ofNat val.length }

/-- `write(std::string &&)` -/
def writeString (p : StreamingClient) (ss : Bytes) (bo : BufferOptions) : Except Error StreamingClient :=
  match p.client.conn.writeMoved ss bo with
  | .error e => .error e
  | .ok (conn, left) =>
    .ok { client := { p.client with conn := conn }.dropStream,
          bodyPosition := p.bodyPosition + UInt64.ofNat left.length }

end StreamingClient
end Http
end Crablib
