import Crablib.Http.WebReader

/-! The web-socket half of a connection as one machine. The source has it twice,
in `ServerConnection` and in `ClientConnection`; here the two differ in how a
message is put into a frame, which is a parameter. Around it stands the user who
reads messages until there are none, whatever the connection is. -/
namespace Crablib

/-- A non-empty block that one `recv` can return whole. -/
structure Segment where
  first : UInt8
  rest : Bytes

namespace Segment

def bytes (s : Segment) : Bytes := s.first :: s.rest

def arrival (s : Segment) : Arrival := .data s.first s.rest

end Segment

/-- What the user of a connection and the run loop call. `failsRead` and
`failsDispatch` say whether the call catches an exception. -/
structure Calls (C : Type) where
  deliver : C → List Arrival → Bool → C
  dispatch : C → Bool × C
  failsDispatch : C → Bool
  readNext : C → Option Http.WebMessage × C
  failsRead : C → Bool
  passes : C → Nat

/-- What a user heard, and whether received bytes were taken for an error. -/
structure Heard (C : Type) where
  messages : List Http.WebMessage
  failed : Bool
  conn : C

namespace Calls

variable {C : Type} (calls : Calls C)

/-- The user calls `read_next` until it returns false. -/
def readAll : Nat → C → Heard C
  | 0, c => ⟨[], false, c⟩
  | count + 1, c =>
    match calls.readNext c with
    | (none, next) => ⟨[], calls.failsRead c, next⟩
    | (some message, next) =>
      let later := readAll count next
      ⟨message :: later.messages, calls.failsRead c || later.failed, later.conn⟩

/-- Segments arrive, the event that reports them is dispatched, and the user's
handler reads if it is called. A message takes at least one byte, so the bytes at
hand bound the number of messages. -/
def receive (c : C) (segments : List Segment) (canWrite : Bool) : Heard C :=
  let reported := calls.deliver c (segments.map Segment.arrival) canWrite
  let called := calls.dispatch reported
  let read := if called.1 then calls.readAll (calls.passes called.2 + 1) called.2
    else ⟨[], false, called.2⟩
  { read with failed := calls.failsDispatch reported || read.failed }

/-- A whole run: the segments of each event, and whether it also says that the
descriptor is writable. -/
def receiveAll : C → List (List Segment × Bool) → Heard C
  | c, [] => ⟨[], false, c⟩
  | c, event :: events =>
    let first := calls.receive c event.1 event.2
    let later := receiveAll first.conn events
    ⟨first.messages ++ later.messages, first.failed || later.failed, later.conn⟩

end Calls

/-- All bytes that the events of a run bring. -/
def arriving (events : List (List Segment × Bool)) : Bytes :=
  events.flatMap fun event => event.1.flatMap Segment.bytes

open Http

/-- A message as it is handed to the socket: header, body, and the random numbers
that are left. -/
structure Wrapped (κ : Type) where
  header : Bytes
  body : Bytes
  keys : κ

/-- The members of a connection in a web-socket state that take part in reading. -/
structure Listener (κ : Type) where
  state : WebState
  reader : WebReader
  readBuffer : Buffer
  sock : BufferedTcpSocket
  keys : κ

namespace Listener

variable {κ : Type} (wrap : κ → WebMessage → Wrapped κ)

/-- `write(WebMessage &&)` -/
def say (l : Listener κ) (message : WebMessage) : Listener κ :=
  if !l.sock.isOpen then l
  else
    let wrapped := wrap l.keys message
    let said := { l with keys := wrapped.keys,
                         sock := (l.sock.buffer wrapped.header).writeString wrapped.body .write }
    if message.opcode = .close then
      { said with readBuffer := said.readBuffer.clear, sock := said.sock.writeShutdown }
    else said

/-- What a state that expects bytes of a frame does with those in the buffer. -/
def readWebMessage (l : Listener κ) (state : WebState) : Turn × Listener κ :=
  let chunk := l.reader.read state l.readBuffer
  let l := { l with state := chunk.2.1, reader := chunk.2.2.1, readBuffer := chunk.2.2.2 }
  match chunk.1 with
  | .nothing => (.again, l)
  | .ready => (.stop true, l)
  | .fail e => (.throw e, l)
  | .answer body => (.again, l.say wrap { opcode := .pong, body := body })
  | .notUtf8 =>
    (.stop false, l.say wrap { opcode := .close, closeCode := WebMessage.closeStatusNotUtf8 })

/-- The cases of the web-socket states. -/
def switchState (l : Listener κ) : Turn × Listener κ :=
  if l.state = .ready then (.stop false, l) else l.readWebMessage wrap l.state

def turn (l : Listener κ) : Turn × Listener κ :=
  if l.readBuffer.empty then
    let got := l.readBuffer.readFrom BufferedTcpSocket.istream l.sock
    let l := { l with readBuffer := got.2.1, sock := got.2.2 }
    if got.1 = 0 then (.stop false, l) else l.switchState wrap
  else l.switchState wrap

def onException (l : Listener κ) : Listener κ :=
  { l with readBuffer := l.readBuffer.clear, sock := l.sock.writeShutdown }

def tryLoop : Nat → Listener κ → Turn × Listener κ
  | 0, l => (.stop false, l)
  | passes + 1, l =>
    match l.turn wrap with
    | (.again, next) => tryLoop passes next
    | (.stop result, next) => (.stop result, next)
    | (.throw e, next) => (.throw e, next)

def passes (l : Listener κ) : Nat := l.readBuffer.size + queued l.sock.sock.descriptor.incoming + 1

def advanceState (l : Listener κ) : Bool × Listener κ :=
  if l.sock.getTotalBufferSize ≠ 0 then (false, l)
  else
    match l.tryLoop wrap l.passes with
    | (.again, next) => (false, next)
    | (.stop result, next) => (result, next)
    | (.throw _, next) => (true, next.onException)

/-- Whether `advanceState` would catch an exception. -/
def caught (l : Listener κ) : Bool :=
  l.sock.getTotalBufferSize == 0 &&
    match (l.tryLoop wrap l.passes).1 with
    | .throw _ => true
    | _ => false

def takeMessage (l : Listener κ) : Listener κ :=
  { l with reader := { l.reader with webMessage := none, wmHeaderParser := {} }, state := .header }

def readNext (l : Listener κ) : Option WebMessage × Listener κ :=
  if l.state ≠ .ready then (none, l)
  else (some (l.reader.webMessage.getD {}), (l.takeMessage.advanceState wrap).2)

def socketEvent (l : Listener κ) : Listener κ :=
  { l with sock := { l.sock with sock.pending := false }.sockHandler }

/-- While the socket stays open; a connection that finds it closed leaves the
web-socket states. -/
def dispatch (l : Listener κ) : Bool × Listener κ :=
  if l.sock.sock.pending then l.socketEvent.advanceState wrap else (false, l)

def calls : Calls (Listener κ) where
  deliver l arrivals canWrite :=
    { l with sock.sock := (l.sock.sock.arrive arrivals).notify (!arrivals.isEmpty) canWrite }
  dispatch := dispatch wrap
  failsDispatch l := l.sock.sock.pending && caught wrap l.socketEvent
  readNext := readNext wrap
  failsRead l := l.state == .ready && caught wrap l.takeMessage
  passes := passes

end Listener
end Crablib
