import Crablib.ClientRun
import Crablib.EndpointProofs
import Crablib.ListenerProofs
import Crablib.ServerRun

/-! The two connections as listeners: in a web-socket state each of them does what
the listener does with its own way to put a message into a frame. -/
namespace Crablib.WebCallsProofs
open Http Listener ListenerProofs EndpointProofs

section Loop
variable {κ : Type}

/-- A listener as its loop sees it. -/
def listener (wrap : κ → WebMessage → Wrapped κ) : Endpoint (Listener κ) where
  readBuffer := Listener.readBuffer
  sock := Listener.sock
  reader := Listener.reader
  filled l b sock := { l with readBuffer := b, sock := sock }
  entered l state w b := { l with state := state, reader := w, readBuffer := b }
  writeMessage l message := .ok (l.say wrap message)
  readWebMessage := Listener.readWebMessage wrap
  switchState := Listener.switchState wrap
  turn := Listener.turn wrap
  onException := Listener.onException
  tryLoop := Listener.tryLoop wrap
  passes := Listener.passes
  advanceState := Listener.advanceState wrap

theorem listener_models (wrap : κ → WebMessage → Wrapped κ) : (listener wrap).Models where
  filled _ _ _ := ⟨rfl, rfl, rfl⟩
  entered _ _ _ _ := ⟨rfl, rfl⟩
  refilled _ := rfl
  readWebMessage l state := by
    show l.readWebMessage wrap state = _
    simp only [Listener.readWebMessage, listener, Endpoint.deals]
    generalize l.reader.read state l.readBuffer = chunk
    obtain ⟨action, next, w, b⟩ := chunk
    cases action <;> rfl
  turn _ := rfl
  idle _ := rfl
  counted := counted_of fun n l => by
    show Listener.tryLoop wrap (n + 1) l = goOn (Listener.tryLoop wrap n) (l.turn wrap)
    rw [Listener.tryLoop]
    generalize l.turn wrap = out
    obtain ⟨outcome, next⟩ := out
    cases outcome <;> rfl
  passes _ := rfl
  advanceState l := by
    show l.advanceState wrap =
      if l.sock.getTotalBufferSize ≠ 0 then (false, l)
      else (listener wrap).settled (l.tryLoop wrap l.passes)
    rw [Listener.advanceState]
    generalize l.tryLoop wrap l.passes = out
    obtain ⟨outcome, next⟩ := out
    cases outcome <;> rfl

theorem listener_catches (wrap : κ → WebMessage → Wrapped κ) (l : Listener κ) :
    (listener wrap).catches l = caught wrap l := by
  have looped : (listener wrap).tryLoop ((listener wrap).passes l) l = l.tryLoop wrap l.passes := rfl
  rw [Endpoint.catches, looped, caught]
  cases (l.tryLoop wrap l.passes).1 <;> rfl

end Loop

section Server
open ServerConnection

/-- How the server puts a message into a frame: unmasked. -/
def serverWrap (_ : Unit) (message : WebMessage) : Wrapped Unit :=
  ⟨webMessageHeader true message.opcode.toNat (payload message).length none, payload message, ()⟩

/-- What the run loop and the user call on a server connection. -/
def serverCalls : Calls ServerConnection where
  deliver c arrivals canWrite :=
    ServerRun.afterOps c [.arrive arrivals, .notify (!arrivals.isEmpty) canWrite]
  dispatch := ServerConnection.dispatch
  failsDispatch c := ServerRun.catches c .dispatch
  readNext := ServerConnection.readNextMessage
  failsRead c := ServerRun.catches c .readNextMessage
  passes := ServerConnection.passes

/-- A server connection in a web-socket state that streams no message, seen as a
listener. -/
structure ServerShows (c : ServerConnection) (l : Listener Unit) : Prop where
  state : c.state = .web l.state
  reader : c.reader = l.reader
  readBuffer : c.readBuffer = l.readBuffer
  sock : c.sock = l.sock
  streams : c.writingWebMessageBody = false

variable {c : ServerConnection} {l : Listener Unit}

private theorem writeMessage_shows (shows_ : ServerShows c l) (message : WebMessage) :
    ∃ written, c.writeMessage message .write = .ok written ∧
      ServerShows written (l.say serverWrap message) := by
  obtain ⟨state, reader, readBuffer, sock, streams⟩ := shows_
  simp only [writeMessage, ServerConnection.isOpen, say, sock]
  by_cases open_ : l.sock.isOpen = true
  · have web : c.isStateWebsocket = true := by simp [isStateWebsocket, state]
    simp only [open_, web, streams, invariant, Bool.not_true, Bool.not_false, Bool.or_true,
      Bool.false_eq_true, ↓reduceIte]
    refine ⟨c.sendMessage message .write, rfl, ?_⟩
    by_cases last : message.opcode = .close
    · simp only [sendMessage, last, ↓reduceIte]
      exact ⟨state, reader, by simp [readBuffer], by simp [sock, serverWrap, last], streams⟩
    · simp only [sendMessage, last, ↓reduceIte]
      exact ⟨state, reader, readBuffer, by simp [sock, serverWrap], streams⟩
  · simp only [open_]
    exact ⟨c, rfl, state, reader, readBuffer, sock, streams⟩

private theorem server_alike : Endpoint.Alike server (listener serverWrap) ServerShows where
  readBuffer := ServerShows.readBuffer
  sock := ServerShows.sock
  reader := ServerShows.reader
  filled _ _ shows_ := ⟨shows_.state, shows_.reader, rfl, rfl, shows_.streams⟩
  entered _ _ _ shows_ := ⟨rfl, rfl, rfl, shows_.sock, shows_.streams⟩
  writeMessage message shows_ := by
    obtain ⟨written, wrote, after⟩ := writeMessage_shows shows_ message
    exact ⟨written, _, wrote, rfl, after⟩
  switchState := by
    intro c l shows_
    by_cases ready : l.state = .ready
    · refine .inl ⟨?_, ?_⟩
      · simp [server, ServerConnection.switchState, shows_.state, ready]
      · simp [listener, Listener.switchState, ready]
    · refine .inr ⟨l.state, ?_, ?_⟩
      · show c.switchState = c.readWebMessage l.state
        cases kind : l.state <;> simp_all [ServerConnection.switchState, shows_.state]
      · simp [listener, Listener.switchState, ready]
  onException shows_ := ⟨shows_.state, shows_.reader, congrArg Buffer.clear shows_.readBuffer,
    congrArg BufferedTcpSocket.writeShutdown shows_.sock, shows_.streams⟩

private theorem advanceState_shows (shows_ : ServerShows c l) :
    c.advanceState.1 = (l.advanceState serverWrap).1 ∧
      ServerShows c.advanceState.2 (l.advanceState serverWrap).2 ∧
      ServerRun.caught c = caught serverWrap l := by
  have caught_ : ServerRun.caught c = server.catches c := by
    have looped : server.tryLoop (server.passes c) c = ServerConnection.tryLoop c.passes c := rfl
    rw [Endpoint.catches, looped, ServerRun.caught]
    cases (ServerConnection.tryLoop c.passes c).1 <;> rfl
  obtain ⟨same, next⟩ := server_alike.advanceState server_models (listener_models serverWrap) shows_
  refine ⟨same, next, ?_⟩
  rw [caught_, server_alike.catches server_models (listener_models serverWrap) shows_, listener_catches]

private theorem readNext_shows (shows_ : ServerShows c l) :
    c.readNextMessage.1 = (l.readNext serverWrap).1 ∧
      ServerShows c.readNextMessage.2 (l.readNext serverWrap).2 ∧
      ServerRun.catches c .readNextMessage = (calls serverWrap).failsRead l := by
  obtain ⟨state, reader, readBuffer, sock, streams⟩ := shows_
  have taken : ServerShows c.takeMessage l.takeMessage :=
    ⟨rfl, by simp [ServerConnection.takeMessage, Listener.takeMessage, reader],
      readBuffer, sock, streams⟩
  obtain ⟨-, next, caught_⟩ := advanceState_shows taken
  by_cases ready : l.state = .ready
  · simp only [readNextMessage, readNext, ServerRun.catches, calls, state, streams, ready, reader,
      caught_, ne_eq, not_true_eq_false, Bool.false_eq_true, or_self, ↓reduceIte, true_and]
    exact ⟨next, by simp⟩
  · simp only [readNextMessage, readNext, ServerRun.catches, calls, state, ne_eq,
      ServerState.web.injEq, ready, not_false_eq_true, true_or, ↓reduceIte, true_and]
    refine ⟨⟨state, reader, readBuffer, sock, streams⟩, ?_⟩
    have unready : (ServerState.web l.state == .web .ready) = false := by simp [ready]
    have unready' : (l.state == .ready) = false := by simp [ready]
    simp [unready, unready']

private theorem dispatch_shows (shows_ : ServerShows c l) (opened : l.socketEvent.sock.isOpen = true) :
    c.dispatch.1 = (l.dispatch serverWrap).1 ∧ ServerShows c.dispatch.2 (l.dispatch serverWrap).2 ∧
      ServerRun.catches c .dispatch = (calls serverWrap).failsDispatch l := by
  obtain ⟨state, reader, readBuffer, sock, streams⟩ := shows_
  have event : ServerShows c.socketEvent l.socketEvent :=
    ⟨state, reader, readBuffer, by simp [ServerConnection.socketEvent, Listener.socketEvent, sock],
      streams⟩
  have opened' : c.socketEvent.isOpen = true := by
    rw [ServerConnection.isOpen, event.sock]
    exact opened
  have idle : c.socketEvent.isWritingBody = false := by simp [isWritingBody, event.streams, event.state]
  obtain ⟨same, next, caught_⟩ := advanceState_shows event
  by_cases pending : l.sock.sock.pending = true
  · simp only [ServerConnection.dispatch, Listener.dispatch, ServerRun.catches, calls, sock,
      pending, ↓reduceIte, sockHandler, opened',
      idle, Bool.not_true, Bool.false_eq_true, caught_, Bool.not_false, Bool.and_true, Bool.true_and]
    exact ⟨same, next, trivial⟩
  · simp only [ServerConnection.dispatch, Listener.dispatch, ServerRun.catches, calls, sock,
      pending, Bool.false_eq_true, ↓reduceIte, Bool.false_and, true_and]
    exact ⟨⟨state, reader, readBuffer, sock, streams⟩, trivial⟩

/-- A server connection does what its listener does. -/
theorem server_follows : Follows serverCalls serverWrap ServerShows where
  deliver := fun arrivals canWrite shows_ =>
    ⟨shows_.state, shows_.reader,
      shows_.readBuffer, by simp [serverCalls, calls, ServerRun.afterOps,
      ServerRun.perform, shows_.sock], shows_.streams⟩
  dispatch := dispatch_shows
  readNext := readNext_shows
  passes := server_alike.passes server_models (listener_models serverWrap)

end Server

section Client
open ClientConnection

/-- How the client puts a message into a frame: masked with the next key. -/
def clientWrap (keys : List UInt32) (message : WebMessage) : Wrapped (List UInt32) :=
  ⟨webMessageHeader true message.opcode.toNat (payload message).length (some (keys.headD 0)),
    maskData 0 (payload message) (keys.headD 0), keys.tail⟩

/-- What the run loop and the user call on a client connection. -/
def clientCalls : Calls ClientConnection where
  deliver c arrivals canWrite :=
    ClientRun.afterOps c [.arrive arrivals, .notify (!arrivals.isEmpty) canWrite]
  dispatch := ClientConnection.dispatch
  failsDispatch c := ClientRun.catches c .dispatch
  readNext := ClientConnection.readNextMessage
  failsRead c := ClientRun.catches c .readNextMessage
  passes := ClientConnection.passes

/-- A client connection in a web-socket state, seen as a listener. -/
structure ClientShows (c : ClientConnection) (l : Listener (List UInt32)) : Prop where
  state : c.state = .web l.state
  reader : c.reader = l.reader
  readBuffer : c.readBuffer = l.readBuffer
  sock : c.sock = l.sock
  keys : c.keys = l.keys
  resolved : c.dnsOpen = false

variable {c : ClientConnection} {l : Listener (List UInt32)}

private theorem writeMessage_client (shows_ : ClientShows c l) (message : WebMessage) :
    ∃ written, c.writeMessage message = .ok written ∧
      ClientShows written (l.say clientWrap message) := by
  obtain ⟨state, reader, readBuffer, sock, keys, resolved⟩ := shows_
  simp only [writeMessage, ClientConnection.isOpen, say, sock]
  by_cases open_ : l.sock.isOpen = true
  · have web : c.mayWriteMessage = true := by simp [mayWriteMessage, state]
    simp only [open_, web, invariant, Bool.not_true, Bool.or_true, Bool.false_eq_true, ↓reduceIte]
    refine ⟨c.sendMessage message, rfl, ?_⟩
    by_cases last : message.opcode = .close
    · simp only [sendMessage, last, ↓reduceIte]
      exact ⟨state, reader, by simp [readBuffer], by simp [sock, keys, clientWrap, last], by
        simp [keys, clientWrap], resolved⟩
    · simp only [sendMessage, last, ↓reduceIte]
      exact ⟨state, reader, readBuffer, by simp [sock, keys, clientWrap], by
        simp [keys, clientWrap], resolved⟩
  · simp only [open_, resolved]
    exact ⟨c, rfl, state, reader, readBuffer, sock, keys, resolved⟩

private theorem client_alike : Endpoint.Alike client (listener clientWrap) ClientShows where
  readBuffer := ClientShows.readBuffer
  sock := ClientShows.sock
  reader := ClientShows.reader
  filled _ _ shows_ := ⟨shows_.state, shows_.reader, rfl, rfl, shows_.keys, shows_.resolved⟩
  entered _ _ _ shows_ := ⟨rfl, rfl, rfl, shows_.sock, shows_.keys, shows_.resolved⟩
  writeMessage message shows_ := by
    obtain ⟨written, wrote, after⟩ := writeMessage_client shows_ message
    exact ⟨written, _, wrote, rfl, after⟩
  switchState := by
    intro c l shows_
    by_cases ready : l.state = .ready
    · refine .inl ⟨?_, ?_⟩
      · simp [client, ClientConnection.switchState, shows_.state, ready]
      · simp [listener, Listener.switchState, ready]
    · refine .inr ⟨l.state, ?_, ?_⟩
      · show c.switchState = c.readWebMessage l.state
        cases kind : l.state <;> simp_all [ClientConnection.switchState, shows_.state]
      · simp [listener, Listener.switchState, ready]
  onException shows_ := ⟨shows_.state, shows_.reader, congrArg Buffer.clear shows_.readBuffer,
    congrArg BufferedTcpSocket.writeShutdown shows_.sock, shows_.keys, shows_.resolved⟩

private theorem advanceState_client (shows_ : ClientShows c l) :
    c.advanceState.1 = (l.advanceState clientWrap).1 ∧
      ClientShows c.advanceState.2 (l.advanceState clientWrap).2 ∧
      ClientRun.caught c = caught clientWrap l := by
  have caught_ : ClientRun.caught c = client.catches c := by
    have looped : client.tryLoop (client.passes c) c = ClientConnection.tryLoop c.passes c := rfl
    rw [Endpoint.catches, looped, ClientRun.caught]
    cases (ClientConnection.tryLoop c.passes c).1 <;> rfl
  obtain ⟨same, next⟩ := client_alike.advanceState client_models (listener_models clientWrap) shows_
  refine ⟨same, next, ?_⟩
  rw [caught_, client_alike.catches client_models (listener_models clientWrap) shows_, listener_catches]

private theorem readNext_client (shows_ : ClientShows c l) :
    c.readNextMessage.1 = (l.readNext clientWrap).1 ∧
      ClientShows c.readNextMessage.2 (l.readNext clientWrap).2 ∧
      ClientRun.catches c .readNextMessage = (calls clientWrap).failsRead l := by
  obtain ⟨state, reader, readBuffer, sock, keys, resolved⟩ := shows_
  have taken : ClientShows c.takeMessage l.takeMessage :=
    ⟨rfl, by simp [ClientConnection.takeMessage, Listener.takeMessage, reader],
      readBuffer, sock, keys, resolved⟩
  obtain ⟨-, next, caught_⟩ := advanceState_client taken
  by_cases ready : l.state = .ready
  · simp only [readNextMessage, readNext, ClientRun.catches, calls, state, ready, reader, caught_,
      ne_eq, not_true_eq_false, ↓reduceIte, true_and]
    exact ⟨next, by simp⟩
  · simp only [readNextMessage, readNext, ClientRun.catches, calls, state, ne_eq,
      ClientState.web.injEq, ready, not_false_eq_true, ↓reduceIte, true_and]
    refine ⟨⟨state, reader, readBuffer, sock, keys, resolved⟩, ?_⟩
    have unready : (ClientState.web l.state == .web .ready) = false := by simp [ready]
    have unready' : (l.state == .ready) = false := by simp [ready]
    simp [unready, unready']

private theorem dispatch_client (shows_ : ClientShows c l) (opened : l.socketEvent.sock.isOpen = true) :
    c.dispatch.1 = (l.dispatch clientWrap).1 ∧ ClientShows c.dispatch.2 (l.dispatch clientWrap).2 ∧
      ClientRun.catches c .dispatch = (calls clientWrap).failsDispatch l := by
  obtain ⟨state, reader, readBuffer, sock, keys, resolved⟩ := shows_
  have event : ClientShows c.socketEvent l.socketEvent :=
    ⟨state, reader, readBuffer, by simp [ClientConnection.socketEvent, Listener.socketEvent, sock],
      keys, resolved⟩
  have opened' : c.socketEvent.sock.isOpen = true := by
    rw [event.sock]
    exact opened
  obtain ⟨same, next, caught_⟩ := advanceState_client event
  by_cases pending : l.sock.sock.pending = true
  · simp only [ClientConnection.dispatch, Listener.dispatch, ClientRun.catches, calls, sock,
      pending, ↓reduceIte, sockHandler, opened',
      Bool.not_true, Bool.false_eq_true, caught_, Bool.and_self, Bool.true_and]
    exact ⟨same, next, trivial⟩
  · simp only [ClientConnection.dispatch, Listener.dispatch, ClientRun.catches, calls, sock,
      pending, Bool.false_eq_true, ↓reduceIte, Bool.false_and, true_and]
    exact ⟨⟨state, reader, readBuffer, sock, keys, resolved⟩, trivial⟩

/-- A client connection does what its listener does. -/
theorem client_follows : Follows clientCalls clientWrap ClientShows where
  deliver := fun arrivals canWrite shows_ =>
    ⟨shows_.state, shows_.reader,
      shows_.readBuffer, by simp [clientCalls, calls, ClientRun.afterOps,
      ClientRun.perform, shows_.sock], shows_.keys, shows_.resolved⟩
  dispatch := dispatch_client
  readNext := readNext_client
  passes := client_alike.passes client_models (listener_models clientWrap)

end Client

end Crablib.WebCallsProofs
