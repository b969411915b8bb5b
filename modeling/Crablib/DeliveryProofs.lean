import Crablib.WebCallsProofs

/-! Delivery between two ends of a web socket: what one end writes with
`write(WebMessage)` is what the user of the other end reads, in both directions and
for every way the bytes are cut. -/
namespace Crablib.DeliveryProofs
open Http StreamsProofs SocketProofs InboundProofs FrameProofs ReceivingProofs ListenerProofs
open WebCallsProofs

variable {κ : Type} {wrap : κ → WebMessage → Wrapped κ} {frames : List Frame}
    {messages : List WebMessage}

section Messages

/-- A message that the other end can deliver or answer; its length is a `size_t`. -/
structure Sendable (message : WebMessage) : Prop where
  opcode : message.opcode ≠ .close
  text : message.opcode = .text → isValidUtf8 message.body = true
  small : message.body.length < 2 ^ 64

/-- The messages that are delivered to the user. -/
def isData (message : WebMessage) : Bool := message.opcode == .text || message.opcode == .binary

/-- The frame that carries a message. -/
def Carries (f : Frame) (message : WebMessage) : Prop :=
  f.fin = true ∧ f.opcode = message.opcode ∧ f.body = payload message

/-- A message that is not CLOSE fits into a frame with any key. -/
theorem exists_frame {message : WebMessage} (opcode : message.opcode ≠ .close)
    (small : (payload message).length < 2 ^ 64) (key : Option UInt32) :
    ∃ f : Frame, Carries f message ∧ f.key = key := by
  have control : message.opcode ≠ .text → message.opcode ≠ .binary → true = true ∧
      (payload message).length ≤ 125 := by
    intro text binary
    cases kind : message.opcode <;> simp_all [payload]
  exact ⟨{ opcode := message.opcode, key := key, body := payload message,
           small := small, control := control },
    ⟨rfl, rfl, rfl⟩, rfl⟩

private theorem Sendable.payload {message : WebMessage} (sendable : Sendable message) :
    (payload message).length < 2 ^ 64 := by
  have := sendable.small
  have := sendable.opcode
  cases kind : message.opcode <;> simp_all [Http.payload]

/-- A data message is carried as it is. -/
private theorem payload_data {message : WebMessage} (data : isData message = true) :
    payload message = message.body := by
  cases kind : message.opcode <;> simp_all [isData, payload]

theorem delivers_carried {f : Frame} {message : WebMessage} (carries : Carries f message) :
    delivers f = isData message := by
  simp [delivers, isData, carries.1, carries.2.1]

/-- Frames of messages are taken when no message is held. -/
theorem sound_carried (carried : List.Forall₂ Carries frames messages)
    (sendable : ∀ m ∈ messages, Sendable m) :
    Sound none frames := by
  induction carried with
  | nil => trivial
  | cons carries later ih =>
    rename_i f message frames messages
    obtain ⟨fin, opcode, body⟩ := carries
    have sendable' := sendable message List.mem_cons_self
    have rest := ih fun m member => sendable m (List.mem_cons_of_mem _ member)
    simp only [Sound, opcode, fin, ↓reduceIte]
    by_cases control : message.opcode = .ping ∨ message.opcode = .pong
    · simpa [control] using rest
    · have text : message.opcode = .text → isValidUtf8 f.body = true := by
        intro text
        rw [body, payload_data (by simp [isData, text])]
        exact sendable'.text text
      simp only [control, ↓reduceIte]
      exact ⟨trivial, sendable'.opcode, text, rest⟩

theorem delivered_carried (carried : List.Forall₂ Carries frames messages) :
    (delivered frames).map (fun m => (m.opcode, m.body)) = (messages.filter isData).map fun m =>
      (m.opcode, m.body) := by
  induction carried with
  | nil => rfl
  | cons carries later ih =>
    rename_i f message frames messages
    have same := delivers_carried carries
    rw [show f :: frames = [f] ++ frames from rfl, delivered_append, List.map_append, ih]
    by_cases data : isData message = true
    · simp [delivered, same, data, messageOf, carries.2.1, carries.2.2, payload_data data]
    · simp [delivered, same, data]

/-- Pings are answered with the body that was sent, cut like every control body. -/
theorem answers_carried (cut : ∀ keys body, wrap keys { opcode := .pong, body := body.take 125 } =
      wrap keys { opcode := .pong, body := body }) (carried : List.Forall₂ Carries frames messages)
      (keys : κ) :
    answers wrap keys (frames.map messageOf) = answers wrap keys messages := by
  induction carried generalizing keys with
  | nil => rfl
  | cons carries later ih =>
    rename_i f message frames messages
    by_cases ping : message.opcode = .ping
    · have body : f.body = message.body.take 125 := by rw [carries.2.2, payload, ping]
      simp [answers, messageOf, carries.2.1, ping, body, cut, ih]
    · simp [answers, messageOf, carries.2.1, ping, ih]

end Messages

section Senders

/-- The socket of an end that can still write. -/
structure Writing (s : BufferedTcpSocket) : Prop where
  isOpen : s.isOpen = true
  unasked : s.writeShutdownAsked = false

/-- A header and a body handed to the socket. -/
theorem Writing.writes {s : BufferedTcpSocket} (writing : Writing s) (header body : Bytes)
    (bo : BufferOptions) :
    Writing ((s.buffer header).writeString body bo) ∧
      stream ((s.buffer header).writeString body bo) = stream s ++ (header ++ body) := by
  have first := buffer_extends s header
  have second := writeString_extends (s.buffer header) body bo
  rw [first.takes, takes_of_open writing.isOpen writing.unasked] at second
  rw [takes_of_open writing.isOpen writing.unasked] at first
  have both := first.trans second
  exact ⟨⟨both.isOpen.trans writing.isOpen, both.asked.trans writing.unasked⟩, both.stream⟩

/-- A client in a web-socket state that can write. -/
structure ClientSends (c : ClientConnection) : Prop where
  web : ∃ state, c.state = .web state
  writing : Writing c.sock

/-- A server in a web-socket state that can write and streams no message. -/
structure ServerSends (c : ServerConnection) : Prop where
  web : ∃ state, c.state = .web state
  writing : Writing c.sock
  streams : c.writingWebMessageBody = false

/-- The client writes messages, one after the other. -/
def clientSendAll (c : ClientConnection) (messages : List WebMessage) : Except Error ClientConnection :=
  messages.foldlM (fun c message => c.writeMessage message) c

/-- The server writes messages, each with its buffer options. -/
def serverSendAll (c : ServerConnection) (messages : List (WebMessage × BufferOptions)) :
    Except Error ServerConnection :=
  messages.foldlM (fun c message => c.writeMessage message.1 message.2) c

private theorem clientSend {c : ClientConnection} {message : WebMessage} (sends : ClientSends c)
    (sendable : Sendable message) :
    ∃ d f, c.writeMessage message = .ok d ∧ ClientSends d ∧ Carries f message ∧
      stream d.sock = stream c.sock ++ f.bytes := by
  obtain ⟨⟨state, web⟩, writing⟩ := sends
  obtain ⟨f, carries, key⟩ := exists_frame sendable.opcode sendable.payload (some (c.keys.headD 0))
  obtain ⟨writing', wrote⟩ := writing.writes f.header (maskData 0 f.body (c.keys.headD 0)) .write
  have header :
      f.header = webMessageHeader true message.opcode.toNat
      (payload message).length (some (c.keys.headD 0)) := by
    rw [Frame.header, key, carries.1, carries.2.1, carries.2.2]
  refine ⟨{ c with
    keys := c.keys.tail
    sock := (c.sock.buffer f.header).writeString (maskData 0 f.body (c.keys.headD 0))
      .write }, f, ?_, ⟨⟨state, web⟩, writing'⟩,
    carries, ?_⟩
  · have opened : c.isOpen = true := by simp [ClientConnection.isOpen, writing.isOpen]
    have may : c.mayWriteMessage = true := by simp [ClientConnection.mayWriteMessage, web]
    simp only [ClientConnection.writeMessage, opened, may,
      invariant, ClientConnection.sendMessage, sendable.opcode, header, carries.2.2]
    rfl
  · rw [wrote, Frame.bytes, masked, key, Option.getD_some]

private theorem serverSend {c : ServerConnection} {message : WebMessage} (sends : ServerSends c)
    (sendable : Sendable message) (bo : BufferOptions) :
    ∃ d f, c.writeMessage message bo = .ok d ∧ ServerSends d ∧ Carries f message ∧
      stream d.sock = stream c.sock ++ f.bytes := by
  obtain ⟨⟨state, web⟩, writing, streams⟩ := sends
  obtain ⟨f, carries, key⟩ := exists_frame sendable.opcode sendable.payload none
  obtain ⟨writing', wrote⟩ := writing.writes f.header f.body bo
  have header : f.header = webMessageHeader true message.opcode.toNat (payload message).length none := by
    rw [Frame.header, key, carries.1, carries.2.1, carries.2.2]
  refine ⟨{ c with
    sock := (c.sock.buffer f.header).writeString f.body bo
    wmPingTimer := c.wmPingTimer || bo = .write }, f, ?_, ⟨⟨state, web⟩, writing', streams⟩, carries, ?_⟩
  · have opened : c.isOpen = true := by simp [ServerConnection.isOpen, writing.isOpen]
    have may : c.isStateWebsocket = true := by simp [ServerConnection.isStateWebsocket, web]
    simp only [ServerConnection.writeMessage, opened, may, streams, invariant,
      ServerConnection.sendMessage, sendable.opcode, header,
      carries.2.2, Bool.not_false, Bool.or_true]
    rfl
  · rw [wrote, Frame.bytes, masked, key, Option.getD_none, maskData_zero]

private theorem clientSendAll_spec {c : ClientConnection} (sends : ClientSends c)
    (sendable : ∀ m ∈ messages, Sendable m) :
    ∃ d frames, clientSendAll c messages = .ok d ∧ List.Forall₂ Carries frames messages ∧
      stream d.sock = stream c.sock ++ frames.flatMap Frame.bytes := by
  induction messages generalizing c with
  | nil => exact ⟨c, [], rfl, .nil, by simp⟩
  | cons message messages ih =>
    obtain ⟨mid, f, wrote, sends', carries, first⟩ :=
      clientSend sends (sendable message List.mem_cons_self)
    obtain ⟨d, frames, sent, carried, later⟩ :=
      ih sends' fun m member => sendable m (List.mem_cons_of_mem _ member)
    refine ⟨d, f :: frames, ?_, .cons carries carried, by rw [later, first]; simp⟩
    rw [clientSendAll, List.foldlM_cons, wrote]
    exact sent

private theorem serverSendAll_spec {c : ServerConnection}
    {writes : List (WebMessage × BufferOptions)} (sends : ServerSends c)
    (sendable : ∀ write ∈ writes, Sendable write.1) :
    ∃ d frames, serverSendAll c writes = .ok d ∧ List.Forall₂ Carries frames (writes.map Prod.fst) ∧
      stream d.sock = stream c.sock ++ frames.flatMap Frame.bytes := by
  induction writes generalizing c with
  | nil => exact ⟨c, [], rfl, .nil, by simp⟩
  | cons write writes ih =>
    obtain ⟨mid, f, wrote, sends', carries, first⟩ :=
      serverSend sends (sendable write List.mem_cons_self) write.2
    obtain ⟨d, frames, sent, carried, later⟩ :=
      ih sends' fun m member => sendable m (List.mem_cons_of_mem _ member)
    refine ⟨d, f :: frames, ?_, .cons carries carried, by rw [later, first]; simp⟩
    rw [serverSendAll, List.foldlM_cons, wrote]
    exact sent

end Senders

section Receivers

/-- A reader between messages with nothing left to read, on a socket that takes all
that is written to it. -/
structure Listening (reader : WebReader) (readBuffer : Buffer) (sock : BufferedTcpSocket) : Prop where
  flowing : Flowing sock
  nothing : sock.sock.descriptor.incoming = []
  linear : Linear readBuffer
  room : 0 < readBuffer.capacity
  empty : contents readBuffer = []
  message : reader.webMessage = none
  fresh : reader.wmHeaderParser = {}

/-- A server in a web-socket state that streams no message and listens. -/
structure ServerListens (c : ServerConnection) : Prop where
  state : c.state = .web .header
  streams : c.writingWebMessageBody = false
  listening : Listening c.reader c.readBuffer c.sock

/-- A client in a web-socket state that listens. -/
structure ClientListens (c : ClientConnection) : Prop where
  state : c.state = .web .header
  resolved : c.dnsOpen = false
  listening : Listening c.reader c.readBuffer c.sock

/-- A listener at rest waits for whatever frames come. -/
theorem Listening.hears {l : Listener κ} (listening : Listening l.reader l.readBuffer l.sock)
    (state : l.state = .header) {tail : Bytes} (sound : Sound none frames) (refused : Refused tail) :
    Hears l frames tail (frames.flatMap Frame.bytes ++ tail) ∧ atHand l = 0 := by
  have none : ready l.sock = [] := by rw [listening.flowing.ready, listening.nothing]; rfl
  refine ⟨⟨listening.flowing, listening.linear,
    listening.room, by rw [listening.message]; exact sound, refused, ?_⟩, ?_⟩
  · rw [listening.empty, none, state]
    exact owes_start frames listening.fresh
  · simp [atHand, listening.empty, none]

/-- What the user of the receiving end gets, and what that end sends: exactly the
data messages in order with opcode and body, the given answers, and no error. -/
structure Received (messages : List WebMessage) (answered : Bytes) (before after : BufferedTcpSocket)
    (heard : List WebMessage) (failed : Bool) : Prop where
  messages : heard.map (fun m => (m.opcode, m.body)) = (messages.filter isData).map fun m =>
    (m.opcode, m.body)
  answered : stream after = stream before ++ answered
  unfailed : failed = false
  isOpen : after.isOpen = true
  unasked : after.writeShutdownAsked = false

/-- A listener at rest receives the frames of messages. -/
private theorem receives {C : Type} {other : Calls C} {R : C → Listener κ → Prop}
    {c : C} {l : Listener κ}
    (cut : ∀ keys body, wrap keys { opcode := .pong, body := body.take 125 } =
      wrap keys { opcode := .pong, body := body })
    (follows : Follows other wrap R) (related : R c l)
    (listening : Listening l.reader l.readBuffer l.sock) (state : l.state = .header)
    (carried : List.Forall₂ Carries frames messages) (sendable : ∀ m ∈ messages, Sendable m)
    (events : List (List Segment × Bool)) (whole : arriving events = frames.flatMap Frame.bytes) :
    ∃ last : Listener κ, R (other.receiveAll c events).conn last ∧
      Received messages (answers wrap l.keys messages).1 l.sock last.sock
        (other.receiveAll c events).messages
        (other.receiveAll c events).failed := by
  have whole_ : Refused [] := fun _ _ none => by cases none
  obtain ⟨hears, nothing⟩ := listening.hears state (sound_carried carried sendable) whole_
  rw [List.append_nil, ← whole, ← List.append_nil (arriving events)] at hears
  have settles := receiveAll_spec wrap events hears nothing
  have alike := receiveAll_follows follows related events (.inl ⟨frames, [], hears⟩)
  generalize (Listener.calls wrap).receiveAll l events = heard at settles alike
  cases settles with
  | fails some_ deaf => exact absurd rfl some_
  | waits done later split hears' nothing' answered =>
    rename_i last
    obtain ⟨same, unfailed, related'⟩ := alike
    have owes := hears'.owes
    rw [atHand_nil nothing'] at owes
    rw [owes.done.1, List.append_nil] at split
    subst split
    refine ⟨last, related', ?_, ?_, unfailed, hears'.flowing.isOpen, hears'.flowing.unasked⟩
    · rw [same]
      exact delivered_carried carried
    · rw [answered.stream, answers_carried cut carried]

end Receivers

private theorem payload_pong (body : Bytes) :
    payload { opcode := .pong, body := body.take 125 } = payload { opcode := .pong, body := body } := by
  simp [payload, List.take_take]

/-- For every list of text, binary, ping and pong messages that a client writes, and
every way the bytes it hands to its socket are cut into segments and events, a
listening server whose output is accepted delivers the text and binary messages in
order, answers each ping with one pong and meets no error; and the same from a server
to a client. -/
theorem web_messages_delivered (messages : List WebMessage) (sendable : ∀ m ∈ messages, Sendable m) :
    (∀ (sender : ClientConnection) (receiver : ServerConnection),
      ClientSends sender → ServerListens receiver →
      ∃ sent, clientSendAll sender messages = .ok sent ∧
        ∀ events, stream sent.sock = stream sender.sock ++ arriving events →
          let heard := serverCalls.receiveAll receiver events
          Received messages (answers serverWrap () messages).1 receiver.sock heard.conn.sock
            heard.messages heard.failed) ∧
    ∀ (sender : ServerConnection) (receiver : ClientConnection)
      (writes : List (WebMessage × BufferOptions)),
      writes.map Prod.fst = messages → ServerSends sender → ClientListens receiver →
      ∃ sent, serverSendAll sender writes = .ok sent ∧
        ∀ events, stream sent.sock = stream sender.sock ++ arriving events →
          let heard := clientCalls.receiveAll receiver events
          Received messages (answers clientWrap receiver.keys messages).1 receiver.sock
            heard.conn.sock heard.messages heard.failed := by
  refine ⟨fun sender receiver sends listens => ?_,
    fun sender receiver writes written sends listens => ?_⟩
  · obtain ⟨sent, frames, ok, carried, wrote⟩ := clientSendAll_spec sends sendable
    refine ⟨sent, ok, fun events all => ?_⟩
    have whole : arriving events = frames.flatMap Frame.bytes :=
      List.append_cancel_left (all.symm.trans wrote)
    obtain ⟨last, related, received⟩ :=
      receives (l := ⟨.header, receiver.reader, receiver.readBuffer, receiver.sock, ()⟩)
      (fun _ body => by simp [serverWrap, payload_pong]) server_follows
      ⟨listens.state, rfl, rfl, rfl, listens.streams⟩ listens.listening rfl carried sendable events whole
    rw [← related.sock] at received
    exact received
  · subst written
    obtain ⟨sent, frames, ok, carried, wrote⟩ :=
      serverSendAll_spec sends fun write member => sendable write.1 (List.mem_map_of_mem member)
    refine ⟨sent, ok, fun events all => ?_⟩
    have whole : arriving events = frames.flatMap Frame.bytes :=
      List.append_cancel_left (all.symm.trans wrote)
    obtain ⟨last, related, received⟩ :=
      receives (l := ⟨.header, receiver.reader, receiver.readBuffer, receiver.sock, receiver.keys⟩)
      (fun _ body => by simp [clientWrap, payload_pong]) client_follows
      ⟨listens.state, rfl, rfl, rfl, rfl, listens.resolved⟩ listens.listening rfl
        carried sendable events whole
    rw [← related.sock] at received
    exact received

/-- A socket that is connected, writable and has nothing to read. -/
def quietSocket : BufferedTcpSocket := { sock := { fdValid := true, canRead := true, canWrite := true } }

theorem quietSocket_listens : Listening {} (.make 8192) quietSocket where
  flowing := ⟨⟨rfl, rfl, rfl⟩, rfl, rfl, rfl, by simp [quietSocket], fun _ => rfl⟩
  nothing := rfl
  linear := ⟨by decide, fun _ => rfl⟩
  room := by decide
  empty := by decide
  message := rfl
  fresh := rfl

theorem web_messages_delivered_text :
    let messages : List WebMessage :=
      [{ opcode := .text, body := str "a" }, { opcode := .ping, body := str "b" }]
    let sender : ClientConnection := { state := .web .header, sock := quietSocket, keys := [1, 2] }
    let receiver : ServerConnection := { state := .web .header, sock := quietSocket }
    ∃ sent, clientSendAll sender messages = .ok sent ∧
      ∀ events, stream sent.sock = stream sender.sock ++ arriving events →
        let heard := serverCalls.receiveAll receiver events
        Received messages (answers serverWrap () messages).1 receiver.sock heard.conn.sock
        heard.messages heard.failed := by
  intro messages sender receiver
  have sendable : ∀ m ∈ messages, Sendable m := by
    intro m member
    rcases List.mem_cons.mp member with rfl | member
    · exact ⟨by decide, fun _ => by decide, by decide⟩
    · rcases List.mem_singleton.mp member with rfl
      exact ⟨by decide, fun _ => by decide, by decide⟩
  exact (web_messages_delivered messages sendable).1 sender receiver ⟨⟨.header, rfl⟩, rfl, rfl⟩
    ⟨rfl, rfl, quietSocket_listens⟩

end Crablib.DeliveryProofs
