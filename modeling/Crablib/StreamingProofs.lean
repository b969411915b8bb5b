import Crablib.DeliveryProofs

/-! Messages that the server streams in parts. Every part behind the first frame,
and the last one, has the opcode 0, which the header parser of the other end does
not support: the client takes each such message for a protocol error. -/
namespace Crablib.StreamingProofs
open Http SocketProofs FrameProofs ReceivingProofs ListenerProofs WebCallsProofs DeliveryProofs

/-- What the user of the server writes between the opcode and the last chunk. -/
inductive Part where
  | data (val : Bytes) (bo : BufferOptions)
  | string (ss : Bytes) (bo : BufferOptions)
  | control (message : WebMessage) (bo : BufferOptions)

namespace Part

/-- The part of the body that is written. -/
def chunk : Part → Bytes
  | data val _ => val
  | string ss _ => ss
  | control _ _ => []

/-- Only PING and PONG are written between the chunks. -/
def Allowed : Part → Prop
  | control message _ => message.opcode = .ping ∨ message.opcode = .pong
  | _ => True

def write (c : ServerConnection) : Part → Except Error ServerConnection
  | data val bo => c.writeData val bo
  | string ss bo => c.writeString ss bo
  | control message bo => c.writeMessage message bo

/-- What a part puts on the stream. -/
def bytes : Part → Bytes
  | data val _ => if val.length = 0 then [] else webMessageHeader false 0 val.length none ++ val
  | string ss _ => if ss.length = 0 then [] else webMessageHeader false 0 ss.length none ++ ss
  | control message _ =>
    webMessageHeader true message.opcode.toNat (payload message).length none ++ payload message

end Part

/-- `write(opcode)`, the parts, `write_last_chunk()`. -/
def streamMessage (c : ServerConnection) (opcode : WebMessageOpcode) (parts : List Part)
    (bo : BufferOptions) :
    Except Error ServerConnection := do
  let started ← c.writeOpcode opcode
  let written ← parts.foldlM Part.write started
  written.writeLastChunk bo

section Sender

/-- A server in the middle of a streamed message. -/
structure Streams (c : ServerConnection) : Prop where
  web : ∃ state, c.state = .web state
  writing : Writing c.sock
  streams : c.writingWebMessageBody = true

variable {c : ServerConnection}

/-- Bytes handed to the socket by one call. -/
private theorem writing_extends {s t : BufferedTcpSocket} {val : Bytes} (writing : Writing s)
    (extends_ : Extends s t (takes s val)) :
    Writing t ∧ stream t = stream s ++ val := by
  rw [takes_of_open writing.isOpen writing.unasked] at extends_
  exact ⟨⟨extends_.isOpen.trans writing.isOpen, extends_.asked.trans writing.unasked⟩, extends_.stream⟩

private theorem sendFrame_streams (streams : Streams c) {send : ServerConnection.Send}
    (sends : ∀ s val bo, Extends s (send s val bo) (takes s val)) (val : Bytes) (bo : BufferOptions) :
    ∃ d, c.writeBody send val bo = .ok d ∧ Streams d ∧
      stream d.sock = stream c.sock ++ if val.length = 0 then []
      else webMessageHeader false 0 val.length none ++ val := by
  obtain ⟨web, writing, streaming⟩ := streams
  have ok : c.writeBody send val bo = .ok (c.sendFrame send val bo) := by
    simp only [ServerConnection.writeBody, ServerConnection.isWritingBody, streaming,
      invariant, Bool.true_or]
    rfl
  refine ⟨_, ok, ?_⟩
  unfold ServerConnection.sendFrame
  split
  · exact ⟨⟨web, writing, streaming⟩, by simp⟩
  · obtain ⟨writing', first⟩ :=
      writing_extends writing (buffer_extends c.sock (webMessageHeader false 0 val.length none))
    obtain ⟨writing'', second⟩ := writing_extends writing' (sends _ val bo)
    exact ⟨⟨web, writing'', streaming⟩, by simp [first, second]⟩

private theorem write_streams (streams : Streams c) {part : Part} (allowed : part.Allowed) :
    ∃ d, part.write c = .ok d ∧ Streams d ∧ stream d.sock = stream c.sock ++ part.bytes := by
  cases part with
  | data val bo => exact sendFrame_streams streams write_extends val bo
  | string ss bo => exact sendFrame_streams streams writeString_extends ss bo
  | control message bo =>
    obtain ⟨⟨state, web⟩, writing, streaming⟩ := streams
    have control : ¬(message.opcode = .text ∨ message.opcode = .binary) ∧ message.opcode ≠ .close := by
      rcases allowed with ping | pong
      · simp [ping]
      · simp [pong]
    have opened : c.isOpen = true := by simp [ServerConnection.isOpen, writing.isOpen]
    have may : c.isStateWebsocket = true := by simp [ServerConnection.isStateWebsocket, web]
    have ok : c.writeMessage message bo = .ok (c.sendMessage message bo) := by
      simp only [ServerConnection.writeMessage, opened, may, control.1, invariant, decide_false,
        Bool.not_false, Bool.true_or]
      rfl
    obtain ⟨writing', wrote⟩ :=
      writing.writes (webMessageHeader true message.opcode.toNat (payload message).length none)
      (payload message) bo
    refine ⟨_, ok, ?_⟩
    simp only [ServerConnection.sendMessage, control.2, ↓reduceIte]
    exact ⟨⟨⟨state, web⟩, writing', streaming⟩, wrote⟩

private theorem writeParts_streams (streams : Streams c) (parts : List Part)
    (allowed : ∀ part ∈ parts, part.Allowed) :
    ∃ d, parts.foldlM Part.write c = .ok d ∧ Streams d ∧
      stream d.sock = stream c.sock ++ parts.flatMap Part.bytes := by
  induction parts generalizing c with
  | nil => exact ⟨c, rfl, streams, by simp⟩
  | cons part parts ih =>
    obtain ⟨mid, wrote, streams', first⟩ := write_streams streams (allowed part List.mem_cons_self)
    obtain ⟨d, rest, streams'', second⟩ :=
      ih streams' fun part member => allowed part (List.mem_cons_of_mem _ member)
    refine ⟨d, ?_, streams'', by rw [second, first]; simp⟩
    rw [List.foldlM_cons, wrote]
    exact rest

/-- What the server hands to its socket for a streamed message. -/
private theorem streamMessage_spec (sends : ServerSends c) {opcode : WebMessageOpcode}
    (data : opcode = .text ∨ opcode = .binary) {parts : List Part}
    (allowed : ∀ part ∈ parts, part.Allowed) (bo : BufferOptions) :
    ∃ d, streamMessage c opcode parts bo = .ok d ∧
      stream d.sock = stream c.sock ++
        (webMessageHeader false opcode.toNat 0 none ++
          (parts.flatMap Part.bytes ++ webMessageHeader true 0 0 none)) := by
  obtain ⟨⟨state, web⟩, writing, idle⟩ := sends
  obtain ⟨writing', first⟩ :=
    writing_extends writing (buffer_extends c.sock (webMessageHeader false opcode.toNat 0 none))
  have started : c.writeOpcode opcode = .ok { c with
      writingWebMessageBody := true
      sock := c.sock.buffer (webMessageHeader false opcode.toNat 0 none) } := by
    have opened : c.isOpen = true := by simp [ServerConnection.isOpen, writing.isOpen]
    have may : c.isStateWebsocket = true := by simp [ServerConnection.isStateWebsocket, web]
    have kind : (opcode == .text || opcode == .binary) = true := by simpa using data
    simp only [ServerConnection.writeOpcode, opened, may, kind, idle, invariant]
    rfl
  obtain ⟨mid, wrote, streams, second⟩ := writeParts_streams (c := { c with
    writingWebMessageBody := true, sock := c.sock.buffer (webMessageHeader false opcode.toNat 0 none) })
    ⟨⟨state, web⟩, writing', rfl⟩ parts allowed
  obtain ⟨-, third⟩ := writing_extends streams.writing
    (write_extends mid.sock (webMessageHeader true 0 0 none) bo)
  have last : mid.writeLastChunk bo = .ok (mid.sendLastFrame bo) := by
    simp only [ServerConnection.writeLastChunk, ServerConnection.isWritingBody, streams.streams,
      invariant, Bool.true_or]
    rfl
  refine ⟨mid.sendLastFrame bo, ?_, ?_⟩
  · simp only [streamMessage, started, bind, Except.bind, wrote, last]
  · simp only [ServerConnection.sendLastFrame, third, second, first]
    simp

end Sender

section Stream

/-- The header of a continuation is refused at its first byte. -/
private theorem refused_continuation (fin : Bool) (length : Nat) (rest : Bytes) :
    Refused (webMessageHeader fin 0 length none ++ rest) := by
  intro first later split
  have head : first = UInt8.ofNat ((if fin then 0x80 else 0) + 0) := by
    simp only [webMessageHeader, List.cons_append, List.cons.injEq] at split
    exact split.1.symm
  refine ⟨.runtime "Invalid opcode", ?_⟩
  subst head
  cases fin <;> decide

/-- Control frames, and then bytes that are refused. -/
def EndsRefused (bytes : Bytes) : Prop :=
  ∃ (frames : List Frame) (tail : Bytes), bytes = frames.flatMap Frame.bytes ++ tail ∧
    (∀ f ∈ frames, f.opcode = .ping ∨ f.opcode = .pong) ∧ Refused tail ∧ tail ≠ []

/-- The parts are control frames up to a continuation. -/
private theorem parts_refused (parts : List Part) (allowed : ∀ part ∈ parts, part.Allowed) :
    EndsRefused (parts.flatMap Part.bytes ++ webMessageHeader true 0 0 none) := by
  induction parts with
  | nil =>
    have refused := refused_continuation true 0 []
    rw [List.append_nil] at refused
    exact ⟨[], webMessageHeader true 0 0 none, rfl, by simp, refused, by simp [webMessageHeader]⟩
  | cons part parts ih =>
    obtain ⟨frames, tail, split, control, refused, some_⟩ :=
      ih fun part member => allowed part (List.mem_cons_of_mem _ member)
    have chunk :
        ∀ val : Bytes, part.bytes = (if val.length = 0 then []
        else webMessageHeader false 0 val.length none ++ val) →
        EndsRefused ((part :: parts).flatMap Part.bytes ++ webMessageHeader true 0 0 none) := by
      intro val same
      by_cases empty : val.length = 0
      · exact ⟨frames, tail, by simpa [same, empty] using split, control, refused, some_⟩
      · refine ⟨[], webMessageHeader false 0 val.length none ++
          (val ++ (parts.flatMap Part.bytes ++ webMessageHeader true 0 0 none)), ?_, by simp,
          refused_continuation false val.length _, by simp [webMessageHeader]⟩
        simp only [List.flatMap_cons, same, empty, ↓reduceIte, List.append_assoc,
          List.flatMap_nil, List.nil_append]
    cases part with
    | data val bo => exact chunk val rfl
    | string ss bo => exact chunk ss rfl
    | control message bo =>
      have kind : message.opcode = .ping ∨ message.opcode = .pong := allowed _ List.mem_cons_self
      have opcode : message.opcode ≠ .close := by rcases kind with ping | pong <;> simp_all
      have small : (payload message).length < 2 ^ 64 := by
        rcases kind with ping | pong
        · simp only [payload, ping, List.length_take]
          omega
        · simp only [payload, pong, List.length_take]
          omega
      obtain ⟨f, carries, key⟩ := exists_frame opcode small none
      have bytes : f.bytes = (Part.control message bo).bytes := by
        rw [Frame.bytes, Frame.header, masked, key, carries.1, carries.2.1, carries.2.2,
          Option.getD_none, maskData_zero]
        rfl
      refine ⟨f :: frames, tail, ?_, ?_, refused, some_⟩
      · rw [List.flatMap_cons, List.append_assoc, split, List.flatMap_cons, bytes, List.append_assoc]
      · intro g member
        rcases List.mem_cons.mp member with rfl | member
        · rwa [carries.2.1]
        · exact control g member

private theorem sound_control {frames : List Frame}
    (control : ∀ f ∈ frames, f.opcode = .ping ∨ f.opcode = .pong) (held : Option WebMessage) :
    Sound held frames := by
  induction frames with
  | nil => trivial
  | cons f frames ih =>
    simp only [Sound, control f List.mem_cons_self, ↓reduceIte]
    exact ih fun g member => control g (List.mem_cons_of_mem _ member)

end Stream

/-- What a streamed message should come to at the other end. -/
def Reassembled (opcode : WebMessageOpcode) (parts : List Part) (heard : List WebMessage)
    (failed : Bool) : Prop :=
  heard.map (fun m => (m.opcode, m.body)) = [(opcode, parts.flatMap Part.chunk)] ∧ failed = false

/-- However a message is streamed and whichever way its bytes are cut, a listening
client delivers nothing of it and takes it for a protocol error. -/
theorem streamed_never_reassembled (sender : ServerConnection) (receiver : ClientConnection)
    (opcode : WebMessageOpcode) (parts : List Part) (bo : BufferOptions)
    (sends : ServerSends sender) (listens : ClientListens receiver)
    (data : opcode = .text ∨ opcode = .binary) (allowed : ∀ part ∈ parts, part.Allowed) :
    ∃ sent, streamMessage sender opcode parts bo = .ok sent ∧
      ∀ events, stream sent.sock = stream sender.sock ++ arriving events →
        let heard := clientCalls.receiveAll receiver events
        heard.messages = [] ∧ heard.failed = true ∧
        ¬Reassembled opcode parts heard.messages heard.failed := by
  obtain ⟨sent, ok, wrote⟩ := streamMessage_spec sends data allowed bo
  refine ⟨sent, ok, fun events all => ?_⟩
  obtain ⟨frames, tail, split, control, refused, some_⟩ := parts_refused parts allowed
  -- the first frame has no body and is not the last one
  have kinds : opcode ≠ .ping ∧ opcode ≠ .pong ∧ opcode ≠ .close := by
    rcases data with text | binary <;> simp_all
  let start : Frame :=
    { fin := false, opcode := opcode, key := none, body := [], small := by decide,
      control := fun text binary => by simp_all }
  have whole : arriving events = (start :: frames).flatMap Frame.bytes ++ tail := by
    rw [List.append_cancel_left (all.symm.trans wrote), split]
    simp [start, Frame.bytes, Frame.header, masked]
  have sound : Sound none (start :: frames) := by
    simp only [Sound, start, kinds.1, kinds.2.1, or_self, Bool.false_eq_true, ↓reduceIte]
    exact ⟨trivial, kinds.2.2, sound_control control _⟩
  have silent : ∀ f ∈ start :: frames, delivers f = false := by
    intro f member
    rcases List.mem_cons.mp member with rfl | member
    · rfl
    · rcases control f member with ping | pong
      · simp [delivers, ping]
      · simp [delivers, pong]
  let l : Listener (List UInt32) :=
    ⟨.header, receiver.reader, receiver.readBuffer, receiver.sock, receiver.keys⟩
  obtain ⟨hears, nothing⟩ := listens.listening.hears (l := l) rfl sound refused
  rw [← whole, ← List.append_nil (arriving events)] at hears
  have settles := receiveAll_spec clientWrap events hears nothing
  have alike := receiveAll_follows client_follows (c := receiver) ⟨listens.state, rfl, rfl, rfl,
    rfl, listens.resolved⟩ events (.inl ⟨_, _, hears⟩)
  have result : (clientCalls.receiveAll receiver events).messages = [] ∧
      (clientCalls.receiveAll receiver events).failed = true := by
    rw [alike.messages, alike.failed]
    generalize (Listener.calls clientWrap).receiveAll l events = heard at settles
    cases settles with
    | waits done later split' hears' nothing' answered =>
      have owes := hears'.owes
      rw [atHand_nil nothing'] at owes
      exact absurd owes.done.2 some_
    | fails some_ deaf => exact ⟨delivered_silent silent, rfl⟩
  refine ⟨result.1, result.2, fun reassembled => ?_⟩
  have unfailed := reassembled.2
  rw [result.2] at unfailed
  cases unfailed

section Examples

private def streamer : ServerConnection := { state := .web .header, sock := quietSocket }

private def hearer : ClientConnection := { state := .web .header, sock := quietSocket }

private theorem hearer_listens : ClientListens hearer := ⟨rfl, rfl, quietSocket_listens⟩

theorem streamed_never_reassembled_text :
    ServerSends streamer ∧ ClientListens hearer ∧
      ∃ sent, streamMessage streamer .text [.data (str "a") .write] .write = .ok sent ∧
        ∀ events, stream sent.sock = stream streamer.sock ++ arriving events →
          let heard := clientCalls.receiveAll hearer events
          heard.messages = [] ∧ heard.failed = true ∧
            ¬Reassembled .text [.data (str "a") .write] heard.messages heard.failed :=
  have sends : ServerSends streamer := ⟨⟨.header, rfl⟩, ⟨rfl, rfl⟩, rfl⟩
  ⟨sends, hearer_listens,
    streamed_never_reassembled streamer hearer .text [.data (str "a") .write] .write sends hearer_listens
    (.inl rfl) (by simp [Part.Allowed])⟩

/-- The text "a" streamed in one chunk and received in one segment. -/
theorem streamed_text_refused :
    (∃ sent, streamMessage streamer .text [.data (str "a") .write] .write = .ok sent ∧
      stream sent.sock = stream streamer.sock ++
        arriving [([⟨0x01, [0x00, 0x00, 0x01, 0x61, 0x80, 0x00]⟩], false)]) ∧
    let heard := clientCalls.receiveAll hearer [([⟨0x01, [0x00, 0x00, 0x01, 0x61, 0x80, 0x00]⟩], false)]
    heard.messages = [] ∧ heard.failed = true ∧
    ¬Reassembled .text [.data (str "a") .write] heard.messages heard.failed := by
  have heard :
      (clientCalls.receiveAll hearer
      [([⟨0x01, [0x00, 0x00, 0x01, 0x61, 0x80, 0x00]⟩], false)]).messages = [] ∧
      (clientCalls.receiveAll hearer
      [([⟨0x01, [0x00, 0x00, 0x01, 0x61, 0x80, 0x00]⟩], false)]).failed = true := by
    decide +kernel
  refine ⟨⟨_, rfl, by decide +kernel⟩, heard.1, heard.2, fun reassembled => ?_⟩
  have unfailed := reassembled.2
  rw [heard.2] at unfailed
  cases unfailed

end Examples

end Crablib.StreamingProofs
