import Crablib.ServerEndProofs

/-! An open connection in web-socket mode. Every operation is made of a few
elementary steps, so what these do, and what is carried from step to step, is
what the operation does. -/
namespace Crablib.WebModeProofs
open Http ServerConnection ServerRun SocketProofs InboundProofs ServerConnectionProofs
open ServerEndProofs

variable {c d : ServerConnection}

structure Talking (c : ServerConnection) : Prop where
  opened : c.isOpen = true
  web : c.isStateWebsocket = true

theorem Talking.notHeader (talking : Talking c) : c.state ≠ .responseHeader := by
  intro http
  have web := talking.web
  simp [isStateWebsocket, http] at web

theorem Talking.notBody (talking : Talking c) : c.state ≠ .responseBody := by
  intro http
  have web := talking.web
  simp [isStateWebsocket, http] at web

/-- A step that hands nothing to the socket. -/
structure Silent (c d : ServerConnection) : Prop where
  talking : Talking d
  stream : stream d.sock = stream c.sock
  asked : c.sock.writeShutdownAsked = true → d.sock.writeShutdownAsked = true
  writing : d.writingWebMessageBody = c.writingWebMessageBody

theorem Silent.refl (talking : Talking c) : Silent c c := ⟨talking, rfl, id, rfl⟩

/-- What the user hands over for sending. -/
def content : ServerOp → Bytes
  | .writeMessage message _ => message.body
  | .writeData val _ => val
  | .writeString ss _ => ss
  | _ => []

/-- The elementary steps of a connection that talks, for payloads that fit. -/
structure WebRule (fits : Bytes → Prop) (R : ServerConnection → ServerConnection → Prop) : Prop where
  short : ∀ val : Bytes, val.length ≤ 125 → fits val
  trans : ∀ {c d e : ServerConnection}, R c d → R d e → R c e
  silent : ∀ {c d : ServerConnection}, Silent c d → R c d
  message : ∀ {c d : ServerConnection} {message : WebMessage} {bo : BufferOptions}, Talking c →
    fits (payload message) → c.writeMessage message bo = .ok d → R c d
  opcode : ∀ {c d : ServerConnection} {opcode : WebMessageOpcode}, Talking c →
    c.writeOpcode opcode = .ok d → R c d
  frame : ∀ {c : ServerConnection} {send : Send} {val : Bytes} {bo : BufferOptions},
    (∀ s, Extends s (send s val bo) (takes s val)) → Talking c →
    c.writingWebMessageBody = true → fits val →
    R c (c.sendFrame send val bo)
  last : ∀ {c : ServerConnection} {bo : BufferOptions}, Talking c → c.writingWebMessageBody = true →
    R c (c.sendLastFrame bo)

/-- The connection was closed, and nothing was handed to the socket before. -/
def Ended (c d : ServerConnection) : Prop :=
  (∃ e : ServerConnection, d = e.close) ∧ stream d.sock <+: stream c.sock

section Rule

variable {fits : Bytes → Prop} {R : ServerConnection → ServerConnection → Prop}

/-- The connection still talks, and the relation holds of what was done. -/
def Moved (R : ServerConnection → ServerConnection → Prop)
    (c d : ServerConnection) : Prop := Talking d ∧ R c d

private theorem WebRule.stay (rule : WebRule fits R) (talking : Talking c) : Moved R c c :=
  ⟨talking, rule.silent (.refl talking)⟩

private theorem WebRule.next (rule : WebRule fits R) {e : ServerConnection} (first : Moved R c d)
    (second : Moved R d e) :
    Moved R c e := ⟨second.1, rule.trans first.2 second.2⟩

private theorem talking_of_extends {bytes : Bytes} (talking : Talking c)
    (extends_ : Extends c.sock d.sock bytes) (web : d.isStateWebsocket = true) : Talking d :=
  ⟨extends_.isOpen.trans talking.opened, web⟩

private theorem moved_message (rule : WebRule fits R) {message : WebMessage}
    {bo : BufferOptions} (talking : Talking c) (fit : fits (payload message))
    (done : c.writeMessage message bo = .ok d) : Moved R c d := by
  refine ⟨?_, rule.message talking fit done⟩
  obtain ⟨-, rfl⟩ | ⟨-, -, rfl⟩ := writeMessage_ok done
  · exact talking
  · have sent := (buffer_extends c.sock
      (webMessageHeader true message.opcode.toNat (payload message).length none)).trans
      (writeString_extends _ (payload message) bo)
    simp only [sendMessage]
    split
    · exact ⟨((writeShutdown_keeps _).2.trans sent.isOpen).trans talking.opened, talking.web⟩
    · exact talking_of_extends talking sent talking.web

private theorem moved_body (rule : WebRule fits R) {send : Send} {val : Bytes} {bo : BufferOptions}
    (sends : ∀ s, Extends s (send s val bo) (takes s val)) (talking : Talking c) (fit : fits val)
    (done : c.writeBody send val bo = .ok d) : Moved R c d := by
  obtain ⟨writing, rfl⟩ | ⟨-, http, -⟩ := writeBody_ok done
  · refine ⟨?_, rule.frame sends talking writing fit⟩
    unfold sendFrame
    split
    · exact talking
    · exact talking_of_extends talking ((buffer_extends _ _).trans (sends _)) talking.web
  · exact absurd http talking.notBody

/-- What a received chunk makes the connection send is short. -/
private theorem moved_readWebMessage (rule : WebRule fits R) (talking : Talking c) (state : WebState) :
    Moved R c (c.readWebMessage state).2 := by
  have here : ∀ reader b state',
      Moved R c { c with state := .web state', reader := reader, readBuffer := b } := by
    intro reader b state'
    have talking' : Talking { c with state := .web state', reader := reader, readBuffer := b } :=
      ⟨talking.opened, rfl⟩
    exact ⟨talking', rule.silent ⟨talking', rfl, id, rfl⟩⟩
  simp only [readWebMessage]
  split
  · exact here _ _ _
  · exact here _ _ _
  · exact here _ _ _
  · split
    · exact here _ _ _
    · rename_i written
      have pong := here (c.reader.read state c.readBuffer).2.2.1 (c.reader.read state c.readBuffer).2.2.2
        (c.reader.read state c.readBuffer).2.1
      exact rule.next pong (moved_message rule pong.1
        (rule.short _ (by simp only [payload, List.length_take]; omega)) written)
  · split
    · exact here _ _ _
    · rename_i written
      have closing := here (c.reader.read state c.readBuffer).2.2.1
        (c.reader.read state c.readBuffer).2.2.2 (c.reader.read state c.readBuffer).2.1
      exact rule.next closing
        (moved_message rule closing.1
        (rule.short _ (by simp only [payload, List.length_take]; omega)) written)

private theorem moved_turn (rule : WebRule fits R) (talking : Talking c) : Moved R c c.turn.2 := by
  obtain ⟨b, sock, quiet, stopped | switched⟩ := turn_cases c
  all_goals
    have talking' : Talking { c with readBuffer := b, sock := sock } :=
      ⟨quiet.isOpen.trans talking.opened, talking.web⟩
    have read : Moved R c { c with readBuffer := b, sock := sock } :=
      ⟨talking', rule.silent ⟨talking', quiet.stream, quiet.asked.trans, rfl⟩⟩
  · rwa [stopped]
  · rw [switched]
    refine rule.next read ?_
    have web := talking.web
    unfold switchState
    split
    · rename_i http
      have http' : c.state = .requestHeader := http
      simp [isStateWebsocket, http'] at web
    · rename_i http
      have http' : c.state = .requestBody := http
      simp [isStateWebsocket, http'] at web
    · exact moved_readWebMessage rule talking' _
    · exact moved_readWebMessage rule talking' _
    · exact rule.stay talking'

private theorem moved_advanceState (rule : WebRule fits R) (talking : Talking c) :
    Moved R c c.advanceState.2 := by
  refine advanceState_preserves (P := Moved R c) (fun d moved => ?_)
    (fun d e next moved thrown => ?_) (rule.stay talking)
  · exact rule.next moved (moved_turn rule moved.1)
  · have turned := moved_turn rule moved.1
    rw [thrown] at turned
    obtain ⟨same, open_⟩ := writeShutdown_keeps next.sock
    have talking' : Talking next.onException := ⟨open_.trans turned.1.opened, turned.1.web⟩
    refine rule.next (rule.next moved turned) ⟨talking',
      rule.silent ⟨talking', same, fun asked => ?_, rfl⟩⟩
    have asked' : next.sock.writeShutdownAsked = true := asked
    simp [onException, BufferedTcpSocket.writeShutdown, asked']

private theorem close_stream (c : ServerConnection) : stream c.close.sock <+: stream c.sock := by
  refine ⟨unsent c.sock.dataToWrite, ?_⟩
  simp [stream, ServerConnection.close, BufferedTcpSocket.close, unsent]

private theorem ended_close (c : ServerConnection) : Ended c c.close := ⟨⟨c, rfl⟩, close_stream c⟩

/-- A socket that is open stays so through its event; a broken one is closed. -/
private theorem sockHandler_ended (s : BufferedTcpSocket) (closed : s.sockHandler.isOpen = false) :
    s.sockHandler.sock.descriptor.sent = s.sock.descriptor.sent := by
  unfold BufferedTcpSocket.sockHandler at closed ⊢
  split at closed
  · rename_i open_
    have flushed := (flush_extends s).isOpen.trans open_
    simp only at closed
    split at closed
    · have still : (s.flush.sock.readSome 4096).2.isOpen = true :=
        (readSome_received s.flush.sock 4096).isOpen.trans flushed
      exact absurd (still.symm.trans closed) (by simp)
    · exact absurd (flushed.symm.trans closed) (by simp)
  · rename_i broken
    rw [if_neg broken]
    simp [BufferedTcpSocket.close]

private theorem dispatch_rule (rule : WebRule fits R) (talking : Talking c) :
    Ended c c.dispatch.2 ∨ Moved R c c.dispatch.2 := by
  unfold dispatch
  split
  · unfold ServerConnection.sockHandler
    split
    · rename_i closed
      have closed' : c.socketEvent.sock.isOpen = false := by simpa [isOpen] using closed
      have sent : c.socketEvent.sock.sock.descriptor.sent = c.sock.sock.descriptor.sent :=
        sockHandler_ended { c.sock with sock.pending := false } closed'
      refine .inl ⟨⟨_, rfl⟩, unsent c.sock.dataToWrite, ?_⟩
      simpa [stream, ServerConnection.close, BufferedTcpSocket.close, unsent] using sent
    · rename_i open_
      have open' : c.socketEvent.sock.isOpen = true := by simpa [isOpen] using open_
      have spec := sockHandler_keeps { c.sock with sock.pending := false } open'
      have talking' : Talking c.socketEvent := ⟨open', talking.web⟩
      have flushed : Moved R c c.socketEvent :=
        ⟨talking', rule.silent ⟨talking', spec.2, spec.1.trans, rfl⟩⟩
      split
      · exact .inr flushed
      · exact .inr (rule.next flushed (moved_advanceState rule talking'))
  · exact .inr (rule.stay talking)

private theorem payload_fits (rule : WebRule fits R) (message : WebMessage)
    (fit : fits message.body) : fits (payload message) := by
  unfold payload
  split
  · exact fit
  · exact fit
  · exact rule.short _ (by simp only [List.length_take]; omega)
  · exact rule.short _ (by simp only [List.length_take]; omega)
  · exact rule.short _ (by simp only [List.length_take]; omega)

/-- No operation leads from web-socket mode back to requests, and each is made
of elementary steps. -/
theorem perform_webRule (rule : WebRule fits R) (talking : Talking c) (op : ServerOp)
    (same : reopens op = false) (fit : fits (content op)) :
    Ended c (perform c op).conn ∨ Moved R c (perform c op).conn := by
  have stay := rule.stay talking
  cases op with
  | accept accepted =>
    cases accepted with
    | missing => exact .inl (ended_close c)
    | ready => simp [reopens] at same
    | refused => simp [reopens] at same
  | close => exact .inl (ended_close c)
  | readNextRequest =>
    have unready : c.state ≠ .requestReady := by
      intro http
      have web := talking.web
      simp [isStateWebsocket, http] at web
    simpa [perform, readNextRequest, unready] using .inr stay
  | readNextMessage =>
    right
    simp only [perform, readNextMessage]
    split
    · exact stay
    · have talking' : Talking c.takeMessage := ⟨talking.opened, rfl⟩
      have taken : Moved R c c.takeMessage := ⟨talking', rule.silent ⟨talking', rfl, id, rfl⟩⟩
      exact rule.next taken (moved_advanceState rule talking')
  | webSocketUpgrade =>
    refine .inr (settle_conn stay fun d done => ?_)
    obtain ⟨-, rfl⟩ | ⟨-, http, -⟩ := webSocketUpgrade_ok done
    · exact stay
    · exact absurd http talking.notHeader
  | writeResponse resp =>
    right
    rw [perform, settleAfter_conn]
    obtain unchanged | ⟨withHeader, header, -⟩ := writeResponse_parts c resp
    · rwa [unchanged]
    · obtain ⟨closed, -⟩ | ⟨-, http, -⟩ := writeHeader_ok header
      · simp [talking.opened] at closed
      · exact absurd http talking.notHeader
  | writeHeader resp bo =>
    refine .inr (settle_conn stay fun d done => ?_)
    obtain ⟨-, rfl⟩ | ⟨-, http, -⟩ := writeHeader_ok done
    · exact stay
    · exact absurd http talking.notHeader
  | writeMessage message bo =>
    exact .inr (settle_conn stay fun d => moved_message rule talking (payload_fits rule message fit))
  | writeOpcode opcode =>
    refine .inr (settle_conn stay fun d done => ⟨?_, rule.opcode talking done⟩)
    obtain ⟨-, rfl⟩ | ⟨-, -, -, rfl⟩ := writeOpcode_ok done
    · exact talking
    · exact talking_of_extends talking (buffer_extends _ _) talking.web
  | writeData val bo =>
    exact .inr (settle_conn stay fun d => moved_body rule (fun s => write_extends s val bo) talking fit)
  | writeString ss bo =>
    exact .inr (settle_conn stay fun d =>
      moved_body rule (fun s => writeString_extends s ss bo) talking fit)
  | writeLastChunk bo =>
    refine .inr (settle_conn stay fun d done => ?_)
    obtain ⟨writing, rfl⟩ | ⟨-, http, -⟩ := writeLastChunk_ok done
    · exact ⟨talking_of_extends talking (write_extends _ _ bo) talking.web, rule.last talking writing⟩
    · exact absurd http talking.notBody
  | arrive arrivals =>
    right
    simp only [perform, TcpSocket.arrive]
    split
    · exact ⟨⟨talking.opened, talking.web⟩, rule.silent ⟨⟨talking.opened, talking.web⟩, rfl, id, rfl⟩⟩
    · exact stay
  | plan sends =>
    exact .inr ⟨⟨talking.opened, talking.web⟩, rule.silent ⟨⟨talking.opened, talking.web⟩, rfl, id, rfl⟩⟩
  | notify canRead canWrite =>
    right
    simp only [perform, TcpSocket.notify]
    split
    · have opened : (c.sock.sock.addPendingCallable canRead canWrite).isOpen = true := by
        simp [TcpSocket.isOpen, TcpSocket.addPendingCallable]
      exact ⟨⟨opened, talking.web⟩, rule.silent ⟨⟨opened, talking.web⟩, rfl, id, rfl⟩⟩
    · exact stay
  | dispatch => exact dispatch_rule rule talking
  | pingTimer =>
    refine .inr (settle_conn stay fun d done => ?_)
    obtain rfl | ⟨pinged, rfl, rfl | sent⟩ := onWmPingTimer_ok done
    · exact stay
    · have extends_ := writeString_extends c.sock [] .write
      have nothing : takes c.sock [] = [] := by simp [takes]
      have opened := extends_.isOpen.trans talking.opened
      refine ⟨⟨opened, talking.web⟩, rule.silent ⟨⟨opened, talking.web⟩, ?_, extends_.asked.trans, rfl⟩⟩
      simpa [nothing] using extends_.stream
    · have waiting : Talking { c with wmPingTimer := false } := ⟨talking.opened, talking.web⟩
      have reset : Moved R c { c with wmPingTimer := false } :=
        ⟨waiting, rule.silent ⟨waiting, rfl, id, rfl⟩⟩
      have pinged' := moved_message rule waiting (rule.short _ (by simp [payload])) sent
      have again : Talking { pinged with wmPingTimer := true } := ⟨pinged'.1.opened, pinged'.1.web⟩
      exact rule.next (rule.next reset pinged') ⟨again, rule.silent ⟨again, rfl, id, rfl⟩⟩
  | shutdownTimer =>
    simp only [perform, shutdownTimerHandler]
    split
    · left
      have closed : (c.sock.shutdownTimerHandler).isOpen = false := close_isOpen_false _
      simp only [ServerConnection.sockHandler, isOpen, closed, Bool.not_false, ↓reduceIte]
      refine ⟨⟨_, rfl⟩, unsent c.sock.dataToWrite, ?_⟩
      simp [stream, ServerConnection.close, BufferedTcpSocket.shutdownTimerHandler,
        BufferedTcpSocket.close, unsent]
    · exact .inr stay

end Rule

end Crablib.WebModeProofs
