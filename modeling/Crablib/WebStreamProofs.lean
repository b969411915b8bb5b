import Crablib.HearingProofs
import Crablib.RequestStreamProofs

/-! The web messages a server connection delivers are the messages in the bytes behind
the request that was upgraded: the upgrade takes no byte of them, and nothing that the
user, the kernel or the timers do changes what they are. -/
namespace Crablib.WebStreamProofs
open Http ServerConnection ServerRun StreamsProofs SocketProofs ArrivalProofs Cutting HearingProofs
open ServerConnectionProofs ServerEndProofs PairingProofs
open RequestStreamProofs (Received receive reached requestCutter)
open EndpointProofs (server server_models)

variable {c d : ServerConnection} {base arrived : Bytes} {left : Option WebMessage}
    {delivered : List WebMessage}

section Upgrade
open Exchange (Entry Phase advance)

def isUpgrade : Entry → Bool
  | .upgrade _ => true
  | _ => false

/-- Only the upgrade leads to web messages. -/
private theorem advance_upgraded {phase next : Phase} {e : Entry} (http : phase ≠ .upgraded)
    (plain : isUpgrade e = false) (accepted : advance phase e = some next) : next ≠ .upgraded := by
  rintro rfl
  cases phase <;> cases e <;> simp_all [advance, isUpgrade, Exchange.started] <;>
    split at accepted <;> simp_all

private theorem run_upgraded {phase next : Phase} {log : List Entry} (http : phase ≠ .upgraded)
    (plain : ∀ e ∈ log, isUpgrade e = false) (accepted : Exchange.run phase log = some next) :
    next ≠ .upgraded := by
  induction log generalizing phase with
  | nil =>
    cases accepted
    exact http
  | cons e log ih =>
    rw [Exchange.run_cons, Option.bind_eq_some_iff] at accepted
    obtain ⟨middle, first, rest⟩ := accepted
    exact ih (advance_upgraded http (plain e List.mem_cons_self) first) (fun e' member =>
      plain e' (List.mem_cons_of_mem e member)) rest

private theorem ifReturned_plain {result : Except Error ServerConnection}
    {log : ServerConnection → List Entry} (plain : ∀ d, ∀ e ∈ log d, isUpgrade e = false) :
    ∀ e ∈ ifReturned result log, isUpgrade e = false := by
  unfold ifReturned
  split
  · exact plain _
  · simp

private theorem headerEntries_plain (c : ServerConnection) (resp : ResponseHeader) :
    ∀ e ∈ headerEntries c resp, isUpgrade e = false := by
  unfold headerEntries
  split <;> simp [isUpgrade]

private theorem bodyEntries_plain (c : ServerConnection) (val : Bytes) :
    ∀ e ∈ bodyEntries c val, isUpgrade e = false := by
  unfold bodyEntries
  repeat' split
  all_goals simp [isUpgrade]

private theorem responseEntries_plain (c : ServerConnection) (resp : Response) :
    ∀ e ∈ responseEntries c resp, isUpgrade e = false := by
  simp only [responseEntries]
  split
  · simp
  · refine ifReturned_plain fun withHeader e member =>
      (List.mem_append.mp member).elim (headerEntries_plain c resp.header e) ?_
    refine ifReturned_plain (fun withBody e member =>
      (List.mem_append.mp member).elim (bodyEntries_plain withHeader resp.body e) ?_) e
    intro member
    split at member
    · have plain : ∀ d : ServerConnection, ∀ e ∈ (fun _ => lastEntries) d, isUpgrade e = false :=
        fun d e member => by simp_all [lastEntries, isUpgrade]
      exact ifReturned_plain plain e member
    · simp at member

/-- A connection comes to web messages by the call alone, from between a request and
its response. -/
theorem upgraded (mode : Mode c) (http : c.isStateWebsocket = false) {op : ServerOp}
    (same : reopens op = false) (web : (perform c op).conn.isStateWebsocket = true) :
    op = .webSocketUpgrade ∧ c.isOpen = true ∧ c.state = .responseHeader ∧
      c.requestParser.req.isWebsocketUpgrade = true ∧ (perform c op).conn = c.sendUpgrade := by
  by_cases upgrade : op = .webSocketUpgrade
  · subst upgrade
    refine ⟨rfl, ?_⟩
    simp only [perform] at web ⊢
    cases done : c.webSocketUpgrade with
    | error e => simp [done, settle, http] at web
    | ok d =>
      obtain ⟨-, rfl⟩ | ⟨opened, state, asked, rfl⟩ := webSocketUpgrade_ok done
      · simp [done, settle, http] at web
      · exact ⟨opened, state, asked, rfl⟩
  · exfalso
    rcases mode with dead | serving | ⟨-, already⟩
    · have closed := (perform_dead dead op same).1
      simp [isStateWebsocket, closed.state] at web
    · rcases perform_serving serving op same with ⟨closed, -⟩ | step | ⟨-, -, -, accepted⟩
      · simp [isStateWebsocket, closed.state] at web
      · rw [step.serving.http] at web
        cases web
      · have phase : ∀ {c : ServerConnection}, phaseOf c = .upgraded ↔ c.isStateWebsocket = true := by
          intro c
          cases state : c.state <;> simp [phaseOf, isStateWebsocket, state]
          cases c.remainingBodyContentLength <;> simp [Exchange.started]
        refine run_upgraded (fun idle => ?_) ?_ accepted (phase.mpr web)
        · rw [phase.mp idle] at http
          cases http
        · intro e member
          simp only [entries, http, Bool.false_eq_true, ↓reduceIte] at member
          split at member
          · split at member <;> simp_all [isUpgrade]
          · exact absurd rfl upgrade
          · exact responseEntries_plain c _ e member
          · exact ifReturned_plain (fun d => headerEntries_plain c _) e member
          · exact ifReturned_plain (fun d => bodyEntries_plain c _) e member
          · exact ifReturned_plain (fun d => bodyEntries_plain c _) e member
          · exact ifReturned_plain (fun d e member => by simp_all [lastEntries, isUpgrade]) e member
          · cases member
    · rw [http] at already
      cases already

end Upgrade

section Web

/-- An open connection that hears web messages. -/
structure HearsWeb (base arrived : Bytes) (left : Option WebMessage) (delivered : List WebMessage)
    (c : ServerConnection) : Prop where
  opened : c.isOpen = true
  hears : ∃ state, c.state = .web state ∧ Hears base arrived left delivered (ear server c state)

theorem HearsWeb.web (hears : HearsWeb base arrived left delivered c) : c.isStateWebsocket = true := by
  obtain ⟨state, web, -⟩ := hears.hears
  simp [isStateWebsocket, web]

/-- What writes leave alone. -/
private theorem HearsWeb.writes {bytes : Bytes} (hears : HearsWeb base arrived left delivered c)
    (extends_ : Extends c.sock d.sock bytes) (state : d.state = c.state) (reader : d.reader = c.reader)
    (buffer : d.readBuffer = c.readBuffer) : HearsWeb base arrived left delivered d := by
  obtain ⟨opened, web, here, heard⟩ := hears
  refine ⟨extends_.isOpen.trans opened, web, state.trans here, ?_⟩
  have moved := heard.extends_ extends_
  simp only [ear, server] at moved ⊢
  rwa [reader, buffer]

/-- A message that is sent, and the last one. -/
private theorem HearsWeb.sendMessage (hears : HearsWeb base arrived left delivered c)
    (message : WebMessage) (bo : BufferOptions) :
    HearsWeb base arrived left delivered (c.sendMessage message bo) := by
  have sent := (buffer_extends c.sock
    (webMessageHeader true message.opcode.toNat (payload message).length none)).trans
    (writeString_extends _ (payload message) bo)
  simp only [ServerConnection.sendMessage]
  split
  · obtain ⟨opened, web, here, heard⟩ := hears
    refine ⟨((writeShutdown_keeps _).2.trans sent.isOpen).trans opened, web, here, ?_⟩
    exact heard.silence (contents_clear _) (shut_writeShutdown _)
  · exact hears.writes (d := { c with
      sock := (c.sock.buffer (webMessageHeader true message.opcode.toNat (payload message).length
        none)).writeString (payload message) bo
      wmPingTimer := c.wmPingTimer || bo = .write }) sent rfl rfl rfl

private theorem HearsWeb.writeMessage {message : WebMessage} {bo : BufferOptions}
    (hears : HearsWeb base arrived left delivered c) (done : c.writeMessage message bo = .ok d) :
    HearsWeb base arrived left delivered d := by
  obtain ⟨-, rfl⟩ | ⟨-, -, rfl⟩ := writeMessage_ok done
  · exact hears
  · exact hears.sendMessage message bo

private theorem HearsWeb.onException (hears : HearsWeb base arrived left delivered c) :
    HearsWeb base arrived left delivered c.onException := by
  obtain ⟨opened, web, here, heard⟩ := hears
  exact ⟨(writeShutdown_keeps _).2.trans opened, web, here,
    heard.silence (contents_clear _) (shut_writeShutdown _)⟩

private theorem readWebMessage_hears {used text : Bytes} {chunks : List WebChunk} {state : WebState}
    (opened : c.isOpen = true)
    (listening : Listening base arrived left delivered (ear server c state) used chunks text)
    (unready : state ≠ .ready) :
    server.Caught (HearsWeb base arrived left delivered) (c.readWebMessage state) := by
  refine readWebMessage_caught server_models listening unready ?_ ?_ ?_
    HearsWeb.writeMessage HearsWeb.onException
  · intro next w b heard
    exact ⟨opened, next, rfl, heard⟩
  · intro next w b silenced
    exact ⟨(writeShutdown_keeps _).2.trans opened, next, rfl,
      silenced (contents_clear _) (shut_writeShutdown _)⟩
  · intro next w b d silenced done
    obtain ⟨closed, -⟩ | ⟨-, -, rfl⟩ := writeMessage_ok done
    · have same : c.isOpen = false := closed
      rw [opened] at same
      cases same
    · have sent := (buffer_extends c.sock (webMessageHeader true WebMessageOpcode.close.toNat
        (payload { opcode := .close, closeCode := WebMessage.closeStatusNotUtf8 }).length none)).trans
        (writeString_extends _ (payload
          { opcode := .close, closeCode := WebMessage.closeStatusNotUtf8 }) .write)
      exact ⟨((writeShutdown_keeps _).2.trans sent.isOpen).trans opened, next, rfl,
        silenced (contents_clear _) (shut_writeShutdown _)⟩

private theorem switchState_hears {used text : Bytes} {chunks : List WebChunk} {state : WebState}
    (opened : c.isOpen = true) (web : c.state = .web state)
    (listening : Listening base arrived left delivered (ear server c state) used chunks text) :
    server.Caught (HearsWeb base arrived left delivered) c.switchState := by
  cases state with
  | header => simpa only [switchState, web] using readWebMessage_hears opened listening (by simp)
  | body => simpa only [switchState, web] using readWebMessage_hears opened listening (by simp)
  | ready =>
    simp only [switchState, web]
    exact ⟨opened, .ready, web, listening.hears⟩

private theorem turn_hears (hears : HearsWeb base arrived left delivered c) :
    server.Caught (HearsWeb base arrived left delivered) c.turn := by
  obtain ⟨opened, state, web, heard⟩ := hears
  refine turn_caught server_models heard ?_ ?_
  · intro b t quiet heard'
    exact ⟨quiet.isOpen.trans opened, state, web, heard'⟩
  · intro b t quiet used chunks text listening
    exact switchState_hears (c := { c with readBuffer := b, sock := t })
      (quiet.isOpen.trans opened) web listening

private theorem HearsWeb.advanceState (hears : HearsWeb base arrived left delivered c) :
    HearsWeb base arrived left delivered c.advanceState.2 :=
  server_models.caught (fun _ => turn_hears) hears

private theorem HearsWeb.writeBody {send : Send} {val : Bytes} {bo : BufferOptions}
    (sends : ∀ s, Extends s (send s val bo) (takes s val))
    (hears : HearsWeb base arrived left delivered c) (done : c.writeBody send val bo = .ok d) :
    HearsWeb base arrived left delivered d := by
  obtain ⟨-, rfl⟩ | ⟨-, http, -⟩ := writeBody_ok done
  · unfold sendFrame
    split
    · exact hears
    · exact hears.writes (d := { c with
        sock := send (c.sock.buffer (webMessageHeader false 0 val.length none)) val bo
        wmPingTimer := c.wmPingTimer || bo = .write }) ((buffer_extends _ _).trans (sends _)) rfl rfl rfl
  · have web := hears.web
    simp [isStateWebsocket, http] at web

private theorem dispatch_hears (hears : HearsWeb base arrived left delivered c) :
    Dead c.dispatch.2 ∨ HearsWeb base arrived left delivered c.dispatch.2 := by
  unfold dispatch
  split
  · unfold ServerConnection.sockHandler
    split
    · exact .inl (dead_close _)
    · rename_i opened
      obtain ⟨-, state, web, heard⟩ := hears
      have unlinked :
          Hears base arrived left delivered (ear server { c with sock.sock.pending := false } state) :=
        heard.keep rfl rfl rfl
      have handled : HearsWeb base arrived left delivered c.socketEvent :=
        ⟨by simpa using opened, state, web, unlinked.sockHandler⟩
      split
      · exact .inr handled
      · exact .inr handled.advanceState
  · exact .inr hears

/-- An operation of a connection that hears web messages. -/
theorem perform_hears (hears : HearsWeb base arrived left delivered c) (op : ServerOp)
    (same : reopens op = false) :
    (perform c op).message = none ∧ Dead (perform c op).conn ∨
      HearsWeb base (arrived ++ reached c op) left (delivered ++ (perform c op).message.toList)
        (perform c op).conn := by
  have stay : HearsWeb base (arrived ++ []) left (delivered ++ []) c := by simpa using hears
  have settled : ∀ {result : Except Error ServerConnection},
      (∀ d, result = .ok d → HearsWeb base arrived left delivered d) →
        HearsWeb base (arrived ++ []) left (delivered ++ (settle c result).message.toList)
          (settle c result).conn := by
    intro result after
    cases result with
    | error e => exact stay
    | ok d => simpa [settle] using after d rfl
  have web := hears.web
  cases op with
  | accept accepted =>
    cases accepted with
    | missing => exact .inl ⟨rfl, dead_close c⟩
    | ready => simp [reopens] at same
    | refused => simp [reopens] at same
  | close => exact .inl ⟨rfl, dead_close c⟩
  | readNextRequest =>
    have unready : c.state ≠ .requestReady := by
      intro http
      simp [isStateWebsocket, http] at web
    simpa [perform, readNextRequest, unready, reached] using .inr hears
  | readNextMessage =>
    right
    simp only [perform, readNextMessage, reached, List.append_nil]
    split
    · simpa using hears
    · rename_i taken
      obtain ⟨opened, state, here, heard⟩ := hears
      have ready : state = .ready := by simp_all
      have took :
          HearsWeb base arrived left (delivered ++ [c.reader.webMessage.getD {}]) c.takeMessage :=
        ⟨opened, .header, rfl, heard.take ready⟩
      exact took.advanceState
  | webSocketUpgrade =>
    refine .inr (settled fun d done => ?_)
    obtain ⟨-, rfl⟩ | ⟨-, http, -⟩ := webSocketUpgrade_ok done
    · exact hears
    · simp [isStateWebsocket, http] at web
  | writeResponse resp =>
    right
    have unchanged : (c.writeResponse resp).2 = c := by
      obtain unchanged | ⟨withHeader, header, -⟩ := writeResponse_parts c resp
      · exact unchanged
      · obtain ⟨closed, -⟩ | ⟨-, http, -⟩ := writeHeader_ok header
        · simp [hears.opened] at closed
        · simp [isStateWebsocket, http] at web
    have none : (settleAfter (c.writeResponse resp)).message = none := by
      unfold settleAfter
      split <;> rfl
    simpa [perform, unchanged, reached, none] using hears
  | writeHeader resp bo =>
    refine .inr (settled fun d done => ?_)
    obtain ⟨-, rfl⟩ | ⟨-, http, -⟩ := writeHeader_ok done
    · exact hears
    · simp [isStateWebsocket, http] at web
  | writeMessage message bo => exact .inr (settled fun d => hears.writeMessage)
  | writeOpcode opcode =>
    refine .inr (settled fun d done => ?_)
    obtain ⟨-, rfl⟩ | ⟨-, -, -, rfl⟩ := writeOpcode_ok done
    · exact hears
    · exact hears.writes (buffer_extends _ _) rfl rfl rfl
  | writeData val bo => exact .inr (settled fun d => hears.writeBody fun s => write_extends s val bo)
  | writeString ss bo =>
    exact .inr (settled fun d => hears.writeBody fun s => writeString_extends s ss bo)
  | writeLastChunk bo =>
    refine .inr (settled fun d done => ?_)
    obtain ⟨-, rfl⟩ | ⟨-, http, -⟩ := writeLastChunk_ok done
    · exact hears.writes (write_extends _ _ bo) rfl rfl rfl
    · simp [isStateWebsocket, http] at web
  | arrive arrivals =>
    right
    obtain ⟨opened, state, here, heard⟩ := hears
    rw [show (perform c (.arrive arrivals)).message.toList = [] from rfl, List.append_nil]
    refine ⟨?_, state, here, heard.arrive arrivals⟩
    simpa [perform, isOpen, BufferedTcpSocket.isOpen, TcpSocket.isOpen, TcpSocket.arrive,
      apply_ite] using opened
  | plan sends =>
    right
    obtain ⟨opened, state, here, heard⟩ := hears
    have planned : HearsWeb base arrived left delivered { c with sock.sock := c.sock.sock.plan sends } :=
      ⟨opened, state, here, heard.keep rfl rfl rfl⟩
    simpa [perform, reached] using planned
  | notify canRead canWrite =>
    right
    simp only [perform, TcpSocket.notify, reached, List.append_nil, Option.toList_none]
    split
    · obtain ⟨-, state, here, heard⟩ := hears
      exact ⟨by simp [isOpen, BufferedTcpSocket.isOpen, TcpSocket.isOpen,
        TcpSocket.addPendingCallable], state, here, heard.keep rfl rfl rfl⟩
    · exact hears
  | dispatch =>
    rcases dispatch_hears hears with dead | heard
    · exact .inl ⟨rfl, dead⟩
    · exact .inr (by simpa [perform, reached] using heard)
  | pingTimer =>
    refine .inr (settled fun d done => ?_)
    obtain rfl | ⟨pinged, rfl, rfl | sent⟩ := onWmPingTimer_ok done
    · exact hears
    · exact hears.writes (d := { c with wmPingTimer := true, sock := c.sock.writeString [] .write })
        (writeString_extends _ _ .write) rfl rfl rfl
    · have waits : HearsWeb base arrived left delivered { c with wmPingTimer := false } :=
        ⟨hears.opened, hears.hears⟩
      have wrote := waits.writeMessage sent
      exact ⟨wrote.opened, wrote.hears⟩
  | shutdownTimer =>
    simp only [perform, shutdownTimerHandler]
    split
    · left
      have closed : (c.sock.shutdownTimerHandler).isOpen = false := close_isOpen_false _
      simp only [ServerConnection.sockHandler, isOpen, closed, Bool.not_false, ↓reduceIte]
      exact ⟨trivial, dead_close _⟩
    · exact .inr stay

end Web

section Runs
open RequestStreamProofs (InStep receive_inStep inStep_start request_none)

/-- A run of a connection with the messages it delivered since it was accepted. `left`
is the message that had been begun when it was upgraded. -/
structure Heard extends Received where
  messages : List WebMessage := []
  left : Option WebMessage := none

def hear (r : Heard) (op : ServerOp) : Heard :=
  let effect := perform r.conn op
  { toReceived := receive r.toReceived op
    messages := if reopens op then [] else r.messages ++ effect.message.toList
    left := if !r.conn.isStateWebsocket && effect.conn.isStateWebsocket then
      effect.conn.reader.webMessage else r.left }

/-- An open connection that was upgraded, with nothing left to read. -/
structure Rests (c : ServerConnection) : Prop where
  valid : c.sock.sock.fdValid = true
  unasked : c.sock.writeShutdownAsked = false
  web : c.isStateWebsocket = true
  drained : c.readBuffer.size = 0
  empty : brought c.sock.sock.descriptor.incoming = []

/-- A connection in touch with the bytes behind its upgrade. -/
structure InTouch (r : Heard) : Prop where
  inStep : InStep r.toReceived
  told : r.messages = [] ∨ ∃ base used chunks text, Cuts requestCutter base r.requests [] ∧
    Cuts chunkCutter used chunks text ∧ base ++ used <+: r.arrived ∧
    r.messages <+: (heard r.left chunks).messages
  web : r.conn.isStateWebsocket = true →
    ∃ base, Cuts requestCutter base r.requests [] ∧ HearsWeb base r.arrived r.left r.messages r.conn
  quiet : r.conn.isStateWebsocket = false → r.messages = [] ∨ Dead r.conn

variable {r : Heard}

private theorem message_none {op : ServerOp} (http : c.isStateWebsocket = false) :
    (perform c op).message = none := by
  have settled : ∀ result, (settle c result).message = none := by
    intro result
    cases result <;> rfl
  have settledAfter : ∀ result, (settleAfter result).message = none := by
    intro result
    unfold settleAfter
    split <;> rfl
  have unready : c.state ≠ .web .ready := by
    intro web
    simp [isStateWebsocket, web] at http
  cases op with
  | readNextMessage => simp [perform, readNextMessage, unready]
  | _ => first | rfl | exact settled _ | exact settledAfter _

/-- The upgrade takes no byte behind the request. -/
private theorem upgrade_hears (inStep : InStep r.toReceived) (opened : r.conn.isOpen = true)
    (state : r.conn.state = .responseHeader) :
    ∃ base, Cuts requestCutter base r.requests [] ∧
      HearsWeb base r.arrived r.conn.reader.webMessage [] r.conn.sendUpgrade := by
  have extends_ := writeString_extends r.conn.sock r.conn.upgradeResponse.toString .write
  have opened' : r.conn.sendUpgrade.isOpen = true := extends_.isOpen.trans opened
  rcases inStep.follows with follows | web | dead
  · rcases follows.state with ⟨used, text, reading⟩ | ended
    · have stands := reading.stands
      simp only [RequestStreamProofs.Stands, state] at stands
      have cuts := reading.cuts
      rw [stands] at cuts
      refine ⟨used, cuts, opened', .header, rfl, ?_⟩
      exact (listening_start (e := ear server r.conn.sendUpgrade .header)
        (reading.behind.extends_ extends_) rfl rfl).hears
    · obtain ⟨used, text, cuts, placed⟩ := follows.cut
      obtain ⟨base, split, cuts'⟩ := cuts.front RequestStreamProofs.requestStages.cutter_exact
      have first : base <+: r.arrived := (split ▸ List.prefix_append base text).trans placed
      refine ⟨base, cuts', opened', .header, rfl,
        ⟨[], [], [], .done [], by simpa using first, by simp [waiting, ear]⟩, .inr ?_⟩
      refine ⟨shut_extends ended.shut extends_, ?_, by simp [ear]⟩
      exact List.length_eq_zero_iff.mp ((contents_length _).trans ended.drained)
  · simp [isStateWebsocket, state] at web
  · rw [dead.closed] at opened
    cases opened

private theorem HearsWeb.told {arrived' : Bytes} (hears : HearsWeb base arrived left delivered c)
    (more : arrived <+: arrived') :
    ∃ used chunks text, Cuts chunkCutter used chunks text ∧ base ++ used <+: arrived' ∧
      delivered <+: (heard left chunks).messages := by
  obtain ⟨-, state, -, heard⟩ := hears
  obtain ⟨used, chunks, text, cuts, placed, first⟩ := heard.cut
  exact ⟨used, chunks, text, cuts, placed.trans more, (List.prefix_append _ _).trans first⟩

theorem hear_inTouch (r : Heard) (op : ServerOp) (inTouch : InTouch r) : InTouch (hear r op) := by
  have inStep := receive_inStep r.toReceived op inTouch.inStep
  cases again : reopens op with
  | true =>
    have http : (perform r.conn op).conn.isStateWebsocket = false :=
      (accept_serving r.conn op again).1.http
    simp only [hear, again, ↓reduceIte, http, Bool.and_false, Bool.false_eq_true]
    refine ⟨inStep, .inl rfl, fun web => ?_, fun _ => .inl rfl⟩
    have same : (receive r.toReceived op).conn = (perform r.conn op).conn := by simp [receive, again]
    rw [same, http] at web
    cases web
  | false =>
    have same : receive r.toReceived op =
        ⟨(perform r.conn op).conn, r.arrived ++ reached r.conn op,
          r.requests ++ (perform r.conn op).request.toList⟩ := by
      simp [receive, again]
    have longer : r.arrived <+: r.arrived ++ reached r.conn op := List.prefix_append _ _
    simp only [hear, again, Bool.false_eq_true, ↓reduceIte, same] at inStep ⊢
    cases before : r.conn.isStateWebsocket with
    | true =>
      obtain ⟨base, cuts, hears⟩ := inTouch.web before
      have unready : r.conn.state ≠ .requestReady := by
        intro http
        simp [isStateWebsocket, http] at before
      simp only [request_none unready op, Option.toList_none, List.append_nil, Bool.not_true,
        Bool.false_and, Bool.false_eq_true, ↓reduceIte] at inStep ⊢
      rcases perform_hears hears op again with ⟨none, dead⟩ | hears'
      · obtain ⟨used, chunks, text, told⟩ := hears.told longer
        have closed : (perform r.conn op).conn.isStateWebsocket = false := by
          simp [isStateWebsocket, dead.state]
        simp only [none, Option.toList_none, List.append_nil]
        refine ⟨inStep, .inr ⟨base, used, chunks, text, cuts, told⟩, fun web => ?_, fun _ => .inr dead⟩
        rw [closed] at web
        cases web
      · obtain ⟨used, chunks, text, told⟩ := hears'.told List.prefix_rfl
        refine ⟨inStep, .inr ⟨base, used, chunks, text, cuts, told⟩,
          fun _ => ⟨base, cuts, hears'⟩, fun http => ?_⟩
        have web := hears'.web
        rw [http] at web
        cases web
    | false =>
      simp only [message_none before, Option.toList_none, List.append_nil, Bool.not_false, Bool.true_and]
      cases after : (perform r.conn op).conn.isStateWebsocket with
      | true =>
        obtain ⟨rfl, opened, state, -, upgrade⟩ := upgraded inTouch.inStep.mode before again after
        have silent : r.messages = [] := by
          rcases inTouch.quiet before with none | dead
          · exact none
          · rw [dead.closed] at opened
            cases opened
        obtain ⟨base, cuts, hears⟩ := upgrade_hears inTouch.inStep opened state
        have none : (perform r.conn .webSocketUpgrade).request = none :=
          RequestStreamProofs.request_none_of (by simp)
        simp only [none, Option.toList_none, List.append_nil, reached, ↓reduceIte,
          silent, upgrade] at inStep ⊢
        refine ⟨inStep, .inl rfl, fun _ => ⟨base, cuts, hears⟩, fun http => ?_⟩
        have web := hears.web
        rw [http] at web
        cases web
      | false =>
        simp only [Bool.false_eq_true, ↓reduceIte]
        rcases inTouch.quiet before with silent | dead
        · exact ⟨inStep, .inl silent, fun web => by simp [after] at web, fun _ => .inl silent⟩
        · refine ⟨inStep, ?_, fun web => by simp [after] at web,
            fun _ => .inr (perform_dead dead op again).1⟩
          have none := request_none (c := r.conn) (by simp [dead.state]) op
          simp only [none, Option.toList_none, List.append_nil]
          rcases inTouch.told with silent | ⟨base, used, chunks, text, cuts, cuts', placed, first⟩
          · exact .inl silent
          · exact .inr ⟨base, used, chunks, text, cuts, cuts', placed.trans longer, first⟩

theorem inTouch_start : InTouch {} :=
  ⟨inStep_start, .inl rfl, fun web => by simp [isStateWebsocket] at web, fun _ => .inl rfl⟩

end Runs
end Crablib.WebStreamProofs
