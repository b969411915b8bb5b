import Crablib.Library.Wire
import Crablib.ResponseWriteProofs
import Mathlib.Tactic.Ring

/-! The bytes a server connection hands to its socket behind the answer to an
upgrade. While no shutdown was asked for, whether a message is being streamed is
where the stream of frames stands; afterwards the socket takes nothing. -/
namespace Crablib.OutgoingProofs
open Http ServerConnection ServerRun SocketProofs ServerConnectionProofs ServerEndProofs
open WebModeProofs PairingProofs
open ResponseWriteProofs
open Wire (Kind WireFrame Speech Encodes WellFramed)

section Headers

private theorem number_bigEndian (count value start : Nat) :
    (bigEndian count value).foldl (fun n byte => n * 256 + byte.toNat) start = start * 256 ^ count +
      value % 256 ^ count := by
  induction count generalizing start with
  | zero => simp [bigEndian, Nat.mod_one]
  | succ count ih =>
    have digit : (UInt8.ofNat (value / 256 ^ count)).toNat = value / 256 ^ count % 256 :=
      UInt8.toNat_ofNat'
    have split := Nat.mod_pow_succ (x := value) (b := 256) (k := count)
    rw [bigEndian, List.foldl_cons, ih, digit, split, Nat.pow_succ]
    ring

/-- The first byte of a frame. -/
private theorem first_byte (fin : Bool) {code : Nat} {kind : Kind}
    (known : Kind.ofCode code = some kind) :
    Kind.ofCode ((UInt8.ofNat ((if fin then 0x80 else 0) + code)).toNat % 16) = some kind ∧
      (UInt8.ofNat ((if fin then 0x80 else 0) + code)).toNat / 16 % 8 = 0 ∧
      decide (128 ≤ (UInt8.ofNat ((if fin then 0x80 else 0) + code)).toNat) = fin := by
  unfold Kind.ofCode at known
  split at known <;> cases known <;> cases fin <;> decide

/-- A header and the payload it announces are a frame. -/
theorem header_encodes (fin : Bool) {code : Nat} {kind : Kind}
    (known : Kind.ofCode code = some kind) (body : Bytes) (small : body.length < 2 ^ 64) :
    Encodes (webMessageHeader fin code body.length none ++ body) ⟨fin, kind, body⟩ := by
  obtain ⟨kind_, reserved, fin_⟩ := first_byte fin known
  have read : ∀ (mark count : Nat), mark < 128 → Wire.lengthBytes mark = count →
      (if count = 0 then mark else body.length % 256 ^ count) = body.length →
      Encodes (UInt8.ofNat ((if fin then 0x80 else 0) + code) :: UInt8.ofNat mark ::
        bigEndian count body.length ++ body)
        ⟨fin, kind, body⟩ := by
    intro mark count unmasked field length
    have same : (UInt8.ofNat mark).toNat = mark := by
      rw [UInt8.toNat_ofNat']
      omega
    have number : Wire.number (bigEndian count body.length) = body.length % 256 ^ count := by
      rw [Wire.number, number_bigEndian, Nat.zero_mul, Nat.zero_add]
    have frame : Encodes (_ :: UInt8.ofNat mark :: bigEndian count body.length ++ body) _ :=
      Wire.encodes_of kind_ reserved (by omega) (by rw [same, field, bigEndian_length])
        (by rw [same, field, number, length])
    rwa [fin_] at frame
  by_cases short : body.length < 126
  · have unmarked : body.length ≠ 126 ∧ body.length ≠ 127 := by omega
    have frame := read body.length 0 (by omega) (by simp [Wire.lengthBytes, unmarked]) rfl
    simpa [webMessageHeader, short, bigEndian] using frame
  · by_cases medium : body.length < 65536
    · have frame := read 126 2 (by omega) rfl (Nat.mod_eq_of_lt medium)
      simpa [webMessageHeader, short, medium] using frame
    · have frame := read 127 8 (by omega) rfl (Nat.mod_eq_of_lt small)
      simpa [webMessageHeader, short, medium] using frame

end Headers

section Steps

variable {c d : ServerConnection}

/-- Where the stream of frames stands, as far as more can be added to it. -/
def Standing (c : ServerConnection) (speech : Speech) : Prop :=
  c.sock.writeShutdownAsked = false → speech = ⟨c.writingWebMessageBody, false⟩

/-- What was handed to the socket are frames that may follow. -/
def Spoken (c d : ServerConnection) : Prop :=
  ∃ bytes frames, stream d.sock = stream c.sock ++ bytes ∧ Wire.Stream bytes frames ∧
    ∀ speech, Standing c speech → ∃ next, speech.run frames = some next ∧ Standing d next

private theorem spoken_trans {e : ServerConnection} (first : Spoken c d)
    (second : Spoken d e) : Spoken c e := by
  obtain ⟨front, before, grown, made, follows⟩ := first
  obtain ⟨back, behind, grown', made', follows'⟩ := second
  refine ⟨front ++ back, before ++ behind, by rw [grown', grown, List.append_assoc],
    made.append made', fun speech standing => ?_⟩
  obtain ⟨middle, ran, standing'⟩ := follows speech standing
  obtain ⟨last, ran', standing''⟩ := follows' middle standing'
  exact ⟨last, by simp [Speech.run_append, ran, ran'], standing''⟩

/-- A step that hands nothing over. -/
private theorem spoken_nothing (same : stream d.sock = stream c.sock)
    (asked : c.sock.writeShutdownAsked = true → d.sock.writeShutdownAsked = true)
    (writing : c.sock.writeShutdownAsked = false →
      d.writingWebMessageBody = c.writingWebMessageBody) : Spoken c d := by
  refine ⟨[], [], by rw [same, List.append_nil], .nil, fun speech standing =>
    ⟨speech, rfl, fun unasked => ?_⟩⟩
  cases before : c.sock.writeShutdownAsked with
  | true => simp [asked before] at unasked
  | false => rw [standing before, writing before]

/-- A step that hands over one frame; a socket that was asked to shut down does
not take it. -/
private theorem spoken_frame {bytes : Bytes} {frame : WireFrame} (talking : Talking c)
    (encodes : Encodes bytes frame) (grows : stream d.sock = stream c.sock ++ takes c.sock bytes)
    (asked : c.sock.writeShutdownAsked = true → d.sock.writeShutdownAsked = true)
    (follows : ∃ next, Speech.next ⟨c.writingWebMessageBody, false⟩ frame = some next ∧
      Standing d next) : Spoken c d := by
  cases before : c.sock.writeShutdownAsked with
  | true =>
    have refused : takes c.sock bytes = [] := takes_of_closed (by simp [before]) bytes
    refine spoken_nothing (by simpa [refused] using grows) asked fun unasked => ?_
    simp [before] at unasked
  | false =>
    have taken : takes c.sock bytes = bytes := takes_of_open talking.opened before bytes
    obtain ⟨next, may, standing'⟩ := follows
    refine ⟨bytes, [frame], by rw [grows, taken], .single encodes, fun speech standing =>
      ⟨next, ?_, standing'⟩⟩
    rw [standing before]
    exact Speech.run_single may

private theorem takes_append (s : BufferedTcpSocket) (first second : Bytes) :
    takes s (first ++ second) = takes s first ++ takes s second := by
  unfold takes
  split <;> simp

def wireKind : WebMessageOpcode → Kind
  | .text => .text
  | .binary => .binary
  | .close => .close
  | .ping => .ping
  | .pong => .pong

private theorem wireKind_code (opcode : WebMessageOpcode) :
    Kind.ofCode opcode.toNat = some (wireKind opcode) := by
  cases opcode <;> rfl

/-- A whole message may follow if it is a control message or none is streamed. -/
private theorem message_follows {message : WebMessage} {writing : Bool}
    (whole : message.opcode = .text ∨ message.opcode = .binary → writing = false) :
    Speech.next ⟨writing, false⟩ ⟨true, wireKind message.opcode, payload message⟩ =
      some ⟨writing, message.opcode == .close⟩ := by
  cases opcode : message.opcode with
  | text => simp [Speech.next, wireKind, whole (.inl opcode)]
  | binary => simp [Speech.next, wireKind, whole (.inr opcode)]
  | close =>
    simp [Speech.next, wireKind, payload, opcode]
  | ping => simp [Speech.next, wireKind, payload, opcode]
  | pong => simp [Speech.next, wireKind, payload, opcode]

private theorem spoken_message {message : WebMessage} {bo : BufferOptions} (talking : Talking c)
    (fit : (payload message).length < 2 ^ 64) (done : c.writeMessage message bo = .ok d) :
    Spoken c d := by
  have follows := message_follows (writeMessage_whole talking.opened done)
  have encodes := header_encodes true (wireKind_code message.opcode) (payload message) fit
  obtain ⟨closed, -⟩ | ⟨-, -, rfl⟩ := writeMessage_ok done
  · simp [talking.opened] at closed
  · have sent := (buffer_extends c.sock
      (webMessageHeader true message.opcode.toNat (payload message).length none)).trans
      (writeString_extends _ (payload message) bo)
    rw [(buffer_extends c.sock _).takes, ← takes_append] at sent
    by_cases close : message.opcode = .close
    · have shut := writeShutdown_of_open (sent.isOpen.trans talking.opened)
      have asked : (c.sendMessage message bo).sock.writeShutdownAsked = true := by
        simpa [sendMessage, close] using shut
      refine spoken_frame talking encodes ?_ (fun _ => asked) ⟨_, follows, fun unasked => ?_⟩
      · rw [← sent.stream]
        simpa [sendMessage, close] using (writeShutdown_keeps _).1
      · simp [asked] at unasked
    · have same : (c.sendMessage message bo).sock = (c.sock.buffer
          (webMessageHeader true message.opcode.toNat (payload message).length none)).writeString
          (payload message) bo := by
        simp [sendMessage, close]
      have writing : (c.sendMessage message bo).writingWebMessageBody = c.writingWebMessageBody := by
        simp [sendMessage, close]
      refine spoken_frame talking encodes (by rw [same]; exact sent.stream) ?_ ⟨_, follows, fun _ => ?_⟩
      · rw [same]
        exact sent.asked.trans
      · simp [writing, close]

private theorem spoken_opcode {opcode : WebMessageOpcode} (talking : Talking c)
    (done : c.writeOpcode opcode = .ok d) :
    Spoken c d := by
  have data := writeOpcode_data talking.opened done
  have encodes := header_encodes false (wireKind_code opcode) [] (by simp)
  rw [List.append_nil] at encodes
  obtain ⟨closed, -⟩ | ⟨-, -, plain, rfl⟩ := writeOpcode_ok done
  · simp [talking.opened] at closed
  · have sent := buffer_extends c.sock (webMessageHeader false opcode.toNat 0 none)
    refine spoken_frame talking encodes sent.stream sent.asked.trans ⟨⟨true, false⟩, ?_, fun _ => rfl⟩
    rcases data with rfl | rfl <;> simp [Speech.next, wireKind, plain]

private theorem continuation_encodes (fin : Bool) (val : Bytes) (small : val.length < 2 ^ 64) :
    Encodes (webMessageHeader fin 0 val.length none ++ val) ⟨fin, .continuation, val⟩ :=
  header_encodes fin rfl val small

/-- Every elementary step hands over frames that may follow. -/
theorem spoken_rule : WebRule (fun val => val.length < 2 ^ 64) Spoken where
  short := fun val short => by omega
  trans := spoken_trans
  silent := fun silent => spoken_nothing silent.stream silent.asked fun _ => silent.writing
  message := spoken_message
  opcode := spoken_opcode
  frame := by
    intro c send val bo sends talking writing fit
    unfold sendFrame
    split
    · exact spoken_nothing rfl id fun _ => rfl
    · have sent := (buffer_extends c.sock (webMessageHeader false 0 val.length none)).trans (sends _)
      rw [(buffer_extends c.sock _).takes, ← takes_append] at sent
      refine spoken_frame talking (continuation_encodes false val fit) sent.stream sent.asked.trans
        ⟨⟨true, false⟩, ?_, fun _ => ?_⟩
      · simp [Speech.next, writing]
      · exact congrArg (Speech.mk · false) writing.symm
  last := by
    intro c bo talking writing
    have sent := write_extends c.sock (webMessageHeader true 0 0 none) bo
    have encodes := continuation_encodes true [] (by simp)
    rw [List.append_nil] at encodes
    refine spoken_frame talking encodes sent.stream sent.asked.trans ⟨⟨false, false⟩, ?_, fun _ => rfl⟩
    simp [Speech.next, writing]

end Steps

section Runs

/-- A connection and what it handed to its socket since its upgrade. -/
structure Talk where
  conn : ServerConnection
  handed : Bytes := []

/-- A socket that is not open is handed nothing. -/
def talk (t : Talk) (op : ServerOp) : Talk :=
  { conn := (perform t.conn op).conn
    handed := t.handed ++ if t.conn.isOpen then grown t.conn (perform t.conn op).conn else [] }

/-- What holds of a connection that was upgraded with the stream `base`. -/
structure Told (base : Bytes) (t : Talk) : Prop where
  framed : ∃ frames speech, Wire.Stream t.handed frames ∧ Speech.run {} frames = some speech ∧
    (Dead t.conn ∨ Talking t.conn ∧ Standing t.conn speech ∧ stream t.conn.sock = base ++ t.handed)

private theorem talk_told (base : Bytes) (t : Talk) (op : ServerOp) (told : Told base t)
    (allowed : reopens op = false ∧ (content op).length < 2 ^ 64) : Told base (talk t op) := by
  obtain ⟨frames, speech, made, ran, dead | ⟨talking, standing, same⟩⟩ := told.framed
  · have dead' := (perform_dead dead op allowed.1).1
    refine ⟨frames, speech, ?_, ran, .inl dead'⟩
    simpa [talk, dead.closed] using made
  · rcases perform_webRule spoken_rule talking op allowed.1 allowed.2 with
      ⟨⟨e, closed⟩, shorter⟩ | ⟨talking', spoken⟩
    · have nothing : grown t.conn (perform t.conn op).conn = [] :=
        List.drop_eq_nil_of_le shorter.length_le
      refine ⟨frames, speech, ?_, ran, .inl ?_⟩
      · simpa [talk, nothing] using made
      · rw [talk, closed]
        exact dead_close e
    · obtain ⟨bytes, more, grows, made', follows⟩ := spoken
      obtain ⟨next, ran', standing'⟩ := follows speech standing
      have handed : (talk t op).handed = t.handed ++ bytes := by
        simp [talk, talking.opened, grown, grows]
      refine ⟨frames ++ more, next, ?_, by simp [Speech.run_append, ran, ran'],
        .inr ⟨talking', standing', ?_⟩⟩
      · rw [handed]
        exact made.append made'
      · rw [handed, ← List.append_assoc, ← same]
        exact grows

private theorem upgrade_told {before : List ServerOp} {c : ServerConnection}
    (opened : (afterOps {} before).isOpen = true)
    (upgraded : (afterOps {} before).webSocketUpgrade = .ok c) : Told (stream c.sock) ⟨c, []⟩ := by
  obtain ⟨closed, -⟩ | ⟨-, state, -, rfl⟩ := webSocketUpgrade_ok upgraded
  · simp [opened] at closed
  · have owing := owing_of_run opened state
    have extends_ := writeString_extends (afterOps {} before).sock
      (afterOps {} before).upgradeResponse.toString .write
    refine ⟨[], {}, .nil, rfl, .inr ⟨⟨extends_.isOpen.trans opened, rfl⟩, fun _ => ?_,
      (List.append_nil _).symm⟩⟩
    exact congrArg (Speech.mk · false) owing.serving.plain.symm

/-- Whatever is done with a connection that was upgraded, and whatever of it is
refused, what it handed to the socket behind the answer to the upgrade are
complete unmasked frames that follow each other as they may. -/
theorem web_stream_well_framed (before : List ServerOp) {c : ServerConnection}
    (opened : (afterOps {} before).isOpen = true)
    (upgraded : (afterOps {} before).webSocketUpgrade = .ok c) (ops : List ServerOp)
    (same : ∀ op ∈ ops, reopens op = false ∧ (content op).length < 2 ^ 64) :
    (∃ frames, Wire.frames (Run.after talk ⟨c, []⟩ ops).handed = some frames ∧ WellFramed frames) ∧
      ((Run.after talk ⟨c, []⟩ ops).conn.isOpen = true →
        stream (Run.after talk ⟨c, []⟩ ops).conn.sock = stream c.sock ++
          (Run.after talk ⟨c, []⟩ ops).handed) := by
  have told := Run.invariant_of_forall (talk_told (stream c.sock))
    (upgrade_told opened upgraded) ops same
  obtain ⟨frames, speech, made, ran, stands⟩ := told.framed
  refine ⟨⟨frames, made.frames_eq, speech, ran⟩, fun opened' => ?_⟩
  rcases stands with dead | ⟨-, -, grown⟩
  · simp [dead.closed] at opened'
  · exact grown

private def upgradeRequested : List ServerOp :=
  .accept .ready :: received (str ("GET / HTTP/1.1\r\nconnection: upgrade\r\nupgrade: websocket\r\n" ++
    "sec-websocket-key: x\r\nsec-websocket-version: 13\r\n\r\n")) ++ [.readNextRequest]

/-- A streamed message with a ping and a refused message inside, and a CLOSE. -/
private def streamed : List ServerOp :=
  [.writeOpcode .text, .writeData (str "a") .write, .pingTimer,
    .writeMessage { opcode := .ping, body := str "b" } .write,
    .writeMessage { opcode := .text, body := str "c" } .write, .writeString (str "d") .bufferOnly,
    .writeLastChunk .write,
    .writeMessage { opcode := .close } .write, .writeMessage { opcode := .text, body := str "e" } .write]

theorem web_stream_well_framed_streamed :
    ∃ c, (afterOps {} upgradeRequested).webSocketUpgrade = .ok c ∧
      ∃ frames, Wire.frames (Run.after talk ⟨c, []⟩ streamed).handed = some frames ∧
      WellFramed frames := by
  have opened : (afterOps {} upgradeRequested).isOpen = true := by decide +kernel
  have state : (afterOps {} upgradeRequested).state = .responseHeader := by decide +kernel
  have upgradable : (afterOps {} upgradeRequested).requestParser.req.isWebsocketUpgrade = true := by
    decide +kernel
  have upgraded :
      (afterOps {} upgradeRequested).webSocketUpgrade =
      .ok (afterOps {} upgradeRequested).sendUpgrade := by
    simp [webSocketUpgrade, opened, state, upgradable]
  exact ⟨_, upgraded, (web_stream_well_framed upgradeRequested opened upgraded streamed (by decide)).1⟩

end Runs

end Crablib.OutgoingProofs
