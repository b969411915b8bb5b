import Crablib.ArrivalProofs
import Crablib.FrameProofs
import Crablib.Library.Cutting
import Crablib.ServerEndProofs

/-! What a reader of web messages hears. Chunks are cut off the front of the bytes. No
header of a continuation is accepted, so a message is one chunk, and one that was begun
ends the hearing at the next chunk of data. What a connection in a web-socket state
delivers depends on the bytes behind the upgrade, and on a message that was left begun
on the connection before. -/
namespace Crablib.HearingProofs
open Http Scanner Cutting StreamsProofs SocketProofs ArrivalProofs FrameProofs
open ServerEndProofs (Shut)

section Bodies
open WebMessageBodyParser

variable {p q : WebMessageBodyParser}

/-- The body parser, one byte at a time. -/
def byByte : Machine WebMessageBodyParser UInt8 Error where
  consume := fun p c => .ok (p.consume [c]).1
  good := isGood

/-- A parser is inside the body as long as bytes of it remain. -/
def Sound (p : WebMessageBodyParser) : Prop := p.inBody = decide (p.remainingBytes ≠ 0)

theorem make_sound (payloadLen : Nat) (key : Option UInt32) : Sound (make payloadLen key) := rfl

theorem consume_sound (sound : Sound p) (bytes : Bytes) : Sound (p.consume bytes).1 := by
  unfold consume
  split
  · rfl
  · exact sound

/-- The bytes of a block, one after the other. -/
private theorem consume_cons (inside : p.inBody = true) (more : 1 < p.remainingBytes)
    (c : UInt8) (bytes : Bytes) :
    (p.consume [c]).1.consume bytes = p.consume (c :: bytes) := by
  have one : min [c].length p.remainingBytes = 1 := by
    rw [List.length_singleton]
    omega
  have wr : min (c :: bytes).length p.remainingBytes = min bytes.length (p.remainingBytes - 1) + 1 := by
    rw [List.length_cons]
    omega
  have some_ : p.remainingBytes - 1 ≠ 0 := by omega
  have rest : p.remainingBytes - (min bytes.length (p.remainingBytes - 1) + 1) =
      p.remainingBytes - 1 - min bytes.length (p.remainingBytes - 1) := by omega
  simp only [consume, inside, ↓reduceIte, one, wr, some_, ne_eq, not_false_eq_true,
    decide_true, List.take_succ_cons, List.take_zero, List.drop_succ_cons, rest]
  by_cases unmasked : p.maskingKey = 0
  · simp [unmasked]
  · have joined := maskData_append p.maskingShift [c]
      (bytes.take (min bytes.length (p.remainingBytes - 1))) p.maskingKey
    simp only [List.singleton_append, List.length_singleton] at joined
    simp [unmasked, joined, Nat.add_assoc, Nat.add_comm 1]

private theorem consume_last (inside : p.inBody = true) (last : p.remainingBytes = 1)
    (c : UInt8) (bytes : Bytes) :
    p.consume (c :: bytes) = ((p.consume [c]).1, bytes) ∧ (p.consume [c]).1.isGood = true := by
  simp [consume, inside, last, isGood]

private theorem scan_consume (sound : Sound p) (running : p.isGood = false) {bytes : Bytes}
    (some_ : bytes ≠ []) :
    scan byByte p bytes = .ok (p.consume bytes) := by
  have inside : ∀ {p : WebMessageBodyParser}, p.isGood = false → p.inBody = true := by
    intro p running
    simpa [isGood] using running
  induction bytes generalizing p with
  | nil => exact absurd rfl some_
  | cons c bytes ih =>
    have left : p.remainingBytes ≠ 0 := by
      have here := inside running
      rw [sound] at here
      simpa using here
    rw [scan_step (m := byByte) running rfl bytes]
    by_cases last : p.remainingBytes = 1
    · obtain ⟨whole, good⟩ := consume_last (inside running) last c bytes
      rw [whole, scan_good (m := byByte) good]
    · have more : 1 < p.remainingBytes := by omega
      have still : (p.consume [c]).1.isGood = false := by
        have some_ : p.remainingBytes - 1 ≠ 0 := by omega
        have one : min 1 p.remainingBytes = 1 := by omega
        simp [consume, inside running, isGood, one, some_]
      by_cases none : bytes = []
      · subst none
        have one : min 1 p.remainingBytes = 1 := by omega
        have all : (p.consume [c]).2 = [] := by simp [consume, inside running, one]
        exact congrArg Except.ok (Prod.ext rfl all.symm)
      · rw [ih (consume_sound sound [c]) still none, consume_cons (inside running) more c bytes]

/-- The parser takes blocks; that is the same as taking their bytes. -/
theorem parse_scan (sound : Sound p) (bytes : Bytes) : p.parse bytes = scan byByte p bytes := by
  have stops : ∀ passes (q : WebMessageBodyParser) (rest : Bytes), rest = [] ∨ q.isGood = true →
      parseLoop passes q rest = (q, rest) := by
    intro passes q rest ended
    cases passes with
    | zero => rfl
    | succ passes =>
      have idle : (rest.isEmpty || q.isGood) = true := by rcases ended with none | good <;> simp [*]
      simp [parseLoop, idle]
  by_cases none : bytes = []
  · subst none
    rfl
  · cases good : p.isGood with
    | true => rw [parse, stops _ _ _ (.inr good), scan_good (m := byByte) good]
    | false =>
      obtain ⟨c, more, rfl⟩ := List.exists_cons_of_ne_nil none
      have ends : (p.consume (c :: more)).2 = [] ∨ (p.consume (c :: more)).1.isGood = true := by
        have inside : p.inBody = true := by simpa [isGood] using good
        simp only [consume, inside, ↓reduceIte, isGood]
        by_cases all : (c :: more).length ≤ p.remainingBytes
        · left
          rw [Nat.min_eq_left all, List.drop_length]
        · right
          rw [Nat.min_eq_right (by omega)]
          simp
      rw [scan_consume sound good none, parse, List.length_cons, parseLoop]
      simp only [List.isEmpty_cons, good, Bool.or_false, Bool.false_eq_true, ↓reduceIte]
      rw [stops _ _ _ ends]

theorem scan_sound {bytes rest : Bytes} (sound : Sound p)
    (scanned : scan byByte p bytes = .ok (q, rest)) : Sound q := by
  induction bytes generalizing p with
  | nil =>
    cases scanned
    exact sound
  | cons c bytes ih =>
    cases good : p.isGood with
    | true =>
      rw [scan_good (m := byByte) good] at scanned
      cases scanned
      exact sound
    | false =>
      rw [scan_step (m := byByte) good rfl] at scanned
      exact ih (consume_sound sound [c]) scanned

end Bodies

section Messages

/-- A chunk of a message: its opcode, whether it is the last one, its body. -/
structure WebChunk where
  opcode : Nat
  fin : Bool
  body : Bytes

def chunkStages : Stages WebMessageHeaderParser WebMessageBodyParser UInt8 Error WebChunk where
  head := WebMessageHeaderParser.machine
  start := {}
  waits := rfl
  body := byByte
  enter p := .make p.payloadLen p.maskingKey
  message p q := ⟨p.opcode, p.fin, q.body⟩

def chunkCutter : Cutter UInt8 WebChunk := chunkStages.cutter

/-- What was heard: whole messages and the message that was begun. Nothing more is
heard after a chunk that does not belong there or a text that is none. -/
structure Hearing where
  messages : List WebMessage := []
  begun : Option WebMessage := none
  ended : Bool := false

/-- A chunk of data goes on with the message that was begun, or begins one; the first
needs opcode 0, which no accepted header has. -/
def joined (begun : Option WebMessage) (c : WebChunk) : Option WebMessage :=
  match begun with
  | none => if c.opcode = 0 then none else some { opcode := opcodeOf c.opcode, body := c.body }
  | some message => if c.opcode ≠ 0 then none else some { message with body := message.body ++ c.body }

def Hearing.hear (h : Hearing) (c : WebChunk) : Hearing :=
  if h.ended then h
  else if c.opcode = WebMessageOpcode.ping.toNat then h
  else if c.opcode = WebMessageOpcode.pong.toNat then h
  else if c.opcode = WebMessageOpcode.close.toNat then
    { h with messages := h.messages ++ [closeMessage c.body], begun := none }
  else
    match joined h.begun c with
    | none => { h with ended := true }
    | some message =>
      if !c.fin then { h with begun := some message }
      else if message.opcode = .text ∧ ¬isValidUtf8 message.body then { h with ended := true }
      else { h with messages := h.messages ++ [message], begun := none }

def heard (begun : Option WebMessage) (chunks : List WebChunk) : Hearing :=
  chunks.foldl Hearing.hear { begun := begun }

/-- The messages in a text, when one was begun already. -/
def heardIn (begun : Option WebMessage) (text : Bytes) : List WebMessage :=
  (heard begun (messages chunkCutter text)).messages

variable {begun : Option WebMessage} {chunks : List WebChunk}

theorem heard_snoc (begun : Option WebMessage) (chunks : List WebChunk) (c : WebChunk) :
    heard begun (chunks ++ [c]) = (heard begun chunks).hear c := by simp [heard]

end Messages

section Chunks

variable {w : WebReader} {h : Hearing} {delivered : List WebMessage}

/-- The reader takes what it read for an error. -/
def fails : ChunkAction → Bool
  | .notUtf8 => true
  | .fail _ => true
  | _ => false

def chunkOf (w : WebReader) : WebChunk :=
  ⟨w.wmHeaderParser.opcode, w.wmHeaderParser.fin, w.wmBodyParser.body⟩

/-- What a reader holds of what was heard, when these messages were delivered. -/
structure Holds (state : WebState) (w : WebReader) (h : Hearing)
    (delivered : List WebMessage) : Prop where
  live : h.ended = false
  heard : h.messages = delivered ++ if state = .ready then [w.webMessage.getD {}] else []
  begun : h.begun = if state = .ready then none else w.webMessage

private theorem joinChunk_joined (w : WebReader) :
    (∃ e, w.joinChunk = .error e ∧ joined w.webMessage (chunkOf w) = none) ∨
      ∃ message, w.joinChunk = .ok message ∧ joined w.webMessage (chunkOf w) = some message := by
  unfold WebReader.joinChunk joined chunkOf
  cases w.webMessage <;> simp only
  · split
    · exact .inl ⟨_, rfl, rfl⟩
    · exact .inr ⟨_, rfl, rfl⟩
  · split
    · exact .inl ⟨_, rfl, rfl⟩
    · exact .inr ⟨_, rfl, rfl⟩

/-- The reader does with a whole chunk what the hearing says. -/
theorem onChunk_hears (live : h.ended = false) (heard : h.messages = delivered)
    (begun : h.begun = w.webMessage) :
    if fails w.onChunk.1 then w.onChunk.2.1 ≠ .ready
    else
      Holds w.onChunk.2.1 w.onChunk.2.2 (h.hear (chunkOf w)) delivered ∧
        (w.onChunk.2.1 = .ready ∨ w.onChunk.2.1 = .header ∧ w.onChunk.2.2.wmHeaderParser = {}) := by
  have opcode : (chunkOf w).opcode = w.wmHeaderParser.opcode := rfl
  have fin : (chunkOf w).fin = w.wmHeaderParser.fin := rfl
  have body : (chunkOf w).body = w.wmBodyParser.body := rfl
  unfold WebReader.onChunk Hearing.hear
  simp only [live, Bool.false_eq_true, ↓reduceIte, opcode, fin, body, begun]
  split
  · exact ⟨⟨live, by simp [heard], by simpa [WebReader.clearBody, WebReader.nextChunk] using begun⟩,
      .inr ⟨rfl, rfl⟩⟩
  · split
    · exact ⟨⟨live, by simp [heard], by simpa [WebReader.nextChunk] using begun⟩, .inr ⟨rfl, rfl⟩⟩
    · split
      · exact ⟨⟨rfl, by simp [heard], rfl⟩, .inl rfl⟩
      · rcases joinChunk_joined w with ⟨e, failed, none⟩ | ⟨message, done, some_⟩
        · simp [failed, fails]
        · simp only [done, some_]
          split
          · exact ⟨⟨rfl, by simp [heard], rfl⟩, .inr ⟨rfl, rfl⟩⟩
          · split
            · simp [fails]
            · exact ⟨⟨rfl, by simp [heard], rfl⟩, .inl rfl⟩

end Chunks

section Reading

/-- The part of a connection that reads web messages. -/
structure Ear where
  state : WebState
  reader : WebReader
  readBuffer : Buffer
  sock : BufferedTcpSocket

/-- The message that waits to be taken. -/
def waiting (e : Ear) : List WebMessage := if e.state = .ready then [e.reader.webMessage.getD {}] else []

/-- Where the reader stands in the text of the next chunk. -/
def Stands (e : Ear) (text : Bytes) : Prop :=
  match e.state with
  | .header => chunkStages.InHead text e.reader.wmHeaderParser ∧ e.reader.wmHeaderParser.isGood = false
  | .body =>
    chunkStages.InBody text e.reader.wmHeaderParser e.reader.wmBodyParser ∧
      e.reader.wmBodyParser.isGood = false ∧ Sound e.reader.wmBodyParser
  | .ready => text = []

/-- A reader in step with the bytes behind `base`. -/
structure Listening (base arrived : Bytes) (left : Option WebMessage) (delivered : List WebMessage)
    (e : Ear) (used : Bytes) (chunks : List WebChunk) (text : Bytes) : Prop where
  cuts : Cuts chunkCutter used chunks text
  behind : Behind (base ++ used ++ contents e.readBuffer) arrived e.sock
  stands : Stands e text
  holds : Holds e.state e.reader (heard left chunks) delivered

/-- A reader that gets no byte any more. -/
structure Mute (e : Ear) : Prop where
  shut : Shut e.sock
  drained : contents e.readBuffer = []
  unready : e.state ≠ .ready

/-- What was delivered was heard in the bytes behind `base`, and the reader is in step
with them or gets no more. -/
structure Hears (base arrived : Bytes) (left : Option WebMessage) (delivered : List WebMessage)
    (e : Ear) : Prop where
  cut : ∃ used chunks text, Cuts chunkCutter used chunks text ∧ base ++ used <+: arrived ∧
    delivered ++ waiting e <+: (heard left chunks).messages
  mode : (∃ used chunks text, Listening base arrived left delivered e used chunks text) ∨ Mute e

variable {e : Ear} {w : WebReader} {b : Buffer} {s : BufferedTcpSocket}
    {base arrived used text bytes : Bytes}
variable {left : Option WebMessage} {delivered : List WebMessage} {chunks : List WebChunk}

theorem Listening.placed (listening : Listening base arrived left delivered e used chunks text) :
    base ++ used <+: arrived :=
  (List.prefix_append _ _).trans listening.behind.placed

theorem Listening.hears (listening : Listening base arrived left delivered e used chunks text) :
    Hears base arrived left delivered e := by
  refine ⟨⟨used, chunks, text, listening.cuts, listening.placed, ?_⟩,
    .inl ⟨used, chunks, text, listening⟩⟩
  rw [listening.holds.heard]
  exact List.prefix_rfl

/-- A reader that starts behind `base`. -/
theorem listening_start (behind : Behind (base ++ contents e.readBuffer) arrived e.sock)
    (state : e.state = .header) (fresh : e.reader.wmHeaderParser = {}) :
    Listening base arrived e.reader.webMessage [] e [] [] [] := by
  refine ⟨.done [], by simpa using behind, ?_, ⟨rfl, by simp [heard, state], by simp [heard, state]⟩⟩
  simp only [Stands, state, fresh]
  exact ⟨chunkStages.inHead_start, rfl⟩

/-- How a pass over the read buffer leaves the reader: in step, or in front of an
error. -/
def Leaves (base arrived : Bytes) (left : Option WebMessage) (delivered : List WebMessage)
    (s : BufferedTcpSocket) (out : ChunkAction × WebState × WebReader × Buffer) : Prop :=
  if fails out.1 then out.2.1 ≠ .ready
  else ∃ used chunks text,
    Listening base arrived left delivered ⟨out.2.1, out.2.2.1, out.2.2.2, s⟩ used chunks text

private theorem readBody_leaves (cuts : Cuts chunkCutter used chunks text)
    (behind : Behind (base ++ used ++ contents b) arrived s)
    (inBody : chunkStages.InBody text w.wmHeaderParser w.wmBodyParser)
    (sound : Sound w.wmBodyParser) (live : (heard left chunks).ended = false)
    (messages : (heard left chunks).messages = delivered)
    (begun : (heard left chunks).begun = w.webMessage) :
    Leaves base arrived left delivered s (w.readBody b) := by
  unfold WebReader.readBody
  split
  · rename_i e failed
    exact absurd failed (by simp [Buffer.parseWith, WebMessageBodyParser.parse])
  · rename_i parser rest done
    obtain ⟨now, left', took, moved, -⟩ :=
      parseWith_used (fun done => Scanner.rest_suffix ((parse_scan sound _).symm.trans done)) done
    have scanned := Scanner.scan_used ((parse_scan sound _).symm.trans took)
    have read := inBody.feed scanned
    have placed : Behind (base ++ (used ++ now) ++ contents rest) arrived s := by
      rw [moved] at behind
      simpa using behind
    simp only
    split
    · rename_i running
      refine ⟨used ++ now, chunks, text ++ now, cuts.append now, placed, ?_,
        ⟨live, by simp [messages], by simp [begun]⟩⟩
      exact ⟨read, by simpa using running, scan_sound sound scanned⟩
    · rename_i good
      have whole := (cuts.append now).snoc (read.whole (by simpa [chunkStages, byByte] using good))
      have chunk := onChunk_hears (w := { w with wmBodyParser := parser }) live messages begun
      simp only [Leaves] at chunk ⊢
      split at chunk
      · rename_i failed
        rw [if_pos failed]
        exact chunk
      · rename_i kept
        rw [if_neg kept]
        obtain ⟨holds, next⟩ := chunk
        refine ⟨used ++ now, chunks ++ [chunkOf { w with wmBodyParser := parser }], [],
          whole, placed, ?_, ?_⟩
        · rcases next with ready | ⟨state, fresh⟩
          · simp only [Stands, ready]
          · simp only [Stands, state, fresh]
            exact ⟨chunkStages.inHead_start, rfl⟩
        · rw [heard_snoc]
          exact holds

private theorem Holds.plain {state : WebState} {h : Hearing} (holds : Holds state w h delivered)
    (unready : state ≠ .ready) :
    h.messages = delivered ∧ h.begun = w.webMessage := by
  refine ⟨?_, ?_⟩
  · simpa [unready] using holds.heard
  · simpa [unready] using holds.begun

private theorem readHeader_leaves
    (listening : Listening base arrived left delivered e used chunks text) (state : e.state = .header) :
    Leaves base arrived left delivered e.sock (e.reader.readHeader e.readBuffer) := by
  have stands := listening.stands
  simp only [Stands, state] at stands
  obtain ⟨inHead, -⟩ := stands
  obtain ⟨messages, begun⟩ := listening.holds.plain (by simp [state])
  unfold WebReader.readHeader
  split
  · simp [Leaves, fails]
  · rename_i parser rest done
    obtain ⟨now, left', took, moved, -⟩ := parseWith_used Scanner.rest_suffix done
    have read := inHead.feed (Scanner.scan_used took)
    have placed : Behind (base ++ (used ++ now) ++ contents rest) arrived e.sock := by
      have behind := listening.behind
      rw [moved] at behind
      simpa using behind
    simp only
    split
    · rename_i running
      refine ⟨used ++ now, chunks, text ++ now, listening.cuts.append now, placed, ?_,
        ⟨listening.holds.live, by simp [messages], by simp [begun]⟩⟩
      exact ⟨read, by simpa using running⟩
    · rename_i good
      exact readBody_leaves (listening.cuts.append now) placed
        (read.enter (by simpa [chunkStages, WebMessageHeaderParser.machine] using good))
        (make_sound _ _) listening.holds.live messages begun

/-- A pass over the read buffer. -/
theorem read_leaves (listening : Listening base arrived left delivered e used chunks text)
    (unready : e.state ≠ .ready) :
    Leaves base arrived left delivered e.sock (e.reader.read e.state e.readBuffer) := by
  have stands := listening.stands
  cases state : e.state with
  | header => exact readHeader_leaves listening state
  | body =>
    simp only [Stands, state] at stands
    obtain ⟨messages, begun⟩ := listening.holds.plain unready
    exact readBody_leaves listening.cuts listening.behind stands.1 stands.2.2
      listening.holds.live messages begun
  | ready => exact absurd state unready

end Reading

section Keeping
open ServerEndProofs (shut_extends shut_received shut_sockHandler shut_readFrom)

variable {e f : Ear} {s t : BufferedTcpSocket} {base arrived used text bytes : Bytes}
    {left : Option WebMessage}
variable {delivered : List WebMessage} {chunks : List WebChunk}

/-- The reader is left alone, and its socket goes on. -/
theorem Hears.moves (hears : Hears base arrived left delivered e) {more : Bytes}
    (behind : ∀ taken, Behind taken arrived e.sock → Behind taken (arrived ++ more) t)
    (shut : Shut e.sock → Shut t) :
    Hears base (arrived ++ more) left delivered { e with sock := t } := by
  obtain ⟨⟨used, chunks, text, cuts, placed, first⟩, mode⟩ := hears
  refine ⟨⟨used, chunks, text, cuts, placed.trans (List.prefix_append _ _), first⟩, ?_⟩
  rcases mode with ⟨used, chunks, text, listening⟩ | mute
  · exact .inl ⟨used, chunks, text, listening.cuts, behind _ listening.behind,
      listening.stands, listening.holds⟩
  · exact .inr ⟨shut mute.shut, mute.drained, mute.unready⟩

/-- No byte arrives meanwhile. -/
theorem Hears.stays (hears : Hears base arrived left delivered e)
    (behind : ∀ taken, Behind taken arrived e.sock → Behind taken arrived t)
    (shut : Shut e.sock → Shut t) :
    Hears base arrived left delivered { e with sock := t } := by
  rw [← List.append_nil arrived] at behind ⊢
  refine hears.moves (fun taken held => ?_) shut
  exact behind taken (by rwa [List.append_nil])

theorem Hears.extends_ (hears : Hears base arrived left delivered e)
    (extends_ : Extends e.sock t bytes) :
    Hears base arrived left delivered { e with sock := t } :=
  hears.stays (fun _ behind => behind.extends_ extends_) fun shut => shut_extends shut extends_

/-- An event or a plan of the kernel, which leaves the receiving side alone. -/
theorem Hears.keep (hears : Hears base arrived left delivered e)
    (asked : t.writeShutdownAsked = e.sock.writeShutdownAsked)
    (valid : t.sock.fdValid = e.sock.sock.fdValid)
    (incoming : t.sock.descriptor.incoming = e.sock.sock.descriptor.incoming) :
    Hears base arrived left delivered { e with sock := t } :=
  hears.stays (fun _ behind => behind.keep asked (valid ▸ ·) incoming) fun shut =>
    shut.imp (asked ▸ ·) (valid ▸ ·)

/-- Nothing arrives at a socket that is shut. -/
theorem shut_arrive {s : BufferedTcpSocket} (shut : Shut s) (arrivals : List Arrival) :
    Shut { s with sock := s.sock.arrive arrivals } := shut.imp id fun invalid => by
      simp [TcpSocket.arrive, invalid]

theorem Hears.arrive (hears : Hears base arrived left delivered e) (arrivals : List Arrival) :
    Hears base (arrived ++ if e.sock.sock.fdValid then brought arrivals else []) left delivered
      { e with sock.sock := e.sock.sock.arrive arrivals } :=
  hears.moves (fun _ behind => behind.arrive arrivals) fun shut => shut_arrive shut arrivals

theorem Hears.sockHandler (hears : Hears base arrived left delivered e) :
    Hears base arrived left delivered { e with sock := e.sock.sockHandler } :=
  hears.stays (fun _ behind => sockHandler_behind behind) shut_sockHandler

theorem Listening.fill (listening : Listening base arrived left delivered e used chunks text) :
    Listening base arrived left delivered { e with
      readBuffer := (e.readBuffer.readFrom BufferedTcpSocket.istream e.sock).2.1
      sock := (e.readBuffer.readFrom BufferedTcpSocket.istream e.sock).2.2 } used chunks text :=
  ⟨listening.cuts, readFrom_behind listening.behind, listening.stands, listening.holds⟩

/-- The read buffer is filled. -/
theorem Hears.fill (hears : Hears base arrived left delivered e) :
    Hears base arrived left delivered { e with
      readBuffer := (e.readBuffer.readFrom BufferedTcpSocket.istream e.sock).2.1
      sock := (e.readBuffer.readFrom BufferedTcpSocket.istream e.sock).2.2 } := by
  refine ⟨hears.cut, ?_⟩
  rcases hears.mode with ⟨used, chunks, text, listening⟩ | mute
  · exact .inl ⟨used, chunks, text, listening.fill⟩
  · obtain ⟨-, size, same⟩ := shut_readFrom mute.shut e.readBuffer
    have drained :
        (contents (e.readBuffer.readFrom BufferedTcpSocket.istream e.sock).2.1).length = 0 := by
      rw [contents_length, size, ← contents_length, mute.drained, List.length_nil]
    exact .inr ⟨by simpa only [same] using mute.shut, List.length_eq_zero_iff.mp drained, mute.unready⟩

/-- The connection reads no more; a message that waits can still be taken. -/
theorem Hears.silence (hears : Hears base arrived left delivered e) {b : Buffer}
    (drained : contents b = []) (shut : Shut t) :
    Hears base arrived left delivered { e with readBuffer := b, sock := t } := by
  refine ⟨hears.cut, ?_⟩
  rcases hears.mode with ⟨used, chunks, text, listening⟩ | mute
  · refine .inl ⟨used, chunks, text, listening.cuts, ?_, listening.stands, listening.holds⟩
    rw [drained, List.append_nil]
    exact behind_closed listening.placed shut
  · exact .inr ⟨shut, drained, mute.unready⟩

/-- The connection reads no more behind an error. -/
theorem Hears.mute (hears : Hears base arrived left delivered e)
    (before : e.state ≠ .ready) (shut : Shut f.sock) (drained : contents f.readBuffer = [])
    (unready : f.state ≠ .ready) : Hears base arrived left delivered f := by
  obtain ⟨used, chunks, text, cuts, placed, first⟩ := hears.cut
  refine ⟨⟨used, chunks, text, cuts, placed, ?_⟩, .inr ⟨shut, drained, unready⟩⟩
  simpa [waiting, before, unready] using first

/-- The message that waits is taken. -/
theorem Hears.take (hears : Hears base arrived left delivered e) (ready : e.state = .ready) :
    Hears base arrived left (delivered ++ [e.reader.webMessage.getD {}])
      { e with state := .header,
               reader := { e.reader with webMessage := none, wmHeaderParser := {} } } := by
  rcases hears.mode with ⟨used, chunks, text, listening⟩ | mute
  · have stands := listening.stands
    simp only [Stands, ready] at stands
    have cuts := listening.cuts
    rw [stands] at cuts
    have starts : Listening base arrived left (delivered ++ [e.reader.webMessage.getD {}])
        { e with state := .header,
                 reader := { e.reader with webMessage := none, wmHeaderParser := {} } } used chunks
                 [] := by
      refine ⟨cuts, listening.behind, ?_, listening.holds.live, ?_, ?_⟩
      · exact ⟨chunkStages.inHead_start, rfl⟩
      · simpa [ready] using listening.holds.heard
      · simpa [ready] using listening.holds.begun
    exact starts.hears
  · exact absurd ready mute.unready

/-- A reader that gets nothing finds nothing to read. -/
theorem Mute.nothing (mute : Mute e) :
    e.readBuffer.empty = true ∧ (e.readBuffer.readFrom BufferedTcpSocket.istream e.sock).1 = 0 :=
  ⟨(empty_iff _).mpr mute.drained, (shut_readFrom mute.shut e.readBuffer).1⟩

/-- A connection that can still be read and has used all that arrived delivered all
that was heard, but for a message that waits. -/
theorem Hears.complete (hears : Hears base arrived left delivered e)
    (unasked : e.sock.writeShutdownAsked = false) (valid : e.sock.sock.fdValid = true)
    (drained : contents e.readBuffer = []) (empty : brought e.sock.sock.descriptor.incoming = []) :
    ∃ behind, arrived = base ++ behind ∧ heardIn left behind = delivered ++ waiting e := by
  rcases hears.mode with ⟨used, chunks, text, listening⟩ | mute
  · refine ⟨used, ?_, ?_⟩
    · have whole := listening.behind.whole unasked valid
      rwa [drained, empty, List.append_nil, List.append_nil] at whole
    · have none : messages chunkCutter text = [] := by
        have stands := listening.stands
        unfold Stands at stands
        split at stands
        · exact messages_none (stands.1.unfinished stands.2)
        · exact messages_none (stands.1.unfinished stands.2.1)
        · rw [stands]
          exact messages_none rfl
      rw [heardIn, listening.cuts.messages_eq, none, List.append_nil, listening.holds.heard]
      rfl
  · rcases mute.shut with asked | invalid
    · rw [unasked] at asked
      cases asked
    · rw [valid] at invalid
      cases invalid

end Keeping

section Endpoints
open EndpointProofs

variable {σ : Type} {e : Endpoint σ} {P : σ → Prop} {s : σ} {base arrived used text : Bytes}
    {left : Option WebMessage}
variable {delivered : List WebMessage} {chunks : List WebChunk} {state : WebState}

/-- The reading part of a connection. -/
def ear (e : Endpoint σ) (s : σ) (state : WebState) : Ear :=
  ⟨state, e.reader s, e.readBuffer s, e.sock s⟩

/-- What was heard, for a reader that gets no byte any more. -/
def Silenced (base arrived : Bytes) (left : Option WebMessage) (delivered : List WebMessage)
    (state : WebState) (w : WebReader) : Prop :=
  ∀ {b t}, contents b = [] → Shut t → Hears base arrived left delivered ⟨state, w, b, t⟩

/-- The cases of the web-socket states: the reader stays in step, or the connection
reads no more behind an error. -/
theorem readWebMessage_caught (models : e.Models)
    (listening : Listening base arrived left delivered (ear e s state) used chunks text)
    (unready : state ≠ .ready)
    (enters : ∀ next w b, Hears base arrived left delivered ⟨next, w, b, e.sock s⟩ →
      P (e.entered s next w b))
    (catches : ∀ next w b, Silenced base arrived left delivered next w →
      P (e.onException (e.entered s next w b)))
    (closes : ∀ next w b t, Silenced base arrived left delivered next w →
      e.writeMessage (e.entered s next w b)
        { opcode := .close, closeCode := WebMessage.closeStatusNotUtf8 } = .ok t → P t)
    (writes : ∀ {t u message}, P t → e.writeMessage t message = .ok u → P u)
    (excepts : ∀ {t}, P t → P (e.onException t)) :
    e.Caught P (e.readWebMessage s state) := by
  have leaves := read_leaves listening unready
  rw [models.readWebMessage]
  simp only [ear] at leaves
  generalize (e.reader s).read state (e.readBuffer s) = out at leaves
  obtain ⟨action, next, w, b⟩ := out
  have silenced : next ≠ .ready → Silenced base arrived left delivered next w :=
    fun unready' {_ _} drained shut => listening.hears.mute unready shut drained unready'
  simp only [Leaves] at leaves
  cases action with
  | nothing =>
    obtain ⟨used, chunks, text, kept⟩ := leaves
    exact enters next w b kept.hears
  | ready =>
    obtain ⟨used, chunks, text, kept⟩ := leaves
    exact enters next w b kept.hears
  | fail error => exact catches next w b (silenced leaves)
  | answer body =>
    obtain ⟨used, chunks, text, kept⟩ := leaves
    have held := enters next w b kept.hears
    simp only [Endpoint.deals]
    cases done : e.writeMessage (e.entered s next w b) { opcode := .pong, body := body } with
    | error error => exact excepts held
    | ok written => exact writes held done
  | notUtf8 =>
    simp only [Endpoint.deals]
    cases done :
        e.writeMessage (e.entered s next w b)
        { opcode := .close, closeCode := WebMessage.closeStatusNotUtf8 } with
    | error error => exact catches next w b (silenced leaves)
    | ok written => exact closes next w b _ (silenced leaves) done

/-- A pass over a connection that hears web messages. -/
theorem turn_caught (models : e.Models) (hears : Hears base arrived left delivered (ear e s state))
    (fills : ∀ b t, InboundProofs.Quiet (e.sock s) t →
      Hears base arrived left delivered ⟨state, e.reader s, b, t⟩ →
      P (e.filled s b t))
    (switches : ∀ b t, InboundProofs.Quiet (e.sock s) t → ∀ {used chunks text},
      Listening base arrived left delivered ⟨state, e.reader s, b, t⟩ used chunks text →
      e.Caught P (e.switchState (e.filled s b t))) : e.Caught P (e.turn s) := by
  have quiet := InboundProofs.readFrom_quiet (e.readBuffer s) (e.sock s)
  rw [models.turn]
  split
  · simp only
    split
    · exact fills _ _ quiet hears.fill
    · rename_i some_
      rcases hears.mode with ⟨used, chunks, text, listening⟩ | mute
      · exact switches _ _ quiet listening.fill
      · exact absurd mute.nothing.2 some_
  · rename_i some_
    rcases hears.mode with ⟨used, chunks, text, listening⟩ | mute
    · have switched := switches (e.readBuffer s) (e.sock s) (InboundProofs.Quiet.refl _) listening
      rwa [models.refilled] at switched
    · exact absurd mute.nothing.1 some_

end Endpoints

end Crablib.HearingProofs
