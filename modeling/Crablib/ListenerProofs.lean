import Crablib.Listener
import Crablib.ReceivingProofs

/-! Delivery on the abstract side: a listener that owes frames hears their
messages in order, answers their pings, and meets no error before bytes that are
no frame, whichever way all of them are cut into segments and events. -/
namespace Crablib.ListenerProofs
open Http StreamsProofs SocketProofs InboundProofs FrameProofs ReceivingProofs Listener

variable {κ : Type} {wrap : κ → WebMessage → Wrapped κ} {l : Listener κ}
    {frames : List Frame} {tail future : Bytes}

section Frames

def messageOf (f : Frame) : WebMessage := { opcode := f.opcode, body := f.body }

/-- The frames with which a listener delivers a message. -/
def delivers (f : Frame) : Bool := f.fin && (f.opcode == .text || f.opcode == .binary)

/-- What is delivered for frames. -/
def delivered (frames : List Frame) : List WebMessage := (frames.filter delivers).map messageOf

theorem delivered_append (first second : List Frame) :
    delivered (first ++ second) = delivered first ++ delivered second := by
  simp [delivered]

theorem delivered_silent (silent : ∀ f ∈ frames, delivers f = false) : delivered frames = [] := by
  have none : frames.filter delivers = [] := List.filter_eq_nil_iff.mpr fun f member => by
    simp [silent f member]
  simp [delivered, none]

/-- Frames that a listener takes when a message is held: control frames at any
place but no CLOSE, and data frames while no message is held, in UTF-8 if they are
whole and text. A data frame that is not whole makes the next ones wrong, as there
is no opcode to continue it. -/
def Sound : Option WebMessage → List Frame → Prop
  | _, [] => True
  | held, f :: later =>
    if f.opcode = .ping ∨ f.opcode = .pong then Sound held later
    else if f.fin then
      held = none ∧ f.opcode ≠ .close ∧ (f.opcode = .text → isValidUtf8 f.body = true) ∧ Sound none later
    else held = none ∧ f.opcode ≠ .close ∧ Sound (some (messageOf f)) later

/-- What is sent in answer to messages: a pong for each ping, with its body. -/
def answers (wrap : κ → WebMessage → Wrapped κ) : κ → List WebMessage → Bytes × κ
  | keys, [] => ([], keys)
  | keys, message :: later =>
    if message.opcode = .ping then
      let pong := wrap keys { opcode := .pong, body := message.body }
      (pong.header ++ pong.body ++ (answers wrap pong.keys later).1, (answers wrap pong.keys later).2)
    else answers wrap keys later

theorem answers_append (keys : κ) (first second : List WebMessage) :
    answers wrap keys (first ++ second) =
      ((answers wrap keys first).1 ++ (answers wrap (answers wrap keys first).2 second).1,
        (answers wrap (answers wrap keys first).2 second).2) := by
  induction first generalizing keys with
  | nil => rfl
  | cons message first ih =>
    simp only [List.cons_append, answers]
    split
    · simp [ih]
    · exact ih keys

private theorem answers_other {f : Frame} (other : f.opcode ≠ .ping) (keys : κ) :
    answers wrap keys [messageOf f] = ([], keys) := by
  simp [answers, messageOf, other]

/-- What the reader does at the end of a frame. -/
private theorem onChunk_sound {f : Frame} {w : WebReader} {later : List Frame}
    (sound : Sound w.webMessage (f :: later)) :
    (f.complete w).onChunk =
      if f.opcode = .ping then (.answer f.body, .header, (f.complete w).clearBody.nextChunk)
      else if f.opcode = .pong then (.nothing, .header, (f.complete w).nextChunk)
      else if f.fin then (.ready, .ready,
        { (f.complete w).clearBody with webMessage := some (messageOf f) })
      else (.nothing, .header,
      { (f.complete w).clearBody.nextChunk with webMessage := some (messageOf f) }) := by
  have control := f.control
  simp only [Sound] at sound
  cases kind : f.opcode <;> cases whole : f.fin <;>
    simp_all [WebReader.onChunk, Frame.complete, Frame.parsed, WebMessageOpcode.toNat, bodyAt,
      WebReader.joinChunk, opcodeOf, messageOf, WebReader.clearBody, WebReader.nextChunk]

end Frames

section States

/-- The listener waits for the rest of these frames and a tail; the bytes in front
of `future` are at hand. -/
structure Hears (l : Listener κ) (frames : List Frame) (tail future : Bytes) : Prop where
  flowing : Flowing l.sock
  linear : Linear l.readBuffer
  room : 0 < l.readBuffer.capacity
  sound : Sound l.reader.webMessage frames
  refused : Refused tail
  owes : Owes tail frames l.state l.reader (contents l.readBuffer ++ (ready l.sock ++ future))

/-- The listener has a message to deliver, and then waits for these frames. -/
structure Offers (l : Listener κ) (f : Frame) (frames : List Frame) (tail future : Bytes) : Prop where
  flowing : Flowing l.sock
  linear : Linear l.readBuffer
  room : 0 < l.readBuffer.capacity
  state : l.state = .ready
  message : l.reader.webMessage = some (messageOf f)
  sound : Sound none frames
  refused : Refused tail
  rest : contents l.readBuffer ++ (ready l.sock ++ future) = frames.flatMap Frame.bytes ++ tail

/-- The listener met an error: what still comes is discarded. -/
structure Deaf (l : Listener κ) : Prop where
  valid : l.sock.sock.fdValid = true
  asked : l.sock.writeShutdownAsked = true
  flushed : l.sock.dataToWrite = []
  total : l.sock.totalDataToWrite = 0
  data : ∀ arrival ∈ l.sock.sock.descriptor.incoming, ∃ first rest, arrival = .data first rest
  linear : Linear l.readBuffer
  empty : contents l.readBuffer = []
  unready : l.state ≠ .ready

/-- The bytes at hand. -/
def atHand (l : Listener κ) : Nat := (contents l.readBuffer).length + (ready l.sock).length

theorem atHand_nil (nothing : atHand l = 0) : contents l.readBuffer ++ (ready l.sock ++ []) = [] := by
  obtain ⟨unread, unheard⟩ := Nat.add_eq_zero_iff.mp nothing
  rw [List.length_eq_zero_iff.mp unread, List.length_eq_zero_iff.mp unheard]
  rfl

/-- What was said in answer to frames. -/
structure Answered (wrap : κ → WebMessage → Wrapped κ) (l m : Listener κ)
    (done : List Frame) : Prop where
  stream : stream m.sock = stream l.sock ++ (answers wrap l.keys (done.map messageOf)).1
  keys : m.keys = (answers wrap l.keys (done.map messageOf)).2

theorem Answered.refl (l : Listener κ) : Answered wrap l l [] := ⟨by simp [answers], rfl⟩

theorem Answered.trans {m n : Listener κ} {first second : List Frame} (front : Answered wrap l m first)
    (back : Answered wrap m n second) : Answered wrap l n (first ++ second) := by
  refine ⟨?_, ?_⟩
  · rw [back.stream, front.stream, front.keys, List.map_append, answers_append, List.append_assoc]
  · rw [back.keys, front.keys, List.map_append, answers_append]

/-- A frame that is not a ping is not answered. -/
private theorem Answered.other {m : Listener κ} {f : Frame} (other : f.opcode ≠ .ping)
    (answered : Answered wrap l m []) :
    Answered wrap l m [f] := by
  refine ⟨?_, ?_⟩
  · rw [answered.stream, List.map_singleton, answers_other other]
    rfl
  · rw [answered.keys, List.map_singleton, answers_other other]
    rfl

private theorem Hears.unready (hears : Hears l frames tail future) :
    l.state ≠ .ready := hears.owes.unready

/-- The listener at the start of the next frame. -/
private theorem hears_next {m : Listener κ} (flowing : Flowing m.sock) (linear : Linear m.readBuffer)
    (room : 0 < m.readBuffer.capacity) (sound : Sound m.reader.webMessage frames)
    (refused : Refused tail) (state : m.state = .header) (fresh : m.reader.wmHeaderParser = {})
    (rest : contents m.readBuffer ++ (ready m.sock ++ future) = frames.flatMap Frame.bytes ++ tail) :
    Hears m frames tail future :=
  ⟨flowing, linear, room, sound, refused, by rw [rest, state]; exact owes_start frames fresh⟩

/-- Saying something to a socket that flows. -/
private theorem say_flowing (flowing : Flowing l.sock) {message : WebMessage}
    (open_ : message.opcode ≠ .close) :
    l.say wrap message = { l with
      keys := (wrap l.keys message).keys
      sock := (l.sock.buffer (wrap l.keys message).header).writeString (wrap l.keys
        message).body .write } := by
  simp [say, flowing.isOpen, open_]

end States

section Passes

/-- How a pass or a loop can go from a listener: it goes on with less at hand,
nothing is at hand any more, the next message is ready, or the tail is met. Frames
without a message in front of it were answered. -/
inductive Comes (wrap : κ → WebMessage → Wrapped κ) (l : Listener κ) (frames : List Frame)
    (tail future : Bytes) :
    Turn → Listener κ → Prop where
  | again {next : Listener κ} (done later : List Frame) (split : frames = done ++ later)
      (silent : ∀ f ∈ done, delivers f = false) (hears : Hears next later tail future)
      (shorter : atHand next < atHand l)
      (answered : Answered wrap l next done) : Comes wrap l frames tail future .again next
  | waits {next : Listener κ} (done later : List Frame) (split : frames = done ++ later)
      (silent : ∀ f ∈ done, delivers f = false) (hears : Hears next later tail future)
      (nothing : atHand next = 0)
      (answered : Answered wrap l next done) : Comes wrap l frames tail future (.stop false) next
  | offers {next : Listener κ} (done : List Frame) (f : Frame) (later : List Frame)
      (split : frames = done ++ f :: later)
      (silent : ∀ f ∈ done, delivers f = false) (data : delivers f = true)
      (offers : Offers next f later tail future)
      (shorter : atHand next < atHand l) (answered : Answered wrap l next done) :
      Comes wrap l frames tail future (.stop true) next
  | fails {next : Listener κ} {e : Error} (silent : ∀ f ∈ frames, delivers f = false) (some_ : tail ≠ [])
      (flowing : Flowing next.sock) (unready : next.state ≠ .ready) :
      Comes wrap l frames tail future (.throw e) next

/-- Frames in front. -/
private theorem Comes.cons {m next : Listener κ} {done later : List Frame} {turn : Turn}
    (comes : Comes wrap m later tail future turn next) (silent : ∀ f ∈ done, delivers f = false)
    (answered : Answered wrap l m done) (shorter : atHand m ≤ atHand l) :
    Comes wrap l (done ++ later) tail future turn next := by
  cases comes with
  | again done' later' split silent' hears shorter' answered' =>
    exact .again (done ++ done') later' (by rw [split, List.append_assoc])
      (List.forall_mem_append.mpr ⟨silent, silent'⟩) hears
      (Nat.lt_of_lt_of_le shorter' shorter) (answered.trans answered')
  | waits done' later' split silent' hears nothing answered' =>
    exact .waits (done ++ done') later' (by rw [split, List.append_assoc])
      (List.forall_mem_append.mpr ⟨silent, silent'⟩) hears nothing (answered.trans answered')
  | offers done' f later' split silent' data offers shorter' answered' =>
    exact .offers (done ++ done') f later' (by rw [split, List.append_assoc])
      (List.forall_mem_append.mpr ⟨silent, silent'⟩)
      data offers (Nat.lt_of_lt_of_le shorter' shorter) (answered.trans answered')
  | fails silent' some_ flowing unready =>
    exact .fails (List.forall_mem_append.mpr ⟨silent, silent'⟩) some_ flowing unready

/-- A pass over a buffer that is not empty. -/
private theorem switchState_spec (wrap : κ → WebMessage → Wrapped κ) (hears : Hears l frames tail future)
    (some_ : contents l.readBuffer ≠ []) :
    Comes wrap l frames tail future (l.switchState wrap).1 (l.switchState wrap).2 := by
  obtain ⟨flowing, linear, room, sound, refused, owes⟩ := hears
  have unready := owes.unready
  have bytes := List.length_pos_iff.mpr some_
  obtain ⟨state', w', after, read, none, linear', capacity, owes', same⟩ | ⟨f, later, extra,
    after, rfl, read, left,
    linear', capacity, rest, shorter⟩ | ⟨e, rfl, more, state, read⟩ := owes.read refused some_ linear rfl
  · -- inside a frame
    have switched :
        l.switchState wrap = (.again,
        { l with state := state', reader := w', readBuffer := after }) := by
      simp [switchState, readWebMessage, unready, read]
    rw [switched]
    refine .again [] frames rfl (by simp) ⟨flowing, linear', capacity ▸ room, same ▸ sound,
      refused, by simpa [none] using owes'⟩ ?_ ⟨by simp [answers], rfl⟩
    simpa [atHand, none] using bytes
  · -- at the end of one, the action depends on its kind
    have shorter' : atHand { l with readBuffer := after } < atHand l := by
      simp only [atHand, left]
      omega
    have rest' : contents after ++ (ready l.sock ++ future) = later.flatMap Frame.bytes ++
      tail := by rw [left, rest]
    rw [onChunk_sound sound] at read
    have room' : 0 < after.capacity := capacity ▸ room
    by_cases ping : f.opcode = .ping
    · simp only [ping, ↓reduceIte] at read
      obtain ⟨flowing', ready', stream', -⟩ := flowing.writes
        (wrap l.keys { opcode := .pong, body := f.body }).header
        (wrap l.keys { opcode := .pong, body := f.body }).body
      have switched : l.switchState wrap = (.again, { l with
          state := .header
          reader := (f.complete l.reader).clearBody.nextChunk
          readBuffer := after
          keys := (wrap l.keys { opcode := .pong, body := f.body }).keys
          sock := (l.sock.buffer (wrap l.keys { opcode := .pong, body := f.body }).header).writeString
            (wrap l.keys { opcode := .pong, body := f.body }).body .write }) := by
        simp only [switchState, readWebMessage, unready, ↓reduceIte, read]
        rw [say_flowing (l := { l with state := _, reader := _, readBuffer := after }) flowing (by simp)]
      rw [switched]
      have sound' : Sound l.reader.webMessage later := by simpa [Sound, ping] using sound
      refine .again [f] later rfl (by simp [delivers, ping])
        (hears_next flowing' linear' room' sound' refused rfl rfl (by rw [ready']; exact rest')) ?_ ?_
      · simpa only [atHand, ready'] using shorter'
      · exact ⟨by simp [stream', answers, messageOf, ping], by simp [answers, messageOf, ping]⟩
    · by_cases pong : f.opcode = .pong
      · simp only [pong, reduceCtorEq, ↓reduceIte] at read
        have switched : l.switchState wrap = (.again, { l with
            state := .header, reader := (f.complete l.reader).nextChunk, readBuffer := after }) := by
          simp [switchState, readWebMessage, unready, read]
        rw [switched]
        have sound' : Sound l.reader.webMessage later := by simpa [Sound, pong] using sound
        exact .again [f] later rfl (by simp [delivers, pong])
          (hears_next flowing linear' room' sound' refused rfl rfl rest') shorter'
          (.other ping ⟨by simp [answers], rfl⟩)
      · simp only [Sound, ping, pong, or_self, ↓reduceIte] at sound
        by_cases whole : f.fin = true
        · simp only [ping, pong, whole, ↓reduceIte] at read sound
          have switched : l.switchState wrap = (.stop true, { l with
              state := .ready
              reader := { (f.complete l.reader).clearBody with webMessage := some (messageOf f) }
              readBuffer := after }) := by
            simp [switchState, readWebMessage, unready, read]
          rw [switched]
          refine .offers [] f later rfl (by simp) ?_ ⟨flowing, linear', room', rfl, rfl,
            sound.2.2.2, refused, rest'⟩ shorter' ⟨by simp [answers], rfl⟩
          cases kind : f.opcode <;> simp_all [delivers]
        · simp only [ping, pong, whole, Bool.false_eq_true, ↓reduceIte] at read sound
          have switched : l.switchState wrap = (.again, { l with
              state := .header
              reader := { (f.complete l.reader).clearBody.nextChunk with
                webMessage := some (messageOf f) }
              readBuffer := after }) := by
            simp [switchState, readWebMessage, unready, read]
          rw [switched]
          exact .again [f] later rfl (by simp [delivers, whole])
            (hears_next flowing linear' room' sound.2.2 refused rfl rfl rest') shorter'
            (.other ping ⟨by simp [answers], rfl⟩)
  · -- at the tail
    have switched : l.switchState wrap = (.throw e, { l with state := .header }) := by
      simp [switchState, readWebMessage, unready, read]
    rw [switched]
    exact .fails (by simp) more flowing (by simp)

/-- One pass of the loop. -/
private theorem turn_spec (wrap : κ → WebMessage → Wrapped κ) (hears : Hears l frames tail future) :
    Comes wrap l frames tail future (l.turn wrap).1 (l.turn wrap).2 := by
  by_cases empty : contents l.readBuffer = []
  · have none : l.readBuffer.empty = true := by simp [Buffer.empty, ← contents_length, empty]
    obtain ⟨flowing, linear, capacity, split, zero, drained, stream, -⟩ :=
      fill_flowing hears.flowing hears.linear hears.room empty
    have filled : Hears { l with
        readBuffer := (l.readBuffer.readFrom BufferedTcpSocket.istream l.sock).2.1
        sock := (l.readBuffer.readFrom BufferedTcpSocket.istream l.sock).2.2 } frames tail future := by
      refine ⟨flowing, linear, capacity ▸ hears.room, hears.sound, hears.refused, ?_⟩
      have owes := hears.owes
      rw [empty, split, List.nil_append, List.append_assoc] at owes
      exact owes
    have answered : Answered wrap l { l with
        readBuffer := (l.readBuffer.readFrom BufferedTcpSocket.istream l.sock).2.1
        sock := (l.readBuffer.readFrom BufferedTcpSocket.istream l.sock).2.2 } [] :=
          ⟨by simp [stream, answers], rfl⟩
    by_cases dry : contents (l.readBuffer.readFrom BufferedTcpSocket.istream l.sock).2.1 = []
    · simp only [turn, none, ↓reduceIte, zero.mpr dry]
      exact .waits [] frames rfl (by simp) filled (by simp [atHand, dry, drained dry]) answered
    · have some_ : (l.readBuffer.readFrom BufferedTcpSocket.istream l.sock).1 ≠ 0 :=
        fun none => dry (zero.mp none)
      simp only [turn, none, ↓reduceIte, some_]
      refine (switchState_spec wrap filled dry).cons (show ∀ f ∈ [],
        delivers f = false by simp) answered ?_
      simp only [atHand, empty, split, List.length_append]
      simp
  · have some_ : l.readBuffer.empty = false := by
      simpa [Buffer.empty, ← contents_length] using empty
    simp only [turn, some_, Bool.false_eq_true, ↓reduceIte]
    exact switchState_spec wrap hears empty

/-- The loop ends, as every pass that continues uses bytes. -/
private theorem tryLoop_spec (wrap : κ → WebMessage → Wrapped κ) (passes : Nat)
    (enough : atHand l < passes) (hears : Hears l frames tail future) :
    (l.tryLoop wrap passes).1 ≠ .again ∧
      Comes wrap l frames tail future (l.tryLoop wrap passes).1 (l.tryLoop wrap passes).2 := by
  induction passes generalizing l frames with
  | zero => omega
  | succ passes ih =>
    have comes := turn_spec wrap hears
    unfold Listener.tryLoop
    generalize l.turn wrap = turned at comes
    obtain ⟨turn, next⟩ := turned
    cases comes with
    | again done later split silent hears' less answered =>
      have fewer : atHand next < atHand l := less
      obtain ⟨ended, comes⟩ := ih (l := next) (by omega) hears'
      exact ⟨ended, split ▸ comes.cons silent answered (Nat.le_of_lt less)⟩
    | waits done later split silent hears' nothing answered =>
      exact ⟨by simp, .waits done later split silent hears' nothing answered⟩
    | offers done f later split silent data offers less answered =>
      exact ⟨by simp, .offers done f later split silent data offers less answered⟩
    | fails silent some_ flowing unready => exact ⟨by simp, .fails silent some_ flowing unready⟩

/-- The bytes at hand are counted by `passes`. -/
private theorem atHand_passes (flowing : Flowing l.sock) : atHand l < l.passes := by
  have counted : ∀ incoming : List Arrival, (lead incoming).length ≤ queued incoming := by
    intro incoming
    induction incoming with
    | nil => simp [lead]
    | cons arrival later ih =>
      cases arrival with
      | data first rest =>
        simp only [lead, queued, List.length_cons, List.length_append]
        omega
      | fin => simp [lead]
      | reset => simp [lead]
  have := counted l.sock.sock.descriptor.incoming
  simp only [atHand, passes, flowing.ready, contents_length]
  omega

/-- What `advance_state` comes to: the loop ends as it can. -/
private theorem advanceState_spec (wrap : κ → WebMessage → Wrapped κ)
    (hears : Hears l frames tail future) :
    ∃ turn next, l.tryLoop wrap l.passes = (turn, next) ∧
      Comes wrap l frames tail future turn next ∧ turn ≠ .again := by
  obtain ⟨ended, comes⟩ := tryLoop_spec wrap l.passes (atHand_passes hears.flowing) hears
  exact ⟨_, _, rfl, comes, ended⟩

end Passes

section Runs

/-- A listener that meets an error shuts its socket down and drops what it has. -/
private theorem onException_deaf (flowing : Flowing l.sock) (unready : l.state ≠ .ready) :
    Deaf l.onException := by
  have shut : l.sock.writeShutdown = { l.sock with
      writeShutdownAsked := true, sock := l.sock.sock.writeShutdown, shutdownTimer := true } := by
    simp [BufferedTcpSocket.writeShutdown, flowing.isOpen, flowing.unasked, flowing.flushed,
      BufferedTcpSocket.shutdownNow]
  have valid := flowing.accepting.valid
  have writable := flowing.accepting.writable
  simp only [onException, shut, TcpSocket.writeShutdown, valid, writable]
  exact ⟨rfl, rfl, flowing.flushed, flowing.total, flowing.data, linear_clear _,
    contents_clear _, unready⟩

/-- Taking the message that is offered. -/
private theorem takeMessage_hears {f : Frame} (offers : Offers l f frames tail future) :
    Hears l.takeMessage frames tail future :=
  hears_next offers.flowing offers.linear offers.room offers.sound offers.refused rfl rfl offers.rest

/-- There is nothing to read while no message is ready. -/
private theorem readAll_unready (wrap : κ → WebMessage → Wrapped κ)
    (unready : l.state ≠ .ready) (count : Nat) :
    (calls wrap).readAll count l = ⟨[], false, l⟩ := by
  cases count with
  | zero => rfl
  | succ count =>
    have nothing : (calls wrap).readNext l = (none, l) := by simp [calls, readNext, unready]
    have quiet : (calls wrap).failsRead l = false := by simp [calls, beq_eq_false_iff_ne.mpr unready]
    simp [Calls.readAll, nothing, quiet]

/-- How a call that handles what is at hand can end: it waits for the rest, or the
tail was met. -/
inductive Settles (wrap : κ → WebMessage → Wrapped κ) (l : Listener κ) (frames : List Frame)
    (tail future : Bytes) :
    Heard (Listener κ) → Prop where
  | waits {next : Listener κ} (done later : List Frame) (split : frames = done ++ later)
      (hears : Hears next later tail future)
      (nothing : atHand next = 0) (answered : Answered wrap l next done) :
      Settles wrap l frames tail future ⟨delivered done, false, next⟩
  | fails {next : Listener κ} (some_ : tail ≠ []) (deaf : Deaf next) :
      Settles wrap l frames tail future ⟨delivered frames, true, next⟩

/-- A message in front, and frames without one before it. -/
private theorem Settles.cons {m : Listener κ} {heard : Heard (Listener κ)}
    {done later : List Frame} {f : Frame} (settles : Settles wrap m later tail future heard)
    (silent : ∀ f ∈ done, delivers f = false) (data : delivers f = true)
    (answered : Answered wrap l m done) (split : frames = done ++ f :: later) :
    Settles wrap l frames tail future ⟨messageOf f :: heard.messages, heard.failed, heard.conn⟩ := by
  have front : ∀ more, delivered (done ++ f :: more) = messageOf f :: delivered more := by
    intro more
    rw [delivered_append, delivered_silent silent]
    simp [delivered, data]
  cases settles with
  | waits done' later' split' hears nothing answered' =>
    have other : f.opcode ≠ .ping := by
      intro ping
      simp [delivers, ping] at data
    have unanswered : Answered wrap m m [f] := .other other (.refl m)
    rw [← front]
    exact .waits (done ++ f :: done') later' (by rw [split, split']; simp) hears nothing
      (answered.trans (unanswered.trans answered'))
  | fails some_ deaf =>
    rw [← front, ← split]
    exact .fails some_ deaf

/-- Reading until there is nothing more: the messages of the frames at hand. -/
private theorem readAll_spec (wrap : κ → WebMessage → Wrapped κ) (count : Nat) {f : Frame}
    (data : delivers f = true) (offers : Offers l f frames tail future) (enough : atHand l < count) :
    ∃ heard, (calls wrap).readAll count l = ⟨messageOf f :: heard.messages, heard.failed, heard.conn⟩ ∧
      Settles wrap l frames tail future heard := by
  induction count generalizing l f frames with
  | zero => omega
  | succ count ih =>
    obtain ⟨turn, next, ended, comes, stopped⟩ := advanceState_spec wrap (takeMessage_hears offers)
    have flushed : l.takeMessage.sock.getTotalBufferSize = 0 := offers.flowing.total
    have taken : Answered wrap l l.takeMessage [] := ⟨by simp [answers, takeMessage], rfl⟩
    have ready :
        (calls wrap).readNext l = (some (messageOf f), (l.takeMessage.advanceState wrap).2) := by
      simp [calls, readNext, offers.state, offers.message]
    have fails : (calls wrap).failsRead l = caught wrap l.takeMessage := by simp [calls, offers.state]
    simp only [Calls.readAll, ready, fails, advanceState, caught, flushed, ne_eq,
      not_true_eq_false, ↓reduceIte, ended, beq_self_eq_true, Bool.true_and]
    cases comes with
    | again => exact absurd rfl stopped
    | waits done later split silent hears nothing answered =>
      refine ⟨_, rfl, ?_⟩
      rw [readAll_unready wrap hears.unready]
      have := Settles.waits done later split hears nothing (taken.trans answered)
      rwa [delivered_silent silent] at this
    | offers done g later split silent data' offers' shorter answered =>
      have fewer : atHand next < atHand l := shorter
      obtain ⟨heard, read, settles⟩ := ih data' offers' (by omega)
      refine ⟨_, rfl, ?_⟩
      simp only [read]
      exact settles.cons silent data' (taken.trans answered) split
    | fails silent some_ flowing unready =>
      have deaf := onException_deaf flowing unready
      refine ⟨⟨delivered frames, true, next.onException⟩, ?_, .fails some_ deaf⟩
      simp [readAll_unready wrap deaf.unready, delivered_silent silent]

private theorem lead_append {first second : List Arrival}
    (data : ∀ arrival ∈ first, ∃ head rest, arrival = .data head rest) :
    lead (first ++ second) = lead first ++ lead second := by
  induction first with
  | nil => rfl
  | cons arrival later ih =>
    obtain ⟨head, rest, rfl⟩ := data arrival List.mem_cons_self
    have tail := ih fun arrival member => data arrival (List.mem_cons_of_mem _ member)
    simp [lead, tail]

private theorem lead_segments (segments : List Segment) :
    lead (segments.map Segment.arrival) = segments.flatMap Segment.bytes := by
  induction segments with
  | nil => rfl
  | cons segment later ih => simp [lead, Segment.arrival, Segment.bytes, ih]

/-- Old and new segments are data. -/
private theorem arrive_data {incoming : List Arrival}
    (data : ∀ arrival ∈ incoming, ∃ first rest, arrival = .data first rest) (segments : List Segment) :
    ∀ arrival ∈ incoming ++ segments.map Segment.arrival, ∃ first rest, arrival = .data first rest := by
  intro arrival member
  rcases List.mem_append.mp member with old | new
  · exact data arrival old
  · obtain ⟨segment, -, rfl⟩ := List.mem_map.mp new
    exact ⟨segment.first, segment.rest, rfl⟩

private theorem flush_empty {s : BufferedTcpSocket} (flushed : s.dataToWrite = []) : s.flush = s := by
  obtain ⟨dataToWrite, total, asked, sock, timer⟩ := s
  simp only at flushed
  subst flushed
  simp [BufferedTcpSocket.flush, BufferedTcpSocket.drain]

/-- The socket when segments have reached it and the run loop has called it. -/
private def notified (s : BufferedTcpSocket) (segments : List Segment)
    (canWrite : Bool) : BufferedTcpSocket :=
  { s with sock := { s.sock with
      pending := false
      canRead := s.sock.canRead || !(segments.map Segment.arrival).isEmpty
      canWrite := s.sock.canWrite || canWrite
      descriptor.incoming := s.sock.descriptor.incoming ++ segments.map Segment.arrival } }

/-- An event on a valid descriptor is pending, and then the socket's own handler
runs. -/
private theorem deliver_event (wrap : κ → WebMessage → Wrapped κ)
    (segments : List Segment) (canWrite : Bool) (valid : l.sock.sock.fdValid = true) :
    let reported := (calls wrap).deliver l (segments.map Segment.arrival) canWrite
    reported.sock.sock.pending = true ∧
      reported.socketEvent = { l with sock := (notified l.sock segments canWrite).sockHandler } := by
  have notified_ :
      (l.sock.sock.arrive (segments.map Segment.arrival)).notify
      (!(segments.map Segment.arrival).isEmpty) canWrite = { l.sock.sock with
        pending := true
        canRead := l.sock.sock.canRead || !(segments.map Segment.arrival).isEmpty
        canWrite := l.sock.sock.canWrite || canWrite
        descriptor.incoming := l.sock.sock.descriptor.incoming ++ segments.map Segment.arrival } := by
    simp [TcpSocket.arrive, TcpSocket.notify, valid, TcpSocket.addPendingCallable]
  intro reported
  have same : reported = { l with sock.sock := { l.sock.sock with
      pending := true
      canRead := l.sock.sock.canRead || !(segments.map Segment.arrival).isEmpty
      canWrite := l.sock.sock.canWrite || canWrite
      descriptor.incoming := l.sock.sock.descriptor.incoming ++ segments.map Segment.arrival } } :=
    congrArg (fun sock => { l with sock.sock := sock }) notified_
  rw [same]
  exact ⟨rfl, rfl⟩

/-- Segments reach a listener, and the event that reports them. -/
private theorem event_hears (wrap : κ → WebMessage → Wrapped κ)
    (segments : List Segment) (canWrite : Bool)
    (hears : Hears l frames tail (segments.flatMap Segment.bytes ++ future)) :
    Hears { l with sock := (notified l.sock segments canWrite).sockHandler } frames tail future ∧
      Answered wrap l { l with sock := (notified l.sock segments canWrite).sockHandler } [] := by
  obtain ⟨flowing, linear, room, sound, refused, owes⟩ := hears
  have flowing' : Flowing (notified l.sock segments canWrite) := by
    refine { flowing with
      accepting := ⟨flowing.accepting.valid, by simp [notified, flowing.accepting.writable],
        flowing.accepting.sends⟩
      data := arrive_data flowing.data segments
      reported := ?_ }
    intro unreadable
    simp only [notified, Bool.or_eq_false_iff, Bool.not_eq_false', List.isEmpty_iff] at unreadable
    simp only [notified, flowing.reported unreadable.1, unreadable.2, List.append_nil]
  have handled :
      (notified l.sock segments canWrite).sockHandler = notified l.sock segments canWrite := by
    simp only [BufferedTcpSocket.sockHandler, flowing'.isOpen, ↓reduceIte,
      flush_empty flowing'.flushed, flowing'.unasked, Bool.false_and, Bool.false_eq_true]
  have more :
      ready (notified l.sock segments canWrite) = ready l.sock ++ segments.flatMap Segment.bytes := by
    rw [flowing'.ready, flowing.ready, ← lead_segments, ← lead_append flowing.data]
    rfl
  rw [handled]
  refine ⟨⟨flowing', linear, room, sound, refused, ?_⟩, ?_, rfl⟩
  · rw [more, List.append_assoc (ready l.sock)]
    exact owes
  · simp [notified, answers, SocketProofs.stream]

/-- A deaf listener stays deaf. -/
private theorem event_deaf (segments : List Segment) (canWrite : Bool) (deaf : Deaf l) :
    Deaf { l with sock := (notified l.sock segments canWrite).sockHandler } := by
  have flushed : (notified l.sock segments canWrite).dataToWrite = [] := deaf.flushed
  have asked : (notified l.sock segments canWrite).writeShutdownAsked = true := deaf.asked
  have opened : (notified l.sock segments canWrite).isOpen = true := by
    simp [BufferedTcpSocket.isOpen, TcpSocket.isOpen, notified, deaf.valid]
  have data : ∀ arrival ∈ (notified l.sock segments canWrite).sock.descriptor.incoming,
      ∃ first rest, arrival = .data first rest :=
    arrive_data deaf.data segments
  have valid : (notified l.sock segments canWrite).sock.fdValid = true := deaf.valid
  simp only [BufferedTcpSocket.sockHandler, opened, ↓reduceIte, flush_empty flushed, asked, flushed,
    List.isEmpty_nil, Bool.and_self]
  have read : ((notified l.sock segments canWrite).sock.readSome 4096).2.fdValid = true ∧
      ∀ arrival ∈ ((notified l.sock segments canWrite).sock.readSome 4096).2.descriptor.incoming,
        ∃ first rest, arrival = .data first rest :=
    readSome_data valid data (by decide)
  exact ⟨read.1, rfl, rfl, deaf.total, read.2, deaf.linear, deaf.empty, deaf.unready⟩

/-- A deaf listener hears nothing. -/
private theorem tryLoop_deaf (wrap : κ → WebMessage → Wrapped κ) (deaf : Deaf l) (count : Nat) :
    ∃ next, l.tryLoop wrap (count + 1) = (.stop false, next) ∧ Deaf next := by
  have none : l.readBuffer.empty = true := by simp [Buffer.empty, ← contents_length, deaf.empty]
  have shut : ready l.sock = [] := by simp [ready, deaf.asked]
  have unread : ∀ count, l.sock.readSome count = ([], l.sock) := fun count => by
    simp [BufferedTcpSocket.readSome, deaf.asked]
  obtain ⟨linear, -, count_, -, split, -⟩ := readFrom_spec deaf.linear deaf.empty l.sock
  have same : (l.readBuffer.readFrom BufferedTcpSocket.istream l.sock).2.2 = l.sock := by
    obtain ⟨_, filled⟩ := readFrom_filled BufferedTcpSocket.istream l.readBuffer l.sock
    refine filled.reads.preserves (P := (· = l.sock)) ?_ rfl
    rintro s count - rfl
    exact congrArg Prod.snd (unread count)
  rw [shut] at split
  obtain ⟨empty, -⟩ := List.append_eq_nil_iff.mp split.symm
  have zero : (l.readBuffer.readFrom BufferedTcpSocket.istream l.sock).1 = 0 := by
    rw [count_, empty, List.length_nil]
  refine ⟨{ l with readBuffer := (l.readBuffer.readFrom BufferedTcpSocket.istream l.sock).2.1 }, ?_, ?_⟩
  · simp [Listener.tryLoop, turn, none, zero, same]
  · exact ⟨deaf.valid, deaf.asked, deaf.flushed, deaf.total, deaf.data, linear, empty, deaf.unready⟩

/-- An event, from the socket's handler on: the loop runs, and the user reads if
it ends so. -/
private theorem receive_eq (wrap : κ → WebMessage → Wrapped κ)
    (segments : List Segment) (canWrite : Bool) (valid : l.sock.sock.fdValid = true) {m : Listener κ}
    (event : m = { l with sock := (notified l.sock segments canWrite).sockHandler })
    (flushed : m.sock.totalDataToWrite = 0) :
    (calls wrap).receive l segments canWrite =
      match m.tryLoop wrap m.passes with
      | (.stop true, next) => (calls wrap).readAll (next.passes + 1) next
      | (.throw _, next) =>
        { (calls wrap).readAll (next.onException.passes + 1) next.onException with failed := true }
      | (_, next) => ⟨[], false, next⟩ := by
  obtain ⟨pending, same⟩ := deliver_event wrap segments canWrite valid
  rw [← event] at same
  generalize reach : (calls wrap).deliver l (segments.map Segment.arrival) canWrite =
    reported at pending same
  have called : (calls wrap).dispatch reported = m.advanceState wrap := by
    simp [calls, dispatch, pending, same]
  have fails : (calls wrap).failsDispatch reported = caught wrap m := by simp [calls, pending, same]
  simp only [Calls.receive, reach, called, fails, advanceState, caught,
    BufferedTcpSocket.getTotalBufferSize, flushed, ne_eq,
    not_true_eq_false, ↓reduceIte, beq_self_eq_true, Bool.true_and]
  rcases m.tryLoop wrap m.passes with ⟨turn, next⟩
  cases turn with
  | again => simp
  | stop result => cases result <;> simp [calls]
  | throw e => simp [calls]

private theorem receive_deaf (wrap : κ → WebMessage → Wrapped κ) (deaf : Deaf l)
    (segments : List Segment) (canWrite : Bool) :
    ∃ next, (calls wrap).receive l segments canWrite = ⟨[], false, next⟩ ∧ Deaf next := by
  have deaf' := event_deaf segments canWrite deaf
  obtain ⟨next, ended, deaf''⟩ := tryLoop_deaf wrap deaf' _
  exact ⟨next, by rw [receive_eq wrap segments canWrite deaf.valid rfl deaf'.total, passes, ended],
    deaf''⟩

/-- One event: the listener hears what is delivered for the frames that it
completes. -/
private theorem receive_spec (wrap : κ → WebMessage → Wrapped κ)
    (segments : List Segment) (canWrite : Bool)
    (hears : Hears l frames tail (segments.flatMap Segment.bytes ++ future)) :
    Settles wrap l frames tail future ((calls wrap).receive l segments canWrite) := by
  obtain ⟨hears', event⟩ := event_hears wrap segments canWrite hears
  obtain ⟨turn, next, ended, comes, stopped⟩ := advanceState_spec wrap hears'
  rw [receive_eq wrap segments canWrite hears.flowing.accepting.valid rfl hears'.flowing.total, ended]
  cases comes with
  | again => exact absurd rfl stopped
  | waits done later split silent hears nothing answered =>
    have := Settles.waits done later split hears nothing (event.trans answered)
    rwa [delivered_silent silent] at this
  | offers done f later split silent data offers shorter answered =>
    obtain ⟨heard, read, settles⟩ := readAll_spec wrap (next.passes + 1) data offers
      (Nat.lt_succ_of_lt (atHand_passes offers.flowing))
    simp only [read]
    exact settles.cons silent data (event.trans answered) split
  | fails silent some_ flowing unready =>
    have deaf := onException_deaf flowing unready
    simp only [readAll_unready wrap deaf.unready]
    have settles : Settles wrap l frames tail future ⟨delivered frames, true, next.onException⟩ :=
      .fails some_ deaf
    rwa [delivered_silent silent] at settles

private theorem receiveAll_deaf (wrap : κ → WebMessage → Wrapped κ) (deaf : Deaf l)
    (events : List (List Segment × Bool)) :
    ∃ next, (calls wrap).receiveAll l events = ⟨[], false, next⟩ ∧ Deaf next := by
  induction events generalizing l with
  | nil => exact ⟨l, rfl, deaf⟩
  | cons event events ih =>
    obtain ⟨mid, first, deaf'⟩ := receive_deaf wrap deaf event.1 event.2
    obtain ⟨next, later, deaf''⟩ := ih deaf'
    exact ⟨next, by simp [Calls.receiveAll, first, later], deaf''⟩

/-- A whole run: either everything that arrived was taken, or the tail was met and
the error is known. -/
theorem receiveAll_spec (wrap : κ → WebMessage → Wrapped κ) (events : List (List Segment × Bool))
    (hears : Hears l frames tail (arriving events ++ future)) (nothing : atHand l = 0) :
    Settles wrap l frames tail future ((calls wrap).receiveAll l events) := by
  induction events generalizing l frames with
  | nil => exact .waits [] frames rfl hears nothing (.refl l)
  | cons event events ih =>
    rw [show arriving (event :: events) = event.1.flatMap Segment.bytes ++ arriving events from rfl,
      List.append_assoc] at hears
    have settles := receive_spec wrap event.1 event.2 hears
    unfold Calls.receiveAll
    generalize (calls wrap).receive l event.1 event.2 = first at settles
    cases settles with
    | waits done later split hears' nothing' answered =>
      have settles := ih hears' nothing'
      simp only [Bool.false_or]
      generalize (calls wrap).receiveAll _ events = last at settles
      cases settles with
      | waits done' later' split' hears'' nothing'' answered' =>
        rw [← delivered_append]
        exact .waits (done ++ done') later' (by rw [split, split', List.append_assoc]) hears''
          nothing'' (answered.trans answered')
      | fails some_ deaf =>
        rw [← delivered_append, ← split]
        exact .fails some_ deaf
    | fails some_ deaf =>
      obtain ⟨next, later, deaf'⟩ := receiveAll_deaf wrap deaf events
      simp only [later, List.append_nil, Bool.true_or]
      exact .fails some_ deaf'

end Runs

section Followers
variable {C : Type} {other : Calls C} {R : C → Listener κ → Prop} {c : C}

/-- The calls of a connection do what those of the listener do, as long as the
socket is open when an event was handled. -/
structure Follows (other : Calls C) (wrap : κ → WebMessage → Wrapped κ)
    (R : C → Listener κ → Prop) : Prop where
  deliver : ∀ {c l} arrivals canWrite, R c l →
    R (other.deliver c arrivals canWrite) ((calls wrap).deliver l arrivals canWrite)
  dispatch : ∀ {c l}, R c l → l.socketEvent.sock.isOpen = true →
    (other.dispatch c).1 = ((calls wrap).dispatch l).1 ∧
    R (other.dispatch c).2 ((calls wrap).dispatch l).2 ∧
      other.failsDispatch c = (calls wrap).failsDispatch l
  readNext : ∀ {c l}, R c l →
    (other.readNext c).1 = ((calls wrap).readNext l).1 ∧
    R (other.readNext c).2 ((calls wrap).readNext l).2 ∧
      other.failsRead c = (calls wrap).failsRead l
  passes : ∀ {c l}, R c l → other.passes c = l.passes

/-- Two users hear the same. -/
structure Alike (R : C → Listener κ → Prop) (first : Heard C) (second : Heard (Listener κ)) : Prop where
  messages : first.messages = second.messages
  failed : first.failed = second.failed
  conn : R first.conn second.conn

private theorem readAll_follows (follows : Follows other wrap R) (count : Nat) (related : R c l) :
    Alike R (other.readAll count c) ((calls wrap).readAll count l) := by
  induction count generalizing c l with
  | zero => exact ⟨rfl, rfl, related⟩
  | succ count ih =>
    obtain ⟨message, next, fails⟩ := follows.readNext related
    unfold Calls.readAll
    generalize other.readNext c = read at message next
    generalize (calls wrap).readNext l = read' at message next
    obtain ⟨first, c'⟩ := read
    obtain ⟨second, l'⟩ := read'
    subst message
    cases first with
    | none => exact ⟨rfl, fails, next⟩
    | some message =>
      have later := ih next
      exact ⟨congrArg (message :: ·) later.messages, by simp only [fails, later.failed], later.conn⟩

private theorem receive_follows (follows : Follows other wrap R) (related : R c l)
    (segments : List Segment) (canWrite : Bool)
    (opened : ((calls wrap).deliver l (segments.map Segment.arrival)
      canWrite).socketEvent.sock.isOpen = true) :
    Alike R (other.receive c segments canWrite) ((calls wrap).receive l segments canWrite) := by
  obtain ⟨called, next, fails⟩ :=
    follows.dispatch (follows.deliver (segments.map Segment.arrival) canWrite related) opened
  have bound : ∀ l : Listener κ, (calls wrap).passes l = l.passes := fun l => rfl
  simp only [Calls.receive, called, fails, follows.passes next, bound]
  split
  · have read := readAll_follows follows
      (((calls wrap).dispatch
      ((calls wrap).deliver l (segments.map Segment.arrival) canWrite)).2.passes + 1) next
    exact ⟨read.messages, by rw [read.failed], read.conn⟩
  · exact ⟨rfl, rfl, next⟩

/-- A listener that waits for frames or is deaf still has its socket when the next
event was handled. -/
private theorem event_open (segments : List Segment) (canWrite : Bool)
    (able : Hears l frames tail (segments.flatMap Segment.bytes ++ future) ∨ Deaf l) :
    ((calls wrap).deliver l (segments.map Segment.arrival) canWrite).socketEvent.sock.isOpen = true := by
  rcases able with hears | deaf
  · rw [(deliver_event wrap segments canWrite hears.flowing.accepting.valid).2]
    exact (event_hears wrap segments canWrite hears).1.flowing.isOpen
  · rw [(deliver_event wrap segments canWrite deaf.valid).2]
    have valid : (notified l.sock segments canWrite).sockHandler.sock.fdValid = true :=
      (event_deaf segments canWrite deaf).valid
    simp [BufferedTcpSocket.isOpen, TcpSocket.isOpen, valid]

/-- A connection that follows a listener hears what the listener hears. -/
theorem receiveAll_follows (follows : Follows other wrap R) (related : R c l)
    (events : List (List Segment × Bool))
    (able : (∃ frames tail, Hears l frames tail (arriving events ++ future)) ∨ Deaf l) :
    Alike R (other.receiveAll c events) ((calls wrap).receiveAll l events) := by
  induction events generalizing c l with
  | nil => exact ⟨rfl, rfl, related⟩
  | cons event events ih =>
    have first : Alike R (other.receive c event.1 event.2) ((calls wrap).receive l event.1 event.2) ∧
        ((∃ frames tail, Hears ((calls wrap).receive l event.1 event.2).conn frames tail
          (arriving events ++ future)) ∨
          Deaf ((calls wrap).receive l event.1 event.2).conn) := by
      rcases able with ⟨frames, tail, hears⟩ | deaf
      · rw [show arriving (event :: events) = event.1.flatMap Segment.bytes ++ arriving events from
          rfl, List.append_assoc] at hears
        refine ⟨receive_follows follows related _ _ (event_open _ _ (.inl hears)), ?_⟩
        have settles := receive_spec wrap event.1 event.2 hears
        generalize (calls wrap).receive l event.1 event.2 = heard at settles ⊢
        cases settles with
        | waits done later split hears' nothing answered => exact .inl ⟨later, tail, hears'⟩
        | fails some_ deaf => exact .inr deaf
      · have able : Hears l [] [] (event.1.flatMap Segment.bytes ++ []) ∨ Deaf l := .inr deaf
        refine ⟨receive_follows follows related _ _ (event_open _ _ able), ?_⟩
        obtain ⟨next, heard, deaf'⟩ := receive_deaf wrap deaf event.1 event.2
        rw [heard]
        exact .inr deaf'
    have later := ih first.1.conn first.2
    exact ⟨congr (congrArg _ first.1.messages) later.messages, by
      simp only [Calls.receiveAll, first.1.failed, later.failed], later.conn⟩

end Followers

end Crablib.ListenerProofs
