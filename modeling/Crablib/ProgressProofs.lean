import Crablib.BufferProofs
import Crablib.ChunkProofs
import Crablib.EndpointProofs

/-! Why the loop of `advance_state` gets on. Filling the read buffer moves bytes
from the socket into it and loses none, and a parser that is not good takes at
least one byte of a buffer that is not empty. What a pass that continues leaves
behind, buffered and available together, is therefore less than what it found. -/
namespace Crablib.ProgressProofs
open Http StreamsProofs BufferProofs InboundProofs ParserProofs

section Bytes

/-- The bytes in the read buffer and those the socket still has. -/
def left (b : Buffer) (s : BufferedTcpSocket) : Nat := b.size + queued s.sock.descriptor.incoming

private theorem afterRecv_queued (segment : Bytes) (count : Nat) (later : List Arrival) :
    (segment.take count).length + queued (TcpSocket.afterRecv segment count later) =
      segment.length + queued later := by
  have whole := congrArg List.length (List.take_append_drop count segment)
  rw [List.length_append] at whole
  unfold TcpSocket.afterRecv
  split
  · rename_i none
    rw [none, List.length_nil] at whole
    omega
  · rename_i first rest some
    rw [some, List.length_cons] at whole
    simp only [queued]
    omega

/-- `recv` takes the bytes it returns off the queue, and no others. -/
private theorem tcp_readSome_queued (s : TcpSocket) (count : Nat) :
    (s.readSome count).1.length + queued (s.readSome count).2.descriptor.incoming =
      queued s.descriptor.incoming := by
  unfold TcpSocket.readSome
  split
  · simp
  · split
    · simp
    · split
      · simp
      · simp
      · simp
      · rename_i first rest later some
        have taken := afterRecv_queued (first :: rest) count later
        rw [some]
        simpa only [queued, List.length_cons] using taken

private theorem readSome_queued (s : BufferedTcpSocket) (count : Nat) :
    (s.readSome count).1.length + queued (s.readSome count).2.sock.descriptor.incoming =
      queued s.sock.descriptor.incoming := by
  unfold BufferedTcpSocket.readSome
  split
  · simp
  · exact tcp_readSome_queued s.sock count

private theorem reads_queued {s t : BufferedTcpSocket} {got : Bytes}
    (reads : Reads BufferedTcpSocket.istream s got t) :
    got.length + queued t.sock.descriptor.incoming = queued s.sock.descriptor.incoming := by
  induction reads with
  | refl s => exact Nat.zero_add _
  | @step s _ _ count _ _ ih =>
    have taken := readSome_queued s count
    rw [List.length_append, Nat.add_assoc, ih]
    exact taken

/-- `read_from` moves bytes from the socket into the buffer. -/
theorem readFrom_left (b : Buffer) (s : BufferedTcpSocket) :
    (b.readFrom BufferedTcpSocket.istream s).2.1.size =
      b.size + (b.readFrom BufferedTcpSocket.istream s).1 ∧
      left (b.readFrom BufferedTcpSocket.istream s).2.1
        (b.readFrom BufferedTcpSocket.istream s).2.2 = left b s := by
  obtain ⟨got, filled⟩ := readFrom_filled BufferedTcpSocket.istream b s
  have size := congrArg List.length filled.contents
  have moved := reads_queued filled.reads
  have count := filled.count
  simp only [contents_length, List.length_append] at size
  simp only [left]
  constructor
  · omega
  · omega

variable {ε σ : Type} {p : Bytes → Except ε (σ × Bytes)} {b after : Buffer} {t : σ}

/-- Parsing takes bytes off the buffer and adds none. -/
theorem parseWith_le (parsed : b.parseWith p = .ok (t, after)) : after.size ≤ b.size := by
  unfold Buffer.parseWith at parsed
  split at parsed
  · cases parsed
  · cases parsed
    rw [size_didRead]
    exact Nat.sub_le _ _

/-- A parser that takes a byte of what it is shown takes one off a buffer that
is not empty. -/
theorem parseWith_lt (some : b.size ≠ 0)
    (takes : ∀ {bytes rest : Bytes} {u : σ}, bytes ≠ [] → p bytes = .ok (u, rest) →
      rest.length < bytes.length)
    (parsed : b.parseWith p = .ok (t, after)) : after.size < b.size := by
  have shown : b.readable ≠ [] := by
    intro none
    have count : b.readCount = 0 := by rw [← readable_length, none, List.length_nil]
    exact some (by rw [← contents_length, (readCount_eq_zero b).mp count, List.length_nil])
  have most := readCount_le b
  rw [← readable_length] at most
  unfold Buffer.parseWith at parsed
  split at parsed
  · cases parsed
  · rename_i rest parses
    cases parsed
    have fewer := takes shown parses
    rw [size_didRead]
    omega

end Bytes

section Parsers

/-- A scanner that is not good gets on. -/
theorem scan_lt {σ : Type} {m : Scanner.Machine σ UInt8 Error} {s t : σ} {b after : Buffer}
    (running : m.good s = false) (some : b.size ≠ 0)
    (parsed : b.parseWith (Scanner.scan m s) = .ok (t, after)) :
    after.size < b.size :=
  parseWith_lt some (Scanner.rest_shorter running) parsed

/-- A body parser whose body is not complete. -/
structure BodyDue (p : BodyParser) : Prop where
  sound : Sound p
  running : p.isGood = false

theorem body_lt {p q : BodyParser} {b after : Buffer} (due : BodyDue p) (some : b.size ≠ 0)
    (parsed : b.parseWith p.parse = .ok (q, after)) : after.size < b.size := by
  apply parseWith_lt some _ parsed
  intro bytes rest u shown parses
  rw [ChunkProofs.parse_scan due.sound] at parses
  exact Scanner.rest_shorter due.running shown parses

/-- A body is complete behind a parse, or the parser is due to go on. -/
theorem body_due {p q : BodyParser} {b after : Buffer} (sound : Sound p)
    (parsed : b.parseWith p.parse = .ok (q, after)) (running : q.isGood = false) : BodyDue q := by
  unfold Buffer.parseWith at parsed
  split at parsed
  · cases parsed
  · rename_i parses
    cases parsed
    exact ⟨(body_parses sound parses).1, running⟩

/-- The body of a frame that waits for bytes. -/
def FrameDue (p : WebMessageBodyParser) : Prop := p.inBody = true ∧ 0 < p.remainingBytes

/-- A frame is complete, or it waits for bytes. -/
def FrameSound (p : WebMessageBodyParser) : Prop := p.isGood = false → FrameDue p

theorem make_frameSound (payloadLen : Nat) (maskingKey : Option UInt32) :
    FrameSound (.make payloadLen maskingKey) := by
  intro running
  simp only [WebMessageBodyParser.isGood, WebMessageBodyParser.make, Bool.not_eq_false',
    decide_eq_true_eq] at running
  exact ⟨by simpa [WebMessageBodyParser.make] using running, Nat.pos_of_ne_zero running⟩

theorem FrameDue.sound {p : WebMessageBodyParser} (due : FrameDue p) : FrameSound p := fun _ => due

private theorem consume_frameSound {p : WebMessageBodyParser} (sound : FrameSound p) (bytes : Bytes) :
    FrameSound (p.consume bytes).1 := by
  unfold WebMessageBodyParser.consume
  split
  · intro running
    simp only [WebMessageBodyParser.isGood, Bool.not_eq_false', decide_eq_true_eq] at running
    exact ⟨by simpa using running, Nat.pos_of_ne_zero running⟩
  · exact sound

private theorem consume_le (p : WebMessageBodyParser) (bytes : Bytes) :
    (p.consume bytes).2.length ≤ bytes.length := by
  unfold WebMessageBodyParser.consume
  split
  · rw [List.length_drop]
    exact Nat.sub_le _ _
  · exact Nat.le_refl _

private theorem consume_lt {p : WebMessageBodyParser} (due : FrameDue p)
    {bytes : Bytes} (some : bytes ≠ []) :
    (p.consume bytes).2.length < bytes.length := by
  have length := List.length_pos_iff.mpr some
  have remaining := due.2
  simp only [WebMessageBodyParser.consume, due.1, ↓reduceIte, List.length_drop]
  omega

private theorem parseLoop_frame (passes : Nat) {p : WebMessageBodyParser}
    (sound : FrameSound p) (bytes : Bytes) :
    FrameSound (WebMessageBodyParser.parseLoop passes p bytes).1 ∧
      (WebMessageBodyParser.parseLoop passes p bytes).2.length ≤ bytes.length := by
  induction passes generalizing p bytes with
  | zero => exact ⟨sound, Nat.le_refl _⟩
  | succ passes ih =>
    unfold WebMessageBodyParser.parseLoop
    split
    · exact ⟨sound, Nat.le_refl _⟩
    · obtain ⟨sound', fewer⟩ := ih (consume_frameSound sound bytes) (p.consume bytes).2
      exact ⟨sound', Nat.le_trans fewer (consume_le p bytes)⟩

theorem frame_sound {p q : WebMessageBodyParser} {b after : Buffer} (sound : FrameSound p)
    (parsed : b.parseWith p.parse = .ok (q, after)) : FrameSound q := by
  unfold Buffer.parseWith at parsed
  split at parsed
  · cases parsed
  · rename_i parses
    cases parsed
    have ended := (parseLoop_frame b.readable.length sound b.readable).1
    rwa [Except.ok.inj parses] at ended

theorem frame_lt {p q : WebMessageBodyParser} {b after : Buffer} (due : FrameDue p) (some : b.size ≠ 0)
    (parsed : b.parseWith p.parse = .ok (q, after)) : after.size < b.size := by
  apply parseWith_lt some _ parsed
  intro bytes rest u shown parses
  obtain ⟨first, more, rfl⟩ := List.exists_cons_of_ne_nil shown
  have pass : WebMessageBodyParser.parseLoop (first :: more).length p (first :: more) =
      WebMessageBodyParser.parseLoop more.length (p.consume (first :: more)).1
        (p.consume (first :: more)).2 := by
    simp [WebMessageBodyParser.parseLoop, WebMessageBodyParser.isGood, due.1]
  have later := (parseLoop_frame more.length (consume_frameSound due.sound (first :: more))
    (p.consume (first :: more)).2).2
  rw [← pass, Except.ok.inj parses] at later
  exact Nat.lt_of_le_of_lt later (consume_lt due shown)

end Parsers

section Reader

/-- The parser that a web-socket state enters has something to do. -/
def ReaderDue (state : WebState) (w : WebReader) : Prop :=
  match state with
  | .header => w.wmHeaderParser.isGood = false
  | .body => FrameDue w.wmBodyParser
  | .ready => True

variable {w : WebReader} {b : Buffer}

/-- What follows a complete chunk is the header of the next one, or a message
is ready. -/
private theorem onChunk_due (fine : ∀ e, w.onChunk.1 ≠ .fail e) :
    ReaderDue w.onChunk.2.1 w.onChunk.2.2 := by
  unfold WebReader.onChunk at fine ⊢
  simp only at fine ⊢
  split
  · rfl
  · split
    · rfl
    · split
      · trivial
      · split
        · rename_i e joined
          simp_all
        · split
          · rfl
          · split
            · rfl
            · trivial

private theorem readBody_due (sound : FrameSound w.wmBodyParser)
    (fine : ∀ e, (w.readBody b).1 ≠ .fail e) :
    ReaderDue (w.readBody b).2.1 (w.readBody b).2.2.1 ∧ (w.readBody b).2.2.2.size ≤ b.size ∧
      (FrameDue w.wmBodyParser → b.size ≠ 0 → (w.readBody b).2.2.2.size < b.size) := by
  unfold WebReader.readBody at fine ⊢
  split
  · rename_i e failed
    simp [failed] at fine
  · rename_i parser rest parsed
    have fewer : rest.size ≤ b.size ∧ (FrameDue w.wmBodyParser → b.size ≠ 0 → rest.size < b.size) :=
      ⟨parseWith_le parsed, fun due some => frame_lt due some parsed⟩
    simp only [parsed] at fine
    simp only
    split
    · rename_i running
      exact ⟨frame_sound sound parsed (by simpa using running), fewer⟩
    · rename_i good
      rw [if_neg good] at fine
      exact ⟨onChunk_due fine, fewer⟩

/-- A pass in a web-socket state takes a byte, unless it fails, and enters a
state whose parser has something to do. -/
theorem read_due {state : WebState} (reads : state ≠ .ready)
    (due : ReaderDue state w) (some : b.size ≠ 0) (fine : ∀ e, (w.read state b).1 ≠ .fail e) :
    ReaderDue (w.read state b).2.1 (w.read state b).2.2.1 ∧ (w.read state b).2.2.2.size < b.size := by
  cases state with
  | ready => exact absurd rfl reads
  | body =>
    obtain ⟨next, -, fewer⟩ := readBody_due (FrameDue.sound due) fine
    exact ⟨next, fewer due some⟩
  | header =>
    simp only [WebReader.read, WebReader.readHeader] at fine ⊢
    split
    · rename_i e failed
      simp [failed] at fine
    · rename_i parser rest parsed
      have fewer : rest.size < b.size := scan_lt (m := WebMessageHeaderParser.machine) due some parsed
      simp only [parsed] at fine
      split
      · rename_i running
        exact ⟨by simpa [ReaderDue] using running, fewer⟩
      · rename_i good
        simp only [good, Bool.false_eq_true, ↓reduceIte] at fine
        obtain ⟨next, most, -⟩ := readBody_due (make_frameSound _ _) fine
        exact ⟨next, Nat.lt_of_le_of_lt most fewer⟩

end Reader

section Loop
open Loops

/-- A connection as the loop of `advance_state` sees it. `parserGood` says
whether the parser of the state that the connection is in has nothing to do. -/
structure Advancing (σ : Type) where
  turn : σ → Turn × σ
  tryLoop : Nat → σ → Turn × σ
  readBuffer : σ → Buffer
  sock : σ → BufferedTcpSocket
  parserGood : σ → Bool
  onException : σ → σ
  advanceState : σ → Bool × σ

namespace Advancing

variable {σ : Type} (a : Advancing σ)

/-- Buffered plus available bytes. -/
def bytesLeft (s : σ) : Nat := left (a.readBuffer s) (a.sock s)

/-- How many bytes the `switch` finds in the read buffer, which was filled
before if it was empty. -/
def shown (s : σ) : Nat :=
  if (a.readBuffer s).empty then
    ((a.readBuffer s).readFrom BufferedTcpSocket.istream (a.sock s)).2.1.size
  else (a.readBuffer s).size

/-- A pass over `s` that continues with `t`: it started with a parser that was
not good, consumed at least one byte of the read buffer, and enters the next
state with a parser that is not good. -/
structure Continues (s t : σ) : Prop where
  running : a.parserGood s = false
  consumed : (a.readBuffer t).size < a.shown s
  fewer : a.bytesLeft t < a.bytesLeft s
  next : a.parserGood t = false

/-- `advance_state` with a loop that has no counter. -/
inductive Advances (s : σ) : Bool × σ → Prop where
  | unsent (buffered : (a.sock s).getTotalBufferSize ≠ 0) : Advances s (false, s)
  | returns {result : Bool} {t : σ} (flushed : (a.sock s).getTotalBufferSize = 0)
      (ends : Ends a.turn .again s (.stop result, t)) : Advances s (result, t)
  | catches {e : Error} {t : σ} (flushed : (a.sock s).getTotalBufferSize = 0)
      (ends : Ends a.turn .again s (.throw e, t)) : Advances s (true, a.onException t)

/-- `advance_state` ends when it is called on `s`. Its loop ends with the pass
that the counted loop of the model ends with, after passes that use up bytes. -/
structure Terminates (s : σ) : Prop where
  ends : ∀ r, Ends a.turn .again s r ↔ r = a.tryLoop (a.bytesLeft s + 1) s
  advances : ∀ r, a.Advances s r ↔ r = a.advanceState s
  continues : ∀ t u, Reaches a.turn .again s t → a.turn t = (.again, u) → a.Continues t u

/-- The loop of the model counts its passes. -/
structure Models : Prop where
  counted : Counted a.turn .again a.tryLoop
  advanceState : ∀ s, a.advanceState s =
    if (a.sock s).getTotalBufferSize ≠ 0 then (false, s)
    else
      match a.tryLoop (a.bytesLeft s + 1) s with
      | (.again, t) => (false, t)
      | (.stop result, t) => (result, t)
      | (.throw _, t) => (true, a.onException t)

/-- Passes that continue keep an invariant and use up bytes. -/
def Keeps (held : σ → Prop) : Prop := ∀ s t, held s → a.turn s = (.again, t) → held t ∧ a.Continues s t

/-- What a pass leaves whose `switch` found `size` bytes in the read buffer and
`later` bytes behind them: a state that is due to go on, unless it throws, and
fewer bytes in the buffer, if it continues. -/
def Leaves (due : σ → Prop) (size later : Nat) (passed : Turn × σ) : Prop :=
  match passed.1 with
  | .throw _ => True
  | .stop _ => due passed.2
  | .again =>
    due passed.2 ∧ (a.readBuffer passed.2).size < size ∧
      queued (a.sock passed.2).sock.descriptor.incoming = later

variable {a} {due held : σ → Prop} {s t : σ}

theorem Leaves.stopped {size later : Nat} {result : Bool} (leaves : a.Leaves due size later (a.turn s))
    (stopped : a.turn s = (.stop result, t)) : due t := by
  rw [stopped] at leaves
  exact leaves

/-- A pass that continues, over a state in which no parser is good. -/
theorem Leaves.continues {b : Buffer} {sock : BufferedTcpSocket}
    (leaves : a.Leaves due b.size (queued sock.sock.descriptor.incoming) (a.turn s))
    (shown : b.size = a.shown s) (moved : left b sock = a.bytesLeft s)
    (running : ∀ s, due s → a.parserGood s = false) (start : due s) (more : a.turn s = (.again, t)) :
    due t ∧ a.Continues s t := by
  rw [more] at leaves
  obtain ⟨next, shorter, later⟩ := leaves
  have fewer : a.bytesLeft t < left b sock := by
    simp only [bytesLeft, left, later]
    exact Nat.add_lt_add_right shorter _
  exact ⟨next, running s start, shown ▸ shorter, moved ▸ fewer, running t next⟩

private theorem Keeps.lowers (keeps : a.Keeps held) : Lowers a.turn .again held a.bytesLeft := by
  intro s t before more
  obtain ⟨after, continues⟩ := keeps s t before more
  exact ⟨after, continues.fewer⟩

/-- The pass the loop ends with starts where the invariant holds. -/
theorem Keeps.last_pass (keeps : a.Keeps held)
    (counted : Counted a.turn .again a.tryLoop) (start : held s) :
    ∃ t, held t ∧ a.turn t = a.tryLoop (a.bytesLeft s + 1) s ∧ (a.turn t).1 ≠ .again := by
  have ends := keeps.lowers.ends counted start (Nat.lt_succ_self _)
  obtain ⟨t, reaches, last, stops⟩ := ends.last_pass
  exact ⟨t, keeps.lowers.reaches start reaches, last, last ▸ stops⟩

/-- A loop that ends returns what the counted one returns. -/
private theorem advances_iff (models : a.Models)
    (ends : Ends a.turn .again s (a.tryLoop (a.bytesLeft s + 1) s)) (r : Bool × σ) :
    a.Advances s r ↔ r = a.advanceState s := by
  rw [models.advanceState]
  constructor
  · intro advances
    cases advances with
    | unsent buffered => rw [if_pos buffered]
    | returns flushed ends' => rw [if_neg (fun bad => bad flushed), ← ends.unique ends']
    | catches flushed ends' => rw [if_neg (fun bad => bad flushed), ← ends.unique ends']
  · rintro rfl
    split
    · rename_i buffered
      exact .unsent buffered
    · rename_i flushed
      have empty : (a.sock s).getTotalBufferSize = 0 := Classical.not_not.mp flushed
      obtain ⟨-, -, -, stops⟩ := ends.last_pass
      generalize a.tryLoop (a.bytesLeft s + 1) s = last at ends stops
      obtain ⟨outcome, t⟩ := last
      cases outcome with
      | again => exact absurd rfl stops
      | stop result => exact .returns empty ends
      | throw e => exact .catches empty ends

/-- Why a loop gets on. Where a parser is due a pass leaves it due or ends the loop,
and where the connection is quiet no pass continues. -/
structure Progresses (a : Advancing σ) (due quiet : σ → Prop) : Prop where
  running : ∀ s, due s → a.parserGood s = false
  leaves : ∀ s, due s → ∃ b sock, b.size = a.shown s ∧ left b sock = a.bytesLeft s ∧
    a.Leaves due b.size (queued sock.sock.descriptor.incoming) (a.turn s)
  stops : ∀ s, quiet s → (a.turn s).1 = .stop false ∧ quiet (a.turn s).2
  catches : ∀ s t e, a.turn s = (.throw e, t) → quiet (a.onException t)

variable {quiet : σ → Prop}

theorem Progresses.keeps (progresses : a.Progresses due quiet) : a.Keeps fun s => due s ∨ quiet s := by
  intro s t held more
  rcases held with start | calm
  · obtain ⟨b, sock, shown, moved, leaves⟩ := progresses.leaves s start
    obtain ⟨next, continues⟩ := leaves.continues shown moved progresses.running start more
    exact ⟨.inl next, continues⟩
  · have again : (a.turn s).1 = .again := congrArg Prod.fst more
    rw [(progresses.stops s calm).1] at again
    cases again

/-- A pass that ends the loop by a return. -/
private theorem Progresses.returned {result : Bool} (progresses : a.Progresses due quiet)
    (held : due s ∨ quiet s) (stopped : a.turn s = (.stop result, t)) : due t ∨ quiet t := by
  rcases held with start | calm
  · obtain ⟨b, sock, -, -, leaves⟩ := progresses.leaves s start
    exact .inl (leaves.stopped stopped)
  · have kept := (progresses.stops s calm).2
    rw [stopped] at kept
    exact .inr kept

/-- `advance_state` leaves a parser due or the connection quiet. -/
theorem Progresses.advanceState_kept (progresses : a.Progresses due quiet) (models : a.Models)
    (held : due s ∨ quiet s) :
    due (a.advanceState s).2 ∨ quiet (a.advanceState s).2 := by
  obtain ⟨last, start, same, ended⟩ := progresses.keeps.last_pass models.counted held
  rw [models.advanceState, ← same]
  split
  · exact held
  · split
    · rename_i more
      exact absurd (congrArg Prod.fst more) ended
    · rename_i stopped
      exact progresses.returned start stopped
    · rename_i thrown
      exact .inr (progresses.catches _ _ _ thrown)

theorem Keeps.terminates (keeps : a.Keeps held) (models : a.Models)
    (start : held s) : a.Terminates s := by
  have ends := keeps.lowers.ends models.counted start (Nat.lt_succ_self _)
  constructor
  · intro r
    exact keeps.lowers.ends_iff models.counted start (Nat.lt_succ_self _)
  · exact advances_iff models ends
  · intro t u reaches more
    exact (keeps t u (keeps.lowers.reaches start reaches) more).2

end Advancing
end Loop
section Endpoints
open EndpointProofs

variable {σ : Type} {e : Endpoint σ} {good : σ → Bool} {due : σ → Prop} {s : σ}

/-- The loop of a connection, when it is known which parsers are good. -/
def looping (e : Endpoint σ) (parserGood : σ → Bool) : Advancing σ where
  turn := e.turn
  tryLoop := e.tryLoop
  readBuffer := e.readBuffer
  sock := e.sock
  parserGood := parserGood
  onException := e.onException
  advanceState := e.advanceState

theorem looping_models (models : e.Models) : (looping e good).Models where
  counted := models.counted
  advanceState s := by
    have passes : (looping e good).bytesLeft s + 1 = e.passes s := (models.passes s).symm
    rw [passes, show (looping e good).advanceState s = e.advanceState s from rfl, models.advanceState]
    split
    · rename_i buffered
      exact (if_pos buffered).symm
    · rename_i flushed
      refine Eq.trans ?_ (if_neg flushed).symm
      rw [show (looping e good).tryLoop (e.passes s) s = e.tryLoop (e.passes s) s from rfl]
      generalize e.tryLoop (e.passes s) s = last
      obtain ⟨outcome, t⟩ := last
      cases outcome <;> rfl

/-- The cases of the web-socket states. -/
theorem readWebMessage_leaves (models : e.Models) {state : WebState} (reads : state ≠ .ready)
    (reader : ReaderDue state (e.reader s)) (some : (e.readBuffer s).size ≠ 0)
    (enters : ∀ next w b, ReaderDue next w → due (e.entered s next w b))
    (writes : ∀ {t u message}, e.writeMessage t message = .ok u → due t → due u)
    (pongs : ∀ {t u body}, e.writeMessage t { opcode := .pong, body := body } = .ok u →
      e.readBuffer u = e.readBuffer t ∧
      (e.sock u).sock.descriptor.incoming = (e.sock t).sock.descriptor.incoming) :
    (looping e good).Leaves due (e.readBuffer s).size (queued (e.sock s).sock.descriptor.incoming)
      (e.readWebMessage s state) := by
  have chunk := read_due reads reader some
  rw [models.readWebMessage]
  generalize (e.reader s).read state (e.readBuffer s) = out at chunk
  obtain ⟨action, next, w, b⟩ := out
  obtain ⟨buffer, sock⟩ := models.entered s next w b
  cases action with
  | nothing =>
    obtain ⟨later, shorter⟩ := chunk (by simp)
    refine ⟨enters next w b later, ?_, ?_⟩
    · show (e.readBuffer (e.entered s next w b)).size < _
      rw [buffer]
      exact shorter
    · show queued (e.sock (e.entered s next w b)).sock.descriptor.incoming = _
      rw [sock]
  | ready => exact enters next w b (chunk (by simp)).1
  | fail error => trivial
  | answer body =>
    obtain ⟨later, shorter⟩ := chunk (by simp)
    simp only [Endpoint.deals]
    cases sent : e.writeMessage (e.entered s next w b) { opcode := .pong, body := body } with
    | error error => trivial
    | ok written =>
      obtain ⟨same, incoming⟩ := pongs sent
      refine ⟨writes sent (enters next w b later), ?_, ?_⟩
      · show (e.readBuffer written).size < _
        rw [same, buffer]
        exact shorter
      · show queued (e.sock written).sock.descriptor.incoming = _
        rw [incoming, sock]
  | notUtf8 =>
    obtain ⟨later, -⟩ := chunk (by simp)
    simp only [Endpoint.deals]
    cases sent :
        e.writeMessage (e.entered s next w b)
        { opcode := .close, closeCode := WebMessage.closeStatusNotUtf8 } with
    | error error => trivial
    | ok written => exact writes sent (enters next w b later)

/-- A pass fills the buffer if it is empty, and stops if there is nothing to parse
then. -/
theorem turn_leaves (models : e.Models) (fills : ∀ s b sock, due s → due (e.filled s b sock))
    (switches : ∀ s, due s → (e.readBuffer s).size ≠ 0 →
      (looping e good).Leaves due (e.readBuffer s).size
      (queued (e.sock s).sock.descriptor.incoming) (e.switchState s)) (start : due s) :
    ∃ b sock, b.size = (looping e good).shown s ∧ left b sock = (looping e good).bytesLeft s ∧
      (looping e good).Leaves due b.size (queued sock.sock.descriptor.incoming) (e.turn s) := by
  obtain ⟨size, moved⟩ := readFrom_left (e.readBuffer s) (e.sock s)
  by_cases empty : (e.readBuffer s).empty = true
  · refine ⟨_, _, (if_pos empty).symm, moved, ?_⟩
    rw [models.turn, if_pos empty]
    simp only
    split
    · exact fills _ _ _ start
    · rename_i some
      obtain ⟨buffer, sock, -⟩ :=
        models.filled s ((e.readBuffer s).readFrom BufferedTcpSocket.istream (e.sock s)).2.1
        ((e.readBuffer s).readFrom BufferedTcpSocket.istream (e.sock s)).2.2
      have leaves := switches _ (fills s _ _ start) (by rw [buffer]; omega)
      rwa [buffer, sock] at leaves
  · refine ⟨e.readBuffer s, e.sock s, (if_neg empty).symm, rfl, ?_⟩
    have some : (e.readBuffer s).size ≠ 0 := by simpa [Buffer.empty] using empty
    rw [models.turn, if_neg empty]
    exact switches s start some

end Endpoints

end Crablib.ProgressProofs
