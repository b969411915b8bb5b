import Crablib.Http.ClientConnection
import Crablib.Http.ServerConnection
import Crablib.InboundProofs
import Crablib.Library.Loops

/-! The source has the loop of `advance_state` twice, in `ServerConnection` and in
`ClientConnection`. A pass fills the read buffer if it is empty and goes by the state
of the connection, and what a pass throws is caught behind the loop; the two differ in
their states and in how a message is put into a frame. What follows from the loop and
from the cases of the web-socket states is stated here, for both. -/
namespace Crablib.EndpointProofs
open Http StreamsProofs InboundProofs

/-- What follows a pass in the loop. -/
def goOn {σ : Type} (loop : σ → Turn × σ) (out : Turn × σ) : Turn × σ :=
  match out.1 with
  | .again => loop out.2
  | _ => out

theorem counted_of {σ : Type} {turn : σ → Turn × σ} {loop : Nat → σ → Turn × σ}
    (steps : ∀ n s, loop (n + 1) s = goOn (loop n) (turn s)) : Loops.Counted turn .again loop where
  more n s t more := by rw [steps, more, goOn]
  last n s last := by
    rw [steps, goOn]
    split
    · rename_i more
      exact absurd more last
    · rfl

/-- A connection as its loop sees it. -/
structure Endpoint (σ : Type) where
  readBuffer : σ → Buffer
  sock : σ → BufferedTcpSocket
  reader : σ → WebReader
  filled : σ → Buffer → BufferedTcpSocket → σ
  entered : σ → WebState → WebReader → Buffer → σ
  writeMessage : σ → WebMessage → Except Error σ
  readWebMessage : σ → WebState → Turn × σ
  switchState : σ → Turn × σ
  turn : σ → Turn × σ
  onException : σ → σ
  tryLoop : Nat → σ → Turn × σ
  passes : σ → Nat
  advanceState : σ → Bool × σ

namespace Endpoint
variable {σ : Type} (e : Endpoint σ)

/-- What a pass makes of a chunk. -/
def deals (s : σ) : ChunkAction → Turn × σ
  | .nothing => (.again, s)
  | .ready => (.stop true, s)
  | .fail e => (.throw e, s)
  | .answer body => written .again (e.writeMessage s { opcode := .pong, body := body })
  | .notUtf8 =>
    written (.stop false) (e.writeMessage s
      { opcode := .close, closeCode := WebMessage.closeStatusNotUtf8 })
where
  written (next : Turn) : Except Error σ → Turn × σ
    | .error e => (.throw e, s)
    | .ok t => (next, t)

/-- What `advance_state` makes of the pass its loop ends with. -/
def settled (out : Turn × σ) : Bool × σ :=
  match out.1 with
  | .again => (false, out.2)
  | .stop result => (result, out.2)
  | .throw _ => (true, e.onException out.2)

/-- The code both connections have. -/
structure Models : Prop where
  filled : ∀ s b sock, e.readBuffer (e.filled s b sock) = b ∧ e.sock (e.filled s b sock) = sock ∧
    e.reader (e.filled s b sock) = e.reader s
  entered : ∀ s state w b, e.readBuffer (e.entered s state w b) = b ∧
    e.sock (e.entered s state w b) = e.sock s
  refilled : ∀ s, e.filled s (e.readBuffer s) (e.sock s) = s
  readWebMessage : ∀ s state, e.readWebMessage s state =
    let chunk := (e.reader s).read state (e.readBuffer s)
    e.deals (e.entered s chunk.2.1 chunk.2.2.1 chunk.2.2.2) chunk.1
  turn : ∀ s, e.turn s =
    if (e.readBuffer s).empty then
      let got := (e.readBuffer s).readFrom BufferedTcpSocket.istream (e.sock s)
      let s := e.filled s got.2.1 got.2.2
      if got.1 = 0 then (.stop false, s) else e.switchState s
    else e.switchState s
  idle : ∀ s, e.tryLoop 0 s = (.stop false, s)
  counted : Loops.Counted e.turn .again e.tryLoop
  passes : ∀ s, e.passes s = (e.readBuffer s).size + queued (e.sock s).sock.descriptor.incoming + 1
  advanceState : ∀ s, e.advanceState s =
    if (e.sock s).getTotalBufferSize ≠ 0 then (false, s) else e.settled (e.tryLoop (e.passes s) s)

/-- Whether `advance_state` would catch an exception. -/
def catches (s : σ) : Bool :=
  (e.sock s).getTotalBufferSize == 0 &&
    match (e.tryLoop (e.passes s) s).1 with
    | .throw _ => true
    | _ => false

/-- What a pass leaves behind, the `catch` included. -/
def Caught (P : σ → Prop) (out : Turn × σ) : Prop :=
  match out.1 with
  | .throw _ => P (e.onException out.2)
  | _ => P out.2

variable {e} {P : σ → Prop} {s t : σ}

theorem Caught.mono {Q : σ → Prop} (implies : ∀ s, P s → Q s) {out : Turn × σ}
    (caught : e.Caught P out) : e.Caught Q out := by
  obtain ⟨outcome, t⟩ := out
  cases outcome <;> exact implies _ caught

namespace Models

/-- The pass in which the loop throws starts where every pass starts. -/
theorem throws (models : e.Models) (keeps : ∀ s, P s → P (e.turn s).2) {error : Error}
    {n : Nat} (start : P s) (thrown : e.tryLoop n s = (.throw error, t)) :
    ∃ last, P last ∧ e.turn last = (.throw error, t) := by
  refine models.counted.run (Q := fun out => out = (.throw error, t) → ∃ last, P last ∧
    e.turn last = (.throw error, t)) ?_ ?_ ?_ n start thrown
  · intro s _ thrown
    rw [models.idle] at thrown
    cases thrown
  · intro s next held more
    have kept := keeps s held
    rwa [more] at kept
  · intro s held _ thrown
    exact ⟨s, held, thrown⟩

/-- What every pass leaves behind, `advance_state` leaves behind. -/
theorem caught (models : e.Models) (turns : ∀ s, P s → e.Caught P (e.turn s)) (start : P s) :
    P (e.advanceState s).2 := by
  have looped : e.Caught P (e.tryLoop (e.passes s) s) := by
    refine models.counted.run (P := P) (Q := e.Caught P) ?_ ?_ ?_ _ start
    · intro s held
      rw [models.idle]
      exact held
    · intro s next held more
      have turned := turns s held
      rwa [more] at turned
    · exact fun s held _ => turns s held
  rw [models.advanceState]
  split
  · exact start
  · generalize e.tryLoop (e.passes s) s = out at looped
    obtain ⟨outcome, t⟩ := out
    cases outcome <;> exact looped

/-- What every pass keeps, and the `catch` after a pass that throws, is kept by
`advance_state`. -/
theorem preserves (models : e.Models) (keeps : ∀ s, P s → P (e.turn s).2)
    (catches : ∀ s error t, P s → e.turn s = (.throw error, t) → P (e.onException t)) (start : P s) :
    P (e.advanceState s).2 := by
  refine models.caught (fun s held => ?_) start
  have kept := keeps s held
  cases turned : e.turn s with
  | mk outcome t =>
    rw [turned] at kept
    cases outcome with
    | throw error => exact catches s error t held turned
    | again => exact kept
    | stop result => exact kept

/-- The read buffer and the socket a pass works on. -/
theorem turn_cases (models : e.Models) (s : σ) : ∃ b sock, Quiet (e.sock s) sock ∧
    (e.turn s = (.stop false, e.filled s b sock) ∨ e.turn s = e.switchState (e.filled s b sock)) := by
  rw [models.turn]
  split
  · refine ⟨((e.readBuffer s).readFrom BufferedTcpSocket.istream (e.sock s)).2.1,
      ((e.readBuffer s).readFrom BufferedTcpSocket.istream (e.sock s)).2.2,
      readFrom_quiet (e.readBuffer s) (e.sock s), ?_⟩
    simp only
    split
    · exact .inl rfl
    · exact .inr rfl
  · exact ⟨e.readBuffer s, e.sock s, Quiet.refl _, .inr (by rw [models.refilled])⟩

end Models

/-- Two connections with the same bytes before them that deal alike with what they
read. -/
structure Alike {τ : Type} (e : Endpoint σ) (f : Endpoint τ) (R : σ → τ → Prop) : Prop where
  readBuffer : ∀ {s t}, R s t → e.readBuffer s = f.readBuffer t
  sock : ∀ {s t}, R s t → e.sock s = f.sock t
  reader : ∀ {s t}, R s t → e.reader s = f.reader t
  filled : ∀ {s t} b sock, R s t → R (e.filled s b sock) (f.filled t b sock)
  entered : ∀ {s t} state w b, R s t → R (e.entered s state w b) (f.entered t state w b)
  writeMessage : ∀ {s t} message, R s t →
    ∃ written said, e.writeMessage s message = .ok written ∧
    f.writeMessage t message = .ok said ∧ R written said
  switchState : ∀ {s t}, R s t → e.switchState s = (.stop false, s) ∧
    f.switchState t = (.stop false, t) ∨
    ∃ state, e.switchState s = e.readWebMessage s state ∧ f.switchState t = f.readWebMessage t state
  onException : ∀ {s t}, R s t → R (e.onException s) (f.onException t)

namespace Alike
variable {τ : Type} {f : Endpoint τ} {R : σ → τ → Prop} {u : τ}

theorem readWebMessage (alike : Alike e f R) (models : e.Models) (models' : f.Models)
    (related : R s u) (state : WebState) :
    (e.readWebMessage s state).1 = (f.readWebMessage u state).1 ∧
      R (e.readWebMessage s state).2 (f.readWebMessage u state).2 := by
  rw [models.readWebMessage, models'.readWebMessage, alike.reader related, alike.readBuffer related]
  generalize (f.reader u).read state (f.readBuffer u) = chunk
  obtain ⟨action, state', w, b⟩ := chunk
  have next := alike.entered state' w b related
  cases action with
  | nothing => exact ⟨rfl, next⟩
  | ready => exact ⟨rfl, next⟩
  | fail error => exact ⟨rfl, next⟩
  | answer body =>
    obtain ⟨written, said, wrote, spoke, after⟩ :=
      alike.writeMessage { opcode := .pong, body := body } next
    simp only [deals, deals.written, wrote, spoke]
    exact ⟨trivial, after⟩
  | notUtf8 =>
    obtain ⟨written, said, wrote, spoke, after⟩ :=
      alike.writeMessage { opcode := .close, closeCode := WebMessage.closeStatusNotUtf8 } next
    simp only [deals, deals.written, wrote, spoke]
    exact ⟨trivial, after⟩

theorem switch (alike : Alike e f R) (models : e.Models) (models' : f.Models) (related : R s u) :
    (e.switchState s).1 = (f.switchState u).1 ∧ R (e.switchState s).2 (f.switchState u).2 := by
  rcases alike.switchState related with ⟨same, same'⟩ | ⟨state, same, same'⟩
  · rw [same, same']
    exact ⟨rfl, related⟩
  · rw [same, same']
    exact alike.readWebMessage models models' related state

theorem turn (alike : Alike e f R) (models : e.Models) (models' : f.Models) (related : R s u) :
    (e.turn s).1 = (f.turn u).1 ∧ R (e.turn s).2 (f.turn u).2 := by
  rw [models.turn, models'.turn, alike.readBuffer related, alike.sock related]
  split
  · have filled := alike.filled ((f.readBuffer u).readFrom BufferedTcpSocket.istream (f.sock u)).2.1
      ((f.readBuffer u).readFrom BufferedTcpSocket.istream (f.sock u)).2.2 related
    simp only
    split
    · exact ⟨rfl, filled⟩
    · exact alike.switch models models' filled
  · exact alike.switch models models' related

theorem tryLoop (alike : Alike e f R) (models : e.Models) (models' : f.Models)
    (related : R s u) (passes : Nat) :
    (e.tryLoop passes s).1 = (f.tryLoop passes u).1 ∧ R (e.tryLoop passes s).2 (f.tryLoop passes u).2 :=
  models.counted.follows models'.counted
    (fun s u related => by simpa [models.idle, models'.idle] using related)
    (fun _ _ => alike.turn models models') passes related

theorem passes (alike : Alike e f R) (models : e.Models) (models' : f.Models) (related : R s u) :
    e.passes s = f.passes u := by
  rw [models.passes, models'.passes, alike.readBuffer related, alike.sock related]

theorem advanceState (alike : Alike e f R) (models : e.Models) (models' : f.Models) (related : R s u) :
    (e.advanceState s).1 = (f.advanceState u).1 ∧ R (e.advanceState s).2 (f.advanceState u).2 := by
  obtain ⟨same, next⟩ := alike.tryLoop models models' related (f.passes u)
  rw [models.advanceState, models'.advanceState, alike.sock related, alike.passes models models' related]
  split
  · exact ⟨rfl, related⟩
  · generalize e.tryLoop (f.passes u) s = first at same next
    generalize f.tryLoop (f.passes u) u = second at same next
    obtain ⟨outcome, s'⟩ := first
    obtain ⟨outcome', u'⟩ := second
    subst same
    cases outcome with
    | again => exact ⟨rfl, next⟩
    | stop result => exact ⟨rfl, next⟩
    | throw error => exact ⟨rfl, alike.onException next⟩

theorem catches (alike : Alike e f R) (models : e.Models) (models' : f.Models) (related : R s u) :
    e.catches s = f.catches u := by
  rw [Endpoint.catches, Endpoint.catches, alike.sock related, alike.passes models models' related,
    (alike.tryLoop models models' related _).1]

end Alike
end Endpoint

def server : Endpoint ServerConnection where
  readBuffer := ServerConnection.readBuffer
  sock := ServerConnection.sock
  reader := ServerConnection.reader
  filled c b sock := { c with readBuffer := b, sock := sock }
  entered c state w b := { c with state := .web state, reader := w, readBuffer := b }
  writeMessage c message := c.writeMessage message .write
  readWebMessage := ServerConnection.readWebMessage
  switchState := ServerConnection.switchState
  turn := ServerConnection.turn
  onException := ServerConnection.onException
  tryLoop := ServerConnection.tryLoop
  passes := ServerConnection.passes
  advanceState := ServerConnection.advanceState

def client : Endpoint ClientConnection where
  readBuffer := ClientConnection.readBuffer
  sock := ClientConnection.sock
  reader := ClientConnection.reader
  filled c b sock := { c with readBuffer := b, sock := sock }
  entered c state w b := { c with state := .web state, reader := w, readBuffer := b }
  writeMessage := ClientConnection.writeMessage
  readWebMessage := ClientConnection.readWebMessage
  switchState := ClientConnection.switchState
  turn := ClientConnection.turn
  onException := ClientConnection.onException
  tryLoop := ClientConnection.tryLoop
  passes := ClientConnection.passes
  advanceState := ClientConnection.advanceState

theorem server_models : server.Models where
  filled _ _ _ := ⟨rfl, rfl, rfl⟩
  entered _ _ _ _ := ⟨rfl, rfl⟩
  refilled _ := rfl
  readWebMessage c state := by
    show c.readWebMessage state = _
    simp only [ServerConnection.readWebMessage, server, Endpoint.deals]
    generalize c.reader.read state c.readBuffer = chunk
    obtain ⟨action, next, w, b⟩ := chunk
    cases action with
    | answer body => simp only; split <;> rename_i said <;> rw [said] <;> rfl
    | notUtf8 => simp only; split <;> rename_i said <;> rw [said] <;> rfl
    | _ => rfl
  turn _ := rfl
  idle _ := rfl
  counted := counted_of fun n c => by
    show ServerConnection.tryLoop (n + 1) c = goOn (ServerConnection.tryLoop n) c.turn
    rw [ServerConnection.tryLoop]
    generalize c.turn = out
    obtain ⟨outcome, d⟩ := out
    cases outcome <;> rfl
  passes _ := rfl
  advanceState c := by
    show c.advanceState = if c.sock.getTotalBufferSize ≠ 0 then (false, c)
      else server.settled (ServerConnection.tryLoop c.passes c)
    rw [ServerConnection.advanceState]
    generalize ServerConnection.tryLoop c.passes c = out
    obtain ⟨outcome, d⟩ := out
    cases outcome <;> rfl

theorem client_models : client.Models where
  filled _ _ _ := ⟨rfl, rfl, rfl⟩
  entered _ _ _ _ := ⟨rfl, rfl⟩
  refilled _ := rfl
  readWebMessage c state := by
    show c.readWebMessage state = _
    simp only [ClientConnection.readWebMessage, client, Endpoint.deals]
    generalize c.reader.read state c.readBuffer = chunk
    obtain ⟨action, next, w, b⟩ := chunk
    cases action with
    | answer body => simp only; split <;> rename_i said <;> rw [said] <;> rfl
    | notUtf8 => simp only; split <;> rename_i said <;> rw [said] <;> rfl
    | _ => rfl
  turn _ := rfl
  idle _ := rfl
  counted := counted_of fun n c => by
    show ClientConnection.tryLoop (n + 1) c = goOn (ClientConnection.tryLoop n) c.turn
    rw [ClientConnection.tryLoop]
    generalize c.turn = out
    obtain ⟨outcome, d⟩ := out
    cases outcome <;> rfl
  passes _ := rfl
  advanceState c := by
    show c.advanceState = if c.sock.getTotalBufferSize ≠ 0 then (false, c)
      else client.settled (ClientConnection.tryLoop c.passes c)
    rw [ClientConnection.advanceState]
    generalize ClientConnection.tryLoop c.passes c = out
    obtain ⟨outcome, d⟩ := out
    cases outcome <;> rfl

end Crablib.EndpointProofs
