import Crablib.Http.BodyPosition

/-! What `get_body_position` counts while a body is streamed: every byte but those of
the strings that a socket keeps as they are, which are empty when they are counted. -/
namespace Crablib.BodyPositionProofs
open Http

section Strings

/-- A string that a socket keeps as an element of its own. A small one joins a small
last element instead. -/
def TakesOver (s : BufferedTcpSocket) (ss : Bytes) : Prop :=
  s.isOpen = true ∧ s.writeShutdownAsked = false ∧ ss ≠ [] ∧
    ∀ back, s.dataToWrite.getLast? = some back → ¬(back.size < 1024 ∧ ss.length < 1024)

/-- The socket as a string that is part of a body finds it, behind what is written
before it. -/
def reached (c : ServerConnection) (ss : Bytes) : BufferedTcpSocket :=
  if c.writingWebMessageBody then c.sock.buffer (webMessageHeader false 0 ss.length none)
  else if c.remainingBodyContentLength.isSome then c.sock
  else c.sock.buffer (hex ss.length ++ crlf)

private theorem bufferMoved_snd (s : BufferedTcpSocket) (ss : Bytes) :
    TakesOver s ss ∧ (s.bufferMoved ss).2 = [] ∨ ¬TakesOver s ss ∧ (s.bufferMoved ss).2 = ss := by
  unfold BufferedTcpSocket.bufferMoved
  split
  · rename_i refused
    refine .inr ⟨?_, rfl⟩
    rintro ⟨opened, asked, some_, -⟩
    simp [opened, asked, some_] at refused
  · rename_i taken
    simp only [Bool.or_eq_true, not_or, Bool.not_eq_true, Bool.not_eq_false',
      List.isEmpty_eq_false_iff] at taken
    obtain ⟨⟨opened, asked⟩, some_⟩ := taken
    cases last : s.dataToWrite.getLast? with
    | none => exact .inl ⟨⟨opened, asked, some_, by simp [last]⟩, rfl⟩
    | some back =>
      dsimp only
      split
      · rename_i small
        exact .inr ⟨fun takes => takes.2.2.2 back last small, rfl⟩
      · rename_i large
        refine .inl ⟨⟨opened, asked, some_, ?_⟩, rfl⟩
        intro back' last'
        cases last.symm.trans last'
        exact large

/-- What a string write leaves of its argument: nothing exactly if the socket takes the
string over. -/
def Leaves (c : ServerConnection) (ss left : Bytes) : Prop :=
  TakesOver (reached c ss) ss ∧ left = [] ∨ ¬TakesOver (reached c ss) ss ∧ left = ss

private theorem leaves_empty (c : ServerConnection) {ss : Bytes}
    (none : ss.length = 0) : Leaves c ss ss := by
  refine .inr ⟨?_, rfl⟩
  rintro ⟨-, -, some_, -⟩
  exact some_ (List.length_eq_zero_iff.mp none)

/-- The function of the connection is the one that returns no string. -/
theorem writeMoved_spec (c : ServerConnection) (ss : Bytes) (bo : BufferOptions) :
    (∃ e, c.writeString ss bo = .error e ∧ c.writeMoved ss bo = .error e) ∨
      ∃ d left, c.writeString ss bo = .ok d ∧ c.writeMoved ss bo = .ok (d, left) ∧ Leaves c ss left := by
  obtain ⟨readBuffer, requestParser, bodyParser, reader, timer, remaining, sock, state, writing⟩ := c
  unfold ServerConnection.writeString ServerConnection.writeBody ServerConnection.writeMoved
  cases may : ServerConnection.isWritingBody _ with
  | false => exact .inl ⟨_, rfl, rfl⟩
  | true =>
    cases writing with
    | true =>
      by_cases none : ss.length = 0
      · simp only [none, ServerConnection.sendFrame, ↓reduceIte]
        exact .inr ⟨_, ss, rfl, rfl, leaves_empty _ none⟩
      · simp only [none, ServerConnection.sendFrame, ↓reduceIte, BufferedTcpSocket.writeMoved_fst,
          BufferedTcpSocket.writeMoved_snd]
        exact .inr ⟨_, _, rfl, rfl, bufferMoved_snd _ ss⟩
    | false =>
      cases remaining with
      | none =>
        by_cases none : ss.length = 0
        · simp only [none, ServerConnection.sendChunk, ↓reduceIte]
          exact .inr ⟨_, ss, rfl, rfl, leaves_empty _ none⟩
        · simp only [none, ServerConnection.sendChunk, ↓reduceIte, BufferedTcpSocket.bufferMoved_fst]
          exact .inr ⟨_, _, rfl, rfl, bufferMoved_snd _ ss⟩
      | some remaining =>
        by_cases within : ss.length ≤ remaining
        · simp only [within, ServerConnection.sendCounted, BufferedTcpSocket.writeMoved_fst,
            BufferedTcpSocket.writeMoved_snd]
          exact .inr ⟨_, _, rfl, rfl, bufferMoved_snd _ ss⟩
        · simp only [within]
          exact .inl ⟨_, rfl, rfl⟩

/-- The position aside, the two overloads are those of `Client`. -/
theorem writeString_performs (p : StreamingClient) (ss : Bytes) (bo : BufferOptions) (date : Bytes) :
    p.client.perform date (.writeString ss bo) =
      match p.writeString ss bo with
      | .error e => (.error e, p.client)
      | .ok next => (.ok (), next.client) := by
  unfold Client.perform StreamingClient.writeString
  obtain ⟨e, failed, same⟩ | ⟨d, left, wrote, same, -⟩ := writeMoved_spec p.client.conn ss bo
  · simp only [failed, same]
    rfl
  · simp only [wrote, same]
    rfl

theorem writeData_performs (p : StreamingClient) (val : Bytes) (bo : BufferOptions) (date : Bytes) :
    p.client.perform date (.writeData val bo) =
      match p.writeData val bo with
      | .error e => (.error e, p.client)
      | .ok next => (.ok (), next.client) := by
  unfold Client.perform StreamingClient.writeData
  cases wrote : p.client.conn.writeData val bo with
  | error e =>
    simp only [wrote]
    rfl
  | ok d =>
    simp only [wrote]
    rfl

end Strings

section Streams

/-- What happens while a body is streamed: a call of one of the two overloads, or
anything else the client and the run loop do, none of which touches the position. -/
inductive StreamStep where
  | data (val : Bytes) (bo : BufferOptions)
  | string (ss : Bytes) (bo : BufferOptions)
  | elsewhere (next : Client)

/-- A call that throws changes nothing. -/
def step (p : StreamingClient) : StreamStep → StreamingClient
  | .data val bo => (p.writeData val bo).toOption.getD p
  | .string ss bo => (p.writeString ss bo).toOption.getD p
  | .elsewhere next => { p with client := next }

/-- The bytes passed to a call that returns. -/
def passed (p : StreamingClient) : StreamStep → Nat
  | .data val bo => if (p.client.conn.writeData val bo).isOk then val.length else 0
  | .string ss bo => if (p.client.conn.writeString ss bo).isOk then ss.length else 0
  | .elsewhere _ => 0

/-- The socket takes over the string of a call that returns. -/
def Overtakes (p : StreamingClient) : StreamStep → Prop
  | .string ss bo =>
    (p.client.conn.writeString ss bo).isOk = true ∧ TakesOver (reached p.client.conn ss) ss
  | _ => False

def run (p : StreamingClient) (steps : List StreamStep) : StreamingClient := steps.foldl step p

/-- The bytes passed to all calls of a stream that return. -/
def passedAll (p : StreamingClient) : List StreamStep → Nat
  | [] => 0
  | first :: steps => passed p first + passedAll (step p first) steps

/-- No string of a stream is taken over. -/
def Copied (p : StreamingClient) (steps : List StreamStep) : Prop :=
  ∀ front call back, steps = front ++ call :: back → ¬Overtakes (run p front) call

/-- The bytes that one step counts are those passed, less the string if it is taken over. -/
private theorem step_position (p : StreamingClient) (call : StreamStep) :
    ∃ counted, (step p call).bodyPosition = p.bodyPosition + UInt64.ofNat counted ∧
      (Overtakes p call ∧ counted < passed p call ∨ ¬Overtakes p call ∧ counted = passed p call) := by
  cases call with
  | elsewhere next => exact ⟨0, by simp [step], .inr ⟨id, rfl⟩⟩
  | data val bo =>
    simp only [step, passed, Overtakes, StreamingClient.writeData]
    cases p.client.conn.writeData val bo with
    | error e => exact ⟨0, by simp [Except.toOption], .inr ⟨id, rfl⟩⟩
    | ok d => exact ⟨val.length, rfl, .inr ⟨id, rfl⟩⟩
  | string ss bo =>
    simp only [step, passed, Overtakes, StreamingClient.writeString]
    obtain ⟨e, failed, same⟩ | ⟨d, left, wrote, same, leaves⟩ := writeMoved_spec p.client.conn ss bo
    · rw [failed, same]
      refine ⟨0, by simp [Except.toOption], .inr ⟨?_, rfl⟩⟩
      rintro ⟨returned, -⟩
      cases returned
    · rw [wrote, same]
      refine ⟨left.length, rfl, ?_⟩
      obtain ⟨takes, rfl⟩ | ⟨keeps, rfl⟩ := leaves
      · exact .inl ⟨⟨rfl, takes⟩, List.length_pos_iff.mpr takes.2.2.1⟩
      · exact .inr ⟨fun overtakes => keeps overtakes.2, rfl⟩

private theorem copied_cons (p : StreamingClient) (first : StreamStep) (steps : List StreamStep) :
    Copied p (first :: steps) ↔ ¬Overtakes p first ∧ Copied (step p first) steps := by
  constructor
  · intro copied
    refine ⟨copied [] first steps rfl, ?_⟩
    rintro front call back rfl
    exact copied (first :: front) call back rfl
  · rintro ⟨here, later⟩ front call back same
    cases front with
    | nil =>
      cases same
      exact here
    | cons other front =>
      cases same
      exact later front call back rfl

/-- The bytes counted in a whole stream. -/
private theorem run_position (p : StreamingClient) (steps : List StreamStep) :
    ∃ counted, (run p steps).bodyPosition = p.bodyPosition + UInt64.ofNat counted ∧
      counted ≤ passedAll p steps ∧ (counted = passedAll p steps ↔ Copied p steps) := by
  induction steps generalizing p with
  | nil => exact ⟨0, by simp [run], Nat.le_refl _, fun _ => by simp [Copied], fun _ => rfl⟩
  | cons first steps ih =>
    obtain ⟨here, position, overtakes⟩ := step_position p first
    obtain ⟨later, position', within, exact_⟩ := ih (step p first)
    refine ⟨here + later, ?_, ?_, ?_⟩
    · rw [run, List.foldl_cons, ← run, position', position, UInt64.add_assoc, UInt64.ofNat_add]
    · rw [passedAll]
      omega
    · rw [copied_cons, ← exact_, passedAll]
      obtain ⟨takes, less⟩ | ⟨keeps, same⟩ := overtakes
      · exact ⟨fun all => by omega, fun copied => absurd takes copied.1⟩
      · exact ⟨fun all => ⟨keeps, by omega⟩, fun copied => by omega⟩

private theorem passedAll_append (p : StreamingClient) (front back : List StreamStep) :
    passedAll p (front ++ back) = passedAll p front + passedAll (run p front) back := by
  induction front generalizing p with
  | nil => simp [passedAll, run]
  | cons first front ih =>
    rw [List.cons_append, passedAll, passedAll, ih, Nat.add_assoc]
    rfl

/-- A stream that starts at position 0. -/
inductive Starts (before : StreamingClient) : StreamingClient → Prop where
  | response {response : ResponseHeader} {date : Bytes} {p : StreamingClient}
      (started : before.startWriteStream response date = .ok p) : Starts before p
  | message {opcode : WebMessageOpcode} {p : StreamingClient}
      (started : before.startWriteMessage opcode = .ok p) : Starts before p

private theorem Starts.position {before p : StreamingClient} (starts : Starts before p) :
    p.bodyPosition = 0 := by
  cases starts with
  | response started =>
    unfold StreamingClient.startWriteStream at started
    split at started
    · cases started
    · cases started
      rfl
  | message started =>
    unfold StreamingClient.startWriteMessage at started
    split at started
    · cases started
    · cases started
      rfl

/-- For every stream that `start_write_stream` starts and all that happens in it,
`get_body_position` is the number of bytes passed to the calls so far after each of
them exactly if no string is taken over by the socket, as long as the number fits. -/
theorem body_position_counts_iff {before p : StreamingClient} (starts : Starts before p)
    (steps : List StreamStep) :
    (∀ front, front <+: steps → (run p front).getBodyPosition.toNat = passedAll p front) ↔
      Copied p steps ∧ passedAll p steps < 2 ^ 64 := by
  have counts : ∀ front, (run p front).getBodyPosition.toNat = passedAll p front ↔
      Copied p front ∧ passedAll p front < 2 ^ 64 := by
    intro front
    obtain ⟨counted, position, within, exact_⟩ := run_position p front
    rw [StreamingClient.getBodyPosition, position, starts.position, UInt64.zero_add,
      UInt64.toNat_ofNat', ← exact_]
    omega
  constructor
  · intro all
    exact (counts steps).mp (all steps (List.prefix_refl steps))
  · rintro ⟨copied, small⟩ front ⟨back, rfl⟩
    apply (counts front).mpr
    rw [passedAll_append] at small
    refine ⟨?_, by omega⟩
    rintro first call middle rfl
    exact copied first call (middle ++ back) (by simp)

private theorem passed_data_le (p : StreamingClient) (val : Bytes) (bo : BufferOptions) :
    passed p (.data val bo) ≤ val.length := by
  unfold passed
  dsimp only
  split
  · exact Nat.le_refl _
  · exact Nat.zero_le _

private theorem passed_string_le (p : StreamingClient) (ss : Bytes) (bo : BufferOptions) :
    passed p (.string ss bo) ≤ ss.length := by
  unfold passed
  dsimp only
  split
  · exact Nat.le_refl _
  · exact Nat.zero_le _

/-- A client that is to answer, on a socket that takes everything. -/
def answering : StreamingClient :=
  { client :=
      { conn :=
          { state := .responseHeader,
            sock := { sock := { fdValid := true, canRead := true, canWrite := true } } } } }

theorem body_position_counts_pointer :
    ∃ p, Starts answering p ∧ ∀ front, front <+: [.data (str "hello") .write, .string [] .write] →
      (run p front).getBodyPosition.toNat = passedAll p front := by
  obtain ⟨p, started⟩ :
      ∃ p, answering.startWriteStream { contentLength := some 5, status := 200 } [] = .ok p := ⟨_, rfl⟩
  have starts : Starts answering p := .response started
  refine ⟨p, starts, (body_position_counts_iff starts _).mpr ⟨?_, ?_⟩⟩
  · intro front call back same overtakes
    have member : call ∈ [StreamStep.data (str "hello") .write, .string [] .write] := by simp [same]
    simp only [List.mem_cons, List.not_mem_nil, or_false] at member
    rcases member with rfl | rfl
    · exact overtakes
    · exact overtakes.2.2.2.1 rfl
  · have first := passed_data_le p (str "hello") .write
    have second := passed_string_le (step p (.data (str "hello") .write)) [] .write
    have five : (str "hello").length = 5 := rfl
    simp only [passedAll, List.length_nil] at second ⊢
    omega

/-- A string that is written to a socket with nothing left to send is not counted. -/
theorem body_position_missed :
    ∃ p, Starts answering p ∧ passedAll p [.string (str "hello") .write] = 5 ∧
      (run p [.string (str "hello") .write]).getBodyPosition = 0 := by
  have started : answering.startWriteStream { contentLength := some 5, status := 200 } [] = .ok _ := rfl
  refine ⟨_, .response started, ?_, ?_⟩
  · decide +kernel
  · decide +kernel

end Streams

end Crablib.BodyPositionProofs
