import Crablib.EndpointProofs
import Crablib.ServerRun

/-! What each operation of a server connection can do, said once: the results a
call can have, and what `advance_state` keeps when every pass of its loop keeps
it. Later modules never unfold the operations again. -/
namespace Crablib.ServerConnectionProofs
open Http ServerConnection ServerRun StreamsProofs SocketProofs InboundProofs EndpointProofs

variable {c d : ServerConnection}

theorem writeMessage_ok {message : WebMessage} {bo : BufferOptions}
    (done : c.writeMessage message bo = .ok d) :
    c.isOpen = false ∧ d = c ∨
      c.isOpen = true ∧ c.isStateWebsocket = true ∧ d = c.sendMessage message bo := by
  cases opened : c.isOpen with
  | false =>
    simp [writeMessage, opened] at done
    exact .inl ⟨rfl, done.symm⟩
  | true =>
    simp [writeMessage, opened] at done
    exact .inr ⟨rfl, done.1, done.2.2.symm⟩

/-- A message is written only when none is being streamed. -/
theorem writeMessage_whole {message : WebMessage} {bo : BufferOptions} (opened : c.isOpen = true)
    (done : c.writeMessage message bo = .ok d)
    (data : message.opcode = .text ∨ message.opcode = .binary) :
    c.writingWebMessageBody = false := by
  simp [writeMessage, opened] at done
  rcases done.2.1 with ⟨notText, notBinary⟩ | whole
  · rcases data with text | binary
    · exact absurd text notText
    · exact absurd binary notBinary
  · exact whole

theorem webSocketUpgrade_ok (done : c.webSocketUpgrade = .ok d) :
    c.isOpen = false ∧ d = c ∨
      c.isOpen = true ∧ c.state = .responseHeader ∧ c.requestParser.req.isWebsocketUpgrade = true ∧
        d = c.sendUpgrade := by
  cases opened : c.isOpen with
  | false =>
    simp [webSocketUpgrade, opened] at done
    exact .inl ⟨rfl, done.symm⟩
  | true =>
    cases upgradable : c.requestParser.req.isWebsocketUpgrade with
    | false => simp [webSocketUpgrade, opened, upgradable] at done
    | true =>
      simp [webSocketUpgrade, opened, upgradable] at done
      exact .inr ⟨rfl, done.1, rfl, done.2.symm⟩

theorem writeHeader_ok {resp : ResponseHeader} {bo : BufferOptions}
    (done : c.writeHeader resp bo = .ok d) :
    c.isOpen = false ∧ d = c ∨
      c.isOpen = true ∧ c.state = .responseHeader ∧ resp.isWebsocketUpgrade = false ∧
        (resp.transferEncodingChunked = true ∨ resp.contentLength.isSome = true) ∧
        d = c.sendHeader resp bo := by
  cases opened : c.isOpen with
  | false =>
    simp [writeHeader, opened] at done
    exact .inl ⟨rfl, done.symm⟩
  | true =>
    simp [writeHeader, opened] at done
    exact .inr ⟨rfl, done.1, done.2.1, done.2.2.1, done.2.2.2.symm⟩

theorem writeOpcode_ok {opcode : WebMessageOpcode} (done : c.writeOpcode opcode = .ok d) :
    c.isOpen = false ∧ d = c ∨
      c.isOpen = true ∧ c.isStateWebsocket = true ∧ c.writingWebMessageBody = false ∧
        d = { c with
          writingWebMessageBody := true
          sock := c.sock.buffer (webMessageHeader false opcode.toNat 0 none) } := by
  cases opened : c.isOpen with
  | false =>
    simp [writeOpcode, opened] at done
    exact .inl ⟨rfl, done.symm⟩
  | true =>
    simp [writeOpcode, opened] at done
    exact .inr ⟨rfl, done.1, done.2.2.1, done.2.2.2.symm⟩

theorem writeOpcode_data {opcode : WebMessageOpcode} (opened : c.isOpen = true)
    (done : c.writeOpcode opcode = .ok d) :
    opcode = .text ∨ opcode = .binary := by
  simp [writeOpcode, opened] at done
  exact done.2.1

/-- A body write sends a frame, counted bytes or a chunk. -/
theorem writeBody_ok {send : Send} {val : Bytes} {bo : BufferOptions}
    (done : c.writeBody send val bo = .ok d) :
    c.writingWebMessageBody = true ∧ d = c.sendFrame send val bo ∨
      c.writingWebMessageBody = false ∧ c.state = .responseBody ∧
        ((∃ remaining, c.remainingBodyContentLength = some remaining ∧ val.length ≤ remaining ∧
            d = c.sendCounted send remaining val bo) ∨
          c.remainingBodyContentLength = none ∧ d = c.sendChunk val bo) := by
  cases writing : c.writingWebMessageBody with
  | true =>
    simp [writeBody, isWritingBody, writing] at done
    exact .inl ⟨rfl, done.symm⟩
  | false =>
    cases counted : c.remainingBodyContentLength with
    | none =>
      simp [writeBody, isWritingBody, writing, counted] at done
      exact .inr ⟨rfl, done.1, .inr ⟨rfl, done.2.symm⟩⟩
    | some remaining =>
      simp [writeBody, isWritingBody, writing, counted] at done
      exact .inr ⟨rfl, done.1, .inl ⟨remaining, rfl, done.2.1, done.2.2.symm⟩⟩

theorem writeLastChunk_ok {bo : BufferOptions} (done : c.writeLastChunk bo = .ok d) :
    c.writingWebMessageBody = true ∧ d = c.sendLastFrame bo ∨
      c.writingWebMessageBody = false ∧ c.state = .responseBody ∧ c.remainingBodyContentLength = none ∧
        d = c.sendLastChunk bo := by
  cases writing : c.writingWebMessageBody with
  | true =>
    simp [writeLastChunk, isWritingBody, writing] at done
    exact .inl ⟨rfl, done.symm⟩
  | false =>
    simp [writeLastChunk, isWritingBody, writing] at done
    exact .inr ⟨rfl, done.1, done.2.1, done.2.2.symm⟩

/-- `write(Response &&)` is its parts up to the one that throws. -/
theorem writeResponse_parts (c : ServerConnection) (resp : Response) :
    (c.writeResponse resp).2 = c ∨
      ∃ withHeader, c.writeHeader resp.header .bufferOnly = .ok withHeader ∧
        ((c.writeResponse resp).2 = withHeader ∨
          ∃ bo withBody, withHeader.writeString resp.body bo = .ok withBody ∧
            ((c.writeResponse resp).2 = withBody ∨
              withBody.writeLastChunk .write = .ok (c.writeResponse resp).2)) := by
  simp only [writeResponse]
  split
  · exact .inl rfl
  · split
    · exact .inl rfl
    · rename_i withHeader written
      refine .inr ⟨withHeader, written, ?_⟩
      split
      · exact .inl rfl
      · rename_i withBody sent
        refine .inr ⟨_, withBody, sent, ?_⟩
        split
        · split
          · exact .inl rfl
          · rename_i done finished
            exact .inr finished
        · exact .inl rfl

/-- The ping timer flushes what is buffered, or sends a ping if nothing is. -/
theorem onWmPingTimer_ok (done : c.onWmPingTimer = .ok d) :
    d = c ∨ ∃ pinged, d = { pinged with wmPingTimer := true } ∧
      (pinged = { c with wmPingTimer := false, sock := c.sock.writeString [] .write } ∨
        { c with wmPingTimer := false }.writeMessage { opcode := .ping } .write = .ok pinged) := by
  cases timer : c.wmPingTimer with
  | false =>
    simp [onWmPingTimer, timer] at done
    exact .inl done.symm
  | true =>
    by_cases buffered : c.sock.getTotalBufferSize = 0
    · simp [onWmPingTimer, timer, buffered] at done
      obtain ⟨pinged, sent, rfl⟩ := done
      exact .inr ⟨pinged, rfl, .inr sent⟩
    · simp [onWmPingTimer, timer, buffered] at done
      exact .inr ⟨_, done.symm, .inl rfl⟩

theorem settle_conn {P : ServerConnection → Prop} {result : Except Error ServerConnection} (before : P c)
    (after : ∀ d, result = .ok d → P d) : P (settle c result).conn := by
  cases result with
  | error e => exact before
  | ok d => exact after d rfl

@[simp] theorem settleAfter_conn (result : Except Error Unit × ServerConnection) :
    (settleAfter result).conn = result.2 := by
  unfold settleAfter
  split <;> rfl

/-- The pass in which the loop throws. -/
theorem tryLoop_throws {P : ServerConnection → Prop} (keeps : ∀ c, P c → P c.turn.2) {e : Error}
    (passes : Nat) (start : P c) (thrown : tryLoop passes c = (.throw e, d)) :
    ∃ last, P last ∧ last.turn = (.throw e, d) :=
  server_models.throws keeps start thrown

/-- What every pass keeps, and the `catch` after a pass that throws, is kept by
`advance_state`. -/
theorem advanceState_preserves {P : ServerConnection → Prop} (keeps : ∀ c, P c → P c.turn.2)
    (catches : ∀ c e d, P c → c.turn = (.throw e, d) → P d.onException) (start : P c) :
    P c.advanceState.2 :=
  server_models.preserves keeps catches start

/-- The read buffer and the socket a pass works on. -/
theorem turn_cases (c : ServerConnection) : ∃ b sock,
    Quiet c.sock sock ∧
      (c.turn = (.stop false, { c with readBuffer := b, sock := sock }) ∨
        c.turn = { c with readBuffer := b, sock := sock }.switchState) :=
  server_models.turn_cases c

/-- The states in which received bytes are parsed. -/
def Parsing (c : ServerConnection) : Prop :=
  c.state = .requestHeader ∨ c.state = .requestBody ∨ c.isStateWebsocket = true

private theorem readRequestBody_throws {e : Error} (state : c.state = .requestBody)
    (thrown : c.readRequestBody = (.throw e, d)) : Parsing d := by
  unfold readRequestBody at thrown
  split at thrown
  · cases thrown
    exact .inr (.inl state)
  · simp only at thrown
    split at thrown <;> simp at thrown

private theorem readRequestHeader_throws {e : Error} (state : c.state = .requestHeader)
    (thrown : c.readRequestHeader = (.throw e, d)) : Parsing d := by
  unfold readRequestHeader at thrown
  split at thrown
  · cases thrown
    exact .inl state
  · simp only at thrown
    split at thrown
    · simp at thrown
    · exact readRequestBody_throws rfl thrown

private theorem readWebMessage_throws {e : Error} {state : WebState}
    (thrown : c.readWebMessage state = (.throw e, d)) :
    Parsing d := by
  simp only [readWebMessage] at thrown
  split at thrown
  · simp at thrown
  · simp at thrown
  · cases thrown
    exact .inr (.inr rfl)
  · split at thrown
    · cases thrown
      exact .inr (.inr rfl)
    · simp at thrown
  · split at thrown
    · cases thrown
      exact .inr (.inr rfl)
    · simp at thrown

private theorem switchState_throws {e : Error} (thrown : c.switchState = (.throw e, d)) : Parsing d := by
  unfold switchState at thrown
  split at thrown
  · rename_i header
    exact readRequestHeader_throws header thrown
  · rename_i body
    exact readRequestBody_throws body thrown
  · exact readWebMessage_throws thrown
  · exact readWebMessage_throws thrown
  · simp at thrown

/-- Only passes that parse throw. -/
theorem turn_throws {e : Error} (thrown : c.turn = (.throw e, d)) : Parsing d := by
  obtain ⟨b, sock, -, stopped | switched⟩ := turn_cases c
  · rw [stopped] at thrown
    simp at thrown
  · rw [switched] at thrown
    exact switchState_throws thrown

theorem Parsing.unready (parsing : Parsing c) : c.state ≠ .requestReady := by
  intro ready
  simp [Parsing, ready, isStateWebsocket] at parsing

end Crablib.ServerConnectionProofs
