import Crablib.PairingProofs

/-! Whole responses on a server connection that owes one: what is written, where
the connection stands behind it, and when the call throws instead. -/
namespace Crablib.ResponseWriteProofs
open Http ServerConnection ServerRun SocketProofs ServerConnectionProofs PairingProofs
open Exchange (Entry)

variable {c : ServerConnection} {resp : Response}

/-- An open connection on which a request was taken and nothing answered yet. -/
structure Owing (c : ServerConnection) : Prop where
  serving : Serving c
  state : c.state = .responseHeader

theorem Owing.opened (owing : Owing c) : c.isOpen = true := owing.serving.opened

/-- A run reaches only connections of which this can be said once they owe a
response. -/
theorem owing_of_run {ops : List ServerOp} (opened : (afterOps {} ops).isOpen = true)
    (state : (afterOps {} ops).state = .responseHeader) : Owing (afterOps {} ops) := by
  have keeps : ∀ (c : ServerConnection) (op : ServerOp), Mode c → Mode (perform c op).conn :=
    fun _ op mode => perform_mode mode op
  have mode : Mode (afterOps {} ops) := Run.invariant_of_keeps keeps recorded_start.mode ops
  rcases mode with dead | serving | ⟨-, web⟩
  · simp [dead.closed] at opened
  · exact ⟨serving, state⟩
  · simp [isStateWebsocket, state] at web

theorem writeHeader_returns {header : ResponseHeader} {bo : BufferOptions} (owing : Owing c)
    (upgrade : header.isWebsocketUpgrade = false)
    (framed : (header.transferEncodingChunked || header.contentLength.isSome) = true) :
    c.writeHeader header bo = .ok (c.sendHeader header bo) := by
  have chosen : header.transferEncodingChunked = true ∨ header.contentLength.isSome = true := by
    simpa using framed
  simp [writeHeader, owing.opened, owing.state, upgrade, chosen]

/-- A response is completely written: the stream has grown by the bytes, and the
connection waits for the next request. -/
structure Completed (c : ServerConnection) (bytes : Bytes)
    (result : Except Error Unit × ServerConnection) : Prop where
  returned : result.1 = .ok ()
  state : result.2.state = .requestHeader
  stream : stream result.2.sock = stream c.sock ++ bytes

/-- A body with its length announced. -/
theorem writeResponse_counted (owing : Owing c) (upgrade : resp.header.isWebsocketUpgrade = false)
    (unchunked : resp.header.transferEncodingChunked = false)
    (length : resp.header.contentLength.map UInt64.toNat = some resp.body.length) :
    Completed c ((c.completeHeader resp.header).toString ++ resp.body) (c.writeResponse resp) := by
  have some_ : resp.header.contentLength.isSome = true := by
    cases announced : resp.header.contentLength with
    | none => simp [announced] at length
    | some n => rfl
  have header : c.writeHeader resp.header .bufferOnly = .ok _ :=
    writeHeader_returns owing upgrade (by simp [some_])
  have body : (c.sendHeader resp.header .bufferOnly).writeString resp.body .write =
      .ok ((c.sendHeader resp.header .bufferOnly).sendCounted BufferedTcpSocket.writeString
        resp.body.length resp.body .write) := by
    have plain := owing.serving.plain
    simp [ServerConnection.writeString, writeBody, isWritingBody, sendHeader, plain, length]
  have wrote : c.writeResponse resp =
      (.ok (), (c.sendHeader resp.header .bufferOnly).sendCounted BufferedTcpSocket.writeString
        resp.body.length resp.body .write) := by
    simp only [writeResponse, owing.opened, header, body, unchunked, Bool.not_true,
      Bool.false_eq_true, ↓reduceIte]
  have log : responseEntries c resp =
      [.header (c.completeHeader resp.header).toString (some resp.body.length),
        .data resp.body, .complete []] := by
    have remaining : (c.sendHeader resp.header .bufferOnly).remainingBodyContentLength =
      some resp.body.length := length
    simp [responseEntries, owing.opened, header, body, unchunked, ifReturned, headerEntries,
      bodyEntries, length, remaining]
  have step := step_writeResponse owing.serving resp
  refine ⟨by rw [wrote], ?_, ?_⟩
  · rw [wrote]
    simp [sendCounted, finishResponse]
  · rw [step.stream, log]
    simp [Entry.bytes]

/-- A body in chunks: one for the whole body unless it is empty, and the last chunk. -/
theorem writeResponse_chunked (owing : Owing c) (upgrade : resp.header.isWebsocketUpgrade = false)
    (chunked : resp.header.transferEncodingChunked = true) (length : resp.header.contentLength = none) :
    Completed c ((c.completeHeader resp.header).toString ++
      ((if resp.body.length = 0 then [] else hex resp.body.length ++ crlf ++ resp.body ++ crlf) ++
      str "0\r\n\r\n")) (c.writeResponse resp) := by
  have header : c.writeHeader resp.header .bufferOnly = .ok _ :=
    writeHeader_returns owing upgrade (by simp [chunked])
  have plain := owing.serving.plain
  have remaining : (c.sendHeader resp.header .bufferOnly).remainingBodyContentLength = none := by
    simp [sendHeader, length]
  have body : (c.sendHeader resp.header .bufferOnly).writeString resp.body .bufferOnly =
      .ok ((c.sendHeader resp.header .bufferOnly).sendChunk resp.body .bufferOnly) := by
    simp [ServerConnection.writeString, writeBody, isWritingBody, sendHeader, plain, length]
  have facts :
      ((c.sendHeader resp.header .bufferOnly).sendChunk resp.body .bufferOnly).state = .responseBody ∧
      ((c.sendHeader resp.header .bufferOnly).sendChunk resp.body
        .bufferOnly).writingWebMessageBody = false ∧
      ((c.sendHeader resp.header .bufferOnly).sendChunk resp.body
      .bufferOnly).remainingBodyContentLength = none := by
    simp only [sendChunk]
    split <;> exact ⟨rfl, plain, remaining⟩
  have last :
      ((c.sendHeader resp.header .bufferOnly).sendChunk resp.body .bufferOnly).writeLastChunk .write =
      .ok (((c.sendHeader resp.header .bufferOnly).sendChunk resp.body .bufferOnly).sendLastChunk
        .write) := by
    simp [writeLastChunk, isWritingBody, facts]
  have wrote : c.writeResponse resp =
      (.ok (), ((c.sendHeader resp.header .bufferOnly).sendChunk resp.body
        .bufferOnly).sendLastChunk .write) := by
    simp only [writeResponse, owing.opened, header, body, last, chunked, Bool.not_true,
      Bool.false_eq_true, ↓reduceIte]
  have log : (responseEntries c resp).flatMap Entry.bytes = (c.completeHeader resp.header).toString ++
      ((if resp.body.length = 0 then [] else hex resp.body.length ++ crlf ++ resp.body ++ crlf) ++
      str "0\r\n\r\n") := by
    simp only [responseEntries, owing.opened, header, body, last, chunked, ifReturned,
      headerEntries, bodyEntries, length, remaining,
      lastEntries, Bool.not_true, Bool.false_eq_true, ↓reduceIte]
    by_cases empty : resp.body.length = 0 <;> simp [empty, Entry.bytes]
  have step := step_writeResponse owing.serving resp
  refine ⟨by rw [wrote], ?_, ?_⟩
  · rw [wrote]
    simp [sendLastChunk, finishResponse]
  · rw [step.stream, log]

/-- Without a length and without chunks nothing is written. -/
theorem writeResponse_unframed (opened : c.isOpen = true)
    (unchunked : resp.header.transferEncodingChunked = false)
    (length : resp.header.contentLength = none) : ∃ e, c.writeResponse resp = (.error e, c) := by
  have refused : ∃ e, c.writeHeader resp.header .bufferOnly = .error e := by
    cases done : c.writeHeader resp.header .bufferOnly with
    | error e => exact ⟨e, rfl⟩
    | ok d =>
      obtain ⟨closed, -⟩ | ⟨-, -, -, framed, -⟩ := writeHeader_ok done
      · simp [opened] at closed
      · simp [unchunked, length] at framed
  obtain ⟨e, refused⟩ := refused
  exact ⟨e, by simp [writeResponse, opened, refused]⟩

/-- An upgrade is refused. -/
theorem writeResponse_upgrade (opened : c.isOpen = true)
    (upgrade : resp.header.isWebsocketUpgrade = true) :
    ∃ e, c.writeResponse resp = (.error e, c) := by
  have refused : ∃ e, c.writeHeader resp.header .bufferOnly = .error e := by
    cases done : c.writeHeader resp.header .bufferOnly with
    | error e => exact ⟨e, rfl⟩
    | ok d =>
      obtain ⟨closed, -⟩ | ⟨-, -, plain, -⟩ := writeHeader_ok done
      · simp [opened] at closed
      · simp [upgrade] at plain
  obtain ⟨e, refused⟩ := refused
  exact ⟨e, by simp [writeResponse, opened, refused]⟩

private theorem finishResponse_ended {d : ServerConnection} (plain : d.writingWebMessageBody = false) :
    ∃ e, d.finishResponse.writeLastChunk .write = .error e := by
  have still : d.finishResponse.isWritingBody = false := by
    simp only [finishResponse, isWritingBody]
    split <;> simp [plain]
  exact ⟨_, by simp only [writeLastChunk, still]; rfl⟩

/-- Counted bytes that are too few leave the body incomplete, and no last chunk
follows counted bytes. -/
private theorem sendCounted_stands {d : ServerConnection} (plain : d.writingWebMessageBody = false)
    (state : d.state = .responseBody) {remaining : Nat} {val : Bytes} (bo : BufferOptions)
    (fits : val.length ≤ remaining) :
    (d.sendCounted BufferedTcpSocket.writeString remaining val bo).state ≠ .responseHeader ∧
      (remaining ≠ val.length →
      (d.sendCounted BufferedTcpSocket.writeString remaining val bo).state = .responseBody) ∧
      ∃ e, (d.sendCounted BufferedTcpSocket.writeString remaining val bo).writeLastChunk
        .write = .error e := by
  by_cases all : remaining - val.length = 0
  · refine ⟨by simp [sendCounted, all, finishResponse], fun short => absurd all (by omega), ?_⟩
    simp only [sendCounted, all, ↓reduceIte]
    exact finishResponse_ended plain
  · refine ⟨by simp [sendCounted, all, state], fun _ => by simp [sendCounted, all, state],
      .logic "write_last_chunk is for chunked encoding only", ?_⟩
    simp [sendCounted, all, writeLastChunk, isWritingBody, plain, state, invariant, bind, Except.bind]

/-- A length that is not that of the body, or that comes with chunks: the header is
written, and the call throws or leaves the body incomplete. -/
theorem writeResponse_misframed (owing : Owing c) (upgrade : resp.header.isWebsocketUpgrade = false)
    {length : UInt64} (announced : resp.header.contentLength = some length)
    (wrong : resp.header.transferEncodingChunked = true ∨ length.toNat ≠ resp.body.length) :
    (c.writeResponse resp).2.state ≠ .responseHeader ∧
      ¬((c.writeResponse resp).1 = .ok () ∧ (c.writeResponse resp).2.state = .requestHeader) := by
  have plain : (c.sendHeader resp.header .bufferOnly).writingWebMessageBody = false :=
    owing.serving.plain
  have state : (c.sendHeader resp.header .bufferOnly).state = .responseBody := rfl
  have header : c.writeHeader resp.header .bufferOnly = .ok _ :=
    writeHeader_returns owing upgrade (by simp [announced])
  have remaining : (c.sendHeader resp.header .bufferOnly).remainingBodyContentLength =
    some length.toNat := by simp [sendHeader, announced]
  by_cases fits : resp.body.length ≤ length.toNat
  · have body : ∀ bo, (c.sendHeader resp.header .bufferOnly).writeString resp.body bo =
        .ok ((c.sendHeader resp.header .bufferOnly).sendCounted BufferedTcpSocket.writeString
        length.toNat resp.body bo) := by
      intro bo
      simp [ServerConnection.writeString, writeBody, isWritingBody, plain, state, remaining, fits]
    cases chunked : resp.header.transferEncodingChunked with
    | false =>
      obtain ⟨-, short, -⟩ := sendCounted_stands plain state .write fits
      have result : c.writeResponse resp =
          (.ok (), (c.sendHeader resp.header .bufferOnly).sendCounted BufferedTcpSocket.writeString
          length.toNat resp.body .write) := by
        simp only [writeResponse, owing.opened, header, body, chunked, Bool.not_true,
          Bool.false_eq_true, ↓reduceIte]
      rw [result, short (wrong.resolve_left (by simp [chunked]))]
      simp
    | true =>
      obtain ⟨later, -, e, thrown⟩ := sendCounted_stands plain state .bufferOnly fits
      have result : c.writeResponse resp = (.error e,
          (c.sendHeader resp.header .bufferOnly).sendCounted BufferedTcpSocket.writeString
          length.toNat resp.body .bufferOnly) := by
        simp only [writeResponse, owing.opened, header, body, chunked, thrown, Bool.not_true,
          Bool.false_eq_true, ↓reduceIte]
      rw [result]
      exact ⟨later, fun done => by cases done.1⟩
  · have body : ∀ bo, (c.sendHeader resp.header .bufferOnly).writeString resp.body bo =
        .error (.logic "Overshoot content-length") := by
      intro bo
      simp [ServerConnection.writeString, writeBody, isWritingBody, plain, state, remaining, fits,
        invariant, bind, Except.bind]
    have result :
        c.writeResponse resp = (.error (.logic "Overshoot content-length"),
        c.sendHeader resp.header .bufferOnly) := by
      simp only [writeResponse, owing.opened, header, body, Bool.not_true,
        Bool.false_eq_true, ↓reduceIte]
    rw [result, state]
    simp

end Crablib.ResponseWriteProofs
