import Crablib.PipelineProofs
import Crablib.ResponseWriteProofs

/-! The server and the exceptions of its request handler. Once a response has begun
its state never comes back, so the state tells the server what was written before
the handler threw. -/
namespace Crablib.ContainmentProofs
open Http ServerConnection ServerRun SocketProofs ServerConnectionProofs PairingProofs
open PipelineProofs
open ResponseWriteProofs ServerEndProofs
open Server (onClientHandleRequest unauthorizedResponse)
open Exchange (Entry)

variable {c d : ServerConnection} {op : ServerOp}

section Writes

private theorem writing_state {send : Send} {val : Bytes} {bo : BufferOptions}
    (mode : c.isStateWebsocket = true ∨ c.writingWebMessageBody = false)
    (done : c.writeBody send val bo = .ok d) :
    d = c ∨ d.state ≠ .responseHeader := by
  obtain ⟨writing, rfl⟩ | ⟨-, state, body⟩ := writeBody_ok done
  · right
    have web : c.isStateWebsocket = true := by simpa [writing] using mode
    have same : (c.sendFrame send val bo).state = c.state := by
      unfold sendFrame
      split <;> rfl
    rw [same]
    intro http
    simp [isStateWebsocket, http] at web
  · right
    obtain ⟨remaining, -, -, rfl⟩ | ⟨-, rfl⟩ := body
    · simp only [sendCounted]
      split <;> simp [finishResponse, state]
    · unfold sendChunk
      split <;> simp [state]

private theorem last_state {bo : BufferOptions}
    (mode : c.isStateWebsocket = true ∨ c.writingWebMessageBody = false)
    (done : c.writeLastChunk bo = .ok d) : d = c ∨ d.state ≠ .responseHeader := by
  right
  obtain ⟨writing, rfl⟩ | ⟨-, -, -, rfl⟩ := writeLastChunk_ok done
  · have web : c.isStateWebsocket = true := by simpa [writing] using mode
    intro http
    have http : c.state = .responseHeader := http
    simp [isStateWebsocket, http] at web
  · simp [sendLastChunk, finishResponse]

/-- A write changes nothing, or leaves the state of a response that has not begun. -/
theorem write_state (mode : c.isStateWebsocket = true ∨ c.writingWebMessageBody = false)
    (writes : isWrite op = true) :
    (perform c op).conn = c ∨ (perform c op).conn.state ≠ .responseHeader := by
  have stay : c = c ∨ c.state ≠ .responseHeader := .inl rfl
  cases op <;> simp only [isWrite, Bool.false_eq_true] at writes
  case webSocketUpgrade =>
    refine settle_conn (P := fun d => d = c ∨ d.state ≠ .responseHeader) stay fun d done => ?_
    obtain ⟨-, same⟩ | ⟨-, -, -, rfl⟩ := webSocketUpgrade_ok done
    · exact .inl same
    · exact .inr (by simp [sendUpgrade])
  case writeResponse resp =>
    rw [perform, settleAfter_conn]
    obtain same | ⟨withHeader, written, later⟩ := writeResponse_parts c resp
    · exact .inl same
    obtain ⟨-, rfl⟩ | ⟨-, -, -, -, rfl⟩ := writeHeader_ok written
    · obtain same | ⟨bo, withBody, sent, later⟩ := later
      · exact .inl same
      have body := writing_state mode sent
      obtain same | finished := later
      · rwa [same]
      · obtain rfl | moved := body
        · exact last_state mode finished
        · obtain ⟨writing, sent_⟩ | ⟨-, -, -, sent_⟩ := writeLastChunk_ok finished
          · rw [sent_]
            exact .inr moved
          · rw [sent_]
            exact .inr (by simp [sendLastChunk, finishResponse])
    · right
      have begun : (c.sendHeader resp.header .bufferOnly).state ≠ .responseHeader := by simp [sendHeader]
      obtain same | ⟨bo, withBody, sent, later⟩ := later
      · rwa [same]
      have body : withBody.state ≠ .responseHeader := by
        obtain ⟨-, rfl⟩ | ⟨-, state, body⟩ := writeBody_ok sent
        · unfold sendFrame
          split <;> simp [sendHeader]
        · obtain ⟨remaining, -, -, rfl⟩ | ⟨-, rfl⟩ := body
          · simp only [sendCounted]
            split <;> simp [finishResponse, sendHeader]
          · unfold sendChunk
            split <;> simp [sendHeader]
      obtain same | finished := later
      · rwa [same]
      · obtain ⟨-, sent_⟩ | ⟨-, -, -, sent_⟩ := writeLastChunk_ok finished
        · rw [sent_]
          exact body
        · rw [sent_]
          simp [sendLastChunk, finishResponse]
  case writeHeader resp bo =>
    refine settle_conn (P := fun d => d = c ∨ d.state ≠ .responseHeader) stay fun d done => ?_
    obtain ⟨-, same⟩ | ⟨-, -, -, -, rfl⟩ := writeHeader_ok done
    · exact .inl same
    · exact .inr (by simp [sendHeader])
  case writeMessage message bo =>
    refine settle_conn (P := fun d => d = c ∨ d.state ≠ .responseHeader) stay fun d done => ?_
    obtain ⟨-, same⟩ | ⟨-, web, rfl⟩ := writeMessage_ok done
    · exact .inl same
    · right
      have same : (c.sendMessage message bo).state = c.state := by
        simp only [sendMessage]
        split <;> rfl
      rw [same]
      intro http
      simp [isStateWebsocket, http] at web
  case writeOpcode opcode =>
    refine settle_conn (P := fun d => d = c ∨ d.state ≠ .responseHeader) stay fun d done => ?_
    obtain ⟨-, same⟩ | ⟨-, web, -, rfl⟩ := writeOpcode_ok done
    · exact .inl same
    · right
      intro http
      have http : c.state = .responseHeader := http
      simp [isStateWebsocket, http] at web
  case writeData val bo =>
    exact settle_conn (P := fun d => d = c ∨ d.state ≠ .responseHeader) stay fun d done =>
      writing_state mode done
  case writeString ss bo =>
    exact settle_conn (P := fun d => d = c ∨ d.state ≠ .responseHeader) stay fun d done =>
      writing_state mode done
  case writeLastChunk bo =>
    exact settle_conn (P := fun d => d = c ∨ d.state ≠ .responseHeader) stay fun d done =>
      last_state mode done

end Writes

section Begun

/-- Since `c` nothing was written, or a response has begun. -/
structure Begun (c d : ServerConnection) : Prop where
  mode : Serving d ∨ d.isOpen = true ∧ d.isStateWebsocket = true
  written : d = c ∨ d.state ≠ .responseHeader ∧ ∃ bytes, bytes ≠ [] ∧
    stream d.sock = stream c.sock ++ bytes

theorem Begun.opened (begun : Begun c d) : d.isOpen = true := by
  rcases begun.mode with serving | ⟨opened, -⟩
  · exact serving.opened
  · exact opened

private theorem write_stays (writes : isWrite op = true) : reopens op = false := by
  cases op <;> simp_all [isWrite, reopens]

private theorem write_grows (mode : Serving c ∨ c.isOpen = true ∧ c.isStateWebsocket = true)
    (writes : isWrite op = true) :
    (Serving (perform c op).conn ∨ (perform c op).conn.isOpen = true ∧
      (perform c op).conn.isStateWebsocket = true) ∧
      ∃ bytes, stream (perform c op).conn.sock = stream c.sock ++ bytes := by
  have same := write_stays writes
  have opened : (perform c op).conn.isOpen = c.isOpen := (perform_written op writes).isOpen
  rcases mode with serving | ⟨opened', web⟩
  · rw [serving.opened] at opened
    rcases perform_serving serving op same with ⟨dead, -⟩ | step | ⟨-, web, grew, -⟩
    · simp [dead.closed] at opened
    · exact ⟨.inl step.serving, _, step.stream⟩
    · exact ⟨.inr ⟨opened, web⟩, _, grew⟩
  · rw [opened'] at opened
    rcases perform_web opened' web op same with dead | talked
    · simp [dead.closed] at opened
    · exact ⟨.inr ⟨opened, talked.web⟩, talked.stream⟩

private theorem toString_some (resp : ResponseHeader) : resp.toString ≠ [] := by
  simp [ResponseHeader.toString, version, str]

/-- The first write that changes something sends a header block. -/
private theorem first_grows (owing : Owing c) (writes : isWrite op = true)
    (changed : (perform c op).conn ≠ c) :
    ∃ bytes, bytes ≠ [] ∧ stream (perform c op).conn.sock = stream c.sock ++ bytes := by
  have same := write_stays writes
  have opened : (perform c op).conn.isOpen = true :=
    (perform_written op writes).isOpen.trans owing.opened
  have grew : stream (perform c op).conn.sock = stream c.sock ++ (entries c op).flatMap Entry.bytes := by
    rcases perform_serving owing.serving op same with ⟨dead, -⟩ | step | ⟨-, -, grew, -⟩
    · simp [dead.closed] at opened
    · exact step.stream
    · exact grew
  refine ⟨_, ?_, grew⟩
  have entries_ : ∀ {result : Except Error ServerConnection}, (settle c result).conn ≠ c →
      ∃ d, result = .ok d := by
    intro result moved
    cases result with
    | error e => exact absurd rfl moved
    | ok d => exact ⟨d, rfl⟩
  have writing : c.isWritingBody = false := by simp [isWritingBody, owing.serving.plain, owing.state]
  cases op <;> simp only [isWrite, Bool.false_eq_true] at writes
  case webSocketUpgrade =>
    obtain ⟨d, done⟩ := entries_ changed
    simp [entries, owing.serving.http, done, ifReturned, owing.opened, Entry.bytes, toString_some]
  case writeHeader resp bo =>
    obtain ⟨d, done⟩ := entries_ changed
    simp [entries, owing.serving.http, done, ifReturned, headerEntries, owing.opened,
      Entry.bytes, toString_some]
  case writeResponse resp =>
    cases done : c.writeHeader resp.header .bufferOnly with
    | error e => exact absurd (by simp [perform, settleAfter, writeResponse, owing.opened, done]) changed
    | ok d =>
      simp [entries, owing.serving.http, responseEntries, done, ifReturned, headerEntries,
        owing.opened, Entry.bytes, toString_some]
  case writeMessage message bo =>
    obtain ⟨d, done⟩ := entries_ changed
    simp [writeMessage, owing.opened, owing.serving.http] at done
  case writeOpcode opcode =>
    obtain ⟨d, done⟩ := entries_ changed
    simp [writeOpcode, owing.opened, owing.serving.http] at done
  case writeData val bo =>
    obtain ⟨d, done⟩ := entries_ changed
    simp [writeData, writeBody, writing] at done
  case writeString ss bo =>
    obtain ⟨d, done⟩ := entries_ changed
    simp [ServerConnection.writeString, writeBody, writing] at done
  case writeLastChunk bo =>
    obtain ⟨d, done⟩ := entries_ changed
    simp [writeLastChunk, writing] at done

/-- Writes of the handler lead from a response that is owed to one that has begun. -/
theorem write_begun (owing : Owing c) (begun : Begun c d) (writes : isWrite op = true) :
    Begun c (perform d op).conn := by
  obtain ⟨mode, more, grew⟩ := write_grows begun.mode writes
  refine ⟨mode, ?_⟩
  have plain : d.isStateWebsocket = true ∨ d.writingWebMessageBody = false :=
    begun.mode.symm.imp And.right Serving.plain
  rcases begun.written with rfl | ⟨moved, bytes, some_, before⟩
  · by_cases changed : (perform d op).conn = d
    · exact .inl changed
    · exact .inr ⟨(write_state plain writes).resolve_left changed, first_grows owing writes changed⟩
  · refine .inr ⟨?_, bytes ++ more, by simp [some_], by rw [grew, before, List.append_assoc]⟩
    rcases write_state plain writes with same | left
    · rwa [same]
    · exact left

end Begun

section Handler

variable {user : Nat → UserCall} {who : Client}

/-- A request was delivered on a connection that is open. -/
structure Delivered (who : Client) : Prop where
  taken : ∃ ops request, (afterOps {} ops).readNextRequest = (some request, who.conn)
  opened : who.conn.isOpen = true

theorem Delivered.owing (delivered : Delivered who) : Owing who.conn := by
  obtain ⟨⟨ops, request, taken⟩, opened⟩ := delivered
  have ready : (afterOps {} ops).state = .requestReady := by
    by_contra other
    simp [readNextRequest, other] at taken
  have next : afterOps {} (ops ++ [.readNextRequest]) = who.conn := by
    have last :
        afterOps {} (ops ++ [.readNextRequest]) = (perform (afterOps {} ops) .readNextRequest).conn := by
      simp [afterOps, Run.after]
    rw [last, perform, taken]
  have keeps : ∀ (c : ServerConnection) (op : ServerOp), Mode c → Mode (perform c op).conn :=
    fun _ op mode => perform_mode mode op
  have mode : Mode (afterOps {} ops) := Run.invariant_of_keeps keeps recorded_start.mode ops
  have serving : Serving (afterOps {} ops) := by
    rcases mode with dead | serving | ⟨-, web⟩
    · simp [dead.state] at ready
    · exact serving
    · simp [isStateWebsocket, ready] at web
  have log : entries (afterOps {} ops) .readNextRequest = [.request] := by
    simp [entries, serving.http, taken]
  have phase : Exchange.run (phaseOf (afterOps {} ops)) [.request] = some .owed := by
    simp [phaseOf, ready, Exchange.advance]
  have conn : (perform (afterOps {} ops) .readNextRequest).conn = who.conn := by rw [perform, taken]
  have owed : phaseOf who.conn = .owed := by
    rcases perform_serving serving .readNextRequest rfl with ⟨dead, -⟩ | step | ⟨-, -, -, ran⟩
    · rw [conn] at dead
      simp [dead.closed] at opened
    · have ran := step.phase
      rw [log, phase, conn, Option.some.injEq] at ran
      exact ran.symm
    · rw [log, phase, conn, Option.some.injEq] at ran
      exact ran.symm
  have state : who.conn.state = .responseHeader := by
    unfold phaseOf at owed
    split at owed <;> first | assumption | skip
    · cases owed
    · cases owed
    · cases owed
    · unfold Exchange.started at owed
      split at owed <;> cases owed
    · cases owed
  rw [← next] at opened state ⊢
  exact owing_of_run opened state

/-- The answer that tells the client of an exception. -/
def Tells : UserEnd → Response → Prop
  | .returns, _ => False
  | .unauthorized realm, resp =>
    resp.header.status = 401 ∧
      ⟨str "WWW-Authenticate", str "Basic realm=\"" ++ realm ++ str "\", charset=\"UTF-8\""⟩ ∈
        resp.header.headers
  | .throws what, resp => resp.header.status = 422 ∧ resp.body = what

/-- One complete response is queued: its header, which announces the length of the
body, and the body. -/
structure Queued (c : ServerConnection) (resp : Response) (d : ServerConnection) : Prop where
  unchunked : resp.header.transferEncodingChunked = false
  length : resp.header.contentLength.map UInt64.toNat = some resp.body.length
  state : d.state = .requestHeader
  stream : stream d.sock = stream c.sock ++ ((c.completeHeader resp.header).toString ++ resp.body)

/-- The exception of the handler goes no further: the server returns, answers if
nothing was written, and adds nothing to a complete response. -/
structure Contained (user : Nat → UserCall) (who : Client) : Prop where
  returns : (onClientHandleRequest user who).1 = .ok ()
  answers : stream (who.invoke user).conn.sock = stream who.conn.sock →
    ∃ resp, Tells (user who.calls).ending resp ∧
    Queued who.conn resp (onClientHandleRequest user who).2.conn
  silent : (who.invoke user).conn.state = .requestHeader →
    (onClientHandleRequest user who).2.conn = (who.invoke user).conn

private theorem invoke_begun (owing : Owing who.conn) : Begun who.conn (who.invoke user).conn :=
  invoke_keeps (P := Begun who.conn) (fun _ _ writes begun => write_begun owing begun writes)
    ⟨.inl owing.serving, .inl rfl⟩

/-- The answer to an exception with a text is a complete response. -/
private theorem simpleText_queued (owing : Owing c) {what : Bytes}
    (fits : what.length < 2 ^ 64) (date : Bytes) :
    ∃ resp, Tells (.throws what) resp ∧
      Completed c ((c.completeHeader resp.header).toString ++ resp.body)
        (c.writeResponse { Response.simpleText 422 what with
          header := Client.dated (Response.simpleText 422 what).header date }) ∧
      resp.header.transferEncodingChunked = false ∧ resp.header.contentLength.map UInt64.toNat =
        some resp.body.length := by
  have length : (some (UInt64.ofNat what.length)).map UInt64.toNat = some what.length := by
    simp only [Option.map_some, Option.some.injEq]
    exact Nat.mod_eq_of_lt fits
  exact ⟨_, ⟨rfl, rfl⟩, writeResponse_counted owing rfl rfl length, rfl, length⟩

/-- The server contains the exceptions of its request handler, except those for which
it has a response without a length. -/
theorem handler_exceptions_contained (delivered : Delivered who)
    (thrown : (user who.calls).ending ≠ .returns)
    (fits : ∀ what, (user who.calls).ending = .throws what → what.length < 2 ^ 64) :
    Contained user who ↔ ∀ realm, (user who.calls).ending ≠ .unauthorized realm := by
  have owing := delivered.owing
  have begun : Begun who.conn (who.invoke user).conn := invoke_begun owing
  cases ending : (user who.calls).ending with
  | returns => exact absurd ending thrown
  | unauthorized realm =>
    refine ⟨fun contained => ?_, fun other => absurd rfl (other realm)⟩
    have returned := contained.returns
    have refused : ∃ e, (who.invoke user).conn.writeResponse { unauthorizedResponse realm with
        header := Client.dated (unauthorizedResponse realm).header (user who.calls).date } =
          (.error e, (who.invoke user).conn) :=
      writeResponse_unframed begun.opened rfl rfl
    obtain ⟨e, wrote⟩ := refused
    simp [onClientHandleRequest, ending, Client.write, wrote] at returned
  | throws what =>
    refine ⟨fun _ realm => by simp, fun _ => ?_⟩
    rcases begun.written with same | ⟨moved, bytes, some_, grew⟩
    · obtain ⟨resp, tells, completed, unchunked, length⟩ :=
        simpleText_queued owing (fits what ending) (user who.calls).date
      have wrote :
          onClientHandleRequest user who = (who.invoke user).write (.simpleText 422 what)
          (user who.calls).date := by
        simp [onClientHandleRequest, ending, same, owing.state]
      have result : ((who.invoke user).write (.simpleText 422 what) (user who.calls).date).1 = .ok () ∧
          ((who.invoke user).write (.simpleText 422 what) (user who.calls).date).2.conn =
            (who.conn.writeResponse
              { Response.simpleText 422 what with
                header := Client.dated (Response.simpleText 422 what).header
                  (user who.calls).date }).2 := by
        simp only [Client.write, same]
        rw [completed.returned]
        exact ⟨rfl, rfl⟩
      refine ⟨by rw [wrote, result.1], fun _ => ⟨resp, by rw [ending]; exact tells, ?_⟩,
        fun complete => ?_⟩
      · rw [wrote, result.2]
        exact ⟨unchunked, length, completed.state, completed.stream⟩
      · rw [same, owing.state] at complete
        cases complete
    · have quiet : onClientHandleRequest user who = (.ok (), who.invoke user) := by
        simp [onClientHandleRequest, ending, moved]
      refine ⟨by rw [quiet], fun same => ?_, fun _ => by rw [quiet]⟩
      rw [grew] at same
      exact absurd (List.append_right_eq_self.mp same) some_

/-- A client whose request was delivered. -/
private def asking : Client :=
  { conn := (afterOps {} (.accept .ready :: received (str "GET / HTTP/1.1\r\n\r\n"))).readNextRequest.2 }

private theorem asking_delivered : Delivered asking := by
  have some_ :
      (afterOps {} (.accept .ready ::
      received (str "GET / HTTP/1.1\r\n\r\n"))).readNextRequest.1.isSome = true := by
    decide
  obtain ⟨request, taken⟩ := Option.isSome_iff_exists.mp some_
  exact ⟨⟨_, request, Prod.ext taken rfl⟩, by decide⟩

private def throwing : Nat → UserCall := fun _ => { ending := .throws (str "no such user") }

private def refusing : Nat → UserCall := fun _ => { ending := .unauthorized (str "staff") }

theorem handler_exceptions_contained_text : Delivered asking ∧ Contained throwing asking :=
  ⟨asking_delivered, (handler_exceptions_contained asking_delivered (by simp [throwing])
    (fun what same => by cases same; decide)).mpr (by simp [throwing])⟩

/-- The answer to a request without authorization escapes as an exception. -/
theorem authorization_escapes : Delivered asking ∧ ¬Contained refusing asking := by
  refine ⟨asking_delivered, fun contained => ?_⟩
  have escaped : (onClientHandleRequest refusing asking).1.toOption = none := by decide +kernel
  rw [contained.returns] at escaped
  cases escaped

end Handler

end Crablib.ContainmentProofs
