import Crablib.ResponseTextProofs
import Crablib.ServerEndProofs

/-! The version of the request a server connection is about. Whatever is received,
it is one that the parser accepts: a digit, and a number of at most two digits. -/
namespace Crablib.VersionProofs
open Http Scanner ServerConnection ServerRun HeaderProofs ServerConnectionProofs IntegerProofs
open NumeralProofs ResponseTextProofs

section Parser

/-- The version of a request. -/
def Versioned (req : RequestHeader) : Prop := IsVersion req.httpVersionMajor req.httpVersionMinor

private theorem process_versioned (h : Header) (r s : RequestHeader) (versioned : Versioned r)
    (processed : RequestParser.actions.processReadyHeader h r = .ok s) : Versioned s := by
  simp only [RequestParser.actions, RequestParser.processReadyHeader] at processed
  split at processed
  · rename_i common found
    obtain ⟨major, minor, -⟩ := processCommonHeader_keeps found
    cases processed
    exact ⟨by rw [major]; exact versioned.major, by rw [minor]; exact versioned.minor⟩
  · cases processed
  · repeat' split at processed
    all_goals
      cases processed
      exact versioned

private theorem advance_versioned {p q : RequestParser} {c : UInt8} (versioned : Versioned p.req)
    (advanced : p.advance c = .ok q) :
    Versioned q.req := by
  have digit : ¬(!isDigit c) = true → digitOf c < 10 :=
    fun isDigit_ => (digit_facts (by simpa using isDigit_)).2.2.2
  obtain ⟨major, minor⟩ := versioned
  obtain ⟨state, lines, percent, total⟩ := p
  cases state <;> simp only [RequestParser.advance, RequestParser.expectLetter] at advanced
  case headerLines =>
    split at advanced
    · cases advanced
    · rename_i lines' consumed
      cases advanced
      exact consumeLine_keeps (P := Versioned) (fun r versioned =>
        ⟨versioned.major, versioned.minor⟩) process_versioned ⟨major, minor⟩ consumed
  case httpVersionMajorStart =>
    split at advanced
    · cases advanced
    · rename_i isDigit_
      have small := digit isDigit_
      cases advanced
      exact ⟨⟨Int.natCast_nonneg
        _, by simp only [RequestParser.req, RequestParser.setReq, RequestParser.goTo]; omega⟩, minor⟩
  case httpVersionMajor =>
    split at advanced
    · cases advanced
      exact ⟨major, minor⟩
    · split at advanced
      · cases advanced
      · split at advanced
        · cases advanced
        · rename_i bounded
          cases advanced
          simp only [RequestParser.req] at major bounded
          exact ⟨by simp only [RequestParser.req, RequestParser.setReq]; omega, minor⟩
  case httpVersionMinorStart =>
    split at advanced
    · cases advanced
    · rename_i isDigit_
      have small := digit isDigit_
      cases advanced
      exact ⟨major, Int.natCast_nonneg
        _, by simp only [RequestParser.req, RequestParser.setReq, RequestParser.goTo]; omega⟩
  case httpVersionMinor =>
    split at advanced
    · cases advanced
      exact ⟨major, minor⟩
    · split at advanced
      · cases advanced
        exact ⟨major, minor⟩
      · split at advanced
        · cases advanced
          exact ⟨major, minor⟩
        · split at advanced
          · cases advanced
          · split at advanced
            · cases advanced
            · rename_i bounded
              cases advanced
              simp only [RequestParser.req] at minor bounded
              exact ⟨major, by simp only [RequestParser.req, RequestParser.setReq]; omega⟩
  all_goals
    repeat' split at advanced
    all_goals
      cases advanced
      try exact ⟨major, minor⟩

theorem parse_versioned {p q : RequestParser} {text rest : Bytes} (versioned : Versioned p.req)
    (parsed : p.parse text = .ok (q, rest)) :
    Versioned q.req := by
  refine scan_preserves (P := fun p : RequestParser => Versioned p.req)
    (fun p c q running versioned consumed => ?_) versioned parsed
  simp only [RequestParser.machine, RequestParser.consume] at consumed
  split at consumed
  · cases consumed
  · have counted : Versioned ({ p with totalLength := p.totalLength + 1 } : RequestParser).req :=
      versioned
    exact advance_versioned counted consumed

end Parser

section Connection

variable {c d : ServerConnection}

/-- A request whose version is known to be one. -/
def Known (c : ServerConnection) : Prop := Versioned c.requestParser.req

private theorem known_fresh : Versioned ({} : RequestParser).req := ⟨by decide, by decide⟩

private theorem known_readRequestBody (known : Known c) : Known c.readRequestBody.2 := by
  unfold readRequestBody
  split
  · exact known
  · simp only
    split <;> exact known

private theorem known_readRequestHeader (known : Known c) : Known c.readRequestHeader.2 := by
  unfold readRequestHeader
  split
  · exact known
  · rename_i parser rest parsed
    have versioned : Versioned parser.req := by
      simp only [Buffer.parseWith] at parsed
      split at parsed
      · cases parsed
      · rename_i done
        cases parsed
        exact parse_versioned known done
    simp only
    split
    · exact versioned
    · exact known_readRequestBody ⟨versioned.major, versioned.minor⟩

private theorem writeMessage_keepsParser {message : WebMessage} {bo : BufferOptions}
    (done : c.writeMessage message bo = .ok d) :
    d.requestParser = c.requestParser := by
  obtain ⟨-, rfl⟩ | ⟨-, -, rfl⟩ := writeMessage_ok done
  · rfl
  · simp only [sendMessage]
    split <;> rfl

private theorem readWebMessage_keepsParser (c : ServerConnection) (state : WebState) :
    (c.readWebMessage state).2.requestParser = c.requestParser := by
  simp only [readWebMessage]
  split
  · rfl
  · rfl
  · rfl
  · split
    · rfl
    · rename_i written
      exact (writeMessage_keepsParser written).trans rfl
  · split
    · rfl
    · rename_i written
      exact (writeMessage_keepsParser written).trans rfl

private theorem known_turn (known : Known c) : Known c.turn.2 := by
  obtain ⟨b, sock, -, stopped | switched⟩ := turn_cases c
  · rw [stopped]
    exact known
  · rw [switched]
    have read : Known { c with readBuffer := b, sock := sock } := known
    unfold switchState
    split
    · exact known_readRequestHeader read
    · exact known_readRequestBody read
    · rw [Known, readWebMessage_keepsParser]
      exact read
    · rw [Known, readWebMessage_keepsParser]
      exact read
    · exact read

private theorem known_advanceState (known : Known c) : Known c.advanceState.2 := by
  refine advanceState_preserves (P := Known) (fun d known => known_turn known)
    (fun d e next known thrown => ?_) known
  have turned := known_turn known
  rw [thrown] at turned
  exact turned

private theorem known_finishResponse (c : ServerConnection) : Known c.finishResponse := known_fresh

private theorem known_writeBody {send : Send} {val : Bytes} {bo : BufferOptions} (known : Known c)
    (done : c.writeBody send val bo = .ok d) : Known d := by
  obtain ⟨-, rfl⟩ | ⟨-, -, ⟨remaining, -, -, rfl⟩ | ⟨-, rfl⟩⟩ := writeBody_ok done
  · unfold sendFrame
    split <;> exact known
  · simp only [sendCounted]
    split
    · exact known_finishResponse _
    · exact known
  · unfold sendChunk
    split <;> exact known

private theorem known_writeLastChunk {bo : BufferOptions} (known : Known c)
    (done : c.writeLastChunk bo = .ok d) : Known d := by
  obtain ⟨-, rfl⟩ | ⟨-, -, -, rfl⟩ := writeLastChunk_ok done
  · exact known
  · exact known_finishResponse _

private theorem known_writeHeader {resp : ResponseHeader} {bo : BufferOptions} (known : Known c)
    (done : c.writeHeader resp bo = .ok d) :
    Known d := by
  obtain ⟨-, rfl⟩ | ⟨-, -, -, -, rfl⟩ := writeHeader_ok done <;> exact known

private theorem known_writeResponse (known : Known c) (resp : Response) :
    Known (c.writeResponse resp).2 := by
  obtain same | ⟨withHeader, header, rest⟩ := writeResponse_parts c resp
  · rwa [same]
  · have first := known_writeHeader known header
    obtain same | ⟨bo, withBody, body, last⟩ := rest
    · rwa [same]
    · have second := known_writeBody first body
      obtain same | finished := last
      · rwa [same]
      · exact known_writeLastChunk second finished

private theorem known_sockHandler (known : Known c) : Known c.sockHandler.2 := by
  unfold ServerConnection.sockHandler
  split
  · exact known
  · split
    · exact known
    · exact known_advanceState known

theorem known_perform (known : Known c) (op : ServerOp) : Known (perform c op).conn := by
  cases op with
  | accept accepted =>
    cases accepted <;> first | exact known | exact known_fresh
  | close => exact known
  | readNextRequest =>
    simp only [perform, readNextRequest]
    split
    · exact known
    · have taken : Known c.takeRequest := ⟨known.major, known.minor⟩
      exact known_advanceState taken
  | readNextMessage =>
    simp only [perform, readNextMessage]
    split
    · exact known
    · have taken : Known c.takeMessage := known
      exact known_advanceState taken
  | webSocketUpgrade =>
    refine settle_conn known fun d done => ?_
    obtain ⟨-, rfl⟩ | ⟨-, -, -, rfl⟩ := webSocketUpgrade_ok done <;> exact known
  | writeResponse resp =>
    rw [perform, settleAfter_conn]
    exact known_writeResponse known resp
  | writeHeader resp bo => exact settle_conn known fun d => known_writeHeader known
  | writeMessage message bo =>
    exact settle_conn known fun d done => by rw [Known, writeMessage_keepsParser done]; exact known
  | writeOpcode opcode =>
    refine settle_conn known fun d done => ?_
    obtain ⟨-, rfl⟩ | ⟨-, -, -, rfl⟩ := writeOpcode_ok done <;> exact known
  | writeData val bo => exact settle_conn known fun d => known_writeBody known
  | writeString ss bo => exact settle_conn known fun d => known_writeBody known
  | writeLastChunk bo => exact settle_conn known fun d => known_writeLastChunk known
  | arrive arrivals => exact known
  | plan sends => exact known
  | notify canRead canWrite => exact known
  | dispatch =>
    simp only [perform, dispatch]
    split
    · have event : Known c.socketEvent := known
      exact known_sockHandler event
    · exact known
  | pingTimer =>
    refine settle_conn known fun d done => ?_
    obtain rfl | ⟨pinged, rfl, rfl | sent⟩ := onWmPingTimer_ok done
    · exact known
    · exact known
    · show Versioned pinged.requestParser.req
      rw [writeMessage_keepsParser sent]
      exact known
  | shutdownTimer =>
    simp only [perform, shutdownTimerHandler]
    split
    · have fired : Known { c with sock := c.sock.shutdownTimerHandler } := known
      exact known_sockHandler fired
    · exact known

theorem known_of_run (ops : List ServerOp) : Known (afterOps {} ops) := by
  have start : Known {} := known_fresh
  exact Run.invariant_of_keeps (P := Known) (fun _ op known => known_perform known op) start ops

end Connection

end Crablib.VersionProofs
