import Crablib.Http.WebMessageParser
import Crablib.Network.BufferedTcpSocket
import Crablib.Utf8

/-! The web-socket half of `advance_state`, which `ServerConnection` and
`ClientConnection` have in two equal copies, and what both of them write. -/
namespace Crablib.Http

/-- `WEB_MESSAGE_HEADER`, `WEB_MESSAGE_BODY` and `WEB_MESSAGE_READY`. -/
inductive WebState where
  | header
  | body
  | ready
  deriving DecidableEq, Repr

/-- How one pass through the loop of `advance_state` ends. -/
inductive Turn where
  | again
  | stop (result : Bool)
  | throw (error : Error)
  deriving DecidableEq, Repr

/-- The bytes that wait in the descriptor. -/
def queued : List Arrival → Nat
  | [] => 0
  | .data _ rest :: later => rest.length + 1 + queued later
  | _ :: later => queued later

/-- The members that assemble messages from chunks. -/
structure WebReader where
  wmHeaderParser : WebMessageHeaderParser := {}
  wmBodyParser : WebMessageBodyParser := {}
  webMessage : Option WebMessage := none
  deriving DecidableEq, Repr

/-- What the connection has to do when a chunk was read: nothing, answer a
ping, stop because a message is ready, or close because it is not UTF-8. -/
inductive ChunkAction where
  | nothing
  | answer (body : Bytes)
  | ready
  | notUtf8
  | fail (error : Error)
  deriving DecidableEq, Repr

/-- The opcode of a chunk that starts a message; the header parser lets no
other data opcode through. -/
def opcodeOf : Nat → WebMessageOpcode
  | 1 => .text
  | 2 => .binary
  | 8 => .close
  | 9 => .ping
  | _ => .pong

/-- The CLOSE message of a received body. -/
def closeMessage (body : Bytes) : WebMessage :=
  match body with
  | high :: low :: reason =>
    { opcode := .close
      closeCode := UInt16.ofNat (high.toNat * 256 + low.toNat)
      -- No way to tell user about such an error
      body := if isValidUtf8 reason then reason else [] }
  | _ => { opcode := .close }

namespace WebReader

/-- Ready for the next chunk header. -/
def nextChunk (w : WebReader) : WebReader := { w with wmHeaderParser := {} }

/-- The body moved out of its parser. -/
def clearBody (w : WebReader) : WebReader := { w with wmBodyParser.body := [] }

/-- A chunk joins the message under construction, or starts one. -/
def joinChunk (w : WebReader) : Except Error WebMessage :=
  match w.webMessage with
  | none =>
    if w.wmHeaderParser.opcode = 0 then .error (.runtime "Continuation in the first chunk")
    else .ok { opcode := opcodeOf w.wmHeaderParser.opcode, body := w.wmBodyParser.body }
  | some message =>
    if w.wmHeaderParser.opcode ≠ 0 then .error (.runtime "Non-continuation in the subsequent chunk")
    else .ok { message with body := message.body ++ w.wmBodyParser.body }

/-- What follows when the chunk's body is complete. -/
def onChunk (w : WebReader) : ChunkAction × WebState × WebReader :=
  let opcode := w.wmHeaderParser.opcode
  -- Control frames are allowed between message fragments
  if opcode = WebMessageOpcode.ping.toNat then
    (.answer w.wmBodyParser.body, .header, w.clearBody.nextChunk)
  else if opcode = WebMessageOpcode.pong.toNat then (.nothing, .header, w.nextChunk)
  else if opcode = WebMessageOpcode.close.toNat then
    (.ready, .ready, { w.clearBody with webMessage := some (closeMessage w.wmBodyParser.body) })
  else
    match w.joinChunk with
    | .error e => (.fail e, .body, w)
    | .ok message =>
      if !w.wmHeaderParser.fin then
        (.nothing, .header, { w.clearBody.nextChunk with webMessage := some message })
      else if message.opcode = .text ∧ ¬isValidUtf8 message.body then
        (.notUtf8, .header, { w.clearBody.nextChunk with webMessage := none })
      else (.ready, .ready, { w.clearBody with webMessage := some message })

/-- The case `WEB_MESSAGE_BODY`. -/
def readBody (w : WebReader) (b : Buffer) : ChunkAction × WebState × WebReader × Buffer :=
  match b.parseWith w.wmBodyParser.parse with
  | .error e => (.fail e, .body, w, b)
  | .ok (parser, rest) =>
    let w := { w with wmBodyParser := parser }
    if !parser.isGood then (.nothing, .body, w, rest)
    else
      let chunk := w.onChunk
      (chunk.1, chunk.2.1, chunk.2.2, rest)

/-- The case `WEB_MESSAGE_HEADER`, which falls through to handle a body of
zero length. -/
def readHeader (w : WebReader) (b : Buffer) : ChunkAction × WebState × WebReader × Buffer :=
  match b.parseWith w.wmHeaderParser.parse with
  | .error e => (.fail e, .header, w, b)
  | .ok (parser, rest) =>
    let w := { w with wmHeaderParser := parser }
    if !parser.isGood then (.nothing, .header, w, rest)
    else
      { w with wmBodyParser := .make parser.payloadLen parser.maskingKey }.readBody rest

/-- One pass of the loop in a web-socket state. In the state `WEB_MESSAGE_READY`
the source takes the default case, which the connections handle. -/
def read (state : WebState) (w : WebReader) (b : Buffer) : ChunkAction × WebState × WebReader × Buffer :=
  match state with
  | .header => w.readHeader b
  | _ => w.readBody b

end WebReader

/-- `web_message_create_close_body` -/
def webMessageCreateCloseBody (reason : Bytes) (closeCode : UInt16) : Bytes :=
  if reason.isEmpty ∧ closeCode = WebMessage.closeStatusNoCode then []
  else
    -- Spec is silent on what to do in this case
    let code := if closeCode < 1000 then 1000 else closeCode
    UInt8.ofNat (code.toNat / 256) :: UInt8.ofNat (code.toNat % 256) :: reason

/-- The payload both connections send for a message: control messages are
truncated instead of refused. -/
def payload (message : WebMessage) : Bytes :=
  match message.opcode with
  | .text => message.body
  | .binary => message.body
  | .close => (webMessageCreateCloseBody message.body message.closeCode).take 125
  | .ping => message.body.take 125
  | .pong => message.body.take 125

end Crablib.Http
