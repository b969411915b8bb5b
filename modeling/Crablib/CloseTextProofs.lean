import Crablib.DeliveryProofs
import Crablib.Utf8Proofs

/-! The text of CLOSE frames: a reason is cut after its first 123 bytes, wherever
the characters of it end. -/
namespace Crablib.CloseTextProofs
open Http StreamsProofs SocketProofs DeliveryProofs Utf8Proofs

section Reasons

/-- The room for the reason in a control frame ends inside of a character. -/
def Splits (reason : Bytes) : Prop := ∃ byte, reason[123]? = some byte ∧ IsTail byte

/-- The code that is sent for a code: the small ones are not used. -/
def sentCode (code : UInt16) : UInt16 := if code < 1000 then 1000 else code

/-- The payload of a CLOSE frame as the other end should get it: small, and either
nothing at all or a code and a part of the reason that the other end reports. -/
structure CarriesText (message : WebMessage) (body : Bytes) : Prop where
  small : body.length ≤ 125
  shape : message.closeCode = WebMessage.closeStatusNoCode ∧ message.body = [] ∧ body = [] ∨
    ∃ high low kept, body = high :: low :: kept ∧ isValidUtf8 kept = true ∧ kept <+: message.body ∧
      closeMessage body = { message with closeCode := sentCode message.closeCode, body := kept }

private theorem valid_kept_iff {reason : Bytes} (text : isValidUtf8 reason = true) :
    isValidUtf8 (reason.take 123) = true ↔ ¬Splits reason := by
  rw [← List.take_append_drop 123 reason] at text
  rw [valid_prefix_iff text, List.head?_drop]
  simp [Splits]

private theorem code_bytes (code : UInt16) :
    UInt16.ofNat ((UInt8.ofNat (code.toNat / 256)).toNat * 256 +
      (UInt8.ofNat (code.toNat % 256)).toNat) = code := by
  have small := code.toNat_lt
  apply UInt16.toNat.inj
  simp only [UInt8.toNat_ofNat', UInt16.toNat_ofNat']
  omega

theorem payload_close {message : WebMessage} (opcode : message.opcode = .close) :
    message.closeCode = WebMessage.closeStatusNoCode ∧ message.body = [] ∧ payload message = [] ∨
      ∃ high low, payload message = high :: low :: message.body.take 123 ∧
        UInt16.ofNat (high.toNat * 256 + low.toNat) = sentCode message.closeCode := by
  rw [payload, opcode]
  dsimp only
  unfold webMessageCreateCloseBody
  split
  · rename_i nothing
    exact .inl ⟨nothing.2, List.isEmpty_iff.mp nothing.1, rfl⟩
  · exact .inr ⟨_, _, rfl, code_bytes _⟩

private theorem carriesText_iff {message : WebMessage} (opcode : message.opcode = .close)
    (text : isValidUtf8 message.body = true) :
    CarriesText message (payload message) ↔ ¬Splits message.body := by
  obtain ⟨code, reason, nothing⟩ | ⟨high, low, bytes, code⟩ := payload_close opcode
  · rw [nothing, reason]
    exact ⟨fun _ => by simp [Splits], fun _ => ⟨by simp, .inl ⟨code, reason, rfl⟩⟩⟩
  · rw [← valid_kept_iff text, bytes]
    constructor
    · rintro ⟨-, ⟨-, -, nothing⟩ | ⟨high', low', kept, same, valid, -⟩⟩
      · cases nothing
      · cases same
        exact valid
    · intro valid
      have small : (message.body.take 123).length ≤ 123 := List.length_take_le 123 message.body
      refine ⟨by rw [List.length_cons, List.length_cons]; omega,
        .inr ⟨high, low, _, rfl, valid, List.take_prefix 123 message.body, ?_⟩⟩
      simp [closeMessage, valid, code, opcode]

end Reasons

private theorem server_closes {c : ServerConnection} {message : WebMessage}
    (opcode : message.opcode = .close) (web : c.isStateWebsocket = true) (writing : Writing c.sock)
    (bo : BufferOptions) :
    ∃ d, c.writeMessage message bo = .ok d ∧ stream d.sock = stream c.sock ++
      (webMessageHeader true message.opcode.toNat (payload message).length none ++ payload message) := by
  have opened : c.isOpen = true := by simp [ServerConnection.isOpen, writing.isOpen]
  refine ⟨c.sendMessage message
    bo, by simp [ServerConnection.writeMessage, opened, web, invariant, opcode], ?_⟩
  rw [← (writing.writes _ (payload message) bo).2]
  simpa [ServerConnection.sendMessage, opcode] using (writeShutdown_keeps _).1

private theorem client_closes {c : ClientConnection} {message : WebMessage}
    (opcode : message.opcode = .close) (web : c.mayWriteMessage = true) (writing : Writing c.sock) :
    ∃ d, c.writeMessage message = .ok d ∧ stream d.sock = stream c.sock ++
      (webMessageHeader true message.opcode.toNat (payload message).length (some (c.keys.headD 0)) ++
        maskData 0 (payload message) (c.keys.headD 0)) := by
  have opened : c.isOpen = true := by simp [ClientConnection.isOpen, writing.isOpen]
  refine ⟨c.sendMessage message, by simp [ClientConnection.writeMessage, opened, web, invariant], ?_⟩
  rw [← (writing.writes _ (maskData 0 (payload message) (c.keys.headD 0)) .write).2]
  simpa [ClientConnection.sendMessage, opcode] using (writeShutdown_keeps _).1

/-- For every CLOSE message whose reason is valid UTF-8, the frames that a server and
a client write for it have one payload, which carries the code and text that the
other end reports exactly if the first 123 bytes of the reason do not end inside of
a character. -/
theorem close_text_carried_iff {message : WebMessage} (opcode : message.opcode = .close)
    (text : isValidUtf8 message.body = true) :
    ∃ body,
      (∀ (c : ServerConnection) (bo : BufferOptions), c.isStateWebsocket = true → Writing c.sock →
        ∃ d, c.writeMessage message bo = .ok d ∧ stream d.sock = stream c.sock ++
          (webMessageHeader true message.opcode.toNat body.length none ++ body)) ∧
      (∀ c : ClientConnection, c.mayWriteMessage = true → Writing c.sock →
        ∃ d, c.writeMessage message = .ok d ∧ stream d.sock = stream c.sock ++
          (webMessageHeader true message.opcode.toNat body.length (some (c.keys.headD 0)) ++
            maskData 0 body (c.keys.headD 0))) ∧
      (CarriesText message body ↔ ¬Splits message.body) :=
  ⟨payload message, fun _ bo web writing => server_closes opcode web writing bo,
    fun _ web writing => client_closes opcode web writing, carriesText_iff opcode text⟩

/-- A reason of 122 letters and a character of two bytes. -/
def longReason : Bytes := List.replicate 122 0x61 ++ [0xc3, 0xa9]

private theorem longReason_text : isValidUtf8 longReason = true := by decide +kernel

theorem close_text_carried_letters :
    ∃ body,
      (∃ d, ServerConnection.writeMessage { state := .web .header, sock := quietSocket }
          { opcode := .close, closeCode := 1000, body := str "bye" } .write = .ok d ∧
        stream d.sock = stream quietSocket ++ (webMessageHeader true 8 body.length none ++ body)) ∧
      CarriesText { opcode := .close, closeCode := 1000, body := str "bye" } body := by
  obtain ⟨body, server, -, carries⟩ := @close_text_carried_iff
    { opcode := .close, closeCode := 1000, body := str "bye" } rfl (by decide +kernel)
  exact ⟨body, server _ .write rfl ⟨rfl, rfl⟩, carries.mpr (by simp [Splits, str])⟩

/-- The reason is cut inside of its last character, and the other end reports no text. -/
theorem close_text_dropped :
    isValidUtf8 longReason = true ∧
      ∃ body d, ServerConnection.writeMessage { state := .web .header, sock := quietSocket }
          { opcode := .close, closeCode := 1000, body := longReason } .write = .ok d ∧
        stream d.sock = stream quietSocket ++ (webMessageHeader true 8 body.length none ++ body) ∧
        (closeMessage body).body = [] ∧
        ¬CarriesText { opcode := .close, closeCode := 1000, body := longReason } body := by
  have web :
      ServerConnection.isStateWebsocket { state := .web .header, sock := quietSocket } = true := rfl
  obtain ⟨d, wrote, bytes⟩ :=
    @server_closes _ { opcode := .close, closeCode := 1000, body := longReason } rfl web
    ⟨rfl, rfl⟩ .write
  refine ⟨longReason_text, _, d, wrote, bytes, by decide +kernel, ?_⟩
  rw [carriesText_iff rfl longReason_text, Classical.not_not]
  exact ⟨0xa9, by decide +kernel, by decide, by decide⟩

end Crablib.CloseTextProofs
