import Crablib.UpgradeStreamProofs
import Crablib.Utf8Proofs
import Crablib.WebStreamProofs

/-! What a web message says that is delivered. Whatever bytes a peer sends, cut into
whatever chunks and segments, the texts and the reasons for closing that the user of
either end reads are encodings of characters. -/
namespace Crablib.LegibleProofs
open Http Cutting HearingProofs Utf8Proofs Scanner

section Heads
open WebMessageHeaderParser

/-- A header behind its first byte: the opcode is one there is, and a control message
is short and whole. -/
structure Sane (p : WebMessageHeaderParser) : Prop where
  opcode : p.state ≠ .messageByte0 → isOpcodeSupported p.opcode = true
  control : p.state ≠ .messageByte0 → p.state ≠ .messageByte1 → p.opcode &&& 0x08 ≠ 0 →
    p.payloadLen ≤ 125 ∧ p.fin = true ∧ p.state ≠ .messageLength

private theorem afterLength_sane {p : WebMessageHeaderParser} (known : isOpcodeSupported p.opcode = true)
    (control : p.opcode &&& 0x08 ≠ 0 → p.payloadLen ≤ 125 ∧ p.fin = true) : Sane p.afterLength := by
  unfold afterLength
  split
  · refine ⟨fun _ => known, fun _ _ isControl => ?_⟩
    obtain ⟨short, fin⟩ := control isControl
    exact ⟨short, fin, by simp⟩
  · refine ⟨fun _ => known, fun _ _ isControl => ?_⟩
    obtain ⟨short, fin⟩ := control isControl
    exact ⟨short, fin, by simp⟩

private theorem consume_sane {p q : WebMessageHeaderParser} {input : UInt8} (sane : Sane p)
    (consumed : p.consume input = .ok q) :
    Sane q := by
  unfold WebMessageHeaderParser.consume at consumed
  split at consumed
  · split at consumed
    · cases consumed
    · split at consumed
      · cases consumed
      · rename_i supported
        cases consumed
        exact ⟨fun _ => by simpa using supported, fun _ later => absurd rfl later⟩
  · rename_i state
    have known := sane.opcode (by simp [state])
    simp only at consumed
    split at consumed
    · cases consumed
    · rename_i short
      split at consumed
      · cases consumed
      · rename_i whole
        have control : p.opcode &&& 0x08 ≠ 0 → (input &&& 0x7f).toNat ≤ 125 ∧ p.fin = true := by
          intro isControl
          simp_all
        have long : ∀ {n}, 125 < n → (input &&& 0x7f).toNat = n → p.opcode &&& 0x08 = 0 := by
          intro n above length
          by_contra isControl
          have := (control isControl).1
          omega
        split at consumed
        · rename_i length
          cases consumed
          exact ⟨fun _ => known, fun _ _ isControl => absurd (long (by decide) length) isControl⟩
        · split at consumed
          · rename_i length
            cases consumed
            exact ⟨fun _ => known, fun _ _ isControl => absurd (long (by decide) length) isControl⟩
          · cases consumed
            exact afterLength_sane known control
  · rename_i state
    have known := sane.opcode (by simp [state])
    have plain : ¬(p.opcode &&& 0x08 ≠ 0) := by
      intro isControl
      exact (sane.control (by simp [state]) (by simp [state]) isControl).2.2 state
    simp only at consumed
    cases consumed
    split
    · exact ⟨fun _ => known, fun _ _ isControl => absurd isControl plain⟩
    · exact afterLength_sane known fun isControl => absurd isControl plain
  · rename_i state
    have known := sane.opcode (by simp [state])
    have control := sane.control (by simp [state]) (by simp [state])
    simp only at consumed
    cases consumed
    split
    · refine ⟨fun _ => known, fun _ _ isControl => ?_⟩
      obtain ⟨short, fin, -⟩ := control isControl
      exact ⟨short, fin, by simp [state]⟩
    · refine ⟨fun _ => known, fun _ _ isControl => ?_⟩
      obtain ⟨short, fin, -⟩ := control isControl
      exact ⟨short, fin, by simp⟩
  · cases consumed

end Heads

section Bodies

/-- A body that is read, and the bytes still to come, have the announced length. -/
private theorem scan_body_length {p q : WebMessageBodyParser} {text rest : Bytes} (sound : Sound p)
    (scanned : scan byByte p text = .ok (q, rest)) :
    (q.body.length + q.remainingBytes = p.body.length + p.remainingBytes) ∧ Sound q := by
  refine scan_preserves (P := fun s => s.body.length + s.remainingBytes = p.body.length +
    p.remainingBytes ∧ Sound s) ?_ ⟨rfl, sound⟩ scanned
  rintro s a t running ⟨length, sound⟩ consumed
  have next : (s.consume [a]).1 = t := by simpa only [byByte, Except.ok.injEq] using consumed
  subst next
  refine ⟨?_, consume_sound sound [a]⟩
  have inside : s.inBody = true := by simpa [byByte, WebMessageBodyParser.isGood] using running
  have left : s.remainingBytes ≠ 0 := by
    rw [Sound, inside] at sound
    exact of_decide_eq_true sound.symm
  have one : min 1 s.remainingBytes = 1 := by omega
  rw [← length]
  simp only [WebMessageBodyParser.consume, inside, ↓reduceIte, List.length_singleton,
    one, List.length_append]
  split <;> simp [maskData] <;> omega

/-- A chunk that was cut off a text: its opcode is one there is, so it goes on with
nothing, and a control message is short. -/
structure Plain (c : WebChunk) : Prop where
  opcode : WebMessageHeaderParser.isOpcodeSupported c.opcode = true
  control : c.opcode &&& 0x08 ≠ 0 → c.body.length ≤ 125 ∧ c.fin = true

private theorem first_plain {text rest : Bytes} {c : WebChunk}
    (read : chunkCutter.first text = some (c, rest)) : Plain c := by
  obtain ⟨p, q, behind, head, good, body, good', rfl⟩ := chunkStages.first_iff.mp read
  have sane : Sane p := by
    refine scan_preserves (fun s a t _ => consume_sane) ?_ head
    exact ⟨fun later => absurd rfl later, fun later => absurd rfl later⟩
  have last : p.state = .good := by
    simpa [chunkStages, WebMessageHeaderParser.machine, WebMessageHeaderParser.isGood] using good
  obtain ⟨length, sound⟩ := scan_body_length (make_sound _ _) body
  have whole : q.body.length + q.remainingBytes = p.payloadLen := by
    simpa [WebMessageBodyParser.make] using length
  refine ⟨sane.opcode (by simp [last]), fun isControl => ?_⟩
  obtain ⟨short, fin, -⟩ := sane.control (by simp [last]) (by simp [last]) isControl
  exact ⟨by show q.body.length ≤ 125; omega, fin⟩

theorem cuts_plain {text rest : Bytes} {chunks : List WebChunk}
    (cuts : Cuts chunkCutter text chunks rest) : ∀ c ∈ chunks, Plain c := by
  induction cuts with
  | done rest => simp
  | next read _ ih =>
    intro c member
    rcases List.mem_cons.mp member with rfl | later
    · exact first_plain read
    · exact ih c later

end Bodies

/-- What a user may rely on: a message is a text, binary data or the notice of a close,
what it says in characters is made of them, and a reason is short. -/
structure Legible (m : WebMessage) : Prop where
  opcode : m.opcode = .text ∨ m.opcode = .binary ∨ m.opcode = .close
  encoded : m.opcode ≠ .binary → ∃ text : List Char, m.body = encode text
  short : m.opcode = .close → m.body.length ≤ 123

section Chunks

private theorem isValidUtf8_encoded {data : Bytes} (valid : isValidUtf8 data = true) :
    ∃ text : List Char, data = encode text :=
  (accepts_iff data).mp (beq_iff_eq.mp valid)

private theorem closeMessage_legible {body : Bytes} (short : body.length ≤ 125) :
    Legible (closeMessage body) := by
  unfold closeMessage
  split
  · rename_i high low reason
    refine ⟨.inr (.inr rfl), fun _ => ?_, fun _ => ?_⟩
    · by_cases valid : isValidUtf8 reason = true
      · simpa [valid] using isValidUtf8_encoded valid
      · exact ⟨[], by simp [valid, encode]⟩
    · simp only [List.length_cons] at short
      show (if isValidUtf8 reason then reason else []).length ≤ 123
      split
      · omega
      · simp
  · exact ⟨.inr (.inr rfl), fun _ => ⟨[], rfl⟩, fun _ => Nat.zero_le 123⟩

/-- One chunk makes a legible message or none: no chunk goes on with another. -/
private theorem hear_legible {h : Hearing} {c : WebChunk} (plain : Plain c)
    (legible : ∀ m ∈ h.messages, Legible m) :
    ∀ m ∈ (h.hear c).messages, Legible m := by
  have more : ∀ {m}, Legible m → ∀ m' ∈ h.messages ++ [m], Legible m' := by
    intro m one m' member
    rcases List.mem_append.mp member with earlier | last
    · exact legible m' earlier
    · exact List.mem_singleton.mp last ▸ one
  unfold Hearing.hear
  split
  · exact legible
  · split
    · exact legible
    · rename_i notPing
      split
      · exact legible
      · rename_i notPong
        split
        · rename_i isClose
          exact more (closeMessage_legible (plain.control (by rw [isClose]; decide)).1)
        · rename_i notClose
          have data : c.opcode = 1 ∨ c.opcode = 2 := by
            have known := plain.opcode
            simp only [WebMessageHeaderParser.isOpcodeSupported, List.any_cons, List.any_nil,
              Bool.or_false, Bool.or_eq_true, beq_iff_eq,
              WebMessageOpcode.toNat] at known notPing notPong notClose
            omega
          split
          · exact legible
          · rename_i message begun
            have fresh : message = { opcode := opcodeOf c.opcode, body := c.body } := by
              unfold joined at begun
              split at begun
              · split at begun
                · cases begun
                · exact (Option.some.inj begun).symm
              · rw [if_pos (by omega)] at begun
                cases begun
            split
            · exact legible
            · split
              · exact legible
              · rename_i readable
                refine more ?_
                rw [fresh] at readable ⊢
                rcases data with text | binary
                · have valid : isValidUtf8 c.body = true := by simpa [text, opcodeOf] using readable
                  exact ⟨.inl (by simp [text, opcodeOf]),
                    fun _ => isValidUtf8_encoded valid, by simp [text, opcodeOf]⟩
                · exact ⟨.inr (.inl (by simp [binary, opcodeOf])), by simp [binary, opcodeOf], by
                    simp [binary, opcodeOf]⟩

theorem heard_legible {begun : Option WebMessage} {chunks : List WebChunk}
    (plain : ∀ c ∈ chunks, Plain c) :
    ∀ m ∈ (heard begun chunks).messages, Legible m := by
  have legible : ∀ h : Hearing, (∀ m ∈ h.messages, Legible m) →
      ∀ m ∈ (chunks.foldl Hearing.hear h).messages, Legible m := by
    induction chunks with
    | nil => exact fun h start => start
    | cons c chunks ih =>
      intro h start
      rw [List.foldl_cons]
      exact ih (fun c' member => plain c' (List.mem_cons_of_mem c member))
        _ (hear_legible (plain c List.mem_cons_self) start)
  exact legible { begun := begun } (by simp)

end Chunks

/-- Every web message that the user of either end reads in any run is legible. -/
theorem delivered_legible (keys : List UInt32) (server : List ServerRun.ServerOp)
    (client : List ClientRun.ClientOp) :
    (∀ m ∈ (Run.after WebStreamProofs.hear {} server).messages, Legible m) ∧
      ∀ m ∈ (Run.after UpgradeStreamProofs.hear { conn := { keys := keys } } client).messages,
      Legible m := by
  constructor
  · have inTouch : WebStreamProofs.InTouch (Run.after WebStreamProofs.hear {} server) :=
      Run.invariant_of_keeps WebStreamProofs.hear_inTouch WebStreamProofs.inTouch_start server
    rcases inTouch.told with none | ⟨base, used, chunks, text, -, cuts, -, first⟩
    · simp [none]
    · exact fun m member => heard_legible (cuts_plain cuts) m (first.subset member)
  · have inTouch :
        UpgradeStreamProofs.InTouch
        (Run.after UpgradeStreamProofs.hear { conn := { keys := keys } } client) :=
      Run.invariant_of_keeps UpgradeStreamProofs.hear_inTouch
        (UpgradeStreamProofs.inTouch_start keys) client
    rcases inTouch.told with none | told
    · simp [none]
    · obtain ⟨base, head, p, used, chunks, text, -, -, -, cuts, -, first⟩ := told.heard
      exact fun m member => heard_legible (cuts_plain cuts) m (first.subset member)

end Crablib.LegibleProofs
