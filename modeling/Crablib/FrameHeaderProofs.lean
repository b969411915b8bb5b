import Crablib.FrameProofs

/-! The header of a frame as it is written and as it is read: the parser is good
behind its last byte and not before, and no header that is read the same way is
shorter. -/
namespace Crablib.FrameHeaderProofs
open Http WebMessageHeaderParser FrameProofs

section Writing

/-- The bytes behind the second one that hold a length. -/
def fieldBytes (payloadLen : Nat) : Nat :=
  if payloadLen < 126 then 0 else if payloadLen < 65536 then 2 else 8

def keyBytes (maskingKey : Option UInt32) : Nat := if maskingKey.isSome then 4 else 0

theorem header_length (fin : Bool) (opcode payloadLen : Nat) (maskingKey : Option UInt32) :
    (webMessageHeader fin opcode payloadLen maskingKey).length = 2 + fieldBytes payloadLen +
      keyBytes maskingKey := by
  simp only [webMessageHeader, List.length_cons, List.length_append, fieldBytes]
  cases maskingKey with
  | none =>
    split
    · simp [keyBytes]
    · split
      · simp [keyBytes]
      · simp [keyBytes]
  | some key =>
    split
    · simp [keyBytes]
    · split
      · simp [keyBytes]
      · simp [keyBytes]

theorem header_length_le (fin : Bool) (opcode payloadLen : Nat) (maskingKey : Option UInt32) :
    (webMessageHeader fin opcode payloadLen maskingKey).length ≤ 14 := by
  have field : fieldBytes payloadLen ≤ 8 := by
    unfold fieldBytes
    split
    · omega
    · split <;> omega
  have key : keyBytes maskingKey ≤ 4 := by
    unfold keyBytes
    split <;> omega
  rw [header_length]
  omega

end Writing

section Reading

/-- A number of bytes for a length that can hold it. -/
def Fits (field payloadLen : Nat) : Prop :=
  field = 0 ∧ payloadLen < 126 ∨ field = 2 ∧ payloadLen < 65536 ∨ field = 8

/-- What a parser that took `count` bytes has of them. -/
def Spent (p : WebMessageHeaderParser) (count : Nat) : Prop :=
  match p.state with
  | .messageByte0 => count = 0 ∧ p.maskingKey = none
  | .messageByte1 => count = 1 ∧ p.maskingKey = none
  | .messageLength => ∃ field taken, (field = 2 ∨ field = 8) ∧ taken + p.remainingFieldBytes = field ∧
      0 < p.remainingFieldBytes ∧ count = 2 + taken ∧ p.payloadLen < 256 ^ taken
  | .maskingKey =>
    ∃ field, Fits field p.payloadLen ∧ p.maskingKey.isSome = true ∧ 0 < p.remainingFieldBytes ∧
      count + p.remainingFieldBytes = 2 + field + 4
  | .good => ∃ field, Fits field p.payloadLen ∧ count = 2 + field + keyBytes p.maskingKey

/-- The length is read. -/
private theorem afterLength_spent {p : WebMessageHeaderParser} {field : Nat}
    (fits : Fits field p.payloadLen) :
    Spent p.afterLength (2 + field) := by
  unfold afterLength
  split
  · rename_i some
    exact ⟨field, fits, some, Nat.zero_lt_succ 3, rfl⟩
  · rename_i none
    refine ⟨field, fits, ?_⟩
    simp [keyBytes, none]

theorem consume_spent {p q : WebMessageHeaderParser} {c : UInt8} {count : Nat} (spent : Spent p count)
    (consumed : p.consume c = .ok q) : Spent q (count + 1) := by
  unfold Spent at spent
  cases state : p.state with
  | messageByte0 =>
    simp only [state] at spent
    obtain ⟨rfl, none⟩ := spent
    simp only [consume, state] at consumed
    split at consumed
    · cases consumed
    · split at consumed
      · cases consumed
      · cases consumed
        exact ⟨rfl, none⟩
  | messageByte1 =>
    simp only [state] at spent
    obtain ⟨rfl, none⟩ := spent
    have small : (c &&& 0x7f).toNat < 128 := by
      have bound : (c &&& 0x7f).toNat ≤ 127 := by
        rw [UInt8.toNat_and]
        exact Nat.and_le_right
      omega
    simp only [consume, state] at consumed
    split at consumed
    · cases consumed
    · split at consumed
      · cases consumed
      · split at consumed
        · cases consumed
          exact ⟨2, 0, .inl rfl, rfl, Nat.zero_lt_succ 1, rfl, Nat.zero_lt_one⟩
        · split at consumed
          · cases consumed
            exact ⟨8, 0, .inr rfl, rfl, Nat.zero_lt_succ 7, rfl, Nat.zero_lt_one⟩
          · rename_i not_two not_eight
            cases consumed
            exact afterLength_spent (.inl ⟨rfl, by simp only; omega⟩)
  | messageLength =>
    simp only [state] at spent
    obtain ⟨field, taken, known, total, more, rfl, bound⟩ := spent
    have digit := c.toNat_lt
    have next : p.payloadLen * 256 + c.toNat < 256 ^ (taken + 1) := by
      rw [Nat.pow_succ]
      omega
    have wrapped : (p.payloadLen * 256 + c.toNat) % 2 ^ 64 < 256 ^ (taken + 1) :=
      Nat.lt_of_le_of_lt (Nat.mod_le _ _) next
    simp only [consume, state, Except.ok.injEq] at consumed
    split at consumed
    · rename_i left
      subst consumed
      exact ⟨field, taken + 1, known, by simp only; omega, Nat.pos_of_ne_zero left, by omega, wrapped⟩
    · rename_i done
      subst consumed
      have all : taken + 1 = field := by omega
      have fits : Fits field ((p.payloadLen * 256 + c.toNat) % 2 ^ 64) := by
        rcases known with rfl | rfl
        · rw [all] at wrapped
          exact .inr (.inl ⟨rfl, wrapped⟩)
        · exact .inr (.inr rfl)
      have spent := afterLength_spent (p := { p with
        payloadLen := (p.payloadLen * 256 + c.toNat) % 2 ^ 64
        remainingFieldBytes := p.remainingFieldBytes - 1 }) fits
      rwa [← all, ← Nat.add_assoc] at spent
  | maskingKey =>
    simp only [state] at spent
    obtain ⟨field, fits, some, more, total⟩ := spent
    simp only [consume, state, Except.ok.injEq] at consumed
    split at consumed
    · rename_i left
      subst consumed
      exact ⟨field, fits, by simpa using some, Nat.pos_of_ne_zero left, by simp only; omega⟩
    · rename_i done
      subst consumed
      refine ⟨field, fits, ?_⟩
      have four :
          keyBytes (p.maskingKey.map fun key => UInt32.ofNat (key.toNat * 256 + c.toNat)) = 4 := by
        rw [keyBytes, Option.isSome_map, if_pos some]
      simp only [four]
      omega
  | good => simp [consume, state] at consumed

/-- The bytes that a header takes up are those its length and its key need, or more. -/
theorem parse_length {p : WebMessageHeaderParser} {header : Bytes}
    (parsed : parse {} header = .ok (p, [])) (good : p.isGood = true) :
    2 + fieldBytes p.payloadLen + keyBytes p.maskingKey ≤ header.length := by
  have start : Spent {} 0 := ⟨rfl, rfl⟩
  have spent := Scanner.scan_counts (P := Spent) (fun s c t count _ spent consumed =>
    consume_spent spent consumed) start (by rw [List.append_nil]; exact parsed)
  have state : p.state = .good := by simpa [isGood] using good
  unfold Spent at spent
  simp only [state] at spent
  obtain ⟨field, fits, total⟩ := spent
  unfold Fits at fits
  unfold fieldBytes
  split
  · omega
  · split <;> omega

end Reading

/-- The header of every frame is read as it was written, wherever the bytes are cut:
behind its last byte and not before. It has at most fourteen bytes, and no header
that gives the same length and a key as well has fewer. -/
theorem header_round_trip (fin : Bool) (opcode : WebMessageOpcode) (payloadLen : UInt64)
    (maskingKey : Option UInt32)
    (control : opcode ≠ .text → opcode ≠ .binary → fin = true ∧ payloadLen.toNat ≤ 125) :
    let header := webMessageHeader fin opcode.toNat payloadLen.toNat maskingKey
    (∀ pieces following, pieces.flatten = header ++ following →
      ∃ p, Scanner.feed machine {} pieces = .ok (p, following) ∧ p.isGood = true ∧ p.fin = fin ∧
        p.opcode = opcode.toNat ∧ p.payloadLen = payloadLen.toNat ∧ p.maskingKey = maskingKey) ∧
    (∀ front back, header = front ++ back → back ≠ [] →
      ∃ p, parse {} front = .ok (p, []) ∧ p.isGood = false) ∧
    header.length ≤ 14 ∧
    (∀ other p, parse {} other = .ok (p, []) → p.isGood = true → p.payloadLen = payloadLen.toNat →
      p.maskingKey.isSome = maskingKey.isSome → header.length ≤ other.length) := by
  intro header
  have length : (List.replicate payloadLen.toNat (0 : UInt8)).length = payloadLen.toNat :=
    List.length_replicate
  let f : Frame :=
    ⟨fin, opcode, maskingKey, List.replicate payloadLen.toNat 0,
      by rw [length]; exact payloadLen.toNat_lt, by rw [length]; exact control⟩
  have same : f.header = header := by simp [Frame.header, f, header]
  have scanned := scan_header f
  rw [same] at scanned
  refine ⟨?_, ?_, header_length_le fin opcode.toNat payloadLen.toNat maskingKey, ?_⟩
  · intro pieces following cut
    refine ⟨f.parsed, ?_, rfl, rfl, rfl, length, rfl⟩
    rw [Scanner.feed_flatten, cut]
    exact Scanner.scan_whole scanned rfl following
  · intro front back split more
    rw [split] at scanned
    obtain ⟨p, parsed, running, -⟩ := Scanner.scan_part scanned more
    exact ⟨p, parsed, running⟩
  · intro other p parsed good same_length same_key
    have needs := parse_length parsed good
    rw [same_length] at needs
    simp only [keyBytes, same_key] at needs
    rw [header_length]
    exact needs

/-- A masked ping of two bytes, its header cut in three, with a byte behind it. -/
theorem header_round_trip_ping :
    ∃ p, Scanner.feed machine {} [[0x89], [0x82, 1, 2, 3], [4, 7]] = .ok (p, [7]) ∧
    p.isGood = true ∧ p.fin = true ∧ p.opcode = 9 ∧ p.payloadLen = 2 ∧ p.maskingKey = some 0x01020304 :=
  (header_round_trip true .ping 2 (some 0x01020304) (by decide)).1 [[0x89], [0x82, 1, 2, 3],
    [4, 7]] [7] (by decide)

end Crablib.FrameHeaderProofs
