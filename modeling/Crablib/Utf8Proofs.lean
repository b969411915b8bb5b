import Crablib.Utf8

/-! The table of `is_valid_utf8` accepts the encodings of sequences of Unicode scalar
values and nothing else: no overlong form, no surrogate, nothing above the last plane,
no sequence that is cut off. -/
namespace Crablib.Utf8Proofs

/-- Whether the bytes lead from a state back to the first one. -/
def Accepts (state : Nat) (data : Bytes) : Prop := data.foldl utf8Decode state = utf8Accept

variable {data : Bytes}

section Rows

private theorem every_byte {P : UInt8 → Prop} (all : ∀ n < 256, P (UInt8.ofNat n))
    (byte : UInt8) : P byte := by
  have here := all byte.toNat byte.toNat_lt
  rwa [UInt8.ofNat_toNat] at here

/-- The states after the first byte of a sequence: a byte in a range leads on, and
every other one is refused. -/
structure Row where
  state : Nat
  low : Nat
  high : Nat
  next : Nat

def tail1 : Row := ⟨24, 0x80, 0xC0, 0⟩
def tail2 : Row := ⟨36, 0x80, 0xC0, 24⟩
def tail3 : Row := ⟨84, 0x80, 0xC0, 36⟩
def afterE0 : Row := ⟨48, 0xA0, 0xC0, 24⟩
def afterED : Row := ⟨60, 0x80, 0xA0, 24⟩
def afterF0 : Row := ⟨72, 0x90, 0xC0, 36⟩
def afterF4 : Row := ⟨96, 0x80, 0x90, 36⟩

/-- The rows behind a first byte. -/
def table : List Row := [tail1, tail2, tail3, afterE0, afterED, afterF0, afterF4]

/-- The table has this row. -/
def Row.Holds (r : Row) : Prop :=
  r.state ≠ 0 ∧ ∀ byte, utf8Decode r.state byte = if r.low ≤ byte.toNat ∧
    byte.toNat < r.high then r.next else 12

private theorem rows : ∀ r ∈ table, r.Holds := by
  have checked : ∀ r ∈ table, ∀ n < 256,
      utf8Decode r.state (UInt8.ofNat n) =
        if r.low ≤ (UInt8.ofNat n).toNat ∧ (UInt8.ofNat n).toNat < r.high then r.next
        else 12 := by decide +kernel
  intro r member
  refine ⟨?_, every_byte (checked r member)⟩
  have positive : ∀ r ∈ table, r.state ≠ 0 := by decide
  exact positive r member

/-- The first byte of a sequence. -/
def firstState (byte : Nat) : Nat :=
  if byte < 0x80 then 0
  else if byte < 0xC2 then 12
  else if byte < 0xE0 then tail1.state
  else if byte = 0xE0 then afterE0.state
  else if byte = 0xED then afterED.state
  else if byte < 0xF0 then tail2.state
  else if byte = 0xF0 then afterF0.state
  else if byte < 0xF4 then tail3.state
  else if byte = 0xF4 then afterF4.state
  else 12

private theorem first_row (byte : UInt8) : utf8Decode 0 byte = firstState byte.toNat := by
  have checked : ∀ n < 256, utf8Decode 0 (UInt8.ofNat n) = firstState (UInt8.ofNat n).toNat := by
    decide +kernel
  exact every_byte (P := fun byte => utf8Decode 0 byte = firstState byte.toNat) checked byte

private theorem refused_row (byte : UInt8) : utf8Decode 12 byte = 12 := by
  have checked : ∀ n < 256, utf8Decode 12 (UInt8.ofNat n) = 12 := by decide +kernel
  exact every_byte (P := fun byte => utf8Decode 12 byte = 12) checked byte

/-- Nothing that was refused is accepted again. -/
private theorem not_accepts_refused (data : Bytes) : ¬Accepts 12 data := by
  induction data with
  | nil => simp [Accepts, utf8Accept]
  | cons byte data ih => rwa [Accepts, List.foldl_cons, refused_row]

private theorem accepts_row {r : Row} (holds : r.Holds) :
    Accepts r.state data ↔ ∃ byte rest, data = byte :: rest ∧ r.low ≤ byte.toNat ∧
      byte.toNat < r.high ∧ Accepts r.next rest := by
  obtain ⟨inside, row⟩ := holds
  cases data with
  | nil => simpa [Accepts, utf8Accept] using inside
  | cons byte rest =>
    have step : Accepts r.state (byte :: rest) ↔ Accepts (utf8Decode r.state byte) rest := Iff.rfl
    rw [step, row]
    split
    · rename_i within
      constructor
      · intro accepted
        exact ⟨byte, rest, rfl, within.1, within.2, accepted⟩
      · rintro ⟨byte', rest', same, -, -, accepted⟩
        cases same
        exact accepted
    · rename_i outside
      constructor
      · intro accepted
        exact absurd accepted (not_accepts_refused rest)
      · rintro ⟨byte', rest', same, low, high, -⟩
        cases same
        exact absurd ⟨low, high⟩ outside

/-- A byte that continues a sequence. -/
def IsTail (byte : UInt8) : Prop := 0x80 ≤ byte.toNat ∧ byte.toNat < 0xC0

/-- Where the bytes of a text can lead to. -/
private def states : List Nat := 0 :: 12 :: table.map Row.state

private theorem decode_states {state : Nat} (member : state ∈ states) (byte : UInt8) :
    utf8Decode state byte ∈ states := by
  simp only [states, List.mem_cons, List.mem_map] at member
  rcases member with rfl | rfl | ⟨r, inTable, rfl⟩
  · rw [first_row]
    unfold firstState
    repeat' split
    all_goals decide
  · rw [refused_row]
    decide
  · have next : ∀ r ∈ table, r.next ∈ states := by decide
    rw [(rows r inTable).2]
    split
    · exact next r inTable
    · decide

private theorem decode_all_states (data : Bytes) {state : Nat} (member : state ∈ states) :
    data.foldl utf8Decode state ∈ states := by
  induction data generalizing state with
  | nil => exact member
  | cons byte data ih => exact ih (decode_states member byte)

/-- Where a text goes on to its end, it stands between sequences exactly at a byte
that does not continue one. -/
private theorem between_iff {state : Nat} (member : state ∈ states) {byte : UInt8}
    (accepted : Accepts state (byte :: data)) : state = 0 ↔ ¬IsTail byte := by
  simp only [states, List.mem_cons, List.mem_map] at member
  rcases member with rfl | rfl | ⟨r, inTable, rfl⟩
  · have step : Accepts (utf8Decode 0 byte) data := accepted
    refine iff_of_true rfl fun tail => not_accepts_refused data ?_
    have refused : firstState byte.toNat = 12 := by
      have low := tail.1
      have high := tail.2
      rw [firstState, if_neg (by omega), if_pos (by omega)]
    rwa [first_row, refused] at step
  · exact absurd accepted (not_accepts_refused _)
  · have holds := rows r inTable
    have within : ∀ r ∈ table, 0x80 ≤ r.low ∧ r.high ≤ 0xC0 := by decide
    obtain ⟨byte', rest, same, low, high, -⟩ := (accepts_row holds).mp accepted
    cases same
    have bounds := within r inTable
    exact iff_of_false holds.1 (not_not_intro ⟨by omega, by omega⟩)

/-- A prefix of valid text is valid exactly if the next byte does not continue a
character. -/
theorem valid_prefix_iff {front back : Bytes} (text : isValidUtf8 (front ++ back) = true) :
    isValidUtf8 front = true ↔ ∀ byte, back.head? = some byte → ¬IsTail byte := by
  cases back with
  | nil => simpa using text
  | cons byte back =>
    have accepted : Accepts (front.foldl utf8Decode 0) (byte :: back) := by
      simpa [isValidUtf8, Accepts, utf8Accept] using text
    have member : front.foldl utf8Decode 0 ∈ states := decode_all_states front (by decide)
    simpa [isValidUtf8, utf8Accept] using between_iff member accepted

/-- The first two bytes of a sequence of three: what they encode fits into no shorter
one and is no surrogate. -/
structure Lead3 (a b : UInt8) : Prop where
  first : 0xE0 ≤ a.toNat ∧ a.toNat < 0xF0
  second : IsTail b
  long : a.toNat = 0xE0 → 0xA0 ≤ b.toNat
  scalar : a.toNat = 0xED → b.toNat < 0xA0

/-- The first two bytes of a sequence of four: what they encode fits into no shorter
one and lies in the planes there are. -/
structure Lead4 (a b : UInt8) : Prop where
  first : 0xF0 ≤ a.toNat ∧ a.toNat < 0xF5
  second : IsTail b
  long : a.toNat = 0xF0 → 0x90 ≤ b.toNat
  scalar : a.toNat = 0xF4 → b.toNat < 0x90

private theorem accepts_first (a : UInt8) :
    Accepts 0 (a :: data) ↔ Accepts (firstState a.toNat) data := by
  rw [← first_row]
  rfl

private theorem accepts_tail1 :
    Accepts 24 data ↔ ∃ byte rest, data = byte :: rest ∧ IsTail byte ∧ Accepts 0 rest := by
  have row : Accepts 24 data ↔ _ := accepts_row (rows tail1 (by simp [table]))
  rw [row]
  simp only [tail1, IsTail, and_assoc]

private theorem accepts_tail2 :
    Accepts 36 data ↔ ∃ b c rest, data = b :: c :: rest ∧ IsTail b ∧ IsTail c ∧ Accepts 0 rest := by
  have row : Accepts 36 data ↔ _ := accepts_row (rows tail2 (by simp [table]))
  rw [row]
  constructor
  · rintro ⟨b, later, rfl, low, high, accepted⟩
    obtain ⟨c, rest, rfl, tail, done⟩ := accepts_tail1.mp accepted
    exact ⟨b, c, rest, rfl, ⟨low, high⟩, tail, done⟩
  · rintro ⟨b, c, rest, rfl, ⟨low, high⟩, tail, done⟩
    exact ⟨b, c :: rest, rfl, low, high, accepts_tail1.mpr ⟨c, rest, rfl, tail, done⟩⟩

private theorem accepts_three {a : UInt8} (first : 0xE0 ≤ a.toNat ∧ a.toNat < 0xF0) :
    Accepts 0 (a :: data) ↔ ∃ b c rest, data = b :: c :: rest ∧ Lead3 a b ∧
      IsTail c ∧ Accepts 0 rest := by
  -- one row for each of the three ranges of the second byte
  have ranged : ∀ r : Row, r.Holds → firstState a.toNat = r.state → r.next = 24 →
      (∀ b : UInt8, r.low ≤ b.toNat ∧ b.toNat < r.high ↔ Lead3 a b) →
      (Accepts 0 (a :: data) ↔ ∃ b c rest, data = b :: c :: rest ∧ Lead3 a b ∧
        IsTail c ∧ Accepts 0 rest) := by
    intro r holds start next range
    rw [accepts_first, start, accepts_row holds, next]
    constructor
    · rintro ⟨b, later, rfl, low, high, accepted⟩
      obtain ⟨c, rest, rfl, tail, done⟩ := accepts_tail1.mp accepted
      exact ⟨b, c, rest, rfl, (range b).mp ⟨low, high⟩, tail, done⟩
    · rintro ⟨b, c, rest, rfl, lead, tail, done⟩
      obtain ⟨low, high⟩ := (range b).mpr lead
      exact ⟨b, c :: rest, rfl, low, high, accepts_tail1.mpr ⟨c, rest, rfl, tail, done⟩⟩
  by_cases e0 : a.toNat = 0xE0
  · refine ranged afterE0 (rows afterE0 (by simp [table])) (by simp [firstState, e0]) rfl fun b => ?_
    refine ⟨fun range => ⟨first, ⟨?_, range.2⟩, fun _ => range.1, fun ed => by omega⟩, fun lead =>
      ⟨lead.long e0, lead.second.2⟩⟩
    exact Nat.le_trans (by decide) range.1
  · by_cases ed : a.toNat = 0xED
    · refine ranged afterED (rows afterED (by simp [table])) (by simp [firstState, ed]) rfl fun b => ?_
      refine ⟨fun range => ⟨first, ⟨range.1, ?_⟩, fun same => by omega, fun _ => range.2⟩,
        fun lead => ⟨lead.second.1, lead.scalar ed⟩⟩
      exact Nat.lt_trans range.2 (by decide)
    · have start : firstState a.toNat = tail2.state := by
        rw [firstState, if_neg (by omega), if_neg (by omega), if_neg (by omega), if_neg e0,
          if_neg ed, if_pos first.2]
      refine ranged tail2 (rows tail2 (by simp [table])) start rfl fun b => ?_
      exact ⟨fun range => ⟨first, range, fun same => absurd same e0, fun same => absurd same ed⟩,
        fun lead => lead.second⟩

private theorem accepts_four {a : UInt8} (first : 0xF0 ≤ a.toNat ∧ a.toNat < 0xF5) :
    Accepts 0 (a :: data) ↔ ∃ b c d rest, data = b :: c :: d :: rest ∧ Lead4 a b ∧ IsTail c ∧
      IsTail d ∧ Accepts 0 rest := by
  have ranged : ∀ r : Row, r.Holds → firstState a.toNat = r.state → r.next = 36 →
      (∀ b : UInt8, r.low ≤ b.toNat ∧ b.toNat < r.high ↔ Lead4 a b) →
      (Accepts 0 (a :: data) ↔ ∃ b c d rest, data = b :: c :: d :: rest ∧ Lead4 a b ∧ IsTail c ∧
        IsTail d ∧ Accepts 0 rest) := by
    intro r holds start next range
    rw [accepts_first, start, accepts_row holds, next]
    constructor
    · rintro ⟨b, later, rfl, low, high, accepted⟩
      obtain ⟨c, d, rest, rfl, tail, tail', done⟩ := accepts_tail2.mp accepted
      exact ⟨b, c, d, rest, rfl, (range b).mp ⟨low, high⟩, tail, tail', done⟩
    · rintro ⟨b, c, d, rest, rfl, lead, tail, tail', done⟩
      obtain ⟨low, high⟩ := (range b).mpr lead
      exact ⟨b, c :: d :: rest, rfl, low, high, accepts_tail2.mpr ⟨c, d, rest, rfl, tail, tail', done⟩⟩
  by_cases f0 : a.toNat = 0xF0
  · refine ranged afterF0 (rows afterF0 (by simp [table])) (by simp [firstState, f0]) rfl fun b => ?_
    refine ⟨fun range => ⟨first, ⟨?_, range.2⟩, fun _ => range.1, fun same => by omega⟩, fun lead =>
      ⟨lead.long f0, lead.second.2⟩⟩
    exact Nat.le_trans (by decide) range.1
  · by_cases f4 : a.toNat = 0xF4
    · refine ranged afterF4 (rows afterF4 (by simp [table])) (by simp [firstState, f4]) rfl fun b => ?_
      refine ⟨fun range => ⟨first, ⟨range.1, ?_⟩, fun same => by omega, fun _ => range.2⟩,
        fun lead => ⟨lead.second.1, lead.scalar f4⟩⟩
      exact Nat.lt_trans range.2 (by decide)
    · have start : firstState a.toNat = tail3.state := by
        rw [firstState, if_neg (by omega), if_neg (by omega), if_neg (by omega),
          if_neg (by omega), if_neg (by omega), if_neg (by omega), if_neg f0, if_pos (by omega)]
      refine ranged tail3 (rows tail3 (by simp [table])) start rfl fun b => ?_
      exact ⟨fun range => ⟨first, range, fun same => absurd same f0, fun same => absurd same f4⟩,
        fun lead => lead.second⟩

end Rows

section Characters

private theorem byte_eq (byte : UInt8) {n : Nat} (same : n = byte.toNat) : UInt8.ofNat n = byte := by
  rw [same, UInt8.ofNat_toNat]

/-- The scalar value of a number that is one. -/
private theorem exists_char {n : Nat} (valid : n.isValidChar) : ∃ c : Char, c.val.toNat = n :=
  ⟨Char.ofNatAux n valid, rfl⟩

private theorem encode_one {c : Char} {a : UInt8} (small : a.toNat < 0x80)
    (value : c.val.toNat = a.toNat) :
    String.utf8EncodeChar c = [a] := by
  have short : a.toNat ≤ 0x7f := by omega
  simp [String.utf8EncodeChar, value, short]

private theorem encode_two {c : Char} {a b : UInt8}
    (first : 0xC2 ≤ a.toNat ∧ a.toNat < 0xE0) (second : IsTail b)
    (value : c.val.toNat = (a.toNat - 0xC0) * 64 + (b.toNat - 0x80)) :
    String.utf8EncodeChar c = [a, b] := by
  obtain ⟨low, high⟩ := second
  have long : ¬c.val.toNat ≤ 0x7f := by omega
  have short : c.val.toNat ≤ 0x7ff := by omega
  simp only [String.utf8EncodeChar, long, short, ↓reduceIte]
  rw [byte_eq a (by omega), byte_eq b (by omega)]

private theorem encode_three {c : Char} {a b d : UInt8} (lead : Lead3 a b) (tail : IsTail d)
    (value : c.val.toNat = (a.toNat - 0xE0) * 4096 + (b.toNat - 0x80) * 64 + (d.toNat - 0x80)) :
    String.utf8EncodeChar c = [a, b, d] := by
  obtain ⟨⟨first, last⟩, ⟨low, high⟩, above, -⟩ := lead
  obtain ⟨low', high'⟩ := tail
  have least : 0x800 ≤ c.val.toNat := by
    by_cases e0 : a.toNat = 0xE0
    · have := above e0
      omega
    · omega
  have long : ¬c.val.toNat ≤ 0x7f := by omega
  have longer : ¬c.val.toNat ≤ 0x7ff := by omega
  have short : c.val.toNat ≤ 0xffff := by omega
  simp only [String.utf8EncodeChar, long, longer, short, ↓reduceIte]
  rw [byte_eq a (by omega), byte_eq b (by omega), byte_eq d (by omega)]

private theorem encode_four {c : Char} {a b d e : UInt8} (lead : Lead4 a b)
    (tail : IsTail d) (tail' : IsTail e)
    (value : c.val.toNat = (a.toNat - 0xF0) * 262144 + (b.toNat - 0x80) * 4096 + (d.toNat - 0x80) *
      64 + (e.toNat - 0x80)) :
    String.utf8EncodeChar c = [a, b, d, e] := by
  obtain ⟨⟨first, last⟩, ⟨low, high⟩, above, -⟩ := lead
  obtain ⟨low', high'⟩ := tail
  obtain ⟨low'', high''⟩ := tail'
  have least : 0x10000 ≤ c.val.toNat := by
    by_cases f0 : a.toNat = 0xF0
    · have := above f0
      omega
    · omega
  have long : ¬c.val.toNat ≤ 0x7f := by omega
  have longer : ¬c.val.toNat ≤ 0x7ff := by omega
  have longest : ¬c.val.toNat ≤ 0xffff := by omega
  simp only [String.utf8EncodeChar, long, longer, longest, ↓reduceIte]
  rw [byte_eq a (by omega), byte_eq b (by omega), byte_eq d (by omega),
    byte_eq e (by omega)]

/-- What is accepted starts with a character, and what is behind it is accepted. -/
private theorem first_char {a : UInt8} (accepted : Accepts 0 (a :: data)) :
    ∃ c rest, a :: data = String.utf8EncodeChar c ++ rest ∧ Accepts 0 rest := by
  by_cases one : a.toNat < 0x80
  · obtain ⟨c, value⟩ := exists_char (n := a.toNat) (.inl (by omega))
    rw [accepts_first, firstState, if_pos one] at accepted
    exact ⟨c, data, by rw [encode_one one value]; rfl, accepted⟩
  by_cases refused : a.toNat < 0xC2
  · rw [accepts_first, firstState, if_neg one, if_pos refused] at accepted
    exact absurd accepted (not_accepts_refused data)
  by_cases two : a.toNat < 0xE0
  · rw [accepts_first, firstState, if_neg one, if_neg refused, if_pos two] at accepted
    obtain ⟨b, rest, rfl, tail, done⟩ := accepts_tail1.mp accepted
    have ⟨low, high⟩ := tail
    obtain ⟨c, value⟩ := exists_char (n := (a.toNat - 0xC0) * 64 + (b.toNat - 0x80)) (.inl (by omega))
    exact ⟨c, rest, by rw [encode_two ⟨by omega, two⟩ tail value]; rfl, done⟩
  by_cases three : a.toNat < 0xF0
  · obtain ⟨b, d, rest, rfl, lead, tail, done⟩ := (accepts_three ⟨by omega, three⟩).mp accepted
    obtain ⟨low, high⟩ := lead.second
    have ⟨low', high'⟩ := tail
    have scalar := lead.scalar
    obtain ⟨c, value⟩ := exists_char (n := (a.toNat - 0xE0) * 4096 + (b.toNat - 0x80) *
        64 + (d.toNat - 0x80)) (by
      unfold Nat.isValidChar
      omega)
    exact ⟨c, rest, by rw [encode_three lead tail value]; rfl, done⟩
  by_cases four : a.toNat < 0xF5
  · obtain ⟨b, d, e, rest, rfl, lead, tail, tail', done⟩ := (accepts_four ⟨by omega, four⟩).mp accepted
    obtain ⟨low, high⟩ := lead.second
    have ⟨low', high'⟩ := tail
    have ⟨low'', high''⟩ := tail'
    have long := lead.long
    have scalar := lead.scalar
    obtain ⟨c, value⟩ := exists_char
      (n := (a.toNat - 0xF0) * 262144 + (b.toNat - 0x80) * 4096 + (d.toNat - 0x80) *
        64 + (e.toNat - 0x80)) (by
        unfold Nat.isValidChar
        omega)
    exact ⟨c, rest, by rw [encode_four lead tail tail' value]; rfl, done⟩
  · have refused : firstState a.toNat = 12 := by
      rw [firstState, if_neg one, if_neg refused, if_neg two, if_neg (by omega), if_neg (by omega),
        if_neg three, if_neg (by omega), if_neg (by omega), if_neg (by omega)]
    rw [accepts_first, refused] at accepted
    exact absurd accepted (not_accepts_refused data)

private theorem toNat_small {n : Nat} (small : n < 256) : (UInt8.ofNat n).toNat = n := by
  rw [UInt8.toNat_ofNat']
  exact Nat.mod_eq_of_lt small

/-- A character in front is accepted. -/
private theorem accepts_char (c : Char) (accepted : Accepts 0 data) :
    Accepts 0 (String.utf8EncodeChar c ++ data) := by
  have valid : c.val.toNat < 0xd800 ∨ 0xdfff < c.val.toNat ∧ c.val.toNat < 0x110000 := c.valid
  by_cases one : c.val.toNat ≤ 0x7f
  · simp only [String.utf8EncodeChar, one, ↓reduceIte, List.singleton_append]
    rw [accepts_first, toNat_small (by omega), firstState, if_pos (by omega)]
    exact accepted
  by_cases two : c.val.toNat ≤ 0x7ff
  · simp only [String.utf8EncodeChar, one, two, ↓reduceIte, List.cons_append, List.nil_append]
    rw [accepts_first, toNat_small (by omega), firstState, if_neg (by omega),
      if_neg (by omega), if_pos (by omega)]
    refine accepts_tail1.mpr ⟨_, data, rfl, ?_, accepted⟩
    rw [IsTail, toNat_small (by omega)]
    omega
  by_cases three : c.val.toNat ≤ 0xffff
  · simp only [String.utf8EncodeChar, one, two, three, ↓reduceIte, List.cons_append, List.nil_append]
    have first : (UInt8.ofNat (c.val.toNat / 4096 % 0x10 + 0xe0)).toNat = c.val.toNat / 4096 %
      0x10 + 0xe0 := toNat_small (by omega)
    have second : (UInt8.ofNat (c.val.toNat / 64 % 0x40 + 0x80)).toNat = c.val.toNat / 64 % 0x40 +
      0x80 := toNat_small (by omega)
    have third : (UInt8.ofNat (c.val.toNat % 0x40 + 0x80)).toNat = c.val.toNat % 0x40 + 0x80 :=
      toNat_small (by omega)
    refine (accepts_three (by rw [first]; omega)).mpr ⟨_, _, data, rfl, ⟨?_, ?_, ?_, ?_⟩, ?_, accepted⟩
    · rw [first]
      omega
    · rw [IsTail, second]
      omega
    · rw [first, second]
      omega
    · rw [first, second]
      omega
    · rw [IsTail, third]
      omega
  · simp only [String.utf8EncodeChar, one, two, three, ↓reduceIte, List.cons_append, List.nil_append]
    have first : (UInt8.ofNat (c.val.toNat / 262144 % 0x08 + 0xf0)).toNat = c.val.toNat / 262144 %
      0x08 + 0xf0 := toNat_small (by omega)
    have second : (UInt8.ofNat (c.val.toNat / 4096 % 0x40 + 0x80)).toNat = c.val.toNat / 4096 %
      0x40 + 0x80 := toNat_small (by omega)
    have third : (UInt8.ofNat (c.val.toNat / 64 % 0x40 + 0x80)).toNat = c.val.toNat / 64 % 0x40 +
      0x80 := toNat_small (by omega)
    have fourth : (UInt8.ofNat (c.val.toNat % 0x40 + 0x80)).toNat = c.val.toNat % 0x40 + 0x80 :=
      toNat_small (by omega)
    refine (accepts_four (by rw [first]; omega)).mpr ⟨_, _, _, data, rfl,
      ⟨?_, ?_, ?_, ?_⟩, ?_, ?_, accepted⟩
    · rw [first]
      omega
    · rw [IsTail, second]
      omega
    · rw [first, second]
      omega
    · rw [first, second]
      omega
    · rw [IsTail, third]
      omega
    · rw [IsTail, fourth]
      omega

/-- The bytes of a text. -/
def encode (text : List Char) : Bytes := text.flatMap String.utf8EncodeChar

theorem accepts_iff (data : Bytes) : Accepts 0 data ↔ ∃ text, data = encode text := by
  constructor
  · -- each character leaves a shorter rest
    induction length : data.length using Nat.strongRecOn generalizing data with
    | ind n ih =>
      intro accepted
      cases data with
      | nil => exact ⟨[], rfl⟩
      | cons a data =>
        obtain ⟨c, rest, split, done⟩ := first_char accepted
        have shorter : rest.length < n := by
          have lengths := congrArg List.length split
          have some_ := List.length_pos_iff.mpr (String.utf8EncodeChar_ne_nil (c := c))
          rw [List.length_append] at lengths
          omega
        obtain ⟨text, rfl⟩ := ih rest.length shorter rest rfl done
        exact ⟨c :: text, split⟩
  · rintro ⟨text, rfl⟩
    induction text with
    | nil => rfl
    | cons c text ih => exact accepts_char c ih

/-- Exactly the encodings of texts are accepted. -/
theorem utf8_accepted_iff (data : Bytes) :
    isValidUtf8 data = true ↔ ∃ text : List Char, data = encode text := by
  rw [← accepts_iff, isValidUtf8, beq_iff_eq]
  rfl

end Characters
end Crablib.Utf8Proofs
