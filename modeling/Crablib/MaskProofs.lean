import Crablib.FrameProofs
import Crablib.Http.MaskData

/-! Masking in memory, wherever the data starts and whichever byte order words have:
the three loops together mask every byte with its own byte of the key and touch no
other one. A parser that is fed a masked payload therefore has the payload. -/
namespace Crablib.MaskProofs
open Http Memory FrameProofs

section Loops

/-- The loop over single bytes does in memory what it does to a list. -/
theorem maskBytesAt_eq (mask : UInt32) (mem : Cells) (data count : Nat) :
    maskBytesAt mask mem data count =
      (writeBytes mem data (maskLoop mask (readBytes mem data count)).1,
        (maskLoop mask (readBytes mem data count)).2) := by
  induction count generalizing mask mem data with
  | zero => simp [maskBytesAt, readBytes, maskLoop]
  | succ count ih =>
    have behind := readBytes_behind mem data [mem data ^^^ (rol mask 8).toUInt8] _ (Nat.le_refl _) count
    have split := writeBytes_append mem data [mem data ^^^ (rol mask 8).toUInt8]
      (maskLoop (rol mask 8) (readBytes mem (data + 1) count)).1
    rw [List.length_singleton] at behind split
    simp only [maskBytesAt, readBytes, maskLoop, ih, behind]
    rw [← split]
    rfl

private theorem maskLoop_length (mask : UInt32) (data : Bytes) :
    (maskLoop mask data).1.length = data.length := by
  induction data generalizing mask with
  | nil => rfl
  | cons c data ih => simp [maskLoop, ih]

/-- A word of the mask is the four bytes of the mask twice. -/
private theorem mask64_eq (order : ByteOrder) (bytes : List UInt8) (four : bytes.length = 4) :
    order.value bytes <<< 32 ||| order.value bytes = order.value (bytes ++ bytes) := by
  have small := value_lt order bytes
  rw [four] at small
  rw [value_twice, four, ← Nat.shiftLeft_add_eq_or_of_lt small, Nat.shiftLeft_eq,
    show 2 ^ 32 = 256 ^ 4 from rfl]

/-- The four bytes of a mask, as the source takes them. -/
def maskBytes (mask : UInt32) : List UInt8 :=
  [(mask >>> 24).toUInt8, (mask >>> 16).toUInt8, (mask >>> 8).toUInt8, mask.toUInt8]

/-- The loop over words does in memory what it does to a list, in either byte order. -/
theorem maskWordsAt_eq (order : ByteOrder) (mask : UInt32) (mem : Cells) (data size : Nat) :
    ∃ words rest, maskWords mask (readBytes mem data size) = (words, rest) ∧
      rest = readBytes mem (data + words.length) (size - words.length) ∧ words.length ≤ size ∧
      maskWordsAt order (order.value (maskBytes mask ++ maskBytes mask)) mem data size =
        (writeBytes mem data words, data + words.length, size - words.length) := by
  fun_induction maskWordsAt order (order.value (maskBytes mask ++ maskBytes mask)) mem data size with
  | case1 mem data size ih =>
    obtain ⟨words, rest, masked, rest_, fits, stored⟩ := ih
    have word := store_xor order mem data (maskBytes mask ++ maskBytes mask)
    have eight : (maskBytes mask ++ maskBytes mask).length = 8 := rfl
    rw [eight] at word
    rw [word] at masked rest_ stored
    have length :
        (List.zipWith (· ^^^ ·) (readBytes mem data 8) (maskBytes mask ++ maskBytes mask)).length =
        8 := by
      simp [eight]
    have behind :
        data + (List.zipWith (· ^^^ ·) (readBytes mem data 8)
        (maskBytes mask ++ maskBytes mask)).length = data + 8 := by
      rw [length]
    rw [readBytes_behind mem data _ _ (Nat.le_of_eq behind)] at masked
    rw [readBytes_behind mem data _ _ (by omega)] at rest_
    simp only [Nat.succ_eq_add_one, Nat.add_assoc, Nat.reduceAdd]
    refine ⟨List.zipWith (· ^^^ ·) (readBytes mem data 8) (maskBytes mask ++ maskBytes mask) ++
      words, rest, ?_, ?_, ?_, ?_⟩
    · rw [Nat.add_comm size 8, readBytes_add]
      simp only [readBytes, List.cons_append, List.nil_append, maskWords, masked]
      rfl
    · rw [rest_, List.length_append, length, Nat.add_assoc data 8, Nat.add_comm 8, Nat.add_sub_add_right]
    · rw [List.length_append, length]
      omega
    · rw [word, stored, writeBytes_append, behind, List.length_append, length,
        Nat.add_assoc data 8, Nat.add_comm 8, Nat.add_sub_add_right]
  | case2 mem data size short =>
    refine ⟨[], readBytes mem data size, ?_, by simp, Nat.zero_le _, by simp⟩
    have length := readBytes_length mem data size
    unfold maskWords
    split
    · rename_i same
      rw [same] at length
      simp only [List.length_cons] at length
      exact absurd length.symm (short _)
    · rfl

/-- The three loops do in memory what they do to a list. -/
theorem maskDataMemory_eq (order : ByteOrder) (mem : Cells) (shift data size : Nat) (key : UInt32) :
    maskDataMemory order mem shift data size key =
      writeBytes mem data (maskData shift (readBytes mem data size) key) := by
  rw [← maskDataAt_eq ((8 - data % 8) % 8)]
  unfold maskDataMemory align maskDataAt
  rw [readBytes_length]
  by_cases fits : (8 - data % 8) % 8 + 8 ≤ size
  · simp only [fits, ↓reduceIte, Nat.add_sub_cancel_left, maskBytesAt_eq]
    generalize (8 - data % 8) % 8 = gap at fits
    have halves :
        readBytes mem data size = readBytes mem data gap ++ readBytes mem (data + gap) (size - gap) := by
      rw [← readBytes_add, Nat.add_sub_cancel' (by omega)]
    have front : (readBytes mem data size).take gap = readBytes mem data gap := by
      rw [halves, List.take_append_of_le_length (by simp), List.take_of_length_le (by simp)]
    have back : (readBytes mem data size).drop gap = readBytes mem (data + gap) (size - gap) := by
      rw [halves, List.drop_append_of_le_length (by simp),
        List.drop_of_length_le (by simp), List.nil_append]
    rw [front, back]
    have length := maskLoop_length (rol key (8 * shift)) (readBytes mem data gap)
    rw [readBytes_length] at length
    generalize maskLoop (rol key (8 * shift)) (readBytes mem data gap) = first at length
    obtain ⟨words, rest, masked, rest_, within, stored⟩ :=
      maskWordsAt_eq order first.2 (writeBytes mem data first.1) (data + gap) (size - gap)
    have beyond := readBytes_behind mem data first.1 (data + gap) (by omega) (size - gap)
    have again := readBytes_behind mem data first.1 (data + gap + words.length) (by omega)
      (size - gap - words.length)
    have here : data + (first.1 ++ words).length = data + gap + words.length := by
      rw [List.length_append, length, Nat.add_assoc]
    have joined : writeBytes (writeBytes mem data first.1) (data + gap) words =
        writeBytes mem data (first.1 ++ words) := by
      rw [writeBytes_append, length]
    have last := readBytes_behind mem data (first.1 ++ words) _ (Nat.le_of_eq here)
      (size - gap - words.length)
    rw [beyond] at masked
    rw [again] at rest_
    have native :
        order.value [(first.2 >>> 24).toUInt8, (first.2 >>> 16).toUInt8, (first.2 >>> 8).toUInt8,
        first.2.toUInt8] <<< 32 |||
        order.value [(first.2 >>> 24).toUInt8, (first.2 >>> 16).toUInt8,
          (first.2 >>> 8).toUInt8, first.2.toUInt8] =
          order.value (maskBytes first.2 ++ maskBytes first.2) := mask64_eq order (maskBytes first.2) rfl
    rw [native, stored, masked]
    simp only [joined]
    rw [last, ← rest_, writeBytes_append mem data (first.1 ++ words), here]
  · simp only [fits, ↓reduceIte, maskBytesAt_eq]

/-- Every byte of the data is masked with its byte of the key, no other one is touched. -/
theorem maskDataMemory_byte (order : ByteOrder) (mem : Cells) (shift data size : Nat)
    (key : UInt32) (i : Nat) :
    maskDataMemory order mem shift data size key i =
      if data ≤ i ∧ i < data + size then mem i ^^^ keyByte key (shift + (i - data)) else mem i := by
  rw [maskDataMemory_eq, writeBytes, maskData_length, readBytes_length]
  split
  · rename_i within
    have inside : i - data < size := by omega
    have old := readBytes_getD mem data inside
    rw [Nat.add_sub_cancel' within.1] at old
    simp only [List.getD_eq_getElem?_getD, readBytes_length, inside, List.getElem?_eq_getElem,
      Option.getD_some] at old
    simp only [maskData, List.getD_eq_getElem?_getD, List.length_mapIdx, readBytes_length, inside,
      List.getElem?_eq_getElem, List.getElem_mapIdx, Option.getD_some, old, keyByte]
  · rfl

/-- Masking a block is masking its two parts, the second one from where the first one ends. -/
theorem maskDataMemory_split (order : ByteOrder) (mem : Cells)
    (shift data first second : Nat) (key : UInt32) :
    maskDataMemory order mem shift data (first + second) key =
      maskDataMemory order (maskDataMemory order mem shift data first key) (shift + first)
        (data + first) second key := by
  funext i
  simp only [maskDataMemory_byte]
  by_cases front : data ≤ i ∧ i < data + first
  · have whole : data ≤ i ∧ i < data + (first + second) := by omega
    have behind : ¬(data + first ≤ i ∧ i < data + first + second) := by omega
    rw [if_pos whole, if_neg behind, if_pos front]
  · by_cases back : data + first ≤ i ∧ i < data + first + second
    · have whole : data ≤ i ∧ i < data + (first + second) := by omega
      have place : shift + first + (i - (data + first)) = shift + (i - data) := by omega
      rw [if_pos whole, if_pos back, if_neg front, place]
    · have outside : ¬(data ≤ i ∧ i < data + (first + second)) := by omega
      rw [if_neg outside, if_neg back, if_neg front]

end Loops

section Bodies
open WebMessageBodyParser

/-- Wherever the string of the body lies, the parser takes the same bytes in. -/
theorem consumeMemory_eq (order : ByteOrder) (mem : Cells) (place : Nat)
    (p : WebMessageBodyParser) (bytes : Bytes) :
    p.consumeMemory order mem place bytes = p.consume bytes := by
  unfold consumeMemory consume
  split
  · simp only [maskDataMemory_eq]
    have length :
        (bytes.take (min bytes.length p.remainingBytes)).length = min bytes.length p.remainingBytes := by
      rw [List.length_take]
      omega
    generalize bytes.take (min bytes.length p.remainingBytes) = block at length
    have length_ := maskData_length p.maskingShift block p.maskingKey
    rw [← length, List.length_append, Nat.add_sub_cancel]
    have stored :
        readBytes (writeBytes mem place (p.body ++ block)) (place + p.body.length) block.length =
        block := by
      rw [writeBytes_append, readBytes_writeBytes]
    have replaced : writeBytes (writeBytes mem place (p.body ++ block)) (place + p.body.length)
        (maskData p.maskingShift block p.maskingKey) =
          writeBytes mem place (p.body ++ maskData p.maskingShift block p.maskingKey) := by
      rw [writeBytes_append, writeBytes_writeBytes _ _ _ _ length_, writeBytes_append]
    have whole := readBytes_writeBytes mem place (p.body ++ maskData p.maskingShift block p.maskingKey)
    rw [List.length_append, length_] at whole
    rw [stored, replaced, whole]
    split <;> rfl
  · rfl

/-- Successive calls, with the bytes that none of them took. -/
def feed (p : WebMessageBodyParser) : List Bytes → Except Error (WebMessageBodyParser × Bytes)
  | [] => .ok (p, [])
  | segment :: segments => do
    let (q, rest) ← p.parse segment
    let (r, rest') ← feed q segments
    return (r, rest ++ rest')

/-- However the bytes are cut, the parser unmasks what is left of the body and
leaves what follows. -/
theorem feed_masked (key : Option UInt32) (done rest behind : Bytes) (segments : List Bytes)
    (fed : segments.flatten = masked key done.length rest ++ behind) :
    feed (bodyAt key done rest) segments = .ok (bodyAt key (done ++ rest) [], behind) := by
  induction segments generalizing done rest behind with
  | nil =>
    obtain ⟨none, rfl⟩ := List.append_eq_nil_iff.mp fed.symm
    have empty : rest = [] := by
      rw [← List.length_eq_zero_iff, ← masked_length key done.length rest, none, List.length_nil]
    simp [feed, empty]
  | cons segment segments ih =>
    rw [List.flatten_cons] at fed
    rcases List.append_eq_append_iff.mp fed with ⟨a, within, later⟩ | ⟨c, beyond, extra⟩
    · have fits : segment.length ≤ rest.length := by
        have length := congrArg List.length within
        rw [masked_length, List.length_append] at length
        omega
      have parts := masked_append key done.length (rest.take segment.length) (rest.drop segment.length)
      rw [List.take_append_drop, within] at parts
      obtain ⟨first, second⟩ := List.append_inj parts (by simp [fits])
      have read := parse_block key done (rest.take segment.length)
        (rest.drop segment.length) [] (.inr rfl)
      rw [List.take_append_drop, List.append_nil, ← first] at read
      have next := ih (done ++ rest.take segment.length) (rest.drop segment.length) behind
        (by rw [later, second, List.length_append])
      rw [List.append_assoc, List.take_append_drop] at next
      rw [feed, read]
      simp only [bind, Except.bind, next]
      rfl
    · have read := parse_block key done rest [] c (.inl rfl)
      rw [List.append_nil, ← beyond] at read
      have next := ih (done ++ rest) [] segments.flatten (by simp [masked])
      rw [List.append_nil] at next
      rw [feed, read]
      simp only [bind, Except.bind, next, extra]
      rfl

end Bodies

/-- `mask_data` masks each byte with its byte of the key at any address and in either
byte order, in one piece or in two, and the body parser undoes it however the bytes
are cut. -/
theorem fast_mask (order : ByteOrder) (key : UInt32) :
    (∀ mem shift data size i, maskDataMemory order mem shift data size key i =
      if data ≤ i ∧ i < data + size then mem i ^^^ keyByte key (shift + (i - data)) else mem i) ∧
    (∀ mem shift data first second, maskDataMemory order mem shift data (first + second) key =
      maskDataMemory order (maskDataMemory order mem shift data first key) (shift + first)
        (data + first) second key) ∧
    (∀ mem place (p : WebMessageBodyParser) bytes,
      p.consumeMemory order mem place bytes = p.consume bytes) ∧
    (∀ payload behind segments, segments.flatten = maskData 0 payload key ++ behind →
      ∃ p, feed (.make payload.length (some key)) segments = .ok (p, behind) ∧ p.isGood = true ∧
        p.body = payload) := by
  refine ⟨?_, ?_, ?_, ?_⟩
  · intro mem shift data size i
    exact maskDataMemory_byte order mem shift data size key i
  · intro mem shift data first second
    exact maskDataMemory_split order mem shift data first second key
  · intro mem place p bytes
    exact consumeMemory_eq order mem place p bytes
  · intro payload behind segments fed
    have read := feed_masked (some key) [] payload behind segments fed
    rw [← make_eq] at read
    exact ⟨_, read, rfl, rfl⟩

/-- A payload of five bytes, masked and cut in two, with a byte behind it. -/
theorem fast_mask_cut :
    ∃ p, feed (.make 5 (some 0x01020304)) [[105, 103, 111], [104, 110, 7]] = .ok (p, [7]) ∧
    p.isGood = true ∧ p.body = str "hello" :=
  (fast_mask .little 0x01020304).2.2.2 (str "hello") [7] [[105, 103, 111], [104, 110, 7]] (by decide)

end Crablib.MaskProofs
