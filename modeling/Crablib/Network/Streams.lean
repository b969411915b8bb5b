import Crablib.Bytes

/-! Streams of `streams.hpp`: the circular `Buffer`, the `StringStream` and the
finite streams that are drained into a sink.
A stream of the source is an object behind a virtual call; here it is a state
together with its `read_some` or `write_some`, bundled with the promise every
implementation makes about the count it returns. -/
namespace Crablib

/-- `IStream`: `read_some` never returns more than was asked for. -/
structure IStream (σ : Type) where
  readSome : σ → Nat → Bytes × σ
  bounded : ∀ s count, (readSome s count).1.length ≤ count

/-- `OStream`: `write_some` never accepts more than it was given. -/
structure OStream (σ : Type) where
  writeSome : σ → Bytes → Nat × σ
  bounded : ∀ s val, (writeSome s val).1 ≤ val.length

/-- Classic circular buffer. `read_pos` stays below the capacity, `write_pos`
runs up to a whole capacity ahead of it. -/
structure Buffer where
  impl : Nat → UInt8
  capacity : Nat
  readPos : Nat
  writePos : Nat
  ordered : readPos ≤ writePos
  bounded : writePos ≤ readPos + capacity
  inside : readPos < capacity ∨ readPos = 0 ∧ writePos = 0

namespace Buffer

def make (si : Nat) : Buffer :=
  ⟨fun _ => 0, si, 0, 0, Nat.le_refl 0, Nat.zero_le _, .inr ⟨rfl, rfl⟩⟩

def size (b : Buffer) : Nat := b.writePos - b.readPos

def empty (b : Buffer) : Bool := b.size == 0

def clear (b : Buffer) : Buffer :=
  { b with
    readPos := 0
    writePos := 0
    ordered := Nat.le_refl 0
    bounded := Nat.zero_le _
    inside := .inr ⟨rfl, rfl⟩ }

/-- `clear(new_size)`: `resize` keeps the front of the storage and fills up with zeros. -/
def clearTo (b : Buffer) (newSize : Nat) : Buffer :=
  { b.clear with
    impl := fun i => if i < b.capacity then b.impl i else 0
    capacity := newSize
    bounded := Nat.zero_le _
    inside := .inr ⟨rfl, rfl⟩ }

def full (b : Buffer) : Bool := b.readPos + b.capacity == b.writePos

def readCount (b : Buffer) : Nat :=
  if b.writePos < b.capacity then b.writePos - b.readPos else b.capacity - b.readPos

def writeCount (b : Buffer) : Nat :=
  if b.writePos < b.capacity then b.capacity - b.writePos else b.readPos - (b.writePos - b.capacity)

def writePtr (b : Buffer) : Nat :=
  if b.writePos < b.capacity then b.writePos else b.writePos - b.capacity

/-- A circular buffer has at most two parts; the second one starts at the front
of the storage. -/
def readCount2 (b : Buffer) : Nat := if b.writePos < b.capacity then 0 else b.writePos - b.capacity

def writeCount2 (b : Buffer) : Nat := if b.writePos < b.capacity then b.readPos else 0

/-- The bytes from `read_ptr` on, `read_count` of them: the first of the two
parts a circular buffer has. -/
def readable (b : Buffer) : Bytes := (List.range b.readCount).map fun i => b.impl (b.readPos + i)

/-- What a reader that writes through `write_ptr` leaves there. -/
def store (b : Buffer) (val : Bytes) : Buffer :=
  { b with
    impl := fun i =>
      if b.writePtr ≤ i ∧ i < b.writePtr + val.length then val.getD (i - b.writePtr) 0 else b.impl i }

/-- What a caller leaves there that also goes on in the second part, at `write_ptr2`. -/
def storeBoth (b : Buffer) (val : Bytes) : Buffer :=
  { b.store (val.take b.writeCount) with
    impl := fun i =>
      if i < (val.drop b.writeCount).length then (val.drop b.writeCount).getD i 0
      else (b.store (val.take b.writeCount)).impl i }

theorem writeCount_bound (b : Buffer) : b.writePos + b.writeCount ≤ b.readPos + b.capacity := by
  have := b.ordered
  have := b.bounded
  unfold writeCount
  split <;> omega

theorem readCount_bound (b : Buffer) : b.readPos + b.readCount ≤ b.writePos := by
  have := b.ordered
  have := b.inside
  unfold readCount
  split <;> omega

/-- `did_write`; the invariant the source checks here is an argument. -/
def didWrite (b : Buffer) (count : Nat) (fits : b.writePos + count ≤ b.readPos + b.capacity) : Buffer :=
  { b with
    writePos := b.writePos + count
    ordered := Nat.le_trans b.ordered (Nat.le_add_right _ _)
    bounded := fits
    inside := by
      have := b.inside
      omega }

/-- `did_write_undo`; the invariant the source checks here is an argument. -/
def didWriteUndo (b : Buffer) (count : Nat) (written : b.readPos + count ≤ b.writePos) : Buffer :=
  { b with
    writePos := b.writePos - count
    ordered := by omega
    bounded := Nat.le_trans (Nat.sub_le _ _) b.bounded
    inside := by
      have := b.inside
      omega }

/-- How far both positions go back when a read reaches the end of the storage;
it could be a read from both parts. -/
def wrapped (b : Buffer) (count : Nat) : Nat :=
  if b.readPos + count ≥ b.capacity then b.capacity else 0

/-- `did_read`; the invariant the source checks here is an argument. -/
def didRead (b : Buffer) (count : Nat) (available : b.readPos + count ≤ b.writePos) : Buffer :=
  -- Increases chance of single-chunk reading
  if done : b.readPos + count - b.wrapped count = b.writePos - b.wrapped count then b.clear
  else
    { b with
      readPos := b.readPos + count - b.wrapped count
      writePos := b.writePos - b.wrapped count
      ordered := by omega
      bounded := by grind [wrapped, b.bounded]
      inside := by grind [wrapped, b.bounded, b.inside] }

def readSome (b : Buffer) (count : Nat) : Bytes × Buffer :=
  let rc := min count b.readCount
  (b.readable.take rc,
    b.didRead rc (Nat.le_trans (Nat.add_le_add_left (Nat.min_le_right _ _) _) b.readCount_bound))

def writeSome (b : Buffer) (val : Bytes) : Nat × Buffer :=
  let rc := min val.length b.writeCount
  (rc, (b.store (val.take rc)).didWrite rc
    (Nat.le_trans (Nat.add_le_add_left (Nat.min_le_right _ _) _) b.writeCount_bound))

/-- `peek`: the bytes it copies, unless it returns false. -/
def peek (b : Buffer) (count : Nat) : Option Bytes :=
  if b.size < count then none
  else if count ≤ b.readCount then some (b.readable.take count)
  else some (b.readable ++ (List.range (count - b.readCount)).map b.impl)

/-- The loop of `read_from`, which returns how many bytes were read. -/
def readLoop {σ : Type} (input : IStream σ) : Nat → Buffer → σ → Nat × Buffer × σ
  | 0, b, s => (0, b, s)
  | passes + 1, b, s =>
    if b.writeCount = 0 then (0, b, s)
    else
      let got := input.readSome s b.writeCount
      let filled := (b.store got.1).didWrite got.1.length
        (Nat.le_trans (Nat.add_le_add_left (input.bounded s b.writeCount) _) b.writeCount_bound)
      if got.1.length = 0 then (0, filled, got.2)
      else
        let more := readLoop input passes filled got.2
        (got.1.length + more.1, more.2)

/-- Every pass but the last one fills at least one byte, so the capacity
bounds their number. -/
def readFrom {σ : Type} (b : Buffer) (input : IStream σ) (s : σ) : Nat × Buffer × σ :=
  readLoop input (b.capacity + 1) b s

theorem used_available (b : Buffer) (rest : Bytes) :
    b.readPos + (b.readable.length - rest.length) ≤ b.writePos := by
  have length : b.readable.length = b.readCount := by simp [readable]
  have bound := b.readCount_bound
  omega

/-- `parse(Buffer &)` of every parser: it works on the first part and reports
what it used with `did_read`, unless it throws. -/
def parseWith {ε σ : Type} (parse : Bytes → Except ε (σ × Bytes)) (b : Buffer) : Except ε (σ × Buffer) :=
  match parse b.readable with
  | .error e => .error e
  | .ok (s, rest) => .ok (s, b.didRead (b.readable.length - rest.length) (b.used_available rest))

end Buffer

/-- A string that is written at its end and read from `read_pos` on. -/
structure StringStream where
  impl : Bytes := []
  readPos : Nat := 0
  inside : readPos ≤ impl.length := by exact Nat.zero_le _

namespace StringStream

def ofString (data : Bytes) : StringStream := { impl := data }

def size (s : StringStream) : Nat := s.impl.length - s.readPos

def empty (s : StringStream) : Bool := s.size == 0

/-- The bytes not read yet. -/
def unread (s : StringStream) : Bytes := s.impl.drop s.readPos

/-- `OStringStream::write_some` takes everything, so `write` is one call. -/
def write (s : StringStream) (val : Bytes) : StringStream :=
  { s with impl := s.impl ++ val, inside := by simp only [List.length_append]; have := s.inside; omega }

/-- `get_buffer` after `clear`: the whole string is moved out. -/
def clear (s : StringStream) : Bytes × StringStream := (s.impl, {})

def skip (s : StringStream) (count : Nat) (available : count ≤ s.size) : StringStream :=
  { s with readPos := s.readPos + count, inside := by have := s.inside; unfold size at available; omega }

theorem skip_available {σ : Type} (out : OStream σ) (s : StringStream) (rc : Nat) (t : σ) :
    (out.writeSome t (s.unread.take rc)).1 ≤ s.size := by
  refine Nat.le_trans (out.bounded t _) ?_
  simp only [unread, size, List.length_take, List.length_drop]
  omega

/-- The loop of `IStringStream::write_to`, which returns how many bytes were
written. -/
def writeLoop {σ : Type} (out : OStream σ) : Nat → StringStream → Nat → σ → Nat × StringStream × σ
  | 0, s, _, t => (0, s, t)
  | passes + 1, s, maxCount, t =>
    let rc := min s.size maxCount
    if rc = 0 then (0, s, t)
    else
      let wrote := out.writeSome t (s.unread.take rc)
      let rest := s.skip wrote.1 (skip_available out s rc t)
      if wrote.1 = 0 then (0, rest, wrote.2)
      else
        let more := writeLoop out passes rest (maxCount - wrote.1) wrote.2
        (wrote.1 + more.1, more.2)

def writeToMax {σ : Type} (s : StringStream) (out : OStream σ) (maxCount : Nat) (t : σ) :
    Nat × StringStream × σ :=
  writeLoop out (s.size + 1) s maxCount t

/-- `write_to` without a bound: `SIZE_MAX` is never less than the size. -/
def writeTo {σ : Type} (s : StringStream) (out : OStream σ) (t : σ) : Nat × StringStream × σ :=
  s.writeToMax out s.size t

end StringStream

/-- What the loop of `write_to` needs of an `IFiniteStream`: how many bytes its
read pointer stands at (its `size`, for the circular buffer its `read_count`),
these bytes, and how it moves on when a sink took `count` of the `rc` bytes it
was offered. -/
structure IFiniteStream (τ : Type) where
  size : τ → Nat
  unread : τ → Bytes
  advance : (s : τ) → (rc count : Nat) → count ≤ rc → rc ≤ size s → τ

namespace IFiniteStream
variable {τ σ : Type}

theorem taken_le (out : OStream σ) (t : σ) (val : Bytes) (rc : Nat) :
    (out.writeSome t (val.take rc)).1 ≤ rc :=
  Nat.le_trans (out.bounded t _) (List.length_take_le rc val)

/-- The loop of `write_to`, which returns how many bytes were written. -/
def writeLoop (stream : IFiniteStream τ) (out : OStream σ) : Nat → τ → Nat → σ → Nat × τ × σ
  | 0, s, _, t => (0, s, t)
  | passes + 1, s, maxCount, t =>
    let rc := min (stream.size s) maxCount
    if rc = 0 then (0, s, t)
    else
      let wrote := out.writeSome t ((stream.unread s).take rc)
      let rest := stream.advance s rc wrote.1 (taken_le out t (stream.unread s) rc) (Nat.min_le_left _ _)
      if wrote.1 = 0 then (0, rest, wrote.2)
      else
        let more := writeLoop stream out passes rest (maxCount - wrote.1) wrote.2
        (wrote.1 + more.1, more.2)

/-- Every pass but the last one takes at least one byte off the stream, so its
size bounds their number. -/
def writeToMax (stream : IFiniteStream τ) (s : τ) (out : OStream σ) (maxCount : Nat)
    (t : σ) : Nat × τ × σ :=
  stream.writeLoop out (stream.size s + 1) s maxCount t

end IFiniteStream

namespace Buffer

def finite : IFiniteStream Buffer where
  size := readCount
  unread := readable
  advance b _ count taken available :=
    b.didRead count (Nat.le_trans (Nat.add_le_add_left (Nat.le_trans taken available) _)
      b.readCount_bound)

/-- The loop goes on in the second part, so the whole size bounds its passes. -/
def writeToMax {σ : Type} (b : Buffer) (out : OStream σ) (maxCount : Nat) (t : σ) : Nat × Buffer × σ :=
  finite.writeLoop out (b.size + 1) b maxCount t

end Buffer

/-- A pointer into memory with the number of bytes left there: `data` are the
bytes from the pointer on. -/
structure IMemoryStream where
  data : Bytes
  si : Nat
  inside : si ≤ data.length

namespace IMemoryStream

def size (s : IMemoryStream) : Nat := s.si

def unread (s : IMemoryStream) : Bytes := s.data.take s.si

/-- `data += count; si -= rc`: the pointer moves by what the sink took, the size
by what it was offered. -/
def advance (s : IMemoryStream) (rc count : Nat) (taken : count ≤ rc)
    (_ : rc ≤ s.size) : IMemoryStream where
  data := s.data.drop count
  si := s.si - rc
  inside := by
    have := s.inside
    simp only [List.length_drop]
    omega

def finite : IFiniteStream IMemoryStream := ⟨size, unread, advance⟩

def writeToMax {σ : Type} (s : IMemoryStream) (out : OStream σ) (maxCount : Nat) (t : σ) :
    Nat × IMemoryStream × σ :=
  finite.writeToMax s out maxCount t

end IMemoryStream

/-- A vector of bytes that is read from `read_pos` on. -/
structure IVectorStream where
  rimpl : Bytes
  readPos : Nat := 0
  inside : readPos ≤ rimpl.length := by exact Nat.zero_le _

namespace IVectorStream

def size (s : IVectorStream) : Nat := s.rimpl.length - s.readPos

def unread (s : IVectorStream) : Bytes := s.rimpl.drop s.readPos

/-- `read_pos += count`. -/
def advance (s : IVectorStream) (rc count : Nat) (taken : count ≤ rc)
    (available : rc ≤ s.size) : IVectorStream :=
  { s with
    readPos := s.readPos + count
    inside := by
      have := s.inside
      unfold size at available
      omega }

def readSome (s : IVectorStream) (count : Nat) : Bytes × IVectorStream :=
  let rc := min count s.size
  (s.unread.take rc, s.advance rc rc (Nat.le_refl rc) (Nat.min_le_right _ _))

def finite : IFiniteStream IVectorStream := ⟨size, unread, advance⟩

def writeToMax {σ : Type} (s : IVectorStream) (out : OStream σ) (maxCount : Nat) (t : σ) :
    Nat × IVectorStream × σ :=
  finite.writeToMax s out maxCount t

end IVectorStream

/-- The virtual calls of an `IFiniteStream` that is the state `τ`. -/
structure FiniteCalls (τ : Type) where
  size : τ → Nat
  readSome : τ → Nat → Bytes × τ
  writeTo : {σ : Type} → OStream σ → τ → Nat → σ → Nat × τ × σ

namespace FiniteCalls

def empty {τ : Type} (calls : FiniteCalls τ) (s : τ) : Bool := calls.size s == 0

end FiniteCalls

def Buffer.calls : FiniteCalls Buffer where
  size := Buffer.size
  readSome := Buffer.readSome
  writeTo out b maxCount t := b.writeToMax out maxCount t

def IVectorStream.calls : FiniteCalls IVectorStream where
  size := IVectorStream.size
  readSome := IVectorStream.readSome
  writeTo out s maxCount t := s.writeToMax out maxCount t

/-- Two streams, read one after the other. -/
structure CombinedIStream (α β : Type) where
  a : α
  b : β

namespace CombinedIStream
variable {α β σ : Type} (first : FiniteCalls α) (second : FiniteCalls β)

def size (s : CombinedIStream α β) : Nat := first.size s.a + second.size s.b

def readSome (s : CombinedIStream α β) (count : Nat) : Bytes × CombinedIStream α β :=
  if !first.empty s.a then
    let got := first.readSome s.a count
    (got.1, { s with a := got.2 })
  else
    let got := second.readSome s.b count
    (got.1, { s with b := got.2 })

def writeTo (out : OStream σ) (s : CombinedIStream α β) (maxCount : Nat)
    (t : σ) : Nat × CombinedIStream α β × σ :=
  if !first.empty s.a then
    let count := first.writeTo out s.a maxCount t
    if !first.empty count.2.1 then (count.1, { s with a := count.2.1 }, count.2.2)
    else
      -- what `a` wrote counts against the bound, but is not returned
      let rest := second.writeTo out s.b (maxCount - count.1) count.2.2
      (rest.1, ⟨count.2.1, rest.2.1⟩, rest.2.2)
  else
    let rest := second.writeTo out s.b maxCount t
    (rest.1, { s with b := rest.2.1 }, rest.2.2)

def calls : FiniteCalls (CombinedIStream α β) where
  size := size first second
  readSome := readSome first second
  writeTo out s maxCount t := writeTo first second out s maxCount t

end CombinedIStream
end Crablib
