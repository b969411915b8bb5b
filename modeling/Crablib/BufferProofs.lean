import Crablib.DrainProofs

/-! The circular buffer as a bounded queue of bytes. Both ends of the storage may
hold a part of the queue and a part of the room, and every operation works on one
part or on both; what it does to the queue never depends on where the parts lie. -/
namespace Crablib.BufferProofs
open Buffer StreamsProofs DrainProofs

section Layout

/-- The cells a reader is shown, in two parts. -/
def Shown (b : Buffer) (i : Nat) : Prop := b.readPos ≤ i ∧ i < b.readPos + b.readCount ∨ i < b.readCount2

/-- The cells a writer is given, in two parts. -/
def Given (b : Buffer) (i : Nat) : Prop :=
  b.writePtr ≤ i ∧ i < b.writePtr + b.writeCount ∨ i < b.writeCount2

/-- Where the positions stand, and how the storage is divided. -/
structure Layout (b : Buffer) : Prop where
  ordered : b.readPos ≤ b.writePos
  bounded : b.writePos ≤ b.readPos + b.capacity
  inside : b.readPos < b.capacity ∨ b.readPos = 0 ∧ b.writePos = 0
  held : b.readCount + b.readCount2 = b.size
  room : b.writeCount + b.writeCount2 = b.capacity - b.size
  stored : ∀ i, Shown b i ∨ Given b i → i < b.capacity
  apart : ∀ i, ¬(Shown b i ∧ Given b i)

/-- No operation can leave a buffer that is laid out otherwise. -/
theorem layout (b : Buffer) : Layout b := by
  have ordered := b.ordered
  have bounded := b.bounded
  have inside := b.inside
  refine ⟨ordered, bounded, inside, ?_, ?_, ?_, ?_⟩
  · unfold readCount readCount2 size
    split <;> omega
  · unfold writeCount writeCount2 size
    split <;> omega
  · intro i
    unfold Shown Given readCount readCount2 writePtr writeCount writeCount2
    split <;> omega
  · intro i
    unfold Shown Given readCount readCount2 writePtr writeCount writeCount2
    split <;> omega

end Layout

section Parts

/-- The queue is the first part and the second one behind it. -/
theorem contents_parts (b : Buffer) :
    contents b = b.readable ++ (List.range b.readCount2).map b.impl := by
  have held := (layout b).held
  have front := readable_eq b
  have first : b.readable.length = b.readCount := by simp [readable]
  refine List.ext_getElem ?_ fun i left right => ?_
  · simp only [contents_length, List.length_append, first, List.length_map, List.length_range]
    omega
  · by_cases low : i < b.readCount
    · rw [List.getElem_append_left (by omega)]
      simp [front]
    · rw [List.getElem_append_right (by omega)]
      rw [contents_length] at left
      simp only [contents, List.getElem_map, List.getElem_range, first]
      have ordered := b.ordered
      have inside := b.inside
      have wraps : cell b.capacity (b.readPos + i) = i - b.readCount := by
        unfold size at left
        unfold cell readCount at *
        by_cases straight : b.writePos < b.capacity
        · simp only [straight, ↓reduceIte] at low ⊢
          omega
        · simp only [straight, ↓reduceIte] at low ⊢
          split <;> omega
      rw [wraps]

/-- The bytes that stand in the room of the buffer, the first part and the second
one behind it. -/
def writable (b : Buffer) : Bytes :=
  (List.range b.writeCount).map (fun i => b.impl (b.writePtr + i)) ++
    (List.range b.writeCount2).map b.impl

theorem writable_length (b : Buffer) : (writable b).length = b.capacity - b.size := by
  have room := (layout b).room
  simp [writable, room]

/-- The room starts where the queue ends. -/
private theorem writable_cell (b : Buffer) {i : Nat} (within : i < (writable b).length) :
    (writable b)[i] = b.impl (cell b.capacity (b.readPos + (b.size + i))) := by
  have length := writable_length b
  have ordered := b.ordered
  have bounded := b.bounded
  have inside := b.inside
  simp only [writable]
  by_cases low : i < b.writeCount
  · rw [List.getElem_append_left (by simpa using low)]
    simp only [List.getElem_map, List.getElem_range]
    congr 1
    unfold cell size writePtr writeCount at *
    by_cases straight : b.writePos < b.capacity
    · simp only [straight, ↓reduceIte] at low ⊢
      split <;> omega
    · simp only [straight, ↓reduceIte] at low ⊢
      split <;> omega
  · rw [List.getElem_append_right (by simpa using Nat.le_of_not_lt low)]
    simp only [List.getElem_map, List.getElem_range, List.length_map, List.length_range]
    congr 1
    unfold cell size writeCount at *
    by_cases straight : b.writePos < b.capacity
    · simp only [straight, ↓reduceIte] at low ⊢
      split <;> omega
    · simp only [straight, ↓reduceIte] at low ⊢
      split <;> omega

/-- `did_write` takes the bytes in that stand in the room. -/
theorem contents_didWrite_writable (b : Buffer) (count : Nat)
    (fits : b.writePos + count ≤ b.readPos + b.capacity) :
    contents (b.didWrite count fits) = contents b ++ (writable b).take count := by
  have ordered := b.ordered
  have room := writable_length b
  have total : (b.didWrite count fits).size = b.size + count := by
    simp only [size, didWrite]
    omega
  have within : count ≤ (writable b).length := by
    rw [room]
    unfold size
    omega
  refine List.ext_getElem ?_ fun i left right => ?_
  · simp only [contents_length, total, List.length_append, List.length_take, Nat.min_eq_left within]
  · rw [contents_length, total] at left
    have stood : (contents (b.didWrite count fits))[i] = b.impl (cell b.capacity (b.readPos + i)) := by
      simp [contents, didWrite]
    rw [stood]
    by_cases old : i < b.size
    · rw [List.getElem_append_left (by simpa using old)]
      simp [contents]
    · rw [List.getElem_append_right (by simpa using Nat.le_of_not_lt old)]
      simp only [List.getElem_take, contents_length]
      rw [writable_cell, Nat.add_sub_cancel' (Nat.le_of_not_lt old)]

end Parts

section Operations

@[simp] theorem size_didRead (b : Buffer) (count : Nat) (available : b.readPos + count ≤ b.writePos) :
    (b.didRead count available).size = b.size - count := by
  rw [← contents_length, contents_didRead, List.length_drop, contents_length]

theorem readable_length (b : Buffer) : b.readable.length = b.readCount := by
  simp [readable]

theorem readCount_le (b : Buffer) : b.readCount ≤ b.size := by
  have held := (layout b).held
  omega

/-- The first part is empty only when the queue is. -/
theorem readCount_eq_zero (b : Buffer) : b.readCount = 0 ↔ contents b = [] := by
  have inside := b.inside
  have ordered := b.ordered
  have bounded := b.bounded
  rw [← List.length_eq_zero_iff, contents_length]
  unfold readCount size
  split <;> omega

theorem readSome_bytes (b : Buffer) (count : Nat) :
    (b.readSome count).1 = (contents b).take (min count b.readCount) := by
  simp only [readSome, readable_eq, List.take_take]
  rw [Nat.min_eq_left (Nat.min_le_right _ _)]

theorem readSome_contents (b : Buffer) (count : Nat) :
    contents (b.readSome count).2 = (contents b).drop (min count b.readCount) := by
  have read := contents_didRead b (min count b.readCount)
    (Nat.le_trans (Nat.add_le_add_left (Nat.min_le_right _ _) _) b.readCount_bound)
  exact read

theorem readSome_capacity (b : Buffer) (count : Nat) : (b.readSome count).2.capacity = b.capacity :=
  didRead_capacity b (min count b.readCount)
    (Nat.le_trans (Nat.add_le_add_left (Nat.min_le_right _ _) _) b.readCount_bound)

theorem writeSome_contents (b : Buffer) (val : Bytes) :
    contents (b.writeSome val).2 = contents b ++ val.take (b.writeSome val).1 := by
  have taken : (val.take (min val.length b.writeCount)).length = min val.length b.writeCount := by simp
  have stored := contents_didWrite b (val.take (min val.length b.writeCount)) (by omega)
    (by have := b.writeCount_bound; omega)
  simp only [taken] at stored
  exact stored

/-- The second part of the room ends before the first one starts. -/
private theorem writeCount2_le (b : Buffer) : b.writeCount2 ≤ b.writePtr := by
  have ordered := b.ordered
  unfold writeCount2 writePtr
  split <;> omega

/-- Bytes left in the room do not touch the queue. -/
theorem contents_storeBoth (b : Buffer) (val : Bytes) (room : val.length ≤ b.capacity - b.size) :
    contents (b.storeBoth val) = contents b := by
  refine List.ext_getElem (by simp [size, storeBoth, store]) fun i left right => ?_
  rw [contents_length] at right
  have shown : Shown b (cell b.capacity (b.readPos + i)) := by
    have ordered := b.ordered
    have inside := b.inside
    have bounded := b.bounded
    unfold Shown cell readCount readCount2
    unfold size at right
    by_cases straight : b.writePos < b.capacity
    · simp only [straight, ↓reduceIte]
      split <;> omega
    · simp only [straight, ↓reduceIte]
      split <;> omega
  have apart : ¬Given b (cell b.capacity (b.readPos + i)) :=
    fun given => (layout b).apart _ ⟨shown, given⟩
  have rooms := (layout b).room
  unfold Given at apart
  have second : ¬cell b.capacity (b.readPos + i) < (val.drop b.writeCount).length := by
    rw [List.length_drop]
    omega
  have first : ¬(b.writePtr ≤ cell b.capacity (b.readPos + i) ∧
      cell b.capacity (b.readPos + i) < b.writePtr + (val.take b.writeCount).length) := by
    rw [List.length_take]
    omega
  have kept :
      (b.storeBoth val).impl (cell b.capacity (b.readPos + i)) =
      b.impl (cell b.capacity (b.readPos + i)) := by
    simp only [storeBoth, store, second, first, ↓reduceIte]
  simp only [contents, List.getElem_map, List.getElem_range]
  exact kept

/-- What a caller left in the room stands at its front. -/
theorem writable_storeBoth (b : Buffer) (val : Bytes) (room : val.length ≤ b.capacity - b.size) :
    (writable (b.storeBoth val)).take val.length = val := by
  have rooms := (layout b).room
  have parts := writeCount2_le b
  have total := writable_length (b.storeBoth val)
  refine List.ext_getElem ?_ fun i left right => ?_
  · rw [List.length_take, total]
    exact Nat.min_eq_left room
  · have counts : (b.storeBoth val).writeCount = b.writeCount := rfl
    simp only [List.getElem_take, writable]
    by_cases low : i < b.writeCount
    · rw [List.getElem_append_left (by simpa [counts] using low)]
      have apart : ¬b.writePtr + i < (val.drop b.writeCount).length := by
        rw [List.length_drop]
        omega
      have within : b.writePtr ≤ b.writePtr + i ∧
          b.writePtr + i < b.writePtr + (val.take b.writeCount).length := by
        rw [List.length_take]
        omega
      have stored : (b.storeBoth val).impl (b.writePtr + i) = (val.take b.writeCount).getD i 0 := by
        simp only [storeBoth, store, apart, within, Nat.add_sub_cancel_left, and_self, ↓reduceIte]
      simp only [List.getElem_map, List.getElem_range]
      refine Eq.trans stored ?_
      simp [low, right]
    · rw [List.getElem_append_right (by simpa [counts] using Nat.le_of_not_lt low)]
      have within : i - b.writeCount < (val.drop b.writeCount).length := by
        rw [List.length_drop]
        omega
      have stored :
          (b.storeBoth val).impl (i - b.writeCount) =
          (val.drop b.writeCount).getD (i - b.writeCount) 0 := by
        simp only [storeBoth, within, ↓reduceIte]
      simp only [List.getElem_map, List.getElem_range, List.length_map,
        List.length_range, counts, stored]
      simp [Nat.add_sub_cancel' (Nat.le_of_not_lt low), right]

theorem contents_didWriteUndo (b : Buffer) (count : Nat) (written : b.readPos + count ≤ b.writePos) :
    contents (b.didWriteUndo count written) = (contents b).take ((contents b).length - count) := by
  refine List.ext_getElem ?_ fun i left right => ?_
  · simp only [contents_length, List.length_take, size, didWriteUndo]
    omega
  · simp [contents, didWriteUndo]

@[simp] theorem contents_clearTo (b : Buffer) (newSize : Nat) : contents (b.clearTo newSize) = [] := rfl

/-- `peek` sees through the end of the storage. -/
theorem peek_eq (b : Buffer) (count : Nat) :
    b.peek count = if count ≤ (contents b).length then some ((contents b).take count) else none := by
  have held := (layout b).held
  have first := readable_length b
  rw [contents_length]
  unfold peek
  by_cases short : b.size < count
  · rw [if_pos short, if_neg (Nat.not_le_of_lt short)]
  · rw [if_neg short, if_pos (Nat.le_of_not_lt short), contents_parts]
    split
    · rename_i within
      rw [List.take_append_of_le_length (by omega)]
    · rename_i beyond
      rw [List.take_append, List.take_of_length_le (by omega), first, ← List.map_take, List.take_range,
        Nat.min_eq_left (by omega)]

end Operations

section Loops

theorem writeToMax_capacity {σ : Type} (b : Buffer) (out : OStream σ) (maxCount : Nat) (t : σ × Bytes) :
    (b.writeToMax (recording out) maxCount t).2.1.capacity = b.capacity := by
  refine writeLoop_keeps Buffer.finite out Buffer.capacity ?_ (b.size + 1) b maxCount t
  intro b rc count taken available
  exact didRead_capacity b count
    (Nat.le_trans (Nat.add_le_add_left (Nat.le_trans taken available) _) b.readCount_bound)

theorem buffer_shows : Shows Buffer.finite contents where
  offered := readable_eq
  size_le b := by
    rw [contents_length]
    exact readCount_le b
  advance b _ count taken available :=
    contents_didRead b count
      (Nat.le_trans (Nat.add_le_add_left (Nat.le_trans taken available) _) b.readCount_bound)

end Loops

section Fifo
variable {σ τ : Type}

/-- A queue of bytes that holds at most `capacity` of them. -/
structure Fifo where
  capacity : Nat
  contents : Bytes
  fits : contents.length ≤ capacity

/-- The queue a buffer stands for. -/
def view (b : Buffer) : Fifo := ⟨b.capacity, contents b, by rw [contents_length]; exact size_le b⟩

def fifoOf (capacity : Nat) : Fifo := ⟨capacity, [], Nat.zero_le _⟩

/-- A call of `Buffer`. `didWrite` is `did_write` of bytes the caller has left in
the room; `writeTo` hands the sink over with a record of what it takes. -/
inductive Op (σ τ : Type) where
  | readSome (count : Nat)
  | writeSome (val : Bytes)
  | didRead (count : Nat)
  | didWrite (val : Bytes)
  | didWriteUndo (count : Nat)
  | clear
  | clearTo (newSize : Nat)
  | peek (count : Nat)
  | readFrom (input : IStream σ) (s : σ)
  | writeTo (out : OStream τ) (maxCount : Nat) (t : τ)

/-- What a call gives back, with the stream it read from or the sink it wrote to. -/
inductive Result (σ τ : Type) where
  | done
  | bytes (got : Bytes)
  | count (rc : Nat)
  | peeked (got : Option Bytes)
  | read (count : Nat) (s : σ)
  | wrote (count : Nat) (t : τ × Bytes)

/-- A call on a buffer; without a result where an `invariant` of the source throws. -/
def step (b : Buffer) : Op σ τ → Option (Result σ τ × Buffer)
  | .readSome count => some (.bytes (b.readSome count).1, (b.readSome count).2)
  | .writeSome val => some (.count (b.writeSome val).1, (b.writeSome val).2)
  | .didRead count =>
    if available : b.readPos + count ≤ b.writePos then some (.done, b.didRead count available) else none
  | .didWrite val =>
    if fits : b.writePos + val.length ≤ b.readPos + b.capacity then
      some (.done, (b.storeBoth val).didWrite val.length fits)
    else none
  | .didWriteUndo count =>
    if written : b.readPos + count ≤ b.writePos then some (.done, b.didWriteUndo count written) else none
  | .clear => some (.done, b.clear)
  | .clearTo newSize => some (.done, b.clearTo newSize)
  | .peek count => some (.peeked (b.peek count), b)
  | .readFrom input s =>
    let read := b.readFrom input s
    some (.read read.1 read.2.2, read.2.1)
  | .writeTo out maxCount t =>
    let wrote := b.writeToMax (recording out) maxCount (t, [])
    some (.wrote wrote.1 wrote.2.2, wrote.2.1)

/-- The counts a caller may pass. -/
def Admissible (q : Fifo) : Op σ τ → Prop
  | .didRead count | .didWriteUndo count => count ≤ q.contents.length
  | .didWrite val => q.contents.length + val.length ≤ q.capacity
  | _ => True

/-- The queue after a call that leaves it its capacity. -/
def Becomes (q : Fifo) (contents : Bytes) (q' : Fifo) : Prop :=
  q'.capacity = q.capacity ∧ q'.contents = contents

/-- What a call gives back and makes of the queue. -/
def Acts (q : Fifo) (result : Result σ τ) (q' : Fifo) : Op σ τ → Prop
  | .readSome count => ∃ n, n ≤ count ∧ n ≤ q.contents.length ∧ (n = 0 → q.contents = [] ∨ count = 0) ∧
      result = .bytes (q.contents.take n) ∧ Becomes q (q.contents.drop n) q'
  | .writeSome val => ∃ n, n ≤ val.length ∧ (n = 0 → q.contents.length = q.capacity ∨ val = []) ∧
      result = .count n ∧ Becomes q (q.contents ++ val.take n) q'
  | .didRead count => result = .done ∧ Becomes q (q.contents.drop count) q'
  | .didWrite val => result = .done ∧ Becomes q (q.contents ++ val) q'
  | .didWriteUndo count => result = .done ∧ Becomes q (q.contents.take (q.contents.length - count)) q'
  | .clear => result = .done ∧ Becomes q [] q'
  | .clearTo newSize => result = .done ∧ q' = fifoOf newSize
  | .peek count =>
      result = .peeked (if count ≤ q.contents.length then some (q.contents.take count) else none) ∧
        q' = q
  | .readFrom input s =>
    ∃ got s', Reads input s got s' ∧ (q'.contents.length = q'.capacity ∨ Dry input s') ∧
      result = .read got.length s' ∧ Becomes q (q.contents ++ got) q'
  | .writeTo out maxCount _ => ∃ n t', n ≤ maxCount ∧ n ≤ q.contents.length ∧
      (n = min q.contents.length maxCount ∨ Refused out t') ∧
      result = .wrote n (t', q.contents.take n) ∧ Becomes q (q.contents.drop n) q'

end Fifo

section Refinement
variable {σ τ : Type}

private theorem view_contents (b : Buffer) : (view b).contents = contents b := rfl

private theorem becomes_of (b b' : Buffer) {q : Bytes} (capacity : b'.capacity = b.capacity)
    (same : contents b' = q) :
    Becomes (view b) q (view b') := ⟨capacity, same⟩

private theorem readSome_acts (b : Buffer) (count : Nat) :
    Acts (view b) (.bytes (b.readSome count).1) (view (b.readSome count).2)
      (.readSome count : Op σ τ) := by
  have first := readCount_le b
  have nothing := readCount_eq_zero b
  refine ⟨min count b.readCount, Nat.min_le_left _ _, ?_, ?_, ?_, ?_⟩
  · rw [view_contents, contents_length]
    omega
  · intro none
    rw [view_contents]
    rcases Nat.min_eq_zero_iff.mp none with asked | empty
    · exact .inr asked
    · exact .inl (nothing.mp empty)
  · rw [readSome_bytes]
    rfl
  · exact becomes_of b _ (readSome_capacity b count) (readSome_contents b count)

private theorem writeSome_acts (b : Buffer) (val : Bytes) :
    Acts (view b) (.count (b.writeSome val).1) (view (b.writeSome val).2) (.writeSome val : Op σ τ) := by
  refine ⟨(b.writeSome val).1, Nat.min_le_left _ _, ?_, rfl,
    becomes_of b _ rfl (writeSome_contents b val)⟩
  intro none
  rcases Nat.min_eq_zero_iff.mp none with given | room
  · exact .inr (List.length_eq_zero_iff.mp given)
  · exact .inl ((writeCount_eq_zero b).mp room)

private theorem writeTo_acts (b : Buffer) (out : OStream τ) (maxCount : Nat) (t : τ) :
    Acts (view b) (.wrote (b.writeToMax (recording out) maxCount (t, [])).1
      (b.writeToMax (recording out) maxCount (t, [])).2.2)
      (view (b.writeToMax (recording out) maxCount (t, [])).2.1) (.writeTo out maxCount t : Op σ τ) := by
  have moves := writeLoop_moves buffer_shows out (b.size + 1) b maxCount (t, [])
  have stops := writeLoop_stops (recording out) buffer_shows
    (fun b none => (readCount_eq_zero b).mp none)
    (fun u => Refused out u.1) (fun u val some none => ⟨u.1, val, some, Prod.ext none rfl⟩)
    (b.size + 1) b maxCount (t, []) (by rw [contents_length]; omega)
  refine ⟨_, _, moves.count_le, moves.available, stops, ?_,
    becomes_of b _ (writeToMax_capacity b out maxCount (t, [])) moves.kept⟩
  congr 1
  exact Prod.ext rfl moves.delivered

private theorem readFrom_acts (b : Buffer) (input : IStream σ) (s : σ) :
    Acts (view b) (.read (b.readFrom input s).1 (b.readFrom input s).2.2) (view (b.readFrom input s).2.1)
      (.readFrom input s : Op σ τ) := by
  obtain ⟨got, filled⟩ := readFrom_filled input b s
  refine ⟨got, _, filled.reads, ?_, ?_, becomes_of b _ filled.capacity filled.contents⟩
  · exact filled.stops.imp_left (·.trans filled.capacity.symm)
  · rw [← filled.count]

/-- One call on the buffer is the same call on the queue. -/
theorem step_acts {b b' : Buffer} {op : Op σ τ} {result : Result σ τ}
    (stepped : step b op = some (result, b')) :
    Acts (view b) result (view b') op := by
  cases op with
  | readSome count =>
    obtain ⟨rfl, rfl⟩ := Prod.mk.inj (Option.some.inj stepped)
    exact readSome_acts b count
  | writeSome val =>
    obtain ⟨rfl, rfl⟩ := Prod.mk.inj (Option.some.inj stepped)
    exact writeSome_acts b val
  | didRead count =>
    simp only [step, Option.dite_none_right_eq_some] at stepped
    obtain ⟨available, same⟩ := stepped
    obtain ⟨rfl, rfl⟩ := Prod.mk.inj (Option.some.inj same)
    exact ⟨rfl, becomes_of b _ (didRead_capacity b count available) (contents_didRead b count available)⟩
  | didWrite val =>
    simp only [step, Option.dite_none_right_eq_some] at stepped
    obtain ⟨fits, same⟩ := stepped
    obtain ⟨rfl, rfl⟩ := Prod.mk.inj (Option.some.inj same)
    have ordered := b.ordered
    have room : val.length ≤ b.capacity - b.size := by
      unfold size
      omega
    have wrote := contents_didWrite_writable (b.storeBoth val) val.length fits
    rw [contents_storeBoth b val room, writable_storeBoth b val room] at wrote
    exact ⟨rfl, becomes_of b _ rfl wrote⟩
  | didWriteUndo count =>
    simp only [step, Option.dite_none_right_eq_some] at stepped
    obtain ⟨written, same⟩ := stepped
    obtain ⟨rfl, rfl⟩ := Prod.mk.inj (Option.some.inj same)
    exact ⟨rfl, becomes_of b _ rfl (contents_didWriteUndo b count written)⟩
  | clear =>
    obtain ⟨rfl, rfl⟩ := Prod.mk.inj (Option.some.inj stepped)
    exact ⟨rfl, becomes_of b _ rfl (contents_clear b)⟩
  | clearTo newSize =>
    obtain ⟨rfl, rfl⟩ := Prod.mk.inj (Option.some.inj stepped)
    exact ⟨rfl, rfl⟩
  | peek count =>
    obtain ⟨rfl, rfl⟩ := Prod.mk.inj (Option.some.inj stepped)
    exact ⟨congrArg Result.peeked (peek_eq b count), rfl⟩
  | readFrom input s =>
    obtain ⟨rfl, rfl⟩ := Prod.mk.inj (Option.some.inj stepped)
    exact readFrom_acts b input s
  | writeTo out maxCount t =>
    obtain ⟨rfl, rfl⟩ := Prod.mk.inj (Option.some.inj stepped)
    exact writeTo_acts b out maxCount t

/-- Only an inadmissible count makes a call throw. -/
theorem step_none_iff {b : Buffer} {op : Op σ τ} : step b op = none ↔ ¬Admissible (view b) op := by
  have ordered := b.ordered
  have bounded := b.bounded
  have length : (view b).contents.length = b.writePos - b.readPos := contents_length b
  have capacity : (view b).capacity = b.capacity := rfl
  cases op with
  | didRead count | didWriteUndo count =>
    simp only [step, Admissible, length, dite_eq_right_iff, reduceCtorEq, imp_false]
    omega
  | didWrite val =>
    simp only [step, Admissible, length, capacity, dite_eq_right_iff, reduceCtorEq, imp_false]
    omega
  | _ => simp [step, Admissible]

/-- A sequence of calls, as long as none of them throws. -/
def run : Buffer → List (Op σ τ) → Option (List (Result σ τ) × Buffer)
  | b, [] => some ([], b)
  | b, op :: ops =>
    match step b op with
    | none => none
    | some (result, next) => (run next ops).map fun rest => (result :: rest.1, rest.2)

/-- A sequence of calls on the queue. -/
inductive Runs : Fifo → List (Op σ τ) → List (Result σ τ) → Fifo → Prop where
  | nil (q : Fifo) : Runs q [] [] q
  | cons {q next last : Fifo} {op : Op σ τ} {ops : List (Op σ τ)} {result : Result σ τ}
      {results : List (Result σ τ)}
      (first : Acts q result next op) (rest : Runs next ops results last) :
      Runs q (op :: ops) (result :: results) last

theorem run_runs {b b' : Buffer} {ops : List (Op σ τ)} {results : List (Result σ τ)}
    (ran : run b ops = some (results, b')) : Runs (view b) ops results (view b') := by
  induction ops generalizing b results with
  | nil =>
    obtain ⟨rfl, rfl⟩ := Prod.mk.inj (Option.some.inj ran)
    exact .nil (view b)
  | cons op ops ih =>
    simp only [run] at ran
    split at ran
    · cases ran
    · rename_i result next stepped
      obtain ⟨rest, later, same⟩ := Option.map_eq_some_iff.mp ran
      obtain ⟨rfl, rfl⟩ := Prod.mk.inj same
      exact .cons (step_acts stepped) (ih later)

/-- A sequence of calls is cut short only by one with an inadmissible count. -/
theorem run_none {b : Buffer} {ops : List (Op σ τ)} (ran : run b ops = none) :
    ∃ front op back results reached, ops = front ++ op :: back ∧ run b front = some (results, reached) ∧
      ¬Admissible (view reached) op := by
  induction ops generalizing b with
  | nil => cases ran
  | cons op ops ih =>
    simp only [run] at ran
    split at ran
    · rename_i stuck
      exact ⟨[], op, ops, [], b, rfl, rfl, step_none_iff.mp stuck⟩
    · rename_i result next stepped
      obtain ⟨front, stopped, back, results, reached, rfl, before, inadmissible⟩ :=
        ih (Option.map_eq_none_iff.mp ran)
      exact ⟨op :: front, stopped, back, result :: results, reached,
        rfl, by simp [run, stepped, before], inadmissible⟩

/-- Whatever is called on a buffer of any capacity, it stays laid out as it should and
works as a bounded queue of bytes; only a count that the queue does not admit ends
the sequence. -/
theorem buffer_refines_fifo (si : Nat) (ops : List (Op σ τ)) :
    match run (Buffer.make si) ops with
    | some (results, b) => Layout b ∧ Runs (fifoOf si) ops results (view b)
    | none => ∃ front op back results b, ops = front ++ op :: back ∧
        run (Buffer.make si) front = some (results, b) ∧ ¬Admissible (view b) op := by
  split
  · rename_i results b ran
    exact ⟨layout b, run_runs ran⟩
  · rename_i ran
    exact run_none ran

end Refinement

end Crablib.BufferProofs
