import Crablib.Network.Streams

/-! The circular buffer is a queue of bytes, and a string stream hands its
unread bytes to any sink in order. Everything above the streams works with
`contents` and `unread` and never looks at positions again. -/
namespace Crablib.StreamsProofs
open Buffer

/-- The storage cell that stands at a position of the circular buffer. -/
def cell (capacity pos : Nat) : Nat := if pos < capacity then pos else pos - capacity

/-- The queue the buffer stands for, oldest byte first. -/
def contents (b : Buffer) : Bytes :=
  (List.range b.size).map fun i => b.impl (cell b.capacity (b.readPos + i))

@[simp] theorem contents_length (b : Buffer) : (contents b).length = b.size := by
  simp [contents]

@[simp] theorem contents_make (si : Nat) : contents (make si) = [] := rfl

@[simp] theorem contents_clear (b : Buffer) : contents b.clear = [] := by
  simp [contents, clear, size]

@[simp] theorem clear_capacity (b : Buffer) : b.clear.capacity = b.capacity := rfl

theorem empty_iff (b : Buffer) : b.empty = true ↔ contents b = [] := by
  rw [← List.length_eq_zero_iff, contents_length]
  simp [empty]

/-- A reader that sees only the first part still sees the front of the queue. -/
theorem readable_eq (b : Buffer) : b.readable = (contents b).take b.readCount := by
  have bound := b.readCount_bound
  refine List.ext_getElem ?_ fun i left right => ?_
  · simp only [readable, List.length_map, List.length_range, List.length_take, contents_length, size]
    omega
  · simp only [readable, List.length_map, List.length_range] at left
    have low : b.readPos + i < b.capacity := by
      have := b.ordered
      unfold readCount at left
      split at left <;> omega
    simp [readable, contents, cell, low]

theorem size_le (b : Buffer) : b.size ≤ b.capacity := by
  have bounded := b.bounded
  unfold size
  omega

theorem writeCount_le (b : Buffer) : b.writeCount ≤ b.capacity - b.size := by
  have ordered := b.ordered
  have bounded := b.bounded
  unfold writeCount size
  split <;> omega

/-- The first part of the room is empty only when the buffer is full. -/
theorem writeCount_eq_zero (b : Buffer) : b.writeCount = 0 ↔ (contents b).length = b.capacity := by
  have inside := b.inside
  have ordered := b.ordered
  have bounded := b.bounded
  rw [contents_length]
  unfold writeCount size
  split <;> omega

/-- Reading takes bytes off the front of the queue. -/
theorem contents_didRead (b : Buffer) (count : Nat) (available : b.readPos + count ≤ b.writePos) :
    contents (b.didRead count available) = (contents b).drop count := by
  have ordered := b.ordered
  have bounded := b.bounded
  have inside := b.inside
  have back : b.wrapped count = 0 ∧ b.readPos + count < b.capacity ∨
      b.wrapped count = b.capacity ∧ b.capacity ≤ b.readPos + count := by
    unfold wrapped
    split <;> omega
  unfold didRead
  split
  · have all : b.size ≤ count := by
      unfold size
      omega
    rw [contents_clear, List.drop_eq_nil_of_le (by simpa using all)]
  · refine List.ext_getElem ?_ fun i left right => ?_
    · simp only [contents_length, size, List.length_drop]
      omega
    · simp only [contents_length, size] at left
      simp only [contents, cell, List.getElem_map, List.getElem_range, List.getElem_drop]
      congr 1
      split <;> split <;> omega

@[simp] theorem didRead_capacity (b : Buffer) (count : Nat)
    (available : b.readPos + count ≤ b.writePos) :
    (b.didRead count available).capacity = b.capacity := by
  unfold didRead
  split <;> rfl

/-- The cells of unread bytes are not the ones the writer is given. -/
private theorem cell_unread (b : Buffer) {i count : Nat}
    (room : count ≤ b.writeCount) (old : i < b.size) :
    ¬(b.writePtr ≤ cell b.capacity (b.readPos + i) ∧
      cell b.capacity (b.readPos + i) < b.writePtr + count) := by
  have ordered := b.ordered
  have bounded := b.bounded
  unfold writeCount at room
  unfold size at old
  unfold writePtr cell
  by_cases low : b.readPos + i < b.capacity
  · simp only [low, ↓reduceIte]
    split at room <;> split <;> omega
  · simp only [low, ↓reduceIte]
    split at room <;> split <;> omega

private theorem cell_written (b : Buffer) {i count : Nat} (room : count ≤ b.writeCount)
    (new : b.size ≤ i) (last : i < b.size + count) :
    cell b.capacity (b.readPos + i) = b.writePtr + (i - b.size) := by
  have ordered := b.ordered
  have bounded := b.bounded
  unfold writeCount at room
  unfold size at *
  unfold writePtr cell
  split at room <;> split <;> omega

/-- Writing appends to the queue. -/
theorem contents_didWrite (b : Buffer) (val : Bytes) (room : val.length ≤ b.writeCount)
    (fits : b.writePos + val.length ≤ b.readPos + b.capacity) :
    contents ((b.store val).didWrite val.length fits) = contents b ++ val := by
  have ordered := b.ordered
  have total : ((b.store val).didWrite val.length fits).size = b.size + val.length := by
    simp only [size, didWrite, store]
    omega
  refine List.ext_getElem (by simp [total]) fun i left right => ?_
  rw [contents_length, total] at left
  have stored : (contents ((b.store val).didWrite val.length fits))[i] =
      (b.store val).impl (cell b.capacity (b.readPos + i)) := by
    simp [contents, didWrite, store]
  rw [stored]
  by_cases old : i < b.size
  · rw [List.getElem_append_left (by simpa using old)]
    simp [contents, store, cell_unread b room old]
  · have written := cell_written b room (Nat.le_of_not_lt old) left
    rw [List.getElem_append_right (by simpa using Nat.le_of_not_lt old)]
    have inRange : i - b.size < val.length := by omega
    simp [store, written, inRange]

open StringStream

@[simp] theorem unread_length (s : StringStream) : s.unread.length = s.size := by
  simp [unread, StringStream.size]

theorem stream_empty_iff (s : StringStream) : s.empty = true ↔ s.unread = [] := by
  rw [← List.length_eq_zero_iff, unread_length]
  simp [StringStream.empty]

@[simp] theorem unread_ofString (data : Bytes) : (ofString data).unread = data := rfl

@[simp] theorem unread_write (s : StringStream) (val : Bytes) :
    (s.write val).unread = s.unread ++ val := by
  simp [unread, StringStream.write, List.drop_append_of_le_length s.inside]

@[simp] theorem unread_skip (s : StringStream) (count : Nat) (available : count ≤ s.size) :
    (s.skip count available).unread = s.unread.drop count := by
  simp [unread, skip]

@[simp] theorem skip_size (s : StringStream) (count : Nat) (available : count ≤ s.size) :
    (s.skip count available).size = s.size - count := by
  simp only [StringStream.size, skip]
  omega

/-- A stream whose read pointer stands at the front of what it holds, and that
moves by what was taken. -/
structure Shows {τ : Type} (stream : IFiniteStream τ) (contents : τ → Bytes) : Prop where
  offered : ∀ s, stream.unread s = (contents s).take (stream.size s)
  size_le : ∀ s, stream.size s ≤ (contents s).length
  advance : ∀ s rc count taken available,
    contents (stream.advance s rc count taken available) = (contents s).drop count

theorem Shows.take {τ : Type} {stream : IFiniteStream τ} {contents : τ → Bytes}
    (shows : Shows stream contents) (s : τ) {count : Nat} (within : count ≤ stream.size s) :
    (stream.unread s).take count = (contents s).take count := by
  rw [shows.offered, List.take_take, Nat.min_eq_left within]

/-- A chain of `write_some` calls that took these bytes. -/
inductive Takes {σ : Type} (out : OStream σ) : σ → Bytes → σ → Prop where
  | refl (t : σ) : Takes out t [] t
  | step {t u : σ} {took : Bytes} (val : Bytes) (rest : Takes out (out.writeSome t val).2 took u) :
      Takes out t (val.take (out.writeSome t val).1 ++ took) u

/-- What a stream left after writing to a sink: as many bytes as it reports went
over, in order, and the rest is still there. -/
structure Delivered {σ τ : Type} (out : OStream σ) (contents : τ → Bytes) (s : τ)
    (maxCount : Nat) (t : σ) (result : Nat × τ × σ) : Prop where
  count_le : result.1 ≤ maxCount
  available : result.1 ≤ (contents s).length
  taken : Takes out t ((contents s).take result.1) result.2.2
  kept : contents result.2.1 = (contents s).drop result.1

section Sink
variable {σ τ : Type} {stream : IFiniteStream τ} {contents : τ → Bytes} (out : OStream σ)

/-- A record of what a sink took grows by what it took. -/
theorem Takes.logged {out : OStream σ} {t u : σ} {took : Bytes}
    (takes : Takes out t took u) (log : σ → Bytes)
    (accepts : ∀ t val, log (out.writeSome t val).2 = log t ++ val.take (out.writeSome t val).1) :
    log u = log t ++ took := by
  induction takes with
  | refl t => exact (List.append_nil _).symm
  | step val _ ih => rw [ih, accepts, List.append_assoc]

/-- A property of the sink that survives each offer survives the draining. -/
theorem Takes.preserves {out : OStream σ} {t u : σ} {took : Bytes}
    (takes : Takes out t took u) {P : σ → Prop} (keeps : ∀ t val, P t → P (out.writeSome t val).2)
    (start : P t) : P u := by
  induction takes with
  | refl t => exact start
  | step val _ ih => exact ih (keeps _ val start)

/-- Draining loses nothing, whatever part of each offer the sink takes. -/
theorem writeLoop_delivers (shows : Shows stream contents) (passes : Nat) (s : τ)
    (maxCount : Nat) (t : σ) :
    Delivered out contents s maxCount t (stream.writeLoop out passes s maxCount t) := by
  induction passes generalizing s maxCount t with
  | zero => exact ⟨Nat.zero_le _, Nat.zero_le _, .refl t, rfl⟩
  | succ passes ih =>
    simp only [IFiniteStream.writeLoop]
    split
    · exact ⟨Nat.zero_le _, Nat.zero_le _, .refl t, rfl⟩
    · have taken := IFiniteStream.taken_le out t (stream.unread s) (min (stream.size s) maxCount)
      have within := Nat.le_trans taken (Nat.min_le_left _ _)
      have held := shows.size_le s
      have left := shows.advance s _ _ taken (Nat.min_le_left _ maxCount)
      have took :
          ∀ {more u}, Takes out (out.writeSome t
          ((stream.unread s).take (min (stream.size s) maxCount))).2 more u →
          Takes out t ((contents s).take
            (out.writeSome t ((stream.unread s).take (min (stream.size s) maxCount))).1 ++ more) u := by
        intro more u takes
        rw [← shows.take s within]
        have step := takes.step
        rwa [List.take_take, Nat.min_eq_left taken] at step
      split
      · rename_i none
        refine ⟨Nat.zero_le _, Nat.zero_le _, ?_, left.trans (congrArg (List.drop · (contents s)) none)⟩
        simpa [none] using took (.refl _)
      · have next := ih (stream.advance s _ _ taken (Nat.min_le_left _ maxCount))
          (maxCount - (out.writeSome t ((stream.unread s).take (min (stream.size s) maxCount))).1)
          (out.writeSome t ((stream.unread s).take (min (stream.size s) maxCount))).2
        have count := next.count_le
        have available := next.available
        rw [left, List.length_drop] at available
        refine ⟨by simp only; omega, by simp only; omega, ?_, ?_⟩
        · have both := took next.taken
          rwa [left, ← List.take_add] at both
        · rw [next.kept, left, List.drop_drop]

/-- With passes to spare, draining stops short of what it may write only at an
offer of which the sink took nothing. -/
theorem writeLoop_stops (shows : Shows stream contents)
    (none_left : ∀ s, stream.size s = 0 → contents s = []) (refused : σ → Prop)
    (refuses : ∀ t val, val ≠ [] → (out.writeSome t val).1 = 0 → refused (out.writeSome t val).2)
    (passes : Nat) (s : τ) (maxCount : Nat) (t : σ) (enough : (contents s).length < passes) :
    (stream.writeLoop out passes s maxCount t).1 = min (contents s).length maxCount ∨
      refused (stream.writeLoop out passes s maxCount t).2.2 := by
  induction passes generalizing s maxCount t with
  | zero => omega
  | succ passes ih =>
    have held := shows.size_le s
    simp only [IFiniteStream.writeLoop]
    split
    · rename_i none
      left
      rcases Nat.min_eq_zero_iff.mp none with empty | bound
      · simp [none_left s empty]
      · simp [bound]
    · rename_i some
      split
      · rename_i none
        refine .inr (refuses t _ ?_ none)
        intro nothing
        have length := congrArg List.length nothing
        rw [shows.offered, List.take_take, List.length_take, List.length_nil] at length
        omega
      · rename_i progress
        have taken := IFiniteStream.taken_le out t (stream.unread s) (min (stream.size s) maxCount)
        have less := congrArg List.length (shows.advance s _ _ taken (Nat.min_le_left _ maxCount))
        rw [List.length_drop] at less
        rcases ih (stream.advance s _ _ taken (Nat.min_le_left _ maxCount))
          (maxCount - (out.writeSome t ((stream.unread s).take (min (stream.size s) maxCount))).1)
          (out.writeSome t ((stream.unread s).take (min (stream.size s) maxCount))).2
          (by omega) with whole | refused
        · left
          rw [whole, less]
          omega
        · exact .inr refused

/-- Draining the last byte leaves the sink as the offer that took it did. -/
theorem writeLoop_finishes (shows : Shows stream contents) (accepted : σ → Prop)
    (took : ∀ t val, 0 < (out.writeSome t val).1 → accepted (out.writeSome t val).2)
    (passes : Nat) (s : τ) (maxCount : Nat) (t : σ) (some : contents s ≠ [])
    (done : contents (stream.writeLoop out passes s maxCount t).2.1 = []) :
    accepted (stream.writeLoop out passes s maxCount t).2.2 := by
  induction passes generalizing s maxCount t with
  | zero => exact absurd done some
  | succ passes ih =>
    simp only [IFiniteStream.writeLoop] at done ⊢
    split
    · rename_i none
      simp only [none, ↓reduceIte] at done
      exact absurd done some
    · rename_i offer
      simp only [offer, ↓reduceIte] at done
      split
      · rename_i none
        rw [if_pos none, shows.advance, none, List.drop_zero] at done
        exact absurd done some
      · rename_i progress
        simp only [progress, ↓reduceIte] at done
        have taken := IFiniteStream.taken_le out t (stream.unread s) (min (stream.size s) maxCount)
        by_cases last : contents (stream.advance s _ _ taken (Nat.min_le_left _ maxCount)) = []
        · have finished := took t _ (Nat.pos_of_ne_zero progress)
          have held := shows.size_le (stream.advance s _ _ taken (Nat.min_le_left _ maxCount))
          rw [last, List.length_nil, Nat.le_zero_eq] at held
          cases passes with
          | zero => exact finished
          | succ passes => simpa [IFiniteStream.writeLoop, held] using finished
        · exact ih _ _ _ last done

/-- `IStringStream` as a finite stream. -/
def stringFinite : IFiniteStream StringStream where
  size := StringStream.size
  unread := StringStream.unread
  advance s _ count taken available := s.skip count (Nat.le_trans taken available)

theorem string_shows : Shows stringFinite StringStream.unread where
  offered s := by rw [show stringFinite.size s = s.unread.length from (unread_length s).symm,
    List.take_length]; rfl
  size_le s := Nat.le_of_eq (unread_length s).symm
  advance s _ count taken available := unread_skip s count (Nat.le_trans taken available)

/-- The loop of `IStringStream::write_to` is the loop of `IVectorStream::write_to`
over a string. -/
theorem string_writeLoop (passes : Nat) (s : StringStream) (maxCount : Nat) (t : σ) :
    StringStream.writeLoop out passes s maxCount t = stringFinite.writeLoop out passes s maxCount t := by
  induction passes generalizing s maxCount t with
  | zero => rfl
  | succ passes ih =>
    simp only [StringStream.writeLoop, IFiniteStream.writeLoop, ih]
    rfl

theorem writeTo_eq (s : StringStream) (t : σ) :
    s.writeTo out t = stringFinite.writeLoop out (s.size + 1) s s.size t :=
  string_writeLoop out (s.size + 1) s s.size t

theorem writeTo_delivers (s : StringStream) (t : σ) :
    Delivered out StringStream.unread s s.size t (s.writeTo out t) := by
  rw [writeTo_eq]
  exact writeLoop_delivers out string_shows _ _ _ _

/-- Bytes are left in a string only behind an offer of which the sink took nothing. -/
theorem writeTo_stops (refused : σ → Prop)
    (refuses : ∀ t val, val ≠ [] → (out.writeSome t val).1 = 0 → refused (out.writeSome t val).2)
    (s : StringStream) (t : σ) (left : (s.writeTo out t).2.1.unread ≠ []) :
    refused (s.writeTo out t).2.2 := by
  have length := unread_length s
  have none_left : ∀ s, stringFinite.size s = 0 → s.unread = [] := fun s none =>
    List.length_eq_zero_iff.mp ((unread_length s).trans none)
  have kept := (writeTo_delivers out s t).kept
  rw [writeTo_eq] at left kept ⊢
  rcases writeLoop_stops out string_shows none_left refused refuses (s.size + 1) s s.size t
    (by omega) with whole | refused
  · rw [kept, whole, length, Nat.min_self, ← length, List.drop_length] at left
    exact absurd rfl left
  · exact refused

theorem writeTo_finishes (accepted : σ → Prop)
    (took : ∀ t val, 0 < (out.writeSome t val).1 → accepted (out.writeSome t val).2)
    (s : StringStream) (t : σ) (some : s.unread ≠ []) (done : (s.writeTo out t).2.1.unread = []) :
    accepted (s.writeTo out t).2.2 := by
  rw [writeTo_eq] at done ⊢
  exact writeLoop_finishes out string_shows accepted took _ _ _ _ some done

end Sink

/-- A chain of `read_some` calls that returned these bytes. -/
inductive Reads {σ : Type} (input : IStream σ) : σ → Bytes → σ → Prop where
  | refl (s : σ) : Reads input s [] s
  | step {s t : σ} {got : Bytes} (count : Nat) (positive : 0 < count)
      (rest : Reads input (input.readSome s count).2 got t) :
      Reads input s ((input.readSome s count).1 ++ got) t

/-- A source that has just run dry. -/
def Dry {σ : Type} (input : IStream σ) (s : σ) : Prop :=
  ∃ before count, 0 < count ∧ input.readSome before count = ([], s)

section Source
variable {σ : Type} {input : IStream σ}

/-- A property of the source that survives each read survives a chain of them. -/
theorem Reads.preserves {s t : σ} {got : Bytes} (reads : Reads input s got t) {P : σ → Prop}
    (keeps : ∀ s count, 0 < count → P s → P (input.readSome s count).2) (start : P s) : P t := by
  induction reads with
  | refl s => exact start
  | step count positive _ ih => exact ih (keeps _ count positive start)

/-- What `read_from` did: it appended what it read, reports its length, left the
read position where it was, and left room only behind a source that has run dry. -/
structure Filled (input : IStream σ) (b : Buffer) (s : σ) (got : Bytes)
    (result : Nat × Buffer × σ) : Prop where
  reads : Reads input s got result.2.2
  count : result.1 = got.length
  contents : contents result.2.1 = contents b ++ got
  capacity : result.2.1.capacity = b.capacity
  readPos : result.2.1.readPos = b.readPos
  stops : (StreamsProofs.contents result.2.1).length = b.capacity ∨ Dry input result.2.2

private theorem readLoop_filled (passes : Nat) (b : Buffer) (s : σ)
    (enough : b.capacity - b.size < passes) :
    ∃ got, Filled input b s got (readLoop input passes b s) := by
  induction passes generalizing b s with
  | zero => omega
  | succ passes ih =>
    simp only [readLoop]
    split
    · rename_i none
      exact ⟨[], .refl s, rfl, (List.append_nil _).symm, rfl, rfl, .inl ((writeCount_eq_zero b).mp none)⟩
    · rename_i room
      have bound := input.bounded s b.writeCount
      have fits := Nat.le_trans (Nat.add_le_add_left bound b.writePos) b.writeCount_bound
      have appended := contents_didWrite b (input.readSome s b.writeCount).1 bound fits
      have positive := Nat.pos_of_ne_zero room
      split
      · rename_i none
        have nothing := List.length_eq_zero_iff.mp none
        refine ⟨[], ?_, rfl, by simpa [nothing] using appended, rfl, rfl,
          .inr ⟨s, b.writeCount, positive, Prod.ext nothing rfl⟩⟩
        simpa [nothing] using Reads.step b.writeCount positive
          (Reads.refl (input.readSome s b.writeCount).2)
      · have grown := congrArg List.length appended
        rw [List.length_append, contents_length, contents_length] at grown
        have limit := writeCount_le b
        have held := size_le b
        have same :
            ((b.store (input.readSome s b.writeCount).1).didWrite _ fits).capacity = b.capacity := rfl
        obtain ⟨got, filled⟩ := ih ((b.store (input.readSome s b.writeCount).1).didWrite _ fits)
          (input.readSome s b.writeCount).2 (by rw [grown, same]; omega)
        refine ⟨_, filled.reads.step b.writeCount positive, by simp [filled.count], ?_, filled.capacity,
          filled.readPos, filled.stops⟩
        rw [filled.contents, appended, List.append_assoc]

/-- One pass for every byte of room, and one more, are enough. -/
theorem readFrom_filled (input : IStream σ) (b : Buffer) (s : σ) :
    ∃ got, Filled input b s got (b.readFrom input s) :=
  readLoop_filled (b.capacity + 1) b s (by omega)

end Source

end Crablib.StreamsProofs
