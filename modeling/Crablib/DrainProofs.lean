import Crablib.StreamsProofs

/-! Draining a finite stream into a sink that takes as much of each offer as it
likes. A stream whose read pointer and size both move by what the sink took loses
nothing. `IMemoryStream` gives up what it offered instead, and keeps its promise
only towards a sink that takes its first offer whole. -/
namespace Crablib.DrainProofs
open StreamsProofs

section Sink
variable {σ τ : Type}

/-- The sink with a record of every byte it took. -/
def recording (out : OStream σ) : OStream (σ × Bytes) where
  writeSome t val :=
    let wrote := out.writeSome t.1 val
    (wrote.1, wrote.2, t.2 ++ val.take wrote.1)
  bounded t val := out.bounded t.1 val

/-- What `write_to` promises: the sink got the first bytes of the stream, at most
`max_count` of them, their number is returned, and the stream goes on behind them. -/
structure Drains (stream : IFiniteStream τ) (s : τ) (maxCount : Nat) (t : σ × Bytes)
    (result : Nat × τ × σ × Bytes) : Prop where
  count_le : result.1 ≤ maxCount
  available : result.1 ≤ stream.size s
  delivered : result.2.2.2 = t.2 ++ (stream.unread s).take result.1
  kept : stream.unread result.2.1 = (stream.unread s).drop result.1
  size : stream.size result.2.1 + result.1 = stream.size s

/-- Nothing was written. -/
private theorem drains_none (stream : IFiniteStream τ) (s : τ) (maxCount : Nat) (t : σ × Bytes) (u : σ) :
    Drains stream s maxCount t (0, s, u, t.2) :=
  ⟨Nat.zero_le _, Nat.zero_le _, by simp, by simp, rfl⟩

/-- What a first pass took of the stream. -/
def firstTaken (stream : IFiniteStream τ) (out : OStream σ) (s : τ) (maxCount : Nat) (t : σ) : Nat :=
  (out.writeSome t ((stream.unread s).take (min (stream.size s) maxCount))).1

theorem firstTaken_le (stream : IFiniteStream τ) (out : OStream σ) (s : τ) (maxCount : Nat) (t : σ) :
    firstTaken stream out s maxCount t ≤ min (stream.size s) maxCount :=
  IFiniteStream.taken_le out t (stream.unread s) _

theorem offered_le (stream : IFiniteStream τ) (s : τ) (maxCount : Nat) :
    min (stream.size s) maxCount ≤ stream.size s :=
  Nat.min_le_left _ _

/-- The stream behind a first pass. -/
def behind (stream : IFiniteStream τ) (out : OStream σ) (s : τ) (maxCount : Nat) (t : σ) : τ :=
  stream.advance s (min (stream.size s) maxCount) (firstTaken stream out s maxCount t)
    (firstTaken_le stream out s maxCount t) (offered_le stream s maxCount)

/-- One pass: an offer of as much as is there and allowed, and a further pass
unless the sink refused it. -/
theorem writeLoop_pass (stream : IFiniteStream τ) (out : OStream σ) (passes : Nat)
    (s : τ) (maxCount : Nat) (t : σ × Bytes) (some : min (stream.size s) maxCount ≠ 0) :
    ∃ u : σ × Bytes, u.2 = t.2 ++ (stream.unread s).take (firstTaken stream out s maxCount t.1) ∧
      stream.writeLoop (recording out) (passes + 1) s maxCount t =
        if firstTaken stream out s maxCount t.1 = 0 then (0, behind stream out s maxCount t.1, u)
        else
          let more := stream.writeLoop (recording out) passes (behind stream out s maxCount t.1)
            (maxCount - firstTaken stream out s maxCount t.1) u
          (firstTaken stream out s maxCount t.1 + more.1, more.2) := by
  have cut :
      ((stream.unread s).take (min (stream.size s) maxCount)).take
      (firstTaken stream out s maxCount t.1) =
      (stream.unread s).take (firstTaken stream out s maxCount t.1) := by
    rw [List.take_take, Nat.min_eq_left (firstTaken_le stream out s maxCount t.1)]
  refine ⟨((recording out).writeSome t ((stream.unread s).take (min (stream.size s) maxCount))).2,
    ?_, ?_⟩
  · rw [← cut]
    rfl
  · simp only [IFiniteStream.writeLoop, some, ↓reduceIte]
    rfl

/-- What a sink and a stream that holds `contents` have of a call that moved `n`
bytes from one to the other. -/
structure Moves (contents : τ → Bytes) (s : τ) (maxCount : Nat) (t : σ × Bytes) (n : Nat)
    (result : Nat × τ × σ × Bytes) : Prop where
  count_le : n ≤ maxCount
  available : n ≤ (contents s).length
  delivered : result.2.2.2 = t.2 ++ (contents s).take n
  kept : contents result.2.1 = (contents s).drop n

/-- One pass after another, a stream delivers all it gives up. -/
theorem writeLoop_moves {stream : IFiniteStream τ} {contents : τ → Bytes} (shows : Shows stream contents)
    (out : OStream σ) (passes : Nat) (s : τ) (maxCount : Nat) (t : σ × Bytes) :
    Moves contents s maxCount t (stream.writeLoop (recording out) passes s maxCount t).1
      (stream.writeLoop (recording out) passes s maxCount t) := by
  have delivered := writeLoop_delivers (recording out) shows passes s maxCount t
  exact ⟨delivered.count_le, delivered.available, delivered.taken.logged Prod.snd (fun _ _ => rfl),
    delivered.kept⟩

/-- What no move changes survives the loop. -/
theorem writeLoop_keeps {α : Type} (stream : IFiniteStream τ) (out : OStream σ) (f : τ → α)
    (keeps : ∀ s rc count taken available, f (stream.advance s rc count taken available) = f s)
    (passes : Nat) (s : τ) (maxCount : Nat) (t : σ × Bytes) :
    f (stream.writeLoop (recording out) passes s maxCount t).2.1 = f s := by
  induction passes generalizing s maxCount t with
  | zero => rfl
  | succ passes ih =>
    simp only [IFiniteStream.writeLoop]
    split
    · rfl
    · split
      · exact keeps _ _ _ _ _
      · exact (ih _ _ _).trans (keeps _ _ _ _ _)

/-- A sink that has just refused an offer. -/
def Refused (out : OStream σ) (t : σ) : Prop :=
  ∃ before val, val ≠ [] ∧ out.writeSome before val = (0, t)

/-- A stream that moves by what was taken, and offers all it holds. -/
structure Exact (stream : IFiniteStream τ) : Prop where
  length : ∀ s, (stream.unread s).length = stream.size s
  unread : ∀ s rc count taken available,
    stream.unread (stream.advance s rc count taken available) = (stream.unread s).drop count

theorem Exact.size {stream : IFiniteStream τ} (exact : Exact stream) (s : τ) (rc count : Nat)
    (taken : count ≤ rc) (available : rc ≤ stream.size s) :
    stream.size (stream.advance s rc count taken available) = stream.size s - count := by
  rw [← exact.length, exact.unread, List.length_drop, exact.length]

theorem Exact.shows {stream : IFiniteStream τ} (exact : Exact stream) : Shows stream stream.unread where
  offered s := by rw [← exact.length, List.take_length]
  size_le s := Nat.le_of_eq (exact.length s).symm
  advance := exact.unread

theorem writeLoop_drains {stream : IFiniteStream τ} (exact : Exact stream) (out : OStream σ)
    (passes : Nat) (s : τ) (maxCount : Nat) (t : σ × Bytes) :
    Drains stream s maxCount t (stream.writeLoop (recording out) passes s maxCount t) := by
  have moves := writeLoop_moves exact.shows out passes s maxCount t
  have available := moves.available
  have left := congrArg List.length moves.kept
  rw [List.length_drop, exact.length, exact.length] at left
  rw [exact.length] at available
  exact ⟨moves.count_le, available, moves.delivered, moves.kept, by omega⟩

/-- With a pass for every byte the loop has come to its own end. -/
theorem writeLoop_settled (stream : IFiniteStream τ) (out : OStream σ) (measure : τ → Nat)
    (shrinks : ∀ s rc count taken available, count ≠ 0 →
      measure (stream.advance s rc count taken available) < measure s)
    (passes more : Nat) (s : τ) (maxCount : Nat) (t : σ × Bytes) (enough : measure s < passes) :
    stream.writeLoop (recording out) (passes + more) s maxCount t =
      stream.writeLoop (recording out) passes s maxCount t := by
  induction passes generalizing s maxCount t with
  | zero => omega
  | succ passes ih =>
    rw [Nat.add_right_comm]
    simp only [IFiniteStream.writeLoop]
    split
    · rfl
    · split
      · rfl
      · rename_i progress
        have less := shrinks s _ _ (IFiniteStream.taken_le (recording out) t (stream.unread s) _)
          (Nat.min_le_left _ maxCount) progress
        rw [ih _ _ _ (by omega)]

/-- The passes that `write_to` is given are enough: more of them change nothing. -/
theorem Exact.settled {stream : IFiniteStream τ} (exact : Exact stream)
    (out : OStream σ) (more : Nat) (s : τ) (maxCount : Nat) (t : σ × Bytes) :
    stream.writeLoop (recording out) (stream.size s + 1 + more) s maxCount t =
      stream.writeToMax s (recording out) maxCount t := by
  refine writeLoop_settled stream out stream.size ?_ _ more s maxCount t (Nat.lt_succ_self _)
  intro s rc count taken available some
  rw [exact.size]
  omega

end Sink

section Vector

theorem vector_exact : Exact IVectorStream.finite := by
  constructor
  · intro s
    simp [IVectorStream.finite, IVectorStream.unread, IVectorStream.size]
  · intro s rc count taken available
    simp [IVectorStream.finite, IVectorStream.unread, IVectorStream.advance]

theorem string_exact : Exact stringFinite := by
  constructor
  · intro s
    exact unread_length s
  · intro s rc count taken available
    exact unread_skip s count (Nat.le_trans taken available)

end Vector

section Memory
variable {σ : Type} (out : OStream σ)

/-- What a pass leaves of a memory stream: the pointer moved by what was taken,
the size by what was offered. -/
theorem memory_behind (s : IMemoryStream) (maxCount : Nat) (t : σ) :
    (behind IMemoryStream.finite out s maxCount t).size = s.size - min s.size maxCount := rfl

/-- The same for a memory stream. -/
theorem memory_settled (more : Nat) (s : IMemoryStream) (maxCount : Nat) (t : σ × Bytes) :
    IMemoryStream.finite.writeLoop (recording out) (s.size + 1 + more) s maxCount t =
      s.writeToMax (recording out) maxCount t := by
  refine writeLoop_settled IMemoryStream.finite out IMemoryStream.finite.size ?_ _ more s maxCount
    t (Nat.lt_succ_self _)
  intro s rc count taken available some
  have offered : IMemoryStream.finite.size (IMemoryStream.finite.advance s rc count taken available) =
    IMemoryStream.finite.size s - rc := rfl
  omega

/-- A memory stream never has more left than it should. -/
theorem memory_writeLoop_size (passes : Nat) (s : IMemoryStream) (maxCount : Nat) (t : σ × Bytes) :
    (IMemoryStream.finite.writeLoop (recording out) passes s maxCount t).2.1.size +
      (IMemoryStream.finite.writeLoop (recording out) passes s maxCount t).1 ≤ s.size := by
  induction passes generalizing s maxCount t with
  | zero => exact Nat.le_refl _
  | succ passes ih =>
    by_cases none : min (IMemoryStream.finite.size s) maxCount = 0
    · simp [IFiniteStream.writeLoop, none]
    · obtain ⟨u, -, pass⟩ := writeLoop_pass IMemoryStream.finite out passes s maxCount t none
      have taken : firstTaken IMemoryStream.finite out s maxCount t.1 ≤ min s.size maxCount :=
        firstTaken_le IMemoryStream.finite out s maxCount t.1
      have left := memory_behind out s maxCount t.1
      rw [pass]
      split
      · simp only
        omega
      · have next := ih (behind IMemoryStream.finite out s maxCount t.1)
          (maxCount - firstTaken IMemoryStream.finite out s maxCount t.1) u
        simp only
        omega

/-- An offer that was not taken whole makes a memory stream lose bytes. -/
theorem memory_loses (passes : Nat) (s : IMemoryStream) (maxCount : Nat) (t : σ × Bytes)
    (short : firstTaken IMemoryStream.finite out s maxCount t.1 < min s.size maxCount) :
    (IMemoryStream.finite.writeLoop (recording out) (passes + 1) s maxCount t).2.1.size +
      (IMemoryStream.finite.writeLoop (recording out) (passes + 1) s maxCount t).1 < s.size := by
  have some : min (IMemoryStream.finite.size s) maxCount ≠ 0 := Nat.ne_zero_of_lt short
  obtain ⟨u, -, pass⟩ := writeLoop_pass IMemoryStream.finite out passes s maxCount t some
  have left := memory_behind out s maxCount t.1
  rw [pass]
  split
  · simp only
    omega
  · have next := memory_writeLoop_size out passes (behind IMemoryStream.finite out s maxCount t.1)
      (maxCount - firstTaken IMemoryStream.finite out s maxCount t.1) u
    simp only
    omega

/-- A first offer that is taken whole is also the last one. -/
theorem memory_drains (passes : Nat) (s : IMemoryStream) (maxCount : Nat) (t : σ × Bytes)
    (whole : firstTaken IMemoryStream.finite out s maxCount t.1 = min s.size maxCount) :
    Drains IMemoryStream.finite s maxCount t
      (IMemoryStream.finite.writeLoop (recording out) (passes + 1) s maxCount t) := by
  by_cases none : min (IMemoryStream.finite.size s) maxCount = 0
  · simp only [IFiniteStream.writeLoop, none, ↓reduceIte]
    exact drains_none IMemoryStream.finite s maxCount t t.1
  · obtain ⟨u, logged, pass⟩ := writeLoop_pass IMemoryStream.finite out passes s maxCount t none
    have some : firstTaken IMemoryStream.finite out s maxCount t.1 ≠ 0 := by
      rw [whole]
      exact none
    have left := memory_behind out s maxCount t.1
    have done : min (IMemoryStream.finite.size (behind IMemoryStream.finite out s maxCount t.1))
        (maxCount - firstTaken IMemoryStream.finite out s maxCount t.1) = 0 := by
      have size : IMemoryStream.finite.size (behind IMemoryStream.finite out s maxCount t.1) =
        s.size - min s.size maxCount := left
      omega
    have stopped :
        IMemoryStream.finite.writeLoop (recording out) passes
        (behind IMemoryStream.finite out s maxCount t.1)
        (maxCount - firstTaken IMemoryStream.finite out s maxCount t.1) u =
          (0, behind IMemoryStream.finite out s maxCount t.1, u) := by
      cases passes with
      | zero => rfl
      | succ passes => simp only [IFiniteStream.writeLoop, done, ↓reduceIte]
    rw [pass, if_neg some, stopped]
    have size : IMemoryStream.finite.size s = s.size := rfl
    refine ⟨?_, ?_, logged, ?_, ?_⟩
    · simp only
      omega
    · simp only
      omega
    · have cut :
          (s.data.drop (firstTaken IMemoryStream.finite out s maxCount t.1)).take
          (s.si - min s.size maxCount) =
          (s.data.take s.si).drop (firstTaken IMemoryStream.finite out s maxCount t.1) := by
        rw [whole, List.drop_take]
      exact cut
    · have rest : IMemoryStream.finite.size (behind IMemoryStream.finite out s maxCount t.1) =
        s.size - min s.size maxCount := left
      simp only
      omega

end Memory

/-- Vector and string streams are drained without loss into every sink, a memory
stream exactly into those that take its first offer whole. -/
theorem write_to_drains_iff {σ : Type} (out : OStream σ) (t : σ) (maxCount : Nat)
    (memory : IMemoryStream) (vector : IVectorStream) (string : StringStream) :
    (Drains IMemoryStream.finite memory maxCount (t, [])
      (memory.writeToMax (recording out) maxCount (t, [])) ∧
      Drains IVectorStream.finite vector maxCount (t, [])
        (vector.writeToMax (recording out) maxCount (t, [])) ∧
      Drains stringFinite string maxCount (t, []) (string.writeToMax (recording out) maxCount (t, []))) ↔
      (out.writeSome t (memory.unread.take (min memory.size maxCount))).1 =
        min memory.size maxCount := by
  constructor
  · rintro ⟨drained, -, -⟩
    apply Classical.byContradiction
    intro short
    have taken := firstTaken_le IMemoryStream.finite out memory maxCount t
    have lost := memory_loses out memory.size memory maxCount (t, []) (Nat.lt_of_le_of_ne taken short)
    exact Nat.lt_irrefl _ (drained.size ▸ lost)
  · intro whole
    refine ⟨?_, ?_, ?_⟩
    · exact memory_drains out memory.size memory maxCount (t, []) whole
    · exact writeLoop_drains vector_exact out (vector.size + 1) vector maxCount (t, [])
    · have drained := writeLoop_drains string_exact out (string.size + 1) string maxCount (t, [])
      rwa [← string_writeLoop] at drained

/-- A sink that takes one byte at a time. -/
def oneByOne : OStream Unit where
  writeSome _ val := (min 1 val.length, ())
  bounded _ _ := Nat.min_le_right _ _

/-- Of two bytes in memory such a sink gets the first, and the second is gone. -/
theorem write_to_loses :
    ¬Drains IMemoryStream.finite ⟨str "ab", 2, by decide⟩ 2 ((), [])
      (IMemoryStream.writeToMax ⟨str "ab", 2, by decide⟩ (recording oneByOne) 2 ((), [])) := by
  intro drained
  have size := drained.size
  revert size
  decide

end Crablib.DrainProofs
