import Crablib.BufferProofs
import Crablib.Library.Run

/-! Two finite streams read one after the other. What arrives at the sink and what
stays in the streams is always right; the number `write_to` returns is not when one
call finishes the first stream and goes on with the second. -/
namespace Crablib.CombinedProofs
open DrainProofs

section Calls
variable {τ σ : Type}

/-- What `read_some` promises of a stream that holds `contents`: the first bytes of
it, none only when none are there or none were asked for. -/
structure ReadOff (contents : τ → Bytes) (s : τ) (count : Nat) (got : Bytes × τ) : Prop where
  count_le : got.1.length ≤ count
  front : contents s = got.1 ++ contents got.2
  some : got.1 = [] → contents s = [] ∨ count = 0

/-- An `IFiniteStream` that holds `contents` and whose calls do what they should, with
every sink. -/
structure Correct (calls : FiniteCalls τ) (contents : τ → Bytes) : Prop where
  size : ∀ s, calls.size s = (contents s).length
  read : ∀ s count, ReadOff contents s count (calls.readSome s count)
  write : ∀ {σ : Type} (out : OStream σ) s maxCount t,
    Moves contents s maxCount t (calls.writeTo (recording out) s maxCount t).1
      (calls.writeTo (recording out) s maxCount t)

theorem Correct.empty_iff {calls : FiniteCalls τ} {contents : τ → Bytes}
    (correct : Correct calls contents) (s : τ) :
    calls.empty s = true ↔ contents s = [] := by
  rw [FiniteCalls.empty, beq_iff_eq, correct.size, List.length_eq_zero_iff]

/-- A sink is told apart by the bytes it got, so only one number of bytes was moved. -/
theorem Moves.unique {contents : τ → Bytes} {s : τ} {maxCount n m : Nat} {t : σ × Bytes}
    {result : Nat × τ × σ × Bytes} (first : Moves contents s maxCount t n result)
    (second : Moves contents s maxCount t m result) : n = m := by
  have left := congrArg List.length (first.kept.symm.trans second.kept)
  have le := first.available
  have le' := second.available
  rw [List.length_drop, List.length_drop] at left
  omega

end Calls

section Instances

theorem vector_correct : Correct IVectorStream.calls IVectorStream.unread where
  size s := (vector_exact.length s).symm
  read s count := by
    have length : s.unread.length = s.size := vector_exact.length s
    have behind : (s.readSome count).2.unread = s.unread.drop (min count s.size) :=
      vector_exact.unread s _ _ (Nat.le_refl _) (Nat.min_le_right _ _)
    refine ⟨?_, ?_, ?_⟩
    · exact Nat.le_trans (List.length_take_le _ _) (Nat.min_le_left _ _)
    · refine Eq.trans ?_ (congrArg ((s.readSome count).1 ++ ·) behind.symm)
      exact (List.take_append_drop _ _).symm
    · intro none
      have taken := congrArg List.length none
      simp only [IVectorStream.calls, IVectorStream.readSome, List.length_take, length,
        List.length_nil] at taken
      rw [← List.length_eq_zero_iff, length]
      omega
  write out s maxCount t := writeLoop_moves vector_exact.shows out (s.size + 1) s maxCount t

theorem buffer_correct : Correct Buffer.calls StreamsProofs.contents where
  size b := (StreamsProofs.contents_length b).symm
  read b count := by
    have got := BufferProofs.readSome_bytes b count
    have kept := BufferProofs.readSome_contents b count
    have first := BufferProofs.readCount_le b
    have length := StreamsProofs.contents_length b
    refine ⟨?_, ?_, ?_⟩
    · simp only [Buffer.calls, got, List.length_take]
      omega
    · simp only [Buffer.calls, got, kept, List.take_append_drop]
    · intro none
      have taken := congrArg List.length (got.symm.trans none)
      rw [List.length_take, List.length_nil] at taken
      have nothing := BufferProofs.readCount_eq_zero b
      by_cases asked : count = 0
      · exact .inr asked
      · exact .inl (nothing.mp (by omega))
  write out b maxCount t := writeLoop_moves BufferProofs.buffer_shows out (b.size + 1) b maxCount t

end Instances

section Combined
variable {α β σ : Type} {first : FiniteCalls α} {second : FiniteCalls β} {contentsA : α → Bytes}
    {contentsB : β → Bytes}

/-- What two streams hold, one behind the other. -/
def joined (contentsA : α → Bytes) (contentsB : β → Bytes) (s : CombinedIStream α β) : Bytes :=
  contentsA s.a ++ contentsB s.b

/-- A call that finishes the first stream and goes on with the second one. -/
def Crosses (first : FiniteCalls α) (out : OStream σ) (s : CombinedIStream α β) (maxCount : Nat)
    (t : σ × Bytes) : Prop :=
  first.empty s.a = false ∧ first.empty (first.writeTo (recording out) s.a maxCount t).2.1 = true

instance (first : FiniteCalls α) (out : OStream σ) (s : CombinedIStream α β)
    (maxCount : Nat) (t : σ × Bytes) :
    Decidable (Crosses first out s maxCount t) := inferInstanceAs (Decidable (_ ∧ _))

/-- What the first stream wrote in a call that goes on with the second one. -/
def uncounted (first : FiniteCalls α) (out : OStream σ) (s : CombinedIStream α β) (maxCount : Nat)
    (t : σ × Bytes) : Nat :=
  if Crosses first out s maxCount t then (first.writeTo (recording out) s.a maxCount t).1 else 0

theorem combined_size (a_correct : Correct first contentsA) (b_correct : Correct second contentsB)
    (s : CombinedIStream α β) : s.size first second = (joined contentsA contentsB s).length := by
  rw [CombinedIStream.size, a_correct.size, b_correct.size, joined, List.length_append]

theorem combined_read (a_correct : Correct first contentsA) (b_correct : Correct second contentsB)
    (s : CombinedIStream α β) (count : Nat) :
    ReadOff (joined contentsA contentsB) s count (s.readSome first second count) := by
  unfold CombinedIStream.readSome
  cases empty : first.empty s.a with
  | false =>
    obtain ⟨le, front, some⟩ := a_correct.read s.a count
    refine ⟨le, ?_, ?_⟩
    · simp only [joined, front, Bool.not_false, ↓reduceIte, List.append_assoc]
    · intro none
      rcases some none with nothing | asked
      · rw [(a_correct.empty_iff s.a).mpr nothing] at empty
        cases empty
      · exact .inr asked
  | true =>
    have nothing := (a_correct.empty_iff s.a).mp empty
    obtain ⟨le, front, some⟩ := b_correct.read s.b count
    refine ⟨le, ?_, ?_⟩
    · simpa [joined, nothing] using front
    · intro none
      simpa [joined, nothing] using some none

/-- The bytes that a call moves are those of one stream, whatever it returns. -/
theorem combined_moves (a_correct : Correct first contentsA) (b_correct : Correct second contentsB)
    (out : OStream σ) (s : CombinedIStream α β) (maxCount : Nat) (t : σ × Bytes) :
    Moves (joined contentsA contentsB) s maxCount t
      (uncounted first out s maxCount t + (s.writeTo first second (recording out) maxCount t).1)
      (s.writeTo first second (recording out) maxCount t) := by
  by_cases empty : first.empty s.a = true
  · have nothing := (a_correct.empty_iff s.a).mp empty
    have none : uncounted first out s maxCount t = 0 := by simp [uncounted, Crosses, empty]
    have wrote : s.writeTo first second (recording out) maxCount t =
        ((second.writeTo (recording out) s.b maxCount t).1,
          ⟨s.a, (second.writeTo (recording out) s.b maxCount t).2.1⟩,
          (second.writeTo (recording out) s.b maxCount t).2.2) := by
      simp [CombinedIStream.writeTo, empty]
    obtain ⟨le, available, delivered, kept⟩ := b_correct.write out s.b maxCount t
    rw [none, wrote, Nat.zero_add]
    refine ⟨le, ?_, ?_, ?_⟩
    · simpa [joined, nothing] using available
    · simpa [joined, nothing] using delivered
    · simpa [joined, nothing] using kept
  · rw [Bool.not_eq_true] at empty
    obtain ⟨le, available, delivered, kept⟩ := a_correct.write out s.a maxCount t
    by_cases done : first.empty (first.writeTo (recording out) s.a maxCount t).2.1 = true
    · have nothing := (a_correct.empty_iff _).mp done
      have all : (first.writeTo (recording out) s.a maxCount t).1 = (contentsA s.a).length := by
        have left := congrArg List.length (nothing.symm.trans kept)
        rw [List.length_drop, List.length_nil] at left
        omega
      have some :
          uncounted first out s maxCount t = (first.writeTo (recording out) s.a maxCount t).1 :=
        if_pos ⟨empty, done⟩
      obtain ⟨le', available', delivered', kept'⟩ := b_correct.write out s.b
        (maxCount - (first.writeTo (recording out) s.a maxCount t).1)
        (first.writeTo (recording out) s.a maxCount t).2.2
      simp only [some, CombinedIStream.writeTo, empty, done, Bool.not_true, Bool.not_false,
        Bool.false_eq_true, ↓reduceIte]
      refine ⟨by omega, ?_, ?_, ?_⟩
      · simp only [joined, List.length_append]
        omega
      · have whole :
            (contentsA s.a).take (first.writeTo (recording out) s.a maxCount t).1 = contentsA s.a :=
          List.take_of_length_le (by omega)
        rw [joined, delivered', delivered, whole, List.append_assoc, all, List.take_length_add_append]
      · rw [joined, joined, nothing, kept', List.nil_append, all, List.drop_length_add_append]
    · rw [Bool.not_eq_true] at done
      have none : uncounted first out s maxCount t = 0 := by simp [uncounted, Crosses, done]
      simp only [none, CombinedIStream.writeTo, empty, done, Bool.not_false, ↓reduceIte, Nat.zero_add]
      refine ⟨le, ?_, ?_, ?_⟩
      · simp only [joined, List.length_append]
        omega
      · simp only [joined, delivered, List.take_append_of_le_length available]
      · simp only [joined, kept, List.drop_append_of_le_length available]

/-- A call of a finite stream, each with the sink it writes to. -/
inductive Call (σ : Type) where
  | read (count : Nat)
  | write (out : OStream σ) (maxCount : Nat) (t : σ × Bytes)

/-- A stream after a call. -/
def step (calls : FiniteCalls τ) (s : τ) : Call σ → τ
  | .read count => (calls.readSome s count).2
  | .write out maxCount t => (calls.writeTo (recording out) s maxCount t).2.1

/-- A call does what it should: it hands over the first bytes of what the stream
holds, returns their number, and the size drops by it. -/
def Kept (calls : FiniteCalls τ) (contents : τ → Bytes) (s : τ) : Call σ → Prop
  | .read count => ReadOff contents s count (calls.readSome s count) ∧
      calls.size (calls.readSome s count).2 + (calls.readSome s count).1.length = calls.size s
  | .write out maxCount t =>
      Moves contents s maxCount t (calls.writeTo (recording out) s maxCount t).1
        (calls.writeTo (recording out) s maxCount t) ∧
        calls.size (calls.writeTo (recording out) s maxCount t).2.1 +
          (calls.writeTo (recording out) s maxCount t).1 = calls.size s

/-- A call that does not finish the first stream with bytes still in it before. -/
def Apart (first : FiniteCalls α) (s : CombinedIStream α β) : Call σ → Prop
  | .read _ => True
  | .write out maxCount t => ¬Crosses first out s maxCount t

/-- One call returns what it should exactly when it does not cross over. -/
theorem kept_iff (a_correct : Correct first contentsA) (b_correct : Correct second contentsB)
    (s : CombinedIStream α β) (call : Call σ) :
    Kept (CombinedIStream.calls first second) (joined contentsA contentsB) s call ↔
      Apart first s call := by
  cases call with
  | read count =>
    have read := combined_read a_correct b_correct s count
    have total := congrArg List.length read.front
    rw [List.length_append, ← combined_size a_correct b_correct,
      ← combined_size a_correct b_correct] at total
    refine ⟨fun _ => trivial, fun _ => ⟨read, ?_⟩⟩
    simp only [CombinedIStream.calls]
    omega
  | write out maxCount t =>
    have moves := combined_moves a_correct b_correct out s maxCount t
    constructor
    · rintro ⟨kept, -⟩ crosses
      have same := Moves.unique moves kept
      have wrote := a_correct.write out s.a maxCount t
      have some : contentsA s.a ≠ [] := by
        intro nothing
        have empty := (a_correct.empty_iff s.a).mpr nothing
        exact Bool.noConfusion (crosses.1.symm.trans empty)
      have rest := wrote.kept
      rw [(a_correct.empty_iff _).mp crosses.2] at rest
      have left := congrArg List.length rest
      have length := List.length_pos_iff.mpr some
      rw [List.length_nil, List.length_drop] at left
      simp only [uncounted, crosses, ↓reduceIte, CombinedIStream.calls] at same
      omega
    · intro apart
      have none : uncounted first out s maxCount t = 0 := if_neg apart
      rw [none, Nat.zero_add] at moves
      refine ⟨moves, ?_⟩
      have left := congrArg List.length moves.kept
      have available := moves.available
      rw [List.length_drop, ← combined_size a_correct b_correct,
        ← combined_size a_correct b_correct] at left
      rw [← combined_size a_correct b_correct] at available
      simp only [CombinedIStream.calls]
      omega

end Combined

/-- In a sequence of calls every call does what it should exactly when none finishes
the first stream and goes on with the second. -/
theorem combined_kept_iff {α β σ : Type} {first : FiniteCalls α} {second : FiniteCalls β}
    {contentsA : α → Bytes} {contentsB : β → Bytes} (a_correct : Correct first contentsA)
    (b_correct : Correct second contentsB) (s : CombinedIStream α β) (sequence : List (Call σ)) :
    Run.Meets (step (CombinedIStream.calls first second))
        (Kept (CombinedIStream.calls first second) (joined contentsA contentsB)) s sequence ↔
      Run.Meets (step (CombinedIStream.calls first second)) (Apart first) s sequence :=
  Run.meets_congr (kept_iff a_correct b_correct) s sequence

/-- A sink that takes whatever it is offered. -/
def greedy : OStream Unit where
  writeSome _ val := (val.length, ())
  bounded _ _ := Nat.le_refl _

/-- Two short vectors, one behind the other. -/
def pairOfVectors : CombinedIStream IVectorStream IVectorStream :=
  ⟨{ rimpl := str "ab" }, { rimpl := str "cd" }⟩

/-- Read in steps that stop at the end of the first vector, they are one stream. -/
theorem combined_kept_apart :
    Run.Meets (step (CombinedIStream.calls IVectorStream.calls IVectorStream.calls))
      (Kept (CombinedIStream.calls IVectorStream.calls IVectorStream.calls)
        (joined IVectorStream.unread IVectorStream.unread))
      pairOfVectors [.write greedy 1 ((), []), .read 1, .write greedy 9 ((), [])] := by
  refine (combined_kept_iff vector_correct vector_correct pairOfVectors _).mpr ⟨?_, trivial, ?_, trivial⟩
  · change ¬Crosses _ _ _ _ _
    decide +kernel
  · change ¬Crosses _ _ _ _ _
    decide +kernel

/-- A call that writes all four bytes returns two. -/
theorem combined_miscounts :
    Correct IVectorStream.calls IVectorStream.unread ∧
      ¬Kept (CombinedIStream.calls IVectorStream.calls IVectorStream.calls)
        (joined IVectorStream.unread IVectorStream.unread)
        pairOfVectors (.write greedy 4 ((), [])) := by
  refine ⟨vector_correct, ?_⟩
  rintro ⟨-, size⟩
  revert size
  decide +kernel

end Crablib.CombinedProofs
