import Crablib.Http.BodyParser
import Crablib.Http.RequestParser
import Crablib.Http.ResponseParser
import Crablib.Http.WebMessageParser

/-! What the parsers leave of the bytes they are given: a suffix, and nothing
unless they are good. A connection relies on this when it parses its buffer
once and waits for more. -/
namespace Crablib.ParserProofs
open Http

/-- A parse that takes a prefix, and everything unless it ends good. -/
structure Parses {σ : Type} (good : σ → Bool) (bytes : Bytes) (result : σ × Bytes) : Prop where
  suffix : ∃ used, bytes = used ++ result.2
  all : good result.1 = false → result.2 = []

theorem scan_parses {σ : Type} {m : Scanner.Machine σ UInt8 Error} {s : σ}
    {bytes : Bytes} {result : σ × Bytes} (scanned : Scanner.scan m s bytes = .ok result) :
    Parses m.good bytes result where
  suffix := Scanner.rest_suffix scanned
  all := fun waiting => by
    cases left : result.2 with
    | nil => rfl
    | cons c rest =>
      have good := Scanner.good_of_rest scanned (by simp [left])
      simp [good] at waiting

section Body
open BodyParser

/-- The states that take bytes in blocks have bytes to take. -/
def Sound (p : BodyParser) : Prop :=
  p.state = .contentLengthBody ∨ p.state = .chunkBody → 0 < p.remainingBytes

theorem make_sound (contentLength : Option UInt64) (chunked : Bool) :
    Sound (make contentLength chunked) := by
  cases chunked with
  | true => simp [make, Sound]
  | false =>
    cases contentLength with
    | none => simp [make, Sound]
    | some length =>
      simp only [make, Sound, Bool.false_eq_true, ↓reduceIte]
      split
      · simp
      · omega

private theorem chunkHeader_sound {p q : BodyParser} {state : BodyParserState}
    (done : p.chunkHeader state = .ok q)
    (bytes : state = .contentLengthBody ∨ state = .chunkBody → 0 < p.remainingBytes) : Sound q := by
  cases done
  exact bytes

private theorem trailerByte_sound {p q : BodyParser} {state : BodyParserState}
    (done : p.trailerByte state = .ok q)
    (other : ¬(state = .contentLengthBody ∨ state = .chunkBody)) : Sound q := by
  cases done
  exact fun body => absurd body other

private theorem afterSize_bytes (p : BodyParser) :
    p.afterSize = .contentLengthBody ∨ p.afterSize = .chunkBody → 0 < p.remainingBytes := by
  unfold afterSize
  split
  · simp
  · rename_i some
    intro _
    omega

/-- Only the end of a size line starts a block, and only of a size that is not
zero. -/
private theorem consumeByte_sound {p q : BodyParser} {input : UInt8}
    (done : p.consumeByte input = .ok q) : Sound q := by
  unfold consumeByte at done
  split at done
  · cases done
  · split at done
    · cases done
    · split at done
      case h_1 =>
        split at done
        · exact chunkHeader_sound done (by simp)
        · split at done
          · exact chunkHeader_sound done (by simp)
          · split at done
            · exact chunkHeader_sound done (by simp)
            · cases done
      case h_2 =>
        split at done
        · cases done
        · exact chunkHeader_sound done (by simp)
      case h_3 =>
        split at done
        · exact chunkHeader_sound done (by simp)
        · split at done
          · cases done
          · exact chunkHeader_sound done (by simp)
      case h_4 =>
        split at done
        · exact chunkHeader_sound done (by simp)
        · split at done
          · exact chunkHeader_sound done (by simp)
          · split at done
            · exact chunkHeader_sound done (afterSize_bytes p)
            · split at done
              · cases done
              · split at done
                · cases done
                · exact chunkHeader_sound done (by simp)
      case h_5 =>
        split at done
        · exact chunkHeader_sound done (by simp)
        · split at done
          · exact chunkHeader_sound done (afterSize_bytes p)
          · exact chunkHeader_sound done (by simp)
      case h_6 =>
        split at done
        · cases done
        · exact chunkHeader_sound done (afterSize_bytes p)
      case h_7 =>
        split at done
        · exact trailerByte_sound done (by simp)
        · split at done
          · exact trailerByte_sound done (by simp)
          · split at done
            · cases done
            · exact trailerByte_sound done (by simp)
      case h_8 => split at done <;> exact trailerByte_sound done (by simp)
      case h_9 =>
        split at done
        · cases done
        · exact trailerByte_sound done (by simp)
      case h_10 =>
        split at done
        · cases done
        · exact trailerByte_sound done (by simp)
      case h_11 => cases done
      case h_12 => cases done
      case h_13 => cases done

theorem consume_progress {p q : BodyParser} {bytes rest : Bytes} (sound : Sound p) (some : bytes ≠ [])
    (done : p.consume bytes = .ok (q, rest)) : Sound q ∧ ∃ used, used ≠ [] ∧ bytes = used ++ rest := by
  have length : 0 < bytes.length := List.length_pos_iff.mpr some
  -- both block states take as much as they may
  have block : 0 < p.remainingBytes → ∃ used, used ≠ [] ∧
      bytes = used ++ bytes.drop (min bytes.length p.remainingBytes) := by
    intro left
    refine ⟨bytes.take (min bytes.length p.remainingBytes), ?_, (List.take_append_drop _ _).symm⟩
    intro none
    have := congrArg List.length none
    simp only [List.length_take, List.length_nil] at this
    omega
  simp only [consume] at done
  split at done
  · rename_i state
    cases done
    refine ⟨?_, block (sound (.inl state))⟩
    split
    · simp [Sound]
    · rename_i left
      intro _
      omega
  · rename_i state
    cases done
    refine ⟨?_, block (sound (.inr state))⟩
    split
    · simp [Sound]
    · rename_i left
      intro _
      omega
  · split at done
    · exact absurd rfl some
    · rename_i input rest'
      split at done
      · cases done
      · rename_i consumed
        cases done
        exact ⟨consumeByte_sound consumed, [input], by simp, rfl⟩

private theorem parseLoop_parses {passes : Nat} {p : BodyParser} {bytes : Bytes}
    {result : BodyParser × Bytes} (sound : Sound p) (enough : bytes.length ≤ passes)
    (done : parseLoop passes p bytes = .ok result) :
    Sound result.1 ∧ Parses isGood bytes result := by
  induction passes generalizing p bytes with
  | zero =>
    cases done
    have none : bytes = [] := List.length_eq_zero_iff.mp (Nat.le_zero.mp enough)
    exact ⟨sound, ⟨[], by simp⟩, fun _ => none⟩
  | succ passes ih =>
    unfold parseLoop at done
    split at done
    · rename_i stop
      cases done
      refine ⟨sound, ⟨[], by simp⟩, fun waiting => ?_⟩
      simpa [waiting] using stop
    · rename_i go
      split at done
      · cases done
      · rename_i q rest consumed
        have some : bytes ≠ [] := by
          rintro rfl
          simp at go
        obtain ⟨sound', used, taken, split⟩ := consume_progress sound some consumed
        have shorter : rest.length ≤ passes := by
          have := congrArg List.length split
          have := List.length_pos_iff.mpr taken
          simp only [List.length_append] at *
          omega
        obtain ⟨sound'', ⟨used', split'⟩, all⟩ := ih sound' shorter done
        exact ⟨sound'', ⟨used ++ used', by rw [split, split', List.append_assoc]⟩, all⟩

theorem body_parses {p : BodyParser} {bytes : Bytes} {result : BodyParser × Bytes} (sound : Sound p)
    (done : p.parse bytes = .ok result) : Sound result.1 ∧ Parses isGood bytes result :=
  parseLoop_parses sound (Nat.le_refl _) done

end Body
end Crablib.ParserProofs
