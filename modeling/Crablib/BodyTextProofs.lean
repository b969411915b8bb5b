import Crablib.ChunkProofs
import Crablib.NumeralProofs

/-! Bodies as a server connection writes them, and what the body parser makes of
them: a body whose length was announced, and one in a single chunk. -/
namespace Crablib.BodyTextProofs
open Http Scanner NumeralProofs BodyParser ParserProofs ChunkProofs

/-- A body of the announced length. -/
theorem parse_counted {length : UInt64} {body : Bytes} (same : length.toNat = body.length) :
    ∃ q, (make (some length) false).parse body = .ok (q, []) ∧ q.isGood = true ∧ q.body = body := by
  by_cases empty : body = []
  · subst empty
    have zero : length.toNat = 0 := same
    exact ⟨{}, by simp [make, zero, BodyParser.parse, parseLoop], rfl, rfl⟩
  · have some_ : body.length ≠ 0 := fun zero => empty (List.eq_nil_of_length_eq_zero zero)
    have start :
        make (some length) false = { state := .contentLengthBody, remainingBytes := body.length } := by
      simp [make, same, some_]
    refine ⟨{ state := .good, body := body }, ?_, rfl, rfl⟩
    rw [parse_scan (make_sound _ _), start, scan_block (.inl rfl) (Nat.pos_of_ne_zero some_)]
    simp [blockEnd, takeBody]

section Chunks

/-- The digits that are written spell the number that is meant. -/
theorem hex_spells (n : Nat) : IsSize (hex n) n := by
  induction n using Nat.strongRecOn with
  | ind n ih =>
    by_cases small : n < 16
    · rw [hex_small small]
      refine ⟨by simp, ?_, by simp [sizeFrom, digit_hex small]⟩
      intro c member
      rw [List.mem_singleton.mp member, digit_hex small]
      rfl
    · have front := ih (n / 16) (by omega)
      have last : n % 16 < 16 := Nat.mod_lt _ (by decide)
      rw [hex_large (by omega)]
      refine ⟨by simp, ?_, ?_⟩
      · intro c member
        rcases List.mem_append.mp member with member | member
        · exact front.digit c member
        · rw [List.mem_singleton.mp member, digit_hex last]
          rfl
      · have value : sizeFrom 0 (hex (n / 16)) = n / 16 := front.value
        rw [sizeFrom] at value
        rw [sizeFrom, List.foldl_append, value, List.foldl_cons, List.foldl_nil,
          digit_hex last, Option.getD_some]
        omega

theorem hex_length {digits n : Nat} (fits : n < 16 ^ (digits + 1)) : (hex n).length ≤ digits + 1 := by
  induction digits generalizing n with
  | zero =>
    rw [hex_small (by simpa using fits)]
    exact Nat.le_refl 1
  | succ digits ih =>
    by_cases small : n < 16
    · rw [hex_small small, List.length_singleton]
      omega
    · have front : n / 16 < 16 ^ (digits + 1) :=
        Nat.div_lt_of_lt_mul (by rw [Nat.mul_comm, ← Nat.pow_succ]; exact fits)
      have length := ih front
      rw [hex_large (by omega), List.length_append, List.length_singleton]
      omega

/-- A body as the chunks that are written for it. -/
private def singleChunk (body : Bytes) : Chunked where
  chunks := if body.length = 0 then [] else [({ digits := hex body.length }, body)]
  last := { digits := str "0" }
  trailers := []

theorem zero_spells : SizeLine.Spells { digits := str "0" } 0 :=
  ⟨⟨by decide, List.all_iff_forall_prop.mp (by decide), by decide⟩, .inl rfl, by simp⟩

private theorem singleChunk_valid {body : Bytes} (bound : body.length < 2 ^ 64) :
    (singleChunk body).Valid := by
  have few : (hex body.length).length ≤ 15 + 1 := hex_length (by simpa using bound)
  have trailing : (trailersText []).length ≤ maxTrailersTotalLength := by decide
  have last : ∀ before, before ≤ 2 → Fits before [{ digits := str "0" }] := by
    intro before first
    have one : (SizeLine.text { digits := str "0" }).length = 1 := rfl
    refine ⟨?_, trivial⟩
    rw [one, maxChunkHeaderTotalLength]
    omega
  by_cases empty : body.length = 0
  · have none : (singleChunk body).chunks = [] := if_pos empty
    exact ⟨by simp [none], zero_spells, by rw [none]; exact last 0 (by decide), by
      simp [singleChunk], trailing⟩
  · have one : (singleChunk body).chunks = [({ digits := hex body.length }, body)] := if_neg empty
    refine ⟨?_, zero_spells, ?_, by simp [singleChunk], trailing⟩
    · intro chunk member
      rw [one, List.mem_singleton] at member
      subst member
      exact ⟨fun none => empty (congrArg List.length none), bound, hex_spells _, .inl rfl, by simp⟩
    · rw [one]
      refine ⟨?_, last 2 (Nat.le_refl 2)⟩
      simp only [SizeLine.text, List.append_nil, maxChunkHeaderTotalLength]
      omega

/-- A body in one chunk, or none if it is empty. -/
theorem parse_chunked {body : Bytes} (bound : body.length < 2 ^ 64) :
    ∃ q, (make none true).parse
      ((if body.length = 0 then [] else hex body.length ++ crlf ++ body ++ crlf) ++ str "0\r\n\r\n") =
      .ok (q, []) ∧ q.isGood = true ∧ q.body = body := by
  obtain ⟨q, good, same, takes⟩ := takes_chunked (singleChunk body) (singleChunk_valid bound) none
  have last : str "0\r\n\r\n" = str "0" ++ crlf ++ crlf := rfl
  have text :
      (singleChunk body).text = (if body.length = 0 then []
      else hex body.length ++ crlf ++ body ++ crlf) ++ str "0\r\n\r\n" := by
    rw [last]
    by_cases empty : body.length = 0
    · simp [singleChunk, Chunked.text, trailersText, SizeLine.text, empty]
    · simp [singleChunk, Chunked.text, chunkText, trailersText, SizeLine.text, empty]
  have whole := takes []
  rw [List.append_nil, scan_nil, text] at whole
  refine ⟨q, (parse_scan (make_sound _ _) _).trans whole, good, ?_⟩
  rw [same, Chunked.body]
  by_cases empty : body.length = 0
  · simp [singleChunk, List.eq_nil_of_length_eq_zero empty]
  · simp [singleChunk, empty]

end Chunks

end Crablib.BodyTextProofs
