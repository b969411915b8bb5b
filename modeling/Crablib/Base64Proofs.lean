import Crablib.Crypto.Base64

/-! Base64 read back. The symbols of a group carry its bytes, so `decode` goes
through what `encode` made group by group, whatever follows. -/
namespace Crablib.Base64

/-- A text without the `=` at its end. -/
def unpadded (text : Bytes) : Bytes := (text.reverse.dropWhile (· == ch '=')).reverse

private theorem inverse_symbol (v : Nat) : inverse (symbol v) = v % 64 ∧ symbol v ≠ ch '=' := by
  have all : ∀ n : Fin 64, inverse (tab.getD n 0) = n ∧ tab.getD n 0 ≠ ch '=' := by decide +kernel
  exact all ⟨v % 64, Nat.mod_lt _ (by decide)⟩

/-- The values of symbols leave the bit clear by which `decode` knows others. -/
private theorem clear_mod (v : Nat) : (v % 64) &&& 64 = 0 := by
  have all : ∀ n : Fin 64, n.val &&& 64 = 0 := by decide
  exact all ⟨v % 64, Nat.mod_lt _ (by decide)⟩

private theorem clear_or {m n : Nat} (left : m &&& 64 = 0) (right : n &&& 64 = 0) :
    (m ||| n) &&& 64 = 0 := by
  rw [Nat.and_or_distrib_right, left, right, Nat.or_self]

private theorem ofNat_eq {n : Nat} {c : UInt8} (same : n % 256 = c.toNat) : UInt8.ofNat n = c := by
  apply UInt8.toNat_inj.mp
  rw [UInt8.toNat_ofNat', same]

/-- Four sextets make up the 24 bits they were taken from. -/
private theorem gathered {inc : Nat} (small : inc < 16777216) :
    inc / 262144 % 64 * 262144 + inc / 4096 % 64 * 4096 + inc / 64 % 64 * 64 + inc % 64 = inc := by
  omega

/-- A group whose symbols are all valid is read. -/
private theorem accepted {α : Type} {bits : Nat} {refused read : α} (clear : bits &&& 64 = 0) :
    (if bits &&& 64 ≠ 0 then refused else read) = read := if_neg fun bad => bad clear

/-- The first bytes of a group in the sum of its symbols. -/
private theorem bytes_found (a b : UInt8) {v : Nat} (sum : v / 256 = a.toNat * 256 + b.toNat) :
    UInt8.ofNat (v / 65536) = a ∧ UInt8.ofNat (v / 256) = b := by
  have := a.toNat_lt
  have := b.toNat_lt
  exact ⟨ofNat_eq (by omega), ofNat_eq (by omega)⟩

private theorem decodeGroups_group (a b c : UInt8) (rest : Bytes) {inc : Nat}
    (sum : inc = a.toNat * 65536 + b.toNat * 256 + c.toNat) :
    decodeGroups (symbol (inc / 262144) :: symbol (inc / 4096) ::
      symbol (inc / 64) :: symbol inc :: rest) =
      (a :: b :: c :: (decodeGroups rest).1, (decodeGroups rest).2) := by
  have := a.toNat_lt
  have := b.toNat_lt
  have := c.toNat_lt
  obtain ⟨first, second⟩ := bytes_found a b (v := inc) (by omega)
  have third : UInt8.ofNat inc = c := ofNat_eq (by omega)
  simp only [decodeGroups, (inverse_symbol _).1, if_neg (inverse_symbol _).2]
  rw [accepted (clear_or (clear_or (clear_or (clear_mod _) (clear_mod _)) (clear_mod _))
    (clear_mod _)), gathered (by omega), first, second, third]

/-- Two bytes are found in three symbols. -/
private theorem pair_found (a b : UInt8) {inc v : Nat} (sum : inc = a.toNat * 65536 + b.toNat * 256)
    (symbols : v = inc / 262144 % 64 * 262144 + inc / 4096 % 64 * 4096 + inc / 64 % 64 * 64) :
    UInt8.ofNat (v / 65536) = a ∧ UInt8.ofNat (v / 256) = b := by
  have small : inc < 16777216 := by have := a.toNat_lt; have := b.toNat_lt; omega
  have whole := gathered small
  exact bytes_found a b (by omega)

/-- One byte is found in two symbols. -/
private theorem byte_found (a : UInt8) {inc : Nat} (sum : inc = a.toNat * 65536) :
    UInt8.ofNat ((inc / 262144 % 64 * 262144 + inc / 4096 % 64 * 4096) / 65536) = a := by
  have := a.toNat_lt
  exact ofNat_eq (by omega)

/-- Whole groups, padded or not, are read back and the rest is read on. -/
theorem decodeGroups_encode (x rest : Bytes) :
    decodeGroups (encode x ++ rest) = (x ++ (decodeGroups rest).1, (decodeGroups rest).2) := by
  fun_induction encode x with
  | case1 a b c more inc ih =>
    simp only [List.cons_append]
    rw [decodeGroups_group a b c _ rfl, ih]
  | case2 a b inc =>
    obtain ⟨first, second⟩ := pair_found a b rfl rfl
    simp only [List.cons_append, List.nil_append, decodeGroups, (inverse_symbol _).1,
      if_neg (inverse_symbol _).2, if_true]
    rw [accepted (clear_or (clear_or (clear_mod _) (clear_mod _)) (clear_mod _)), first, second]
  | case3 a inc =>
    simp only [List.cons_append, List.nil_append, decodeGroups, (inverse_symbol _).1, if_true]
    rw [accepted (clear_or (clear_mod _) (clear_mod _)), byte_found a rfl]
  | case4 => rfl

private theorem unpadded_cons {c : UInt8} (text : Bytes) (symbol : c ≠ ch '=') :
    unpadded (c :: text) = c :: unpadded text := by
  unfold unpadded
  rw [List.reverse_cons, List.dropWhile_append]
  split
  · rename_i empty
    rw [List.isEmpty_iff.mp empty]
    simp [symbol]
  · simp

/-- What is left of a padded group is read by the tail that has its length. -/
theorem decodeGroups_unpadded (x : Bytes) : decodeGroups (unpadded (encode x)) = (x, true) := by
  fun_induction encode x with
  | case1 a b c more inc ih =>
    iterate 4 rw [unpadded_cons _ (inverse_symbol _).2]
    rw [decodeGroups_group a b c _ rfl, ih]
  | case2 a b inc =>
    obtain ⟨first, second⟩ := pair_found a b rfl rfl
    iterate 3 rw [unpadded_cons _ (inverse_symbol _).2]
    rw [show unpadded [ch '='] = [] from rfl]
    simp only [decodeGroups, (inverse_symbol _).1]
    rw [accepted (clear_or (clear_or (clear_mod _) (clear_mod _)) (clear_mod _)), first, second]
  | case3 a inc =>
    iterate 2 rw [unpadded_cons _ (inverse_symbol _).2]
    rw [show unpadded [ch '=', ch '='] = [] from rfl]
    simp only [decodeGroups, (inverse_symbol _).1]
    rw [accepted (clear_or (clear_mod _) (clear_mod _)), byte_found a rfl]
  | case4 => rfl

theorem encode_length (x : Bytes) : (encode x).length = encodedSize x.length := by
  unfold encodedSize
  fun_induction encode x with
  | case1 a b c more inc ih => simp only [List.length_cons, ih]; omega
  | _ => simp

/-- Three bytes at most are written for each group, malformed or not. -/
theorem decodeGroups_bounded (data : Bytes) :
    (decodeGroups data).1.length ≤ maxDecodedSize data.length := by
  unfold maxDecodedSize
  fun_induction decodeGroups data <;>
    simp +zetaDelta only [List.length_cons, List.length_nil] at * <;> omega

/-- The size check of the wrapper never throws: its answer is that of the groups. -/
theorem decode_eq (result data : Bytes) :
    decode result data = .ok (if (decodeGroups data).2 then (true, (decodeGroups data).1)
      else (false, result)) := by
  have fits := decodeGroups_bounded data
  unfold decode decodeSize
  cases finished : (decodeGroups data).2 with
  | false => simp [finished, bind, Except.bind]
  | true => simp [finished, Nat.not_lt.mpr fits, bind, Except.bind]

/-- Base64 texts are read back: alone, without their padding and one behind
another. What `encode` writes has the size foreseen, what `decode` writes never
exceeds its bound, and a refused text leaves the result alone. -/
theorem base64_round_trip (x y data result : Bytes) :
    encodeString x = .ok (encode x) ∧ (encode x).length = encodedSize x.length ∧
    decode result (encode x) = .ok (true, x) ∧
    decode result (unpadded (encode x)) = .ok (true, x) ∧
    decode result (encode x ++ encode y) = .ok (true, x ++ y) ∧
    (decodeGroups data).1.length ≤ maxDecodedSize data.length ∧
    (decode result data = .ok (true, (decodeGroups data).1) ∨
      decode result data = .ok (false, result)) := by
  have alone : ∀ text : Bytes, decodeGroups (encode text) = (text, true) := by
    intro text
    have read := decodeGroups_encode text []
    rwa [List.append_nil, show decodeGroups [] = ([], true) from rfl, List.append_nil] at read
  refine ⟨?_, encode_length x, ?_, ?_, ?_, decodeGroups_bounded data, ?_⟩
  · rw [encodeString, if_neg fun differs => differs (encode_length x)]
  · rw [decode_eq, alone]; rfl
  · rw [decode_eq, decodeGroups_unpadded]; rfl
  · rw [decode_eq, decodeGroups_encode, alone]; rfl
  · rw [decode_eq]
    split
    · exact .inl rfl
    · exact .inr rfl

end Crablib.Base64
