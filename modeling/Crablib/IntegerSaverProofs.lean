import Crablib.IntegerSaver
import Crablib.NumeralProofs

/-! Numbers printed by `IntegerSaver`. The recursion over the limits of a type counts
the characters of their texts, no number of the type has more, so the buffer has
room for all digits and the guards of the loops never come to count. -/
namespace Crablib.IntegerSaverProofs
open Http IntegerProofs NumeralProofs IntegerSaver

theorem signed_tdiv (negative : Bool) (n : Nat) :
    (signed negative n).tdiv 10 = signed negative (n / 10) := by
  cases negative with
  | false => exact (Int.ofNat_tdiv n 10).symm
  | true => exact Int.neg_tdiv (n : Int) 10

theorem signed_tmod (negative : Bool) (n : Nat) :
    (signed negative n).tmod 10 = signed negative (n % 10) := by
  cases negative with
  | false => exact (Int.ofNat_tmod n 10).symm
  | true => exact Int.neg_tmod (n : Int) 10

section Sizes

theorem decimal_length_pos (n : Nat) : 0 < (decimal n).length := by
  obtain ⟨c, rest, split, -⟩ := decimal_digits n
  rw [split]
  exact Nat.zero_lt_succ _

/-- The text of a number grows with it. -/
theorem decimal_length_mono {m n : Nat} (le : m ≤ n) : (decimal m).length ≤ (decimal n).length := by
  induction n using Nat.strongRecOn generalizing m with
  | ind n ih =>
    by_cases small : m < 10
    · rw [decimal_small small]
      exact decimal_length_pos n
    · have shorter := ih (n / 10) (by omega) (Nat.div_le_div_right (c := 10) le)
      rw [decimal_large (n := m) (by omega), decimal_large (n := n) (by omega),
        List.length_append, List.length_append]
      exact Nat.add_le_add_right shorter 1

/-- The recursion counts digits, and one more character for a sign. -/
theorem maxToStringLengthImpl_eq {isSigned negative : Bool} {n : Nat}
    (signs : negative = true → isSigned = true ∧ 0 < n) :
    maxToStringLengthImpl isSigned (signed negative n) = (decimal n).length + negative.toNat := by
  induction n using Nat.strongRecOn with
  | ind n ih =>
    rw [maxToStringLengthImpl, signed_tdiv]
    cases negative with
    | false =>
      simp only [signed, Bool.false_eq_true, if_false, Bool.toNat_false, Nat.add_zero]
      by_cases small : n < 10
      · rw [if_pos (by omega), decimal_small small, List.length_singleton]
      · have shorter := ih (n / 10) (by omega) (by simp)
        simp only [signed, Bool.false_eq_true, if_false, Bool.toNat_false, Nat.add_zero] at shorter
        rw [if_neg (by omega), if_neg (by omega), shorter, decimal_large (n := n) (by omega),
          List.length_append, Nat.add_comm, List.length_singleton]
    | true =>
      obtain ⟨isSigned_, positive⟩ := signs rfl
      simp only [signed, if_true, Bool.toNat_true]
      rw [if_neg (by omega)]
      by_cases small : n < 10
      · rw [if_pos ⟨isSigned_, by omega, by omega⟩, decimal_small small, List.length_singleton]
      · have shorter := ih (n / 10) (by omega) (fun _ => ⟨isSigned_, by omega⟩)
        simp only [signed, if_true, Bool.toNat_true] at shorter
        rw [if_neg (by omega), shorter, decimal_large (n := n) (by omega), List.length_append,
          List.length_singleton]
        omega

end Sizes

section Buffer
variable {t : IntType}

private theorem signed_limit (standard : Standard t) {negative : Bool}
    (signs : negative = true → t.signed = true) :
    signed negative (limit t negative) = if negative then t.min else t.max := by
  obtain ⟨bits, isSigned⟩ := t
  unfold Standard at standard
  simp only at standard signs
  unfold signed limit IntType.min IntType.max
  rcases standard with rfl | rfl | rfl | rfl <;> cases isSigned <;> cases negative <;> simp at signs ⊢

/-- The limits of a type as its numbers with most characters. -/
private theorem impl_limit (standard : Standard t) {negative : Bool}
    (signs : negative = true → t.signed = true) :
    (decimal (limit t negative)).length + negative.toNat ≤ bufSize t := by
  have positive : negative = true → t.signed = true ∧ 0 < limit t negative := by
    intro isNegative
    have room := safe_room standard signs
    have power : 0 < 10 ^ (t.size * 2) := Nat.pow_pos (by decide)
    exact ⟨signs isNegative, by omega⟩
  rw [← maxToStringLengthImpl_eq positive, signed_limit standard signs]
  cases negative with
  | false => exact Nat.le_max_left ..
  | true => exact Nat.le_max_right ..

/-- Every number of a type fits the buffer of its type. -/
theorem text_fits (standard : Standard t) {negative : Bool}
    (signs : negative = true → t.signed = true) {n : Nat} (within : n ≤ limit t negative) :
    (decimal n).length + negative.toNat ≤ bufSize t :=
  Nat.le_trans (Nat.add_le_add_right (decimal_length_mono within) _) (impl_limit standard signs)

end Buffer

private theorem digit_char (negative : Bool) {d : Nat} (small : d < 10) :
    UInt8.ofNat (if negative then 48 - signed negative d else 48 + signed negative d).toNat =
      digit d := by
  have all : ∀ negative : Bool, ∀ d : Fin 10,
      UInt8.ofNat (if negative then 48 - signed negative d.val
      else 48 + signed negative d.val).toNat = digit d := by decide
  exact all negative ⟨d, small⟩

/-- A character put before an index lies between what is before and behind it. -/
private theorem store_before {buffer : Bytes} {p : Nat} (c : UInt8) (positive : 0 < p)
    (inside : p ≤ buffer.length) :
    store buffer (p - 1) c = some (buffer.take (p - 1) ++ c :: buffer.drop p) := by
  rw [store, if_pos (by omega), List.set_eq_take_append_cons_drop, if_pos (by omega),
    Nat.sub_add_cancel positive]

/-- With room for its text before the index, a number is written in full right
before it: nothing is left of it, and the rest of the buffer is untouched. -/
theorem saveDigits_eq (negative : Bool) {n p : Nat} {buffer : Bytes}
    (room : (decimal n).length + negative.toNat ≤ p) (inside : p ≤ buffer.length) :
    saveDigits negative (signed negative n) p buffer =
      some (0, p - (decimal n).length,
        buffer.take (p - (decimal n).length) ++ decimal n ++ buffer.drop p) := by
  induction n using Nat.strongRecOn generalizing p buffer with
  | ind n ih =>
    have positive := decimal_length_pos n
    have index : decrement p = p - 1 := by rw [decrement, if_neg (by omega)]
    rw [saveDigits]
    simp only [index, signed_tmod, digit_char negative (Nat.mod_lt n (Nat.zero_lt_succ 9)), signed_tdiv,
      store_before (p := p) (digit (n % 10)) (by omega) inside]
    by_cases small : n < 10
    · have last : signed negative (n / 10) = 0 := by
        rw [Nat.div_eq_of_lt small]
        exact signed_eq_zero.mpr rfl
      rw [if_neg fun more => more.1 last, last, decimal_small small, List.length_singleton,
        Nat.mod_eq_of_lt small, List.append_assoc, List.singleton_append]
    · have shorter := decimal_length_pos (n / 10)
      have digits := decimal_large (n := n) (by omega)
      have length : (decimal n).length = (decimal (n / 10)).length + 1 := by
        rw [digits, List.length_append, List.length_singleton]
      -- there are digits to come, so there is room before the index at which the loop gives up
      have more : signed negative (n / 10) ≠ 0 ∧ p - 1 ≠ if negative then 1 else 0 := by
        refine ⟨fun zero => ?_, ?_⟩
        · have := signed_eq_zero.mp zero
          omega
        · cases negative <;> simp at room ⊢ <;> omega
      have front : (buffer.take (p - 1)).length = p - 1 := by
        rw [List.length_take, Nat.min_eq_left (by omega)]
      have next := @ih (n / 10) (by omega) (p - 1)
        (buffer.take (p - 1) ++ digit (n % 10) :: buffer.drop p) (by omega)
         (by rw [List.length_append]; omega)
      rw [if_pos more, next, List.take_append_of_le_length (by omega), List.take_take,
        Nat.min_eq_left (by omega)]
      have index : p - (decimal n).length = p - 1 - (decimal (n / 10)).length := by omega
      rw [List.drop_left' front, index, digits]
      simp only [List.append_assoc, List.singleton_append]

section Saved
variable {t : IntType} {v : Int}

private theorem sign_cases (standard : Standard t) (representable : Representable t v) :
    ∃ negative n, v = signed negative n ∧ negative = decide (v < 0) ∧
      (negative = true → t.signed = true) ∧ n ≤ limit t negative ∧
      decimalInt v = (if negative then [ch '-'] else []) ++ decimal n := by
  have value : v = signed (decide (v < 0)) v.natAbs := by
    unfold signed
    by_cases below : v < 0
    · simp only [below, decide_true, if_true]
      omega
    · simp only [below, decide_false, Bool.false_eq_true, if_false]
      omega
  have within : v.natAbs ≤ limit t (decide (v < 0)) := by
    apply (signed_within standard _ _).mp
    rwa [← value]
  refine ⟨decide (v < 0), v.natAbs, value, rfl, fun negative => ?_, within, ?_⟩
  · have least := representable.1
    have below := of_decide_eq_true negative
    unfold IntType.min at least
    cases isSigned : t.signed with
    | true => rfl
    | false =>
      simp only [isSigned, Bool.false_eq_true, if_false] at least
      omega
  · unfold decimalInt
    by_cases below : v < 0
    · simp only [below, decide_true, if_true, List.singleton_append]
    · simp only [below, decide_false, Bool.false_eq_true, if_false, List.nil_append]
      congr 1
      omega

/-- What the constructor leaves: the text of the number, up to the end of the buffer. -/
theorem new_eq (standard : Standard t) (representable : Representable t v) {memory : Bytes}
    (size : memory.length = bufSize t) :
    (decimalInt v).length ≤ bufSize t ∧
      new t v memory = some ⟨bufSize t - (decimalInt v).length,
        memory.take (bufSize t - (decimalInt v).length) ++ decimalInt v⟩ := by
  obtain ⟨negative, n, value, sign, signs, within, text⟩ := sign_cases standard representable
  have fits := text_fits standard signs within
  have saved := saveDigits_eq negative fits (Nat.le_of_eq size.symm)
  rw [← value, ← size, List.drop_length, List.append_nil, size] at saved
  cases negative with
  | false =>
    have kept : ¬(t.signed = true ∧ v < 0) := fun both => of_decide_eq_false sign.symm both.2
    simp only [Bool.false_eq_true, if_false, List.nil_append] at text
    rw [text, new, if_neg kept, saved]
    exact ⟨by simpa using fits, rfl⟩
  | true =>
    have below : t.signed = true ∧ v < 0 := ⟨signs rfl, of_decide_eq_true sign.symm⟩
    simp only [if_true, List.singleton_append] at text
    simp only [Bool.toNat_true] at fits
    have index : decrement (bufSize t - (decimal n).length) = bufSize t - (decimal n).length - 1 := by
      rw [decrement, if_neg (by omega)]
    have front :
        (memory.take (bufSize t - (decimal n).length)).length = bufSize t - (decimal n).length := by
      rw [List.length_take, Nat.min_eq_left (by omega)]
    have inside :
        bufSize t - (decimal n).length ≤
        (memory.take (bufSize t - (decimal n).length) ++ decimal n).length := by
      rw [List.length_append]
      omega
    have stored := store_before (ch '-') (by omega) inside
    rw [List.take_append_of_le_length (by omega), List.take_take, Nat.min_eq_left (by omega),
      List.drop_left' front] at stored
    rw [text, new, if_pos below, saved]
    refine ⟨by rw [List.length_cons]; omega, ?_⟩
    simp only [bind, Option.bind, index, stored, List.length_cons, ← Nat.sub_sub]
    rfl

end Saved

/-- A number of any type is printed inside the buffer, in full and as its decimal
text, and it is read back. -/
theorem integer_saver_exact {t : IntType} (standard : Standard t) {v : Int}
    (representable : Representable t v) {memory : Bytes} (uninitialized : memory.length = bufSize t) :
    (∃ p buffer, saveDigits (decide (v < 0)) v (bufSize t) memory = some (0, p, buffer)) ∧
      ∃ saver, new t v memory = some saver ∧ saver.pos ≤ bufSize t ∧ saver.text t = decimalInt v ∧
        integerParse t (saver.text t) = .ok v := by
  obtain ⟨negative, n, value, sign, signs, within, text⟩ := sign_cases standard representable
  obtain ⟨fits, saved⟩ := new_eq standard representable uninitialized
  have front :
      (memory.take (bufSize t - (decimalInt v).length)).length = bufSize t - (decimalInt v).length := by
    rw [List.length_take, Nat.min_eq_left (by omega)]
  have printed : (IntegerSaver.mk (bufSize t - (decimalInt v).length)
      (memory.take (bufSize t - (decimalInt v).length) ++ decimalInt v)).text t = decimalInt v := by
    rw [IntegerSaver.text, List.drop_left' front, Nat.sub_sub_self fits, List.take_length]
  refine ⟨?_, _, saved, Nat.sub_le .., printed, ?_⟩
  · have digits := saveDigits_eq negative (text_fits standard signs within)
      (Nat.le_of_eq uninitialized.symm)
    rw [← value, sign] at digits
    exact ⟨_, _, digits⟩
  · rw [printed]
    refine (integerParse_ok_iff standard _ _).mpr ⟨?_, representable⟩
    refine ⟨[], if negative then [ch '-'] else [], decimal n,
      [], by simp [text], by simp [IsSpace], ?_, isBody_decimal n, by simp [IsSpace], ?_⟩
    · cases negative with
      | false => exact .inl rfl
      | true => exact .inr (.inr ⟨rfl, signs rfl⟩)
    · rw [valueFrom_decimal, value]
      cases negative <;> simp

/-- The least number of eight bits. -/
theorem integer_saver_least :
    (∃ p buffer, saveDigits (decide ((-128 : Int) < 0)) (-128) (bufSize ⟨8, true⟩)
      (List.replicate (bufSize ⟨8, true⟩) 0) =
        some (0, p, buffer)) ∧
      ∃ saver, new ⟨8, true⟩ (-128) (List.replicate (bufSize ⟨8, true⟩) 0) = some saver ∧
      saver.pos ≤ bufSize ⟨8, true⟩ ∧
        saver.text ⟨8, true⟩ = decimalInt (-128) ∧
        integerParse ⟨8, true⟩ (saver.text ⟨8, true⟩) = .ok (-128) :=
  integer_saver_exact (.inl rfl) ⟨by decide, by decide⟩ List.length_replicate

end Crablib.IntegerSaverProofs
