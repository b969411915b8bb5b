import Crablib.Http.Types
import Crablib.IntegerProofs

/-! Numbers as they are printed, and what the readers make of them: decimal ones
by `integer_cast` and by the header parsers, hexadecimal ones by the body parser. -/
namespace Crablib.NumeralProofs
open Http IntegerProofs

section Digits

/-- The digit `d` as a byte. -/
def digit (d : Nat) : UInt8 := ch d.digitChar

theorem decimal_small {n : Nat} (small : n < 10) : decimal n = [digit n] := by
  simp [decimal, Nat.toDigits_of_lt_base small, digit]

theorem decimal_large {n : Nat} (large : 10 ≤ n) : decimal n = decimal (n / 10) ++ [digit (n % 10)] := by
  simp [decimal, Nat.toDigits_of_base_le (by decide : 1 < 10) large, digit]

theorem decimalInt_nat (n : Nat) : decimalInt n = decimal n := by
  simp [decimalInt]

theorem hex_small {n : Nat} (small : n < 16) : hex n = [digit n] := by
  simp [hex, Nat.toDigits_of_lt_base small, digit]

theorem hex_large {n : Nat} (large : 16 ≤ n) : hex n = hex (n / 16) ++ [digit (n % 16)] := by
  simp [hex, Nat.toDigits_of_base_le (by decide : 1 < 16) large, digit]

theorem digit_decimal {d : Nat} (small : d < 10) : isDigit (digit d) = true ∧ digitOf (digit d) = d := by
  have all : ∀ d : Fin 10, isDigit (digit d) = true ∧ digitOf (digit d) = d := by decide
  exact all ⟨d, small⟩

theorem digit_hex {d : Nat} (small : d < 16) : fromHexDigit (digit d) = some d := by
  have all : ∀ d : Fin 16, fromHexDigit (digit d) = some d.val := by decide
  exact all ⟨d, small⟩

/-- A numeral is a first digit, zero only for zero, and digits. -/
theorem decimal_digits (n : Nat) :
    ∃ c rest, decimal n = c :: rest ∧ (∀ d ∈ c :: rest, isDigit d = true) ∧
      (digitOf c = 0 → n = 0 ∧ rest = []) := by
  induction n using Nat.strongRecOn with
  | ind n ih =>
    by_cases small : n < 10
    · obtain ⟨digits, value⟩ := digit_decimal small
      exact ⟨digit n, [], decimal_small small, by simp [digits], fun zero =>
        ⟨value.symm.trans zero, rfl⟩⟩
    · obtain ⟨c, rest, split, digits, leading⟩ := ih (n / 10) (by omega)
      refine ⟨c, rest ++ [digit (n % 10)], by rw [decimal_large (by omega), split]; rfl, ?_,
        fun zero => ?_⟩
      · intro d member
        rw [← List.cons_append] at member
        rcases List.mem_append.mp member with front | last
        · exact digits d front
        · rw [List.mem_singleton.mp last]
          exact (digit_decimal (by omega)).1
      · have := (leading zero).1
        omega

theorem valueFrom_decimal (n : Nat) : valueFrom 0 (decimal n) = n := by
  induction n using Nat.strongRecOn with
  | ind n ih =>
    by_cases small : n < 10
    · simp [decimal_small small, valueFrom, (digit_decimal small).2]
    · rw [decimal_large (by omega), valueFrom_append, ih (n / 10) (by omega)]
      simp only [valueFrom, List.foldl_cons, List.foldl_nil,
        (digit_decimal (show n % 10 < 10 by omega)).2]
      omega

end Digits

theorem isBody_decimal (n : Nat) : IsBody (decimal n) := by
  obtain ⟨c, rest, split, digits, leading⟩ := decimal_digits n
  by_cases zero : digitOf c = 0
  · obtain ⟨rfl, -⟩ := leading zero
    exact .inl (by decide)
  · exact .inr ⟨c, rest, split, zero, digits⟩

theorem denotes_decimal (t : IntType) (n : Nat) : Denotes t (decimal n) n := by
  refine ⟨[], [], decimal n, [], by simp, by simp [IsSpace], .inl rfl,
    isBody_decimal n, by simp [IsSpace], ?_⟩
  rw [valueFrom_decimal]
  rfl

/-- A printed number is read back. -/
theorem integerParse_decimal {n : Nat} (fits : n < 2 ^ 64) :
    integerParse .uint64 (decimal n) = .ok n := by
  have standard : Standard .uint64 := .inr (.inr (.inr rfl))
  refine (integerParse_ok_iff standard _ _).mpr ⟨denotes_decimal .uint64 n, ?_⟩
  exact (signed_within standard false n).mpr (Nat.le_sub_one_of_lt fits)

/-- Printed numbers are values. -/
theorem decimal_plain (n : Nat) : ∀ c ∈ decimal n, isCtl c = false ∧ isSp c = false := by
  obtain ⟨c, rest, split, digits, -⟩ := decimal_digits n
  rw [split]
  intro d member
  have all : ∀ d : UInt8, isDigit d = true → isCtl d = false ∧ isSp d = false := by
    refine byte_cases (P := fun d => isDigit d = true → isCtl d = false ∧ isSp d = false) ?_
    decide +kernel
  exact all d (digits d member)

end Crablib.NumeralProofs
