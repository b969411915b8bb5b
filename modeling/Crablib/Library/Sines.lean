import Mathlib.Algebra.Order.Floor.Semiring
import Mathlib.Analysis.SpecialFunctions.Trigonometric.Basic

/-! Digits of the sines of whole numbers. The first radian is known well enough from
the exponential series; its powers are computed with whole numbers, and the error
grows with the exponent alone. -/
namespace Crablib.Sines
open Complex Finset

/-- The cosine and the sine of 1, times `10 ^ 20`. -/
def cosOne : Int := 54030230586813971740
def sinOne : Int := 84147098480789650665

noncomputable def radian : ℂ := (cosOne + sinOne * I) / 10 ^ 20

private theorem series (n : Nat) : ∑ m ∈ range (2 * n), I ^ m / (m.factorial : ℂ) =
    ((∑ k ∈ range n, (-1) ^ k / ((2 * k).factorial : ℝ) : ℝ) : ℂ) +
      ((∑ k ∈ range n, (-1) ^ k / ((2 * k + 1).factorial : ℝ) : ℝ) : ℂ) * I := by
  induction n with
  | zero => simp
  | succ n ih =>
    rw [Nat.mul_succ, sum_range_succ, sum_range_succ, ih, sum_range_succ, sum_range_succ,
      pow_succ, pow_mul, I_sq]
    push_cast
    ring

private theorem cos_near :
    |∑ k ∈ range 12, (-1) ^ k / ((2 * k).factorial : ℝ) - cosOne / 10 ^ 20| ≤ 1 / 10 ^ 20 := by
  simp only [sum_range_succ, range_zero, sum_empty, Nat.factorial, cosOne]
  rw [abs_le]
  constructor <;> norm_num

private theorem sin_near :
    |∑ k ∈ range 12, (-1) ^ k / ((2 * k + 1).factorial : ℝ) - sinOne / 10 ^ 20| ≤ 1 / 10 ^ 20 := by
  simp only [sum_range_succ, range_zero, sum_empty, Nat.factorial, sinOne]
  rw [abs_le]
  constructor <;> norm_num

private theorem radian_near : ‖exp I - radian‖ ≤ 1 / 10 ^ 19 := by
  have first := exp_bound (x := I) (by simp) (n := 24) (by omega)
  have second : ‖∑ m ∈ range (2 * 12), I ^ m / (m.factorial : ℂ) - radian‖ ≤ 2 / 10 ^ 20 := by
    have split : ∑ m ∈ range (2 * 12), I ^ m / (m.factorial : ℂ) - radian =
        ((∑ k ∈ range 12, (-1) ^ k / ((2 * k).factorial : ℝ) - cosOne / 10 ^ 20 : ℝ) : ℂ) +
          ((∑ k ∈ range 12, (-1) ^ k / ((2 * k + 1).factorial : ℝ) - sinOne / 10 ^ 20 : ℝ) : ℂ) * I := by
      rw [series, radian]
      push_cast
      ring
    rw [split]
    refine (norm_add_le _ _).trans ?_
    rw [norm_mul, norm_I, mul_one, norm_real, norm_real]
    have both := add_le_add cos_near sin_near
    simp only [Real.norm_eq_abs]
    linarith
  have joined := (norm_sub_le_norm_sub_add_norm_sub (exp I) (∑ m ∈ range 24,
    I ^ m / (m.factorial : ℂ)) radian).trans (add_le_add first second)
  refine joined.trans ?_
  simp only [norm_I, one_pow, Nat.factorial]
  norm_num

private theorem radian_parts :
    radian = ((cosOne / 10 ^ 20 : ℝ) : ℂ) + ((sinOne / 10 ^ 20 : ℝ) : ℂ) * I := by
  rw [radian]
  push_cast
  ring

private theorem radian_le : ‖radian‖ ≤ 1 := by
  refine (sq_le_one_iff₀ (norm_nonneg _)).mp ?_
  rw [← normSq_eq_norm_sq, radian_parts, normSq_add_mul_I, cosOne, sinOne]
  norm_num

/-- Powers of the approximate radian lose little. -/
private theorem powers_near (n : Nat) : ‖exp I ^ n - radian ^ n‖ ≤ n / 10 ^ 19 := by
  induction n with
  | zero => simp
  | succ n ih =>
    have split : exp I ^ (n + 1) - radian ^ (n + 1) = exp I ^ n * (exp I - radian) + radian *
      (exp I ^ n - radian ^ n) := by ring
    have unit : ‖exp I‖ = 1 := by simpa using norm_exp_ofReal_mul_I 1
    rw [split]
    refine (norm_add_le _ _).trans ?_
    rw [norm_mul, norm_mul, norm_pow, unit, one_pow, one_mul]
    have scaled : ‖radian‖ * ‖exp I ^ n - radian ^ n‖ ≤ 1 * (n / 10 ^ 19) :=
      mul_le_mul radian_le ih (norm_nonneg _) zero_le_one
    push_cast
    have near := radian_near
    rw [add_div]
    linarith

/-- The powers, times `10 ^ 20` for every factor. -/
def power : Nat → Int × Int
  | 0 => (1, 0)
  | n + 1 => ((power n).1 * cosOne - (power n).2 * sinOne, (power n).1 * sinOne + (power n).2 * cosOne)

private theorem radian_pow (n : Nat) :
    radian ^ n = (((power n).1 : ℂ) + (power n).2 * I) / (10 ^ 20) ^ n := by
  induction n with
  | zero => simp [power]
  | succ n ih =>
    rw [pow_succ, ih, radian, power, pow_succ, div_mul_div_comm]
    congr 1
    push_cast
    linear_combination ((power n).2 : ℂ) * sinOne * I_sq

/-- The sine of a whole number. -/
theorem sin_near_power (n : Nat) : |Real.sin n - (power n).2 / (10 ^ 20 : ℝ) ^ n| ≤ n / 10 ^ 19 := by
  have near := powers_near n
  have angle : exp I ^ n = exp (((n : ℝ) : ℂ) * I) := by
    rw [← exp_nat_mul, ofReal_natCast]
  have scaled :
      radian ^ n = (((power n).1 / (10 ^ 20) ^ n : ℝ) : ℂ) +
      (((power n).2 / (10 ^ 20) ^ n : ℝ) : ℂ) * I := by
    rw [radian_pow]
    push_cast
    ring
  have sine : (exp I ^ n - radian ^ n).im = Real.sin n - (power n).2 / (10 ^ 20 : ℝ) ^ n := by
    rw [angle, scaled, sub_im, exp_ofReal_mul_I_im, add_im, im_ofReal_mul, ofReal_im,
      I_im, mul_one, zero_add]
  rw [← sine]
  exact (abs_im_le_norm _).trans near

/-- A check on whole numbers that finds the digits. -/
def digitsOf (scale n digits : Nat) : Prop :=
  digits * (10 ^ 20) ^ n * 10 ^ 19 + scale * n * (10 ^ 20) ^ n ≤ scale * (power n).2.natAbs * 10 ^ 19 ∧
    scale * (power n).2.natAbs * 10 ^ 19 + scale * n * (10 ^ 20) ^ n < (digits + 1) *
      (10 ^ 20) ^ n * 10 ^ 19

instance (scale n digits : Nat) : Decidable (digitsOf scale n digits) :=
  inferInstanceAs (Decidable (_ ∧ _))

theorem floor_sin {scale n digits : Nat} (checked : digitsOf scale n digits) :
    ⌊(scale : ℝ) * |Real.sin n|⌋₊ = digits := by
  obtain ⟨low, high⟩ := checked
  have positive : (0 : ℝ) < (10 ^ 20) ^ n := by positivity
  have near : |(|Real.sin n| - (power n).2.natAbs / (10 ^ 20 : ℝ) ^ n)| ≤ n / 10 ^ 19 := by
    have size : ((power n).2.natAbs : ℝ) / (10 ^ 20) ^ n = |((power n).2 : ℝ) / (10 ^ 20) ^ n| := by
      rw [abs_div, abs_of_pos positive, Nat.cast_natAbs, Int.cast_abs]
    rw [size]
    exact (abs_abs_sub_abs_le _ _).trans (sin_near_power n)
  obtain ⟨below, above⟩ := abs_le.mp near
  have low' : (digits : ℝ) * (10 ^ 20) ^ n * 10 ^ 19 + scale * n * (10 ^ 20) ^ n ≤
      scale * (power n).2.natAbs * 10 ^ 19 := by
    exact_mod_cast low
  have high' : (scale : ℝ) * (power n).2.natAbs * 10 ^ 19 + scale * n * (10 ^ 20) ^ n <
      (digits + 1) * (10 ^ 20) ^ n * 10 ^ 19 := by
    exact_mod_cast high
  generalize hq : ((power n).2.natAbs : ℝ) / (10 ^ 20) ^ n = q at below above
  have value : ((power n).2.natAbs : ℝ) = q * (10 ^ 20) ^ n := by
    rw [← hq, div_mul_cancel₀ _ positive.ne']
  rw [value] at low' high'
  generalize ((10 : ℝ) ^ 20) ^ n = unit at positive low' high'
  have scaled : (0 : ℝ) ≤ scale := Nat.cast_nonneg scale
  have least : (digits : ℝ) + scale * (n / 10 ^ 19) ≤ scale * q := by
    refine le_of_mul_le_mul_right ?_ (mul_pos positive (by norm_num : (0 : ℝ) < 10 ^ 19))
    linarith
  have most : scale * q + scale * (n / 10 ^ 19) < (digits : ℝ) + 1 := by
    refine lt_of_mul_lt_mul_right ?_ (mul_pos positive (by norm_num : (0 : ℝ) < 10 ^ 19)).le
    linarith
  rw [Nat.floor_eq_iff (mul_nonneg scaled (abs_nonneg _))]
  constructor
  · have := mul_le_mul_of_nonneg_left below scaled
    linarith
  · have := mul_le_mul_of_nonneg_left above scaled
    linarith

end Crablib.Sines
