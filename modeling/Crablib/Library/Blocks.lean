import Mathlib.Init

/-! Lists cut in blocks of one size. A list that is taken in piece by piece is cut
where the whole list is, if what a piece leaves over goes before the next one. -/
namespace Crablib.Blocks

variable {α : Type} {size : Nat}

/-- The whole blocks of a list, in order. -/
def cut (size : Nat) (xs : List α) : List (List α) :=
  (List.range (xs.length / size)).map fun i => (xs.drop (i * size)).take size

/-- What is left behind the last whole block. -/
def leftOver (size : Nat) (xs : List α) : List α := xs.drop (xs.length / size * size)

theorem leftOver_length (xs : List α) : (leftOver size xs).length = xs.length % size := by
  rw [leftOver, List.length_drop, Nat.mul_comm]
  exact (Nat.mod_eq_sub_mul_div).symm

theorem cut_short {xs : List α} (short : xs.length < size) : cut size xs = [] := by
  rw [cut, Nat.div_eq_of_lt short, List.range_zero, List.map_nil]

theorem leftOver_short {xs : List α} (short : xs.length < size) : leftOver size xs = xs := by
  rw [leftOver, Nat.div_eq_of_lt short, Nat.zero_mul, List.drop_zero]

/-- Whole blocks are cut off before whatever follows. -/
theorem cut_append_whole {count : Nat} {xs : List α} (ys : List α) (positive : 0 < size)
    (whole : xs.length = count * size) :
    cut size (xs ++ ys) = cut size xs ++ cut size ys := by
  have blocks : (xs ++ ys).length / size = count + ys.length / size := by
    rw [List.length_append, whole, Nat.mul_comm, Nat.mul_add_div positive]
  rw [cut, blocks, List.range_add, List.map_append, List.map_map]
  rw [cut, whole, Nat.mul_div_cancel _ positive]
  congr 1
  · apply List.map_congr_left
    intro i inside
    have within : i * size + size ≤ xs.length := by
      rw [whole, ← Nat.succ_mul]
      exact Nat.mul_le_mul_right size (List.mem_range.mp inside)
    rw [List.drop_append_of_le_length (by omega),
      List.take_append_of_le_length (by rw [List.length_drop]; omega)]
  · apply List.map_congr_left
    intro i _
    simp only [Function.comp_apply, Nat.add_mul, ← whole, List.drop_append, Nat.add_sub_cancel_left]
    rw [List.drop_eq_nil_of_le (Nat.le_add_right ..), List.nil_append]

theorem leftOver_append_whole {count : Nat} {xs : List α} (ys : List α) (positive : 0 < size)
    (whole : xs.length = count * size) :
    leftOver size (xs ++ ys) = leftOver size ys := by
  have blocks : (xs ++ ys).length / size * size = xs.length + ys.length / size * size := by
    rw [List.length_append, whole, Nat.mul_comm count, Nat.mul_add_div positive,
      Nat.add_mul, Nat.mul_comm count]
  rw [leftOver, blocks, List.drop_append, List.drop_eq_nil_of_le (Nat.le_add_right ..), List.nil_append,
    Nat.add_sub_cancel_left, leftOver]

/-- One block in front is the first that is cut. -/
theorem cut_block {block : List α} (ys : List α) (positive : 0 < size) (full : block.length = size) :
    cut size (block ++ ys) = block :: cut size ys := by
  have whole : block.length = 1 * size := by rw [full, Nat.one_mul]
  rw [cut_append_whole ys positive whole]
  rw [cut, full, Nat.div_self positive, List.range_one, List.map_singleton, Nat.zero_mul, List.drop_zero,
    List.take_of_length_le (Nat.le_of_eq full), List.singleton_append]

theorem leftOver_block {block : List α} (ys : List α) (positive : 0 < size)
    (full : block.length = size) :
    leftOver size (block ++ ys) = leftOver size ys :=
  have whole : block.length = 1 * size := by rw [full, Nat.one_mul]
  leftOver_append_whole ys positive whole

/-- What fills up a block that was begun ends it. -/
private theorem fill_split {begun : List α} (xs : List α) (enough : size ≤ begun.length + xs.length)
    (fits : begun.length ≤ size) :
    begun ++ xs = (begun ++ xs.take (size - begun.length)) ++ xs.drop (size - begun.length) ∧
      (begun ++ xs.take (size - begun.length)).length = size := by
  constructor
  · rw [List.append_assoc, List.take_append_drop]
  · rw [List.length_append, List.length_take]
    omega

theorem cut_fill {begun xs : List α} (positive : 0 < size)
    (enough : size ≤ begun.length + xs.length) (fits : begun.length ≤ size) :
    cut size (begun ++ xs) = (begun ++ xs.take (size - begun.length)) ::
      cut size (xs.drop (size - begun.length)) := by
  obtain ⟨split, full⟩ := fill_split xs enough fits
  rw [split, cut_block _ positive full]

theorem leftOver_fill {begun xs : List α} (positive : 0 < size)
    (enough : size ≤ begun.length + xs.length) (fits : begun.length ≤ size) :
    leftOver size (begun ++ xs) = leftOver size (xs.drop (size - begun.length)) := by
  obtain ⟨split, full⟩ := fill_split xs enough fits
  rw [split, leftOver_block _ positive full]

private theorem front (xs : List α) (positive : 0 < size) :
    ∃ blocks, xs = blocks ++ leftOver size xs ∧ blocks.length = xs.length / size * size ∧
      cut size xs = cut size blocks := by
  have split : xs = xs.take (xs.length / size * size) ++ leftOver size xs :=
    (List.take_append_drop ..).symm
  have whole : (xs.take (xs.length / size * size)).length = xs.length / size * size := by
    rw [List.length_take, Nat.min_eq_left (Nat.div_mul_le_self ..)]
  refine ⟨_, split, whole, ?_⟩
  have short : (leftOver size xs).length < size := by
    rw [leftOver_length]
    exact Nat.mod_lt _ positive
  conv => lhs; rw [split, cut_append_whole _ positive whole, cut_short short, List.append_nil]

/-- Only what was left over matters to what comes next. -/
theorem cut_append (xs ys : List α) (positive : 0 < size) :
    cut size (xs ++ ys) = cut size xs ++ cut size (leftOver size xs ++ ys) := by
  obtain ⟨blocks, split, whole, same⟩ := front xs positive
  rw [same]
  conv => lhs; rw [split, List.append_assoc, cut_append_whole _ positive whole]

theorem leftOver_append (xs ys : List α) (positive : 0 < size) :
    leftOver size (xs ++ ys) = leftOver size (leftOver size xs ++ ys) := by
  obtain ⟨blocks, split, whole, -⟩ := front xs positive
  conv => lhs; rw [split, List.append_assoc, leftOver_append_whole _ positive whole]

end Crablib.Blocks
