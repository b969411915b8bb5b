import Crablib.IntegerCast

/-! `IntegerSaver` of `integer_cast.hpp`: a number printed into a buffer whose size
is computed from the limits of its type. -/
namespace Crablib

/-- Division truncates, so the recursion ends from either side. -/
def maxToStringLengthImpl (isSigned : Bool) (value : Int) : Nat :=
  if value ≥ 0 ∧ value < 10 then 1
  else if isSigned ∧ value < 0 ∧ value > -10 then 2
  else 1 + maxToStringLengthImpl isSigned (value.tdiv 10)
termination_by value.natAbs
decreasing_by
  rw [Int.natAbs_tdiv]
  exact Nat.div_lt_self (by omega) (by decide)

def maxToStringLength (t : IntType) : Nat :=
  max (maxToStringLengthImpl t.signed t.max) (maxToStringLengthImpl t.signed t.min)

/-- `pos` is where the text starts in the buffer. -/
structure IntegerSaver where
  pos : Nat
  buffer : Bytes
  deriving DecidableEq, Repr

namespace IntegerSaver

def bufSize (t : IntType) : Nat := maxToStringLength t

/-- `--p` of a `size_t`. -/
def decrement (p : Nat) : Nat := if p = 0 then 2 ^ 64 - 1 else p - 1

/-- A write into the buffer; `none` where the stack would be corrupted. -/
def store (buffer : Bytes) (p : Nat) (c : UInt8) : Option Bytes :=
  if p < buffer.length then some (buffer.set p c) else none

/-- The loop over the digits: the value that is left, the index and the buffer. The
last index is kept free for the sign. -/
def saveDigits (negative : Bool) (value : Int) (p : Nat) (buffer : Bytes) : Option (Int × Nat × Bytes) :=
  let index := decrement p
  let digit := if negative then 48 - value.tmod 10 else 48 + value.tmod 10
  match store buffer index (UInt8.ofNat digit.toNat) with
  | none => none
  | some buffer =>
    if value.tdiv 10 ≠ 0 ∧ index ≠ (if negative then 1 else 0) then
      saveDigits negative (value.tdiv 10) index buffer
    else some (value.tdiv 10, index, buffer)
termination_by value.natAbs
decreasing_by
  rename_i more
  rw [Int.natAbs_tdiv]
  refine Nat.div_lt_self ?_ (by decide)
  have nonzero : value ≠ 0 := by
    rintro rfl
    exact more.1 rfl
  omega

/-- The constructor, over a buffer that is uninitialized. -/
def new (t : IntType) (value : Int) (memory : Bytes) : Option IntegerSaver :=
  if t.signed ∧ value < 0 then do
    let (_, p, buffer) ← saveDigits true value (bufSize t) memory
    let buffer ← store buffer (decrement p) (ch '-')
    return { pos := decrement p, buffer := buffer }
  else do
    let (_, p, buffer) ← saveDigits false value (bufSize t) memory
    return { pos := p, buffer := buffer }

/-- The characters from `data()` on, `size()` of them. -/
def text (t : IntType) (saver : IntegerSaver) : Bytes :=
  (saver.buffer.drop saver.pos).take (bufSize t - saver.pos)

end IntegerSaver
end Crablib
