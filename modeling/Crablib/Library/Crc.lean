import Mathlib.Init

/-! Reflected cyclic redundancy checks over words of any width. Bits are fed in one
by one; several at once are a look at a table of what the register does to its own
low bits when nothing comes in. -/
namespace Crablib.Crc

variable {w : Nat} (poly : BitVec w)

/-- One bit comes in at the low end: the register moves down, and the polynomial
is added if the bit that leaves differs from it. -/
def feed (crc : BitVec w) (bit : Bool) : BitVec w :=
  (crc >>> 1) ^^^ (if (crc.getLsbD 0 ^^ bit) = true then poly else 0)

def feeds (crc : BitVec w) (bits : List Bool) : BitVec w := bits.foldl (feed poly) crc

/-- The low bits of a word, lowest first. -/
def lowBits (count : Nat) (v : BitVec w) : List Bool := (List.range count).map v.getLsbD

@[simp] theorem feeds_append (crc : BitVec w) (front back : List Bool) :
    feeds poly crc (front ++ back) = feeds poly (feeds poly crc front) back := List.foldl_append

theorem lowBits_succ (count : Nat) (v : BitVec w) :
    lowBits (count + 1) v = v.getLsbD 0 :: lowBits count (v >>> 1) := by
  rw [lowBits, List.range_succ_eq_map, List.map_cons, List.map_map, lowBits]
  congr 1
  apply List.map_congr_left
  intro i _
  simp [Nat.add_comm]

/-- A bit in the register is as good as a bit that comes in. -/
private theorem feed_xor (crc v : BitVec w) :
    feed poly (crc ^^^ v) false = feed poly crc (v.getLsbD 0) ^^^ (v >>> 1) := by
  unfold feed
  rw [BitVec.ushiftRight_xor_distrib, BitVec.getLsbD_xor, Bool.xor_false,
    BitVec.xor_assoc, BitVec.xor_assoc, BitVec.xor_comm (v >>> 1)]

/-- What stands in the register is fed in as it reaches the low end; what does
not reach it moves down. -/
theorem feeds_xor (count : Nat) (crc v : BitVec w) :
    feeds poly (crc ^^^ v) (List.replicate count false) =
      feeds poly crc (lowBits count v) ^^^ (v >>> count) := by
  induction count generalizing crc v with
  | zero => simp [feeds, lowBits]
  | succ count ih =>
    rw [List.replicate_succ, lowBits_succ]
    show feeds poly (feed poly (crc ^^^ v) false) _ = feeds poly (feed poly crc (v.getLsbD 0)) _ ^^^ _
    rw [feed_xor, ih, Nat.add_comm, BitVec.shiftRight_add]

/-- The entry of a table for some low bits. -/
def entry (count : Nat) (low : BitVec w) : BitVec w := feeds poly low (List.replicate count false)

/-- Several bits at once: an entry of the table and a shift. -/
theorem feeds_entry (count : Nat) (crc v : BitVec w) (short : v >>> count = 0#w) {low : BitVec w}
    (same : lowBits count low = lowBits count (crc ^^^ v)) (small : low >>> count = 0#w) :
    feeds poly crc (lowBits count v) = entry poly count low ^^^ (crc >>> count) := by
  have inside := feeds_xor poly count crc v
  have whole := feeds_xor poly count 0#w (crc ^^^ v)
  have looked := feeds_xor poly count 0#w low
  rw [BitVec.zero_xor] at whole looked
  rw [short, BitVec.xor_zero] at inside
  rw [small, BitVec.xor_zero, same] at looked
  rw [← inside, whole, entry, looked, BitVec.ushiftRight_xor_distrib, short, BitVec.xor_zero]

end Crablib.Crc
