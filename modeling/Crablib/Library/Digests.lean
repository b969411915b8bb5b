import Mathlib.Analysis.SpecialFunctions.Trigonometric.Basic
import Mathlib.Algebra.Order.Floor.Semiring
import Crablib.Library.Blocks

/-! Two hash functions as their standards define them, over words of 32 bits: SHA-1 of
FIPS 180-4, with its whole schedule of 80 words, and MD5 of RFC 1321, whose constants
are digits of sines. -/
namespace Crablib.Digests

/-- The circular shift of a word. -/
def rotl (n : Nat) (x : UInt32) : UInt32 := ⟨x.toBitVec.rotateLeft n⟩

/-- A word of four bytes, the most significant first. -/
def bigWord (block : List UInt8) (i : Nat) : UInt32 :=
  UInt32.ofNat ((block.getD (4 * i) 0).toNat * 2 ^ 24 + (block.getD (4 * i + 1) 0).toNat * 2 ^ 16 +
    (block.getD (4 * i + 2) 0).toNat * 2 ^ 8 + (block.getD (4 * i + 3) 0).toNat)

/-- A word of four bytes, the least significant first. -/
def littleWord (block : List UInt8) (i : Nat) : UInt32 :=
  UInt32.ofNat ((block.getD (4 * i + 3) 0).toNat * 2 ^ 24 + (block.getD (4 * i + 2) 0).toNat * 2 ^ 16 +
    (block.getD (4 * i + 1) 0).toNat * 2 ^ 8 + (block.getD (4 * i) 0).toNat)

def bigBytes (count n : Nat) : List UInt8 :=
  (List.range count).map fun i => UInt8.ofNat (n / 256 ^ (count - 1 - i))

def littleBytes (count n : Nat) : List UInt8 := (List.range count).map fun i => UInt8.ofNat (n / 256 ^ i)

theorem pads (l : Nat) : ∃ k, (l + 1 + k) % 512 = 448 := ⟨(959 - l % 512) % 512, by omega⟩

/-- The number of zero bits behind a message of so many bits and the bit 1. -/
def zeroBits (l : Nat) : Nat := Nat.find (pads l)

/-- A message of bytes with its padding, in blocks; the bit 1 and seven zero bits are
one byte. -/
def blocks (lengthBytes : Nat → List UInt8) (text : List UInt8) : List (List UInt8) :=
  Blocks.cut 64 (text ++ 0x80 :: List.replicate ((zeroBits (8 * text.length) - 7) / 8) 0 ++
    lengthBytes (8 * text.length))

theorem zeroBits_bytes (length : Nat) : (zeroBits (8 * length) - 7) / 8 = (119 - length % 64) % 64 := by
  have fills : (8 * length + 1 + zeroBits (8 * length)) % 512 = 448 := Nat.find_spec (pads _)
  have least : zeroBits (8 * length) ≤ 7 + 8 * ((119 - length % 64) % 64) :=
    Nat.find_min' (pads _) (by omega)
  omega

namespace Sha1

def ch (x y z : UInt32) : UInt32 := (x &&& y) ^^^ (~~~x &&& z)

def parity (x y z : UInt32) : UInt32 := x ^^^ y ^^^ z

def maj (x y z : UInt32) : UInt32 := (x &&& y) ^^^ (x &&& z) ^^^ (y &&& z)

def f (t : Nat) : UInt32 → UInt32 → UInt32 → UInt32 :=
  if t ≤ 19 then ch else if t ≤ 39 then parity else if t ≤ 59 then maj else parity

def k (t : Nat) : UInt32 :=
  if t ≤ 19 then 0x5a827999 else if t ≤ 39 then 0x6ed9eba1 else if t ≤ 59 then 0x8f1bbcdc else 0xca62c1d6

/-- The message schedule of a block. -/
def schedule (block : List UInt8) (t : Nat) : UInt32 :=
  if t < 16 then bigWord block t
  else rotl 1 (schedule block (t - 3) ^^^ schedule block (t - 8) ^^^ schedule block (t - 14) ^^^
    schedule block (t - 16))
termination_by t

theorem schedule_lt {block : List UInt8} {t : Nat} (first : t < 16) :
    schedule block t = bigWord block t := by
  rw [schedule, if_pos first]

theorem schedule_ge {block : List UInt8} {t : Nat} (later : 16 ≤ t) : schedule block t =
    rotl 1 (schedule block (t - 3) ^^^ schedule block (t - 8) ^^^ schedule block (t - 14) ^^^
      schedule block (t - 16)) := by
  rw [schedule, if_neg (by omega)]

/-- Five words: the working variables, or the hash value. -/
structure Words where
  a : UInt32
  b : UInt32
  c : UInt32
  d : UInt32
  e : UInt32

def step (block : List UInt8) (v : Words) (t : Nat) : Words :=
  ⟨rotl 5 v.a + f t v.b v.c v.d + v.e + k t + schedule block t, v.a, rotl 30 v.b, v.c, v.d⟩

def compress (h : Words) (block : List UInt8) : Words :=
  let v := (List.range 80).foldl (step block) h
  ⟨v.a + h.a, v.b + h.b, v.c + h.c, v.d + h.d, v.e + h.e⟩

def initial : Words := ⟨0x67452301, 0xefcdab89, 0x98badcfe, 0x10325476, 0xc3d2e1f0⟩

/-- SHA-1 of a message of bytes. -/
def digest (text : List UInt8) : List UInt8 :=
  let h := (blocks (bigBytes 8) text).foldl compress initial
  [h.a, h.b, h.c, h.d, h.e].flatMap fun w => bigBytes 4 w.toNat

end Sha1

namespace Md5

def f (x y z : UInt32) : UInt32 := (x &&& y) ||| (~~~x &&& z)

def g (x y z : UInt32) : UInt32 := (x &&& z) ||| (y &&& ~~~z)

def h (x y z : UInt32) : UInt32 := x ^^^ y ^^^ z

def i (x y z : UInt32) : UInt32 := y ^^^ (x ||| ~~~z)

/-- The table of constants, from the sine of an angle in radians. -/
noncomputable def t (n : Nat) : UInt32 := UInt32.ofNat ⌊4294967296 * |Real.sin n|⌋₊

/-- The four rounds of sixteen steps: the function, the word of the block, and the
shifts of four steps. -/
def round (n : Nat) : (UInt32 → UInt32 → UInt32 → UInt32) × Nat × List Nat :=
  match n / 16 with
  | 0 => (f, n % 16, [7, 12, 17, 22])
  | 1 => (g, (1 + 5 * n) % 16, [5, 9, 14, 20])
  | 2 => (h, (5 + 3 * n) % 16, [4, 11, 16, 23])
  | _ => (i, 7 * n % 16, [6, 10, 15, 21])

structure Words where
  a : UInt32
  b : UInt32
  c : UInt32
  d : UInt32

/-- The step `a = b + ((a + F(b,c,d) + X[k] + T[i]) <<< s)`, after which the names of
the words move on. -/
noncomputable def step (block : List UInt8) (v : Words) (n : Nat) : Words :=
  ⟨v.d, v.b + rotl ((round n).2.2.getD (n % 4) 0)
    (v.a + (round n).1 v.b v.c v.d + littleWord block (round n).2.1 + t (n + 1)), v.b, v.c⟩

noncomputable def compress (v : Words) (block : List UInt8) : Words :=
  let w := (List.range 64).foldl (step block) v
  ⟨w.a + v.a, w.b + v.b, w.c + v.c, w.d + v.d⟩

def initial : Words := ⟨0x67452301, 0xefcdab89, 0x98badcfe, 0x10325476⟩

/-- MD5 of a message of bytes. -/
noncomputable def digest (text : List UInt8) : List UInt8 :=
  let v := (blocks (littleBytes 8) text).foldl compress initial
  [v.a, v.b, v.c, v.d].flatMap fun w => littleBytes 4 w.toNat

end Md5
end Crablib.Digests
