import Crablib.Crypto.BlockHash

/-! `md5` of `crypto/md5.hxx`. -/
namespace Crablib

def md5MakeWord (p : Nat → UInt8) (at_ : Nat) : UInt32 :=
  ((p (at_ + 3)).toUInt32 <<< 24) ||| ((p (at_ + 2)).toUInt32 <<< 16) |||
    ((p (at_ + 1)).toUInt32 <<< 8) ||| (p at_).toUInt32

def md5PutWord (w : UInt32) : Bytes :=
  [w.toUInt8, (w >>> 8).toUInt8, (w >>> 16).toUInt8, (w >>> 24).toUInt8]

/-- The four words A, B, C and D of the chaining state. -/
structure Md5State where
  a : UInt32 := 0x67452301
  b : UInt32 := 0xefcdab89
  c : UInt32 := 0x98badcfe
  d : UInt32 := 0x10325476
  deriving DecidableEq, Repr

namespace Md5

def rotateLeft (x n : UInt32) : UInt32 := (x <<< n) ||| (x >>> (32 - n))

/-- `F`, `G`, `H` and `I`, the functions of rounds 1 to 4. -/
def mix (round : Nat) (x y z : UInt32) : UInt32 :=
  match round with
  | 0 => (x &&& y) ||| (~~~x &&& z)
  | 1 => (x &&& z) ||| (y &&& ~~~z)
  | 2 => x ^^^ y ^^^ z
  | _ => y ^^^ (x ||| ~~~z)

/-- The steps of each round in order: which word of the block is added, how far
the sum is rotated and which constant is added. -/
def steps : List (List (Nat × UInt32 × UInt32)) := [
  [(0, 7, 0xd76aa478), (1, 12, 0xe8c7b756), (2, 17, 0x242070db), (3, 22, 0xc1bdceee),
   (4, 7, 0xf57c0faf), (5, 12, 0x4787c62a), (6, 17, 0xa8304613), (7, 22, 0xfd469501),
   (8, 7, 0x698098d8), (9, 12, 0x8b44f7af), (10, 17, 0xffff5bb1), (11, 22, 0x895cd7be),
   (12, 7, 0x6b901122), (13, 12, 0xfd987193), (14, 17, 0xa679438e), (15, 22, 0x49b40821)],
  [(1, 5, 0xf61e2562), (6, 9, 0xc040b340), (11, 14, 0x265e5a51), (0, 20, 0xe9b6c7aa),
   (5, 5, 0xd62f105d), (10, 9, 0x2441453), (15, 14, 0xd8a1e681), (4, 20, 0xe7d3fbc8),
   (9, 5, 0x21e1cde6), (14, 9, 0xc33707d6), (3, 14, 0xf4d50d87), (8, 20, 0x455a14ed),
   (13, 5, 0xa9e3e905), (2, 9, 0xfcefa3f8), (7, 14, 0x676f02d9), (12, 20, 0x8d2a4c8a)],
  [(5, 4, 0xfffa3942), (8, 11, 0x8771f681), (11, 16, 0x6d9d6122), (14, 23, 0xfde5380c),
   (1, 4, 0xa4beea44), (4, 11, 0x4bdecfa9), (7, 16, 0xf6bb4b60), (10, 23, 0xbebfbc70),
   (13, 4, 0x289b7ec6), (0, 11, 0xeaa127fa), (3, 16, 0xd4ef3085), (6, 23, 0x4881d05),
   (9, 4, 0xd9d4d039), (12, 11, 0xe6db99e5), (15, 16, 0x1fa27cf8), (2, 23, 0xc4ac5665)],
  [(0, 6, 0xf4292244), (7, 10, 0x432aff97), (14, 15, 0xab9423a7), (5, 21, 0xfc93a039),
   (12, 6, 0x655b59c3), (3, 10, 0x8f0ccc92), (10, 15, 0xffeff47d), (1, 21, 0x85845dd1),
   (8, 6, 0x6fa87e4f), (15, 10, 0xfe2ce6e0), (6, 15, 0xa3014314), (13, 21, 0x4e0811a1),
   (4, 6, 0xf7537e82), (11, 10, 0xbd3af235), (2, 15, 0x2ad7d2bb), (9, 21, 0xeb86d391)]]

/-- One step. The source renames its four variables from step to step; here they
move. -/
def step (round : Nat) (x : List UInt32) (s : Md5State) (turn : Nat × UInt32 × UInt32) : Md5State :=
  let a := rotateLeft (s.a + (mix round s.b s.c s.d + x.getD turn.1 0 + turn.2.2)) turn.2.1 + s.b
  ⟨s.d, a, s.b, s.c⟩

def processBlock (state : Md5State) (block : Bytes) : Md5State :=
  let x := (List.range 16).map fun i => md5MakeWord (fun j => block.getD j 0) (i * 4)
  let s := steps.zipIdx.foldl (fun s round => round.1.foldl (step round.2 x) s) state
  ⟨state.a + s.a, state.b + s.b, state.c + s.c, state.d + s.d⟩

end Md5

/-- `md5` over a function that takes in one block. -/
def md5Over (processBlock : Md5State → Bytes → Md5State) : BlockHash Md5State where
  initial := {}
  processBlock := processBlock
  words s := [s.a, s.b, s.c, s.d]
  putWord := md5PutWord
  putWord_length _ := rfl
  highFirst := false

def md5 : BlockHash Md5State := md5Over Md5.processBlock

end Crablib
