import Crablib.Crypto.BlockHash

/-! `sha1` of `crypto/sha1.hxx`: an incremental hash with a 64-byte buffer. -/
namespace Crablib

def sha1Rol32 (x : UInt32) (n : UInt32) : UInt32 := (x <<< n) ||| (x >>> (32 - n))

def sha1MakeWord (p : Nat → UInt8) (at_ : Nat) : UInt32 :=
  ((p at_).toUInt32 <<< 24) ||| ((p (at_ + 1)).toUInt32 <<< 16) |||
    ((p (at_ + 2)).toUInt32 <<< 8) ||| (p (at_ + 3)).toUInt32

def sha1PutWord (w : UInt32) : Bytes :=
  [(w >>> 24).toUInt8, (w >>> 16).toUInt8, (w >>> 8).toUInt8, w.toUInt8]

/-- The five words of the chaining state. -/
structure Sha1State where
  h0 : UInt32 := 0x67452301
  h1 : UInt32 := 0xEFCDAB89
  h2 : UInt32 := 0x98BADCFE
  h3 : UInt32 := 0x10325476
  h4 : UInt32 := 0xC3D2E1F0
  deriving DecidableEq, Repr

namespace Sha1

/-- The sixteen schedule words, kept as a window whose head is `w[i & 15]`. -/
def load (w : List UInt32) : UInt32 :=
  sha1Rol32 (w.getD 13 0 ^^^ w.getD 8 0 ^^^ w.getD 2 0 ^^^ w.getD 0 0) 1

/-- The round function and constant of round `i`. -/
def mix (i : Nat) (u x y : UInt32) : UInt32 :=
  if i < 20 then ((u &&& (x ^^^ y)) ^^^ y) + 0x5a827999
  else if i < 40 then (u ^^^ x ^^^ y) + 0x6ed9eba1
  else if i < 60 then (((u ||| x) &&& y) ||| (u &&& x)) + 0x8f1bbcdc
  else (u ^^^ x ^^^ y) + 0xca62c1d6

/-- Rounds `i` to 79. The source renames its five variables from round to
round; here they move. From round 16 on the schedule is extended first. -/
def rounds : Nat → Nat → List UInt32 → Sha1State → Sha1State
  | 0, _, _, s => s
  | left + 1, i, w, s =>
    let word := if i < 16 then w.getD 0 0 else load w
    let z := s.h4 + mix i s.h1 s.h2 s.h3 + word + sha1Rol32 s.h0 5
    rounds left (i + 1) (w.tail ++ [word]) ⟨z, s.h0, sha1Rol32 s.h1 30, s.h2, s.h3⟩

def processBlock (state : Sha1State) (block : Bytes) : Sha1State :=
  let w := (List.range 16).map fun i => sha1MakeWord (fun j => block.getD j 0) (i * 4)
  let s := rounds 80 0 w state
  ⟨state.h0 + s.h0, state.h1 + s.h1, state.h2 + s.h2, state.h3 + s.h3, state.h4 + s.h4⟩

end Sha1

/-- `sha1` over its buffer of 64 bytes and a function that takes in one block. -/
def sha1Over (processBlock : Sha1State → Bytes → Sha1State) : BlockHash Sha1State where
  initial := {}
  processBlock := processBlock
  words s := [s.h0, s.h1, s.h2, s.h3, s.h4]
  putWord := sha1PutWord
  putWord_length _ := rfl
  highFirst := true

def sha1 : BlockHash Sha1State := sha1Over Sha1.processBlock

end Crablib
