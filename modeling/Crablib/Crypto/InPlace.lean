import Crablib.Crypto.Md5
import Crablib.Crypto.Sha1

/-! `process_block` of `sha1` and `md5` with the variables that the source has: the
macros overwrite them and the sixteen words of the schedule, and get their names in
another order from call to call. -/
namespace Crablib

/-- The variables of `sha1::process_block`. -/
inductive Sha1Var where
  | a
  | b
  | c
  | d
  | e
  deriving DecidableEq, Repr

structure Sha1Memory where
  vars : Sha1Var → UInt32
  w : Nat → UInt32

/-- The arguments of a call. -/
structure Sha1Names where
  v : Sha1Var
  u : Sha1Var
  x : Sha1Var
  y : Sha1Var
  z : Sha1Var

namespace Sha1Memory

def setVar (m : Sha1Memory) (name : Sha1Var) (value : UInt32) : Sha1Memory :=
  { m with vars := fun other => if other = name then value else m.vars other }

/-- `SHA1_LOAD` -/
def load (m : Sha1Memory) (i : Nat) : Sha1Memory :=
  let word := sha1Rol32 (m.w ((i + 13) &&& 15) ^^^ m.w ((i + 8) &&& 15) ^^^
    m.w ((i + 2) &&& 15) ^^^ m.w (i &&& 15)) 1
  { m with w := fun at_ => if at_ = i &&& 15 then word else m.w at_ }

/-- What all macros do with the value that they mix in. -/
def add (m : Sha1Memory) (n : Sha1Names) (mixed : UInt32) : Sha1Memory :=
  let added := m.setVar n.z (m.vars n.z + (mixed + sha1Rol32 (m.vars n.v) 5))
  added.setVar n.u (sha1Rol32 (added.vars n.u) 30)

/-- `SHA1_ROUND_0` -/
def round0 (m : Sha1Memory) (n : Sha1Names) (i : Nat) : Sha1Memory :=
  m.add n (((m.vars n.u &&& (m.vars n.x ^^^ m.vars n.y)) ^^^ m.vars n.y) + m.w (i &&& 15) + 0x5a827999)

/-- `SHA1_ROUND_1` -/
def round1 (m : Sha1Memory) (n : Sha1Names) (i : Nat) : Sha1Memory := (m.load i).round0 n i

/-- `SHA1_ROUND_2` -/
def round2 (m : Sha1Memory) (n : Sha1Names) (i : Nat) : Sha1Memory :=
  let m := m.load i
  m.add n ((m.vars n.u ^^^ m.vars n.x ^^^ m.vars n.y) + m.w (i &&& 15) + 0x6ed9eba1)

/-- `SHA1_ROUND_3` -/
def round3 (m : Sha1Memory) (n : Sha1Names) (i : Nat) : Sha1Memory :=
  let m := m.load i
  m.add n ((((m.vars n.u ||| m.vars n.x) &&& m.vars n.y) ||| (m.vars n.u &&& m.vars n.x)) +
    m.w (i &&& 15) + 0x8f1bbcdc)

/-- `SHA1_ROUND_4` -/
def round4 (m : Sha1Memory) (n : Sha1Names) (i : Nat) : Sha1Memory :=
  let m := m.load i
  m.add n ((m.vars n.u ^^^ m.vars n.x ^^^ m.vars n.y) + m.w (i &&& 15) + 0xca62c1d6)

end Sha1Memory

namespace Sha1

/-- The names in call `i`; the source repeats these five rows sixteen times. -/
def names (i : Nat) : Sha1Names :=
  match i % 5 with
  | 0 => ⟨.a, .b, .c, .d, .e⟩
  | 1 => ⟨.e, .a, .b, .c, .d⟩
  | 2 => ⟨.d, .e, .a, .b, .c⟩
  | 3 => ⟨.c, .d, .e, .a, .b⟩
  | _ => ⟨.b, .c, .d, .e, .a⟩

/-- Call `i` of the eighty. -/
def call (m : Sha1Memory) (i : Nat) : Sha1Memory :=
  if i < 16 then m.round0 (names i) i
  else if i < 20 then m.round1 (names i) i
  else if i < 40 then m.round2 (names i) i
  else if i < 60 then m.round3 (names i) i
  else m.round4 (names i) i

def processBlockInPlace (state : Sha1State) (block : Bytes) : Sha1State :=
  let m := (List.range 80).foldl call
    { vars := fun
        | .a => state.h0
        | .b => state.h1
        | .c => state.h2
        | .d => state.h3
        | .e => state.h4
      w := fun i => sha1MakeWord (fun j => block.getD j 0) (i * 4) }
  ⟨state.h0 + m.vars .a, state.h1 + m.vars .b, state.h2 + m.vars .c,
    state.h3 + m.vars .d, state.h4 + m.vars .e⟩

end Sha1

/-- The variables of `md5::process_block`. -/
inductive Md5Var where
  | a
  | b
  | c
  | d
  deriving DecidableEq, Repr

structure Md5Names where
  a : Md5Var
  b : Md5Var
  c : Md5Var
  d : Md5Var

namespace Md5

/-- `FF`, `GG`, `HH` and `II`, with the function of the round. -/
def stepInPlace (round : Nat) (x : List UInt32) (vars : Md5Var → UInt32) (n : Md5Names)
    (turn : Nat × UInt32 × UInt32) :
    Md5Var → UInt32 :=
  let set (vars : Md5Var → UInt32) (value : UInt32) : Md5Var → UInt32 :=
    fun other => if other = n.a then value else vars other
  let added := set vars (vars n.a +
    (mix round (vars n.b) (vars n.c) (vars n.d) + x.getD turn.1 0 + turn.2.2))
  let rotated := set added (rotateLeft (added n.a) turn.2.1)
  set rotated (rotated n.a + rotated n.b)

/-- The names in a step; the source repeats these four rows. -/
def names (i : Nat) : Md5Names :=
  match i % 4 with
  | 0 => ⟨.a, .b, .c, .d⟩
  | 1 => ⟨.d, .a, .b, .c⟩
  | 2 => ⟨.c, .d, .a, .b⟩
  | _ => ⟨.b, .c, .d, .a⟩

def processBlockInPlace (state : Md5State) (block : Bytes) : Md5State :=
  let x := (List.range 16).map fun i => md5MakeWord (fun j => block.getD j 0) (i * 4)
  let vars := steps.zipIdx.foldl
    (fun vars round => round.1.zipIdx.foldl (fun vars turn =>
      stepInPlace round.2 x vars (names turn.2) turn.1) vars) fun
      | .a => state.a
      | .b => state.b
      | .c => state.c
      | .d => state.d
  ⟨state.a + vars .a, state.b + vars .b, state.c + vars .c, state.d + vars .d⟩

end Md5
end Crablib
