import Crablib.Bytes

/-! `is_valid_utf8` of `util.hxx`: a table-driven automaton. The code point it
also computes is never read. -/
namespace Crablib

/-- The first part of the table maps bytes to character classes. -/
def utf8Class (byte : UInt8) : Nat :=
  let b := byte.toNat
  if b < 0x80 then 0
  else if b < 0x90 then 1
  else if b < 0xa0 then 9
  else if b < 0xc0 then 7
  else if b < 0xc2 then 8
  else if b < 0xe0 then 2
  else if b = 0xe0 then 10
  else if b < 0xed then 3
  else if b = 0xed then 4
  else if b < 0xf0 then 3
  else if b = 0xf0 then 11
  else if b < 0xf4 then 6
  else if b = 0xf4 then 5
  else 8

/-- The second part maps a state and a character class to a state. -/
def utf8Transitions : List Nat :=
  [0, 12, 24, 36, 60, 96, 84, 12, 12, 12, 48, 72,
   12, 12, 12, 12, 12, 12, 12, 12, 12, 12, 12, 12,
   12, 0, 12, 12, 12, 12, 12, 0, 12, 0, 12, 12,
   12, 24, 12, 12, 12, 12, 12, 24, 12, 24, 12, 12,
   12, 12, 12, 12, 12, 12, 12, 24, 12, 12, 12, 12,
   12, 24, 12, 12, 12, 12, 12, 12, 12, 24, 12, 12,
   12, 12, 12, 12, 12, 12, 12, 36, 12, 36, 12, 12,
   12, 36, 12, 12, 12, 12, 12, 36, 12, 36, 12, 12,
   12, 36, 12, 12, 12, 12, 12, 12, 12, 12, 12, 12]

def utf8Accept : Nat := 0

def utf8Decode (state : Nat) (byte : UInt8) : Nat := utf8Transitions.getD (state + utf8Class byte) 12

def isValidUtf8 (data : Bytes) : Bool := data.foldl utf8Decode utf8Accept == utf8Accept

end Crablib
