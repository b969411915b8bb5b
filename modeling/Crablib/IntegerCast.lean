import Crablib.Bytes
import Mathlib.Data.Int.Init

/-! `integer_parse_impl` of `integer_cast.hpp`, for every integer type the
template is instantiated with. -/
namespace Crablib

/-- An integer type of the source. -/
structure IntType where
  bits : Nat
  signed : Bool
  deriving DecidableEq, Repr

namespace IntType

def uint64 : IntType := ⟨64, false⟩

def uint16 : IntType := ⟨16, false⟩

def size (t : IntType) : Nat := t.bits / 8

def min (t : IntType) : Int := if t.signed then -(2 ^ (t.bits - 1) : Int) else 0

def max (t : IntType) : Int := if t.signed then (2 ^ (t.bits - 1) : Int) - 1 else (2 ^ t.bits : Int) - 1

/-- What is stored when a result does not fit. -/
def wrap (t : IntType) (v : Int) : Int := (v - t.min) % (2 ^ t.bits : Int) + t.min

end IntType

def isDigit (c : UInt8) : Bool := 48 ≤ c.toNat && c.toNat ≤ 57

def digitOf (c : UInt8) : Nat := c.toNat - 48

def isIntegerSpace (c : UInt8) : Bool := c == 32 || (9 ≤ c.toNat && c.toNat ≤ 13)

/-- `value * 10 + digit`, or `value * 10 - digit` behind a minus sign. -/
def accumulate (t : IntType) (negative : Bool) (value : Int) (digit : Nat) : Int :=
  t.wrap (if negative then value * 10 - digit else value * 10 + digit)

/-- Whether one more digit would leave the type; the divisions of the source
truncate. -/
def wouldOverflow (t : IntType) (negative : Bool) (value : Int) (digit : Nat) : Bool :=
  if negative then
    value < t.min.tdiv 10 || (value == t.min.tdiv 10 && (digit : Int) > -(t.min.tmod 10))
  else value > t.max.tdiv 10 || (value == t.max.tdiv 10 && (digit : Int) > t.max.tmod 10)

/-- Convert as much as possible without overflow checks. -/
def safeDigits (t : IntType) (negative : Bool) : Nat → Int → Bytes → Int × Bytes
  | 0, value, rest => (value, rest)
  | _ + 1, value, [] => (value, [])
  | room + 1, value, c :: rest =>
    if isDigit c then safeDigits t negative room (accumulate t negative value (digitOf c)) rest
    else (value, c :: rest)

/-- Convert the rest with strict overflow checks. -/
def checkedDigits (t : IntType) (negative : Bool) : Int → Bytes → Except String (Int × Bytes)
  | value, [] => .ok (value, [])
  | value, c :: rest =>
    if isDigit c then
      if wouldOverflow t negative value (digitOf c) then
        .error (if negative then "Number underflow " else "Number overflow ")
      else checkedDigits t negative (accumulate t negative value (digitOf c)) rest
    else .ok (value, c :: rest)

/-- The digits from the first one on; no digit may follow a leading zero. -/
def parseDigits (t : IntType) (negative : Bool) : Bytes → Except String (Int × Bytes)
  | [] => .error "Number must start from sign or digit "
  | c :: rest =>
    if !isDigit c then .error "Number must start from sign or digit "
    else
      let value := accumulate t negative 0 (digitOf c)
      if value = 0 then .ok (value, rest)
      else
        let safe := safeDigits t negative (t.size * 2 - 1) value rest
        -- the unchecked loop also stops at a character that is no digit
        checkedDigits t negative safe.1 safe.2

def integerParse (t : IntType) (text : Bytes) : Except String Int := do
  let text := text.dropWhile isIntegerSpace
  let parsed ←
    match text with
    | [] => .error "Number must start from sign or digit "
    | c :: rest =>
      if c = ch '-' then
        if !t.signed then .error "Unsigned Number cannot be negative "
        else parseDigits t true rest
      else if c = ch '+' then parseDigits t false rest
      else parseDigits t false (c :: rest)
  if (parsed.2.dropWhile isIntegerSpace).isEmpty then .ok parsed.1
  else
    .error "Number must contain only whitespaces after digits, and must not have excess leading zeroes "

/-- `integer_cast` of a string; `std::out_of_range` is a `std::logic_error`. -/
def integerCast (t : IntType) (text : Bytes) : Except Error Int :=
  match integerParse t text with
  | .ok value => .ok value
  | .error message =>
    let arg := String.ofList (text.map fun c => Char.ofNat c.toNat)
    .error (.logic (message ++ arg ++ " to range [" ++ toString t.min ++ ".." ++ toString t.max ++ "]"))

end Crablib
