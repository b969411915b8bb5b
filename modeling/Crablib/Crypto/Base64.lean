import Crablib.Bytes

/-! `base64::encode` and `base64::decode` of `crypto/base64.hxx`. -/
namespace Crablib.Base64

def tab : Bytes := str "ABCDEFGHIJKLMNOPQRSTUVWXYZabcdefghijklmnopqrstuvwxyz0123456789+/"

def symbol (v : Nat) : UInt8 := tab.getD (v % 64) 0

/-- Three bytes become four symbols; a shorter last group is padded. -/
def encode : Bytes → Bytes
  | a :: b :: c :: rest =>
    let inc := a.toNat * 65536 + b.toNat * 256 + c.toNat
    symbol (inc / 262144) :: symbol (inc / 4096) :: symbol (inc / 64) :: symbol inc :: encode rest
  | [a, b] =>
    let inc := a.toNat * 65536 + b.toNat * 256
    [symbol (inc / 262144), symbol (inc / 4096), symbol (inc / 64), ch '=']
  | [a] =>
    let inc := a.toNat * 65536
    [symbol (inc / 262144), symbol (inc / 4096), ch '=', ch '=']
  | [] => []

def encodedSize (inLen : Nat) : Nat := 4 * ((inLen + 2) / 3)

def maxDecodedSize (inLen : Nat) : Nat := 3 * ((inLen + 3) / 4)

/-- `encode` into a string of the size foreseen. -/
def encodeString (bytes : Bytes) : Except Error Bytes :=
  if (encode bytes).length ≠ encodedSize bytes.length then .error (.logic "base64 encode size mismatch")
  else .ok (encode bytes)

/-- The value of each symbol, 64 for a byte that is none. -/
def inverseTable : List Nat := [
  64, 64, 64, 64, 64, 64, 64, 64, 64, 64, 64, 64, 64, 64, 64, 64,
  64, 64, 64, 64, 64, 64, 64, 64, 64, 64, 64, 64, 64, 64, 64, 64,
  64, 64, 64, 64, 64, 64, 64, 64, 64, 64, 64, 62, 64, 64, 64, 63,
  52, 53, 54, 55, 56, 57, 58, 59, 60, 61, 64, 64, 64, 64, 64, 64,
  64, 0, 1, 2, 3, 4, 5, 6, 7, 8, 9, 10, 11, 12, 13, 14,
  15, 16, 17, 18, 19, 20, 21, 22, 23, 24, 25, 64, 64, 64, 64, 64,
  64, 26, 27, 28, 29, 30, 31, 32, 33, 34, 35, 36, 37, 38, 39, 40,
  41, 42, 43, 44, 45, 46, 47, 48, 49, 50, 51, 64, 64, 64, 64, 64,
  64, 64, 64, 64, 64, 64, 64, 64, 64, 64, 64, 64, 64, 64, 64, 64,
  64, 64, 64, 64, 64, 64, 64, 64, 64, 64, 64, 64, 64, 64, 64, 64,
  64, 64, 64, 64, 64, 64, 64, 64, 64, 64, 64, 64, 64, 64, 64, 64,
  64, 64, 64, 64, 64, 64, 64, 64, 64, 64, 64, 64, 64, 64, 64, 64,
  64, 64, 64, 64, 64, 64, 64, 64, 64, 64, 64, 64, 64, 64, 64, 64,
  64, 64, 64, 64, 64, 64, 64, 64, 64, 64, 64, 64, 64, 64, 64, 64,
  64, 64, 64, 64, 64, 64, 64, 64, 64, 64, 64, 64, 64, 64, 64, 64,
  64, 64, 64, 64, 64, 64, 64, 64, 64, 64, 64, 64, 64, 64, 64, 64]

def inverse (c : UInt8) : Nat := inverseTable.getD c.toNat 0

/-- What `decode` writes through `out`, and whether it came to its size check.
What was written stays written when a later group is refused. -/
def decodeGroups : Bytes → Bytes × Bool
  | u0 :: u1 :: u2 :: u3 :: rest =>
    let c0 := inverse u0
    let c1 := inverse u1
    let c2 := inverse u2
    let c3 := inverse u3
    let next := decodeGroups rest
    if u3 = ch '=' then
      if u2 = ch '=' then
        if (c0 ||| c1) &&& 64 ≠ 0 then ([], false)
        else
          let v := c0 * 262144 + c1 * 4096
          (UInt8.ofNat (v / 65536) :: next.1, next.2)
      else if (c0 ||| c1 ||| c2) &&& 64 ≠ 0 then ([], false)
      else
        let v := c0 * 262144 + c1 * 4096 + c2 * 64
        (UInt8.ofNat (v / 65536) :: UInt8.ofNat (v / 256) :: next.1, next.2)
    else if (c0 ||| c1 ||| c2 ||| c3) &&& 64 ≠ 0 then ([], false)
    else
      let v := c0 * 262144 + c1 * 4096 + c2 * 64 + c3
      (UInt8.ofNat (v / 65536) :: UInt8.ofNat (v / 256) :: UInt8.ofNat v :: next.1, next.2)
  | [u0, u1, u2] =>
    let c0 := inverse u0
    let c1 := inverse u1
    let c2 := inverse u2
    if (c0 ||| c1 ||| c2) &&& 64 ≠ 0 then ([], false)
    else
      let v := c0 * 262144 + c1 * 4096 + c2 * 64
      ([UInt8.ofNat (v / 65536), UInt8.ofNat (v / 256)], true)
  | [u0, u1] =>
    let c0 := inverse u0
    let c1 := inverse u1
    if (c0 ||| c1) &&& 64 ≠ 0 then ([], false)
    else
      let v := c0 * 262144 + c1 * 4096
      ([UInt8.ofNat (v / 65536)], true)
  | [_] => ([], false)
  | [] => ([], true)

/-- The length that `decode` returns for a buffer of `outLen` bytes, `none` for
`npos`. The size is checked behind the writes. -/
def decodeSize (outLen : Nat) (data : Bytes) : Except Error (Option Nat) :=
  let written := decodeGroups data
  if !written.2 then .ok none
  else if written.1.length > outLen then .error (.logic "base64 decode size mismatch")
  else .ok (some written.1.length)

/-- `decode(result, data)`: the answer, and what `*result` holds afterwards. -/
def decode (result data : Bytes) : Except Error (Bool × Bytes) := do
  let outLen := maxDecodedSize data.length
  let written := (decodeGroups data).1
  let tmp := written ++ List.replicate (outLen - written.length) 0
  match ← decodeSize outLen data with
  | none => .ok (false, result)
  | some actualSize => .ok (true, tmp.take actualSize)

end Crablib.Base64
