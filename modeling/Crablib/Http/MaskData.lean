import Crablib.Http.WebMessageParser
import Crablib.Library.Memory

/-! `mask_data` of `http/web_message_parser.hxx` where the data lies in memory: the
single bytes up to an aligned address, whole words from there, and the rest. -/
namespace Crablib.Http
open Memory

/-- `std::align`: the first aligned address behind which `size` bytes fit into the
`space`, and what is left of the space there. -/
def align (alignment size ptr space : Nat) : Option (Nat × Nat) :=
  let gap := (alignment - ptr % alignment) % alignment
  if gap + size ≤ space then some (ptr + gap, space - gap) else none

/-- The loops over single bytes, which turn the mask first. -/
def maskBytesAt (mask : UInt32) (mem : Cells) (data : Nat) : Nat → Cells × UInt32
  | 0 => (mem, mask)
  | count + 1 =>
    let turned := rol mask 8
    maskBytesAt turned (writeBytes mem data [mem data ^^^ turned.toUInt8]) (data + 1) count

/-- The loop over aligned words; it leaves the address and the size behind the last one. -/
def maskWordsAt (order : ByteOrder) (mask64 : Nat) (mem : Cells) (data : Nat) : Nat → Cells × Nat × Nat
  | size + 8 =>
    maskWordsAt order mask64 (store order mem data 8 (load order mem data 8 ^^^ mask64)) (data + 8) size
  | size => (mem, data, size)

def maskDataMemory (order : ByteOrder) (mem : Cells) (maskingShift data size : Nat)
    (maskingKey : UInt32) : Cells :=
  let mask := rol maskingKey (8 * maskingShift)
  match align 8 8 data size with
  | some (nextAligned, space) =>
    let front := maskBytesAt mask mem data (nextAligned - data)
    let maskBytes := [(front.2 >>> 24).toUInt8, (front.2 >>> 16).toUInt8,
      (front.2 >>> 8).toUInt8, front.2.toUInt8]
    let maskNative := order.value maskBytes
    let mask64 := maskNative <<< 32 ||| maskNative
    let words := maskWordsAt order mask64 front.1 nextAligned space
    (maskBytesAt front.2 words.1 words.2.1 words.2.2).1
  | none => (maskBytesAt mask mem data size).1

/-- `WebMessageBodyParser::consume` with the string of the body at the address `place`:
`body.write` and then `mask_data` on the last `wr` bytes of the string. -/
def WebMessageBodyParser.consumeMemory (order : ByteOrder) (mem : Cells) (place : Nat)
    (p : WebMessageBodyParser) (bytes : Bytes) : WebMessageBodyParser × Bytes :=
  if p.inBody then
    let wr := min bytes.length p.remainingBytes
    let buf := p.body ++ bytes.take wr
    let masked := maskDataMemory order (writeBytes mem place buf) p.maskingShift
      (place + (buf.length - wr)) wr p.maskingKey
    let remaining := p.remainingBytes - wr
    ({ p with
        body := if p.maskingKey ≠ 0 then readBytes masked place buf.length else buf
        maskingShift := if p.maskingKey ≠ 0 then p.maskingShift + wr else p.maskingShift
        remainingBytes := remaining
        inBody := remaining ≠ 0 },
      bytes.drop wr)
  else (p, bytes)

end Crablib.Http
