import Crablib.Http.Types
import Crablib.Library.Scanner

/-! Frame headers and bodies of `http/web_message_parser.hxx`. Lengths are
64-bit and keys 32-bit numbers. -/
namespace Crablib.Http

/-- The bytes of `value`, most significant first. -/
def bigEndian : Nat → Nat → Bytes
  | 0, _ => []
  | count + 1, value => UInt8.ofNat (value / 256 ^ count) :: bigEndian count value

@[simp] theorem bigEndian_length (count value : Nat) : (bigEndian count value).length = count := by
  induction count with
  | zero => rfl
  | succ count ih => simp [bigEndian, ih]

/-- `WebMessageHeaderSaver` -/
def webMessageHeader (fin : Bool) (opcode : Nat) (payloadLen : Nat)
    (maskingKey : Option UInt32) : Bytes :=
  let maskBit := if maskingKey.isSome then 0x80 else 0
  let length :=
    if payloadLen < 126 then [UInt8.ofNat (payloadLen + maskBit)]
    else if payloadLen < 65536 then UInt8.ofNat (126 + maskBit) :: bigEndian 2 payloadLen
    else UInt8.ofNat (127 + maskBit) :: bigEndian 8 payloadLen
  let key := match maskingKey with
    | some key => bigEndian 4 key.toNat
    | none => []
  UInt8.ofNat ((if fin then 0x80 else 0) + opcode) :: length ++ key

/-- What `mask_data` does to a block whose first byte has the index `shift` in
its message: byte `i` of the key, most significant first, repeated. The source
takes the bytes in aligned words where it can, see `maskDataAt`. -/
def maskData (shift : Nat) (data : Bytes) (key : UInt32) : Bytes :=
  data.mapIdx fun i c => c ^^^ UInt8.ofNat (key.toNat / 256 ^ (3 - (shift + i) % 4))

/-- `rol` of `util.hpp` on 32 bits; a turn by 0 bits changes nothing. -/
def rol (mask : UInt32) (shift : Nat) : UInt32 :=
  let bits := UInt32.ofNat (shift % 32)
  mask <<< bits ||| mask >>> (32 - bits)

/-- The loops of `mask_data` over single bytes, which turn the mask first. -/
def maskLoop : UInt32 → Bytes → Bytes × UInt32
  | mask, [] => ([], mask)
  | mask, c :: data =>
    let turned := rol mask 8
    ((c ^^^ turned.toUInt8) :: (maskLoop turned data).1, (maskLoop turned data).2)

/-- The loop of `mask_data` over aligned 64-bit words: each half of `mask64_native`
is in memory the four bytes of the mask, most significant first. The bytes that
fill no word are returned as they are. -/
def maskWords (mask : UInt32) : Bytes → Bytes × Bytes
  | c0 :: c1 :: c2 :: c3 :: c4 :: c5 :: c6 :: c7 :: data =>
    let b0 := (mask >>> 24).toUInt8
    let b1 := (mask >>> 16).toUInt8
    let b2 := (mask >>> 8).toUInt8
    let b3 := mask.toUInt8
    let later := maskWords mask data
    ((c0 ^^^ b0) :: (c1 ^^^ b1) :: (c2 ^^^ b2) :: (c3 ^^^ b3) :: (c4 ^^^ b0) ::
      (c5 ^^^ b1) :: (c6 ^^^ b2) :: (c7 ^^^ b3) :: later.1, later.2)
  | data => ([], data)

/-- `mask_data` on data whose first aligned address is `gap` bytes away; words
are used if one fits behind it. -/
def maskDataAt (gap shift : Nat) (data : Bytes) (key : UInt32) : Bytes :=
  let mask := rol key (8 * shift)
  if gap + 8 ≤ data.length then
    let front := maskLoop mask (data.take gap)
    let words := maskWords front.2 (data.drop gap)
    front.1 ++ words.1 ++ (maskLoop front.2 words.2).1
  else (maskLoop mask data).1

inductive WebMessageHeaderParserState where
  | messageByte0
  | messageByte1
  | messageLength
  | maskingKey
  | good
  deriving DecidableEq, Repr

structure WebMessageHeaderParser where
  fin : Bool := false
  opcode : Nat := 0
  payloadLen : Nat := 0
  maskingKey : Option UInt32 := none
  state : WebMessageHeaderParserState := .messageByte0
  remainingFieldBytes : Nat := 0
  deriving DecidableEq, Repr

namespace WebMessageHeaderParser

def isGood (p : WebMessageHeaderParser) : Bool := p.state == .good

def isOpcodeSupported (opcode : Nat) : Bool :=
  [WebMessageOpcode.text, .binary, .close, .ping, .pong].any fun supported => supported.toNat == opcode

/-- The state behind the payload length. -/
def afterLength (p : WebMessageHeaderParser) : WebMessageHeaderParser :=
  if p.maskingKey.isSome then { p with remainingFieldBytes := 4, state := .maskingKey }
  else { p with state := .good }

def consume (p : WebMessageHeaderParser) (input : UInt8) : Except Error WebMessageHeaderParser :=
  match p.state with
  | .messageByte0 =>
    if input &&& 0x70 ≠ 0 then .error (.runtime "Invalid reserved bits in first byte")
    else if !isOpcodeSupported (input &&& 0x0f).toNat then .error (.runtime "Invalid opcode")
    else .ok { p with fin := input &&& 0x80 ≠ 0, opcode := (input &&& 0x0f).toNat,
                      state := .messageByte1 }
  | .messageByte1 =>
    let maskingKey := if input &&& 0x80 ≠ 0 then some 0 else p.maskingKey
    let payloadLen := (input &&& 0x7f).toNat
    let control : Bool := p.opcode &&& 0x08 ≠ 0
    if control && payloadLen > 125 then .error (.runtime "Control frame with payload_len > 125")
    else if control && !p.fin then .error (.runtime "Control frame must not be fragmented")
    else if payloadLen = 126 then
      .ok { p with maskingKey := maskingKey, payloadLen := 0, remainingFieldBytes := 2,
                   state := .messageLength }
    else if payloadLen = 127 then
      .ok { p with maskingKey := maskingKey, payloadLen := 0, remainingFieldBytes := 8,
                   state := .messageLength }
    else .ok { p with maskingKey := maskingKey, payloadLen := payloadLen }.afterLength
  | .messageLength =>
    let q := { p with
      payloadLen := (p.payloadLen * 256 + input.toNat) % 2 ^ 64
      remainingFieldBytes := p.remainingFieldBytes - 1 }
    .ok (if q.remainingFieldBytes ≠ 0 then q else q.afterLength)
  | .maskingKey =>
    let q := { p with
      maskingKey := p.maskingKey.map fun key => UInt32.ofNat (key.toNat * 256 + input.toNat)
      remainingFieldBytes := p.remainingFieldBytes - 1 }
    .ok (if q.remainingFieldBytes ≠ 0 then q else { q with state := .good })
  | .good => .error (.logic "Invalid web message parser state")

def machine : Scanner.Machine WebMessageHeaderParser UInt8 Error := ⟨consume, isGood⟩

def parse (p : WebMessageHeaderParser) (bytes : Bytes) : Except Error (WebMessageHeaderParser × Bytes) :=
  Scanner.scan machine p bytes

end WebMessageHeaderParser

/-- `inBody` stands for the state `BODY`, its negation for `GOOD`. -/
structure WebMessageBodyParser where
  body : Bytes := []
  inBody : Bool := false
  remainingBytes : Nat := 0
  maskingKey : UInt32 := 0
  maskingShift : Nat := 0
  deriving DecidableEq, Repr

namespace WebMessageBodyParser

def make (payloadLen : Nat) (maskingKey : Option UInt32) : WebMessageBodyParser :=
  { inBody := payloadLen ≠ 0, remainingBytes := payloadLen, maskingKey := maskingKey.getD 0 }

def isGood (p : WebMessageBodyParser) : Bool := !p.inBody

/-- `consume(begin, end)`; a zero key means no masking. -/
def consume (p : WebMessageBodyParser) (bytes : Bytes) : WebMessageBodyParser × Bytes :=
  if p.inBody then
    let wr := min bytes.length p.remainingBytes
    let block := bytes.take wr
    let remaining := p.remainingBytes - wr
    ({ p with
        body := p.body ++ if p.maskingKey ≠ 0 then maskData p.maskingShift block p.maskingKey else block
        maskingShift := if p.maskingKey ≠ 0 then p.maskingShift + wr else p.maskingShift
        remainingBytes := remaining
        inBody := remaining ≠ 0 },
      bytes.drop wr)
  else (p, bytes)

/-- `parse(begin, end)`; every call of `consume` takes at least one byte. -/
def parseLoop : Nat → WebMessageBodyParser → Bytes → WebMessageBodyParser × Bytes
  | 0, p, bytes => (p, bytes)
  | passes + 1, p, bytes =>
    if bytes.isEmpty || p.isGood then (p, bytes)
    else
      let next := p.consume bytes
      parseLoop passes next.1 next.2

def parse (p : WebMessageBodyParser) (bytes : Bytes) : Except Error (WebMessageBodyParser × Bytes) :=
  .ok (parseLoop bytes.length p bytes)

end WebMessageBodyParser
end Crablib.Http
