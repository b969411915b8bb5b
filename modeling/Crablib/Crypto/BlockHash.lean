import Crablib.Bytes

/-! The part that `sha1` and `md5` have in common: `add` and `finalize` over a
buffer of 64 bytes and the length so far. The words of the state, the function
that takes in one block and the byte order are each hash's own. -/
namespace Crablib

/-- What one hash does its own way. `highFirst` tells which half of the length
is put first. -/
structure BlockHash (State : Type) where
  initial : State
  processBlock : State → Bytes → State
  words : State → List UInt32
  putWord : UInt32 → Bytes
  putWord_length : ∀ w, (putWord w).length = 4
  highFirst : Bool

/-- `buffer` is the memory of 64 bytes, of which the first `size % 64` wait. -/
structure Hasher (State : Type) where
  size : Nat
  state : State
  buffer : Bytes
  deriving DecidableEq, Repr

/-- Bytes copied into a memory; one that does not hold them would grow. -/
def memcpy (memory : Bytes) (index : Nat) (data : Bytes) : Bytes :=
  memory.take index ++ data ++ memory.drop (index + data.length)

namespace BlockHash

variable {State : Type} (hash : BlockHash State)

/-- A new object. Its buffer is uninitialized. -/
def new (memory : Bytes) : Hasher State := { size := 0, state := hash.initial, buffer := memory }

/-- Whole blocks straight from the data, and what is left of it. -/
def processBlocks : Nat → State → Bytes → State × Bytes
  | 0, state, data => (state, data)
  | passes + 1, state, data =>
    if data.length ≥ 64 then processBlocks passes (hash.processBlock state (data.take 64)) (data.drop 64)
    else (state, data)

def add (h : Hasher State) (data : Bytes) : Hasher State :=
  let index := h.size % 64
  let size := (h.size + data.length) % 2 ^ 64
  let partLen := 64 - index
  if data.length < partLen then { h with size := size, buffer := memcpy h.buffer index data }
  else
    let buffer := memcpy h.buffer index (data.take partLen)
    let state := hash.processBlock h.state buffer
    let rest := hash.processBlocks data.length state (data.drop partLen)
    { size := size, state := rest.1, buffer := memcpy buffer 0 rest.2 }

def padding : Bytes := 0x80 :: List.replicate 63 0

/-- The length in bits as two words. -/
def putLength (bits : Nat) : Bytes × Bytes :=
  let high := UInt32.ofNat (bits / 2 ^ 32)
  let low := UInt32.ofNat bits
  if hash.highFirst then (hash.putWord high, hash.putWord low) else (hash.putWord low, hash.putWord high)

/-- The words of a state, as they are put into the result. -/
def putState (state : State) : Bytes := (hash.words state).flatMap hash.putWord

/-- Hashed text ends with 0x80, some padding 0x00 and the length in bits. -/
def finalize (h : Hasher State) : Bytes :=
  let offset := h.size % 64
  let padLen := if offset < 56 then 56 - offset else (56 + 64) - offset
  let originalSize := h.size
  let padded := hash.add h (padding.take padLen)
  let length := hash.putLength (originalSize * 8 % 2 ^ 64)
  let buffer := memcpy (memcpy padded.buffer 56 length.1) 60 length.2
  hash.putState (hash.processBlock padded.state buffer)

end BlockHash
end Crablib
