import Crablib.Http.Types

/-! `BodyParser` of `http/request_parser.hxx`: bodies of a known length, and
chunked ones. -/
namespace Crablib.Http

inductive BodyParserState where
  | contentLengthBody
  | chunkSizeStart
  | chunkSize
  | chunkSizeExtension
  | chunkSizeLf
  | chunkBody
  | chunkBodyCr
  | chunkBodyLf
  | trailerLineStart
  | trailer
  | trailerLf
  | finalLf
  | good
  deriving DecidableEq, Repr

structure BodyParser where
  state : BodyParserState := .good
  body : Bytes := []
  remainingBytes : Nat := 0
  chunkHeaderTotalLength : Nat := 0
  trailersTotalLength : Nat := 0
  deriving DecidableEq, Repr

namespace BodyParser

def maxChunkHeaderTotalLength : Nat := 256

def maxTrailersTotalLength : Nat := 4096

def isGood (p : BodyParser) : Bool := p.state == .good

def make (contentLength : Option UInt64) (chunked : Bool) : BodyParser :=
  -- ignore content_length, even if set
  if chunked then { state := .chunkSizeStart }
  else
    -- If content_length not set, we presume request with no body.
    let remaining := match contentLength with
      | some length => length.toNat
      | none => 0
    { state := if remaining = 0 then .good else .contentLengthBody, remainingBytes := remaining }

/-- The state behind the end of a size line. -/
def afterSize (p : BodyParser) : BodyParserState :=
  if p.remainingBytes = 0 then .trailerLineStart else .chunkBody

/-- The states of a chunk header count their bytes in one counter. -/
def chunkHeader (p : BodyParser) (state : BodyParserState) : Except Error BodyParser :=
  .ok { p with state := state, chunkHeaderTotalLength := p.chunkHeaderTotalLength + 1 }

/-- The states of the trailer count theirs in another. -/
def trailerByte (p : BodyParser) (state : BodyParserState) : Except Error BodyParser :=
  .ok { p with state := state, trailersTotalLength := p.trailersTotalLength + 1 }

/-- `consume(uint8_t)` -/
def consumeByte (p : BodyParser) (input : UInt8) : Except Error BodyParser :=
  if p.chunkHeaderTotalLength > maxChunkHeaderTotalLength then
    .error (.runtime "HTTP Chunk Header too long - security violation")
  else if p.trailersTotalLength > maxTrailersTotalLength then
    .error (.runtime "HTTP Trailer too long - security violation")
  else
    match p.state with
    | .chunkBodyCr =>
      if isSp input then p.chunkHeader .chunkBodyCr
      else if input = 13 then p.chunkHeader .chunkBodyLf
      else if input = 10 then p.chunkHeader .chunkSizeStart
      else .error (.runtime "CR is expected after chunk body")
    | .chunkBodyLf =>
      if input ≠ 10 then .error (.runtime "LF is expected after chunk body")
        else p.chunkHeader .chunkSizeStart
    | .chunkSizeStart =>
      if isSp input then p.chunkHeader .chunkSizeStart
      else
        match fromHexDigit input with
        | none => .error (.runtime "Chunk size must start with hex digit")
        | some digit => { p with remainingBytes := digit }.chunkHeader .chunkSize
    | .chunkSize =>
      if isSp input ∨ input = ch ';' then p.chunkHeader .chunkSizeExtension
      else if input = 13 then p.chunkHeader .chunkSizeLf
      else if input = 10 then p.chunkHeader p.afterSize
      else
        match fromHexDigit input with
        | none => .error (.runtime "Chunk size must be hex number")
        | some digit =>
          if p.remainingBytes > (2 ^ 64 - 1 - 15) / 16 then .error (.runtime "Chunk size too big")
          else { p with remainingBytes := p.remainingBytes * 16 + digit }.chunkHeader .chunkSize
    | .chunkSizeExtension =>
      -- Actual grammar here is complicated, we just skip to newline
      if input = 13 then p.chunkHeader .chunkSizeLf
      else if input = 10 then p.chunkHeader p.afterSize
      else p.chunkHeader .chunkSizeExtension
    | .chunkSizeLf =>
      if input ≠ 10 then .error (.runtime "Newline is expected") else p.chunkHeader p.afterSize
    | .trailerLineStart =>
      if input = 13 then p.trailerByte .finalLf
      else if input = 10 then p.trailerByte .good
      else if !isToken input then .error (.runtime "Invalid character at header line start")
      else p.trailerByte .trailer
    | .trailer => if input = 13 then p.trailerByte .trailerLf else p.trailerByte .trailer
    | .trailerLf =>
      if input ≠ 10 then .error (.runtime "Newline is expected") else p.trailerByte .trailerLineStart
    | .finalLf => if input ≠ 10 then .error (.runtime "Newline is expected") else p.trailerByte .good
    | .contentLengthBody => .error (.logic "Invalid chunked body parser state")
    | .chunkBody => .error (.logic "Invalid chunked body parser state")
    | .good => .error (.logic "Invalid chunked body parser state")

/-- The parser after it took `wr` bytes of body. -/
def takeBody (p : BodyParser) (bytes : Bytes) : BodyParser :=
  { p with body := p.body ++ bytes, remainingBytes := p.remainingBytes - bytes.length }

/-- `consume(begin, end)`: body bytes are taken in blocks, the rest one by one. -/
def consume (p : BodyParser) (bytes : Bytes) : Except Error (BodyParser × Bytes) :=
  let wr := min bytes.length p.remainingBytes
  match p.state with
  | .contentLengthBody =>
    let q := p.takeBody (bytes.take wr)
    .ok (if q.remainingBytes = 0 then { q with state := .good } else q, bytes.drop wr)
  | .chunkBody =>
    let q := p.takeBody (bytes.take wr)
    .ok (if q.remainingBytes = 0 then { q with chunkHeaderTotalLength := 0, state := .chunkBodyCr }
      else q, bytes.drop wr)
  | _ =>
    match bytes with
    | [] => .ok (p, [])
    | input :: rest =>
      match p.consumeByte input with
      | .error e => .error e
      | .ok q => .ok (q, rest)

/-- `parse(begin, end)`; every call of `consume` takes at least one byte. -/
def parseLoop : Nat → BodyParser → Bytes → Except Error (BodyParser × Bytes)
  | 0, p, bytes => .ok (p, bytes)
  | passes + 1, p, bytes =>
    if bytes.isEmpty || p.isGood then .ok (p, bytes)
    else
      match p.consume bytes with
      | .error e => .error e
      | .ok (q, rest) => parseLoop passes q rest

def parse (p : BodyParser) (bytes : Bytes) : Except Error (BodyParser × Bytes) :=
  parseLoop bytes.length p bytes

end BodyParser
end Crablib.Http
