import Crablib.HeaderProofs
import Crablib.ParserProofs

/-! The body parser takes data in blocks and everything else byte by byte. A block is
nothing but its bytes, so the parser is a scanner, and how its input is cut into
calls does not matter. Chunks are then followed through that scanner. -/
namespace Crablib.ChunkProofs
open Http Scanner BodyParser ParserProofs

variable {p q : BodyParser}

section Blocks

/-- The states that take data in blocks. -/
def IsBlock (p : BodyParser) : Prop := p.state = .contentLengthBody ∨ p.state = .chunkBody

instance (p : BodyParser) : Decidable (IsBlock p) := inferInstanceAs (Decidable (_ ∨ _))

/-- What follows a block. -/
def blockEnd (p : BodyParser) : BodyParser :=
  if p.remainingBytes ≠ 0 then p
  else if p.state = .contentLengthBody then { p with state := .good }
  else { p with chunkHeaderTotalLength := 0, state := .chunkBodyCr }

/-- The parser, one byte at a time. -/
def byByte : Machine BodyParser UInt8 Error where
  consume := fun p c => if IsBlock p then .ok (blockEnd (p.takeBody [c])) else p.consumeByte c
  good := isGood

private theorem block_running (block : IsBlock p) : byByte.good p = false := by
  rcases block with state | state <;> simp [byByte, isGood, state]

theorem consume_block (block : IsBlock p) (bytes : Bytes) :
    p.consume bytes = .ok (blockEnd (p.takeBody (bytes.take (min bytes.length p.remainingBytes))),
      bytes.drop (min bytes.length p.remainingBytes)) := by
  rcases block with state | state
  · simp only [BodyParser.consume, blockEnd, takeBody, state]
    split <;> simp_all
  · simp only [BodyParser.consume, blockEnd, takeBody, state]
    split <;> simp_all

theorem consume_other (other : ¬IsBlock p) (c : UInt8) (bytes : Bytes) :
    p.consume (c :: bytes) = (p.consumeByte c).map fun q => (q, bytes) := by
  simp only [BodyParser.consume]
  split
  · rename_i state
    exact absurd (.inl state) other
  · rename_i state
    exact absurd (.inr state) other
  · cases p.consumeByte c <;> simp only [Except.map]

/-- A block is its bytes, one after the other. -/
theorem scan_block (block : IsBlock p) (left : 0 < p.remainingBytes) (bytes : Bytes) :
    scan byByte p bytes = scan byByte
      (blockEnd (p.takeBody (bytes.take (min bytes.length p.remainingBytes))))
      (bytes.drop (min bytes.length p.remainingBytes)) := by
  induction bytes generalizing p with
  | nil =>
    have none : blockEnd (p.takeBody []) = p := by simp [blockEnd, takeBody, Nat.pos_iff_ne_zero.mp left]
    simp [none]
  | cons c bytes ih =>
    have consumed : byByte.consume p c = .ok (blockEnd (p.takeBody [c])) := if_pos block
    rw [scan_step (block_running block) consumed]
    by_cases last : p.remainingBytes = 1
    · have one : min (c :: bytes).length p.remainingBytes = 1 := by rw [last, List.length_cons]; omega
      rw [one]
      rfl
    · have more : blockEnd (p.takeBody [c]) = p.takeBody [c] := by
        have some_ : p.remainingBytes - 1 ≠ 0 := by omega
        simp [blockEnd, takeBody, some_]
      have rest : (p.takeBody [c]).remainingBytes = p.remainingBytes - 1 := rfl
      have wr :
          min (c :: bytes).length p.remainingBytes = min bytes.length (p.remainingBytes - 1) + 1 := by
        rw [List.length_cons]
        omega
      have joined : (p.takeBody [c]).takeBody (bytes.take (min bytes.length (p.remainingBytes - 1))) =
          p.takeBody (c :: bytes.take (min bytes.length (p.remainingBytes - 1))) := by
        simp [takeBody, Nat.sub_sub, Nat.add_comm]
      rw [more, ih (p := p.takeBody [c]) block (by rw [rest]; omega), rest, wr, List.take_succ_cons,
        List.drop_succ_cons, joined]

/-- A pass of the parser is a part of the scan. -/
private theorem scan_pass (sound : Sound p) (running : p.isGood = false) {bytes : Bytes}
    (some_ : bytes ≠ []) :
    scan byByte p bytes = p.consume bytes >>= fun r => scan byByte r.1 r.2 := by
  by_cases block : IsBlock p
  · rw [consume_block block, scan_block block (sound block)]
    rfl
  · obtain ⟨c, more, rfl⟩ := List.exists_cons_of_ne_nil some_
    have step : byByte.consume p c = p.consumeByte c := if_neg block
    rw [consume_other block]
    cases consumed : p.consumeByte c with
    | error e => exact scan_fail running (step.trans consumed) more
    | ok q => exact scan_step running (step.trans consumed) more

private theorem parseLoop_scan {passes : Nat} (sound : Sound p) {bytes : Bytes}
    (enough : bytes.length ≤ passes) :
    parseLoop passes p bytes = scan byByte p bytes := by
  induction passes generalizing p bytes with
  | zero =>
    have none : bytes = [] := List.length_eq_zero_iff.mp (Nat.le_zero.mp enough)
    rw [none]
    rfl
  | succ passes ih =>
    rw [parseLoop]
    by_cases none : bytes = []
    · rw [none]
      rfl
    · cases good : p.isGood with
      | true =>
        rw [Bool.or_true, if_pos rfl]
        exact (scan_good good bytes).symm
      | false =>
        have go : (bytes.isEmpty || false) = false := by simpa using none
        rw [go, scan_pass sound good none]
        cases consumed : p.consume bytes with
        | error e => rfl
        | ok result =>
          obtain ⟨q, rest⟩ := result
          obtain ⟨sound', used, taken, split⟩ := consume_progress sound none consumed
          have shorter : rest.length ≤ passes := by
            have whole := congrArg List.length split
            have length := List.length_pos_iff.mpr taken
            rw [List.length_append] at whole
            omega
          exact ih sound' shorter

/-- The parser is a scanner. -/
theorem parse_scan (sound : Sound p) (bytes : Bytes) : p.parse bytes = scan byByte p bytes :=
  parseLoop_scan sound (Nat.le_refl _)

end Blocks

section Calls

/-- Two calls, one after the other. What the first leaves stays in front of what the
second leaves. -/
def parseTwice (p : BodyParser) (first second : Bytes) : Except Error (BodyParser × Bytes) := do
  let (q, rest) ← p.parse first
  let (r, rest') ← q.parse second
  return (r, rest ++ rest')

/-- Successive calls, with the bytes that none of them took. -/
def feed (p : BodyParser) : List Bytes → Except Error (BodyParser × Bytes)
  | [] => .ok (p, [])
  | segment :: segments => do
    let (q, rest) ← p.parse segment
    let (r, rest') ← feed q segments
    return (r, rest ++ rest')

/-- Two calls are one. -/
theorem parse_append (sound : Sound p) (first second : Bytes) :
    p.parse (first ++ second) = parseTwice p first second := by
  rw [parse_scan sound, scan_append, parseTwice, ← parse_scan sound]
  cases parsed : p.parse first with
  | error e => rfl
  | ok result =>
    obtain ⟨q, rest⟩ := result
    have sound' : Sound q := (body_parses sound parsed).1
    simp only [bind, Except.bind, pure, Except.pure]
    cases rest with
    | nil =>
      rw [List.nil_append, ← parse_scan sound']
      cases q.parse second <;> rfl
    | cons c rest =>
      have good : byByte.good q = true :=
        good_of_rest ((parse_scan sound first).symm.trans parsed) (by simp)
      rw [scan_good good, parse_scan sound', scan_good good]

/-- So are any number of calls. -/
theorem feed_flatten (sound : Sound p) (segments : List Bytes) :
    feed p segments = p.parse segments.flatten := by
  induction segments generalizing p with
  | nil => rfl
  | cons segment segments ih =>
    rw [List.flatten_cons, parse_append sound, parseTwice, feed]
    cases parsed : p.parse segment with
    | error e => rfl
    | ok result =>
      have sound' : Sound result.1 := (body_parses sound parsed).1
      simp only [bind, Except.bind]
      rw [ih sound']

end Calls

section Encoding

/-- The number that hexadecimal digits spell, behind a number that is already read. -/
def sizeFrom (n : Nat) (digits : Bytes) : Nat :=
  digits.foldl (fun n c => n * 16 + (fromHexDigit c).getD 0) n

/-- A spelling of a size: digits in either case, with any number of zeros in front. -/
structure IsSize (digits : Bytes) (n : Nat) : Prop where
  some : digits ≠ []
  digit : ∀ c ∈ digits, (fromHexDigit c).isSome = true
  value : sizeFrom 0 digits = n

/-- What may stand between a size and the end of its line. -/
structure IsExtension (text : Bytes) : Prop where
  first : text = [] ∨ ∃ c more, text = c :: more ∧ (isSp c = true ∨ c = ch ';')
  line : ∀ c ∈ text, c ≠ 13 ∧ c ≠ 10

/-- A line with a size. -/
structure SizeLine where
  digits : Bytes
  extension : Bytes := []
  deriving DecidableEq, Repr

def SizeLine.text (l : SizeLine) : Bytes := l.digits ++ l.extension

structure SizeLine.Spells (l : SizeLine) (n : Nat) : Prop where
  size : IsSize l.digits n
  extension : IsExtension l.extension

/-- A trailer line, without its end. -/
structure IsTrailer (line : Bytes) : Prop where
  first : ∃ c more, line = c :: more ∧ isToken c = true
  cr : 13 ∉ line

/-- A body in chunks as a peer may write it. -/
structure Chunked where
  chunks : List (SizeLine × Bytes)
  last : SizeLine
  trailers : List Bytes
  deriving DecidableEq, Repr

def Chunked.body (c : Chunked) : Bytes := (c.chunks.map Prod.snd).flatten

def chunkText (chunk : SizeLine × Bytes) : Bytes := chunk.1.text ++ crlf ++ chunk.2 ++ crlf

def trailersText (trailers : List Bytes) : Bytes := (trailers.flatMap fun line => line ++ crlf) ++ crlf

def Chunked.text (c : Chunked) : Bytes :=
  c.chunks.flatMap chunkText ++ c.last.text ++ crlf ++ trailersText c.trailers

/-- Each size line fits with the line end before it, which the first one does not
have, and the one behind it. -/
def Fits (before : Nat) : List SizeLine → Prop
  | [] => True
  | l :: lines => before + l.text.length + 2 ≤ maxChunkHeaderTotalLength ∧ Fits 2 lines

structure Chunked.Valid (c : Chunked) : Prop where
  chunks : ∀ chunk ∈ c.chunks, chunk.2 ≠ [] ∧ chunk.2.length < 2 ^ 64 ∧ chunk.1.Spells chunk.2.length
  last : c.last.Spells 0
  lines : Fits 0 (c.chunks.map Prod.fst ++ [c.last])
  trailers : ∀ line ∈ c.trailers, IsTrailer line
  trailing : (trailersText c.trailers).length ≤ maxTrailersTotalLength

end Encoding

section Reading

/-- The scanner takes the whole text from one state to another. -/
def Takes (p : BodyParser) (text : Bytes) (q : BodyParser) : Prop :=
  ∀ rest, scan byByte p (text ++ rest) = scan byByte q rest

private theorem Takes.refl (p : BodyParser) : Takes p [] p := fun _ => rfl

private theorem Takes.trans {r : BodyParser} {first second : Bytes} (front : Takes p first q)
    (back : Takes q second r) :
    Takes p (first ++ second) r := fun rest => by rw [List.append_assoc, front, back]

/-- A parser that is reading a chunk header or a trailer, within its limits. -/
private structure Reading (p : BodyParser) : Prop where
  other : ¬IsBlock p
  running : p.isGood = false
  header : p.chunkHeaderTotalLength ≤ maxChunkHeaderTotalLength
  trailers : p.trailersTotalLength ≤ maxTrailersTotalLength

private theorem takes_byte {c : UInt8} (reading : Reading p)
    (consumed : p.consumeByte c = .ok q) : Takes p [c] q := by
  have step : byByte.consume p c = .ok q := (if_neg reading.other).trans consumed
  exact fun rest => scan_step reading.running step rest

private theorem takes_cons {r : BodyParser} {c : UInt8} {text : Bytes} (first : Takes p [c] q)
    (more : Takes q text r) :
    Takes p (c :: text) r := first.trans more

variable {b : Bytes} {n h t : Nat}

private theorem sizeFrom_le (n : Nat) (digits : Bytes) : n ≤ sizeFrom n digits := by
  induction digits generalizing n with
  | nil => exact Nat.le_refl n
  | cons c digits ih =>
    have later := ih (n * 16 + (fromHexDigit c).getD 0)
    have step : sizeFrom n (c :: digits) = sizeFrom (n * 16 + (fromHexDigit c).getD 0) digits := rfl
    omega

theorem hexDigit_facts {c : UInt8} (digit : (fromHexDigit c).isSome = true) :
    isSp c = false ∧ c ≠ ch ';' ∧ c ≠ 13 ∧ c ≠ 10 := by
  revert digit
  refine byte_cases (P := fun c => (fromHexDigit c).isSome = true → isSp c = false ∧
    c ≠ ch ';' ∧ c ≠ 13 ∧ c ≠ 10) ?_ c
  decide +kernel

/-- More digits of a size that a 64-bit counter holds. -/
private theorem takes_digits {digits : Bytes} (digit : ∀ c ∈ digits, (fromHexDigit c).isSome = true)
    (bound : sizeFrom n digits < 2 ^ 64) (header : h + digits.length ≤ maxChunkHeaderTotalLength)
    (trailers : t ≤ maxTrailersTotalLength) :
    Takes ⟨.chunkSize, b, n, h, t⟩ digits ⟨.chunkSize, b, sizeFrom n digits, h + digits.length, t⟩ := by
  induction digits generalizing n h with
  | nil => exact Takes.refl _
  | cons c digits ih =>
    obtain ⟨d, value⟩ := Option.isSome_iff_exists.mp (digit c List.mem_cons_self)
    obtain ⟨sp, semicolon, cr, lf⟩ := hexDigit_facts (digit c List.mem_cons_self)
    have whole : sizeFrom n (c :: digits) = sizeFrom (n * 16 + d) digits := by simp [sizeFrom, value]
    rw [List.length_cons] at header
    rw [whole] at bound
    have least := sizeFrom_le (n * 16 + d) digits
    have fits : ¬n > (2 ^ 64 - 1 - 15) / 16 := by omega
    have within : ¬h > maxChunkHeaderTotalLength := by omega
    have within' : ¬t > maxTrailersTotalLength := by omega
    have first : Takes ⟨.chunkSize, b, n, h, t⟩ [c] ⟨.chunkSize, b, n * 16 + d, h + 1, t⟩ := by
      refine takes_byte ⟨by simp [IsBlock], rfl, by simp only; omega, trailers⟩ ?_
      simp only [consumeByte, within, within', sp, semicolon, cr, lf, value, fits, chunkHeader,
        Bool.false_eq_true, or_self, ↓reduceIte]
    have later := takes_cons first
      (ih (fun e member => digit e (List.mem_cons_of_mem _ member)) bound (by omega))
    rw [whole, List.length_cons]
    simpa only [Nat.add_assoc, Nat.add_comm 1] using later

/-- A size from its first digit. -/
private theorem takes_size {digits : Bytes} {r : Nat} (size : IsSize digits n) (bound : n < 2 ^ 64)
    (header : h + digits.length ≤ maxChunkHeaderTotalLength) (trailers : t ≤ maxTrailersTotalLength) :
    Takes ⟨.chunkSizeStart, b, r, h, t⟩ digits ⟨.chunkSize, b, n, h + digits.length, t⟩ := by
  obtain ⟨c, more, rfl⟩ := List.exists_cons_of_ne_nil size.some
  obtain ⟨d, value⟩ := Option.isSome_iff_exists.mp (size.digit c List.mem_cons_self)
  obtain ⟨sp, -⟩ := hexDigit_facts (size.digit c List.mem_cons_self)
  have whole : sizeFrom d more = n := by simpa [sizeFrom, value] using size.value
  rw [List.length_cons] at header
  have within : ¬h > maxChunkHeaderTotalLength := by omega
  have within' : ¬t > maxTrailersTotalLength := by omega
  have first : Takes ⟨.chunkSizeStart, b, r, h, t⟩ [c] ⟨.chunkSize, b, d, h + 1, t⟩ := by
    refine takes_byte ⟨by simp [IsBlock], rfl, by simp only; omega, trailers⟩ ?_
    simp only [consumeByte, within, within', sp, value, chunkHeader, Bool.false_eq_true, ↓reduceIte]
  have later := takes_cons first
    (takes_digits (fun e member => size.digit e (List.mem_cons_of_mem _ member))
    (by omega) (by omega) trailers)
  rw [whole] at later
  rw [List.length_cons]
  simpa only [Nat.add_assoc, Nat.add_comm 1] using later

/-- The parser at the end of a size line. -/
private structure Sized (p : BodyParser) (b : Bytes) (n h t : Nat) : Prop where
  state : p.state = .chunkSize ∨ p.state = .chunkSizeExtension
  same : p = ⟨p.state, b, n, h, t⟩

private theorem takes_skipped {text : Bytes} (line : ∀ c ∈ text, c ≠ 13 ∧ c ≠ 10)
    (header : h + text.length ≤ maxChunkHeaderTotalLength) (trailers : t ≤ maxTrailersTotalLength) :
    Takes ⟨.chunkSizeExtension, b, n, h, t⟩ text ⟨.chunkSizeExtension, b, n, h + text.length, t⟩ := by
  induction text generalizing h with
  | nil => exact Takes.refl _
  | cons c text ih =>
    obtain ⟨cr, lf⟩ := line c List.mem_cons_self
    rw [List.length_cons] at header
    have within : ¬h > maxChunkHeaderTotalLength := by omega
    have within' : ¬t > maxTrailersTotalLength := by omega
    have first : Takes ⟨.chunkSizeExtension, b, n, h, t⟩ [c] ⟨.chunkSizeExtension, b, n, h + 1, t⟩ := by
      refine takes_byte ⟨by simp [IsBlock], rfl, by simp only; omega, trailers⟩ ?_
      simp only [consumeByte, within, within', cr, lf, chunkHeader, ↓reduceIte]
    have later := takes_cons first
      (ih (fun d member => line d (List.mem_cons_of_mem _ member)) (by omega))
    rw [List.length_cons]
    simpa only [Nat.add_assoc, Nat.add_comm 1] using later

private theorem takes_extension {text : Bytes} (extension : IsExtension text)
    (header : h + text.length ≤ maxChunkHeaderTotalLength) (trailers : t ≤ maxTrailersTotalLength) :
    ∃ q, Sized q b n (h + text.length) t ∧ Takes ⟨.chunkSize, b, n, h, t⟩ text q := by
  rcases extension.first with rfl | ⟨c, more, rfl, starts⟩
  · exact ⟨_, ⟨.inl rfl, rfl⟩, Takes.refl _⟩
  · rw [List.length_cons] at header
    have within : ¬h > maxChunkHeaderTotalLength := by omega
    have within' : ¬t > maxTrailersTotalLength := by omega
    have first : Takes ⟨.chunkSize, b, n, h, t⟩ [c] ⟨.chunkSizeExtension, b, n, h + 1, t⟩ := by
      refine takes_byte ⟨by simp [IsBlock], rfl, by simp only; omega, trailers⟩ ?_
      simp only [consumeByte, within, within', starts, chunkHeader, ↓reduceIte]
    have later := takes_cons first
      (takes_skipped (fun d member => extension.line d (List.mem_cons_of_mem _ member)) (by omega)
      trailers)
    have total : h + 1 + more.length = h + (c :: more).length := by
      rw [List.length_cons]
      omega
    rw [total] at later
    exact ⟨_, ⟨.inr rfl, rfl⟩, later⟩

/-- The end of a line, in the counter of its states. -/
private theorem takes_crlf {r : BodyParser} (reading : Reading p) (reading' : Reading q)
    (cr : p.consumeByte 13 = .ok q) (lf : q.consumeByte 10 = .ok r) : Takes p crlf r :=
  takes_cons (takes_byte reading cr) (takes_byte reading' lf)

private theorem takes_sizeEnd (sized : Sized p b n h t) (header : h + 2 ≤ maxChunkHeaderTotalLength)
    (trailers : t ≤ maxTrailersTotalLength) :
    Takes p crlf ⟨if n = 0 then .trailerLineStart else .chunkBody, b, n, h + 2, t⟩ := by
  have within : ¬h > maxChunkHeaderTotalLength := by omega
  have within' : ¬t > maxTrailersTotalLength := by omega
  have within'' : ¬h + 1 > maxChunkHeaderTotalLength := by omega
  have semicolon : (13 : UInt8) ≠ ch ';' := by decide
  have lf : BodyParser.consumeByte ⟨.chunkSizeLf, b, n, h + 1, t⟩ 10 =
      .ok ⟨if n = 0 then .trailerLineStart else .chunkBody, b, n, h + 2, t⟩ := by
    simp [consumeByte, within', within'', chunkHeader, afterSize]
  have reading' : Reading ⟨.chunkSizeLf, b, n, h + 1, t⟩ :=
    ⟨by simp [IsBlock], rfl, by simp only; omega, trailers⟩
  rcases sized.state with state | state
  · have same := sized.same
    rw [state] at same
    rw [same]
    refine takes_crlf ⟨by simp [IsBlock], rfl, by simp only; omega, trailers⟩ reading' ?_ lf
    simp [consumeByte, within, within', semicolon, chunkHeader]
  · have same := sized.same
    rw [state] at same
    rw [same]
    refine takes_crlf ⟨by simp [IsBlock], rfl, by simp only; omega, trailers⟩ reading' ?_ lf
    simp [consumeByte, within, within', chunkHeader]

/-- A whole size line. -/
private theorem takes_line {l : SizeLine} {r : Nat} (spells : l.Spells n) (bound : n < 2 ^ 64)
    (fits : h + l.text.length + 2 ≤ maxChunkHeaderTotalLength) (trailers : t ≤ maxTrailersTotalLength) :
    Takes ⟨.chunkSizeStart, b, r, h, t⟩ (l.text ++ crlf)
      ⟨if n = 0 then .trailerLineStart else .chunkBody, b, n, h + l.text.length + 2, t⟩ := by
  have length : l.text.length = l.digits.length + l.extension.length := List.length_append
  have size := takes_size (b := b) (r := r) spells.size bound
    (show h + l.digits.length ≤ _ by omega) trailers
  obtain ⟨q, sized, extension⟩ := takes_extension (b := b) (n := n) spells.extension
    (show h + l.digits.length + l.extension.length ≤ _ by omega) trailers
  have end_ := takes_sizeEnd sized (by omega) trailers
  have total : h + l.digits.length + l.extension.length = h + l.text.length := by omega
  rw [total] at end_
  exact (size.trans extension).trans end_

/-- The data of a chunk. -/
private theorem takes_data {data : Bytes} (some_ : data ≠ []) :
    Takes ⟨.chunkBody, b, data.length, h, t⟩ data ⟨.chunkBodyCr, b ++ data, 0, 0, t⟩ := by
  intro rest
  have left : 0 < data.length := List.length_pos_iff.mpr some_
  have whole : min (data ++ rest).length data.length = data.length := by
    rw [List.length_append]
    omega
  rw [scan_block (.inr rfl) left, whole]
  simp [blockEnd, takeBody]

private theorem takes_dataEnd (trailers : t ≤ maxTrailersTotalLength) :
    Takes ⟨.chunkBodyCr, b, n, 0, t⟩ crlf ⟨.chunkSizeStart, b, n, 2, t⟩ := by
  have within' : ¬t > maxTrailersTotalLength := by omega
  have none : ¬0 > maxChunkHeaderTotalLength := by decide
  have one : ¬0 + 1 > maxChunkHeaderTotalLength := by decide
  refine takes_crlf (q := ⟨.chunkBodyLf, b, n, 1, t⟩) ⟨by simp [IsBlock], rfl, Nat.zero_le _, trailers⟩
    ⟨by simp [IsBlock], rfl, Nat.not_lt.mp one, trailers⟩ ?_ ?_
  · simp [consumeByte, none, within', chunkHeader]
  · simp [consumeByte, one, within', chunkHeader]

/-- A chunk, behind whatever stands before its size. -/
private theorem takes_chunk {chunk : SizeLine × Bytes} {r : Nat}
    (ok : chunk.2 ≠ [] ∧ chunk.2.length < 2 ^ 64 ∧ chunk.1.Spells chunk.2.length)
    (fits : h + chunk.1.text.length + 2 ≤ maxChunkHeaderTotalLength)
    (trailers : t ≤ maxTrailersTotalLength) :
    Takes ⟨.chunkSizeStart, b, r, h, t⟩ (chunkText chunk) ⟨.chunkSizeStart, b ++ chunk.2, 0, 2, t⟩ := by
  obtain ⟨some_, bound, spells⟩ := ok
  have line := takes_line (b := b) (r := r) spells bound fits trailers
  have counted : chunk.2.length ≠ 0 := fun zero => some_ (List.eq_nil_of_length_eq_zero zero)
  rw [if_neg counted] at line
  exact (line.trans (takes_data some_)).trans (takes_dataEnd trailers)

/-- The chunks and the size line of the last one. -/
private theorem takes_chunks {chunks : List (SizeLine × Bytes)} {last : SizeLine} {r : Nat}
    (ok : ∀ chunk ∈ chunks, chunk.2 ≠ [] ∧ chunk.2.length < 2 ^ 64 ∧ chunk.1.Spells chunk.2.length)
    (last_ : last.Spells 0) (fits : Fits h (chunks.map Prod.fst ++ [last]))
    (trailers : t ≤ maxTrailersTotalLength) :
    ∃ h', h' ≤ maxChunkHeaderTotalLength ∧
      Takes ⟨.chunkSizeStart, b, r, h, t⟩ (chunks.flatMap chunkText ++ (last.text ++ crlf))
      ⟨.trailerLineStart, b ++ (chunks.map Prod.snd).flatten, 0, h', t⟩ := by
  induction chunks generalizing b r h with
  | nil =>
    have line := takes_line (b := b) (r := r) last_ (by decide) fits.1 trailers
    refine ⟨_, fits.1, ?_⟩
    simpa using line
  | cons chunk chunks ih =>
    obtain ⟨within, fits'⟩ := fits
    have first := takes_chunk (b := b) (r := r) (ok chunk List.mem_cons_self) within trailers
    obtain ⟨h', within', later⟩ :=
      ih (b := b ++ chunk.2) (r := 0) (h := 2) (fun c member =>
        ok c (List.mem_cons_of_mem _ member)) fits'
    refine ⟨h', within', ?_⟩
    have whole := first.trans later
    simpa only [List.flatMap_cons, List.map_cons, List.flatten_cons, List.append_assoc] using whole

private theorem takes_trailerText {text : Bytes} (cr : 13 ∉ text)
    (header : h ≤ maxChunkHeaderTotalLength) (trailers : t + text.length ≤ maxTrailersTotalLength) :
    Takes ⟨.trailer, b, n, h, t⟩ text ⟨.trailer, b, n, h, t + text.length⟩ := by
  induction text generalizing t with
  | nil => exact Takes.refl _
  | cons c text ih =>
    rw [List.mem_cons, not_or] at cr
    rw [List.length_cons] at trailers
    have within : ¬h > maxChunkHeaderTotalLength := by omega
    have within' : ¬t > maxTrailersTotalLength := by omega
    have first : Takes ⟨.trailer, b, n, h, t⟩ [c] ⟨.trailer, b, n, h, t + 1⟩ := by
      refine takes_byte ⟨by simp [IsBlock], rfl, header, by simp only; omega⟩ ?_
      simp only [consumeByte, within, within', Ne.symm cr.1, trailerByte, ↓reduceIte]
    have later := takes_cons first (ih cr.2 (by omega))
    rw [List.length_cons]
    simpa only [Nat.add_assoc, Nat.add_comm 1] using later

/-- A trailer line. -/
private theorem takes_trailer {line : Bytes} (isTrailer : IsTrailer line)
    (header : h ≤ maxChunkHeaderTotalLength) (trailers : t + line.length + 2 ≤ maxTrailersTotalLength) :
    Takes ⟨.trailerLineStart, b, n, h, t⟩ (line ++ crlf) ⟨.trailerLineStart, b, n, h,
      t + line.length + 2⟩ := by
  obtain ⟨c, more, rfl, token⟩ := isTrailer.first
  have cr := isTrailer.cr
  rw [List.mem_cons, not_or] at cr
  rw [List.length_cons] at trailers
  obtain ⟨-, -, -, notCr, notLf⟩ := HeaderProofs.token_facts token
  have within : ¬h > maxChunkHeaderTotalLength := by omega
  have first : Takes ⟨.trailerLineStart, b, n, h, t⟩ [c] ⟨.trailer, b, n, h, t + 1⟩ := by
    have within' : ¬t > maxTrailersTotalLength := by omega
    refine takes_byte ⟨by simp [IsBlock], rfl, header, by simp only; omega⟩ ?_
    simp only [consumeByte, within, within', notCr, notLf, token, trailerByte, Bool.not_true,
      Bool.false_eq_true, ↓reduceIte]
  have middle := takes_trailerText (b := b) (n := n) (h := h) (t := t + 1) cr.2 header (by omega)
  have end_ :
      Takes ⟨.trailer, b, n, h, t + 1 + more.length⟩ crlf ⟨.trailerLineStart, b, n, h,
      t + 1 + more.length + 2⟩ := by
    have within' : ¬t + 1 + more.length > maxTrailersTotalLength := by omega
    have within'' : ¬t + 1 + more.length + 1 > maxTrailersTotalLength := by omega
    refine takes_crlf (q := ⟨.trailerLf, b, n, h, t + 1 + more.length + 1⟩) ⟨by simp [IsBlock], rfl,
      header, by simp only; omega⟩ ⟨by simp [IsBlock], rfl, header, by simp only; omega⟩ ?_ ?_
    · simp [consumeByte, within, within', trailerByte]
    · simp [consumeByte, within, within'', trailerByte]
  have whole := (takes_cons first middle).trans end_
  have total : t + 1 + more.length + 2 = t + (c :: more).length + 2 := by
    rw [List.length_cons]
    omega
  rwa [total] at whole

/-- The trailers and the line end behind them. -/
private theorem takes_trailers {trailers : List Bytes} (ok : ∀ line ∈ trailers, IsTrailer line)
    (header : h ≤ maxChunkHeaderTotalLength)
    (fits : t + (trailersText trailers).length ≤ maxTrailersTotalLength) :
    ∃ q, q.isGood = true ∧ q.body = b ∧
      Takes ⟨.trailerLineStart, b, n, h, t⟩ (trailersText trailers) q := by
  induction trailers generalizing t with
  | nil =>
    have length : (trailersText []).length = 2 := rfl
    have within : ¬h > maxChunkHeaderTotalLength := by omega
    have within' : ¬t > maxTrailersTotalLength := by omega
    have within'' : ¬t + 1 > maxTrailersTotalLength := by omega
    refine ⟨⟨.good, b, n, h, t + 2⟩, rfl, rfl, ?_⟩
    refine takes_crlf (q := ⟨.finalLf, b, n, h, t + 1⟩) ⟨by simp [IsBlock], rfl,
      header, by simp only; omega⟩ ⟨by simp [IsBlock], rfl, header, by simp only; omega⟩ ?_ ?_
    · simp [consumeByte, within, within', trailerByte]
    · simp [consumeByte, within, within'', trailerByte]
  | cons line trailers ih =>
    have text : trailersText (line :: trailers) = line ++ crlf ++ trailersText trailers := by
      simp [trailersText]
    have ends : crlf.length = 2 := rfl
    rw [text] at fits ⊢
    simp only [List.length_append] at fits
    have first := takes_trailer (b := b) (n := n) (ok line List.mem_cons_self) header
      (show t + line.length + 2 ≤ _ by omega)
    obtain ⟨q, good, same, later⟩ :=
      ih (t := t + line.length + 2) (fun l member => ok l (List.mem_cons_of_mem _ member)) (by omega)
    exact ⟨q, good, same, first.trans later⟩

/-- A whole body is taken to its end. -/
theorem takes_chunked (c : Chunked) (valid : c.Valid) (length : Option UInt64) :
    ∃ q, q.isGood = true ∧ q.body = c.body ∧ Takes (make length true) c.text q := by
  obtain ⟨h, header, lines⟩ :=
    takes_chunks (b := []) (r := 0) (t := 0) valid.chunks valid.last valid.lines (Nat.zero_le _)
  obtain ⟨q, good, same, trailing⟩ :=
    takes_trailers (b := c.body) (n := 0) (h := h) (t := 0) valid.trailers header
    (by rw [Nat.zero_add]; exact valid.trailing)
  refine ⟨q, good, same, ?_⟩
  have text :
      c.text = c.chunks.flatMap chunkText ++ (c.last.text ++ crlf) ++ trailersText c.trailers := by
    simp [Chunked.text]
  rw [text]
  exact lines.trans trailing

end Reading

section Decoding

/-- What successive calls make of the beginning of a body and what follows it: the
parser is good from the end of the body on, and leaves what is behind. -/
def Decoded (c : Chunked) (length : Option UInt64) (segments : List Bytes) : Prop :=
  ∃ q left, feed (make length true) segments = .ok (q, left) ∧
    if segments.flatten.length < c.text.length then q.isGood = false ∧ left = []
    else q.isGood = true ∧ q.body = c.body ∧ segments.flatten = c.text ++ left

/-- Chunks are read however they are cut, and any input is read alike in one call
and in two. -/
theorem chunked_body :
    (∀ (c : Chunked) (length : Option UInt64) (segments : List Bytes) (more following : Bytes), c.Valid →
      segments.flatten ++ more = c.text ++ following → Decoded c length segments) ∧
    (∀ (length : Option UInt64) (chunked : Bool) (before : List Bytes) (p : BodyParser) (left : Bytes),
      feed (make length chunked) before = .ok (p, left) →
      ∀ first second, p.parse (first ++ second) = parseTwice p first second) := by
  constructor
  · intro c length segments more following valid cut
    have sound := make_sound length true
    obtain ⟨q, good, same, takes⟩ := takes_chunked c valid length
    have whole : scan byByte (make length true) c.text = .ok (q, []) := by
      have end_ := takes []
      rwa [List.append_nil, scan_nil] at end_
    rw [Decoded, feed_flatten sound, parse_scan sound]
    by_cases early : segments.flatten.length < c.text.length
    · -- the calls so far end inside the body
      obtain ⟨rest, text⟩ : ∃ rest, c.text = segments.flatten ++ rest := by
        obtain ⟨rest, text, -⟩ | ⟨rest, text, -⟩ := List.append_eq_append_iff.mp cut
        · exact ⟨rest, text⟩
        · rw [text, List.length_append] at early
          omega
      have remains : rest ≠ [] := by
        rintro rfl
        rw [text, List.append_nil] at early
        omega
      rw [text] at whole
      obtain ⟨u, scanned, running, -⟩ := scan_part whole remains
      refine ⟨u, [], scanned, ?_⟩
      rw [if_pos early]
      exact ⟨running, rfl⟩
    · obtain ⟨left, flat⟩ : ∃ left, segments.flatten = c.text ++ left := by
        obtain ⟨rest, text, -⟩ | ⟨rest, text, -⟩ := List.append_eq_append_iff.mp cut
        · rw [text, List.length_append] at early
          have none : rest = [] := List.eq_nil_of_length_eq_zero (by omega)
          exact ⟨[], by rw [text, none]; simp⟩
        · exact ⟨rest, text⟩
      refine ⟨q, left, ?_, ?_⟩
      · rw [flat]
        exact scan_whole whole good left
      · rw [if_neg early]
        exact ⟨good, same, flat⟩
  · intro length chunked before p left fed first second
    have sound : Sound p := by
      rw [feed_flatten (make_sound length chunked)] at fed
      exact (body_parses (make_sound length chunked) fed).1
    exact parse_append sound first second

private def wiki : Chunked where
  chunks := [({ digits := str "04" }, str "Wiki"),
    ({ digits := str "A", extension := str ";a=b" }, str "pedia in c")]
  last := { digits := str "00" }
  trailers := [str "a: b"]

private theorem wiki_valid : wiki.Valid where
  chunks := by
    intro chunk member
    rcases List.mem_cons.mp member with rfl | member
    · exact ⟨by decide, by decide, ⟨by decide, List.all_iff_forall_prop.mp (by decide), by decide⟩,
        .inl rfl, by simp⟩
    · rw [List.mem_singleton.mp member]
      exact ⟨by decide, by decide, ⟨by decide, List.all_iff_forall_prop.mp (by decide), by decide⟩,
        .inr ⟨ch ';', str "a=b", by decide, .inr rfl⟩, List.all_iff_forall_prop.mp (by decide)⟩
  last := ⟨⟨by decide, List.all_iff_forall_prop.mp (by decide), by decide⟩, .inl rfl, by simp [wiki]⟩
  lines := ⟨by decide, by decide, by decide, trivial⟩
  trailers := by
    intro line member
    rw [List.mem_singleton.mp member]
    exact ⟨⟨ch 'a', str ": b", by decide, by decide⟩, by decide⟩
  trailing := by decide

theorem chunked_body_wiki :
    Decoded wiki none [str "04\r\nWi", str "ki\r\nA;a=b\r\npedia in c\r\n00\r\na: b\r\n\r",
      str "\nGET"] :=
  chunked_body.1 wiki none _ [] (str "GET") wiki_valid (by decide)

end Decoding

end Crablib.ChunkProofs
