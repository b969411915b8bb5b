import Crablib.ChunkProofs

/-! The line ends of a chunked body. The parser takes a bare line feed for both
characters everywhere but in a trailer, where it does not end the line. -/
namespace Crablib.BodyTerminatorProofs
open Http Scanner BodyParser ChunkProofs ParserProofs

section Texts

/-- The end of a line. -/
inductive Terminator where
  | crlf
  | lf
  deriving DecidableEq, Repr

def Terminator.text : Terminator → Bytes
  | .crlf => [13, 10]
  | .lf => [10]

/-- A chunk: spaces may stand before its size and behind its data. -/
structure Chunk where
  lead : Bytes := []
  line : SizeLine
  sizeEnd : Terminator := .crlf
  data : Bytes
  gap : Bytes := []
  dataEnd : Terminator := .crlf

/-- A chunked body, and the end of each of its lines. -/
structure Written where
  chunks : List Chunk
  lead : Bytes := []
  last : SizeLine
  lastEnd : Terminator := .crlf
  trailers : List (Bytes × Terminator)
  final : Terminator := .crlf

def Chunk.text (c : Chunk) : Bytes :=
  c.lead ++ (c.line.digits ++
    (c.line.extension ++ (c.sizeEnd.text ++ (c.data ++ (c.gap ++ c.dataEnd.text)))))

def trailerLines (trailers : List (Bytes × Terminator)) : Bytes :=
  trailers.flatMap fun line => line.1 ++ line.2.text

def Written.text (w : Written) : Bytes :=
  w.chunks.flatMap Chunk.text ++ (w.lead ++ (w.last.digits ++ (w.last.extension ++ (w.lastEnd.text ++
    (trailerLines w.trailers ++ w.final.text)))))

/-- The same with both characters at the end of every line. -/
def Chunk.plain (c : Chunk) : Chunk := { c with sizeEnd := .crlf, dataEnd := .crlf }

def Written.plain (w : Written) : Written :=
  { w with
    chunks := w.chunks.map Chunk.plain
    lastEnd := .crlf
    trailers := w.trailers.map fun line => (line.1, .crlf)
    final := .crlf }

structure Chunk.IsChunk (c : Chunk) : Prop where
  lead : ∀ b ∈ c.lead, isSp b = true
  line : c.line.Spells c.data.length
  some : c.data ≠ []
  gap : ∀ b ∈ c.gap, isSp b = true

/-- A body as the parser reads one. -/
structure Written.IsBody (w : Written) : Prop where
  chunks : ∀ c ∈ w.chunks, c.IsChunk
  lead : ∀ b ∈ w.lead, isSp b = true
  last : w.last.Spells 0
  trailers : ∀ line ∈ w.trailers, IsTrailer line.1

/-- The parser takes the whole text as one body. -/
def Accepted (length : Option UInt64) (text : Bytes) (p : BodyParser) : Prop :=
  (make length true).parse text = .ok (p, []) ∧ p.isGood = true

end Texts

section Steps

variable {p q r : BodyParser} {c : UInt8}

/-- The parsers are at the same place, and `q` has counted no more than `p`. -/
structure Less (q p : BodyParser) : Prop where
  state : q.state = p.state
  body : q.body = p.body
  remaining : q.remainingBytes = p.remainingBytes
  header : q.chunkHeaderTotalLength ≤ p.chunkHeaderTotalLength
  trailers : q.trailersTotalLength ≤ p.trailersTotalLength

theorem Less.refl (p : BodyParser) : Less p p := ⟨rfl, rfl, rfl, Nat.le_refl _, Nat.le_refl _⟩

/-- What a byte does depends on the counters through the limits only. -/
private theorem consumeByte_moves {s : BodyParserState} {b : Bytes} {n h t : Nat}
    (consumed : consumeByte ⟨s, b, n, h, t⟩ c = .ok q) {h' t' : Nat}
    (header : h' ≤ h) (trailers : t' ≤ t) :
    ∃ s' n' i j, q = ⟨s', b, n', h + i, t + j⟩ ∧
      consumeByte ⟨s, b, n, h', t'⟩ c = .ok ⟨s', b, n', h' + i, t' + j⟩ := by
  unfold consumeByte at consumed ⊢
  split at consumed
  · cases consumed
  split at consumed
  · cases consumed
  rename_i within within'
  have short : ¬h' > maxChunkHeaderTotalLength := by simp only at within; omega
  have short' : ¬t' > maxTrailersTotalLength := by simp only at within'; omega
  rw [if_neg short, if_neg short']
  cases s <;> simp only at consumed ⊢
  all_goals repeat' split at consumed
  all_goals
    cases consumed
    try first
      | exact ⟨_, _, 1, 0, rfl, by simp_all [chunkHeader, afterSize]⟩
      | exact ⟨_, _, 0, 1, rfl, by simp_all [trailerByte]⟩

private theorem blockEnd_less (less : Less q p) : Less (blockEnd q) (blockEnd p) := by
  unfold blockEnd
  rw [less.state, less.remaining]
  split
  · exact less
  split
  · exact ⟨rfl, less.body, rfl, less.header, less.trailers⟩
  · exact ⟨rfl, less.body, rfl, Nat.le_refl _, less.trailers⟩

/-- A parser that has counted less takes the byte in the same way. -/
theorem Less.consume {p' : BodyParser} (less : Less q p) (consumed : byByte.consume p c = .ok p') :
    ∃ q', byByte.consume q c = .ok q' ∧ Less q' p' := by
  obtain ⟨state, body, remaining, header, trailers⟩ := p
  obtain ⟨state', body', remaining', header', trailers'⟩ := q
  obtain ⟨rfl, rfl, rfl, h, t⟩ := less
  simp only at h t
  by_cases block : IsBlock ⟨state', body', remaining', header, trailers⟩
  · have block' : IsBlock ⟨state', body', remaining', header', trailers'⟩ := block
    rw [show byByte.consume _ c = _ from if_pos block] at consumed
    cases consumed
    refine ⟨_, if_pos block', ?_⟩
    exact blockEnd_less ⟨rfl, rfl, rfl, h, t⟩
  · have other : ¬IsBlock ⟨state', body', remaining', header', trailers'⟩ := block
    obtain ⟨s, n, i, j, rfl, moved⟩ := consumeByte_moves ((if_neg block).symm.trans consumed) h t
    exact ⟨_, (if_neg other).trans moved, rfl, rfl, rfl, by simp only; omega, by simp only; omega⟩

theorem Less.scan {p' : BodyParser} {text : Bytes} (less : Less q p)
    (scanned : scan byByte p text = .ok (p', [])) :
    ∃ q', Scanner.scan byByte q text = .ok (q', []) ∧ Less q' p' := by
  induction text generalizing p q with
  | nil =>
    cases scanned
    exact ⟨q, rfl, less⟩
  | cons c text ih =>
    obtain ⟨running, u, consumed, later⟩ := scan_first scanned
    obtain ⟨v, consumed', less'⟩ := less.consume consumed
    obtain ⟨q', scanned', less''⟩ := ih less' later
    have running' : byByte.good q = false := by
      simp only [byByte, isGood] at running ⊢
      rw [less.state, running]
    exact ⟨q', (scan_step running' consumed' text).trans scanned', less''⟩

/-- A byte that is not data. -/
private theorem consume_other_ok (other : ¬IsBlock p) (consumed : byByte.consume p c = .ok q) :
    p.consumeByte c = .ok q :=
  (if_neg other).symm.trans consumed

end Steps

section Pieces

variable {p q : BodyParser} {c : UInt8} {text digits : Bytes} {n : Nat}

/-- The part of a byte's effect that the limits do not change. -/
private theorem consume_start (state : p.state = .chunkSizeStart)
    (consumed : byByte.consume p c = .ok q) :
    if isSp c then q.state = .chunkSizeStart
    else ∃ d, fromHexDigit c = some d ∧ q.state = .chunkSize ∧ q.remainingBytes = d := by
  have byte := consume_other_ok (by simp [IsBlock, state]) consumed
  unfold consumeByte at byte
  split at byte
  · cases byte
  split at byte
  · cases byte
  simp only [state] at byte
  split at byte
  · rename_i sp
    cases byte
    rw [if_pos sp]
  · rename_i sp
    rw [if_neg sp]
    split at byte
    · cases byte
    · rename_i d digit
      cases byte
      exact ⟨d, digit, rfl, rfl⟩

private theorem scan_lead (state : p.state = .chunkSizeStart) (blank : ∀ c ∈ text, isSp c = true)
    (scanned : scan byByte p text = .ok (q, [])) : q.state = .chunkSizeStart := by
  induction text generalizing p with
  | nil =>
    cases scanned
    exact state
  | cons c text ih =>
    obtain ⟨-, u, consumed, later⟩ := scan_first scanned
    have next := consume_start state consumed
    rw [if_pos (blank c List.mem_cons_self)] at next
    exact ih next (fun d member => blank d (List.mem_cons_of_mem _ member)) later

private theorem consume_size (state : p.state = .chunkSize) (digit : (fromHexDigit c).isSome = true)
    (consumed : byByte.consume p c = .ok q) :
    q.state = .chunkSize ∧ q.remainingBytes = p.remainingBytes * 16 + (fromHexDigit c).getD 0 := by
  obtain ⟨sp, semicolon, cr, lf⟩ := hexDigit_facts digit
  have byte := consume_other_ok (by simp [IsBlock, state]) consumed
  unfold consumeByte at byte
  split at byte
  · cases byte
  split at byte
  · cases byte
  simp only [state, sp, semicolon, Bool.false_eq_true, or_self, ↓reduceIte] at byte
  split at byte
  · cases byte
  · rename_i d found
    split at byte
    · cases byte
    · cases byte
      exact ⟨rfl, by rw [found]; rfl⟩

private theorem scan_digits (state : p.state = .chunkSize)
    (digit : ∀ c ∈ digits, (fromHexDigit c).isSome = true)
    (scanned : scan byByte p digits = .ok (q, [])) :
    q.state = .chunkSize ∧ q.remainingBytes = sizeFrom p.remainingBytes digits := by
  induction digits generalizing p with
  | nil =>
    cases scanned
    exact ⟨state, rfl⟩
  | cons c digits ih =>
    obtain ⟨-, u, consumed, later⟩ := scan_first scanned
    obtain ⟨state', remaining⟩ := consume_size state (digit c List.mem_cons_self) consumed
    have rest := ih state' (fun d member => digit d (List.mem_cons_of_mem _ member)) later
    rw [remaining] at rest
    exact rest

private theorem scan_size (state : p.state = .chunkSizeStart) (size : IsSize digits n)
    (scanned : scan byByte p digits = .ok (q, [])) :
    q.state = .chunkSize ∧ q.remainingBytes = n := by
  obtain ⟨c, more, rfl⟩ := List.exists_cons_of_ne_nil size.some
  have first := size.digit c List.mem_cons_self
  obtain ⟨-, u, consumed, later⟩ := scan_first scanned
  have next := consume_start state consumed
  rw [if_neg (by simp [(hexDigit_facts first).1])] at next
  obtain ⟨d, value, state', remaining⟩ := next
  have rest := scan_digits state' (fun d member => size.digit d (List.mem_cons_of_mem _ member)) later
  have whole : sizeFrom d more = n := by simpa [sizeFrom, value] using size.value
  rw [remaining, whole] at rest
  exact rest

/-- The parser is in a size line, behind the size. -/
def SizeRead (p : BodyParser) (n : Nat) : Prop :=
  (p.state = .chunkSize ∨ p.state = .chunkSizeExtension) ∧ p.remainingBytes = n

private theorem scan_skipped (read : SizeRead p n)
    (extension : p.state = .chunkSizeExtension ∨ text = [] ∨ ∃ c more, text = c :: more ∧
      (isSp c = true ∨ c = ch ';'))
    (line : ∀ c ∈ text, c ≠ 13 ∧ c ≠ 10) (scanned : scan byByte p text = .ok (q, [])) :
    SizeRead q n := by
  induction text generalizing p with
  | nil =>
    cases scanned
    exact read
  | cons c text ih =>
    obtain ⟨-, u, consumed, later⟩ := scan_first scanned
    obtain ⟨cr, lf⟩ := line c List.mem_cons_self
    have other : ¬IsBlock p := by rcases read.1 with state | state <;> simp [IsBlock, state]
    have byte := consume_other_ok other consumed
    have next : u.state = .chunkSizeExtension ∧ u.remainingBytes = p.remainingBytes := by
      unfold consumeByte at byte
      split at byte
      · cases byte
      split at byte
      · cases byte
      rcases read.1 with state | state
      · have first : isSp c = true ∨ c = ch ';' := by
          rcases extension with state' | none | ⟨d, more, same, first⟩
          · rw [state] at state'
            cases state'
          · cases none
          · cases same
            exact first
        simp only [state, first, ↓reduceIte] at byte
        cases byte
        exact ⟨rfl, rfl⟩
      · simp only [state] at byte
        cases byte
        exact ⟨rfl, rfl⟩
    exact ih ⟨.inr next.1, next.2.trans read.2⟩ (.inl next.1) (fun d member =>
      line d (List.mem_cons_of_mem _ member)) later

private theorem scan_gap (state : p.state = .chunkBodyCr) (blank : ∀ c ∈ text, isSp c = true)
    (scanned : scan byByte p text = .ok (q, [])) : q.state = .chunkBodyCr := by
  induction text generalizing p with
  | nil =>
    cases scanned
    exact state
  | cons c text ih =>
    obtain ⟨-, u, consumed, later⟩ := scan_first scanned
    have byte := consume_other_ok (by simp [IsBlock, state]) consumed
    have next : u.state = .chunkBodyCr := by
      unfold consumeByte at byte
      split at byte
      · cases byte
      split at byte
      · cases byte
      simp only [state, blank c List.mem_cons_self, ↓reduceIte] at byte
      cases byte
      rfl
    exact ih next (fun d member => blank d (List.mem_cons_of_mem _ member)) later

private theorem scan_data (state : p.state = .chunkBody)
    (remaining : p.remainingBytes = text.length) (some_ : text ≠ [])
    (scanned : scan byByte p text = .ok (q, [])) : q.state = .chunkBodyCr := by
  rw [scan_block (.inr state) (by rw [remaining]; exact List.length_pos_iff.mpr some_), remaining,
    Nat.min_self, List.take_length, List.drop_length] at scanned
  cases scanned
  simp [blockEnd, takeBody, remaining, state]

end Pieces

section Ends

variable {p q r : BodyParser} {n : Nat} {first second : Bytes}

/-- The parser takes the whole text. -/
def Runs (p : BodyParser) (text : Bytes) (q : BodyParser) : Prop := scan byByte p text = .ok (q, [])

private theorem Runs.split (runs : Runs p (first ++ second) r) :
    ∃ u, Runs p first u ∧ Runs u second r := by
  cases second with
  | nil =>
    rw [List.append_nil] at runs
    exact ⟨r, runs, rfl⟩
  | cons c second =>
    obtain ⟨u, before, -, behind⟩ := scan_part runs (by simp)
    exact ⟨u, before, behind⟩

private theorem Runs.join (before : Runs p first q) (behind : Runs q second r) :
    Runs p (first ++ second) r := by
  rw [Runs, scan_append, show scan byByte p first = _ from before]
  exact behind

private theorem within_limits {c : UInt8} (consumed : p.consumeByte c = .ok q) :
    ¬p.chunkHeaderTotalLength > maxChunkHeaderTotalLength ∧
      ¬p.trailersTotalLength > maxTrailersTotalLength := by
  unfold consumeByte at consumed
  split at consumed
  · cases consumed
  split at consumed
  · cases consumed
  · exact ⟨by assumption, by assumption⟩

private theorem two_bytes (other : ¬IsBlock p) (runs : Runs p [13, 10] r) :
    ∃ u, p.consumeByte 13 = .ok u ∧ byByte.consume u 10 = .ok r := by
  obtain ⟨-, u, consumed, later⟩ := scan_first runs
  obtain ⟨-, v, consumed', done⟩ := scan_first later
  cases done
  exact ⟨u, consume_other_ok other consumed, consumed'⟩

/-- At the end of this line a bare line feed does what both characters do. -/
def EndsAlike (p r : BodyParser) : Prop := ∃ v, Runs p [10] v ∧ Less v r

private theorem sizeEnd_alike (read : SizeRead p n) (runs : Runs p [13, 10] r) :
    r.state = (if n = 0 then .trailerLineStart else .chunkBody) ∧
      r.remainingBytes = n ∧ EndsAlike p r := by
  obtain ⟨state, rfl⟩ := read
  have other : ¬IsBlock p := by rcases state with state | state <;> simp [IsBlock, state]
  have running : byByte.good p = false := by
    rcases state with state | state <;> simp [byByte, isGood, state]
  obtain ⟨u, cr, lf⟩ := two_bytes other runs
  obtain ⟨within, within'⟩ := within_limits cr
  have extension : (13 : UInt8) ≠ ch ';' ∧ (10 : UInt8) ≠ ch ';' := by decide
  have mid :
      u = { p with state := .chunkSizeLf, chunkHeaderTotalLength := p.chunkHeaderTotalLength + 1 } := by
    rcases state with state | state <;>
      simp [consumeByte, within, within', state, extension, chunkHeader] at cr <;> exact cr.symm
  have bare : byByte.consume p 10 = p.chunkHeader p.afterSize := by
    rw [show byByte.consume p 10 = _ from if_neg other]
    rcases state with state | state <;> simp [consumeByte, within, within', state, extension]
  subst mid
  have last := consume_other_ok (by simp [IsBlock]) lf
  obtain ⟨within'', -⟩ := within_limits last
  simp [consumeByte, within', within'', chunkHeader, afterSize] at last
  subst last
  exact ⟨rfl, rfl, _, scan_step running bare [], rfl, rfl, rfl, by simp, Nat.le_refl _⟩

private theorem dataEnd_alike (state : p.state = .chunkBodyCr) (runs : Runs p [13, 10] r) :
    r.state = .chunkSizeStart ∧ EndsAlike p r := by
  have other : ¬IsBlock p := by simp [IsBlock, state]
  have running : byByte.good p = false := by simp [byByte, isGood, state]
  obtain ⟨u, cr, lf⟩ := two_bytes other runs
  obtain ⟨within, within'⟩ := within_limits cr
  simp [consumeByte, within, within', state, chunkHeader] at cr
  subst cr
  have bare : byByte.consume p 10 = p.chunkHeader .chunkSizeStart := by
    rw [show byByte.consume p 10 = _ from if_neg other]
    simp [consumeByte, within, within', state]
  have last := consume_other_ok (by simp [IsBlock]) lf
  obtain ⟨within'', -⟩ := within_limits last
  simp [consumeByte, within', within'', chunkHeader] at last
  subst last
  exact ⟨rfl, _, scan_step running bare [], rfl, rfl, rfl, by simp, Nat.le_refl _⟩

private theorem final_alike (state : p.state = .trailerLineStart) (runs : Runs p [13, 10] r) :
    r.state = .good ∧ EndsAlike p r := by
  have other : ¬IsBlock p := by simp [IsBlock, state]
  have running : byByte.good p = false := by simp [byByte, isGood, state]
  obtain ⟨u, cr, lf⟩ := two_bytes other runs
  obtain ⟨within, within'⟩ := within_limits cr
  simp [consumeByte, within, within', state, trailerByte] at cr
  subst cr
  have bare : byByte.consume p 10 = p.trailerByte .good := by
    rw [show byByte.consume p 10 = _ from if_neg other]
    simp [consumeByte, within, within', state]
  have last := consume_other_ok (by simp [IsBlock]) lf
  obtain ⟨-, within''⟩ := within_limits last
  simp [consumeByte, within, within'', trailerByte] at last
  subst last
  exact ⟨rfl, _, scan_step running bare [], rfl, rfl, rfl, Nat.le_refl _, by simp⟩

/-- So it may stand for them. -/
private theorem Less.ends {e : Terminator} (less : Less q p) (runs : Runs p [13, 10] r)
    (alike : EndsAlike p r) :
    ∃ s, Runs q e.text s ∧ Less s r := by
  cases e with
  | crlf => exact less.scan runs
  | lf =>
    obtain ⟨v, bare, less'⟩ := alike
    obtain ⟨s, runs', less''⟩ := less.scan bare
    exact ⟨s, runs', less''.state.trans less'.state, less''.body.trans less'.body,
      less''.remaining.trans less'.remaining,
      Nat.le_trans less''.header less'.header, Nat.le_trans less''.trailers less'.trailers⟩

end Ends

section Chunks

variable {p q r : BodyParser}

/-- A size line with any end, as the one with both characters. -/
private theorem sizeLine_alike {lead : Bytes} {line : SizeLine} {n : Nat}
    (blank : ∀ c ∈ lead, isSp c = true) (spells : line.Spells n) (e : Terminator)
    (state : p.state = .chunkSizeStart) (less : Less q p)
    (runs : Runs p (lead ++ (line.digits ++ (line.extension ++ [13, 10]))) r) :
    r.state = (if n = 0 then .trailerLineStart else .chunkBody) ∧ r.remainingBytes = n ∧
      ∃ s, Runs q (lead ++ (line.digits ++ (line.extension ++ e.text))) s ∧ Less s r := by
  obtain ⟨p₁, runs₁, runs⟩ := runs.split
  obtain ⟨p₂, runs₂, runs⟩ := runs.split
  obtain ⟨p₃, runs₃, runs⟩ := runs.split
  obtain ⟨state₂, remaining⟩ := scan_size (scan_lead state blank runs₁) spells.size runs₂
  have read := scan_skipped ⟨.inl state₂, remaining⟩ (.inr spells.extension.first)
    spells.extension.line runs₃
  obtain ⟨next, left, alike⟩ := sizeEnd_alike read runs
  obtain ⟨q₁, follows₁, less₁⟩ := less.scan runs₁
  obtain ⟨q₂, follows₂, less₂⟩ := less₁.scan runs₂
  obtain ⟨q₃, follows₃, less₃⟩ := less₂.scan runs₃
  obtain ⟨s, follows, less'⟩ := less₃.ends (e := e) runs alike
  exact ⟨next, left, s, Runs.join follows₁ (Runs.join follows₂ (Runs.join follows₃ follows)), less'⟩

private theorem chunk_alike {c : Chunk} (isChunk : c.IsChunk)
    (state : p.state = .chunkSizeStart) (less : Less q p) (runs : Runs p c.plain.text r) :
    r.state = .chunkSizeStart ∧ ∃ s, Runs q c.text s ∧ Less s r := by
  have size : c.plain.text = (c.lead ++ (c.line.digits ++ (c.line.extension ++ [13, 10]))) ++
      (c.data ++ (c.gap ++ [13, 10])) := by
    simp [Chunk.plain, Chunk.text, Terminator.text]
  rw [size] at runs
  obtain ⟨p₁, runs₁, runs⟩ := runs.split
  obtain ⟨p₂, runs₂, runs⟩ := runs.split
  obtain ⟨p₃, runs₃, runs⟩ := runs.split
  obtain ⟨next, remaining, q₁, follows₁, less₁⟩ :=
    sizeLine_alike isChunk.lead isChunk.line c.sizeEnd state less runs₁
  have counted : c.data.length ≠ 0 := fun zero => isChunk.some (List.eq_nil_of_length_eq_zero zero)
  rw [if_neg counted] at next
  have gap := scan_gap (scan_data next remaining isChunk.some runs₂) isChunk.gap runs₃
  obtain ⟨start, alike⟩ := dataEnd_alike gap runs
  obtain ⟨q₂, follows₂, less₂⟩ := less₁.scan runs₂
  obtain ⟨q₃, follows₃, less₃⟩ := less₂.scan runs₃
  obtain ⟨s, follows, less'⟩ := less₃.ends (e := c.dataEnd) runs alike
  refine ⟨start, s, ?_, less'⟩
  have text : c.text = (c.lead ++ (c.line.digits ++ (c.line.extension ++ c.sizeEnd.text))) ++
      (c.data ++ (c.gap ++ c.dataEnd.text)) := by
    simp [Chunk.text]
  rw [text]
  exact follows₁.join (Runs.join follows₂ (Runs.join follows₃ follows))

private theorem chunks_alike {chunks : List Chunk} (isChunk : ∀ c ∈ chunks, c.IsChunk)
    (state : p.state = .chunkSizeStart) (less : Less q p)
    (runs : Runs p ((chunks.map Chunk.plain).flatMap Chunk.text) r) :
    r.state = .chunkSizeStart ∧ ∃ s, Runs q (chunks.flatMap Chunk.text) s ∧ Less s r := by
  induction chunks generalizing p q with
  | nil =>
    cases runs
    exact ⟨state, q, rfl, less⟩
  | cons c chunks ih =>
    rw [List.map_cons, List.flatMap_cons] at runs
    obtain ⟨u, first, later⟩ := runs.split
    obtain ⟨state', v, follows, less'⟩ := chunk_alike (isChunk c List.mem_cons_self) state less first
    obtain ⟨next, s, follows', less''⟩ :=
      ih (fun d member => isChunk d (List.mem_cons_of_mem c member)) state' less' later
    exact ⟨next, s, follows.join follows', less''⟩

end Chunks

section Trailers

variable {p q r : BodyParser}

/-- The same, but `q` may still be in the line that `p` is behind. -/
structure Lags (q p : BodyParser) : Prop where
  state : q.state = p.state ∨ q.state = .trailer
  start : p.state = .trailerLineStart
  body : q.body = p.body
  remaining : q.remainingBytes = p.remainingBytes
  header : q.chunkHeaderTotalLength ≤ p.chunkHeaderTotalLength
  trailers : q.trailersTotalLength ≤ p.trailersTotalLength

private theorem Lags.less (lags : Lags q p) (state : q.state = p.state) : Less q p :=
  ⟨state, lags.body, lags.remaining, lags.header, lags.trailers⟩

/-- In a trailer line only the first of the two characters is noticed. -/
private theorem consume_trailer {c : UInt8} (state : p.state = .trailer) (other : c ≠ 13)
    (within : ¬p.chunkHeaderTotalLength > maxChunkHeaderTotalLength)
    (within' : ¬p.trailersTotalLength > maxTrailersTotalLength) :
    byByte.consume p c = .ok { p with trailersTotalLength := p.trailersTotalLength + 1 } := by
  rw [show byByte.consume p c = _ from if_neg (by simp [IsBlock, state])]
  simp only [consumeByte, within, within', state, other, trailerByte, ↓reduceIte]

private theorem scan_trailerText {text : Bytes} (state : p.state = .trailer) (cr : 13 ∉ text)
    (runs : Runs p text r) : r.state = .trailer := by
  induction text generalizing p with
  | nil =>
    cases runs
    exact state
  | cons c text ih =>
    rw [List.mem_cons, not_or] at cr
    obtain ⟨-, u, consumed, later⟩ := scan_first runs
    obtain ⟨within, within'⟩ := within_limits (consume_other_ok (by simp [IsBlock, state]) consumed)
    have next := consume_trailer state (Ne.symm cr.1) within within'
    cases consumed.symm.trans next
    exact ih (p := { p with trailersTotalLength := p.trailersTotalLength + 1 }) state cr.2 later

private theorem scan_trailer {line : Bytes} (isTrailer : IsTrailer line) (lags : Lags q p)
    (runs : Runs p line r) :
    r.state = .trailer ∧ ∃ s, Runs q line s ∧ Less s r := by
  obtain ⟨c, more, rfl, token⟩ := isTrailer.first
  have cr := isTrailer.cr
  rw [List.mem_cons, not_or] at cr
  obtain ⟨-, -, -, notCr, notLf⟩ := HeaderProofs.token_facts token
  obtain ⟨running, u, consumed, later⟩ := scan_first runs
  have byte := consume_other_ok (by simp [IsBlock, lags.start]) consumed
  obtain ⟨within, within'⟩ := within_limits byte
  simp only [consumeByte, within, within', lags.start, notCr, notLf, token, trailerByte,
    Bool.not_true, Bool.false_eq_true, ↓reduceIte] at byte
  cases byte
  have next := scan_trailerText rfl cr.2 later
  rcases lags.state with same | merged
  · obtain ⟨s, follows, less⟩ := (lags.less same).scan runs
    exact ⟨next, s, follows, less⟩
  · have header := lags.header
    have trailers := lags.trailers
    have first := consume_trailer merged (Ne.symm cr.1) (by omega) (by omega)
    have less : Less { q with trailersTotalLength := q.trailersTotalLength + 1 }
        { p with state := .trailer, trailersTotalLength := p.trailersTotalLength + 1 } :=
      ⟨merged, lags.body, lags.remaining, header, Nat.add_le_add_right trailers 1⟩
    obtain ⟨s, follows, less'⟩ := less.scan later
    have running' : byByte.good q = false := by simp [byByte, isGood, merged]
    exact ⟨next, s, (scan_step running' first more).trans follows, less'⟩

/-- The end of a trailer line. -/
private theorem trailerEnd_lags (state : p.state = .trailer) (less : Less q p)
    (runs : Runs p [13, 10] r) (e : Terminator) :
    ∃ s, Runs q e.text s ∧ Lags s r ∧ (s.state = r.state ↔ e = .crlf) := by
  have other : ¬IsBlock p := by simp [IsBlock, state]
  obtain ⟨u, cr, lf⟩ := two_bytes other runs
  obtain ⟨within, within'⟩ := within_limits cr
  simp only [consumeByte, within, within', state, trailerByte, ↓reduceIte] at cr
  cases cr
  have last := consume_other_ok (by simp [IsBlock]) lf
  obtain ⟨-, within''⟩ := within_limits last
  simp only [consumeByte, within, within'', trailerByte, ne_eq, not_true_eq_false, ↓reduceIte] at last
  cases last
  cases e with
  | crlf =>
    obtain ⟨s, follows, less'⟩ := less.scan runs
    exact ⟨s, follows, ⟨.inl less'.state, rfl, less'.body, less'.remaining, less'.header,
      less'.trailers⟩, iff_of_true less'.state rfl⟩
  | lf =>
    have header := less.header
    have trailers := less.trailers
    have state' : q.state = .trailer := less.state.trans state
    have taken := consume_trailer (c := 10) state' (by decide) (by omega) (by omega)
    have running : byByte.good q = false := by simp [byByte, isGood, state']
    refine ⟨_, scan_step running taken [], ⟨.inr state', rfl, less.body, less.remaining, header, ?_⟩, ?_⟩
    · simp only
      omega
    · simp [state']

/-- The last of the trailer lines ends with both characters. -/
def LastKept (trailers : List (Bytes × Terminator)) : Prop :=
  ∀ line, trailers.getLast? = some line → line.2 = .crlf

private theorem trailers_lag {trailers : List (Bytes × Terminator)}
    (isTrailer : ∀ line ∈ trailers, IsTrailer line.1) (lags : Lags q p)
    (runs : Runs p (trailerLines (trailers.map fun line => (line.1, .crlf))) r) :
    ∃ s, Runs q (trailerLines trailers) s ∧ Lags s r ∧
      (s.state = r.state ↔ if trailers = [] then q.state = p.state else LastKept trailers) := by
  induction trailers generalizing p q with
  | nil =>
    cases runs
    exact ⟨q, rfl, lags, Iff.rfl⟩
  | cons line trailers ih =>
    obtain ⟨text, e⟩ := line
    rw [trailerLines, List.map_cons, List.flatMap_cons] at runs
    obtain ⟨p₁, runs₁, later⟩ := runs.split
    obtain ⟨p₂, runs₂, runs₃⟩ := runs₁.split
    obtain ⟨state, q₂, follows₂, less⟩ := scan_trailer (isTrailer _ List.mem_cons_self) lags runs₂
    obtain ⟨q₁, follows₃, lags', same⟩ := trailerEnd_lags state less runs₃ e
    obtain ⟨s, follows, lags'', last⟩ :=
      ih (fun line member => isTrailer line (List.mem_cons_of_mem _ member)) lags' later
    refine ⟨s, (follows₂.join follows₃).join follows, lags'', ?_⟩
    rw [last, if_neg (List.cons_ne_nil (text, e) trailers)]
    cases trailers with
    | nil =>
      rw [if_pos rfl, same]
      simp [LastKept]
    | cons line' trailers => simp [LastKept]

end Trailers

section Bodies

variable {w : Written} {length : Option UInt64} {p : BodyParser}

/-- Behind trailers whose last line still goes on, no line end ends the body. -/
private theorem merged_running {q r : BodyParser} {e : Terminator} (state : q.state = .trailer)
    (runs : Runs q e.text r) : r.isGood = false := by
  have other : ¬IsBlock q := by simp [IsBlock, state]
  cases e with
  | crlf =>
    obtain ⟨u, cr, lf⟩ := two_bytes other runs
    obtain ⟨within, within'⟩ := within_limits cr
    simp only [consumeByte, within, within', state, trailerByte, ↓reduceIte] at cr
    cases cr
    have last := consume_other_ok (by simp [IsBlock]) lf
    obtain ⟨-, within''⟩ := within_limits last
    simp only [consumeByte, within, within'', trailerByte, ne_eq, not_true_eq_false, ↓reduceIte] at last
    cases last
    rfl
  | lf =>
    obtain ⟨-, u, consumed, done⟩ := scan_first runs
    cases done
    obtain ⟨within, within'⟩ := within_limits (consume_other_ok other consumed)
    cases consumed.symm.trans (consume_trailer (c := 10) state (by decide) within within')
    simp [isGood, state]

/-- Line ends of an accepted body may be replaced, and its parser then ends at the same
place with the same data, exactly if the last trailer line, if there is one, keeps its
end. -/
theorem body_terminators_iff (ok : w.IsBody) (accepted : Accepted length w.plain.text p) :
    (∃ q, Accepted length w.text q ∧ q.body = p.body) ↔ LastKept w.trailers := by
  obtain ⟨parsed, good⟩ := accepted
  have sound := make_sound length true
  rw [parse_scan sound] at parsed
  have runs : Runs (make length true) w.plain.text p := parsed
  rw [Written.text] at runs
  obtain ⟨p₁, runs₁, runs⟩ := runs.split
  have size : w.plain.lead ++ (w.plain.last.digits ++ (w.plain.last.extension ++ (w.plain.lastEnd.text ++
      (trailerLines w.plain.trailers ++ w.plain.final.text)))) =
      (w.lead ++ (w.last.digits ++ (w.last.extension ++ [13, 10]))) ++
        (trailerLines (w.trailers.map fun line => (line.1, .crlf)) ++ [13, 10]) := by
    simp [Written.plain, Terminator.text]
  rw [size] at runs
  obtain ⟨p₂, runs₂, runs⟩ := runs.split
  obtain ⟨p₃, runs₃, runs₄⟩ := runs.split
  obtain ⟨state, q₁, follows₁, less⟩ :=
    chunks_alike (q := make length true) ok.chunks rfl (Less.refl _) runs₁
  obtain ⟨start, -, q₂, follows₂, less'⟩ := sizeLine_alike ok.lead ok.last w.lastEnd state less runs₂
  rw [if_pos rfl] at start
  have lags : Lags q₂ p₂ :=
    ⟨.inl less'.state, start, less'.body, less'.remaining, less'.header, less'.trailers⟩
  obtain ⟨q₃, follows₃, lags', same⟩ := trailers_lag ok.trailers lags runs₃
  have kept : q₃.state = p₃.state ↔ LastKept w.trailers := by
    rw [same]
    split
    · rename_i none
      exact iff_of_true less'.state (by simp [LastKept, none])
    · exact Iff.rfl
  have text :
      w.text = w.chunks.flatMap Chunk.text ++
      ((w.lead ++ (w.last.digits ++ (w.last.extension ++ w.lastEnd.text))) ++
      (trailerLines w.trailers ++ w.final.text)) := by
    simp [Written.text]
  have front : ∀ q, Runs (make length true) w.text q ↔ Runs q₃ w.final.text q := by
    intro q
    rw [text]
    constructor
    · intro whole
      obtain ⟨u, first, whole⟩ := whole.split
      cases first.symm.trans follows₁
      obtain ⟨u, first, whole⟩ := whole.split
      cases first.symm.trans follows₂
      obtain ⟨u, first, whole⟩ := whole.split
      cases first.symm.trans follows₃
      exact whole
    · exact fun last => follows₁.join (follows₂.join (follows₃.join last))
  rw [← kept]
  constructor
  · rintro ⟨q, ⟨parsed', good'⟩, -⟩
    rw [parse_scan sound] at parsed'
    rcases lags'.state with same' | merged
    · exact same'
    · rw [merged_running merged ((front q).mp parsed')] at good'
      cases good'
  · intro same'
    obtain ⟨next, alike⟩ := final_alike lags'.start runs₄
    obtain ⟨q, follows, last⟩ := (lags'.less same').ends (e := w.final) runs₄ alike
    refine ⟨q, ⟨?_, by simp [isGood, last.state, next]⟩, last.body⟩
    rw [parse_scan sound]
    exact (front q).mpr follows

private theorem accepted_of_run (length : Option UInt64) (text : Bytes) (data : Bytes)
    (run : ((make length true).parse text).toOption.map (fun read =>
      (read.1.isGood, read.2, read.1.body)) = some (true, [], data)) :
    ∃ p, Accepted length text p ∧ p.body = data := by
  obtain ⟨⟨p, rest⟩, parsed, seen⟩ := ok_of_run run
  simp only [Prod.mk.injEq] at seen
  obtain ⟨good, rfl, body⟩ := seen
  exact ⟨p, ⟨parsed, good⟩, body⟩

private def mixed (e : Terminator) : Written where
  chunks := [{ lead := str " ", line := { digits := str "04", extension := str " ;a" },
               sizeEnd := .lf, data := str "W\r\nk", gap := str " " },
    { line := { digits := str "1" }, data := str "i", dataEnd := .lf }]
  last := { digits := str "0" }
  lastEnd := .lf
  trailers := [(str "a: b", .lf), (str "c: d", e)]
  final := .lf

private theorem mixed_isBody (e : Terminator) : (mixed e).IsBody where
  chunks := by
    intro c member
    rcases List.mem_cons.mp member with rfl | member
    · exact ⟨List.all_iff_forall_prop.mp (by decide),
        ⟨⟨by decide, List.all_iff_forall_prop.mp (by decide), by decide⟩,
          .inr ⟨ch ' ', str ";a", by decide, .inl (by decide)⟩, List.all_iff_forall_prop.mp (by decide)⟩,
        by decide, List.all_iff_forall_prop.mp (by decide)⟩
    · rw [List.mem_singleton.mp member]
      exact ⟨by simp, ⟨⟨by decide, List.all_iff_forall_prop.mp (by decide), by decide⟩,
        .inl rfl, by simp⟩, by decide, by simp⟩
  lead := by simp [mixed]
  last := show SizeLine.Spells { digits := str "0" } 0 from
    ⟨⟨by decide, List.all_iff_forall_prop.mp (by decide), by decide⟩, .inl rfl, by simp⟩
  trailers := by
    intro line member
    rcases List.mem_cons.mp member with rfl | member
    · exact ⟨⟨ch 'a', str ": b", by decide, by decide⟩, by decide⟩
    · rw [List.mem_singleton.mp member]
      exact show IsTrailer (str "c: d") from ⟨⟨ch 'c', str ": d", by decide, by decide⟩, by decide⟩

theorem body_terminators_iff_mixed :
    ∃ p, Accepted none (mixed .crlf).plain.text p ∧ ∃ q,
      Accepted none (mixed .crlf).text q ∧ q.body = p.body := by
  obtain ⟨p, accepted, -⟩ :=
    accepted_of_run none (mixed .crlf).plain.text (str "W\r\nki") (by decide +kernel)
  refine ⟨p, accepted, (body_terminators_iff (mixed_isBody .crlf) accepted).mpr ?_⟩
  rintro line last
  cases last
  rfl

/-- With a bare line feed behind the last trailer line the body does not end. -/
theorem bare_trailer_unfinished :
    (mixed .lf).IsBody ∧ (∃ p, Accepted none (mixed .lf).plain.text p) ∧ ¬∃ q,
      Accepted none (mixed .lf).text q := by
  refine ⟨mixed_isBody .lf, ?_, ?_⟩
  · obtain ⟨p, accepted, -⟩ :=
      accepted_of_run none (mixed .lf).plain.text (str "W\r\nki") (by decide +kernel)
    exact ⟨p, accepted⟩
  · rintro ⟨q, parsed, good⟩
    have run : (((make none true).parse (mixed .lf).text).toOption.map fun read => read.1.isGood) =
      some false := by decide +kernel
    rw [parsed] at run
    simp only [Except.toOption, Option.map_some, Option.some.injEq] at run
    rw [good] at run
    cases run

end Bodies

end Crablib.BodyTerminatorProofs
