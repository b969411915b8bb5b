import Crablib.FramingProofs

/-! The first line of a request, in the generality in which the parser takes it: any
token for a method, any target whose escapes are whole, and every version of one
digit and at most two. Only the states are followed; what the line says about the
message touches none of its framing. -/
namespace Crablib.RequestLineProofs
open Http Scanner RequestParser RequestTextProofs HeaderProofs FramingProofs NumeralProofs

/-- The text of a path: characters that are kept as they are, and whole escapes. -/
inductive PathText : Bytes → Prop where
  | nil : PathText []
  | char {c : UInt8} {rest : Bytes} (isChar : IsPathChar c) (more : PathText rest) : PathText (c :: rest)
  | escape {first second : UInt8} {rest : Bytes} (hex1 : (fromHexDigit first).isSome = true)
      (hex2 : (fromHexDigit second).isSome = true) (more : PathText rest) :
      PathText (ch '%' :: first :: second :: rest)

/-- A first line that a request can have. -/
structure IsRequestLine (req : RequestHeader) : Prop where
  method : req.method ≠ []
  token : ∀ c ∈ req.method, isToken c = true
  path : req.path ≠ []
  isPath : PathText req.path
  isQuery : ∀ c ∈ req.queryString, IsQueryChar c
  isVersion : ResponseTextProofs.IsVersion req.httpVersionMajor req.httpVersionMinor

/-- The text of the first line. -/
def requestLine (req : RequestHeader) : Bytes :=
  req.method ++ str " " ++ req.path ++ (if req.queryString.isEmpty then []
    else str "?" ++ req.queryString) ++ str " " ++ version req.toRequestResponseHeader ++ crlf

section Walks

/-- Nothing was read of the header lines. -/
structure Untouched (p : RequestParser) : Prop where
  state : p.lines.state = .firstHeaderLineStart
  header : p.lines.header = {}
  framing : framing p.lines.req.toRequestResponseHeader = {}

/-- Before the header lines nothing of them is read. -/
theorem advance_untouched {p q : RequestParser} {c : UInt8} (untouched : Untouched p)
    (before : p.state ≠ .headerLines) (advanced : p.advance c = .ok q) : Untouched q := by
  obtain ⟨fresh, header, framing_⟩ := untouched
  obtain ⟨state, lines, percent, total⟩ := p
  cases state
  case headerLines => exact absurd rfl before
  all_goals
    simp only [advance, expectLetter] at advanced
    repeat' split at advanced
  all_goals cases advanced
  all_goals exact ⟨fresh, header, framing_⟩

/-- A text takes the parser from one state to another. -/
def Walks (s : RequestParserState) (text : Bytes) (t : RequestParserState) : Prop :=
  ∀ p : RequestParser, p.state = s → Untouched p → ∃ q : RequestParser, q.state = t ∧ Untouched q ∧
    ∀ rest, scan plain p (text ++ rest) = scan plain q rest

variable {s t u : RequestParserState}

theorem walks_nil : Walks s [] s := fun p state untouched => ⟨p, state, untouched, fun _ => rfl⟩

theorem Walks.trans {first second : Bytes} (front : Walks s first t) (back : Walks t second u) :
    Walks s (first ++ second) u := by
  intro p state untouched
  obtain ⟨q, state', untouched', scanned⟩ := front p state untouched
  obtain ⟨r, state'', untouched'', scanned'⟩ := back q state' untouched'
  refine ⟨r, state'', untouched'', ?_⟩
  intro rest
  rw [List.append_assoc, scanned, scanned']

theorem walks_char {c : UInt8} (before : s ≠ .headerLines)
    (step : ∀ p : RequestParser, p.state = s → ∃ q, p.advance c = .ok q ∧ q.state = t) :
    Walks s [c] t := by
  intro p state untouched
  obtain ⟨q, advanced, state'⟩ := step p state
  have here : p.state ≠ .headerLines := state ▸ before
  refine ⟨q, state', advance_untouched untouched here advanced, ?_⟩
  intro rest
  refine scan_step ?_ advanced rest
  simp [plain, isGood, here]

theorem walks_cons {c : UInt8} {text : Bytes} (first : Walks s [c] t) (more : Walks t text u) :
    Walks s (c :: text) u :=
  first.trans more

theorem walks_chars {text : Bytes} (all : ∀ c ∈ text, Walks s [c] s) : Walks s text s := by
  induction text with
  | nil => exact walks_nil
  | cons c text ih =>
    exact walks_cons (all c List.mem_cons_self) (ih fun d member =>
      all d (List.mem_cons_of_mem _ member))

end Walks

section Line

private theorem walks_token {c : UInt8} (token : isToken c = true) : Walks .method [c] .method := by
  refine walks_char (by decide) fun p state => ?_
  have sp := (token_facts token).1
  exact ⟨p.setReq { p.req with method := p.req.method ++ [c] }, by simp [advance, state, sp, token],
    state⟩

private theorem walks_method {method : Bytes} (some_ : method ≠ [])
    (token : ∀ c ∈ method, isToken c = true) :
    Walks .methodStart (method ++ str " ") .uriStart := by
  obtain ⟨c, more, rfl⟩ := List.exists_cons_of_ne_nil some_
  have first := token c List.mem_cons_self
  obtain ⟨-, -, -, cr, lf⟩ := token_facts first
  have start : Walks .methodStart [c] .method := by
    refine walks_char (by decide) fun p state => ?_
    exact ⟨(p.setReq { p.req with method := p.req.method ++ [c] }).goTo .method, by
      simp [advance, state, cr, lf, first], rfl⟩
  have space : Walks .method (str " ") .uriStart := by
    refine walks_char (c := ch ' ') (by decide) fun p state => ?_
    exact ⟨p.goTo .uriStart, by simp [advance, state], rfl⟩
  exact walks_cons start ((walks_chars fun d member =>
    walks_token (token d (List.mem_cons_of_mem _ member))).trans space)

/-- The states from which a path is read on. -/
private def InPath (s : RequestParserState) : Prop := s = .uriStart ∨ s = .uri

private theorem walks_pathChar {s : RequestParserState} (inPath : InPath s) {c : UInt8}
    (isChar : IsPathChar c) : Walks s [c] .uri := by
  obtain ⟨ctl, space, percent, query, anchor⟩ := isChar
  have sp := sp_of_plain ctl space
  rcases inPath with rfl | rfl
  · refine walks_char (by decide) fun p state => ?_
    exact ⟨(p.pushPath c).goTo .uri, by simp [advance, state, sp, ctl, percent, query, anchor], rfl⟩
  · refine walks_char (by decide) fun p state => ?_
    exact ⟨p.pushPath c, by simp [advance, state, sp, ctl, percent, query, anchor], state⟩

private theorem walks_escape {s : RequestParserState} (inPath : InPath s) {first second : UInt8}
    (hex1 : (fromHexDigit first).isSome = true) (hex2 : (fromHexDigit second).isSome = true) :
    Walks s [ch '%', first, second] .uri := by
  obtain ⟨digit1, found1⟩ := Option.isSome_iff_exists.mp hex1
  obtain ⟨digit2, found2⟩ := Option.isSome_iff_exists.mp hex2
  have facts : isSp (ch '%') = false ∧ isCtl (ch '%') = false ∧ ch '%' ≠ ch '#' ∧
    ch '%' ≠ ch '?' := by decide
  have percent : Walks s [ch '%'] .uriPercent1 := by
    rcases inPath with rfl | rfl
    · exact walks_char (by decide) fun p state =>
        ⟨p.goTo .uriPercent1, by simp [advance, state, facts], rfl⟩
    · exact walks_char (by decide) fun p state =>
        ⟨p.goTo .uriPercent1, by simp [advance, state, facts], rfl⟩
  have high : Walks .uriPercent1 [first] .uriPercent2 :=
    walks_char (by decide) fun p state =>
      ⟨{ p with state := .uriPercent2, percent1HexDigit := digit1 }, by
        simp [advance, state, found1], rfl⟩
  have low : Walks .uriPercent2 [second] .uri :=
    walks_char (by decide) fun p state =>
      ⟨(p.pushPath (UInt8.ofNat (p.percent1HexDigit * 16 + digit2))).goTo
        .uri, by simp [advance, state, found2], rfl⟩
  exact walks_cons percent (walks_cons high low)

private theorem walks_more {path : Bytes} (isPath : PathText path) : Walks .uri path .uri := by
  induction isPath with
  | nil => exact walks_nil
  | char isChar _ ih => exact walks_cons (walks_pathChar (.inr rfl) isChar) ih
  | escape hex1 hex2 _ ih => exact (walks_escape (.inr rfl) hex1 hex2).trans ih

private theorem walks_path {path : Bytes} (some_ : path ≠ []) (isPath : PathText path) :
    Walks .uriStart path .uri := by
  cases isPath with
  | nil => exact absurd rfl some_
  | char isChar more => exact walks_cons (walks_pathChar (.inl rfl) isChar) (walks_more more)
  | escape hex1 hex2 more => exact (walks_escape (.inl rfl) hex1 hex2).trans (walks_more more)

/-- The query with the space that ends the target. -/
private theorem walks_query {query : Bytes} (isQuery : ∀ c ∈ query, IsQueryChar c) :
    Walks .uri ((if query.isEmpty then [] else str "?" ++ query) ++ str " ") .httpVersionH := by
  split
  · refine walks_char (c := ch ' ') (by decide) fun p state => ?_
    exact ⟨p.goTo .httpVersionH, by simp [advance, state], rfl⟩
  · have mark : Walks .uri (str "?") .uriQueryString := by
      refine walks_char (c := ch '?') (by decide) fun p state => ?_
      have facts : isSp (ch '?') = false ∧ isCtl (ch '?') = false ∧ ch '?' ≠ ch '#' := by decide
      exact ⟨p.goTo .uriQueryString, by simp [advance, state, facts], rfl⟩
    have chars : Walks .uriQueryString query .uriQueryString := by
      refine walks_chars fun c member => walks_char (by decide) fun p state => ?_
      obtain ⟨ctl, space, anchor⟩ := isQuery c member
      exact ⟨p.setReq { p.req with queryString := p.req.queryString ++ [c] },
        by simp [advance, state, sp_of_plain ctl space, ctl, anchor], state⟩
    have space : Walks .uriQueryString (str " ") .httpVersionH := by
      refine walks_char (c := ch ' ') (by decide) fun p state => ?_
      exact ⟨p.goTo .httpVersionH, by simp [advance, state], rfl⟩
    exact (mark.trans chars).trans space

private theorem walks_letter {l : Char} {s t : RequestParserState} (before : s ≠ .headerLines)
    (step : ∀ p : RequestParser, p.state = s → p.advance (ch l) = .ok (p.goTo t)) : Walks s [ch l] t :=
  walks_char before fun p state => ⟨p.goTo t, step p state, rfl⟩

private theorem walks_protocol : Walks .httpVersionH (str "HTTP/") .httpVersionMajorStart := by
  have h : Walks .httpVersionH [ch 'H'] .httpVersionHt := walks_letter (by decide) fun p state => by
    have sp : isSp (ch 'H') = false := by decide
    simp [advance, state, expectLetter, sp]
  have t : Walks .httpVersionHt [ch 'T'] .httpVersionHtt := walks_letter (by decide) fun p state => by
    simp [advance, state, expectLetter]
  have tt : Walks .httpVersionHtt [ch 'T'] .httpVersionHttp := walks_letter (by decide) fun p state => by
    simp [advance, state, expectLetter]
  have p : Walks .httpVersionHttp [ch 'P'] .httpVersionSlash :=
    walks_letter (by decide) fun p state => by
    simp [advance, state, expectLetter]
  have slash : Walks .httpVersionSlash [ch '/'] .httpVersionMajorStart :=
    walks_letter (by decide) fun p state => by
    simp [advance, state, expectLetter]
  exact walks_cons h (walks_cons t (walks_cons tt (walks_cons p slash)))

private theorem walks_major {major : Int} (range : 0 ≤ major ∧ major ≤ 9) :
    Walks .httpVersionMajorStart (decimalInt major ++ str ".") .httpVersionMinorStart := by
  obtain ⟨n, rfl⟩ := Int.eq_ofNat_of_zero_le range.1
  have small : n < 10 := by omega
  obtain ⟨isDigit_, value⟩ := digit_decimal small
  have first : Walks .httpVersionMajorStart [digit n] .httpVersionMajor := by
    refine walks_char (by decide) fun p state => ?_
    exact ⟨(p.setReq { p.req with httpVersionMajor := digitOf (digit n) }).goTo .httpVersionMajor,
      by simp [advance, state, isDigit_], rfl⟩
  have dot : Walks .httpVersionMajor (str ".") .httpVersionMinorStart :=
    walks_letter (l := '.') (by decide) fun p state => by simp [advance, state]
  rw [decimalInt_nat, decimal_small small]
  exact first.trans dot

private theorem walks_minor {minor : Int} (range : 0 ≤ minor ∧ minor ≤ 99) :
    Walks .httpVersionMinorStart (decimalInt minor ++ crlf) .headerLines := by
  have ending : Walks .httpVersionMinor crlf .headerLines := by
    have cr : Walks .httpVersionMinor [13] .statusLineLf :=
      walks_char (by decide) fun p state => ⟨p.goTo .statusLineLf, by simp [advance, state], rfl⟩
    have lf : Walks .statusLineLf [10] .headerLines :=
      walks_char (by decide) fun p state => ⟨p.goTo .headerLines, by simp [advance, state], rfl⟩
    exact cr.trans lf
  obtain ⟨n, rfl⟩ := Int.eq_ofNat_of_zero_le range.1
  refine Walks.trans ?_ ending
  rw [decimalInt_nat]
  have first : ∀ d < 10, Walks .httpVersionMinorStart [digit d] .httpVersionMinor := by
    intro d small
    obtain ⟨isDigit_, -⟩ := digit_decimal small
    refine walks_char (by decide) fun p state => ?_
    exact ⟨(p.setReq { p.req with httpVersionMinor := digitOf (digit d) }).goTo .httpVersionMinor,
      by simp [advance, state, isDigit_], rfl⟩
  by_cases small : n < 10
  · rw [decimal_small small]
    exact first n small
  · have high : n / 10 < 10 := by omega
    have low : n % 10 < 10 := by omega
    rw [decimal_large (by omega), decimal_small high]
    obtain ⟨isDigit1, value1⟩ := digit_decimal high
    obtain ⟨isDigit2, value2⟩ := digit_decimal low
    have facts : digit (n % 10) ≠ 13 ∧ digit (n % 10) ≠ 10 ∧ isSp (digit (n % 10)) = false := by
      have all : ∀ d : Fin 10, digit d ≠ 13 ∧ digit d ≠ 10 ∧ isSp (digit d) = false := by decide
      exact all ⟨n % 10, low⟩
    -- the second digit is checked against what the first one made of the number
    intro p state untouched
    have step1 : p.advance (digit (n / 10)) =
        .ok ((p.setReq { p.req with httpVersionMinor := ((n / 10 : Nat) : Int) }).goTo
          .httpVersionMinor) := by
      simp [advance, state, isDigit1, value1]
    have step2 :
        ((p.setReq { p.req with httpVersionMinor := ((n / 10 : Nat) : Int) }).goTo
        .httpVersionMinor).advance (digit (n % 10)) =
        .ok ((p.setReq { p.req with httpVersionMinor := (n : Int) }).goTo .httpVersionMinor) := by
      have whole : ((n / 10 : Nat) : Int) * 10 + ((n % 10 : Nat) : Int) = n := by omega
      simp only [advance, goTo, facts, isDigit2, value2, Bool.not_true, Bool.false_eq_true,
        ↓reduceIte, setReq, req, whole]
      rw [if_neg (by omega)]
    refine ⟨(p.setReq { p.req with httpVersionMinor := (n : Int) }).goTo .httpVersionMinor, rfl, ?_, ?_⟩
    · exact ⟨untouched.state, untouched.header, untouched.framing⟩
    · intro rest
      refine (scan_step (by simp [plain, isGood, state]) step1 _).trans ?_
      exact scan_step rfl step2 rest

/-- The first line leaves the parser before the header lines, with nothing read of them. -/
theorem scan_firstLine {req : RequestHeader} (ok : IsRequestLine req) :
    ∃ p r, p.state = .headerLines ∧ AtLine actions p.lines r ∧ framing r.toRequestResponseHeader = {} ∧
      ∀ rest, scan plain {} (requestLine req ++ rest) = scan plain p rest := by
  have walks : Walks .methodStart (requestLine req) .headerLines := by
    have line := (((((walks_method ok.method ok.token).trans (walks_path ok.path ok.isPath)).trans
      (walks_query ok.isQuery)).trans
      walks_protocol).trans (walks_major ok.isVersion.major)).trans (walks_minor ok.isVersion.minor)
    simpa only [requestLine, version, List.append_assoc] using line
  obtain ⟨p, state, untouched, scanned⟩ := walks {} rfl ⟨rfl, rfl, rfl⟩
  exact ⟨p, _, state, .first untouched.state untouched.header, untouched.framing, scanned⟩

end Line

end Crablib.RequestLineProofs
