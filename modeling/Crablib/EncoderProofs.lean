import Crablib.TerminatorProofs
import Crablib.QueryProofs

/-! `url_encode` against the four readers of escapes: `url_decode`, the query parser, the
request line and the URI parser. Each of them is led along the text of the encoder, a
character or a whole escape at a time. -/
namespace Crablib.EncoderProofs
open Http Scanner RequestTextProofs RequestLineProofs HeaderProofs TerminatorProofs QueryProofs

section Texts

/-- A character that no reader takes for anything but itself. -/
structure IsPlainChar (path : Bool) (c : UInt8) : Prop where
  percent : c ≠ ch '%'
  ampersand : c ≠ ch '&'
  equality : c ≠ ch '='
  plus : c ≠ ch '+'
  query : c ≠ ch '?'
  anchor : c ≠ ch '#'
  space : isSp c = false
  control : isCtl c = false
  slash : path = false → c ≠ ch '/'
  user : c ≠ ch '@'

/-- A text that spells another one in such characters and whole escapes. -/
inductive Spells (path : Bool) : Bytes → Bytes → Prop where
  | nil : Spells path [] []
  | plain {c : UInt8} {text spelled : Bytes} (isPlain : IsPlainChar path c)
      (more : Spells path text spelled) : Spells path (c :: text) (c :: spelled)
  | escape {first second : UInt8} {high low : Nat} {text spelled : Bytes}
      (hex1 : fromHexDigit first = some high)
      (hex2 : fromHexDigit second = some low) (slash : path = true →
        UInt8.ofNat (high * 16 + low) ≠ ch '/')
      (more : Spells path text spelled) :
      Spells path (UInt8.ofNat (high * 16 + low) :: text) (ch '%' :: first :: second :: spelled)

private theorem plain_facts {path : Bool} {c : UInt8}
    (plain : (!isUriReserved c || (path && c == ch '/')) = true) :
    IsPlainChar path c := by
  have all : ∀ path : Bool, ∀ c : UInt8, (!isUriReserved c || (path && c == ch '/')) = true →
      c ≠ ch '%' ∧ c ≠ ch '&' ∧ c ≠ ch '=' ∧ c ≠ ch '+' ∧ c ≠ ch '?' ∧ c ≠ ch '#' ∧
      isSp c = false ∧ isCtl c = false ∧
        (path = false → c ≠ ch '/') ∧ c ≠ ch '@' := by
    intro path c
    refine byte_cases (P := fun c => (!isUriReserved c || (path && c == ch '/')) = true →
      c ≠ ch '%' ∧ c ≠ ch '&' ∧ c ≠ ch '=' ∧ c ≠ ch '+' ∧ c ≠ ch '?' ∧ c ≠ ch '#' ∧
      isSp c = false ∧ isCtl c = false ∧
        (path = false → c ≠ ch '/') ∧ c ≠ ch '@') ?_ c
    cases path <;> decide +kernel
  obtain ⟨percent, ampersand, equality, plus, query, anchor, space, control, slash, user⟩ :=
    all path c plain
  exact ⟨percent, ampersand, equality, plus, query, anchor, space, control, slash, user⟩

private theorem hexdigit_value {n : Nat} (small : n < 16) : fromHexDigit (hexdigit n) = some n := by
  have all : ∀ d : Fin 16, fromHexDigit (hexdigit d) = some d.val := by decide
  exact all ⟨n, small⟩

/-- The encoder spells its text. -/
theorem urlEncode_spells (text : Bytes) (path : Bool) : Spells path text (urlEncode text path) := by
  induction text with
  | nil => exact .nil
  | cons c text ih =>
    rw [urlEncode, List.flatMap_cons]
    split
    · rename_i plain
      exact .plain (plain_facts plain) ih
    · rename_i other
      have bound := c.toNat_lt
      have high : c.toNat / 16 < 16 := by omega
      have low : c.toNat % 16 < 16 := by omega
      have whole : UInt8.ofNat (c.toNat / 16 * 16 + c.toNat % 16) = c := by
        have sum : c.toNat / 16 * 16 + c.toNat % 16 = c.toNat := by omega
        rw [sum, UInt8.ofNat_toNat]
      have slash : path = true → UInt8.ofNat (c.toNat / 16 * 16 + c.toNat % 16) ≠ ch '/' := by
        rintro rfl same
        rw [whole] at same
        exact other (by simp [same])
      have escaped := Spells.escape (hexdigit_value high) (hexdigit_value low) slash ih
      rwa [whole] at escaped

variable {path : Bool} {text spelled : Bytes}

private theorem urlDecode_plain {c : UInt8} (other : c ≠ ch '%') (rest : Bytes) :
    urlDecode (c :: rest) = c :: urlDecode rest := by
  rcases rest with _ | ⟨first, _ | ⟨second, rest⟩⟩ <;> simp [urlDecode, other]

/-- `url_decode` takes the text back. -/
theorem urlDecode_spelled (spells : Spells path text spelled) : urlDecode spelled = text := by
  induction spells with
  | nil => rfl
  | plain isPlain _ ih => rw [urlDecode_plain isPlain.percent, ih]
  | escape hex1 hex2 _ _ ih => simp [urlDecode, hex1, hex2, ih]

end Texts

section Query
open QueryParser

variable {path : Bool} {text spelled : Bytes} {p : QueryParser}

/-- A key is read as what it spells. -/
private theorem key_spelled (spells : Spells path text spelled) (state : p.state = .key) :
    ∃ sym, spelled.foldl consume p = { p with key := p.key ++ text, percent1HexSym := sym } := by
  induction spells generalizing p with
  | nil => exact ⟨p.percent1HexSym, by simp⟩
  | @plain c text spelled isPlain _ ih =>
    have step : p.consume c = p.pushKey [c] := by
      simp [consume, state, isPlain.ampersand, isPlain.percent, isPlain.equality,
        isPlain.plus, goTo, pushKey]
    obtain ⟨sym, run⟩ := ih (p := p.pushKey [c]) state
    exact ⟨sym, by rw [List.foldl_cons, step, run]; simp [pushKey]⟩
  | @escape first second high low text spelled hex1 hex2 _ _ ih =>
    have equal : first ≠ ch '=' ∧ second ≠ ch '=' :=
      ⟨hex_ne hex1 '=' (by decide), hex_ne hex2 '=' (by decide)⟩
    have other : ch '%' ≠ ch '&' := by decide
    have step : ((p.consume (ch '%')).consume first).consume second =
        { p with percent1HexSym := first, key := p.key ++ [UInt8.ofNat (high * 16 + low)] } := by
      simp [consume, state, goTo, pushKey, equal, hex1, hex2, escaped, other]
    obtain ⟨sym, run⟩ := ih
      (p := { p with percent1HexSym := first, key := p.key ++ [UInt8.ofNat (high * 16 + low)] }) state
    exact ⟨sym, by rw [List.foldl_cons, List.foldl_cons, List.foldl_cons, step, run]; simp⟩

/-- A value is read as what it spells. -/
private theorem value_spelled (spells : Spells path text spelled) (state : p.state = .value) :
    ∃ sym, spelled.foldl consume p = { p with value := p.value ++ text, percent1HexSym := sym } := by
  induction spells generalizing p with
  | nil => exact ⟨p.percent1HexSym, by simp⟩
  | @plain c text spelled isPlain _ ih =>
    have step : p.consume c = p.pushValue [c] := by
      simp [consume, state, isPlain.ampersand, isPlain.percent, isPlain.plus, goTo, pushValue]
    obtain ⟨sym, run⟩ := ih (p := p.pushValue [c]) state
    exact ⟨sym, by rw [List.foldl_cons, step, run]; simp [pushValue]⟩
  | @escape first second high low text spelled hex1 hex2 _ _ ih =>
    have equal : second ≠ ch '=' := hex_ne hex2 '=' (by decide)
    have ampersand : first ≠ ch '&' := hex_ne hex1 '&' (by decide)
    have other : ch '%' ≠ ch '&' := by decide
    have step : ((p.consume (ch '%')).consume first).consume second =
        { p with percent1HexSym := first, value := p.value ++ [UInt8.ofNat (high * 16 + low)] } := by
      simp [consume, state, goTo, pushValue, equal, ampersand, hex1, hex2, escaped, other]
    obtain ⟨sym, run⟩ := ih
      (p := { p with percent1HexSym := first, value := p.value ++ [UInt8.ofNat (high * 16 + low)] })
      state
    exact ⟨sym, by rw [List.foldl_cons, List.foldl_cons, List.foldl_cons, step, run]; simp⟩

/-- A pair as it is sent. -/
def pairText (path : Bool) (pair : Bytes × Bytes) : Bytes :=
  urlEncode pair.1 path ++ ch '=' :: urlEncode pair.2 path

/-- A pair is read up to its value. -/
private theorem pair_run (fresh : Fresh p) (path : Bool) (pair : Bytes × Bytes) :
    ∃ sym, (pairText path pair).foldl consume p =
      { p with state := .value, key := pair.1, value := pair.2, percent1HexSym := sym } := by
  obtain ⟨sym, key⟩ := key_spelled (urlEncode_spells pair.1 path) fresh.state
  have equality :
      ({ p with key := p.key ++ pair.1, percent1HexSym := sym } : QueryParser).consume (ch '=') =
      { p with state := .value, key := pair.1, percent1HexSym := sym } := by
    have other : ch '=' ≠ ch '&' ∧ ch '=' ≠ ch '%' := by decide
    simp [consume, fresh.state, fresh.key, goTo, other]
  obtain ⟨sym', value⟩ := value_spelled (urlEncode_spells pair.2 path)
    (p := { p with state := .value, key := pair.1, percent1HexSym := sym }) rfl
  refine ⟨sym', ?_⟩
  rw [pairText, List.foldl_append, List.foldl_cons, key, equality, value]
  simp [fresh.value]

/-- Pairs between ampersands are all persisted, in their order. -/
private theorem parse_pairs (fresh : Fresh p) (list : List (Bytes × Bytes)) :
    (p.parse ([ch '&'].intercalate (list.map (pairText path)))).parsed = p.parsed ++ list := by
  induction list generalizing p with
  | nil => simp [QueryParser.parse, consumeEnd, fresh.state, fresh.key, goTo]
  | cons pair list ih =>
    obtain ⟨sym, run⟩ := pair_run fresh path pair
    cases list with
    | nil => simp [QueryParser.parse, run, consumeEnd, persistPair, goTo]
    | cons next list =>
      have joined : [ch '&'].intercalate ((pair :: next :: list).map (pairText path)) =
          pairText path pair ++ ch '&' :: [ch '&'].intercalate ((next :: list).map (pairText path)) := by
        simp [List.intercalate]
      have ampersand :
          ({ p with state := .value, key := pair.1, value := pair.2, percent1HexSym := sym } :
          QueryParser).consume (ch '&') = { p with
            state := .key, key := [], value := [], percent1HexSym := sym
            parsed := p.parsed ++ [pair] } := by
        simp [consume, persistPair, goTo]
      have later := ih (p := { p with
        state := .key, key := [], value := [], percent1HexSym := sym
        parsed := p.parsed ++ [pair] }) ⟨rfl, rfl, rfl⟩
      rw [joined, QueryParser.parse, List.foldl_append, List.foldl_cons, run, ampersand]
      rw [QueryParser.parse] at later
      rw [later, List.append_assoc]
      rfl

end Query

section Target
open RequestParser

variable {p : RequestParser} {text spelled : Bytes}

/-- The parser in a target of which `text` has been read. -/
structure InTarget (p : RequestParser) (text : Bytes) : Prop where
  state : p.state = .uri
  path : p.req.path = text
  query : p.req.queryString = []

/-- The target is read as what it spells. -/
private theorem target_spelled {front : Bytes} (spells : Spells true text spelled)
    (inTarget : InTarget p front) :
    ∃ q, InTarget q (front ++ text) ∧ ∀ rest, scan plain p (spelled ++ rest) = scan plain q rest := by
  induction spells generalizing p front with
  | nil => exact ⟨p, by rwa [List.append_nil], fun _ => rfl⟩
  | @plain c text spelled isPlain _ ih =>
    obtain ⟨state, path, query⟩ := inTarget
    have step : plain.consume p c = .ok (p.pushPath c) := by
      simp [plain, advance, state, isPlain.space, isPlain.control, isPlain.anchor,
        isPlain.query, isPlain.percent]
    obtain ⟨q, inside, run⟩ :=
      ih (show InTarget (p.pushPath c) (front ++ [c]) from ⟨state, congrArg (· ++ [c]) path, query⟩)
    refine ⟨q, by simpa using inside, fun rest => ?_⟩
    rw [List.cons_append, scan_step (by simp [plain, isGood, state]) step, run]
  | @escape first second high low text spelled hex1 hex2 _ _ ih =>
    obtain ⟨state, path, query⟩ := inTarget
    have facts : isSp (ch '%') = false ∧ isCtl (ch '%') = false ∧ ch '%' ≠ ch '#' ∧
      ch '%' ≠ ch '?' := by decide
    have percent : plain.consume p (ch '%') = .ok (p.goTo .uriPercent1) := by
      simp [plain, advance, state, facts]
    have step1 :
        plain.consume (p.goTo .uriPercent1) first =
        .ok { p with state := .uriPercent2, percent1HexDigit := high } := by
      simp [plain, advance, goTo, hex1]
    have step2 : plain.consume { p with state := .uriPercent2, percent1HexDigit := high } second =
        .ok { p.pushPath (UInt8.ofNat (high * 16 + low)) with percent1HexDigit := high } := by
      simp [plain, advance, goTo, hex2, pushPath, setReq, req, state]
    obtain ⟨q, inside, run⟩ :=
      ih (p := { p.pushPath (UInt8.ofNat (high * 16 + low)) with percent1HexDigit := high })
      ⟨state, congrArg (· ++ [UInt8.ofNat (high * 16 + low)]) path, query⟩
    refine ⟨q, by simpa using inside, fun rest => ?_⟩
    rw [List.cons_append, List.cons_append, List.cons_append,
      scan_step (by simp [plain, isGood, state]) percent,
      scan_step (by simp [plain, isGood, goTo]) step1, scan_step (by simp [plain, isGood]) step2, run]

/-- So is one that starts here, unless it is empty. -/
private theorem target_started (spells : Spells true text spelled) (some_ : text ≠ [])
    (state : p.state = .uriStart) (fresh : p.req.path = [] ∧ p.req.queryString = []) :
    ∃ q, InTarget q text ∧ ∀ rest, scan plain p (spelled ++ rest) = scan plain q rest := by
  cases spells with
  | nil => exact absurd rfl some_
  | @plain c text spelled isPlain more =>
    have step : plain.consume p c = .ok ((p.pushPath c).goTo .uri) := by
      simp [plain, advance, state, isPlain.space, isPlain.control, isPlain.anchor,
        isPlain.query, isPlain.percent]
    obtain ⟨q, inside, run⟩ := target_spelled more
      (show InTarget ((p.pushPath c).goTo .uri) [c] from ⟨rfl, congrArg (· ++ [c]) fresh.1, fresh.2⟩)
    refine ⟨q, inside, fun rest => ?_⟩
    rw [List.cons_append, scan_step (by simp [plain, isGood, state]) step, run]
  | @escape first second high low text spelled hex1 hex2 _ more =>
    have facts : isSp (ch '%') = false ∧ isCtl (ch '%') = false ∧ ch '%' ≠ ch '#' ∧
      ch '%' ≠ ch '?' := by decide
    have percent : plain.consume p (ch '%') = .ok (p.goTo .uriPercent1) := by
      simp [plain, advance, state, facts]
    have step1 :
        plain.consume (p.goTo .uriPercent1) first =
        .ok { p with state := .uriPercent2, percent1HexDigit := high } := by
      simp [plain, advance, goTo, hex1]
    have step2 : plain.consume { p with state := .uriPercent2, percent1HexDigit := high } second =
        .ok { (p.pushPath (UInt8.ofNat (high * 16 + low))).goTo .uri with
          percent1HexDigit := high } := by
      simp [plain, advance, goTo, hex2, pushPath, setReq, req]
    obtain ⟨q, inside, run⟩ := target_spelled
      (p := { (p.pushPath (UInt8.ofNat (high * 16 + low))).goTo .uri with
        percent1HexDigit := high }) more
      ⟨rfl, congrArg (· ++ [UInt8.ofNat (high * 16 + low)]) fresh.1, fresh.2⟩
    refine ⟨q, inside, fun rest => ?_⟩
    rw [List.cons_append, List.cons_append, List.cons_append,
      scan_step (by simp [plain, isGood, state]) percent,
      scan_step (by simp [plain, isGood, goTo]) step1, scan_step (by simp [plain, isGood]) step2, run]

/-- Behind the target. -/
private def BehindTarget (p : RequestParser) : Prop :=
  match p.state with
  | .methodStart | .methodStartLf | .method | .uriStart | .uri | .uriPercent1 | .uriPercent2
  | .uriQueryString | .uriAnchor => False
  | _ => True

private theorem process_target {path query : Bytes} (h : Header) (r s : RequestHeader)
    (same : r.path = path ∧ r.queryString = query)
    (processed : RequestParser.actions.processReadyHeader h r = .ok s) :
    s.path = path ∧ s.queryString = query := by
  simp only [RequestParser.actions, RequestParser.processReadyHeader] at processed
  repeat' split at processed
  all_goals
    cases processed
    try exact same

/-- Nothing is added to it there. -/
private theorem advance_behind {q : RequestParser} {c : UInt8} {path query : Bytes}
    (behind : BehindTarget p ∧ p.req.path = path ∧ p.req.queryString = query)
    (advanced : p.advance c = .ok q) :
    BehindTarget q ∧ q.req.path = path ∧ q.req.queryString = query := by
  obtain ⟨state, lines, percent, total⟩ := p
  obtain ⟨behind, same⟩ := behind
  cases state <;> simp only [BehindTarget] at behind <;>
    simp only [RequestParser.advance, RequestParser.expectLetter] at advanced
  case headerLines =>
    split at advanced
    · cases advanced
    · rename_i lines' read
      cases advanced
      have kept := consumeLine_keeps (P := fun r : RequestHeader => r.path = path ∧
        r.queryString = query) (fun _ same => same) process_target same read
      exact ⟨trivial, kept⟩
  all_goals
    repeat' split at advanced
    all_goals
      cases advanced
      try exact ⟨trivial, same⟩

/-- The first line up to the space behind its target. -/
private theorem scan_toTarget {method : Bytes} (some_ : method ≠ [])
    (token : ∀ c ∈ method, isToken c = true) (text_ : text ≠ []) :
    ∃ q, BehindTarget q ∧ q.req.path = text ∧ q.req.queryString = [] ∧
      ∀ rest, scan plain {} (method ++ (str " " ++ (urlEncode text true ++ (str " " ++ rest)))) =
        scan plain q rest := by
  obtain ⟨c, more, rfl⟩ := List.exists_cons_of_ne_nil some_
  have isToken_ := token c List.mem_cons_self
  obtain ⟨-, -, -, cr, lf⟩ := token_facts isToken_
  have first : plain.consume {} c = .ok { state := .method, lines := { req := { method := [c] } } } := by
    simp [plain, advance, cr, lf, isToken_, setReq, goTo, RequestParser.req]
  have space : plain.consume { state := .method, lines := { req := { method := c :: more } } } (ch ' ') =
      .ok { state := .uriStart, lines := { req := { method := c :: more } } } := rfl
  have blank : ∀ text : Bytes, str " " ++ text = ch ' ' :: text := fun _ => rfl
  obtain ⟨q, inside, run⟩ :=
    target_started (p := { state := .uriStart, lines := { req := { method := c :: more } } })
    (urlEncode_spells text true) text_ rfl ⟨rfl, rfl⟩
  have ends : plain.consume q (ch ' ') = .ok (q.goTo .httpVersionH) := by
    simp [plain, advance, inside.state]
  refine ⟨q.goTo .httpVersionH, trivial, inside.path, inside.query, fun rest => ?_⟩
  rw [List.cons_append, scan_step rfl first,
    scan_method (p := { state := .method, lines := { req := { method := [c] } } }) rfl
    fun d member => token d (List.mem_cons_of_mem _ member), blank]
  refine (scan_step rfl space _).trans ?_
  rw [run, blank, scan_step (by simp [plain, isGood, inside.state]) ends]

/-- The text of a target is one that a first line can have. -/
private theorem spelled_path (spells : Spells true text spelled) : PathText spelled := by
  induction spells with
  | nil => exact .nil
  | @plain c _ _ isPlain _ ih =>
    have space : c ≠ 32 := by
      rintro rfl
      exact absurd isPlain.space (by decide)
    exact .char ⟨isPlain.control, space, isPlain.percent, isPlain.query, isPlain.anchor⟩ ih
  | escape hex1 hex2 _ _ ih => exact .escape (by simp [hex1]) (by simp [hex2]) ih

/-- The first line of a request for `text`. -/
def encodedLine (req : RequestHeader) (text : Bytes) : Bytes :=
  requestLine { req with path := urlEncode text true, queryString := [] }

/-- Whatever follows that line, the parser has the text for a path. -/
private theorem line_path {req : RequestHeader} (method : req.method ≠ [])
    (token : ∀ c ∈ req.method, isToken c = true) (some_ : text ≠ []) {rest left : Bytes}
    (parsed : RequestParser.parse {} (encodedLine req text ++ rest) = .ok (p, left)) :
    p.req.path = text ∧ p.req.queryString = [] := by
  obtain ⟨q, behind, path, query, run⟩ := scan_toTarget method token some_
  have line : encodedLine req text ++ rest =
      req.method ++ (str " " ++ (urlEncode text true ++
        (str " " ++ (version req.toRequestResponseHeader ++ (crlf ++ rest))))) := by
    simp [encodedLine, requestLine, version]
  have within :
      scan plain {} (encodedLine req text ++ rest) = .ok ({ p with totalLength := 0 }, left) :=
    limited.scan_within parsed 0
  rw [line, run] at within
  exact (scan_preserves (m := plain) (P := fun q => BehindTarget q ∧ q.req.path = text ∧
    q.req.queryString = []) (fun _ _ _ _ => advance_behind) ⟨behind, path, query⟩ within).2

/-- A request of that line alone is accepted. -/
private theorem line_accepted {req : RequestHeader} (method : req.method ≠ [])
    (token : ∀ c ∈ req.method, isToken c = true)
    (isVersion : ResponseTextProofs.IsVersion req.httpVersionMajor req.httpVersionMinor)
    (some_ : text ≠ []) (fits : (encodedLine req text ++ crlf).length ≤
      ({} : RequestParser).maxTotalLength) : ∃ p, AcceptsWhole (encodedLine req text ++ crlf) p := by
  have spells := urlEncode_spells text true
  have encoded : urlEncode text true ≠ [] := by
    intro none
    rw [none] at spells
    cases spells
    exact some_ rfl
  obtain ⟨p, r, state, at_, -, run⟩ :=
    @scan_firstLine { req with path := urlEncode text true, queryString := [] }
    ⟨method, token, encoded, spelled_path spells, by simp, isVersion⟩
  have ended := reader.scan_ok state (scan_end at_ [])
  have start : limited.count ({} : RequestParser) = 0 := rfl
  have limit : limited.limit {} = ({} : RequestParser).maxTotalLength := rfl
  have within : limited.count ({} : RequestParser) + (encodedLine req text ++ crlf).length ≤
    limited.limit {} := by omega
  obtain ⟨n, parsed⟩ := limited.scan_ok within ((run crlf).trans ended)
  exact ⟨_, parsed, by simp [isGood, limited, reader, state]⟩

end Target

section Uri
open URIParser

variable {p : URIParser} {text spelled : Bytes}

/-- The last segment of a path is read as what it spells. -/
private theorem segment_spelled (spells : Spells false text spelled) (state : p.state = .path) :
    ∃ sym, parseRange p spelled =
      .ok { p with curPath := p.curPath ++ text, percent1HexSym := sym } := by
  induction spells generalizing p with
  | nil => exact ⟨p.percent1HexSym, by simp [parseRange]⟩
  | @plain c text spelled isPlain _ ih =>
    have step : p.consume c = .ok (p.pushPath [c]) := by
      simp [consume, state, isPlain.percent, isPlain.query, isPlain.slash rfl]
    obtain ⟨sym, run⟩ := ih (p := p.pushPath [c]) state
    exact ⟨sym, by simp only [parseRange, step, run]; simp [pushPath]⟩
  | @escape first second high low text spelled hex1 hex2 _ _ ih =>
    have question : first ≠ ch '?' ∧ second ≠ ch '?' :=
      ⟨hex_ne hex1 '?' (by decide), hex_ne hex2 '?' (by decide)⟩
    have percent : p.consume (ch '%') = .ok (p.goTo .pathHex1) := by simp [consume, state]
    have step1 :
        (p.goTo .pathHex1).consume first =
        .ok { p with state := .pathHex2, percent1HexSym := first } := by
      simp [consume, goTo, question, hex1]
    have step2 : ({ p with state := .pathHex2, percent1HexSym := first } : URIParser).consume second =
        .ok { p with percent1HexSym := first,
                     curPath := p.curPath ++ [UInt8.ofNat (high * 16 + low)] } := by
      simp [consume, goTo, question, hex1, hex2, pushPath, state]
    obtain ⟨sym, run⟩ := ih
      (p := { p with percent1HexSym := first, curPath := p.curPath ++
      [UInt8.ofNat (high * 16 + low)] }) state
    exact ⟨sym, by simp only [parseRange, percent, step1, step2, run]; simp⟩

private theorem parseUri_encoded (text : Bytes) :
    parseUri (str "http://h/" ++ urlEncode text false) =
      .ok { scheme := str "http", host := str "h", path := ch '/' :: text } := by
  have front : ∀ rest, parseRange {} (str "http://h/" ++ rest) =
      parseRange { state := .path, uri := { scheme := str "http", host := str "h" } } rest :=
    fun rest => rfl
  obtain ⟨sym, run⟩ := segment_spelled
    (p := { state := .path, uri := { scheme := str "http", host := str "h" } })
    (urlEncode_spells text false) rfl
  simp [parseUri, URIParser.parse, front, run, consumeEnd, flushEscape, goTo]

end Uri

section Encoder

/-- The readers of an encoded text, each with the text for an answer. -/
structure Inverted (text : Bytes) : Prop where
  decoded : ∀ path, urlDecode (urlEncode text path) = text
  requested : text ≠ [] → ∀ req : RequestHeader, req.method ≠ [] → (∀ c ∈ req.method, isToken c = true) →
    ResponseTextProofs.IsVersion req.httpVersionMajor req.httpVersionMinor →
    ((encodedLine req text ++ crlf).length ≤ ({} : RequestParser).maxTotalLength → ∃ p,
      AcceptsWhole (encodedLine req text ++ crlf) p) ∧
      ∀ rest p left, RequestParser.parse {} (encodedLine req text ++ rest) = .ok (p, left) →
        p.req.path = text ∧ p.req.queryString = []
  located : ∃ uri, parseUri (str "http://h/" ++ urlEncode text false) = .ok uri ∧
    uri.path = ch '/' :: text ∧ uri.query = []

/-- One encoder and its four readers. -/
theorem encoder_inverted :
    (∀ text, Inverted text) ∧
      ∀ (path : Bool) (list : List (Bytes × Bytes)),
        parseQueryString ([ch '&'].intercalate (list.map (pairText path))) = list ∧
          ∀ key, finds (parseQueryString ([ch '&'].intercalate (list.map (pairText path))))
            key = finds list key := by
  constructor
  · intro text
    refine ⟨fun path => urlDecode_spelled (urlEncode_spells text path), ?_, ?_⟩
    · intro some_ req method token isVersion
      exact ⟨line_accepted method token isVersion some_, fun rest p left => line_path method token some_⟩
    · exact ⟨_, parseUri_encoded text, rfl, rfl⟩
  · intro path list
    have all : parseQueryString ([ch '&'].intercalate (list.map (pairText path))) = list :=
      parse_pairs ⟨rfl, rfl, rfl⟩ list
    exact ⟨all, fun key => by rw [all]⟩

theorem encoder_inverted_escaped :
    urlDecode (urlEncode (str "a/ %") true) = str "a/ %" ∧
      (∃ p, AcceptsWhole (encodedLine { method := str "GET" } (str "a/ %") ++ crlf) p ∧
        p.req.path = str "a/ %" ∧ p.req.queryString = []) ∧
      parseQueryString ([ch '&'].intercalate
        ([(str "a&", str "="), (str "a&", str "+")].map (pairText false))) =
        [(str "a&", str "="), (str "a&", str "+")] := by
  obtain ⟨decoded, requested, -⟩ := encoder_inverted.1 (str "a/ %")
  obtain ⟨accepted, path⟩ :=
    requested (by decide) { method := str "GET" } (by decide) (by decide +kernel) ⟨by decide, by decide⟩
  obtain ⟨p, parsed, good⟩ := accepted (by decide +kernel)
  have parsed_ :
      RequestParser.parse {} (encodedLine { method := str "GET" } (str "a/ %") ++ crlf) =
      .ok (p, []) := parsed
  exact ⟨decoded true, ⟨p, ⟨parsed, good⟩, path crlf p [] parsed_⟩, (encoder_inverted.2 false _).1⟩

end Encoder

end Crablib.EncoderProofs
