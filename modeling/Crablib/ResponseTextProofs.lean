import Crablib.HeaderTextProofs

/-! Responses, from `to_string` to the parser that reads them. Versions are those a
request can bring: the first number a digit, the second at most 99. -/
namespace Crablib.ResponseTextProofs
open Http Scanner HeaderProofs HeaderTextProofs NumeralProofs ResponseParser

section Machines

/-- The parser without its limit on the length of the header. -/
def plain : Machine ResponseParser UInt8 Error := ⟨advance, isGood⟩

private theorem advance_total (p : ResponseParser) (n : Nat) (c : UInt8) :
    { p with totalLength := n }.advance c = (p.advance c).map fun q => { q with totalLength := n } := by
  obtain ⟨state, lines, total⟩ := p
  cases state <;> simp only [advance, expectLetter, statusDigit, ResponseParser.statusText, goTo,
    setReq, req] <;> repeat' split
  all_goals first | rfl | (simp_all; split <;> rfl)

/-- What `consume` counts with is left alone behind it. -/
theorem advance_counts {p q : ResponseParser} {c : UInt8} (advanced : p.advance c = .ok q) :
    q.totalLength = p.totalLength ∧ q.maxTotalLength = p.maxTotalLength := by
  obtain ⟨state, _, _, _⟩ := p
  cases state <;> simp only [advance, expectLetter, statusDigit, ResponseParser.statusText] at advanced
  all_goals
    repeat' split at advanced
    all_goals
      cases advanced
      try exact ⟨rfl, rfl⟩

/-- The limit is on the number of bytes. -/
def limited : Limited machine plain where
  limit := fun p => p.maxTotalLength
  count := fun p => p.totalLength
  set := fun p n => { p with totalLength := n }
  tooLong := .runtime "HTTP Header too long - security violation"
  count_set := fun _ _ => rfl
  set_set := fun _ _ _ => rfl
  set_count := fun _ => rfl
  limit_set := fun _ _ => rfl
  limit_kept := fun advanced => (advance_counts advanced).2
  good := fun _ => rfl
  good_set := fun _ _ => rfl
  inner := advance_total
  step := fun p c => by
    simp only [machine, consume]
    split
    · rfl
    · exact advance_total p (p.totalLength + 1) c

/-- Behind the first line the parser is the one of header lines. -/
def reader : LineReader plain actions where
  behind := fun p => p.state = .headerLines
  lines := fun p => p.lines
  set := fun p lines => { p with lines := lines }
  set_lines := fun _ => rfl
  lines_set := fun _ _ => rfl
  set_set := fun _ _ _ => rfl
  behind_set := fun state _ => state
  good := fun {p} state => by simp [plain, isGood, lineMachine, state]
  consume := fun {p} state c => by
    simp only [plain, advance, state]
    cases consumeLine actions p.lines c <;> simp [Except.map]

end Machines

section StatusLine

variable {p : ResponseParser}

/-- Versions that a request can bring. -/
structure IsVersion (major minor : Int) : Prop where
  major : 0 ≤ major ∧ major ≤ 9
  minor : 0 ≤ minor ∧ minor ≤ 99

private theorem scan_major (state : p.state = .httpVersionMajorStart) {major : Int}
    (digit_ : 0 ≤ major ∧ major ≤ 9) (rest : Bytes) :
    scan plain p (decimalInt major ++ rest) =
      scan plain ((p.setReq { p.req with httpVersionMajor := major }).goTo .httpVersionMajor) rest := by
  obtain ⟨n, rfl⟩ := Int.eq_ofNat_of_zero_le digit_.1
  have small : n < 10 := by omega
  obtain ⟨isDigit_, value⟩ := digit_decimal small
  rw [decimalInt_nat, decimal_small small]
  refine scan_step (by simp [plain, isGood, state]) ?_ rest
  simp [plain, advance, state, isDigit_, value]

private theorem scan_minor (state : p.state = .httpVersionMinorStart) {minor : Int}
    (digits : 0 ≤ minor ∧ minor ≤ 99) (rest : Bytes) :
    scan plain p (decimalInt minor ++ rest) =
      scan plain ((p.setReq { p.req with httpVersionMinor := minor }).goTo .httpVersionMinor) rest := by
  obtain ⟨n, rfl⟩ := Int.eq_ofNat_of_zero_le digits.1
  have first : ∀ d < 10, ∀ rest, scan plain p (digit d :: rest) =
      scan plain ((p.setReq { p.req with httpVersionMinor := (d : Int) }).goTo .httpVersionMinor)
        rest := by
    intro d small rest
    obtain ⟨isDigit_, value⟩ := digit_decimal small
    refine scan_step (by simp [plain, isGood, state]) ?_ rest
    simp [plain, advance, state, isDigit_, value]
  rw [decimalInt_nat]
  by_cases small : n < 10
  · rw [decimal_small small]
    exact first n small rest
  · have front : n / 10 < 10 := by omega
    rw [decimal_large (by omega), decimal_small front]
    refine (first _ front _).trans ?_
    obtain ⟨isDigit_, value⟩ := digit_decimal (show n % 10 < 10 by omega)
    have sp : isSp (digit (n % 10)) = false := by
      have all : ∀ d : Fin 10, isSp (digit d) = false := by decide
      exact all ⟨n % 10, by omega⟩
    refine scan_step rfl ?_ rest
    have whole : ((n / 10 : Nat) : Int) * 10 + ((n % 10 : Nat) : Int) = n := by omega
    simp only [plain, advance, goTo, sp, isDigit_, value, Bool.not_true, Bool.false_eq_true,
      ↓reduceIte, setReq, req, whole]
    rw [if_neg (by omega)]

/-- A status of three digits. -/
private theorem scan_status (state : p.state = .statusCode1) (fresh : p.req.status = 0) {status : Int}
    (three : 100 ≤ status ∧ status ≤ 999) (rest : Bytes) :
    scan plain p (decimalInt status ++ rest) =
      scan plain ((p.setReq { p.req with status := status }).goTo .statusCodeSpace) rest := by
  obtain ⟨n, rfl⟩ := Int.eq_ofNat_of_zero_le (by omega : 0 ≤ status)
  have d1 : n / 10 / 10 < 10 := by omega
  have text :
      decimalInt n ++ rest = digit (n / 10 / 10) :: digit (n / 10 % 10) :: digit (n % 10) :: rest := by
    rw [decimalInt_nat, decimal_large (by omega), decimal_large (by omega), decimal_small d1]
    rfl
  obtain ⟨isDigit1, value1⟩ := digit_decimal d1
  obtain ⟨isDigit2, value2⟩ := digit_decimal (show n / 10 % 10 < 10 by omega)
  obtain ⟨isDigit3, value3⟩ := digit_decimal (show n % 10 < 10 by omega)
  have sp : isSp (digit (n / 10 / 10)) = false := by
    have all : ∀ d : Fin 10, isSp (digit d) = false := by decide
    exact all ⟨_, d1⟩
  have first : plain.consume p (digit (n / 10 / 10)) =
      .ok ((p.setReq { p.req with status := ((n / 10 / 10 : Nat) : Int) }).goTo .statusCode2) := by
    simp only [plain, advance, state, sp, statusDigit, isDigit1, value1, fresh, Bool.not_true,
      Bool.false_eq_true, ↓reduceIte, Int.zero_mul, Int.zero_add]
  rw [text, scan_step (by simp [plain, isGood, state]) first]
  refine (scan_step rfl (t := (p.setReq { p.req with status := ((n / 10 : Nat) : Int) }).goTo
    .statusCode3) ?_ _).trans ?_
  · have whole : ((n / 10 / 10 : Nat) : Int) * 10 + ((n / 10 % 10 : Nat) : Int) =
      ((n / 10 : Nat) : Int) := by omega
    simp only [plain, advance, goTo, statusDigit, isDigit2, value2, Bool.not_true,
      Bool.false_eq_true, ↓reduceIte, setReq, req, whole]
  · refine scan_step rfl ?_ rest
    have whole : ((n / 10 : Nat) : Int) * 10 + ((n % 10 : Nat) : Int) = (n : Int) := by omega
    simp only [plain, advance, goTo, statusDigit, isDigit3, value3, Bool.not_true,
      Bool.false_eq_true, ↓reduceIte, setReq, req, whole]

private theorem scan_more (state : p.state = .statusText) {text : Bytes}
    (isPlain : ∀ c ∈ text, isCtl c = false) (rest : Bytes) :
    scan plain p (text ++ rest) =
      scan plain (p.setReq { p.req with statusText := p.req.statusText ++ text }) rest := by
  induction text generalizing p with
  | nil => simp [setReq, req]
  | cons c text ih =>
    have ctl := isPlain c List.mem_cons_self
    have cr : c ≠ 13 := by
      rintro rfl
      exact absurd ctl (by decide)
    have lf : c ≠ 10 := by
      rintro rfl
      exact absurd ctl (by decide)
    have consumed :
        plain.consume p c = .ok (p.setReq { p.req with statusText := p.req.statusText ++ [c] }) := by
      simp only [plain, advance, state, ResponseParser.statusText, cr, lf, ctl,
        Bool.false_eq_true, ↓reduceIte, goTo]
      rw [← state]
      rfl
    rw [List.cons_append, scan_step (by simp [plain, isGood, state]) consumed,
      ih (p := p.setReq { p.req with statusText := p.req.statusText ++ [c] }) state fun d member =>
        isPlain d (List.mem_cons_of_mem _ member)]
    simp [setReq, req]

/-- The status text, from the space before it to the end of the line. -/
private theorem scan_statusText (state : p.state = .statusCodeSpace) (fresh : p.req.statusText = [])
    {text : Bytes} (some_ : text ≠ []) (ok : IsValue text) (rest : Bytes) :
    scan plain p (str " " ++ (text ++ (crlf ++ rest))) =
      scan plain ((p.setReq { p.req with statusText := text }).goTo .headerLines) rest := by
  obtain ⟨c, more, rfl⟩ := List.exists_cons_of_ne_nil some_
  have ctl := ok.plain c List.mem_cons_self
  have other : c ≠ 13 ∧ c ≠ 10 ∧ c ≠ 9 := by
    refine ⟨?_, ?_, ?_⟩ <;> rintro rfl <;> exact absurd ctl (by decide)
  have space : c ≠ 32 := by simpa using ok.first
  have sp : isSp c = false := by simp [isSp, space, other.2.2]
  have blank : plain.consume p (ch ' ') = .ok (p.goTo .statusTextStart) := by
    have facts : ch ' ' ≠ 13 ∧ ch ' ' ≠ 10 ∧ isSp (ch ' ') = true := by decide
    simp [plain, advance, state, facts]
  have first :
      plain.consume (p.goTo .statusTextStart) c =
      .ok ((p.setReq { p.req with statusText := [c] }).goTo .statusText) := by
    have none : p.lines.req.statusText = [] := fresh
    simp [plain, advance, goTo, sp, ResponseParser.statusText, other.1, other.2.1,
      ctl, setReq, req, none]
  have start :
      str " " ++ (c :: more ++ (crlf ++ rest)) = ch ' ' :: c :: (more ++ (13 :: 10 :: rest)) := rfl
  rw [start, scan_step (by simp [plain, isGood, state]) blank, scan_step rfl first,
    scan_more (p := (p.setReq { p.req with statusText := [c] }).goTo .statusText) rfl fun d member =>
      ok.plain d (List.mem_cons_of_mem _ member)]
  refine (scan_step rfl (t := (p.setReq { p.req with statusText := c :: more }).goTo .statusLineLf)
    ?_ _).trans (scan_step rfl rfl _)
  simp [plain, advance, ResponseParser.statusText, goTo, setReq, req]

/-- The text behind the status, which is never empty. -/
def textOf (resp : ResponseHeader) : Bytes :=
  if resp.statusText.isEmpty then statusToString resp.status else resp.statusText

/-- Every text for a status is a value. -/
theorem statusToString_value (status : Int) :
    statusToString status ≠ [] ∧ IsValue (statusToString status) := by
  simp only [statusToString]
  split
  · rename_i mapping found
    have member := List.mem_of_find?_eq_some found
    have all :
        ∀ m ∈ ([(101, "Switching Protocols"), (200, "OK"), (400, "Bad request"), (401, "Unauthorized"),
          (403, "Forbidden"), (404, "Not found"), (422, "Unprocessable Entity"),
          (500, "Internal Error"), (501, "Not implemented"), (502, "Service temporarily overloaded"),
          (503, "Gateway timeout")] : List (Int × String)),
          str m.2 ≠ [] ∧ IsValue (str m.2) := by decide
    exact all mapping member
  · exact ⟨by decide, by decide⟩

/-- The first line up to the status. -/
theorem scan_version {c : RequestResponseHeader}
    (isVersion : IsVersion c.httpVersionMajor c.httpVersionMinor) (rest : Bytes) :
    scan plain {} (version c ++ (str " " ++ rest)) =
      scan plain { state := .statusCode1, lines := { req := { ({} : ResponseHeader) with
        toRequestResponseHeader := atStart c.httpVersionMajor c.httpVersionMinor } } } rest := by
  have letters :
      ∀ rest, scan plain {} (str "HTTP/" ++ rest) =
      scan plain { state := .httpVersionMajorStart } rest := by
    intro rest
    have split : str "HTTP/" ++ rest = 72 :: 84 :: 84 :: 80 :: 47 :: rest := rfl
    rw [split]
    iterate 4 refine (scan_step rfl rfl _).trans ?_
    exact scan_step rfl rfl _
  have dot : ∀ (p : ResponseParser) rest, p.state = .httpVersionMajor →
      scan plain p (str "." ++ rest) = scan plain (p.goTo .httpVersionMinorStart) rest := by
    intro p rest state
    refine scan_step (a := ch '.') (by simp [plain, isGood, state]) ?_ rest
    simp [plain, advance, state]
  have blank : ∀ (p : ResponseParser) rest, p.state = .httpVersionMinor →
      scan plain p (str " " ++ rest) =
        scan plain ((p.setReq { p.req with
          keepAlive := persists p.req.httpVersionMajor p.req.httpVersionMinor }).goTo
          .statusCode1) rest := by
    intro p rest state
    refine scan_step (a := ch ' ') (by simp [plain, isGood, state]) ?_ rest
    simp [plain, advance, state, persists]
  simp only [version, List.append_assoc]
  rw [letters, scan_major rfl isVersion.major, dot _ _ rfl,
    scan_minor rfl isVersion.minor, blank _ _ rfl]
  rfl

/-- The first line as a whole. -/
theorem scan_statusLine {resp : ResponseHeader}
    (isVersion : IsVersion resp.httpVersionMajor resp.httpVersionMinor)
    (three : 100 ≤ resp.status ∧ resp.status ≤ 999) (text : IsValue resp.statusText) (rest : Bytes) :
    scan plain {} (version resp.toRequestResponseHeader ++ str " " ++ decimalInt resp.status ++
      str " " ++ textOf resp ++ crlf ++ rest) =
      scan plain { state := .headerLines, lines := { req := { ({} : ResponseHeader) with
        toRequestResponseHeader := atStart resp.httpVersionMajor resp.httpVersionMinor
        status := resp.status, statusText := textOf resp } } } rest := by
  have ok : textOf resp ≠ [] ∧ IsValue (textOf resp) := by
    unfold textOf
    split
    · exact statusToString_value resp.status
    · rename_i some_
      exact ⟨by simpa using some_, text⟩
  simp only [List.append_assoc]
  rw [scan_version isVersion, scan_status rfl rfl three, scan_statusText rfl rfl ok.1 ok.2]
  rfl

end StatusLine

section ResponseLines

/-- The names that the response parser handles in its own way. -/
def specialNames : List Bytes :=
  [str "content-length", str "transfer-encoding", str "content-type", str "connection", str "upgrade",
    str "sec-websocket-accept", str "date", str "server"]

private theorem extra_facts {name : Bytes} (extra : name ∉ specialNames) (value : Bytes)
    (req : RequestResponseHeader) :
    processCommonHeader name value req = none ∧ name ≠ str "sec-websocket-accept" ∧
      name ≠ str "date" ∧ name ≠ str "server" := by
  simp only [specialNames, List.mem_cons, List.not_mem_nil, not_or] at extra
  simp [processCommonHeader, extra]

/-- The response parser keeps the common fields in one place. -/
def responseCommon : Common actions where
  get := fun r => r.toRequestResponseHeader
  set := fun r c => { r with toRequestResponseHeader := c }
  isExtra := fun name => name ∉ specialNames
  get_set := fun _ _ => rfl
  set_set := fun _ _ _ => rfl
  set_get := fun _ => rfl
  common := fun h r c processed => by simp [actions, processReadyHeader, processed]
  single := fun name extra => by
    simp only [specialNames, List.mem_cons, List.not_mem_nil, not_or] at extra
    simp [isCmsList, extra]
  extra := fun h r extra => by
    obtain ⟨none, accept, date, server⟩ := extra_facts extra h.value r.toRequestResponseHeader
    simp [actions, processReadyHeader, none, accept, date, server]

/-- A response header whose text a parser can read: strings that are values, names
that are tokens in lower case, a status of three digits. -/
structure ResponseSendable (resp : ResponseHeader) : Prop where
  version : IsVersion resp.httpVersionMajor resp.httpVersionMinor
  status : 100 ≤ resp.status ∧ resp.status ≤ 999
  statusText : IsValue resp.statusText
  common : Sendable (· ∉ specialNames) resp.toRequestResponseHeader
  date : IsValue resp.date
  secWebsocketAccept : IsValue resp.secWebsocketAccept

/-- What the parser makes of the text of a response header. The server's name is
not in the text. -/
def parsedAs (resp : ResponseHeader) : ResponseHeader :=
  { resp with
    toRequestResponseHeader := announced resp.toRequestResponseHeader
    statusText := textOf resp
    server := [] }

variable {resp : ResponseHeader}

private theorem reads_response (ok : ResponseSendable resp) :
    Reads actions (optionalLine (str "date") resp.date ++ resp.toStringCommon ++
      optionalLine (str "sec-websocket-accept") resp.secWebsocketAccept)
      { toRequestResponseHeader := atStart resp.httpVersionMajor resp.httpVersionMinor
        status := resp.status, statusText := textOf resp } (parsedAs resp) := by
  have date : Reads actions (optionalLine (str "date") resp.date)
      { toRequestResponseHeader := atStart resp.httpVersionMajor resp.httpVersionMinor
        status := resp.status, statusText := textOf resp }
      { toRequestResponseHeader := atStart resp.httpVersionMajor resp.httpVersionMinor
        status := resp.status, statusText := textOf resp, date := resp.date } :=
    reads_optionalLine (isLine_plain (by decide) (by decide) ok.date)
      (fun none => by rw [none]) fun _ => rfl
  have common := reads_common responseCommon ok.common
    { toRequestResponseHeader := atStart resp.httpVersionMajor resp.httpVersionMinor
      status := resp.status, statusText := textOf resp, date := resp.date }
  have accept : Reads actions (optionalLine (str "sec-websocket-accept") resp.secWebsocketAccept)
      { toRequestResponseHeader := announced resp.toRequestResponseHeader
        status := resp.status, statusText := textOf resp, date := resp.date } (parsedAs resp) :=
    reads_optionalLine (isLine_plain (by decide) (by decide) ok.secWebsocketAccept)
      (fun none => by simp only [parsedAs, none]) fun _ => rfl
  exact (date.trans common).trans accept

/-- The text of a response header is read to its last byte. -/
theorem response_parsed (ok : ResponseSendable resp)
    (fits : resp.toString.length ≤ ({} : ResponseParser).maxTotalLength) :
    ∃ p, ResponseParser.parse {} resp.toString = .ok (p, []) ∧ p.isGood = true ∧
      p.req = parsedAs resp := by
  let start : ResponseHeader :=
    { toRequestResponseHeader := atStart resp.httpVersionMajor resp.httpVersionMinor
      status := resp.status, statusText := textOf resp }
  have trimmed : trimRight (textOf resp) = textOf resp := by
    refine trimRight_value ?_
    unfold textOf
    split
    · exact (statusToString_value resp.status).2
    · exact ok.statusText
  have at_ : AtLine actions { req := start } start := by
    have first : AtLine actions { req := start } (actions.atFirstLine start) := .first rfl rfl
    have same : actions.atFirstLine start = start := by simp only [actions, start, trimmed]
    rwa [same] at first
  obtain ⟨q, at_', scanned⟩ := reads_response ok _ at_
  have lines := (scanned (crlf ++ [])).trans (scan_end at_' [])
  have plainly : scan plain {} resp.toString =
      .ok ({ state := .headerLines,
             lines := { q with state := .good, header := {}, req := parsedAs resp } }, []) := by
    have first := scan_statusLine ok.version ok.status ok.statusText
    have behind := reader.scan_ok (s := { state := .headerLines, lines := { req := start } }) rfl lines
    rw [List.append_nil] at behind
    simp only [ResponseHeader.toString, textOf, List.append_assoc] at first behind ⊢
    rw [first]
    exact behind
  obtain ⟨n, parsed⟩ := limited.scan_ok (by simpa [limited] using fits) plainly
  exact ⟨_, parsed, rfl, rfl⟩

/-- A response header that a server may want to send: strings that are values, no
encodings besides chunks, and an upgrade only where it is announced. -/
structure ResponseGiven (resp : ResponseHeader) : Prop where
  major : resp.httpVersionMajor = 1
  minor : resp.httpVersionMinor = 0 ∨ resp.httpVersionMinor = 1
  status : 100 ≤ resp.status ∧ resp.status ≤ 999
  statusText : resp.statusText ≠ [] ∧ IsValue resp.statusText
  date : IsValue resp.date
  server : IsValue resp.server
  secWebsocketAccept : IsValue resp.secWebsocketAccept
  mime : IsValue resp.contentTypeMime
  mimeLower : toLower resp.contentTypeMime = resp.contentTypeMime
  mimePlain : ch ';' ∉ resp.contentTypeMime ∧ 32 ∉ resp.contentTypeMime
  suffix : IsValue resp.contentTypeSuffix
  encodings : resp.transferEncodings = []
  upgrade : resp.connectionUpgrade = resp.upgradeWebsocket
  upgradeOnly : resp.connectionUpgrade = true → resp.httpVersionMinor = 1 ∧ resp.keepAlive = true
  headers : ∀ h ∈ resp.headers, IsName h.name ∧ IsValue h.value ∧ h.name ∉ specialNames

/-- The header without what its text leaves out: the server's name, and a suffix
that stands behind no mime type. -/
def written (resp : ResponseHeader) : ResponseHeader :=
  { resp with
    server := []
    contentTypeSuffix := if resp.contentTypeMime = [] then [] else resp.contentTypeSuffix }

private theorem written_toString (resp : ResponseHeader) : (written resp).toString = resp.toString := by
  have type : (written resp).contentTypeLine = resp.contentTypeLine := by
    by_cases none : resp.contentTypeMime = [] <;>
      simp [written, RequestResponseHeader.contentTypeLine, none]
  have common : (written resp).toStringCommon = resp.toStringCommon := by
    simp only [RequestResponseHeader.toStringCommon, type]
    rfl
  simp only [ResponseHeader.toString, common]
  rfl

private theorem written_sendable (ok : ResponseGiven resp) : ResponseSendable (written resp) where
  version := ⟨by simp [written, ok.major], by
    rcases ok.minor with minor | minor <;> simp [written, minor]⟩
  status := ok.status
  statusText := ok.statusText.2
  common :=
    { mime := ok.mime
      mimeLower := ok.mimeLower
      mimePlain := ok.mimePlain
      suffix := by
        simp only [written]
        split
        · decide
        · exact ok.suffix
      noSuffix := fun none => if_pos none
      encodings := fun e member => by
        rw [show (written resp).transferEncodings = [] from ok.encodings] at member
        simp at member
      chunked := fun _ => ok.encodings
      headers := ok.headers }
  date := ok.date
  secWebsocketAccept := ok.secWebsocketAccept

private theorem written_parsedAs (ok : ResponseGiven resp) : parsedAs (written resp) = written resp := by
  have same :
      announced (written resp).toRequestResponseHeader = (written resp).toRequestResponseHeader :=
    announced_eq ok.major ok.minor ok.upgrade ok.upgradeOnly
  have text : textOf (written resp) = resp.statusText := by
    have some_ : (written resp).statusText = resp.statusText := rfl
    simp [textOf, some_, ok.statusText.1]
  simp only [parsedAs, same, text]
  rfl

/-- The text of the header is accepted, to its last byte and no earlier, and gives
back the header. -/
structure Returns (resp : ResponseHeader) : Prop where
  whole : ∃ p, ResponseParser.parse {} resp.toString = .ok (p, []) ∧ p.isGood = true ∧ p.req = resp
  noEarlier : ∀ front back, resp.toString = front ++ back → back ≠ [] →
    ∃ q, ResponseParser.parse {} front = .ok (q, []) ∧ q.isGood = false

/-- A response header comes back exactly if it names no server and has no suffix
without a mime type: nothing of these is in its text. -/
theorem response_header_round_trip (resp : ResponseHeader) (ok : ResponseGiven resp)
    (fits : resp.toString.length ≤ ({} : ResponseParser).maxTotalLength) :
    Returns resp ↔ resp.server = [] ∧ (resp.contentTypeMime = [] → resp.contentTypeSuffix = []) := by
  obtain ⟨p, parsed, good, read⟩ := response_parsed (written_sendable ok) (by rwa [written_toString])
  rw [written_toString] at parsed
  rw [written_parsedAs ok] at read
  constructor
  · rintro ⟨⟨p', parsed', -, same⟩, -⟩
    rw [parsed, Except.ok.injEq, Prod.mk.injEq] at parsed'
    have unchanged : written resp = resp := by rw [← read, parsed'.1, same]
    refine ⟨?_, fun none => ?_⟩
    · rw [← unchanged]
      rfl
    · rw [← unchanged]
      exact if_pos none
  · rintro ⟨server, suffix⟩
    have unchanged : written resp = resp := by
      have kept : (if resp.contentTypeMime = [] then [] else resp.contentTypeSuffix) =
          resp.contentTypeSuffix := by
        split
        · rename_i none
          exact (suffix none).symm
        · rfl
      simp only [written, kept]
      rw [← server]
    refine ⟨⟨p, parsed, good, read.trans unchanged⟩, fun front back split more => ?_⟩
    rw [split] at parsed
    obtain ⟨q, prefix_, waiting, -⟩ := scan_part parsed more
    exact ⟨q, prefix_, waiting⟩

/-- A response with a date, a content type, a header of its own and the given name
for the server. -/
private def datedResponse (server : Bytes) : ResponseHeader :=
  { status := 200, statusText := str "OK", date := str "Tue, 15 Nov 1994 08:12:31 GMT", server := server
    contentTypeMime := str "text/plain"
    contentTypeSuffix := str "charset=utf-8", contentLength := some 5
    headers := [{ name := str "x-id", value := str "a b" }] }

private theorem datedResponse_given {server : Bytes}
    (ok : IsValue server) : ResponseGiven (datedResponse server) where
  major := rfl
  minor := .inr rfl
  status := ⟨by simp [datedResponse], by simp [datedResponse]⟩
  statusText := show str "OK" ≠ [] ∧ IsValue (str "OK") by decide
  date := show IsValue (str "Tue, 15 Nov 1994 08:12:31 GMT") by decide
  server := ok
  secWebsocketAccept := show IsValue [] by decide
  mime := show IsValue (str "text/plain") by decide
  mimeLower := show toLower (str "text/plain") = str "text/plain" by decide
  mimePlain := show ch ';' ∉ str "text/plain" ∧ 32 ∉ str "text/plain" by decide
  suffix := show IsValue (str "charset=utf-8") by decide
  encodings := rfl
  upgrade := rfl
  upgradeOnly := fun upgrade => by simp [datedResponse] at upgrade
  headers := show ∀ h ∈ [({ name := str "x-id", value := str "a b" } : Header)],
    IsName h.name ∧ IsValue h.value ∧ h.name ∉ specialNames by decide

theorem response_header_round_trip_dated : ResponseGiven (datedResponse []) ∧
      Returns (datedResponse []) :=
  have ok := datedResponse_given (show IsValue [] by decide +kernel)
  ⟨ok, (response_header_round_trip (datedResponse []) ok (by decide +kernel)).mpr ⟨rfl, by decide⟩⟩

/-- A response that names its server comes back without the name. -/
theorem server_name_lost : ResponseGiven (datedResponse (str "crab")) ∧
    (datedResponse (str "crab")).toString.length ≤ ({} : ResponseParser).maxTotalLength ∧ ¬Returns
      (datedResponse (str "crab")) := by
  refine ⟨datedResponse_given (by decide +kernel), by decide +kernel, fun returns => ?_⟩
  obtain ⟨p, parsed, -, same⟩ := returns.whole
  have read : (ResponseParser.parse {} (datedResponse (str "crab")).toString).toOption.map
      (fun r => r.1.req.server) = some [] := by
    decide +kernel
  rw [parsed] at read
  have none : p.req.server = [] := by simpa [Except.toOption] using read
  rw [same] at none
  exact absurd none (by decide)

end ResponseLines

end Crablib.ResponseTextProofs
