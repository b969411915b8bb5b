import Crablib.HeaderTextProofs

/-! Requests, from `to_string` to the parser that reads them. -/
namespace Crablib.RequestTextProofs
open Http Scanner HeaderProofs HeaderTextProofs NumeralProofs RequestParser

section Machines

/-- The parser without its limit on the length of the header. -/
def plain : Machine RequestParser UInt8 Error := ⟨advance, isGood⟩

private theorem advance_total (p : RequestParser) (n : Nat) (c : UInt8) :
    { p with totalLength := n }.advance c = (p.advance c).map fun q => { q with totalLength := n } := by
  obtain ⟨state, lines, percent, total⟩ := p
  cases state <;> simp only [advance, expectLetter, goTo, setReq, pushPath, req] <;> repeat' split
  all_goals first | rfl | (simp_all; split <;> rfl)

/-- What `consume` counts with is left alone behind it. -/
theorem advance_counts {p q : RequestParser} {c : UInt8} (advanced : p.advance c = .ok q) :
    q.totalLength = p.totalLength ∧ q.maxTotalLength = p.maxTotalLength := by
  obtain ⟨state, _, _, _⟩ := p
  cases state <;> simp only [advance, expectLetter] at advanced
  all_goals
    repeat' split at advanced
    all_goals
      cases advanced
      try exact ⟨rfl, rfl⟩

/-- The limit is on the number of bytes. -/
def limited : Limited machine plain where
  limit := fun p => p.maxTotalLength
  count := fun p => p.totalLength
  set := fun p n => { p with totalLength := n }
  tooLong := .runtime "HTTP Header too long - security violation"
  count_set := fun _ _ => rfl
  set_set := fun _ _ _ => rfl
  set_count := fun _ => rfl
  limit_set := fun _ _ => rfl
  limit_kept := fun advanced => (advance_counts advanced).2
  good := fun _ => rfl
  good_set := fun _ _ => rfl
  inner := advance_total
  step := fun p c => by
    simp only [machine, consume]
    split
    · rfl
    · exact advance_total p (p.totalLength + 1) c

/-- Behind the first line the parser is the one of header lines. -/
def reader : LineReader plain actions where
  behind := fun p => p.state = .headerLines
  lines := fun p => p.lines
  set := fun p lines => { p with lines := lines }
  set_lines := fun _ => rfl
  lines_set := fun _ _ => rfl
  set_set := fun _ _ _ => rfl
  behind_set := fun state _ => state
  good := fun {p} state => by simp [plain, isGood, lineMachine, state]
  consume := fun {p} state c => by
    simp only [plain, advance, state]
    cases consumeLine actions p.lines c <;> simp [Except.map]

end Machines

section RequestLine

variable {p : RequestParser}

theorem scan_method (state : p.state = .method) {text : Bytes}
    (token : ∀ c ∈ text, isToken c = true) (rest : Bytes) :
    scan plain p (text ++ rest) =
      scan plain (p.setReq { p.req with method := p.req.method ++ text }) rest := by
  induction text generalizing p with
  | nil => simp [setReq, req]
  | cons c text ih =>
    have isToken_ := token c List.mem_cons_self
    have consumed : plain.consume p c = .ok (p.setReq { p.req with method := p.req.method ++ [c] }) := by
      simp [plain, advance, state, (token_facts isToken_).1, isToken_]
    rw [List.cons_append, scan_step (by simp [plain, isGood, state]) consumed,
      ih (p := p.setReq { p.req with method := p.req.method ++ [c] }) state fun d member =>
      token d (List.mem_cons_of_mem _ member)]
    simp [setReq, req]

/-- A character that is kept in the path as it is. -/
structure IsPathChar (c : UInt8) : Prop where
  plain : isCtl c = false
  space : c ≠ 32
  percent : c ≠ ch '%'
  query : c ≠ ch '?'
  anchor : c ≠ ch '#'

instance (c : UInt8) : Decidable (IsPathChar c) :=
  decidable_of_iff (isCtl c = false ∧ c ≠ 32 ∧ c ≠ ch '%' ∧ c ≠ ch '?' ∧ c ≠ ch '#')
    ⟨fun h => ⟨h.1, h.2.1, h.2.2.1, h.2.2.2.1, h.2.2.2.2⟩,
      fun h => ⟨h.plain, h.space, h.percent, h.query, h.anchor⟩⟩

/-- A character that is kept in the query string as it is. -/
structure IsQueryChar (c : UInt8) : Prop where
  plain : isCtl c = false
  space : c ≠ 32
  anchor : c ≠ ch '#'

instance (c : UInt8) : Decidable (IsQueryChar c) :=
  decidable_of_iff (isCtl c = false ∧ c ≠ 32 ∧ c ≠ ch '#')
    ⟨fun h => ⟨h.1, h.2.1, h.2.2⟩, fun h => ⟨h.plain, h.space, h.anchor⟩⟩

private theorem scan_path (state : p.state = .uri) {text : Bytes}
    (path : ∀ c ∈ text, IsPathChar c) (rest : Bytes) :
    scan plain p (text ++ rest) =
      scan plain (p.setReq { p.req with path := p.req.path ++ text }) rest := by
  induction text generalizing p with
  | nil => simp [setReq, req]
  | cons c text ih =>
    obtain ⟨ctl, space, percent, query, anchor⟩ := path c List.mem_cons_self
    have consumed : plain.consume p c = .ok (p.setReq { p.req with path := p.req.path ++ [c] }) := by
      simp [plain, advance, state, sp_of_plain ctl space, ctl, percent, query, anchor, pushPath]
    rw [List.cons_append, scan_step (by simp [plain, isGood, state]) consumed,
      ih (p := p.setReq { p.req with path := p.req.path ++ [c] }) state fun d member =>
      path d (List.mem_cons_of_mem _ member)]
    simp [setReq, req]

private theorem scan_query (state : p.state = .uriQueryString) {text : Bytes}
    (query : ∀ c ∈ text, IsQueryChar c) (rest : Bytes) :
    scan plain p (text ++ rest) =
      scan plain (p.setReq { p.req with queryString := p.req.queryString ++ text }) rest := by
  induction text generalizing p with
  | nil => simp [setReq, req]
  | cons c text ih =>
    obtain ⟨ctl, space, anchor⟩ := query c List.mem_cons_self
    have consumed :
        plain.consume p c = .ok (p.setReq { p.req with queryString := p.req.queryString ++ [c] }) := by
      simp [plain, advance, state, sp_of_plain ctl space, ctl, anchor]
    rw [List.cons_append, scan_step (by simp [plain, isGood, state]) consumed,
      ih (p := p.setReq { p.req with queryString := p.req.queryString ++ [c] }) state fun d member =>
        query d (List.mem_cons_of_mem _ member)]
    simp [setReq, req]

/-- The target of the request, from the space before it to the space behind it. -/
private theorem scan_target (state : p.state = .uriStart) {path query : Bytes} (some_ : path ≠ [])
    (isPath : ∀ c ∈ path, IsPathChar c) (isQuery : ∀ c ∈ query, IsQueryChar c)
    (fresh : p.req.path = [] ∧ p.req.queryString = []) (rest : Bytes) :
    scan plain p (path ++ ((if query.isEmpty then [] else str "?" ++ query) ++ (str " " ++ rest))) =
      scan plain ((p.setReq { p.req with path := path, queryString := query }).goTo .httpVersionH)
        rest := by
  obtain ⟨c, more, rfl⟩ := List.exists_cons_of_ne_nil some_
  obtain ⟨ctl, space, percent, question, anchor⟩ := isPath c List.mem_cons_self
  have first : plain.consume p c = .ok ((p.setReq { p.req with path := [c] }).goTo .uri) := by
    simp [plain, advance, state, sp_of_plain ctl space, ctl, percent, question,
      anchor, pushPath, fresh.1]
  rw [List.cons_append, scan_step (by simp [plain, isGood, state]) first,
    scan_path (p := (p.setReq { p.req with path := [c] }).goTo .uri) rfl fun d member =>
    isPath d (List.mem_cons_of_mem _ member)]
  have blank : str " " ++ rest = ch ' ' :: rest := rfl
  cases query with
  | nil =>
    rw [List.isEmpty_nil, if_pos rfl, List.nil_append, blank]
    refine (scan_step rfl (t := (p.setReq { p.req with path := c :: more, queryString := [] }).goTo
      .httpVersionH) ?_ rest)
    simp [plain, advance, goTo, setReq, req, ← fresh.2]
  | cons d query =>
    have text : str "?" ++ d :: query = ch '?' :: d :: query := rfl
    rw [List.isEmpty_cons, if_neg (by simp), text, List.cons_append]
    have question : plain.consume
        (((p.setReq { p.req with path := [c] }).goTo .uri).setReq { p.req with path := c :: more })
        (ch '?') = .ok ((p.setReq { p.req with path := c :: more }).goTo .uriQueryString) := by
      have facts : isSp (ch '?') = false ∧ isCtl (ch '?') = false ∧ ch '?' ≠ ch '#' := by decide
      simp [plain, advance, goTo, setReq, facts]
    refine (scan_step rfl question _).trans ?_
    rw [scan_query (p := (p.setReq { p.req with path := c :: more }).goTo .uriQueryString) rfl
      isQuery, blank]
    have none : p.lines.req.queryString = [] := fresh.2
    refine (scan_step rfl (t := (p.setReq { p.req with
      path := c :: more, queryString := d :: query }).goTo .httpVersionH) ?_ rest)
    simp [plain, advance, goTo, setReq, req, none]

/-- The version of the two that are sent, to the end of the line. -/
private theorem scan_version (state : p.state = .httpVersionH) {minor : Int}
    (small : minor = 0 ∨ minor = 1) (rest : Bytes) :
    scan plain p (str "HTTP/" ++ decimalInt 1 ++ str "." ++ decimalInt minor ++ (crlf ++ rest)) =
      scan plain ((p.setReq { p.req with httpVersionMajor := 1, httpVersionMinor := minor }).goTo
        .headerLines) rest := by
  obtain ⟨_, lines, percent, total⟩ := p
  subst state
  -- eight letters and digits, then the end of the line
  rcases small with rfl | rfl
  · have text : str "HTTP/" ++ decimalInt 1 ++ str "." ++ decimalInt 0 ++ (crlf ++ rest) =
        72 :: 84 :: 84 :: 80 :: 47 :: 49 :: 46 :: 48 :: 13 :: 10 :: rest := rfl
    rw [text]
    iterate 10 refine (scan_step rfl rfl _).trans ?_
    rfl
  · have text : str "HTTP/" ++ decimalInt 1 ++ str "." ++ decimalInt 1 ++ (crlf ++ rest) =
        72 :: 84 :: 84 :: 80 :: 47 :: 49 :: 46 :: 49 :: 13 :: 10 :: rest := rfl
    rw [text]
    iterate 10 refine (scan_step rfl rfl _).trans ?_
    rfl

/-- The first line as a whole. -/
theorem scan_requestLine {req : RequestHeader} (method : req.method ≠ [])
    (token : ∀ c ∈ req.method, isToken c = true) (path : req.path ≠ [])
    (isPath : ∀ c ∈ req.path, IsPathChar c) (isQuery : ∀ c ∈ req.queryString, IsQueryChar c)
    (major : req.httpVersionMajor = 1) (minor : req.httpVersionMinor = 0 ∨ req.httpVersionMinor = 1)
    (rest : Bytes) :
    scan plain {} (req.method ++ str " " ++ req.path ++ (if req.queryString.isEmpty then []
      else str "?" ++ req.queryString) ++
        str " " ++ version req.toRequestResponseHeader ++ crlf ++ rest) =
      scan plain { state := .headerLines, lines := { req := { ({} : RequestHeader) with
        method := req.method, path := req.path, queryString := req.queryString
        httpVersionMajor := 1, httpVersionMinor := req.httpVersionMinor } } } rest := by
  obtain ⟨c, more, split⟩ := List.exists_cons_of_ne_nil method
  have isToken_ := token c (by simp [split])
  obtain ⟨-, -, -, cr, lf⟩ := token_facts isToken_
  have first : plain.consume {} c = .ok { state := .method, lines := { req := { method := [c] } } } := by
    simp [plain, advance, cr, lf, isToken_, setReq, goTo, RequestParser.req]
  have space : plain.consume { state := .method, lines := { req := { method := c :: more } } } (ch ' ') =
      .ok { state := .uriStart, lines := { req := { method := c :: more } } } := rfl
  have text :
      req.method ++ str " " ++ req.path ++ (if req.queryString.isEmpty then []
      else str "?" ++ req.queryString) ++
      str " " ++ version req.toRequestResponseHeader ++ crlf ++ rest =
      c :: (more ++ (ch ' ' ::
      (req.path ++ ((if req.queryString.isEmpty then [] else str "?" ++ req.queryString) ++
        (str " " ++ (str "HTTP/" ++ decimalInt 1 ++ str "." ++ decimalInt req.httpVersionMinor ++
          (crlf ++ rest))))))) := by
    have blank : ∀ text : Bytes, ch ' ' :: text = str " " ++ text := fun _ => rfl
    rw [split, version, major, blank]
    simp only [List.append_assoc, List.cons_append]
  rw [text, scan_step rfl first,
      scan_method (p := { state := .method, lines := { req := { method := [c] } } }) rfl fun d member =>
    token d (by simp [split, member])]
  refine (scan_step rfl space _).trans ?_
  rw [scan_target (p := { state := .uriStart, lines := { req := { method := c :: more } } }) rfl
    path isPath isQuery ⟨rfl, rfl⟩, scan_version rfl minor]
  simp [setReq, goTo, RequestParser.req, split]

end RequestLine

section RequestLines

/-- The names that the request parser handles in its own way. -/
def specialNames : List Bytes :=
  [str "content-length", str "transfer-encoding", str "host", str "origin",
    str "content-type", str "connection",
    str "authorization", str "upgrade", str "sec-websocket-key", str "sec-websocket-version"]

private theorem extra_facts {name : Bytes} (extra : name ∉ specialNames) (value : Bytes)
    (req : RequestResponseHeader) :
    processCommonHeader name value req = none ∧ name ≠ str "host" ∧ name ≠ str "origin" ∧
      name ≠ str "authorization" ∧
      name ≠ str "sec-websocket-key" ∧ name ≠ str "sec-websocket-version" := by
  simp only [specialNames, List.mem_cons, List.not_mem_nil, not_or] at extra
  simp [processCommonHeader, extra]

/-- The request parser keeps the common fields in one place. -/
def requestCommon : Common actions where
  get := fun r => r.toRequestResponseHeader
  set := fun r c => { r with toRequestResponseHeader := c }
  isExtra := fun name => name ∉ specialNames
  get_set := fun _ _ => rfl
  set_set := fun _ _ _ => rfl
  set_get := fun _ => rfl
  common := fun h r c processed => by simp [actions, processReadyHeader, processed]
  single := fun name extra => by
    simp only [specialNames, List.mem_cons, List.not_mem_nil, not_or] at extra
    simp [isCmsList, extra]
  extra := fun h r extra => by
    obtain ⟨none, host, origin, authorization, key, version⟩ :=
      extra_facts extra h.value r.toRequestResponseHeader
    simp [actions, processReadyHeader, none, host, origin, authorization, key, version]

/-- The token behind `basic` comes back. -/
private theorem parseAuthorizationBasic_text {token : Bytes} (some_ : token ≠ []) (ok : IsValue token) :
    parseAuthorizationBasic (str "basic " ++ token) = some token := by
  obtain ⟨c, more, rfl⟩ := List.exists_cons_of_ne_nil some_
  have space : c ≠ 32 := by simpa using ok.first
  have sp : isSp c = false := sp_of_plain (ok.plain c List.mem_cons_self) space
  have text : str "basic " ++ c :: more = 98 :: 97 :: 115 :: 105 :: 99 :: 32 :: c :: more := rfl
  have lower : toLower [98, 97, 115, 105, 99] = str "basic" := by decide
  simp [parseAuthorizationBasic, text, lower, sp]

/-- A line that sets a field of its own, left out when the field is empty. -/
private theorem reads_field {name value : Bytes} {r s : RequestHeader} (isName : IsName name)
    (single : isCmsList name = false) (isValue : IsValue value) (empty : value = [] → s = r)
    (processed : processReadyHeader { name := name, value := value } r = .ok s) :
    Reads actions (optionalLine name value) r s :=
  reads_optionalLine (isLine_plain isName single isValue) empty fun _ => processed

/-- A request header whose text says all about it: strings that are values, a target
without the characters that are decoded or end it, and an upgrade only where it is
announced. -/
structure RequestSendable (req : RequestHeader) : Prop where
  major : req.httpVersionMajor = 1
  minor : req.httpVersionMinor = 0 ∨ req.httpVersionMinor = 1
  method : req.method ≠ []
  token : ∀ c ∈ req.method, isToken c = true
  path : req.path ≠ []
  isPath : ∀ c ∈ req.path, IsPathChar c
  isQuery : ∀ c ∈ req.queryString, IsQueryChar c
  unchunked : req.transferEncodingChunked = false
  upgrade : req.connectionUpgrade = req.upgradeWebsocket
  upgradeOnly : req.connectionUpgrade = true → req.httpVersionMinor = 1 ∧ req.keepAlive = true
  common : Sendable (· ∉ specialNames) req.toRequestResponseHeader
  host : IsValue req.host
  origin : IsValue req.origin
  basicAuthorization : IsValue req.basicAuthorization
  secWebsocketKey : IsValue req.secWebsocketKey
  secWebsocketVersion : IsValue req.secWebsocketVersion

variable {req : RequestHeader}

private theorem reads_authorization (ok : IsValue req.basicAuthorization) (r : RequestHeader)
    (fresh : r.basicAuthorization = []) :
    Reads actions (if req.basicAuthorization.isEmpty then []
      else line (str "authorization") (str "basic " ++ req.basicAuthorization)) r
      { r with basicAuthorization := req.basicAuthorization } := by
  by_cases none : req.basicAuthorization = []
  · have same : { r with basicAuthorization := req.basicAuthorization } = r := by rw [none, ← fresh]
    rw [same, none]
    exact reads_nil r
  · have some_ : req.basicAuthorization.isEmpty = false := by simpa using none
    simp only [some_, Bool.false_eq_true, ↓reduceIte]
    refine reads_line (isLine_plain (by decide) (by decide) ?_) ?_
    · obtain ⟨front, last, split⟩ := List.eq_nil_or_concat req.basicAuthorization |>.resolve_left none
      refine ⟨fun c member => ?_, by simp [str], ?_⟩
      · rcases List.mem_append.mp member with basic | token
        · have all : ∀ c ∈ str "basic ", isCtl c = false := List.all_iff_forall_prop.mp (by decide)
          exact all c basic
        · exact ok.plain c token
      · have stop := ok.last
        rw [split] at stop ⊢
        simpa [← List.append_assoc] using stop
    · have processed :
          processReadyHeader
            { name := str "authorization", value := str "basic " ++ req.basicAuthorization } r =
          .ok { r with basicAuthorization :=
            (parseAuthorizationBasic
              (str "basic " ++ req.basicAuthorization)).getD r.basicAuthorization } := rfl
      rw [parseAuthorizationBasic_text none ok] at processed
      exact processed

/-- The lines of a request, from the empty message with its first line on. -/
private theorem reads_request (ok : RequestSendable req) :
    Reads actions (optionalLine (str "host") req.host ++ optionalLine (str "origin") req.origin ++
      (if req.basicAuthorization.isEmpty then [] else
        line (str "authorization") (str "basic " ++ req.basicAuthorization)) ++
      req.toStringCommon ++ optionalLine (str "sec-websocket-key") req.secWebsocketKey ++
      optionalLine (str "sec-websocket-version") req.secWebsocketVersion)
      { toRequestResponseHeader := atStart req.httpVersionMajor req.httpVersionMinor
        method := req.method, path := req.path, queryString := req.queryString } req := by
  have same := announced_eq ok.major ok.minor ok.upgrade ok.upgradeOnly
  have host : Reads actions (optionalLine (str "host") req.host)
      { toRequestResponseHeader := atStart req.httpVersionMajor req.httpVersionMinor
        method := req.method, path := req.path, queryString := req.queryString }
      { toRequestResponseHeader := atStart req.httpVersionMajor req.httpVersionMinor
        method := req.method, path := req.path, queryString := req.queryString, host := req.host } :=
    reads_field (by decide) (by decide) ok.host (fun none => by rw [none]) rfl
  have origin : Reads actions (optionalLine (str "origin") req.origin)
      { toRequestResponseHeader := atStart req.httpVersionMajor req.httpVersionMinor
        method := req.method, path := req.path, queryString := req.queryString, host := req.host }
      { toRequestResponseHeader := atStart req.httpVersionMajor req.httpVersionMinor
        method := req.method, path := req.path, queryString := req.queryString, host := req.host
        origin := req.origin } :=
    reads_field (by decide) (by decide) ok.origin (fun none => by rw [none]) rfl
  have authorization := reads_authorization ok.basicAuthorization
    { toRequestResponseHeader := atStart req.httpVersionMajor req.httpVersionMinor
      method := req.method, path := req.path, queryString := req.queryString, host := req.host
      origin := req.origin } rfl
  have common := reads_common requestCommon ok.common
    { toRequestResponseHeader := atStart req.httpVersionMajor req.httpVersionMinor
      method := req.method, path := req.path
      queryString := req.queryString, host := req.host, origin := req.origin
      basicAuthorization := req.basicAuthorization }
  rw [same] at common
  have key : Reads actions (optionalLine (str "sec-websocket-key") req.secWebsocketKey)
      { toRequestResponseHeader := req.toRequestResponseHeader
        method := req.method, path := req.path
        queryString := req.queryString, host := req.host, origin := req.origin
        basicAuthorization := req.basicAuthorization }
      { toRequestResponseHeader := req.toRequestResponseHeader
        method := req.method, path := req.path
        queryString := req.queryString, host := req.host, origin := req.origin
        basicAuthorization := req.basicAuthorization, secWebsocketKey := req.secWebsocketKey } :=
    reads_field (by decide) (by decide) ok.secWebsocketKey (fun none => by rw [none]) rfl
  have version : Reads actions (optionalLine (str "sec-websocket-version") req.secWebsocketVersion)
      { toRequestResponseHeader := req.toRequestResponseHeader
        method := req.method, path := req.path
        queryString := req.queryString, host := req.host, origin := req.origin
        basicAuthorization := req.basicAuthorization, secWebsocketKey := req.secWebsocketKey } req :=
    reads_field (by decide) (by decide) ok.secWebsocketVersion (fun none => by rw [← none]) rfl
  exact ((((host.trans origin).trans authorization).trans common).trans key).trans version

/-- The text of a request header is accepted to its last byte and gives back the
header. -/
theorem parse_toString (ok : RequestSendable req)
    (fits : req.toString.length ≤ ({} : RequestParser).maxTotalLength) :
    ∃ p, RequestParser.parse {} req.toString = .ok (p, []) ∧ p.isGood = true ∧ p.req = req := by
  let start : RequestHeader :=
    { httpVersionMajor := 1, httpVersionMinor := req.httpVersionMinor
      method := req.method, path := req.path, queryString := req.queryString }
  have at_ : AtLine actions { req := start }
      { toRequestResponseHeader := atStart req.httpVersionMajor req.httpVersionMinor
        method := req.method, path := req.path, queryString := req.queryString } := by
    rw [ok.major]
    exact .first rfl rfl
  obtain ⟨q, at_', scanned⟩ := reads_request ok _ at_
  have lines := (scanned (crlf ++ [])).trans (scan_end at_' [])
  have plainly : scan plain {} req.toString =
      .ok ({ state := .headerLines, lines := { q with state := .good, header := {}, req := req } },
        []) := by
    have first := scan_requestLine ok.method ok.token ok.path ok.isPath ok.isQuery ok.major ok.minor
    have behind := reader.scan_ok (s := { state := .headerLines, lines := { req := start } }) rfl lines
    rw [List.append_nil] at behind
    simp only [RequestHeader.toString, List.append_assoc] at first behind ⊢
    rw [first]
    exact behind
  obtain ⟨n, parsed⟩ := limited.scan_ok (by simpa [limited] using fits) plainly
  exact ⟨_, parsed, rfl, rfl⟩

/-- The text of a request header is accepted, to its last byte and no earlier, and
gives back the header. -/
theorem request_header_round_trip (req : RequestHeader) (ok : RequestSendable req)
    (fits : req.toString.length ≤ ({} : RequestParser).maxTotalLength) :
    (∃ p, RequestParser.parse {} req.toString = .ok (p, []) ∧ p.isGood = true ∧ p.req = req) ∧
      ∀ front back, req.toString = front ++ back → back ≠ [] →
        ∃ q, RequestParser.parse {} front = .ok (q, []) ∧ q.isGood = false := by
  have whole := parse_toString ok fits
  refine ⟨whole, fun front back split more => ?_⟩
  obtain ⟨p, parsed, -, -⟩ := whole
  rw [split] at parsed
  obtain ⟨q, prefix_, waiting, -⟩ := scan_part parsed more
  exact ⟨q, prefix_, waiting⟩

/-- An upgrade request with a query, a content type, an encoding and a header of its
own. -/
private def upgradeRequest : RequestHeader :=
  { method := str "GET", path := str "/chat", queryString := str "room=1", host := str "example",
    connectionUpgrade := true
    upgradeWebsocket := true, secWebsocketKey := str "x3JJHMbDL1EzLkh9GBhXDw=="
    secWebsocketVersion := str "13"
    basicAuthorization := str "dTpw", contentTypeMime := str "text/plain"
    contentTypeSuffix := str "charset=utf-8"
    transferEncodings := [str "gzip", str "deflate"]
    headers := [{ name := str "x-id", value := str "a b" }] }

theorem request_header_round_trip_upgrade :
    RequestSendable upgradeRequest ∧ ∃ p, RequestParser.parse {} upgradeRequest.toString =
      .ok (p, []) ∧ p.req = upgradeRequest := by
  have ok : RequestSendable upgradeRequest :=
    { major := rfl, minor := .inr rfl, method := by decide +kernel, token := by decide +kernel,
      path := by decide +kernel, isPath := by decide +kernel
      isQuery := by decide +kernel, unchunked := rfl, upgrade := rfl, upgradeOnly := fun _ => ⟨rfl, rfl⟩
      common :=
        { mime := by decide +kernel, mimeLower := by decide +kernel, mimePlain := by decide +kernel,
          suffix := by decide +kernel, noSuffix := by decide +kernel
          encodings := by decide +kernel, chunked := by decide +kernel, headers := by decide +kernel }
      host := by decide +kernel, origin := by decide +kernel, basicAuthorization := by
        decide +kernel, secWebsocketKey := by decide +kernel
      secWebsocketVersion := by decide +kernel }
  obtain ⟨⟨p, parsed, -, same⟩, -⟩ := request_header_round_trip upgradeRequest ok (by decide +kernel)
  exact ⟨ok, p, parsed, same⟩

end RequestLines

end Crablib.RequestTextProofs
