import Crablib.ResponseWriteProofs
import Crablib.VersionProofs

/-! Whether a connection persists, as the server decides it and as the response
header announces it. The reader of the header starts with what the version implies
and lets `connection` lines change it, so all other lines are only seen not to. -/
namespace Crablib.PersistenceProofs
open Http Scanner ServerConnection ServerRun SocketProofs ServerConnectionProofs ServerEndProofs
open PairingProofs ResponseWriteProofs
open HeaderProofs HeaderTextProofs NumeralProofs VersionProofs ResponseParser ResponseTextProofs

section Lines

/-- A text that ends no line. -/
def OneLine (text : Bytes) : Prop := ∀ c ∈ text, c ≠ 13 ∧ c ≠ 10

instance (text : Bytes) : Decidable (OneLine text) :=
  inferInstanceAs (Decidable (∀ c ∈ text, c ≠ 13 ∧ c ≠ 10))

theorem OneLine.append {first second : Bytes} (front : OneLine first) (back : OneLine second) :
    OneLine (first ++ second) := by
  intro c member
  rcases List.mem_append.mp member with here | there
  · exact front c here
  · exact back c there

theorem oneLine_of_plain {text : Bytes} (plain : ∀ c ∈ text, isCtl c = false) : OneLine text := by
  intro c member
  have isPlain := plain c member
  refine ⟨?_, ?_⟩ <;> rintro rfl <;> exact absurd isPlain (by decide)

/-- Only a `connection` header says something about persistence. -/
private theorem process_keeps {header : Header} (other : header.name ≠ str "connection")
    {r s : ResponseHeader} (processed : actions.processReadyHeader header r = .ok s) :
    s.keepAlive = r.keepAlive := by
  simp only [actions, processReadyHeader] at processed
  split at processed
  · rename_i common found
    cases processed
    exact (processCommonHeader_keeps found).2.2 other
  · cases processed
  · repeat' split at processed
    all_goals
      cases processed
      rfl

private theorem ready_keeps {p : HeaderLines ResponseHeader}
    (other : p.header.name ≠ str "connection") {s : ResponseHeader}
    (ready : readyHeader actions p = .ok s) : s.keepAlive = p.req.keepAlive := by
  simp only [readyHeader] at ready
  split at ready
  · cases ready
    rfl
  · have other' : ({ p.header with value := trimRight p.header.value } : Header).name ≠
      str "connection" := other
    exact process_keeps other' ready

/-- The parser is at the start of a line. If the last line is accepted, `keep`
is what is said about persistence so far. -/
inductive Between (keep : Bool) : HeaderLines ResponseHeader → Prop where
  | at_ {p : HeaderLines ResponseHeader} {r : ResponseHeader} (line : AtLine actions p r)
      (same : r.keepAlive = keep) : Between keep p
  | broken {p : HeaderLines ResponseHeader} {e : Error} (state : p.state = .headerLineStart)
      (refused : readyHeader actions p = .error e) : Between keep p

/-- A text of whole lines that is refused, or takes what is said about persistence
from `before` to `behind`. -/
def Carries (text : Bytes) (before behind : Bool) : Prop :=
  ∀ p, Between before p → ∀ rest, (∃ e, scan (lineMachine actions) p (text ++ rest) = .error e) ∨
    ∃ q, Between behind q ∧ scan (lineMachine actions) p (text ++ rest) =
      scan (lineMachine actions) q rest

private theorem carries_nil (keep : Bool) : Carries [] keep keep :=
  fun p between _ => .inr ⟨p, between, rfl⟩

private theorem Carries.trans {first second : Bytes} {a b c : Bool} (front : Carries first a b)
    (back : Carries second b c) :
    Carries (first ++ second) a c := by
  intro p between rest
  rw [List.append_assoc]
  rcases front p between (second ++ rest) with failed | ⟨q, between', same⟩
  · exact .inl failed
  · rw [same]
    exact back q between' rest

/-- A line that does not continue the last one shows whether that was accepted. -/
private theorem Between.starts {keep : Bool} {p : HeaderLines ResponseHeader}
    (between : Between keep p) {c : UInt8} (other : isSp c = false) (rest : Bytes) :
    (∃ e, scan (lineMachine actions) p (c :: rest) = .error e) ∨ ∃ r, AtLine actions p r ∧
      r.keepAlive = keep := by
  cases between with
  | at_ line same => exact .inr ⟨_, line, same⟩
  | broken state refused =>
    rename_i e
    have failed : (lineMachine actions).consume p c = .error e := by
      simp only [lineMachine, consumeLine, state, other, refused, Bool.false_eq_true, ↓reduceIte]
    exact .inl ⟨e, scan_fail (by simp [lineMachine, state]) failed rest⟩

/-- The parser is inside a value. -/
private structure Inside (name : Bytes) (keep : Bool) (p : HeaderLines ResponseHeader) : Prop where
  state : p.state = .headerValue ∨ p.state = .spaceBeforeHeaderValue
  name : p.header.name = name
  keep : p.req.keepAlive = keep

private theorem headerValue_inside {name : Bytes} {keep : Bool} (other : name ≠ str "connection")
    {p : HeaderLines ResponseHeader} (inside : Inside name keep p) {c : UInt8}
    (cr : c ≠ 13) (lf : c ≠ 10) :
    (∃ e, headerValue actions p c = .error e) ∨ ∃ q, Inside name keep q ∧
      headerValue actions p c = .ok q := by
  simp only [headerValue, cr, lf, ↓reduceIte]
  split
  · exact .inl ⟨_, rfl⟩
  · split
    · cases ready : readyHeader actions p with
      | error e => exact .inl ⟨e, rfl⟩
      | ok req =>
        have same := ready_keeps (by rw [inside.name]; exact other) ready
        refine .inr ⟨_, ?_, rfl⟩
        exact ⟨.inr rfl, inside.name, same.trans inside.keep⟩
    · refine .inr ⟨_, ?_, rfl⟩
      exact ⟨.inl rfl, inside.name, inside.keep⟩

private theorem consume_inside {name : Bytes} {keep : Bool} (other : name ≠ str "connection")
    {p : HeaderLines ResponseHeader} (inside : Inside name keep p) {c : UInt8}
    (cr : c ≠ 13) (lf : c ≠ 10) :
    (∃ e, consumeLine actions p c = .error e) ∨ ∃ q, Inside name keep q ∧
      consumeLine actions p c = .ok q := by
  have value := headerValue_inside other inside cr lf
  rcases inside.state with state | state
  · simpa only [consumeLine, state] using value
  · simp only [consumeLine, state]
    split
    · exact .inr ⟨p, inside, rfl⟩
    · exact value

private theorem scan_inside {name : Bytes} {keep : Bool} (other : name ≠ str "connection")
    {value : Bytes} (oneLine : OneLine value) {p : HeaderLines ResponseHeader}
    (inside : Inside name keep p) (rest : Bytes) :
    (∃ e, scan (lineMachine actions) p (value ++ rest) = .error e) ∨
      ∃ q, Inside name keep q ∧ scan (lineMachine actions) p (value ++ rest) =
        scan (lineMachine actions) q rest := by
  induction value generalizing p with
  | nil => exact .inr ⟨p, inside, rfl⟩
  | cons c value ih =>
    obtain ⟨cr, lf⟩ := oneLine c List.mem_cons_self
    have running : (lineMachine actions).good p = false := by
      rcases inside.state with state | state <;> simp [lineMachine, state]
    rw [List.cons_append]
    rcases consume_inside other inside cr lf with ⟨e, failed⟩ | ⟨q, inside', consumed⟩
    · exact .inl ⟨e, scan_fail running failed _⟩
    · rw [scan_step running consumed]
      exact ih (fun d member => oneLine d (List.mem_cons_of_mem _ member)) inside'

/-- A line with another name says nothing about persistence. -/
theorem carries_line (keep : Bool) {name value : Bytes} (some_ : name ≠ [])
    (token : ∀ c ∈ name, isToken c = true) (other : toLower name ≠ str "connection")
    (oneLine : OneLine value) : Carries (line name value) keep keep := by
  intro p between rest
  have text : line name value ++ rest = name ++ (str ": " ++ (value ++ (crlf ++ rest))) := by simp [line]
  obtain ⟨c, more, split⟩ := List.exists_cons_of_ne_nil some_
  have sp : isSp c = false := (token_facts (token c (by rw [split]; exact List.mem_cons_self))).1
  rw [text]
  rcases between.starts sp (more ++ (str ": " ++ (value ++ (crlf ++ rest)))) with failed | ⟨r, at_, same⟩
  · rw [← List.cons_append, ← split] at failed
    exact .inl failed
  · rw [scan_start at_ some_ token]
    rcases scan_inside other oneLine (p := { p with
      state := .spaceBeforeHeaderValue
      header := { name := toLower name }
      headerCmsList := isCmsList (toLower name)
      req := r }) ⟨.inr rfl, rfl, same⟩ (crlf ++ rest) with failed | ⟨q, inside, scanned⟩
    · exact .inl failed
    · rw [scanned, scan_crlf inside.state]
      refine .inr ⟨_, ?_, rfl⟩
      cases ready : readyHeader actions { q with state := .headerLineStart } with
      | error e => exact .broken rfl ready
      | ok s =>
        have kept : s.keepAlive = q.req.keepAlive := ready_keeps (by rw [inside.name]; exact other) ready
        exact .at_ (.next rfl ready) (kept.trans inside.keep)

/-- A `connection` line that is accepted whatever comes before it. -/
private theorem carries_connection {value : Bytes} (isLine : IsLine (str "connection") value)
    {before behind : Bool} (processed : ∀ r : ResponseHeader, r.keepAlive = before →
      ∃ s, actions.processReadyHeader { name := str "connection", value := value } r = .ok s ∧
      s.keepAlive = behind) :
    Carries (line (str "connection") value) before behind := by
  intro p between rest
  have first :
      line (str "connection") value ++ rest =
      ch 'c' :: ((line (str "connection") value).drop 1 ++ rest) := rfl
  rcases between.starts (by decide : isSp (ch 'c') = false)
    ((line (str "connection") value).drop 1 ++ rest) with failed | ⟨r, at_, same⟩
  · rw [first]
    exact .inl failed
  · obtain ⟨s, done, kept⟩ := processed r same
    obtain ⟨q, at_', scanned⟩ := reads_line isLine done p at_
    exact .inr ⟨q, .at_ at_' kept, scanned rest⟩

private theorem carries_end {keep : Bool} {p q : HeaderLines ResponseHeader}
    (between : Between keep p) {body rest : Bytes}
    (scanned : scan (lineMachine actions) p (crlf ++ body) = .ok (q, rest)) :
    q.req.keepAlive = keep := by
  rcases between.starts isSp_cr (10 :: body) with ⟨e, failed⟩ | ⟨r, at_, same⟩
  · have text : crlf ++ body = 13 :: 10 :: body := rfl
    rw [text, failed] at scanned
    cases scanned
  · rw [scan_end at_] at scanned
    cases scanned
    exact same

end Lines

section Header

/-- A response header that is one: no string ends its line, and header names are
tokens. No header in the list is named `connection`. -/
structure Clean (resp : ResponseHeader) : Prop where
  statusText : OneLine resp.statusText
  date : OneLine resp.date
  secWebsocketAccept : OneLine resp.secWebsocketAccept
  mime : OneLine resp.contentTypeMime
  suffix : OneLine resp.contentTypeSuffix
  encodings : ∀ e ∈ resp.transferEncodings, OneLine e
  headers : ∀ h ∈ resp.headers, h.name ≠ [] ∧ (∀ c ∈ h.name, isToken c = true) ∧
    toLower h.name ≠ str "connection" ∧ OneLine h.value

variable {resp : ResponseHeader}

private theorem carries_optionalLine (keep : Bool) {name value : Bytes} (some_ : name ≠ [])
    (token : ∀ c ∈ name, isToken c = true) (other : toLower name ≠ str "connection")
    (oneLine : OneLine value) : Carries (optionalLine name value) keep keep := by
  unfold optionalLine
  split
  · exact carries_nil keep
  · exact carries_line keep some_ token other oneLine

private theorem carries_contentType (keep : Bool) (clean : Clean resp) :
    Carries resp.contentTypeLine keep keep := by
  unfold RequestResponseHeader.contentTypeLine
  split
  · exact carries_nil keep
  · have text : str "content-type: " ++ resp.contentTypeMime ++
        (if resp.contentTypeSuffix.isEmpty then [] else str "; " ++ resp.contentTypeSuffix) ++ crlf =
        line (str "content-type") (resp.contentTypeMime ++
          if resp.contentTypeSuffix.isEmpty then [] else str "; " ++ resp.contentTypeSuffix) := by
      have name : str "content-type: " = str "content-type" ++ str ": " := by decide
      simp [line, name]
    rw [text]
    refine carries_line keep (by decide) (List.all_iff_forall_prop.mp (by decide)) (by decide)
      (clean.mime.append ?_)
    split
    · exact fun _ member => absurd member List.not_mem_nil
    · have separator : OneLine (str "; ") := List.all_iff_forall_prop.mp (by decide)
      exact separator.append clean.suffix

private theorem carries_contentLength (keep : Bool) (resp : ResponseHeader) :
    Carries resp.contentLengthLine keep keep := by
  unfold RequestResponseHeader.contentLengthLine
  split
  · refine carries_line keep (by decide) (List.all_iff_forall_prop.mp (by decide)) (by decide)
      (oneLine_of_plain fun c member => ?_)
    exact (decimal_plain _ c member).1
  · exact carries_nil keep

/-- The connection lines say what is announced, whatever the version. -/
private theorem carries_connectionLines (resp : ResponseHeader) :
    Carries resp.connectionLines (persists resp.httpVersionMajor resp.httpVersionMinor)
      (announced resp.toRequestResponseHeader).keepAlive := by
  unfold RequestResponseHeader.connectionLines
  by_cases keep : resp.httpVersionMajor = 1 ∧ resp.httpVersionMinor = 0 ∧ resp.keepAlive
  · have after : (announced resp.toRequestResponseHeader).keepAlive = true := by simp [announced, keep]
    rw [if_pos keep, after]
    exact carries_connection (by decide) fun r _ => ⟨_, rfl, rfl⟩
  · rw [if_neg keep]
    by_cases close : resp.httpVersionMajor = 1 ∧ resp.httpVersionMinor = 1 ∧ ¬resp.keepAlive
    · have after : (announced resp.toRequestResponseHeader).keepAlive = false := by
        simp [announced, close]
      rw [if_pos close, after]
      exact carries_connection (by decide) fun r _ => ⟨_, rfl, rfl⟩
    · rw [if_neg close]
      have after :
          (announced resp.toRequestResponseHeader).keepAlive =
          persists resp.httpVersionMajor resp.httpVersionMinor := by
        simp only [announced, if_neg keep, if_neg close]
        split <;> rfl
      rw [after]
      split
      · have upgrade :
            Carries (line (str "connection") (str "upgrade"))
            (persists resp.httpVersionMajor resp.httpVersionMinor) _ :=
          carries_connection (by decide) fun r same => ⟨_, rfl, same⟩
        have named : ∀ c ∈ str "upgrade", isToken c = true := List.all_iff_forall_prop.mp (by decide)
        exact upgrade.trans (carries_line _ (by decide) named (by decide)
          (List.all_iff_forall_prop.mp (by decide)))
      · exact carries_nil _

private theorem oneLine_intercalate {parts : List Bytes} (ok : ∀ e ∈ parts, OneLine e) :
    OneLine ((str ", ").intercalate parts) := by
  have separator : OneLine (str ", ") := List.all_iff_forall_prop.mp (by decide)
  induction parts with
  | nil => exact fun _ member => absurd member List.not_mem_nil
  | cons first more ih =>
    cases more with
    | nil =>
      rw [List.intercalate_singleton]
      exact ok first List.mem_cons_self
    | cons second more =>
      have text :
          (str ", ").intercalate (first :: second :: more) =
          first ++ (str ", " ++ (str ", ").intercalate (second :: more)) := by
        simp [List.intercalate]
      rw [text]
      exact (ok first List.mem_cons_self).append
        (separator.append (ih fun e member => ok e (List.mem_cons_of_mem _ member)))

private theorem carries_transferEncoding (keep : Bool) (clean : Clean resp) :
    Carries resp.transferEncodingLine keep keep := by
  have chunked : OneLine (str "chunked") := List.all_iff_forall_prop.mp (by decide)
  have all :
      ∀ e ∈ resp.transferEncodings ++
        (if resp.transferEncodingChunked then [str "chunked"] else []), OneLine e := by
    intro e member
    rcases List.mem_append.mp member with given | last
    · exact clean.encodings e given
    · split at last
      · rw [List.mem_singleton.mp last]
        exact chunked
      · cases last
  have name : str "transfer-encoding:" ++ str " " = str "transfer-encoding" ++ str ": " := by decide
  simp only [RequestResponseHeader.transferEncodingLine]
  generalize resp.transferEncodings ++ (if resp.transferEncodingChunked then [str "chunked"]
    else []) = parts at all
  split
  · exact carries_nil keep
  · rw [name]
    have encoding : Carries (line (str "transfer-encoding") ((str ", ").intercalate parts)) keep keep :=
      carries_line keep (by decide) (List.all_iff_forall_prop.mp (by decide)) (by decide)
        (oneLine_intercalate all)
    exact encoding

private theorem carries_headers (keep : Bool) {headers : List Header}
    (ok : ∀ h ∈ headers, h.name ≠ [] ∧ (∀ c ∈ h.name, isToken c = true) ∧
      toLower h.name ≠ str "connection" ∧ OneLine h.value) :
    Carries (headers.flatMap fun h => line h.name h.value) keep keep := by
  induction headers with
  | nil => exact carries_nil keep
  | cons h headers ih =>
    obtain ⟨some_, token, other, oneLine⟩ := ok h List.mem_cons_self
    rw [List.flatMap_cons]
    exact (carries_line keep some_ token other oneLine).trans (ih fun g member =>
      ok g (List.mem_cons_of_mem _ member))

/-- All lines behind the first one. -/
private theorem carries_lines (clean : Clean resp) :
    Carries (optionalLine (str "date") resp.date ++ resp.toStringCommon ++
      optionalLine (str "sec-websocket-accept") resp.secWebsocketAccept)
      (persists resp.httpVersionMajor resp.httpVersionMinor)
      (announced resp.toRequestResponseHeader).keepAlive := by
  have date :
      Carries (optionalLine (str "date") resp.date)
      (persists resp.httpVersionMajor resp.httpVersionMinor) _ :=
    carries_optionalLine _ (by decide) (List.all_iff_forall_prop.mp (by decide)) (by decide) clean.date
  have common := ((((carries_contentType _ clean).trans (carries_contentLength _ resp)).trans
    (carries_connectionLines resp)).trans
    (carries_transferEncoding _ clean)).trans (carries_headers _ clean.headers)
  have accept : Carries (optionalLine (str "sec-websocket-accept") resp.secWebsocketAccept) _ _ :=
    carries_optionalLine (announced resp.toRequestResponseHeader).keepAlive (by decide)
      (List.all_iff_forall_prop.mp (by decide)) (by decide) clean.secWebsocketAccept
  exact (date.trans common).trans accept

/-- The parser is in the first line, behind the version. -/
private structure InStatus (keep : Bool) (p : ResponseParser) : Prop where
  state : p.state = .statusCode1 ∨ p.state = .statusCode2 ∨ p.state = .statusCode3 ∨
    p.state = .statusCodeSpace ∨ p.state = .statusTextStart ∨ p.state = .statusText
  start : p.lines.state = .firstHeaderLineStart
  fresh : p.lines.header = {}
  keep : p.req.keepAlive = keep

private theorem InStatus.running {keep : Bool} {p : ResponseParser} (inStatus : InStatus keep p) :
    plain.good p = false := by
  rcases inStatus.state with state | state | state | state | state | state <;>
    simp [plain, isGood, state]

private theorem advance_inStatus {keep : Bool} {p : ResponseParser} (inStatus : InStatus keep p)
    {c : UInt8} (cr : c ≠ 13) (lf : c ≠ 10) :
    (∃ e, p.advance c = .error e) ∨ ∃ q, InStatus keep q ∧ p.advance c = .ok q := by
  have digit : ∀ next message, (next = .statusCode2 ∨ next = .statusCode3 ∨ next = .statusCodeSpace) →
      (∃ e, p.statusDigit c next message = .error e) ∨ ∃ q, InStatus keep q ∧
      p.statusDigit c next message = .ok q := by
    intro next message known
    unfold statusDigit
    split
    · exact .inl ⟨_, rfl⟩
    · refine .inr ⟨_, ?_, rfl⟩
      refine ⟨?_, inStatus.start, inStatus.fresh, inStatus.keep⟩
      rcases known with rfl | rfl | rfl <;> simp [goTo]
  have text : (∃ e, p.statusText c = .error e) ∨ ∃ q, InStatus keep q ∧ p.statusText c = .ok q := by
    simp only [ResponseParser.statusText, cr, lf, ↓reduceIte]
    split
    · exact .inl ⟨_, rfl⟩
    · refine .inr ⟨_, ?_, rfl⟩
      exact ⟨by simp [goTo], inStatus.start, inStatus.fresh, inStatus.keep⟩
  rcases inStatus.state with state | state | state | state | state | state <;> simp only [advance, state]
  · split
    · exact .inr ⟨p, inStatus, rfl⟩
    · exact digit _ _ (by simp)
  · exact digit _ _ (by simp)
  · exact digit _ _ (by simp)
  · simp only [cr, lf, ↓reduceIte]
    split
    · exact .inl ⟨_, rfl⟩
    · refine .inr ⟨_, ?_, rfl⟩
      exact ⟨by simp [goTo], inStatus.start, inStatus.fresh, inStatus.keep⟩
  · split
    · exact .inr ⟨p, inStatus, rfl⟩
    · exact text
  · exact text

/-- The end of the first line. -/
private theorem scan_statusEnd {keep : Bool} {p : ResponseParser}
    (inStatus : InStatus keep p) (rest : Bytes) :
    (∃ e, scan plain p (crlf ++ rest) = .error e) ∨
      scan plain p (crlf ++ rest) = scan plain (p.goTo .headerLines) rest := by
  have ends : p.advance 13 = .ok (p.goTo .statusLineLf) →
      scan plain p (crlf ++ rest) = scan plain (p.goTo .headerLines) rest := by
    intro first
    exact (scan_step inStatus.running first _).trans
      (scan_step (by simp [plain, isGood, goTo]) (by simp [plain, advance, goTo]) rest)
  have fails : ∀ e, p.advance 13 = .error e → ∃ e, scan plain p (crlf ++ rest) = .error e :=
    fun e failed => ⟨e, scan_fail inStatus.running failed _⟩
  have digit : isDigit 13 = false := by decide
  rcases inStatus.state with state | state | state | state | state | state
  · exact .inl (fails _ (by simp only [advance, state, isSp_cr, statusDigit, digit]; rfl))
  · exact .inl (fails _ (by simp only [advance, state, statusDigit, digit]; rfl))
  · exact .inl (fails _ (by simp only [advance, state, statusDigit, digit]; rfl))
  · exact .inr (ends (by simp [advance, state]))
  · exact .inr (ends (by simp [advance, state, ResponseParser.statusText]))
  · exact .inr (ends (by simp [advance, state, ResponseParser.statusText]))

private theorem scan_statusRest {keep : Bool} {text : Bytes} (oneLine : OneLine text)
    {p : ResponseParser} (inStatus : InStatus keep p) (rest : Bytes) :
    (∃ e, scan plain p (text ++ (crlf ++ rest)) = .error e) ∨
      ∃ q, q.state = .headerLines ∧ Between keep q.lines ∧ scan plain p (text ++ (crlf ++ rest)) =
        scan plain q rest := by
  induction text generalizing p with
  | nil =>
    rcases scan_statusEnd inStatus rest with failed | same
    · exact .inl failed
    · exact .inr ⟨p.goTo .headerLines, rfl,
        .at_ (.first inStatus.start inStatus.fresh) inStatus.keep, same⟩
  | cons c text ih =>
    obtain ⟨cr, lf⟩ := oneLine c List.mem_cons_self
    rw [List.cons_append]
    rcases advance_inStatus inStatus cr lf with ⟨e, failed⟩ | ⟨q, inStatus', consumed⟩
    · exact .inl ⟨e, scan_fail inStatus.running failed _⟩
    · rw [scan_step inStatus.running consumed]
      exact ih (fun d member => oneLine d (List.mem_cons_of_mem _ member)) inStatus'

private theorem oneLine_decimalInt (n : Int) : OneLine (decimalInt n) := by
  have digits : ∀ n : Nat, OneLine (decimal n) :=
    fun n => oneLine_of_plain fun c member => (decimal_plain n c member).1
  unfold decimalInt
  split
  · have minus : OneLine [ch '-'] := List.all_iff_forall_prop.mp (by decide)
    exact minus.append (digits _)
  · exact digits _

/-- Whatever a parser accepts as the header of these bytes, it reads from it what
the header announces about persistence. -/
theorem keepAlive_announced (isVersion : IsVersion resp.httpVersionMajor resp.httpVersionMinor)
    (clean : Clean resp) {body rest : Bytes} {p : ResponseParser}
    (parsed : ResponseParser.parse {} (resp.toString ++ body) = .ok (p, rest)) :
    p.req.keepAlive = (announced resp.toRequestResponseHeader).keepAlive := by
  have unlimited :
      scan plain {} (resp.toString ++ body) = .ok ({ p with totalLength := 0 }, rest) :=
    limited.scan_within parsed 0
  have status : OneLine (decimalInt resp.status ++ (str " " ++ textOf resp)) := by
    have blank : OneLine (str " ") := List.all_iff_forall_prop.mp (by decide)
    refine (oneLine_decimalInt resp.status).append (blank.append ?_)
    unfold textOf
    split
    · exact oneLine_of_plain (statusToString_value resp.status).2.plain
    · exact clean.statusText
  have text : resp.toString ++ body = version resp.toRequestResponseHeader ++ (str " " ++
      (decimalInt resp.status ++ (str " " ++ textOf resp) ++ (crlf ++
        ((optionalLine (str "date") resp.date ++ resp.toStringCommon ++
          optionalLine (str "sec-websocket-accept") resp.secWebsocketAccept) ++ (crlf ++ body))))) := by
    simp only [ResponseHeader.toString, textOf, List.append_assoc]
  rw [text, scan_version isVersion] at unlimited
  rcases scan_statusRest status
    (p := { state := .statusCode1, lines := { req := { ({} : ResponseHeader) with
      toRequestResponseHeader :=
        atStart resp.httpVersionMajor resp.httpVersionMinor } } }) ⟨.inl rfl, rfl, rfl, rfl⟩ _ with
    ⟨e, failed⟩ | ⟨q, state, between, same⟩
  · rw [failed] at unlimited
    cases unlimited
  · rw [same] at unlimited
    have lines : scan (lineMachine actions) q.lines _ = .ok (p.lines, rest) :=
      (reader.of_scan state unlimited).2
    rcases carries_lines clean q.lines between (crlf ++ body) with ⟨e, failed⟩ | ⟨last, between', same'⟩
    · rw [failed] at lines
      cases lines
    · rw [same'] at lines
      exact carries_end between' lines

end Header

section Replies

variable {base : Bytes} {req : RequestHeader} {c d : ServerConnection}

/-- A response is under way whose header ends the stream `base`. -/
structure Replying (base : Bytes) (req : RequestHeader) (c : ServerConnection) : Prop where
  opened : c.isOpen = true
  state : c.state = .responseBody
  plain : c.writingWebMessageBody = false
  unasked : c.sock.writeShutdownAsked = false
  same : c.requestParser.req = req
  stream : base <+: stream c.sock

/-- The response is complete: the shutdown was asked for as the request wanted it. -/
structure Answered (base : Bytes) (req : RequestHeader) (c : ServerConnection) : Prop where
  state : c.state = .requestHeader
  plain : c.writingWebMessageBody = false
  asked : c.sock.writeShutdownAsked = !req.keepAlive
  stream : base <+: stream c.sock

/-- Where a connection can be once the header was written. -/
inductive Stands (base : Bytes) (req : RequestHeader) (c : ServerConnection) : Prop where
  | closed (closed : c.isOpen = false) (state : c.state = .requestHeader)
      (plain : c.writingWebMessageBody = false)
  | replying (replying : Replying base req c)
  | answered (answered : Answered base req c)

private theorem stands_close (c : ServerConnection) : Stands base req c.close :=
  .closed (close_isOpen_false c.sock.sock) rfl rfl

/-- A write that only adds to the stream. -/
private theorem Replying.sent (replying : Replying base req c) {bytes : Bytes}
    (extends_ : Extends c.sock d.sock bytes) (state : d.state = c.state)
    (plain : d.writingWebMessageBody = c.writingWebMessageBody)
    (parser : d.requestParser = c.requestParser) : Replying base req d where
  opened := extends_.isOpen.trans replying.opened
  state := state.trans replying.state
  plain := plain.trans replying.plain
  unasked := extends_.asked.trans replying.unasked
  same := by rw [parser, replying.same]
  stream := by
    rw [extends_.stream]
    exact replying.stream.trans (List.prefix_append _ _)

private theorem Replying.finish (replying : Replying base req c) :
    Answered base req c.finishResponse := by
  have plain := replying.plain
  cases keep : req.keepAlive with
  | true =>
    have keep' : c.requestParser.req.keepAlive = true := by rw [replying.same, keep]
    have finished : c.finishResponse = { c with requestParser := {}, state := .requestHeader } := by
      simp [finishResponse, keep']
    rw [finished]
    exact ⟨rfl, plain, by simp [replying.unasked, keep], replying.stream⟩
  | false =>
    have keep' : c.requestParser.req.keepAlive = false := by rw [replying.same, keep]
    have finished : c.finishResponse =
        { c with readBuffer := c.readBuffer.clear, sock := c.sock.writeShutdown,
                 requestParser := {}, state := .requestHeader } := by
      simp [finishResponse, keep']
    rw [finished]
    refine ⟨rfl, plain, by simpa [keep] using writeShutdown_of_open replying.opened, ?_⟩
    show base <+: SocketProofs.stream c.sock.writeShutdown
    rw [(writeShutdown_keeps c.sock).1]
    exact replying.stream

private theorem replying_writeBody {send : Send} {val : Bytes} {bo : BufferOptions}
    (sends : ∀ s, Extends s (send s val bo) (takes s val)) (replying : Replying base req c)
    (done : c.writeBody send val bo = .ok d) :
    Stands base req d := by
  obtain ⟨writing, -⟩ | ⟨-, -, ⟨remaining, -, -, rfl⟩ | ⟨-, rfl⟩⟩ := writeBody_ok done
  · simp [replying.plain] at writing
  · have sent : Replying base req { c with
        remainingBodyContentLength := some (remaining - val.length)
        sock := send c.sock val bo } := replying.sent (sends c.sock) rfl rfl rfl
    simp only [sendCounted]
    split
    · exact .answered sent.finish
    · exact .replying sent
  · unfold sendChunk
    split
    · exact .replying replying
    · exact .replying (replying.sent (((buffer_extends _ _).trans (buffer_extends _ _)).trans
        (write_extends _ _ bo)) rfl rfl rfl)

private theorem replying_writeLastChunk {bo : BufferOptions} (replying : Replying base req c)
    (done : c.writeLastChunk bo = .ok d) :
    Stands base req d := by
  obtain ⟨writing, -⟩ | ⟨-, -, -, rfl⟩ := writeLastChunk_ok done
  · simp [replying.plain] at writing
  · have sent : Replying base req { c with sock := c.sock.writeString (str "0\r\n\r\n") bo } :=
      replying.sent (writeString_extends c.sock _ bo) rfl rfl rfl
    exact .answered sent.finish

/-- Whatever is done while a response is under way. -/
theorem perform_replying (replying : Replying base req c) (op : ServerOp) (same : reopens op = false) :
    Stands base req (perform c op).conn := by
  have stay : Stands base req c := .replying replying
  have http : c.isStateWebsocket = false := by simp [isStateWebsocket, replying.state]
  have notHeader : c.state ≠ .responseHeader := by simp [replying.state]
  cases op with
  | accept accepted =>
    cases accepted with
    | missing => exact stands_close c
    | ready => simp [reopens] at same
    | refused => simp [reopens] at same
  | close => exact stands_close c
  | readNextRequest => simpa [perform, readNextRequest, replying.state] using stay
  | readNextMessage => simpa [perform, readNextMessage, replying.state] using stay
  | webSocketUpgrade =>
    refine settle_conn stay fun d done => ?_
    obtain ⟨-, rfl⟩ | ⟨-, header, -⟩ := webSocketUpgrade_ok done
    · exact stay
    · exact absurd header notHeader
  | writeResponse resp =>
    rw [perform, settleAfter_conn]
    obtain unchanged | ⟨withHeader, header, -⟩ := writeResponse_parts c resp
    · rwa [unchanged]
    · obtain ⟨closed, -⟩ | ⟨-, state, -⟩ := writeHeader_ok header
      · simp [replying.opened] at closed
      · exact absurd state notHeader
  | writeHeader resp bo =>
    refine settle_conn stay fun d done => ?_
    obtain ⟨-, rfl⟩ | ⟨-, state, -⟩ := writeHeader_ok done
    · exact stay
    · exact absurd state notHeader
  | writeMessage message bo =>
    refine settle_conn stay fun d done => ?_
    obtain ⟨-, rfl⟩ | ⟨-, web, -⟩ := writeMessage_ok done
    · exact stay
    · simp [http] at web
  | writeOpcode opcode =>
    refine settle_conn stay fun d done => ?_
    obtain ⟨-, rfl⟩ | ⟨-, web, -⟩ := writeOpcode_ok done
    · exact stay
    · simp [http] at web
  | writeData val bo =>
    exact settle_conn stay fun d => replying_writeBody (fun s => write_extends s val bo) replying
  | writeString ss bo =>
    exact settle_conn stay fun d => replying_writeBody (fun s => writeString_extends s ss bo) replying
  | writeLastChunk bo => exact settle_conn stay fun d => replying_writeLastChunk replying
  | arrive arrivals =>
    simp only [perform, TcpSocket.arrive]
    split
    · exact .replying ⟨replying.opened, replying.state, replying.plain, replying.unasked,
        replying.same, replying.stream⟩
    · exact stay
  | plan sends =>
    exact .replying ⟨replying.opened, replying.state, replying.plain, replying.unasked,
      replying.same, replying.stream⟩
  | notify canRead canWrite =>
    simp only [perform, TcpSocket.notify]
    split
    · have opened : (c.sock.sock.addPendingCallable canRead canWrite).isOpen = true := by
        simp [TcpSocket.isOpen, TcpSocket.addPendingCallable]
      exact .replying ⟨opened, replying.state, replying.plain, replying.unasked,
        replying.same, replying.stream⟩
    · exact stay
  | dispatch =>
    simp only [perform, dispatch]
    split
    · unfold ServerConnection.sockHandler
      split
      · exact stands_close _
      · rename_i open_
        have opened : c.socketEvent.sock.isOpen = true := by simpa [isOpen] using open_
        have writing : c.socketEvent.isWritingBody = true := by
          simp [isWritingBody, socketEvent, replying.state]
        have spec := sockHandler_keeps { c.sock with sock.pending := false } opened
        rw [if_pos writing]
        refine .replying ⟨opened, replying.state, replying.plain,
          spec.1.trans replying.unasked, replying.same, ?_⟩
        exact spec.2.symm ▸ replying.stream
    · exact stay
  | pingTimer =>
    refine settle_conn stay fun d done => ?_
    obtain rfl | ⟨pinged, rfl, rfl | sent⟩ := onWmPingTimer_ok done
    · exact stay
    · exact .replying (replying.sent (writeString_extends c.sock [] .write) rfl rfl rfl)
    · obtain ⟨closed, -⟩ | ⟨-, web, -⟩ := writeMessage_ok sent
      · exact absurd (closed.symm.trans replying.opened) (by simp)
      · exact absurd (web.symm.trans http) (by simp)
  | shutdownTimer =>
    simp only [perform, shutdownTimerHandler]
    split
    · have closed : (c.sock.shutdownTimerHandler).isOpen = false := close_isOpen_false _
      simp only [ServerConnection.sockHandler, isOpen, closed, Bool.not_false, ↓reduceIte]
      exact stands_close _
    · exact stay

/-- The header that an operation writes to a connection that owes a response. -/
def begins : ServerOp → Option ResponseHeader
  | .writeResponse resp => some resp.header
  | .writeHeader resp _ => some resp
  | _ => none

private theorem replying_sendHeader (owing : Owing c) (header : ResponseHeader) (bo : BufferOptions) :
    Replying (stream c.sock ++ (c.completeHeader header).toString) c.requestParser.req
      (c.sendHeader header bo) := by
  have unasked : c.sock.writeShutdownAsked = false :=
    owing.serving.unasked (by simp [phaseOf, owing.state])
  have sent := writeString_extends c.sock (c.completeHeader header).toString bo
  rw [takes_of_open owing.opened unasked] at sent
  refine ⟨sent.isOpen.trans owing.opened, rfl, owing.serving.plain, sent.asked.trans unasked, rfl, ?_⟩
  exact sent.stream ▸ List.prefix_rfl

/-- The first write of a response either is refused or hands over the header. -/
private theorem begins_stands (owing : Owing c) {first : ServerOp} {header : ResponseHeader}
    (begins_ : begins first = some header) :
    (perform c first).conn.state = .responseHeader ∨
      Stands (stream c.sock ++ (c.completeHeader header).toString) c.requestParser.req
        (perform c first).conn := by
  have refused : c.state = .responseHeader := owing.state
  cases first <;> simp only [begins, Option.some.injEq, reduceCtorEq] at begins_
  case writeHeader resp bo =>
    subst begins_
    refine settle_conn (P := fun d => d.state = .responseHeader ∨ Stands _ _ d)
      (.inl refused) fun d done => ?_
    obtain ⟨closed, -⟩ | ⟨-, -, -, -, rfl⟩ := writeHeader_ok done
    · simp [owing.opened] at closed
    · exact .inr (.replying (replying_sendHeader owing resp bo))
  case writeResponse resp =>
    subst begins_
    rw [perform, settleAfter_conn]
    obtain same | ⟨withHeader, written, rest⟩ := writeResponse_parts c resp
    · exact .inl (by rw [same, refused])
    · right
      obtain ⟨closed, -⟩ | ⟨-, -, -, -, rfl⟩ := writeHeader_ok written
      · simp [owing.opened] at closed
      have replying := replying_sendHeader owing resp.header .bufferOnly
      obtain same | ⟨bo, withBody, body, last⟩ := rest
      · rw [same]
        exact .replying replying
      · have stands := replying_writeBody (fun s => writeString_extends s resp.body bo) replying body
        obtain same | finished := last
        · rwa [same]
        · -- the last chunk is written only while the body is
          obtain ⟨writing, -⟩ | ⟨plain, state, -⟩ := writeLastChunk_ok finished
          · cases stands with
            | closed _ _ plain => simp [plain] at writing
            | replying replying => simp [replying.plain] at writing
            | answered answered => simp [answered.plain] at writing
          · cases stands with
            | closed _ state' => simp [state'] at state
            | replying replying => exact replying_writeLastChunk replying finished
            | answered answered => simp [answered.state] at state

/-- A run in which a connection that owes a response answers completely: the first
operation writes the header, and nothing is accepted meanwhile. -/
structure Replied (c : ServerConnection) (header : ResponseHeader) (first : ServerOp)
    (more : List ServerOp) : Prop where
  opened : c.isOpen = true
  owed : c.state = .responseHeader
  begins : begins first = some header
  inside :
      Run.Meets (fun c op => (perform c op).conn) (fun c op =>
      c.state = .responseBody ∧ reopens op = false)
    (perform c first).conn more
  isOpen : (afterOps c (first :: more)).isOpen = true
  done : (afterOps c (first :: more)).state = .requestHeader

private theorem answered_of_replied (owing : Owing c) {header : ResponseHeader} {first : ServerOp}
    {more : List ServerOp} (replied : Replied c header first more) :
    Answered (stream c.sock ++ (c.completeHeader header).toString) c.requestParser.req
      (afterOps c (first :: more)) := by
  have reached : (afterOps c (first :: more)).state = .responseHeader ∨
      Stands (stream c.sock ++ (c.completeHeader header).toString) c.requestParser.req
      (afterOps c (first :: more)) := by
    refine Run.invariant_of_meets (P := fun d => d.state = .responseHeader ∨
      Stands (stream c.sock ++ (c.completeHeader header).toString) c.requestParser.req d) ?_
      (begins_stands owing replied.begins) more replied.inside
    rintro d op stands ⟨body, same⟩
    rcases stands with state | stands
    · simp [body] at state
    · cases stands with
      | closed _ state => simp [body] at state
      | replying replying => exact .inr (perform_replying replying op same)
      | answered answered => exact absurd (body.symm.trans answered.state) (by simp)
  have done := replied.done
  rcases reached with state | stands
  · simp [done] at state
  · cases stands with
    | closed closed => exact absurd (closed.symm.trans replied.isOpen) (by simp)
    | replying replying => exact absurd (done.symm.trans replying.state) (by simp)
    | answered answered => exact answered

/-- Versions and wishes that a header announces. -/
def Announces (c : RequestResponseHeader) : Prop :=
  c.httpVersionMajor = 1 ∧ (c.httpVersionMinor = 0 ∨ c.httpVersionMinor = 1) ∨
    c.keepAlive = persists c.httpVersionMajor c.httpVersionMinor

private theorem announces_iff (c : RequestResponseHeader) :
    (announced c).keepAlive = c.keepAlive ↔ Announces c := by
  by_cases keep : c.httpVersionMajor = 1 ∧ c.httpVersionMinor = 0 ∧ c.keepAlive
  · simp [announced, Announces, keep]
  · by_cases close : c.httpVersionMajor = 1 ∧ c.httpVersionMinor = 1 ∧ ¬c.keepAlive
    · simp [announced, Announces, close]
    · have implied : c.httpVersionMajor = 1 ∧ (c.httpVersionMinor = 0 ∨ c.httpVersionMinor = 1) →
          persists c.httpVersionMajor c.httpVersionMinor = c.keepAlive := by
        rintro ⟨major, minor | minor⟩
        · simp_all [persists]
        · simp_all [persists]
      have kept : (announced c).keepAlive = persists c.httpVersionMajor c.httpVersionMinor := by
        simp only [announced, if_neg keep, if_neg close]
        split <;> rfl
      rw [kept]
      exact ⟨fun same => .inr same.symm, fun either => either.elim implied Eq.symm⟩

/-- The server asks for the shutdown behind a response exactly if the header it
emitted says so, if and only if the request was of version 1.0 or 1.1 or wanted what
its version implies. -/
theorem persistence_announced (before : List ServerOp) {header : ResponseHeader} {first : ServerOp}
    {more : List ServerOp} (replied : Replied (afterOps {} before) header first more)
    (clean : Clean header) {p : ResponseParser} {rest : Bytes}
    (parsed : ResponseParser.parse {}
      (grown (afterOps {} before) (afterOps (afterOps {} before) (first :: more))) = .ok (p, rest)) :
    ((afterOps (afterOps {} before) (first :: more)).sock.writeShutdownAsked = true ↔
      p.req.keepAlive = false) ↔
      Announces (afterOps {} before).requestParser.req.toRequestResponseHeader := by
  have owing := owing_of_run replied.opened replied.owed
  have answered := answered_of_replied owing replied
  obtain ⟨body, emitted⟩ := answered.stream
  have bytes : grown (afterOps {} before) (afterOps (afterOps {} before) (first :: more)) =
      ((afterOps {} before).completeHeader header).toString ++ body := by
    rw [grown, ← emitted, List.append_assoc, List.drop_left]
  rw [bytes] at parsed
  have isVersion : IsVersion ((afterOps {} before).completeHeader header).httpVersionMajor _ :=
    known_of_run before
  have clean' : Clean ((afterOps {} before).completeHeader header) :=
    ⟨clean.statusText, clean.date, clean.secWebsocketAccept, clean.mime, clean.suffix,
      clean.encodings, clean.headers⟩
  have announces := announces_iff ((afterOps {} before).completeHeader header).toRequestResponseHeader
  have same :
      ((afterOps {} before).completeHeader header).keepAlive =
      (afterOps {} before).requestParser.req.keepAlive := rfl
  rw [same] at announces
  rw [keepAlive_announced isVersion clean' parsed, answered.asked]
  refine Iff.trans ?_ announces
  cases (announced ((afterOps {} before).completeHeader header).toRequestResponseHeader).keepAlive <;>
    cases (afterOps {} before).requestParser.req.keepAlive <;> simp

/-- A request that asks for the end, in the given version. -/
private def asking (version : String) : List ServerOp :=
  .accept .ready :: received (str ("GET / " ++ version ++ "\r\nconnection: close\r\n\r\n")) ++
    [.readNextRequest]

private def okHeader : ResponseHeader := { status := 200, contentLength := some 2 }

private def ok : ServerOp := .writeResponse { header := okHeader, body := str "ok" }

private def answer (version : String) : ServerConnection := afterOps (afterOps {} (asking version)) [ok]

private def emitted (version : String) : Bytes := grown (afterOps {} (asking version)) (answer version)

private theorem okHeader_clean : Clean okHeader := by
  refine ⟨?_, ?_, ?_, ?_, ?_, ?_, ?_⟩ <;> decide +kernel

theorem persistence_announced_close :
    Replied (afterOps {} (asking "HTTP/1.1")) okHeader ok [] ∧ ∃ p rest,
      ResponseParser.parse {} (emitted "HTTP/1.1") = .ok (p, rest) ∧
      ((answer "HTTP/1.1").sock.writeShutdownAsked = true ↔ p.req.keepAlive = false) := by
  have replied : Replied (afterOps {} (asking "HTTP/1.1")) okHeader ok [] :=
    ⟨by decide +kernel, by decide +kernel, rfl, trivial, by decide +kernel, by decide +kernel⟩
  have accepted : (ResponseParser.parse {} (emitted "HTTP/1.1")).toOption.isSome = true := by
    decide +kernel
  have announces :
      Announces (afterOps {} (asking "HTTP/1.1")).requestParser.req.toRequestResponseHeader :=
    .inl (by decide +kernel)
  cases parsed : ResponseParser.parse {} (emitted "HTTP/1.1") with
  | error e => simp [parsed, Except.toOption] at accepted
  | ok result =>
    refine ⟨replied, result.1, result.2, rfl, ?_⟩
    exact (persistence_announced (asking "HTTP/1.1") replied okHeader_clean parsed).mpr announces

/-- In version 1.2 the shutdown comes unannounced. -/
theorem shutdown_unannounced :
    Replied (afterOps {} (asking "HTTP/1.2")) okHeader ok [] ∧ Clean okHeader ∧
      ∃ p rest, ResponseParser.parse {} (emitted "HTTP/1.2") = .ok (p, rest) ∧ p.isGood = true ∧
        ¬((answer "HTTP/1.2").sock.writeShutdownAsked = true ↔ p.req.keepAlive = false) := by
  have shut : (answer "HTTP/1.2").sock.writeShutdownAsked = true := by decide +kernel
  have read :
      (ResponseParser.parse {} (emitted "HTTP/1.2")).toOption.map
      (fun r => (r.1.isGood, r.1.req.keepAlive)) = some (true, true) := by decide +kernel
  refine ⟨⟨by decide +kernel, by decide +kernel, rfl,
    trivial, by decide +kernel, by decide +kernel⟩, okHeader_clean, ?_⟩
  obtain ⟨⟨p, rest⟩, parsed, seen⟩ := ok_of_run read
  simp only [Prod.mk.injEq] at seen
  exact ⟨p, rest, parsed, seen.1, by simp [shut, seen.2]⟩

end Replies

end Crablib.PersistenceProofs
