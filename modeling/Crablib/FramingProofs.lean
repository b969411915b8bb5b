import Crablib.RequestTextProofs
import Crablib.ResponseTextProofs

/-! What a header says about the body behind it: its length, its chunks and the
other codings. The lines are followed only as far as that, so names may be in any
case and values may be anything that a line can hold. -/
namespace Crablib.FramingProofs
open Http Scanner HeaderProofs HeaderTextProofs NumeralProofs

/-- The fields that say where a body ends. -/
structure Framing where
  length : Option UInt64 := none
  chunked : Bool := false
  codings : List Bytes := []
  deriving DecidableEq, Repr

/-- The framing of a message. -/
def framing (c : RequestResponseHeader) : Framing :=
  ⟨c.contentLength, c.transferEncodingChunked, c.transferEncodings⟩

/-- The names that set the framing, and those whose values the parsers may refuse. -/
def framingNames : List Bytes :=
  [str "content-length", str "transfer-encoding", str "connection", str "upgrade"]

/-- One transfer coding. -/
def Framing.coded (f : Framing) (value : Bytes) : Except Error Framing :=
  if toLower value = str "chunked" then
    if f.codings.isEmpty then .ok { f with chunked := true }
      else .error (.runtime "chunk encoding must be applied last")
  else if toLower value = str "identity" then .ok f
  else .ok { f with codings := f.codings ++ [toLower value] }

/-- A parser that keeps the framing of its message in one place. -/
structure Framed {ρ : Type} (actions : LineActions ρ) where
  get : ρ → RequestResponseHeader
  common : ∀ h r d, processCommonHeader h.name h.value (get r) = some (.ok d) →
    ∃ s, actions.processReadyHeader h r = .ok s ∧ get s = d
  error : ∀ h r e, processCommonHeader h.name h.value (get r) = some (.error e) →
    actions.processReadyHeader h r = .error e
  other : ∀ h r, h.name ∉ framingNames → ∃ s, actions.processReadyHeader h r = .ok s ∧
    framing (get s) = framing (get r)

section Parsers

/-- Other names are common fields that do not matter here, or none. -/
private theorem processCommonHeader_other {name : Bytes} (other : name ∉ framingNames)
    (value : Bytes) (c : RequestResponseHeader) :
    processCommonHeader name value c = none ∨ ∃ d, processCommonHeader name value c = some (.ok d) ∧
      framing d = framing c := by
  by_cases type : name = str "content-type"
  · subst type
    exact .inr ⟨{ c with contentTypeMime := (parseContentTypeValue value).1,
                         contentTypeSuffix := (parseContentTypeValue value).2 }, rfl, rfl⟩
  · simp only [framingNames, List.mem_cons, List.not_mem_nil, not_or] at other
    exact .inl (by simp [processCommonHeader, other, type])

/-- A parser that leaves the common headers to `processCommonHeader`, and whose own ones
leave the common fields' framing alone. -/
def framedOf {ρ : Type} {actions : LineActions ρ} (get : ρ → RequestResponseHeader)
    (set : ρ → RequestResponseHeader → ρ) (get_set : ∀ r c, get (set r c) = c)
    (shared : ∀ h r result, processCommonHeader h.name h.value (get r) = some result →
      actions.processReadyHeader h r = result.map (set r))
    (own : ∀ h r, processCommonHeader h.name h.value (get r) = none →
      ∃ s, actions.processReadyHeader h r = .ok s ∧ framing (get s) = framing
        (get r)) : Framed actions where
  get := get
  common := fun h r d processed => ⟨set r d, shared h r _ processed, get_set r d⟩
  error := fun h r _ processed => shared h r _ processed
  other := fun h r other => by
    rcases processCommonHeader_other other h.value (get r) with none | ⟨d, processed, same⟩
    · exact own h r none
    · exact ⟨set r d, shared h r _ processed, by rw [get_set, same]⟩

private theorem request_set (r : RequestHeader) (c : RequestResponseHeader) :
    { r with toRequestResponseHeader := c }.toRequestResponseHeader = c := rfl

private theorem response_set (r : ResponseHeader) (c : RequestResponseHeader) :
    { r with toRequestResponseHeader := c }.toRequestResponseHeader = c := rfl

/-- The parser of requests. -/
def requestFramed : Framed RequestParser.actions :=
  framedOf (fun r => r.toRequestResponseHeader) (fun r c => { r with toRequestResponseHeader := c })
    request_set (fun h r result processed => by
      simp only [RequestParser.actions, RequestParser.processReadyHeader, processed]
      cases result <;> rfl)
    fun h r none => by
      simp only [RequestParser.actions, RequestParser.processReadyHeader, none]
      repeat' split
      all_goals exact ⟨_, rfl, rfl⟩

/-- The parser of responses. -/
def responseFramed : Framed ResponseParser.actions :=
  framedOf (fun r => r.toRequestResponseHeader) (fun r c => { r with toRequestResponseHeader := c })
    response_set (fun h r result processed => by
      simp only [ResponseParser.actions, ResponseParser.processReadyHeader, processed]
      cases result <;> rfl)
    fun h r none => by
      simp only [ResponseParser.actions, ResponseParser.processReadyHeader, none]
      repeat' split
      all_goals exact ⟨_, rfl, rfl⟩

end Parsers

section Lines

variable {ρ : Type} {actions : LineActions ρ} (framed : Framed actions)

/-- A text between lines takes the framing from `f` to `g`, whatever else it does. -/
def Leads (text : Bytes) (f g : Framing) : Prop :=
  ∀ p r, AtLine actions p r → framing (framed.get r) = f → ∃ q s, AtLine actions q s ∧
    framing (framed.get s) = g ∧
    ∀ rest, scan (lineMachine actions) p (text ++ rest) = scan (lineMachine actions) q rest

variable {framed} {f g h : Framing}

theorem leads_nil : Leads framed [] f f := fun p r at_ same => ⟨p, r, at_, same, fun _ => rfl⟩

theorem Leads.trans {first second : Bytes} (front : Leads framed first f g)
    (back : Leads framed second g h) :
    Leads framed (first ++ second) f h := by
  intro p r at_ same
  obtain ⟨q, s, at_', same', scanned⟩ := front p r at_ same
  obtain ⟨q', s', at_'', same'', scanned'⟩ := back q s at_' same'
  exact ⟨q', s', at_'', same'', fun rest => by rw [List.append_assoc, scanned, scanned']⟩

/-- A name that a line may have. -/
structure IsToken (name : Bytes) : Prop where
  some : name ≠ []
  token : ∀ c ∈ name, isToken c = true

/-- Characters that a value may have. -/
def IsPlain (value : Bytes) : Prop := ∀ c ∈ value, isCtl c = false

/-- A line that says nothing about the framing. -/
theorem leads_line {name value : Bytes} (isToken_ : IsToken name)
    (other : toLower name ∉ framingNames) (plain : IsPlain value) :
    Leads framed (line name value) f f := by
  intro p r at_ same
  have single : isCmsList (toLower name) = false := by
    simp only [framingNames, List.mem_cons, List.not_mem_nil, not_or] at other
    simp [isCmsList, other]
  obtain ⟨q, value', state, ready, scanned⟩ :=
    scan_plainLine at_ isToken_.some isToken_.token single plain
  obtain ⟨s, processed, kept⟩ := framed.other { name := toLower name, value := value' } r other
  exact ⟨q, s, .next state (ready.trans processed), kept.trans same, scanned⟩

theorem leads_optionalLine {name value : Bytes} (isToken_ : IsToken name)
    (other : toLower name ∉ framingNames) (plain : IsPlain value) :
    Leads framed (optionalLine name value) f f := by
  unfold optionalLine
  split
  · exact leads_nil
  · exact leads_line isToken_ other plain

theorem leads_lines {headers : List Header}
    (ok : ∀ h ∈ headers, IsToken h.name ∧ toLower h.name ∉ framingNames ∧ IsPlain h.value) :
    Leads framed (headers.flatMap fun h => line h.name h.value) f f := by
  induction headers with
  | nil => exact leads_nil
  | cons h headers ih =>
    obtain ⟨isToken_, other, plain⟩ := ok h List.mem_cons_self
    exact (leads_line isToken_ other plain).trans (ih fun g member =>
      ok g (List.mem_cons_of_mem _ member))

/-- A line that both parsers handle alike. -/
private theorem leads_common {name value : Bytes} (isLine : IsLine name value)
    (processed : ∀ c, framing c = f → ∃ d,
      processCommonHeader name value c = some (.ok d) ∧ framing d = g) :
    Leads framed (line name value) f g := by
  intro p r at_ same
  obtain ⟨d, processed, framed_⟩ := processed _ same
  obtain ⟨s, done, get⟩ := framed.common { name := name, value := value } r d processed
  obtain ⟨q, at_', scanned⟩ := reads_line isLine done p at_
  exact ⟨q, s, at_', by rw [get, framed_], scanned⟩

/-- A comma-separated list of codings takes each of them in turn. -/
theorem process_coding {r : ρ} {value : Bytes} (same : framing (framed.get r) = f)
    (coded : f.coded value = .ok g) :
    ∃ s, actions.processReadyHeader { name := str "transfer-encoding", value := value } r = .ok s ∧
      framing (framed.get s) = g := by
  have other : str "transfer-encoding" ≠ str "content-length" := by decide
  subst same
  have processed : ∃ d, processCommonHeader (str "transfer-encoding") value (framed.get r) =
      some (.ok d) ∧ framing d = g := by
    simp only [Framing.coded, framing] at coded
    simp only [processCommonHeader, other, ↓reduceIte]
    by_cases chunked : toLower value = str "chunked"
    · by_cases none : (framed.get r).transferEncodings.isEmpty = true
      · simp only [chunked, none, ↓reduceIte, Except.ok.injEq] at coded
        exact ⟨{ framed.get r with transferEncodingChunked := true },
          by simp only [chunked, none, Bool.not_true, Bool.false_eq_true, ↓reduceIte], coded⟩
      · simp [chunked, none] at coded
    · by_cases identity : toLower value = str "identity"
      · have apart : str "identity" ≠ str "chunked" := by decide
        simp only [identity, apart, ↓reduceIte, Except.ok.injEq] at coded
        exact ⟨framed.get r, by simp only [identity, apart, ↓reduceIte], coded⟩
      · simp only [chunked, identity, ↓reduceIte, Except.ok.injEq] at coded
        exact ⟨{ framed.get r with
          transferEncodings := (framed.get r).transferEncodings ++ [toLower value] },
          by simp only [chunked, identity, ↓reduceIte], coded⟩
  obtain ⟨d, processed, same⟩ := processed
  obtain ⟨s, done, get⟩ :=
    framed.common { name := str "transfer-encoding", value := value } r d processed
  exact ⟨s, done, by rw [get, same]⟩

theorem process_coding_error {r : ρ} {value : Bytes} {e : Error} (same : framing (framed.get r) = f)
    (coded : f.coded value = .error e) :
    actions.processReadyHeader { name := str "transfer-encoding", value := value } r = .error e := by
  have other : str "transfer-encoding" ≠ str "content-length" := by decide
  subst same
  refine framed.error { name := str "transfer-encoding", value := value } r e ?_
  simp only [Framing.coded, framing] at coded
  simp only [processCommonHeader, other, ↓reduceIte]
  by_cases chunked : toLower value = str "chunked"
  · by_cases none : (framed.get r).transferEncodings.isEmpty = true
    · simp [chunked, none] at coded
    · simpa [chunked, none] using coded
  · rw [if_neg chunked] at coded
    split at coded <;> cases coded

theorem process_codings {codings : List Bytes} {r : ρ} (same : framing (framed.get r) = f)
    (coded : codings.foldlM Framing.coded f = .ok g) :
    ∃ s, codings.foldlM (fun r v =>
      actions.processReadyHeader { name := str "transfer-encoding", value := v } r) r = .ok s ∧
      framing (framed.get s) = g := by
  induction codings generalizing f r with
  | nil =>
    cases coded
    exact ⟨r, rfl, same⟩
  | cons v codings ih =>
    rw [List.foldlM_cons] at coded
    obtain ⟨mid, first, later⟩ := bind_eq_ok.mp coded
    obtain ⟨s, processed, same'⟩ := process_coding same first
    obtain ⟨t, processed', same''⟩ := ih same' later
    refine ⟨t, ?_, same''⟩
    rw [List.foldlM_cons, processed]
    exact processed'

/-- A line of codings. -/
theorem leads_codings {codings : List Bytes} (some_ : codings ≠ [])
    (elements : ∀ v ∈ codings, IsElement v) (coded : codings.foldlM Framing.coded f = .ok g) :
    Leads framed (line (str "transfer-encoding") ((str ", ").intercalate codings)) f g := by
  intro p r at_ same
  obtain ⟨first, more, rfl⟩ := List.exists_cons_of_ne_nil some_
  obtain ⟨s, processed, same'⟩ := process_codings same coded
  obtain ⟨q, at_', scanned⟩ := reads_list (by decide) (by decide) elements processed p at_
  exact ⟨q, s, at_', same', scanned⟩

/-- A line whose last coding is refused, once the line is over. -/
theorem codings_refused {front : List Bytes} {last : Bytes}
    (elements : ∀ v ∈ front ++ [last], IsElement v) (coded : front.foldlM Framing.coded f = .ok g)
    {e : Error} (refused : g.coded last = .error e) {p : HeaderLines ρ} {r : ρ}
    (at_ : AtLine actions p r) (same : framing (framed.get r) = f) {c : UInt8}
    (other : isSp c = false) (rest : Bytes) :
    scan (lineMachine actions) p
      (line (str "transfer-encoding") ((str ", ").intercalate (front ++ [last])) ++ c :: rest) =
      .error e := by
  obtain ⟨s, processed, same'⟩ := process_codings same coded
  obtain ⟨q, state, ready, scanned⟩ := scan_listLine at_ (by decide) (by decide) elements processed
  rw [process_coding_error same' refused] at ready
  rw [scanned]
  refine scan_fail (by simp [lineMachine, state]) ?_ rest
  simp [lineMachine, consumeLine, state, other, ready]

end Lines

section CommonLines

variable {ρ : Type} {actions : LineActions ρ} {framed : Framed actions} {f : Framing}

/-- Fields that are text as the lines can hold it, and whose names are not those of
the framing. -/
structure WellFormed (c : RequestResponseHeader) : Prop where
  mime : IsPlain c.contentTypeMime
  suffix : IsPlain c.contentTypeSuffix
  encodings : ∀ e ∈ c.transferEncodings, IsElement e ∧ toLower e ≠ str "chunked"
  headers : ∀ h ∈ c.headers, IsToken h.name ∧ toLower h.name ∉ framingNames ∧ IsPlain h.value

/-- The codings that are kept: in lower case, and not `identity`. -/
def keptCodings (encodings : List Bytes) : List Bytes :=
  (encodings.map toLower).filter (· ≠ str "identity")

/-- The framing that the text of a header announces. -/
def announcedFraming (c : RequestResponseHeader) : Framing :=
  ⟨c.contentLength, c.transferEncodingChunked, keptCodings c.transferEncodings⟩

private theorem coded_encodings {encodings : List Bytes}
    (ok : ∀ e ∈ encodings, toLower e ≠ str "chunked") (f : Framing) :
    encodings.foldlM Framing.coded f = .ok { f with codings := f.codings ++ keptCodings encodings } := by
  induction encodings generalizing f with
  | nil => simp [keptCodings, pure, Except.pure]
  | cons e encodings ih =>
    have later := ih fun e member => ok e (List.mem_cons_of_mem _ member)
    have chunked := ok e List.mem_cons_self
    rw [List.foldlM_cons]
    by_cases identity : toLower e = str "identity"
    · have first : f.coded e = .ok f := by
        simp [Framing.coded, identity, show str "identity" ≠ str "chunked" by decide]
      have kept : keptCodings (e :: encodings) = keptCodings encodings := by simp [keptCodings, identity]
      rw [first, kept]
      exact later f
    · have first : f.coded e = .ok { f with codings := f.codings ++ [toLower e] } := by
        simp [Framing.coded, chunked, identity]
      have kept : keptCodings (e :: encodings) = toLower e :: keptCodings encodings := by
        simp [keptCodings, identity]
      rw [first, kept]
      refine (later _).trans ?_
      simp

variable {c : RequestResponseHeader}

private theorem leads_contentType (ok : WellFormed c) : Leads framed c.contentTypeLine f f := by
  unfold RequestResponseHeader.contentTypeLine
  split
  · exact leads_nil
  have name : str "content-type: " = str "content-type" ++ str ": " := by decide
  have text : str "content-type: " ++ c.contentTypeMime ++
      (if c.contentTypeSuffix.isEmpty then [] else str "; " ++ c.contentTypeSuffix) ++ crlf =
      line (str "content-type") (c.contentTypeMime ++ if c.contentTypeSuffix.isEmpty then []
      else str "; " ++ c.contentTypeSuffix) := by
    simp [line, name]
  rw [text]
  refine leads_line ⟨by decide, List.all_iff_forall_prop.mp (by decide)⟩ (by decide) fun d member => ?_
  have separator : ∀ d ∈ str "; ", isCtl d = false := List.all_iff_forall_prop.mp (by decide)
  rcases List.mem_append.mp member with mime | rest
  · exact ok.mime d mime
  · split at rest
    · cases rest
    · rcases List.mem_append.mp rest with semicolon | suffix
      · exact separator d semicolon
      · exact ok.suffix d suffix

private theorem leads_contentLength (none_ : f.length = none) :
    Leads framed c.contentLengthLine f { f with length := c.contentLength } := by
  unfold RequestResponseHeader.contentLengthLine
  cases length : c.contentLength with
  | none =>
    have same : { f with length := none } = f := by rw [← none_]
    rw [same]
    exact leads_nil
  | some n =>
    refine leads_common (isLine_plain (by decide) (by decide) (isValue_decimal _)) fun d same => ?_
    subst same
    have fresh : d.contentLength = none := none_
    refine ⟨{ d with contentLength := some n }, ?_, rfl⟩
    simp only [processCommonHeader, fresh, Option.isSome_none, Bool.false_eq_true, ↓reduceIte,
      integerParse_decimal n.toNat_lt]
    simp

private theorem leads_connection : Leads framed c.connectionLines f f := by
  unfold RequestResponseHeader.connectionLines
  split
  · exact leads_common (by decide) fun d same => ⟨{ d with keepAlive := true }, rfl, same⟩
  · split
    · exact leads_common (by decide) fun d same => ⟨{ d with keepAlive := false }, rfl, same⟩
    · split
      · have connection : Leads framed (line (str "connection") (str "upgrade")) f f :=
          leads_common (by decide) fun d same => ⟨{ d with connectionUpgrade := true }, rfl, same⟩
        have upgrade : Leads framed (line (str "upgrade") (str "websocket")) f f :=
          leads_common (by decide) fun d same => ⟨{ d with upgradeWebsocket := true }, rfl, same⟩
        exact connection.trans upgrade
      · exact leads_nil

/-- The line of codings, if there are any. -/
private theorem transferEncodingLine_text (c : RequestResponseHeader) :
    c.transferEncodingLine = if (c.transferEncodings ++ if c.transferEncodingChunked then
      [str "chunked"] else []).isEmpty then [] else line (str "transfer-encoding")
        ((str ", ").intercalate (c.transferEncodings ++ if c.transferEncodingChunked then
          [str "chunked"] else [])) := by
  have name : str "transfer-encoding:" ++ str " " = str "transfer-encoding" ++ str ": " := by decide
  simp only [RequestResponseHeader.transferEncodingLine, line, name]

private theorem chunked_element : IsElement (str "chunked") := by decide

private theorem elements_of (ok : WellFormed c) :
    ∀ v ∈ c.transferEncodings ++ (if c.transferEncodingChunked then [str "chunked"] else []),
      IsElement v := by
  intro v member
  rcases List.mem_append.mp member with coding | chunked
  · exact (ok.encodings v coding).1
  · split at chunked
    · rw [List.mem_singleton.mp chunked]
      exact chunked_element
    · cases chunked

private theorem leads_encoding (ok : WellFormed c) (fresh : f.chunked = false ∧ f.codings = [])
    (last : c.transferEncodingChunked = true → keptCodings c.transferEncodings = []) :
    Leads framed c.transferEncodingLine f { f with
      chunked := c.transferEncodingChunked, codings := keptCodings c.transferEncodings } := by
  have coded := coded_encodings (fun e member => (ok.encodings e member).2) f
  rw [fresh.2, List.nil_append] at coded
  have all :
      (c.transferEncodings ++ if c.transferEncodingChunked then [str "chunked"]
      else []).foldlM Framing.coded f =
      .ok { f with chunked := c.transferEncodingChunked,
                   codings := keptCodings c.transferEncodings } := by
    rw [List.foldlM_append, coded]
    cases chunked : c.transferEncodingChunked with
    | false => simp [bind, Except.bind, pure, Except.pure, fresh.1]
    | true =>
      have lower : toLower (str "chunked") = str "chunked" := by decide
      simp [bind, Except.bind, Framing.coded, lower, last chunked, pure, Except.pure]
  have elements := elements_of ok
  rw [transferEncodingLine_text]
  generalize (c.transferEncodings ++ if c.transferEncodingChunked then [str "chunked"] else []) =
    codings at all elements
  by_cases empty : codings = []
  · subst empty
    have same :
        f = { f with chunked := c.transferEncodingChunked,
                     codings := keptCodings c.transferEncodings } := by
      simpa [pure, Except.pure] using all
    rw [← same]
    exact leads_nil
  · have some_ : codings.isEmpty = false := by simpa using empty
    simp only [some_, Bool.false_eq_true, ↓reduceIte]
    exact leads_codings empty elements all

theorem leads_toStringCommon (ok : WellFormed c)
    (last : c.transferEncodingChunked = true → keptCodings c.transferEncodings = []) :
    Leads framed c.toStringCommon {} (announcedFraming c) :=
  ((((leads_contentType ok).trans (leads_contentLength rfl)).trans leads_connection).trans
    (leads_encoding ok ⟨rfl, rfl⟩ last)).trans (leads_lines ok.headers)

/-- Lines start with a token character, and what follows them with none that
continues a value. -/
theorem lines_start {headers : List Header} (ok : ∀ h ∈ headers, IsToken h.name) {d : UInt8}
    (other : isSp d = false) (rest : Bytes) :
    ∃ e more, (headers.flatMap fun h => line h.name h.value) ++ d :: rest = e :: more ∧
      isSp e = false := by
  cases headers with
  | nil => exact ⟨d, rest, rfl, other⟩
  | cons h headers =>
    obtain ⟨some_, token⟩ := ok h List.mem_cons_self
    obtain ⟨e, name, split⟩ := List.exists_cons_of_ne_nil some_
    have sp : isSp e = false := (token_facts (token e (by simp [split]))).1
    rw [List.flatMap_cons, line, split]
    exact ⟨e, _, rfl, sp⟩

/-- Chunks behind other codings are refused. -/
theorem toStringCommon_refused (ok : WellFormed c) (chunked : c.transferEncodingChunked = true)
    (kept : keptCodings c.transferEncodings ≠ []) {p : HeaderLines ρ} {r : ρ} (at_ : AtLine actions p r)
    (same : framing (framed.get r) = {}) {d : UInt8} (other : isSp d = false) (rest : Bytes) :
    ∃ e, scan (lineMachine actions) p (c.toStringCommon ++ d :: rest) = .error e := by
  have front :
      Leads framed (c.contentTypeLine ++ c.contentLengthLine ++ c.connectionLines) {}
      { length := c.contentLength } :=
    ((leads_contentType ok).trans (leads_contentLength rfl)).trans leads_connection
  obtain ⟨q, s, at_', same', scanned⟩ := front p r at_ same
  obtain ⟨e, more, split, start⟩ := lines_start (fun h member => (ok.headers h member).1) other rest
  have coded := coded_encodings (fun e member => (ok.encodings e member).2) { length := c.contentLength }
  have refused :
      Framing.coded { length := c.contentLength, codings := [] ++ keptCodings c.transferEncodings }
        (str "chunked") =
        .error (.runtime "chunk encoding must be applied last") := by
    have lower : toLower (str "chunked") = str "chunked" := by decide
    simp [Framing.coded, lower, kept]
  refine ⟨.runtime "chunk encoding must be applied last", ?_⟩
  have text :
      c.toStringCommon ++ d :: rest = c.contentTypeLine ++ c.contentLengthLine ++ c.connectionLines ++
      (line (str "transfer-encoding")
        ((str ", ").intercalate (c.transferEncodings ++ [str "chunked"])) ++ e :: more) := by
    rw [RequestResponseHeader.toStringCommon, transferEncodingLine_text, chunked, ← split]
    simp
  rw [text, scanned]
  have elements := elements_of ok
  rw [chunked] at elements
  exact codings_refused elements coded refused at_' same' start more

end CommonLines

end Crablib.FramingProofs
