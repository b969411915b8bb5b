import Crablib.RequestLineProofs
import Mathlib.Data.List.TakeWhile

/-! Lists of transfer codings, over all the lines of a request. The parser looks at
one coding at a time: `chunked` may not follow another coding, although that is
where `to_string_common` puts it, and anything may follow `chunked`. -/
namespace Crablib.CodingProofs
open Http Scanner HeaderProofs FramingProofs RequestTextProofs RequestLineProofs

section Values

variable {ρ : Type} {actions : LineActions ρ} {p : HeaderLines ρ} {r : ρ} {name : Bytes}

/-- A text less the spaces around it. -/
def trim (text : Bytes) : Bytes := trimRight (text.dropWhile isSp)

/-- What the parser does with an element of a list: empty ones do not count. -/
def handed (actions : LineActions ρ) (name : Bytes) (r : ρ) (value : Bytes) : Except Error ρ :=
  if value.isEmpty then .ok r else actions.processReadyHeader { name := name, value := value } r

/-- The parser is before an element of a list. -/
structure Before (p : HeaderLines ρ) (name : Bytes) : Prop where
  state : p.state = .spaceBeforeHeaderValue
  list : p.headerCmsList = true
  header : p.header = { name := name }

/-- The parser has read an element and not yet handed it over. -/
structure Holds (p : HeaderLines ρ) (name value : Bytes) : Prop where
  state : p.state = .headerValue ∨ p.state = .spaceBeforeHeaderValue
  list : p.headerCmsList = true
  name : p.header.name = name
  value : trimRight p.header.value = value

/-- A text takes the parser to the start of the next line, with this message, or to
this error once that line is seen not to continue the last one. -/
def Turns (actions : LineActions ρ) (p : HeaderLines ρ) (text : Bytes) : Except Error ρ → Prop
  | .ok s =>
    ∃ q, AtLine actions q s ∧ ∀ rest, scan (lineMachine actions) p (text ++ rest) =
      scan (lineMachine actions) q rest
  | .error e => ∀ c rest, isSp c = false → scan (lineMachine actions) p (text ++ c :: rest) = .error e

theorem Turns.of_scan {q : HeaderLines ρ} {text more : Bytes} {result : Except Error ρ}
    (turns : Turns actions q more result)
    (scanned : ∀ rest, scan (lineMachine actions) p (text ++ rest) =
      scan (lineMachine actions) q (more ++ rest)) :
    Turns actions p text result := by
  cases result with
  | ok s =>
    obtain ⟨o, at_, read⟩ := turns
    exact ⟨o, at_, fun rest => (scanned rest).trans (read rest)⟩
  | error e => exact fun c rest other => (scanned _).trans (turns c rest other)

theorem scan_spaces (state : p.state = .spaceBeforeHeaderValue) {text : Bytes}
    (spaces : ∀ c ∈ text, isSp c = true) (rest : Bytes) :
    scan (lineMachine actions) p (text ++ rest) = scan (lineMachine actions) p rest := by
  induction text with
  | nil => rfl
  | cons c text ih =>
    have skipped : (lineMachine actions).consume p c = .ok p := by
      simp only [lineMachine, consumeLine, state, spaces c List.mem_cons_self, ↓reduceIte]
    rw [List.cons_append, scan_step (by simp [lineMachine, state]) skipped]
    exact ih fun d member => spaces d (List.mem_cons_of_mem _ member)

variable (actions) in
/-- A value is collected, less the spaces before it. -/
theorem scan_collected (state : p.state = .spaceBeforeHeaderValue) (empty : p.header.value = [])
    {value : Bytes} (plain : IsPlain value) (comma : p.headerCmsList = true → ch ',' ∉ value) :
    ∃ q, (q.state = .headerValue ∨ q.state = .spaceBeforeHeaderValue) ∧
      q.headerCmsList = p.headerCmsList ∧
      q.header.name = p.header.name ∧ trimRight q.header.value = trim value ∧ q.req = p.req ∧
      ∀ rest, scan (lineMachine actions) p (value ++ rest) = scan (lineMachine actions) q rest := by
  have spaces : ∀ c ∈ value.takeWhile isSp, isSp c = true :=
    fun c member => List.mem_takeWhile_imp member
  have behind : ∀ rest, scan (lineMachine actions) p (value ++ rest) =
      scan (lineMachine actions) p (value.dropWhile isSp ++ rest) := by
    intro rest
    conv => lhs; rw [← List.takeWhile_append_dropWhile (p := isSp) (l := value), List.append_assoc]
    exact scan_spaces state spaces _
  by_cases none : value.dropWhile isSp = []
  · refine ⟨p, .inr state, rfl, rfl, ?_, rfl, fun rest => ?_⟩
    · rw [empty, trim, none]
    · rw [behind, none]
      rfl
  · have within : ∀ c ∈ value.dropWhile isSp, c ∈ value :=
      fun c member => (List.dropWhile_suffix isSp).subset member
    have first : (value.dropWhile isSp).head? ≠ some 32 := by
      intro space
      have other := List.head?_dropWhile_not isSp value
      rw [space] at other
      exact absurd other (by decide)
    refine ⟨{ p with state := .headerValue, header.value := value.dropWhile isSp }, .inl rfl, rfl,
      rfl, rfl, rfl, fun rest => ?_⟩
    rw [behind, scan_value state empty none first
      ⟨fun c member => plain c (within c member), fun list member => comma list (within _ member)⟩]

variable (actions) in
/-- So is an element of a list. -/
theorem scan_piece (before : Before p name) {piece : Bytes} (plain : IsPlain piece)
    (comma : ch ',' ∉ piece) :
    ∃ q, Holds q name (trim piece) ∧ q.req = p.req ∧
      ∀ rest, scan (lineMachine actions) p (piece ++ rest) = scan (lineMachine actions) q rest := by
  obtain ⟨q, state, list, name_, value, req, scanned⟩ :=
    scan_collected actions before.state (by rw [before.header]) plain fun _ => comma
  exact ⟨q, ⟨state, list.trans before.list, by rw [name_, before.header], value⟩, req, scanned⟩

theorem Holds.ready {value : Bytes} (holds : Holds p name value) :
    readyHeader actions p = handed actions name p.req value := by
  simp only [readyHeader, handed, holds.list, holds.name, holds.value, Bool.true_and]

theorem Holds.running {value : Bytes} (holds : Holds p name value) :
    (lineMachine actions).good p = false := by
  rcases holds.state with state | state <;> simp [lineMachine, state]

theorem Holds.consume {value : Bytes} (holds : Holds p name value) {c : UInt8} (other : isSp c = false) :
    (lineMachine actions).consume p c = headerValue actions p c := by
  rcases holds.state with state | state <;> simp [lineMachine, consumeLine, state, other]

variable (actions) in
/-- A comma hands over the element before it. -/
private theorem consume_comma {value : Bytes} (holds : Holds p name value) :
    (lineMachine actions).consume p (ch ',') =
      (handed actions name p.req value).map fun s =>
      { p with state := .spaceBeforeHeaderValue, header.value := [], req := s } := by
  have facts : ch ',' ≠ 13 ∧ ch ',' ≠ 10 ∧ isCtl (ch ',') = false := by decide
  rw [holds.consume (by decide), headerValue]
  simp only [facts.1, facts.2.1, facts.2.2, holds.list, holds.ready, beq_self_eq_true,
    Bool.and_self, Bool.false_eq_true, ↓reduceIte]
  cases handed actions name p.req value <;> rfl

variable (actions) in
/-- The end of a line hands over its last element. -/
private theorem turns_last {value : Bytes} (holds : Holds p name value) :
    Turns actions p crlf (handed actions name p.req value) := by
  have ready :
      readyHeader actions { p with state := .headerLineStart } = handed actions name p.req value :=
    holds.ready
  cases result : handed actions name p.req value with
  | ok s =>
    exact ⟨{ p with state := .headerLineStart }, .next rfl (ready.trans result), fun rest =>
      scan_crlf holds.state rest⟩
  | error e =>
    intro c rest other
    rw [scan_crlf holds.state]
    refine scan_fail (by simp [lineMachine]) ?_ rest
    simp [lineMachine, consumeLine, other, ready, result]

variable (actions) in
/-- A whole value hands over its elements in order. -/
theorem turns_value (before : Before p name) {value : Bytes} (plain : IsPlain value) :
    Turns actions p (value ++ crlf)
      (((value.splitOn (ch ',')).map trim).foldlM (handed actions name) p.req) := by
  induction length : value.length using Nat.strongRecOn generalizing p value with
  | ind n ih =>
    subst length
    by_cases comma : ch ',' ∈ value
    · obtain ⟨front, back, rfl, first⟩ := List.eq_append_cons_of_mem comma
      obtain ⟨q, holds, req, scanned⟩ := scan_piece actions before
        (fun c member => plain c (List.mem_append_left _ member)) first
      rw [List.splitOn_append_cons_self_of_not_mem first, List.map_cons, List.foldlM_cons, ← req]
      have consumed := consume_comma actions holds
      cases result : handed actions name q.req (trim front) with
      | error e =>
        rw [result] at consumed
        intro c rest other
        simp only [List.append_assoc, List.cons_append]
        rw [scanned]
        exact scan_fail holds.running consumed _
      | ok s =>
        rw [result] at consumed
        have plain_ : IsPlain back := fun c member => plain c (by simp [member])
        have later := ih back.length (by simp only [List.length_append, List.length_cons]; omega)
          (p := { q with state := .spaceBeforeHeaderValue, header.value := [], req := s })
          ⟨rfl, holds.list, by rw [← holds.name]⟩ plain_ rfl
        have step : ∀ rest, scan (lineMachine actions) p ((front ++ ch ',' :: back) ++ crlf ++ rest) =
            scan (lineMachine actions) { q with
              state := .spaceBeforeHeaderValue, header.value := [], req := s }
              ((back ++ crlf) ++ rest) := by
          intro rest
          simp only [List.append_assoc, List.cons_append]
          rw [scanned]
          exact scan_step holds.running consumed _
        exact later.of_scan step
    · obtain ⟨q, holds, req, scanned⟩ := scan_piece actions before plain comma
      have last := turns_last actions holds
      simp only [List.splitOn_eq_singleton comma, List.map_cons, List.map_nil, List.foldlM_cons,
        List.foldlM_nil, bind_pure]
      rw [← req]
      exact last.of_scan fun rest => by rw [List.append_assoc, scanned]

end Values

section Lines

variable {ρ : Type} {actions : LineActions ρ} {framed : Framed actions} {f : Framing}

/-- The elements of a comma-separated list. -/
def elements (value : Bytes) : List Bytes := ((value.splitOn (ch ',')).map trim).filter (· ≠ [])

/-- The codings that a line gives. -/
def codingsOf (h : Header) : List Bytes :=
  if toLower h.name = str "transfer-encoding" then elements h.value else []

/-- A line of a header that the parser has no other reason to refuse. -/
structure IsGiven (h : Header) : Prop where
  name : IsToken h.name
  value : IsPlain h.value
  other : toLower h.name ∉ [str "content-length", str "connection", str "upgrade"]

variable (framed) in
/-- A text between lines takes the framing from `f` to this one, or is refused once
its last line is over. -/
def Settles (text : Bytes) (f : Framing) : Except Error Framing → Prop
  | .ok g => Leads framed text f g
  | .error e => ∀ p r, AtLine actions p r → framing (framed.get r) = f →
      ∀ c rest, isSp c = false → scan (lineMachine actions) p (text ++ c :: rest) = .error e

/-- Each coding that is handed over counts for the framing. -/
private theorem handed_codings (values : List Bytes) {r : ρ} (same : framing (framed.get r) = f) :
    match (values.filter (· ≠ [])).foldlM Framing.coded f with
    | .ok g => ∃ s, values.foldlM (handed actions (str "transfer-encoding")) r = .ok s ∧
        framing (framed.get s) = g
    | .error e => values.foldlM (handed actions (str "transfer-encoding")) r = .error e := by
  induction values generalizing f r with
  | nil => exact ⟨r, rfl, same⟩
  | cons value values ih =>
    rw [List.foldlM_cons]
    by_cases empty : value = []
    · rw [List.filter_cons_of_neg (by simp [empty])]
      simp only [handed, empty, List.isEmpty_nil, ↓reduceIte]
      exact ih same
    · rw [List.filter_cons_of_pos (by simp [empty]), List.foldlM_cons]
      have some_ : value.isEmpty = false := by simpa using empty
      simp only [handed, some_, Bool.false_eq_true, ↓reduceIte]
      cases coded : f.coded value with
      | error e =>
        rw [process_coding_error same coded]
        rfl
      | ok g =>
        obtain ⟨s, processed, same'⟩ := process_coding same coded
        rw [processed]
        exact ih same'

/-- A line of codings takes them in turn. -/
private theorem settles_codings {name value : Bytes} (isToken_ : IsToken name)
    (codings : toLower name = str "transfer-encoding") (plain : IsPlain value) :
    Settles framed (line name value) f ((elements value).foldlM Framing.coded f) := by
  have turns : ∀ p r, AtLine actions p r → Turns actions p (line name value)
      (((value.splitOn (ch ',')).map trim).foldlM (handed actions (str "transfer-encoding")) r) := by
    intro p r at_
    have list : isCmsList (str "transfer-encoding") = true := by decide
    have later := turns_value actions (p := { p with
      state := .spaceBeforeHeaderValue
      header := { name := str "transfer-encoding" }
      headerCmsList := isCmsList (str "transfer-encoding")
      req := r }) ⟨rfl, list, rfl⟩ plain
    refine later.of_scan fun rest => ?_
    have text : line name value ++ rest = name ++ (str ": " ++ (value ++ crlf ++ rest)) := by simp [line]
    rw [text, scan_start at_ isToken_.some isToken_.token, codings]
  rw [elements]
  cases result : (((value.splitOn (ch ',')).map trim).filter (· ≠ [])).foldlM Framing.coded f with
  | ok g =>
    intro p r at_ same
    have handed_ := handed_codings ((value.splitOn (ch ',')).map trim) same
    rw [result] at handed_
    obtain ⟨s, processed, same'⟩ := handed_
    have line_ := turns p r at_
    rw [processed] at line_
    obtain ⟨q, at_', scanned⟩ := line_
    exact ⟨q, s, at_', same', scanned⟩
  | error e =>
    intro p r at_ same
    have handed_ := handed_codings ((value.splitOn (ch ',')).map trim) same
    rw [result] at handed_
    have line_ := turns p r at_
    rw [show _ = _ from handed_] at line_
    exact line_

variable (framed) in
/-- One line. -/
private theorem settles_line {h : Header} (given : IsGiven h) :
    Settles framed (line h.name h.value) f ((codingsOf h).foldlM Framing.coded f) := by
  by_cases codings : toLower h.name = str "transfer-encoding"
  · rw [codingsOf, if_pos codings]
    exact settles_codings given.name codings given.value
  · rw [codingsOf, if_neg codings]
    have other : toLower h.name ∉ framingNames := by
      have others := given.other
      simp only [framingNames, List.mem_cons, List.not_mem_nil, not_or, or_false] at others ⊢
      exact ⟨others.1, codings, others.2.1, others.2.2⟩
    exact leads_line given.name other given.value

variable (framed) in
/-- All the lines of a header take their codings as one list. -/
theorem settles_lines {lines : List Header} (given : ∀ h ∈ lines, IsGiven h) :
    Settles framed (lines.flatMap fun h => line h.name h.value) f
      ((lines.flatMap codingsOf).foldlM Framing.coded f) := by
  induction lines generalizing f with
  | nil => exact leads_nil
  | cons h lines ih =>
    have first := settles_line framed (f := f) (given h List.mem_cons_self)
    have later := fun g member => given g (List.mem_cons_of_mem h member)
    rw [List.flatMap_cons, List.flatMap_cons, List.foldlM_append]
    cases coded : (codingsOf h).foldlM Framing.coded f with
    | error e =>
      rw [coded] at first
      intro p r at_ same c rest other
      obtain ⟨d, more, split, start⟩ := lines_start (fun g member => (later g member).name) other rest
      rw [List.append_assoc, split]
      exact first p r at_ same d more start
    | ok g =>
      rw [coded] at first
      have back := ih (f := g) later
      show Settles framed _ f ((lines.flatMap codingsOf).foldlM Framing.coded g)
      cases result : (lines.flatMap codingsOf).foldlM Framing.coded g with
      | ok k =>
        rw [result] at back
        exact first.trans back
      | error e =>
        rw [result] at back
        intro p r at_ same c rest other
        obtain ⟨q, s, at_', same', scanned⟩ := first p r at_ same
        rw [List.append_assoc, scanned]
        exact back q s at_' same' c rest other

end Lines

section Lists

/-- No other coding stands before `chunked`. -/
def Ordered (kept : List Bytes) : Prop :=
  kept.Pairwise fun first second => second = str "chunked" → first = str "chunked"

instance (kept : List Bytes) : Decidable (Ordered kept) :=
  inferInstanceAs (Decidable (kept.Pairwise fun first second => second = str "chunked" →
    first = str "chunked"))

/-- `chunked` stands nowhere but at the end. -/
def Proper (kept : List Bytes) : Prop := str "chunked" ∉ kept.dropLast

private theorem ordered_chunked (kept : List Bytes) :
    Ordered (str "chunked" :: kept) ↔ Ordered kept := by
  simp [Ordered, List.pairwise_cons]

private theorem ordered_other {coding : Bytes} (other : coding ≠ str "chunked") (kept : List Bytes) :
    Ordered (coding :: kept) ↔ Ordered kept ∧ str "chunked" ∉ kept := by
  rw [Ordered, List.pairwise_cons]
  constructor
  · rintro ⟨first, later⟩
    exact ⟨later, fun member => other (first _ member rfl)⟩
  · rintro ⟨later, none⟩
    refine ⟨?_, later⟩
    rintro second member rfl
    exact absurd member none

/-- A list of codings is taken unless another coding stands before `chunked`. -/
theorem coded_list (codings : List Bytes) (f : Framing) :
    codings.foldlM Framing.coded f =
      if Ordered (keptCodings codings) ∧ (f.codings = [] ∨ str "chunked" ∉ keptCodings codings) then
        .ok { f with
          chunked := f.chunked || decide (str "chunked" ∈ keptCodings codings)
          codings := f.codings ++ (keptCodings codings).filter (· ≠ str "chunked") }
      else .error (.runtime "chunk encoding must be applied last") := by
  induction codings generalizing f with
  | nil => simp [keptCodings, Ordered, pure, Except.pure]
  | cons coding codings ih =>
    have apart : str "chunked" ≠ str "identity" := by decide
    rw [List.foldlM_cons]
    by_cases chunked : toLower coding = str "chunked"
    · have kept : keptCodings (coding :: codings) = str "chunked" :: keptCodings codings := by
        simp [keptCodings, chunked, apart]
      by_cases none : f.codings = []
      · have first : f.coded coding = .ok { f with chunked := true } := by
          simp [Framing.coded, chunked, none]
        rw [first, kept]
        refine (ih _).trans ?_
        simp [none, ordered_chunked]
      · have first : f.coded coding = .error (.runtime "chunk encoding must be applied last") := by
          simp [Framing.coded, chunked, none]
        rw [first, kept, if_neg (by simp [none])]
        rfl
    · by_cases identity : toLower coding = str "identity"
      · have kept : keptCodings (coding :: codings) = keptCodings codings := by
          simp [keptCodings, identity]
        have first : f.coded coding = .ok f := by simp [Framing.coded, identity, apart.symm]
        rw [first, kept]
        exact ih f
      · have kept : keptCodings (coding :: codings) = toLower coding :: keptCodings codings := by
          simp [keptCodings, identity]
        have first : f.coded coding = .ok { f with codings := f.codings ++ [toLower coding] } := by
          simp [Framing.coded, chunked, identity]
        have absent : str "chunked" ∉ toLower coding :: keptCodings codings ↔
            str "chunked" ∉ keptCodings codings := by
          simp [Ne.symm chunked]
        rw [first, kept]
        refine (ih _).trans ?_
        simp only [List.append_eq_nil_iff, List.cons_ne_self, and_false, false_or,
          ordered_other chunked, absent]
        by_cases later : str "chunked" ∈ keptCodings codings
        · simp [later]
        · simp [later, chunked, Ne.symm chunked]

/-- A list that is taken and right has no `chunked`, or nothing else. -/
theorem ordered_proper (kept : List Bytes) :
    Ordered kept ∧ Proper kept ↔ str "chunked" ∉ kept ∨ kept = [str "chunked"] := by
  constructor
  · rintro ⟨ordered, proper⟩
    rcases List.eq_nil_or_concat kept with rfl | ⟨front, last, rfl⟩
    · exact .inl (by simp)
    · simp only [Proper, List.concat_eq_append, List.dropLast_concat] at proper
      by_cases chunked : last = str "chunked"
      · rw [Ordered, List.concat_eq_append, List.pairwise_append] at ordered
        have before : ∀ coding ∈ front, coding = str "chunked" := fun coding member =>
          ordered.2.2 coding member last (by simp) chunked
        have none : front = [] := by
          refine List.eq_nil_iff_forall_not_mem.mpr fun coding member => proper ?_
          rw [← before coding member]
          exact member
        exact .inr (by simp [none, chunked])
      · exact .inl (by simp [proper, Ne.symm chunked])
  · rintro (none | rfl)
    · refine ⟨?_, fun member => none (List.dropLast_subset _ member)⟩
      refine List.Pairwise.imp_of_mem ?_ (List.pairwise_of_forall (fun _ _ => trivial))
      rintro first second - member - rfl
      exact absurd member none
    · exact ⟨by decide, by simp [Proper]⟩

end Lists

section Requests

variable {req : RequestHeader} {lines : List Header}

/-- A request with these lines. -/
def headerText (req : RequestHeader) (lines : List Header) : Bytes :=
  requestLine req ++ (lines.flatMap fun h => line h.name h.value) ++ crlf

/-- The codings that the lines give, in lower case and without `identity`. -/
def given (lines : List Header) : List Bytes := keptCodings (lines.flatMap codingsOf)

/-- The parser accepts the text as a header. -/
def Accepts (text : Bytes) (p : RequestParser) : Prop :=
  ∃ rest, RequestParser.parse {} text = .ok (p, rest) ∧ p.isGood = true

/-- Without its limit, the parser reads a header to its end or refuses its codings. -/
private theorem scan_headerText (ok : IsRequestLine req) (lines_ : ∀ h ∈ lines, IsGiven h) :
    if Ordered (given lines) then
      ∃ q, scan plain {} (headerText req lines) = .ok (q, []) ∧ q.isGood = true ∧
        framing q.req.toRequestResponseHeader =
          ⟨none, decide (str "chunked" ∈ given lines), (given lines).filter (· ≠ str "chunked")⟩
    else ∃ e, scan plain {} (headerText req lines) = .error e := by
  obtain ⟨p, r, state, at_, fresh, first⟩ := scan_firstLine ok
  have text :
      headerText req lines = requestLine req ++
      ((lines.flatMap fun h => line h.name h.value) ++ crlf) := by
    simp [headerText]
  have settles := settles_lines (f := {}) requestFramed lines_
  rw [coded_list] at settles
  rw [text, first]
  by_cases ordered : Ordered (given lines)
  · rw [if_pos ordered]
    rw [if_pos ⟨ordered, .inl rfl⟩] at settles
    obtain ⟨q, s, at_', same, scanned⟩ := settles p.lines r at_ fresh
    have read := (scanned (crlf ++ [])).trans (scan_end at_' [])
    rw [List.append_nil] at read
    refine ⟨_, reader.scan_ok state read, by simp [RequestParser.isGood, reader, state], ?_⟩
    exact same
  · rw [if_neg ordered]
    rw [if_neg fun taken => ordered taken.1] at settles
    exact ⟨_, reader.scan_error state (settles p.lines r at_ fresh 13 [10] (by decide))⟩

/-- A header is accepted if no other coding stands before `chunked`, and then its
codings are as they are given. -/
theorem accepts_iff (ok : IsRequestLine req) (lines_ : ∀ h ∈ lines, IsGiven h) :
    ((∃ p, Accepts (headerText req lines) p) ↔
      (headerText req lines).length ≤ ({} : RequestParser).maxTotalLength ∧ Ordered (given lines)) ∧
    ∀ p, Accepts (headerText req lines) p →
      p.req.transferEncodingChunked = decide (str "chunked" ∈ given lines) ∧
      p.req.transferEncodings = (given lines).filter (· ≠ str "chunked") := by
  have read := scan_headerText ok lines_
  by_cases ordered : Ordered (given lines)
  · rw [if_pos ordered] at read
    obtain ⟨q, scanned, good, same⟩ := read
    have unlimited : ∀ p, Accepts (headerText req lines) p →
        p.req = q.req ∧ (headerText req lines).length ≤ ({} : RequestParser).maxTotalLength := by
      rintro p ⟨rest, parsed, -⟩
      have within :
          scan plain {} (headerText req lines) = .ok ({ p with totalLength := 0 }, rest) :=
        limited.scan_within parsed 0
      rw [scanned] at within
      simp only [Except.ok.injEq, Prod.mk.injEq] at within
      obtain ⟨rfl, rfl⟩ := within
      obtain ⟨bound, total⟩ := limited.scan_count parsed (Nat.zero_le _)
      have start : limited.count ({} : RequestParser) = 0 := rfl
      have limit : limited.limit {} = ({} : RequestParser).maxTotalLength := rfl
      have none : ([] : Bytes).length = 0 := rfl
      exact ⟨rfl, by omega⟩
    refine ⟨⟨?_, ?_⟩, ?_⟩
    · rintro ⟨p, accepted⟩
      exact ⟨(unlimited p accepted).2, ordered⟩
    · rintro ⟨fits, -⟩
      obtain ⟨n, parsed⟩ := limited.scan_ok (s := {}) (by simpa [limited] using fits) scanned
      exact ⟨limited.set q n, [], parsed, good⟩
    · intro p accepted
      rw [(unlimited p accepted).1]
      exact ⟨congrArg Framing.chunked same, congrArg Framing.codings same⟩
  · rw [if_neg ordered] at read
    obtain ⟨e, scanned⟩ := read
    have refused : ∀ p, ¬Accepts (headerText req lines) p := by
      rintro p ⟨rest, parsed, -⟩
      have within :
          scan plain {} (headerText req lines) = .ok ({ p with totalLength := 0 }, rest) :=
        limited.scan_within parsed 0
      rw [scanned] at within
      cases within
    refine ⟨⟨?_, ?_⟩, ?_⟩
    · rintro ⟨p, accepted⟩
      exact absurd accepted (refused p)
    · rintro ⟨-, taken⟩
      exact absurd taken ordered
    · intro p accepted
      exact absurd accepted (refused p)

/-- The parser does with a list of codings what it should. -/
structure Listed (req : RequestHeader) (lines : List Header) : Prop where
  accepted : (∃ p, Accepts (headerText req lines) p) ↔ Proper (given lines)
  chunked : ∀ p, Accepts (headerText req lines) p →
    (p.req.transferEncodingChunked = true ↔ str "chunked" ∈ given lines)
  others : ∀ p, Accepts (headerText req lines) p →
    p.req.transferEncodings = (given lines).filter (· ≠ str "chunked")

/-- The lists on which the parser is right. Those with another coding before `chunked`
are refused, although they are as they should be if it is the last one. -/
def Handled (kept : List Bytes) : Prop :=
  str "chunked" ∉ kept ∨ kept = [str "chunked"] ∨ ¬Ordered kept ∧ ¬Proper kept

/-- A list of codings, in lines of its own among any others, is treated as it should
be exactly if it is one of those, under a header that is not too long for any list. -/
theorem codings_listed_iff (req : RequestHeader) (lines : List Header) (ok : IsRequestLine req)
    (lines_ : ∀ h ∈ lines, IsGiven h) :
    Listed req lines ↔
      (headerText req lines).length ≤ ({} : RequestParser).maxTotalLength ∧ Handled (given lines) ∨
        (headerText req lines).length > ({} : RequestParser).maxTotalLength ∧ ¬Proper (given lines) := by
  obtain ⟨accepts, outcome⟩ := accepts_iff ok lines_
  have right := ordered_proper (given lines)
  have listed : Listed req lines ↔
      ((headerText req lines).length ≤ ({} : RequestParser).maxTotalLength ∧ Ordered (given lines) ↔
        Proper (given lines)) := by
    constructor
    · intro listed
      exact accepts.symm.trans listed.accepted
    · intro same
      refine ⟨accepts.trans same, fun p accepted => ?_, fun p accepted => (outcome p accepted).2⟩
      rw [(outcome p accepted).1, decide_eq_true_iff]
  rw [listed, Handled]
  by_cases fits : (headerText req lines).length ≤ ({} : RequestParser).maxTotalLength
  · have short : ¬(headerText req lines).length > ({} : RequestParser).maxTotalLength := by omega
    simp only [fits, short, true_and, false_and, or_false]
    rw [← or_assoc, ← right]
    exact iff_iff_and_or_not_and_not
  · have long : (headerText req lines).length > ({} : RequestParser).maxTotalLength := by omega
    simp only [fits, long, false_and, true_and, false_or, false_iff]

private def get : RequestHeader :=
  { method := str "GET", path := str "/", httpVersionMajor := 1, httpVersionMinor := 1 }

private def encoding (value : String) : Header := { name := str "transfer-encoding", value := str value }

private theorem get_isRequestLine : IsRequestLine get where
  method := by decide
  token := List.all_iff_forall_prop.mp (by decide)
  path := by decide
  isPath := .char (by decide) .nil
  isQuery := by simp [get]
  isVersion := ⟨by decide, by decide⟩

private theorem encoding_isGiven {value : String} (plain : IsPlain (str value)) :
    IsGiven (encoding value) := by
  have name : IsToken (str "transfer-encoding") := ⟨by decide, List.all_iff_forall_prop.mp (by decide)⟩
  have other :
      toLower (str "transfer-encoding") ∉ [str "content-length", str "connection",
      str "upgrade"] := by decide
  exact ⟨name, plain, other⟩

theorem codings_listed_iff_two :
    IsRequestLine get ∧ (∀ h ∈ [encoding "gzip, identity", encoding "Deflate"], IsGiven h) ∧
      Listed get [encoding "gzip, identity", encoding "Deflate"] := by
  have lines : ∀ h ∈ [encoding "gzip, identity", encoding "Deflate"], IsGiven h := by
    intro h member
    rcases List.mem_cons.mp member with rfl | member
    · exact encoding_isGiven (by unfold IsPlain; decide +kernel)
    · rw [List.mem_singleton.mp member]
      exact encoding_isGiven (by unfold IsPlain; decide +kernel)
  refine ⟨get_isRequestLine, lines, ?_⟩
  exact (codings_listed_iff _ _ get_isRequestLine lines).mpr
    (.inl ⟨by decide +kernel, .inl (by decide +kernel)⟩)

/-- The list that `to_string_common` writes is refused, and its reverse is accepted. -/
theorem emitted_codings_refused :
    { get with transferEncodings := [str "gzip"], transferEncodingChunked := true }.toString =
        headerText get [encoding "gzip, chunked"] ∧
      IsRequestLine get ∧ (∀ value ∈ ["gzip, chunked", "chunked, gzip"], IsGiven (encoding value)) ∧
      ¬Listed get [encoding "gzip, chunked"] ∧ ¬Listed get [encoding "chunked, gzip"] := by
  refine ⟨by decide +kernel, get_isRequestLine, ?_, ?_, ?_⟩
  · intro value member
    rcases List.mem_cons.mp member with rfl | member
    · exact encoding_isGiven (by unfold IsPlain; decide +kernel)
    · rw [List.mem_singleton.mp member]
      exact encoding_isGiven (by unfold IsPlain; decide +kernel)
  · intro listed
    obtain ⟨p, rest, parsed, -⟩ := listed.accepted.mpr (by unfold Proper; decide +kernel)
    have refused :
        (RequestParser.parse {} (headerText get [encoding "gzip, chunked"])).toOption.isSome =
        false := by decide +kernel
    rw [parsed] at refused
    cases refused
  · intro listed
    have accepted :
        ((RequestParser.parse {} (headerText get [encoding "chunked, gzip"])).toOption.map
        fun read => read.1.isGood) = some true := by
      decide +kernel
    cases parsed : RequestParser.parse {} (headerText get [encoding "chunked, gzip"]) with
    | error e =>
      rw [parsed] at accepted
      cases accepted
    | ok read =>
      rw [parsed] at accepted
      have proper := listed.accepted.mp ⟨read.1, read.2, parsed, Option.some.inj accepted⟩
      exact absurd proper (by unfold Proper; decide +kernel)

end Requests

end Crablib.CodingProofs
