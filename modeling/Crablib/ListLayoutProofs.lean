import Crablib.CodingProofs
import Crablib.LockstepProofs
import Crablib.Library.Folds
import Crablib.ResponseTextProofs

/-! Headers that are lists may be laid out in any way. Both parsers hand over one
element after the other, wherever it stands, and no other header looks at what they
set. So only the sequence of elements of each name shows in the message. -/
namespace Crablib.ListLayoutProofs
open Http Scanner HeaderProofs FramingProofs CodingProofs LockstepProofs Folds

section Lines

variable {ρ : Type} {actions : LineActions ρ} {p : HeaderLines ρ} {r : ρ} {name value : Bytes}
    {lines lines' : List Header}

/-- Header lines with nothing but their values behind the colons. -/
def laid (lines : List Header) : Bytes := lines.flatMap fun h => h.name ++ ch ':' :: h.value ++ crlf

/-- The elements that all the lines of one name give. -/
def elementsOf (name : Bytes) (lines : List Header) : List Bytes :=
  (lines.filter fun h => toLower h.name == name).flatMap fun h => elements h.value

/-- The lines that are not lists. -/
def singles (lines : List Header) : List Header := lines.filter fun h => !isCmsList (toLower h.name)

/-- Both lists of lines give the same elements in the same order, and have the same
other lines. -/
structure Relaid (lines lines' : List Header) : Prop where
  connection : elementsOf (str "connection") lines = elementsOf (str "connection") lines'
  codings : elementsOf (str "transfer-encoding") lines = elementsOf (str "transfer-encoding") lines'
  singles : singles lines = singles lines'

/-- What a parser hands over for a line. -/
def parts (h : Header) : List Header :=
  if isCmsList (toLower h.name) then (elements h.value).map fun value =>
    { name := toLower h.name, value := value }
  else [{ name := toLower h.name, value := trim h.value }]

private theorem handed_elements (values : List Bytes) (r : ρ) :
    values.foldlM (handed actions name) r =
      ((values.filter (· ≠ [])).map fun value => ({ name := name, value := value } : Header)).foldlM
        (fun r h => actions.processReadyHeader h r) r := by
  induction values generalizing r with
  | nil => rfl
  | cons value values ih =>
    by_cases empty : value = []
    · rw [List.filter_cons_of_neg (by simp [empty]), List.foldlM_cons, handed, empty]
      exact ih r
    · have some_ : value.isEmpty = false := by simpa using empty
      rw [List.filter_cons_of_pos (by simp [empty]), List.map_cons, List.foldlM_cons,
        List.foldlM_cons, handed]
      simp only [some_, Bool.false_eq_true, ↓reduceIte]
      cases actions.processReadyHeader { name := name, value := value } r with
      | error e => rfl
      | ok s => exact ih s

/-- A line hands over the parts of its value. -/
private theorem turns_line (at_ : AtLine actions p r) {h : Header} (isToken_ : IsToken h.name)
    (plain : IsPlain h.value) :
    Turns actions p (h.name ++ ch ':' :: h.value ++ crlf)
      ((parts h).foldlM (fun r h => actions.processReadyHeader h r) r) := by
  have begun : ∀ rest, scan (lineMachine actions) p (h.name ++ ch ':' :: h.value ++ crlf ++ rest) =
      scan (lineMachine actions)
        { p with
          state := .spaceBeforeHeaderValue
          header := { name := toLower h.name }
          headerCmsList := isCmsList (toLower h.name)
          req := r } (h.value ++ crlf ++ rest) := by
    intro rest
    have text :
        h.name ++ ch ':' :: h.value ++ crlf ++ rest = h.name ++ ch ':' ::
        (h.value ++ crlf ++ rest) := by simp
    rw [text, scan_colon at_ isToken_.some isToken_.token]
  refine Turns.of_scan ?_ begun
  unfold parts
  split
  · rename_i list
    rw [elements, ← handed_elements]
    exact turns_value actions ⟨rfl, list, rfl⟩ plain
  · rename_i single
    obtain ⟨q, state, list, name, value, req, scanned⟩ := scan_collected actions (p := { p with
      state := .spaceBeforeHeaderValue
      header := { name := toLower h.name }
      headerCmsList := isCmsList (toLower h.name)
      req := r }) rfl rfl plain fun list => absurd list single
    have ready : readyHeader actions { q with state := .headerLineStart } =
        actions.processReadyHeader { name := toLower h.name, value := trim h.value } r := by
      simp only [readyHeader, list, name, value, req, single, Bool.false_and,
        Bool.false_eq_true, ↓reduceIte]
    rw [List.foldlM_cons]
    cases processed : actions.processReadyHeader { name := toLower h.name, value := trim h.value } r with
    | ok s =>
      refine ⟨{ q with state := .headerLineStart }, .next rfl (ready.trans processed), fun rest => ?_⟩
      rw [List.append_assoc, scanned, scan_crlf state]
    | error e =>
      intro c rest other
      rw [List.append_assoc, scanned, scan_crlf state]
      refine scan_fail (by simp [lineMachine]) ?_ rest
      simp [lineMachine, consumeLine, other, ready, processed]

private theorem laid_next (given : ∀ h ∈ lines, IsToken h.name) {c : UInt8}
    (other : isSp c = false) (rest : Bytes) :
    ∃ d more, laid lines ++ c :: rest = d :: more ∧ isSp d = false := by
  cases lines with
  | nil => exact ⟨c, rest, rfl, other⟩
  | cons h lines =>
    have isToken_ := given h List.mem_cons_self
    obtain ⟨d, more, split⟩ := List.exists_cons_of_ne_nil isToken_.some
    refine ⟨d, more ++ (ch ':' :: h.value ++ crlf ++ (laid lines ++ c :: rest)), ?_,
      (token_facts (isToken_.token d (by simp [split]))).1⟩
    simp [laid, split]

/-- All the lines hand over their parts as one list. -/
private theorem turns_laid (at_ : AtLine actions p r)
    (given : ∀ h ∈ lines, IsToken h.name ∧ IsPlain h.value) :
    Turns actions p (laid lines)
      ((lines.flatMap parts).foldlM (fun r h => actions.processReadyHeader h r) r) := by
  induction lines generalizing p r with
  | nil => exact ⟨p, at_, fun _ => rfl⟩
  | cons h lines ih =>
    obtain ⟨isToken_, plain⟩ := given h List.mem_cons_self
    have first := turns_line at_ isToken_ plain
    have later := fun g member => given g (List.mem_cons_of_mem h member)
    have text : laid (h :: lines) = h.name ++ ch ':' :: h.value ++ crlf ++ laid lines := rfl
    rw [List.flatMap_cons, List.foldlM_append, text]
    cases result : (parts h).foldlM (fun r h => actions.processReadyHeader h r) r with
    | error e =>
      rw [result] at first
      intro c rest other
      obtain ⟨d, more, split, start⟩ := laid_next (fun g member => (later g member).1) other rest
      rw [List.append_assoc, split]
      exact first d more start
    | ok s =>
      rw [result] at first
      obtain ⟨q, at_', scanned⟩ := first
      refine (ih at_' later).of_scan fun rest => ?_
      rw [List.append_assoc, scanned]

end Lines

section Outcomes

variable {ρ : Type} {actions : LineActions ρ} {p q : HeaderLines ρ} {r : ρ}

/-- The parsers differ in nothing that is read before it is written. -/
structure Alike (p q : HeaderLines ρ) : Prop where
  state : p.state = q.state
  header : p.header = q.header
  req : p.req = q.req
  list : isNamed p.state = true → p.headerCmsList = q.headerCmsList

private theorem Alike.eq (alike : Alike p q) (named : isNamed p.state = true) : p = q := by
  obtain ⟨state, header, list, req⟩ := p
  obtain ⟨state', header', list', req'⟩ := q
  obtain ⟨rfl, rfl, rfl, same⟩ := alike
  cases same named
  rfl

private theorem lineStart_alike (p q : HeaderLines ρ) (header : p.header = q.header)
    (req : p.req = q.req) (text : Bytes) (c : UInt8) :
    Steps (fun _ => Alike) text (lineStart p c) (lineStart q c) := by
  unfold lineStart
  split
  · exact .ok ⟨rfl, header, req, by simp [isNamed]⟩
  split
  · exact .ok ⟨rfl, header, req, by simp [isNamed]⟩
  split
  · exact .error _
  · exact .ok ⟨rfl, by rw [header], req, by simp [isNamed]⟩

private theorem headerColon_alike (p q : HeaderLines ρ) (header : p.header = q.header)
    (req : p.req = q.req) (text : Bytes) (c : UInt8) :
    Steps (fun _ => Alike) text (headerColon p c) (headerColon q c) := by
  unfold headerColon
  split
  · exact .ok ⟨rfl, header, req, by simp [isNamed]⟩
  split
  · exact .error _
  · exact .ok ⟨rfl, header, req, fun _ => by rw [header]⟩

private theorem consume_alike (alike : Alike p q) (text : Bytes) (c : UInt8) :
    Steps (fun _ => Alike) text (consumeLine actions p c) (consumeLine actions q c) := by
  by_cases named : isNamed p.state = true
  · rw [alike.eq named]
    cases consumeLine actions q c with
    | error e => exact .error e
    | ok next => exact .ok ⟨rfl, rfl, rfl, fun _ => rfl⟩
  obtain ⟨state, header, list, req⟩ := p
  obtain ⟨state', header', list', req'⟩ := q
  obtain ⟨rfl, rfl, rfl, -⟩ := alike
  cases state with
  | firstHeaderLineStart =>
    exact lineStart_alike ⟨_, header, list, actions.atFirstLine req⟩ ⟨_, header, list',
      actions.atFirstLine req⟩ rfl rfl text c
  | headerName =>
    simp only [consumeLine]
    split
    · exact .ok ⟨rfl, rfl, rfl, by simp [isNamed]⟩
    split
    · split
      · exact .error _
      · exact .ok ⟨rfl, rfl, rfl, by simp [isNamed]⟩
    · exact headerColon_alike ⟨_, header, list, req⟩ ⟨_, header, list', req⟩ rfl rfl text c
  | headerColon => exact headerColon_alike ⟨_, header, list, req⟩ ⟨_, header, list', req⟩ rfl rfl text c
  | finalLf =>
    simp only [consumeLine]
    split
    · exact .error _
    · exact .ok ⟨rfl, rfl, rfl, by simp [isNamed]⟩
  | good => exact .error _
  | headerLineStart => exact absurd rfl named
  | spaceBeforeHeaderValue => exact absurd rfl named
  | headerValue => exact absurd rfl named
  | headerLf => exact absurd rfl named

variable (actions) in
private theorem scan_alike (alike : Alike p q) (text : Bytes) :
    Matches (fun _ => Alike) (scan (lineMachine actions) p text)
      (scan (lineMachine actions) q text) := by
  refine scan_matches (R := fun _ => Alike) ?_ ?_ alike
  · intro text p q alike
    simp [lineMachine, alike.state]
  · intro text p q c alike running
    exact consume_alike alike text c

/-- What is seen of a run over header lines. -/
def linesOutcome (result : Except Error (HeaderLines ρ × Bytes)) : Option (Bool × ρ × Bytes) :=
  result.toOption.map fun read => (read.1.state == .good, read.1.req, read.2)

/-- Two layouts with one result look the same once the next line begins. -/
private theorem turns_outcome {block block' : Bytes} {result result' : Except Error ρ}
    (turns : Turns actions p block result) (turns' : Turns actions p block' result')
    (same : result.toOption = result'.toOption) {c : UInt8} (other : isSp c = false) (rest : Bytes) :
    linesOutcome (scan (lineMachine actions) p (block ++ c :: rest)) =
      linesOutcome (scan (lineMachine actions) p (block' ++ c :: rest)) := by
  cases result with
  | error e =>
    cases result' with
    | error e' =>
      rw [turns c rest other, turns' c rest other]
      rfl
    | ok s' => cases same
  | ok s =>
    cases result' with
    | error e' => cases same
    | ok s' =>
      cases same
      obtain ⟨q, at_, scanned⟩ := turns
      obtain ⟨q', at_', scanned'⟩ := turns'
      have step := lineStart_alike { q with header := {}, req := s }
        { q' with header := {}, req := s } rfl rfl rest c
      rw [← at_.consume other, ← at_'.consume other] at step
      rw [scanned, scanned']
      generalize first : consumeLine actions q c = next at step
      generalize second : consumeLine actions q' c = next' at step
      cases step with
      | error e => rw [scan_fail at_.running first, scan_fail at_'.running second]
      | ok alike =>
        rw [scan_step at_.running first, scan_step at_'.running second]
        have matches_ := scan_alike actions alike rest
        generalize scan (lineMachine actions) _ rest = read at matches_ ⊢
        generalize scan (lineMachine actions) _ rest = read' at matches_ ⊢
        cases matches_ with
        | error e => rfl
        | ok rest related => simp [linesOutcome, Except.toOption, related.state, related.req]

end Outcomes

section Fields

/-- What `connection` sets. -/
def persistence : Part RequestResponseHeader (Bool × Bool) where
  get := fun c => (c.keepAlive, c.connectionUpgrade)
  put := fun b c => { c with keepAlive := b.1, connectionUpgrade := b.2 }
  get_put := fun _ _ => rfl
  put_get := fun _ => rfl

/-- What `transfer-encoding` sets. -/
def codings : Part RequestResponseHeader (List Bytes × Bool) where
  get := fun c => (c.transferEncodings, c.transferEncodingChunked)
  put := fun b c => { c with transferEncodings := b.1, transferEncodingChunked := b.2 }
  get_put := fun _ _ => rfl
  put_get := fun _ => rfl

private def connectionOption (value : Bytes) (b : Bool × Bool) : Except Error (Bool × Bool) :=
  if toLower value = str "close" then .ok (false, b.2)
  else if toLower value = str "keep-alive" then .ok (true, b.2)
  else if toLower value = str "upgrade" then .ok (b.1, true)
  else .error (.runtime "Invalid 'connection' header value")

def codingOption (value : Bytes) (b : List Bytes × Bool) : Except Error (List Bytes × Bool) :=
  if toLower value = str "chunked" then
    if !b.1.isEmpty then .error (.runtime "chunk encoding must be applied last") else .ok (b.1, true)
  else if toLower value = str "identity" then .ok b
  else .ok (b.1 ++ [toLower value], b.2)

private theorem common_connection (value : Bytes) (c : RequestResponseHeader) :
    processCommonHeader (str "connection") value c =
      some ((connectionOption value (persistence.get c)).map fun b => persistence.put b c) := by
  have others : str "connection" ≠ str "content-length" ∧ str "connection" ≠ str "transfer-encoding" ∧
      str "connection" ≠ str "content-type" := by decide
  simp only [processCommonHeader, others.1, others.2.1, others.2.2, connectionOption, ↓reduceIte]
  repeat' split
  all_goals rfl

theorem common_codings (value : Bytes) (c : RequestResponseHeader) :
    processCommonHeader (str "transfer-encoding") value c =
      some ((codingOption value (codings.get c)).map fun b => codings.put b c) := by
  have other : str "transfer-encoding" ≠ str "content-length" := by decide
  simp only [processCommonHeader, other, codingOption, codings, ↓reduceIte]
  by_cases chunked : toLower value = str "chunked"
  · by_cases some_ : (!c.transferEncodings.isEmpty) = true <;>
      simp only [chunked, some_, ↓reduceIte] <;> rfl
  · simp only [chunked, ↓reduceIte]
    split <;> rfl

private theorem common_persistence {name : Bytes} (other : name ≠ str "connection")
    (value : Bytes) (b : Bool × Bool) (c : RequestResponseHeader) :
    processCommonHeader name value (persistence.put b c) =
      (processCommonHeader name value c).map fun result => result.map (persistence.put b) := by
  simp only [processCommonHeader, persistence, other, ↓reduceIte]
  by_cases length : name = str "content-length"
  · by_cases given : c.contentLength.isSome = true <;> simp only [length, given, ↓reduceIte]
    · rfl
    · cases integerParse .uint64 value <;> rfl
  by_cases coding : name = str "transfer-encoding"
  · have apart : str "transfer-encoding" ≠ str "content-length" := by decide
    simp only [coding, apart, ↓reduceIte]
    by_cases chunked : toLower value = str "chunked"
    · by_cases some_ : (!c.transferEncodings.isEmpty) = true <;>
        simp only [chunked, some_, ↓reduceIte] <;> rfl
    · simp only [chunked, ↓reduceIte]
      split <;> rfl
  simp only [length, coding, ↓reduceIte]
  split
  · rfl
  split
  · split <;> rfl
  · rfl

theorem common_elsewhere {name : Bytes} (other : name ≠ str "transfer-encoding") (value : Bytes)
    (b : List Bytes × Bool) (c : RequestResponseHeader) :
    processCommonHeader name value (codings.put b c) =
      (processCommonHeader name value c).map fun result => result.map (codings.put b) := by
  simp only [processCommonHeader, codings, other, ↓reduceIte]
  by_cases length : name = str "content-length"
  · by_cases given : c.contentLength.isSome = true <;> simp only [length, given, ↓reduceIte]
    · rfl
    · cases integerParse .uint64 value <;> rfl
  simp only [length, ↓reduceIte]
  split
  · rfl
  split
  · split
    · rfl
    split
    · rfl
    · split <;> rfl
  split
  · split <;> rfl
  · rfl

/-- The fields of a request, and one part of those that responses have too. -/
def ofRequest {β : Type} (part : Part RequestResponseHeader β) : Part RequestHeader β where
  get := fun r => part.get r.toRequestResponseHeader
  put := fun b r => { r with toRequestResponseHeader := part.put b r.toRequestResponseHeader }
  get_put := fun b r => part.get_put b r.toRequestResponseHeader
  put_get := fun r => by rw [part.put_get]

/-- The same for a response. -/
def ofResponse {β : Type} (part : Part RequestResponseHeader β) : Part ResponseHeader β where
  get := fun r => part.get r.toRequestResponseHeader
  put := fun b r => { r with toRequestResponseHeader := part.put b r.toRequestResponseHeader }
  get_put := fun b r => part.get_put b r.toRequestResponseHeader
  put_get := fun r => by rw [part.put_get]

theorem request_acts {β : Type} {part : Part RequestResponseHeader β} {name value : Bytes}
    {act : β → Except Error β}
    (common : ∀ c, processCommonHeader name value c =
      some ((act (part.get c)).map fun b => part.put b c)) :
    (ofRequest part).Acts fun r =>
      (RequestParser.processReadyHeader { name := name, value := value } r).toOption := by
  refine ⟨fun b => (act b).toOption, fun r => ?_⟩
  simp only [RequestParser.processReadyHeader, common, ofRequest]
  cases act (part.get r.toRequestResponseHeader) <;> rfl

private theorem response_acts {β : Type} {part : Part RequestResponseHeader β} {name value : Bytes}
    {act : β → Except Error β}
    (common : ∀ c, processCommonHeader name value c =
      some ((act (part.get c)).map fun b => part.put b c)) :
    (ofResponse part).Acts fun r =>
      (ResponseParser.processReadyHeader { name := name, value := value } r).toOption := by
  refine ⟨fun b => (act b).toOption, fun r => ?_⟩
  simp only [ResponseParser.processReadyHeader, common, ofResponse]
  cases act (part.get r.toRequestResponseHeader) <;> rfl

/-- A part that no other header shares with the list of headers. -/
structure Apart {β : Type} (part : Part RequestResponseHeader β) : Prop where
  headers : ∀ b c, (part.put b c).headers = c.headers
  push :
      ∀ b c headers, part.put b { c with headers := headers } = { part.put b c with headers := headers }

theorem request_leaves {β : Type} {part : Part RequestResponseHeader β} (apart : Apart part) {h : Header}
    (common : ∀ b c, processCommonHeader h.name h.value (part.put b c) =
      (processCommonHeader h.name h.value c).map fun result => result.map (part.put b)) :
    (ofRequest part).Leaves fun r => (RequestParser.processReadyHeader h r).toOption := by
  intro b r
  simp only [RequestParser.processReadyHeader, ofRequest, common]
  cases processCommonHeader h.name h.value r.toRequestResponseHeader with
  | some result => cases result <;> rfl
  | none =>
    simp only [Option.map_none, apart.headers, ← apart.push]
    repeat' split
    all_goals rfl

private theorem response_leaves {β : Type} {part : Part RequestResponseHeader β}
    (apart : Apart part) {h : Header}
    (common : ∀ b c, processCommonHeader h.name h.value (part.put b c) =
      (processCommonHeader h.name h.value c).map fun result => result.map (part.put b)) :
    (ofResponse part).Leaves fun r => (ResponseParser.processReadyHeader h r).toOption := by
  intro b r
  simp only [ResponseParser.processReadyHeader, ofResponse, common]
  cases processCommonHeader h.name h.value r.toRequestResponseHeader with
  | some result => cases result <;> rfl
  | none =>
    simp only [Option.map_none, apart.headers, ← apart.push]
    repeat' split
    all_goals rfl

end Fields

section Runs

variable {ρ : Type} {actions : LineActions ρ} {lines lines' : List Header}

/-- Elements of a list commute with the headers of every other name. -/
def Independent (actions : LineActions ρ) : Prop :=
  ∀ g h : Header, isCmsList g.name = true → h.name ≠ g.name →
    Commute (fun r => (actions.processReadyHeader g r).toOption) fun r =>
    (actions.processReadyHeader h r).toOption

theorem request_independent : Independent RequestParser.actions := by
  rintro ⟨name, value⟩ h list other
  rcases Bool.or_eq_true_iff.mp list with same | same
  · obtain rfl := beq_iff_eq.mp same
    exact (request_acts (common_connection value)).commute
      (request_leaves ⟨fun _ _ => rfl, fun _ _ _ => rfl⟩ (common_persistence other h.value))
  · obtain rfl := beq_iff_eq.mp same
    exact (request_acts (common_codings value)).commute
      (request_leaves ⟨fun _ _ => rfl, fun _ _ _ => rfl⟩ (common_elsewhere other h.value))

theorem response_independent : Independent ResponseParser.actions := by
  rintro ⟨name, value⟩ h list other
  rcases Bool.or_eq_true_iff.mp list with same | same
  · obtain rfl := beq_iff_eq.mp same
    exact (response_acts (common_connection value)).commute
      (response_leaves ⟨fun _ _ => rfl, fun _ _ _ => rfl⟩ (common_persistence other h.value))
  · obtain rfl := beq_iff_eq.mp same
    exact (response_acts (common_codings value)).commute
      (response_leaves ⟨fun _ _ => rfl, fun _ _ _ => rfl⟩ (common_elsewhere other h.value))

private theorem parts_listed {name : Bytes} (list : isCmsList name = true) (lines : List Header) :
    (lines.flatMap parts).filter (fun h => h.name == name) =
      (elementsOf name lines).map fun value => { name := name, value := value } := by
  induction lines with
  | nil => rfl
  | cons h lines ih =>
    rw [List.flatMap_cons, List.filter_append, ih, elementsOf, elementsOf]
    by_cases same : toLower h.name = name
    · rw [List.filter_cons_of_pos (by simp [same]), List.flatMap_cons, List.map_append,
        parts, same, if_pos list]
      refine congrArg (· ++ _) (List.filter_eq_self.mpr fun g member => ?_)
      obtain ⟨value, -, rfl⟩ := List.mem_map.mp member
      simp
    · rw [List.filter_cons_of_neg (by simp [same])]
      have none : (parts h).filter (fun h => h.name == name) = [] := by
        refine List.filter_eq_nil_iff.mpr fun g member => ?_
        unfold parts at member
        split at member
        · obtain ⟨value, -, rfl⟩ := List.mem_map.mp member
          simpa using same
        · rw [List.mem_singleton.mp member]
          simpa using same
      rw [none, List.nil_append]

private theorem parts_singles (lines : List Header) :
    (lines.flatMap parts).filter (fun h => !isCmsList h.name) = (singles lines).flatMap parts := by
  induction lines with
  | nil => rfl
  | cons h lines ih =>
    rw [List.flatMap_cons, List.filter_append, ih, singles, singles]
    cases list : isCmsList (toLower h.name) with
    | true =>
      rw [List.filter_cons_of_neg (by simp [list])]
      have none : (parts h).filter (fun h => !isCmsList h.name) = [] := by
        refine List.filter_eq_nil_iff.mpr fun g member => ?_
        rw [parts, if_pos list] at member
        obtain ⟨value, -, rfl⟩ := List.mem_map.mp member
        simp [list]
      rw [none, List.nil_append]
    | false =>
      rw [List.filter_cons_of_pos (by simp [list]), List.flatMap_cons]
      have all : (parts h).filter (fun h => !isCmsList h.name) = parts h := by
        refine List.filter_eq_self.mpr fun g member => ?_
        rw [parts, if_neg (by simp [list])] at member
        rw [List.mem_singleton.mp member]
        simp [list]
      rw [all]

private theorem toOption_foldlM (steps : List Header) (r : ρ) :
    (steps.foldlM (fun r h => actions.processReadyHeader h r) r).toOption =
      steps.foldlM (fun r h => (actions.processReadyHeader h r).toOption) r := by
  induction steps generalizing r with
  | nil => rfl
  | cons h steps ih =>
    rw [List.foldlM_cons, List.foldlM_cons]
    cases actions.processReadyHeader h r with
    | error e => rfl
    | ok s => exact ih s

/-- Both layouts hand over parts that lead to the same message. -/
private theorem parts_relaid (independent : Independent actions) (relaid : Relaid lines lines') (r : ρ) :
    ((lines.flatMap parts).foldlM (fun r h => actions.processReadyHeader h r) r).toOption =
      ((lines'.flatMap parts).foldlM (fun r h => actions.processReadyHeader h r) r).toOption := by
  have swaps : ∀ name, isCmsList name = true → ∀ g h : Header, (g.name == name) = true →
    (h.name == name) = false →
      Commute (fun r => (actions.processReadyHeader g r).toOption) fun r =>
    (actions.processReadyHeader h r).toOption := by
    intro name list g h same other
    rw [← beq_iff_eq.mp same] at list other
    exact independent g h list (by simpa using other)
  have connection : isCmsList (str "connection") = true := by decide
  have codings : isCmsList (str "transfer-encoding") = true := by decide
  rw [toOption_foldlM, toOption_foldlM]
  refine foldlM_regroup (swaps (str "connection") connection) ?_
    (foldlM_regroup (swaps (str "transfer-encoding") codings) ?_ ?_) r
  · rw [parts_listed connection, parts_listed connection, relaid.connection]
  · have kept : ∀ lines : List Header,
      ((lines.flatMap parts).filter fun h => !(h.name == str "connection")).filter
        (fun h => h.name == str "transfer-encoding") = (lines.flatMap parts).filter fun h =>
      h.name == str "transfer-encoding" := by
      intro lines
      rw [List.filter_filter]
      refine List.filter_congr fun h _ => ?_
      by_cases same : h.name = str "transfer-encoding"
      · rw [same]
        decide
      · simp [same]
    rw [kept, kept, parts_listed codings, parts_listed codings, relaid.codings]
  · have left : ∀ lines : List Header,
      ((lines.flatMap parts).filter fun h => !(h.name == str "connection")).filter
        (fun h => !(h.name == str "transfer-encoding")) = (singles lines).flatMap parts := by
      intro lines
      rw [List.filter_filter, ← parts_singles]
      refine List.filter_congr fun h _ => ?_
      rw [isCmsList, Bool.not_or, Bool.and_comm]
    rw [left, left, relaid.singles]
    exact fun _ => rfl

/-- No byte of the next line is read. -/
def BetweenLines (state : LineState) : Prop := state = .firstHeaderLineStart ∨ state = .headerLineStart

/-- A parser between lines has nothing of the next one. -/
private structure Between (p : HeaderLines ρ) : Prop where
  state : BetweenLines p.state
  fresh : p.state = .firstHeaderLineStart → p.header = {}

/-- The lines that follow may have either layout. -/
private theorem relaid_lines (independent : Independent actions) (relaid : Relaid lines lines')
    (given : ∀ h ∈ lines ++ lines', IsToken h.name ∧ IsPlain h.value) {p : HeaderLines ρ}
    (between : Between p) {c : UInt8} (other : isSp c = false) (rest : Bytes) :
    linesOutcome (scan (lineMachine actions) p (laid lines ++ c :: rest)) =
      linesOutcome (scan (lineMachine actions) p (laid lines' ++ c :: rest)) := by
  have first := fun h member => given h (List.mem_append_left lines' member)
  have second := fun h member => given h (List.mem_append_right lines member)
  have taken : ∀ r, AtLine actions p r →
    linesOutcome (scan (lineMachine actions) p (laid lines ++ c :: rest)) =
      linesOutcome (scan (lineMachine actions) p (laid lines' ++ c :: rest)) :=
    fun r at_ => turns_outcome (turns_laid at_ first) (turns_laid at_ second)
      (parts_relaid independent relaid r) other rest
  rcases between.state with state | state
  · exact taken _ (.first state (between.fresh state))
  · cases ready : readyHeader actions p with
    | ok r => exact taken r (.next state ready)
    | error e =>
      -- the line before is refused as soon as either layout begins
      have refused : ∀ d more, isSp d = false → scan (lineMachine actions) p (d :: more) = .error e := by
        intro d more start
        refine scan_fail (by simp [lineMachine, state]) ?_ more
        simp [lineMachine, consumeLine, state, start, ready]
      obtain ⟨d, more, split, start⟩ := laid_next (fun h member => (first h member).1) other rest
      obtain ⟨d', more', split', start'⟩ := laid_next (fun h member => (second h member).1) other rest
      rw [split, split', refused d more start, refused d' more' start']

end Runs

section Parsers

variable {lines lines' : List Header} {c : UInt8}

/-- What a caller of a parser sees: whether the header is complete, its fields and the
bytes behind it, or a rejection. -/
def outcome {σ ρ : Type} (good : σ → Bool) (req : σ → ρ) (result : Except Error (σ × Bytes)) :
    Option (Bool × ρ × Bytes) :=
  result.toOption.map fun read => (good read.1, req read.1, read.2)

def requestOutcome (text : Bytes) : Option (Bool × RequestHeader × Bytes) :=
  outcome RequestParser.isGood RequestParser.req (RequestParser.parse {} text)

def responseOutcome (text : Bytes) : Option (Bool × ResponseHeader × Bytes) :=
  outcome ResponseParser.isGood ResponseParser.req (ResponseParser.parse {} text)

/-- A parser that is past the first line, and not at its limit, is seen as the machine of
header lines. -/
private theorem outcome_lines {σ ρ : Type} {actions : LineActions ρ} {m n : Machine σ UInt8 Error}
    (limited : Limited m n) (reader : LineReader n actions)
    (kept : ∀ q k, reader.lines (limited.set q k) = reader.lines q) {p : σ} {text : Bytes}
    (state : reader.behind p) (fits : scan m p text ≠ .error limited.tooLong) :
    outcome m.good (fun q => (reader.lines q).req) (scan m p text) =
      linesOutcome (scan (lineMachine actions) (reader.lines p) text) := by
  have matches_ := reader.scan_limited limited kept state fits
  generalize scan m p text = result at matches_
  generalize scan (lineMachine actions) (reader.lines p) text = read at matches_
  cases matches_ with
  | error e => rfl
  | ok rest same => simp [outcome, linesOutcome, Except.toOption, same.1, same.2, lineMachine]

private theorem request_lines {p : RequestParser} (state : p.state = .headerLines) {text : Bytes}
    (fits : p.parse text ≠ .error tooLong) :
    outcome RequestParser.isGood RequestParser.req (p.parse text) =
      linesOutcome (scan (lineMachine RequestParser.actions) p.lines text) :=
  outcome_lines RequestTextProofs.limited RequestTextProofs.reader (fun _ _ => rfl) state fits

private theorem response_lines {p : ResponseParser} (state : p.state = .headerLines) {text : Bytes}
    (fits : p.parse text ≠ .error tooLong) :
    outcome ResponseParser.isGood ResponseParser.req (p.parse text) =
      linesOutcome (scan (lineMachine ResponseParser.actions) p.lines text) :=
  outcome_lines ResponseTextProofs.limited ResponseTextProofs.reader (fun _ _ => rfl) state fits

/-- Whatever stands before and behind some header lines, they may be replaced by lines
that give each list the same elements and are the same otherwise. -/
theorem lists_relaid (given : ∀ h ∈ lines ++ lines', IsToken h.name ∧ IsPlain h.value)
    (relaid : Relaid lines lines') (other : isSp c = false) (rest : Bytes) :
    (∀ front p, RequestParser.parse {} front = .ok (p, []) → p.state = .headerLines →
      BetweenLines p.lines.state →
      RequestParser.parse {} (front ++ (laid lines ++ c :: rest)) ≠ .error tooLong →
      RequestParser.parse {} (front ++ (laid lines' ++ c :: rest)) ≠ .error tooLong →
      requestOutcome (front ++ (laid lines ++ c :: rest)) =
        requestOutcome (front ++ (laid lines' ++ c :: rest))) ∧
    ∀ front p, ResponseParser.parse {} front = .ok (p, []) → p.state = .headerLines →
      BetweenLines p.lines.state →
      ResponseParser.parse {} (front ++ (laid lines ++ c :: rest)) ≠ .error tooLong →
      ResponseParser.parse {} (front ++ (laid lines' ++ c :: rest)) ≠ .error tooLong →
      responseOutcome (front ++ (laid lines ++ c :: rest)) =
        responseOutcome (front ++ (laid lines' ++ c :: rest)) := by
  constructor
  · intro front p parsed state between fits fits'
    have behind : ∀ text, RequestParser.parse {} (front ++ text) = p.parse text := by
      intro text
      have split := scan_append RequestParser.machine {} front text
      rw [show scan RequestParser.machine {} front = _ from parsed] at split
      exact split
    have fresh : Between p.lines :=
      ⟨between, fun first => congrArg HeaderLines.header (request_fresh parsed fun _ => first).1⟩
    rw [behind] at fits fits'
    rw [requestOutcome, requestOutcome, behind, behind, request_lines state fits,
      request_lines state fits']
    exact relaid_lines request_independent relaid given fresh other rest
  · intro front p parsed state between fits fits'
    have behind : ∀ text, ResponseParser.parse {} (front ++ text) = p.parse text := by
      intro text
      have split := scan_append ResponseParser.machine {} front text
      rw [show scan ResponseParser.machine {} front = _ from parsed] at split
      exact split
    have fresh : Between p.lines :=
      ⟨between, fun first => congrArg HeaderLines.header (response_fresh parsed fun _ => first).1⟩
    rw [behind] at fits fits'
    rw [responseOutcome, responseOutcome, behind, behind, response_lines state fits,
      response_lines state fits']
    exact relaid_lines response_independent relaid given fresh other rest

theorem lists_relaid_interleaved :
    let lines : List Header :=
      [⟨str "Connection", str " upgrade, close"⟩, ⟨str "x-id", str " 7"⟩,
        ⟨str "transfer-encoding", str " chunked"⟩]
    let lines' : List Header :=
      [⟨str "transfer-encoding", str ",chunked , "⟩, ⟨str "connection", str "upgrade"⟩,
        ⟨str "x-id", str " 7"⟩,
      ⟨str "CONNECTION", str "  ,, close"⟩]
    requestOutcome (str "GET / HTTP/1.1" ++ crlf ++ (laid lines ++ crlf)) =
        requestOutcome (str "GET / HTTP/1.1" ++ crlf ++ (laid lines' ++ crlf)) ∧
      responseOutcome (str "HTTP/1.1 200 OK" ++ crlf ++ (laid lines ++ crlf)) =
        responseOutcome (str "HTTP/1.1 200 OK" ++ crlf ++ (laid lines' ++ crlf)) := by
  intro lines lines'
  let p : RequestParser :=
    { state := .headerLines, totalLength := 16
      lines := { req := { method := str "GET", path := str "/" } } }
  let q : ResponseParser :=
    { state := .headerLines, totalLength := 17
      lines := { req := { status := 200, statusText := str "OK" } } }
  have request : RequestParser.parse {} (str "GET / HTTP/1.1" ++ crlf) = .ok (p, []) := rfl
  have response : ResponseParser.parse {} (str "HTTP/1.1 200 OK" ++ crlf) = .ok (q, []) := rfl
  have given : ∀ h ∈ lines ++ lines', IsToken h.name ∧ IsPlain h.value := by
    have all : ∀ h ∈ lines ++ lines', h.name ≠ [] ∧ (∀ c ∈ h.name, isToken c = true) ∧
        ∀ c ∈ h.value, isCtl c = false := by
      decide +kernel
    exact fun h member => ⟨⟨(all h member).1, (all h member).2.1⟩, (all h member).2.2⟩
  have relaid : Relaid lines lines' := ⟨by decide +kernel, by decide +kernel, by decide +kernel⟩
  obtain ⟨requests, responses⟩ := lists_relaid (c := 13) given relaid (by decide) [10]
  have read : ∀ text : Bytes, (RequestParser.parse {} text).toOption.isSome = true →
      RequestParser.parse {} text ≠ .error tooLong := by
    intro text parsed failed
    rw [failed] at parsed
    cases parsed
  have read' : ∀ text : Bytes, (ResponseParser.parse {} text).toOption.isSome = true →
      ResponseParser.parse {} text ≠ .error tooLong := by
    intro text parsed failed
    rw [failed] at parsed
    cases parsed
  constructor
  · exact requests _ p request rfl (.inl rfl) (read _ (by decide +kernel)) (read _ (by decide +kernel))
  · exact responses _ q response rfl (.inl rfl) (read' _ (by decide +kernel))
      (read' _ (by decide +kernel))

end Parsers

end Crablib.ListLayoutProofs
