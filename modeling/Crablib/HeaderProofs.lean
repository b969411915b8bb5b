import Crablib.Http.RequestParser
import Crablib.Http.ResponseParser
import Mathlib.Data.Bool.AllAny

/-! Header lines, from their text to the fields they set. A line is read whole and
handed over when the next one starts, so a parser between lines stands for the
message it will have then. Texts that take a message to another one compose. -/
namespace Crablib.HeaderProofs
open Http Scanner

variable {ρ : Type} {actions : LineActions ρ} {p : HeaderLines ρ} {r : ρ}

section Characters

@[simp] theorem isSp_space : isSp 32 = true := rfl

@[simp] theorem isSp_blank : isSp (ch ' ') = true := rfl

@[simp] theorem isSp_cr : isSp 13 = false := rfl

@[simp] theorem isSp_lf : isSp 10 = false := rfl

@[simp] theorem isCtl_space : isCtl 32 = false := rfl

/-- A header name as it is kept: a token in lower case. -/
structure IsName (name : Bytes) : Prop where
  some : name ≠ []
  token : ∀ c ∈ name, isToken c = true
  lower : ∀ c ∈ name, lowerChar c = c

instance (name : Bytes) : Decidable (IsName name) :=
  decidable_of_iff
    (name ≠ [] ∧ name.all isToken = true ∧ (name.all fun c => decide (lowerChar c = c)) = true)
    ⟨fun h => ⟨h.1, by simpa using h.2.1, by simpa using h.2.2⟩,
      fun h => ⟨h.some, by simpa using h.token, by simpa using h.lower⟩⟩

/-- A value that comes back as it was sent: no control characters, no spaces at its
ends. -/
structure IsValue (value : Bytes) : Prop where
  plain : ∀ c ∈ value, isCtl c = false
  first : value.head? ≠ some 32
  last : value.getLast? ≠ some 32

instance (value : Bytes) : Decidable (IsValue value) :=
  decidable_of_iff
    ((value.all fun c => !isCtl c) = true ∧ value.head? ≠ some 32 ∧ value.getLast? ≠ some 32)
    ⟨fun h => ⟨by simpa using h.1, h.2.1, h.2.2⟩, fun h => ⟨by simpa using h.plain, h.first, h.last⟩⟩

theorem sp_of_plain {c : UInt8} (plain : isCtl c = false) (space : c ≠ 32) : isSp c = false := by
  have tab : c ≠ 9 := by
    rintro rfl
    exact absurd plain (by decide)
  simp [isSp, space, tab]

theorem token_facts {c : UInt8} (token : isToken c = true) :
    isSp c = false ∧ c ≠ ch ':' ∧ isCtl c = false ∧ c ≠ 13 ∧ c ≠ 10 := by
  revert token
  refine byte_cases (P := fun c => isToken c = true → isSp c = false ∧ c ≠ ch ':' ∧
    isCtl c = false ∧ c ≠ 13 ∧ c ≠ 10) ?_ c
  decide +kernel

theorem trimRight_value {value : Bytes} (ok : IsValue value) : trimRight value = value := by
  unfold trimRight
  rcases List.eq_nil_or_concat value with rfl | ⟨front, last, rfl⟩
  · rfl
  · have sp : isSp last = false := by
      have other : last ≠ 32 := by simpa using ok.last
      have plain := ok.plain last (by simp)
      exact sp_of_plain plain other
    simp [sp]

end Characters

section Fields

/-- No header line changes the version, and only `connection` says something about
persistence. -/
theorem processCommonHeader_keeps {name value : Bytes} {req next : RequestResponseHeader}
    (processed : processCommonHeader name value req = some (.ok next)) :
    next.httpVersionMajor = req.httpVersionMajor ∧ next.httpVersionMinor = req.httpVersionMinor ∧
      (name ≠ str "connection" → next.keepAlive = req.keepAlive) := by
  unfold processCommonHeader at processed
  simp only at processed
  repeat' split at processed
  all_goals
    cases processed
    try exact ⟨rfl, rfl, fun _ => rfl⟩
  all_goals exact ⟨rfl, rfl, fun other => absurd ‹name = str "connection"› other⟩

end Fields

section Lines

/-- What no header line touches survives all of them. -/
theorem consumeLine_keeps {P : ρ → Prop} (first : ∀ r, P r → P (actions.atFirstLine r))
    (process : ∀ h r s, P r → actions.processReadyHeader h r = .ok s → P s) {p q : HeaderLines ρ}
    {c : UInt8} (holds : P p.req) (consumed : consumeLine actions p c = .ok q) : P q.req := by
  have ready : ∀ r, readyHeader actions p = .ok r → P r := by
    intro r done
    simp only [readyHeader] at done
    split at done
    · cases done
      exact holds
    · exact process _ _ _ holds done
  have start : ∀ p' : HeaderLines ρ, P p'.req → lineStart p' c = .ok q → P q.req := by
    intro p' holds' done
    unfold lineStart at done
    repeat' split at done
    all_goals cases done
    all_goals exact holds'
  have colon : headerColon p c = .ok q → P q.req := by
    intro done
    unfold headerColon at done
    repeat' split at done
    all_goals cases done
    all_goals exact holds
  have value : headerValue actions p c = .ok q → P q.req := by
    intro done
    unfold headerValue at done
    split at done
    · cases done
      exact holds
    · split at done
      · cases done
        exact holds
      · split at done
        · cases done
        · split at done
          · split at done
            · cases done
            · rename_i r handed
              cases done
              exact ready r handed
          · cases done
            exact holds
  unfold consumeLine at consumed
  split at consumed
  · exact start _ (first _ holds) consumed
  · split at consumed
    · cases consumed
      exact holds
    · split at consumed
      · cases consumed
      · rename_i r done
        exact start _ (ready r done) consumed
  · repeat' split at consumed
    all_goals first | exact colon consumed | (cases consumed; exact holds) | cases consumed
  · exact colon consumed
  · split at consumed
    · cases consumed
      exact holds
    · exact value consumed
  · exact value consumed
  · split at consumed <;> cases consumed
    exact holds
  · split at consumed <;> cases consumed
    exact holds
  · cases consumed

/-- The machine that reads header lines. -/
def lineMachine (actions : LineActions ρ) : Machine (HeaderLines ρ) UInt8 Error :=
  ⟨consumeLine actions, fun p => p.state == .good⟩

/-- A parser that reads header lines behind its first line. -/
structure LineReader {σ : Type} (n : Machine σ UInt8 Error) (actions : LineActions ρ) where
  behind : σ → Prop
  lines : σ → HeaderLines ρ
  set : σ → HeaderLines ρ → σ
  set_lines : ∀ s, set s (lines s) = s
  lines_set : ∀ s l, lines (set s l) = l
  set_set : ∀ s l l', set (set s l) l' = set s l'
  behind_set : ∀ {s}, behind s → ∀ l, behind (set s l)
  good : ∀ {s}, behind s → n.good s = (lineMachine actions).good (lines s)
  consume : ∀ {s}, behind s → ∀ c,
    n.consume s c = (consumeLine actions (lines s) c).map (set s)

namespace LineReader

variable {σ : Type} {n : Machine σ UInt8 Error} (reader : LineReader n actions) {s t : σ}
  {l : HeaderLines ρ} {text rest : Bytes}

/-- Behind the first line the parser is the one of header lines. -/
def hom (state : reader.behind s) : Hom (lineMachine actions) n where
  map := reader.set s
  good := fun l => by rw [reader.good (reader.behind_set state l), reader.lines_set]
  consume := fun l c => by
    rw [reader.consume (reader.behind_set state l), reader.lines_set]
    show _ = (consumeLine actions l c).map _
    cases consumeLine actions l c with
    | error e => rfl
    | ok next => simp only [Except.map, reader.set_set]

theorem scan_lines (state : reader.behind s) (text : Bytes) :
    scan n s text =
      (scan (lineMachine actions) (reader.lines s) text).map fun read =>
      (reader.set s read.1, read.2) := by
  have mapped := (reader.hom state).scan_map (reader.lines s) text
  have start : (reader.hom state).map (reader.lines s) = s := reader.set_lines s
  rwa [start] at mapped

include reader in
theorem scan_ok (state : reader.behind s)
    (scanned : scan (lineMachine actions) (reader.lines s) text = .ok (l, rest)) :
    scan n s text = .ok (reader.set s l, rest) := by
  rw [reader.scan_lines state, scanned]
  rfl

include reader in
theorem scan_error (state : reader.behind s) {e : Error}
    (scanned : scan (lineMachine actions) (reader.lines s) text = .error e) :
    scan n s text = .error e := by
  rw [reader.scan_lines state, scanned]
  rfl

include reader in
theorem of_scan (state : reader.behind s) (scanned : scan n s text = .ok (t, rest)) :
    t = reader.set s (reader.lines t) ∧
      scan (lineMachine actions) (reader.lines s) text = .ok (reader.lines t, rest) := by
  have start : (reader.hom state).map (reader.lines s) = s := reader.set_lines s
  rw [← start] at scanned
  obtain ⟨l, rfl, read⟩ := (reader.hom state).of_scan scanned
  have here : reader.lines (reader.set s l) = l := reader.lines_set s l
  exact ⟨(congrArg (reader.set s) here).symm, by rw [hom, here]; exact read⟩

/-- Within its limit on the length a parser reads header lines as their machine does. -/
theorem scan_limited {m : Machine σ UInt8 Error} (limited : Limited m n)
    (kept : ∀ s k, reader.lines (limited.set s k) = reader.lines s) (state : reader.behind s)
    (fits : scan m s text ≠ .error limited.tooLong) :
    Matches (fun _ t l => reader.lines t = l ∧ m.good t = (lineMachine actions).good l) (scan m s text)
      (scan (lineMachine actions) (reader.lines s) text) := by
  have within := (limited.scan_cases s text).resolve_left fits
  rw [reader.scan_lines state] at within
  generalize scan m s text = result at within
  generalize scan (lineMachine actions) (reader.lines s) text = read at within ⊢
  cases read with
  | error e =>
    cases within
    exact .error e
  | ok read =>
    obtain ⟨l, rest⟩ := read
    cases within with
    | ok _ related =>
      obtain ⟨k, rfl⟩ := related
      refine .ok rest ⟨by rw [kept, reader.lines_set], ?_⟩
      rw [limited.good, limited.good_set, reader.good (reader.behind_set state l), reader.lines_set]

end LineReader

/-- The parser is at the start of a line, and the message is `r` once the line is
seen not to continue the last one. -/
inductive AtLine (actions : LineActions ρ) : HeaderLines ρ → ρ → Prop where
  | first {p : HeaderLines ρ} (state : p.state = .firstHeaderLineStart) (fresh : p.header = {}) :
      AtLine actions p (actions.atFirstLine p.req)
  | next {p : HeaderLines ρ} {r : ρ} (state : p.state = .headerLineStart)
      (ready : readyHeader actions p = .ok r) : AtLine actions p r

theorem AtLine.running (at_ : AtLine actions p r) : (lineMachine actions).good p = false := by
  cases at_ with
  | first state fresh => simp [lineMachine, state]
  | next state ready => simp [lineMachine, state]

theorem AtLine.consume (at_ : AtLine actions p r) {c : UInt8} (other : isSp c = false) :
    consumeLine actions p c = lineStart { p with header := {}, req := r } c := by
  cases at_ with
  | first state fresh =>
    simp only [consumeLine, state]
    rw [← fresh]
  | next state ready => simp [consumeLine, state, other, ready]

/-- The empty line ends the header. -/
theorem scan_end (at_ : AtLine actions p r) (rest : Bytes) :
    scan (lineMachine actions) p (crlf ++ rest) =
      .ok ({ p with state := .good, header := {}, req := r }, rest) := by
  have first :
      (lineMachine actions).consume p 13 = .ok { p with state := .finalLf, header := {}, req := r } := by
    simp [lineMachine, at_.consume (c := 13) (by decide), lineStart]
  have second : (lineMachine actions).consume { p with state := .finalLf, header := {}, req := r } 10 =
      .ok { p with state := .good, header := {}, req := r } := by
    simp [lineMachine, consumeLine]
  rw [crlf, List.cons_append, List.cons_append, List.nil_append, scan_step at_.running first,
    scan_step (by simp [lineMachine]) second, scan_good (by simp [lineMachine])]

private theorem scan_name (state : p.state = .headerName) {name : Bytes}
    (token : ∀ c ∈ name, isToken c = true) (rest : Bytes) :
    scan (lineMachine actions) p (name ++ rest) =
      scan (lineMachine actions) { p with header.name := p.header.name ++ toLower name } rest := by
  induction name generalizing p with
  | nil => simp [toLower]
  | cons c name ih =>
    obtain ⟨sp, colon, -⟩ := token_facts (token c List.mem_cons_self)
    have consumed :
        (lineMachine actions).consume p c =
        .ok { p with header.name := p.header.name ++ [lowerChar c] } := by
      simp [lineMachine, consumeLine, state, sp, colon, token c List.mem_cons_self]
    rw [List.cons_append, scan_step (by simp [lineMachine, state]) consumed,
      ih (p := { p with header.name := p.header.name ++ [lowerChar c] }) state fun d member =>
      token d (List.mem_cons_of_mem _ member)]
    simp [toLower]

/-- Characters that are collected into a value. -/
def Collected (p : HeaderLines ρ) (value : Bytes) : Prop :=
  (∀ c ∈ value, isCtl c = false) ∧ (p.headerCmsList = true → ch ',' ∉ value)

private theorem headerValue_push (actions : LineActions ρ) (p : HeaderLines ρ) {c : UInt8}
    (plain : isCtl c = false) (comma : p.headerCmsList = true → c ≠ ch ',') :
    headerValue actions p c =
      .ok { p with state := .headerValue, header.value := p.header.value ++ [c] } := by
  have cr : c ≠ 13 := by
    rintro rfl
    exact absurd plain (by decide)
  have lf : c ≠ 10 := by
    rintro rfl
    exact absurd plain (by decide)
  have other : (p.headerCmsList && c == ch ',') = false := by
    cases list : p.headerCmsList with
    | false => rfl
    | true => simpa using comma list
  simp [headerValue, cr, lf, plain, other]

theorem scan_more (state : p.state = .headerValue) {value : Bytes}
    (collected : Collected p value) (rest : Bytes) :
    scan (lineMachine actions) p (value ++ rest) =
      scan (lineMachine actions) { p with header.value := p.header.value ++ value } rest := by
  induction value generalizing p with
  | nil => simp
  | cons c value ih =>
    have consumed :
        (lineMachine actions).consume p c = .ok { p with header.value := p.header.value ++ [c] } := by
      have push := headerValue_push actions p (collected.1 c List.mem_cons_self)
        fun list same => collected.2 list (by simp [same])
      simp only [lineMachine, consumeLine, state, push]
    rw [List.cons_append, scan_step (by simp [lineMachine, state]) consumed,
      ih (p := { p with header.value := p.header.value ++ [c] }) state
        ⟨fun d member => collected.1 d (List.mem_cons_of_mem _ member), fun list member =>
          collected.2 list (List.mem_cons_of_mem _ member)⟩]
    simp

/-- A value behind its space is collected whole. -/
theorem scan_value (state : p.state = .spaceBeforeHeaderValue)
    (empty : p.header.value = []) {value : Bytes} (some_ : value ≠ [])
    (first : value.head? ≠ some 32) (collected : Collected p value) (rest : Bytes) :
    scan (lineMachine actions) p (value ++ rest) =
      scan (lineMachine actions) { p with state := .headerValue, header.value := value } rest := by
  obtain ⟨c, more, rfl⟩ := List.exists_cons_of_ne_nil some_
  have plain := collected.1 c List.mem_cons_self
  have sp : isSp c = false := by
    have other : c ≠ 32 := by simpa using first
    exact sp_of_plain plain other
  have consumed :
      (lineMachine actions).consume p c = .ok { p with state := .headerValue, header.value := [c] } := by
    have push := headerValue_push actions p plain fun list same => collected.2 list (by simp [same])
    simp only [lineMachine, consumeLine, state, sp, push, empty, Bool.false_eq_true,
      ↓reduceIte, List.nil_append]
  rw [List.cons_append, scan_step (by simp [lineMachine, state]) consumed,
    scan_more (p := { p with state := .headerValue, header.value := [c] }) rfl
      ⟨fun d member => collected.1 d (List.mem_cons_of_mem _ member), fun list member =>
        collected.2 list (List.mem_cons_of_mem _ member)⟩]
  rfl

/-- The end of a line. -/
theorem scan_crlf (state : p.state = .headerValue ∨ p.state = .spaceBeforeHeaderValue) (rest : Bytes) :
    scan (lineMachine actions) p (crlf ++ rest) =
      scan (lineMachine actions) { p with state := .headerLineStart } rest := by
  have first : (lineMachine actions).consume p 13 = .ok { p with state := .headerLf } := by
    have end_ : headerValue actions p 13 = .ok { p with state := .headerLf } := by simp [headerValue]
    rcases state with state | state
    · simp only [lineMachine, consumeLine, state, end_]
    · simp only [lineMachine, consumeLine, state, isSp_cr, end_, Bool.false_eq_true, ↓reduceIte]
  have second : (lineMachine actions).consume { p with state := .headerLf } 10 =
      .ok { p with state := .headerLineStart } := by
    simp [lineMachine, consumeLine]
  have running : (lineMachine actions).good p = false := by
    rcases state with state | state <;> simp [lineMachine, state]
  rw [crlf, List.cons_append, List.cons_append, List.nil_append, scan_step running first,
    scan_step (by simp [lineMachine]) second]

/-- The name of a line and its colon. -/
theorem scan_colon (at_ : AtLine actions p r) {name : Bytes} (some_ : name ≠ [])
    (token : ∀ c ∈ name, isToken c = true) (rest : Bytes) :
    scan (lineMachine actions) p (name ++ ch ':' :: rest) =
      scan (lineMachine actions)
        { p with
          state := .spaceBeforeHeaderValue
          header := { name := toLower name }
          headerCmsList := isCmsList (toLower name)
          req := r } rest := by
  obtain ⟨c, more, rfl⟩ := List.exists_cons_of_ne_nil some_
  have isToken_ := token c List.mem_cons_self
  obtain ⟨sp, -, ctl, cr, lf⟩ := token_facts isToken_
  have first : (lineMachine actions).consume p c =
      .ok { p with state := .headerName, header := { name := [lowerChar c] }, req := r } := by
    simp only [lineMachine, at_.consume sp, lineStart, cr, lf, isToken_]
    rfl
  have lower : toLower (c :: more) = lowerChar c :: toLower more := rfl
  have colon : (lineMachine actions).consume
      { p with state := .headerName, header := { name := toLower (c :: more) }, req := r } (ch ':') =
      .ok { p with
        state := .spaceBeforeHeaderValue
        header := { name := toLower (c :: more) }
        headerCmsList := isCmsList (toLower (c :: more))
        req := r } := by
    have sp : isSp (ch ':') = false := by decide
    simp [lineMachine, consumeLine, sp, headerColon]
  rw [List.cons_append, scan_step at_.running first,
    scan_name (p := { p with state := .headerName, header := { name := [lowerChar c] }, req := r }) rfl
      (fun d member => token d (List.mem_cons_of_mem _ member))]
  exact scan_step (by simp [lineMachine]) colon _

/-- The same with a space behind the colon. -/
theorem scan_start (at_ : AtLine actions p r) {name : Bytes} (some_ : name ≠ [])
    (token : ∀ c ∈ name, isToken c = true) (rest : Bytes) :
    scan (lineMachine actions) p (name ++ (str ": " ++ rest)) =
      scan (lineMachine actions)
        { p with
          state := .spaceBeforeHeaderValue
          header := { name := toLower name }
          headerCmsList := isCmsList (toLower name)
          req := r } rest := by
  have text : str ": " ++ rest = ch ':' :: ch ' ' :: rest := rfl
  rw [text, scan_colon at_ some_ token]
  exact scan_step (by simp [lineMachine]) (by simp [lineMachine, consumeLine]) rest

private theorem IsName.toLower {name : Bytes} (ok : IsName name) : toLower name = name :=
  (List.map_congr_left ok.lower).trans (List.map_id' name)

/-- The same for a name in lower case. -/
private theorem scan_isName (at_ : AtLine actions p r) {name : Bytes} (ok : IsName name) (rest : Bytes) :
    scan (lineMachine actions) p (name ++ (str ": " ++ rest)) =
      scan (lineMachine actions)
        { p with state := .spaceBeforeHeaderValue, header := { name := name },
                 headerCmsList := isCmsList name, req := r } rest := by
  rw [scan_start at_ ok.some ok.token, ok.toLower]

/-- A text between lines takes the message from `r` to `s`. -/
def Reads (actions : LineActions ρ) (text : Bytes) (r s : ρ) : Prop :=
  ∀ p, AtLine actions p r → ∃ q, AtLine actions q s ∧
    ∀ rest, scan (lineMachine actions) p (text ++ rest) = scan (lineMachine actions) q rest

theorem reads_nil (r : ρ) : Reads actions [] r r := fun p at_ => ⟨p, at_, fun _ => rfl⟩

theorem Reads.trans {first second : Bytes} {s t : ρ} (front : Reads actions first r s)
    (back : Reads actions second s t) :
    Reads actions (first ++ second) r t := by
  intro p at_
  obtain ⟨q, at_', scanned⟩ := front p at_
  obtain ⟨o, at_'', scanned'⟩ := back q at_'
  exact ⟨o, at_'', fun rest => by rw [List.append_assoc, scanned, scanned']⟩

/-- A value that comes with its name in one piece: the two list headers take no
comma and nothing empty. -/
structure IsLine (name value : Bytes) : Prop where
  isName : IsName name
  isValue : IsValue value
  list : isCmsList name = true → value ≠ [] ∧ ch ',' ∉ value

instance (name value : Bytes) : Decidable (IsLine name value) :=
  decidable_of_iff (IsName name ∧ IsValue value ∧ (isCmsList name = true → value ≠ [] ∧ ch ',' ∉ value))
    ⟨fun h => ⟨h.1, h.2.1, h.2.2⟩, fun h => ⟨h.isName, h.isValue, h.list⟩⟩

/-- A ready header that is no empty list element is handed over as it is. -/
private theorem ready_of_value {name value : Bytes} (ok : IsValue value)
    (list : p.headerCmsList = true → value ≠ []) (header : p.header = { name := name, value := value }) :
    readyHeader actions p = actions.processReadyHeader { name := name, value := value } p.req := by
  have counts : (p.headerCmsList && value.isEmpty) = false := by
    cases cms : p.headerCmsList with
    | false => rfl
    | true => simpa using list cms
  simp only [readyHeader, header, trimRight_value ok, counts, Bool.false_eq_true, ↓reduceIte]

/-- One line. -/
theorem reads_line {name value : Bytes} {s : ρ} (ok : IsLine name value)
    (processed : actions.processReadyHeader { name := name, value := value } r = .ok s) :
    Reads actions (line name value) r s := by
  intro p at_
  refine ⟨{ p with
    state := .headerLineStart
    header := { name := name, value := value }
    headerCmsList := isCmsList name
    req := r }, .next rfl ?_, fun rest => ?_⟩
  · rw [ready_of_value ok.isValue (fun list => (ok.list list).1) rfl]
    exact processed
  · have text : line name value ++ rest = name ++ (str ": " ++ (value ++ (crlf ++ rest))) := by
      simp [line]
    rw [text, scan_isName at_ ok.isName]
    by_cases none : value = []
    · subst none
      exact scan_crlf (.inr rfl) rest
    · rw [scan_value rfl rfl none ok.isValue.first ⟨ok.isValue.plain, fun list => (ok.list list).2⟩]
      exact scan_crlf (.inl rfl) rest

/-- A line that is left out when its value is empty. -/
theorem reads_optionalLine {name value : Bytes} {s : ρ} (ok : IsLine name value)
    (empty : value = [] → s = r)
    (processed : value ≠ [] → actions.processReadyHeader { name := name, value := value } r = .ok s) :
    Reads actions (optionalLine name value) r s := by
  unfold optionalLine
  by_cases none : value = []
  · subst none
    rw [empty rfl]
    exact reads_nil r
  · have some_ : value.isEmpty = false := by simpa using none
    simp only [some_, Bool.false_eq_true, ↓reduceIte]
    exact reads_line ok (processed none)

/-- Lines, one after the other. -/
theorem reads_lines {headers : List Header} {s : ρ} (ok : ∀ h ∈ headers, IsLine h.name h.value)
    (processed : headers.foldlM (fun r h => actions.processReadyHeader h r) r = .ok s) :
    Reads actions (headers.flatMap fun h => line h.name h.value) r s := by
  induction headers generalizing r with
  | nil =>
    cases processed
    exact reads_nil _
  | cons h headers ih =>
    rw [List.foldlM_cons] at processed
    obtain ⟨mid, first, later⟩ := bind_eq_ok.mp processed
    rw [List.flatMap_cons]
    exact (reads_line (ok h List.mem_cons_self) first).trans
      (ih (fun g member => ok g (List.mem_cons_of_mem _ member)) later)

/-- The elements of a comma-separated list. -/
structure IsElement (value : Bytes) : Prop where
  some : value ≠ []
  isValue : IsValue value
  comma : ch ',' ∉ value

instance (value : Bytes) : Decidable (IsElement value) :=
  decidable_of_iff (value ≠ [] ∧ IsValue value ∧ ch ',' ∉ value)
    ⟨fun h => ⟨h.1, h.2.1, h.2.2⟩, fun h => ⟨h.some, h.isValue, h.comma⟩⟩

/-- A comma hands over the element before it. -/
private theorem scan_comma (state : p.state = .headerValue) (list : p.headerCmsList = true) {s : ρ}
    (ready : readyHeader actions p = .ok s) (rest : Bytes) :
    scan (lineMachine actions) p (str ", " ++ rest) =
      scan (lineMachine actions) { p with
        state := .spaceBeforeHeaderValue, header.value := [], req := s } rest := by
  have comma : (lineMachine actions).consume p (ch ',') =
      .ok { p with state := .spaceBeforeHeaderValue, header.value := [], req := s } := by
    have facts : ch ',' ≠ 13 ∧ ch ',' ≠ 10 ∧ isCtl (ch ',') = false := by decide
    simp only [lineMachine, consumeLine, state, headerValue, facts.1, facts.2.1, facts.2.2, list,
      beq_self_eq_true, Bool.and_self, ready, Bool.false_eq_true, ↓reduceIte]
  have space :
      (lineMachine actions).consume { p with
        state := .spaceBeforeHeaderValue, header.value := [], req := s } (ch ' ') =
      .ok { p with state := .spaceBeforeHeaderValue, header.value := [], req := s } := by
    simp [lineMachine, consumeLine]
  have text : str ", " ++ rest = ch ',' :: ch ' ' :: rest := rfl
  rw [text, scan_step (by simp [lineMachine, state]) comma, scan_step (by simp [lineMachine]) space]

private theorem scan_element (state : p.state = .spaceBeforeHeaderValue) {name value : Bytes}
    (header : p.header = { name := name }) (element : IsElement value) (rest : Bytes) :
    scan (lineMachine actions) p (value ++ rest) =
      scan (lineMachine actions)
        { p with state := .headerValue, header := { name := name, value := value } } rest := by
  rw [scan_value state (by rw [header]) element.some element.isValue.first ⟨element.isValue.plain,
    fun _ => element.comma⟩]
  simp [header]

private theorem intercalate_cons (first second : Bytes) (more : List Bytes) :
    (str ", ").intercalate (first :: second :: more) =
      first ++ (str ", " ++ (str ", ").intercalate (second :: more)) := by
  simp [List.intercalate]

/-- A list from its first element to the end of its line: the last one is still to
be handed over. -/
private theorem scan_list (state : p.state = .spaceBeforeHeaderValue)
    (list : p.headerCmsList = true) {name : Bytes} (header : p.header = { name := name })
    {front : List Bytes} {last : Bytes} (ok : ∀ v ∈ front ++ [last], IsElement v) {s : ρ}
    (processed : front.foldlM (fun r v => actions.processReadyHeader { name := name, value := v } r)
      p.req = .ok s) :
    ∃ q, q.state = .headerLineStart ∧
      readyHeader actions q = actions.processReadyHeader { name := name, value := last } s ∧
      ∀ rest, scan (lineMachine actions) p ((str ", ").intercalate (front ++ [last]) ++ (crlf ++ rest)) =
        scan (lineMachine actions) q rest := by
  induction front generalizing p with
  | nil =>
    have element := ok last (by simp)
    cases processed
    refine ⟨{ p with state := .headerLineStart, header := { name := name, value := last } },
      rfl, ?_, fun rest => ?_⟩
    · exact ready_of_value element.isValue (fun _ => element.some) rfl
    · rw [List.nil_append, List.intercalate_singleton, scan_element state header element]
      exact scan_crlf (.inl rfl) rest
  | cons first front ih =>
    have element := ok first (by simp)
    rw [List.foldlM_cons] at processed
    obtain ⟨mid, handed, later⟩ := bind_eq_ok.mp processed
    have ready :
        readyHeader actions
          { p with state := .headerValue, header := { name := name, value := first } } = .ok mid := by
      rw [ready_of_value element.isValue (fun _ => element.some) rfl]
      exact handed
    obtain ⟨q, state', ready', scanned⟩ :=
      ih (p := { p with state := .spaceBeforeHeaderValue, header := { name := name }, req := mid })
      rfl list rfl (fun v member => ok v (List.mem_cons_of_mem _ member)) later
    refine ⟨q, state', ready', fun rest => ?_⟩
    obtain ⟨second, more, split⟩ := List.exists_cons_of_ne_nil (by simp : front ++ [last] ≠ [])
    rw [split] at scanned
    rw [List.cons_append, split, intercalate_cons, List.append_assoc, List.append_assoc,
      scan_element state header element,
      scan_comma (p := { p with state := .headerValue, header := { name := name, value := first } })
        rfl list ready]
    exact scanned rest

/-- A line with a comma-separated list hands over its elements in order, the last
one when the next line starts. -/
theorem scan_listLine (at_ : AtLine actions p r) {name : Bytes} (isName : IsName name)
    (list : isCmsList name = true) {front : List Bytes} {last : Bytes}
    (elements : ∀ v ∈ front ++ [last], IsElement v) {s : ρ}
    (processed : front.foldlM (fun r v => actions.processReadyHeader { name := name, value := v } r)
      r = .ok s) :
    ∃ q, q.state = .headerLineStart ∧
      readyHeader actions q = actions.processReadyHeader { name := name, value := last } s ∧
      ∀ rest, scan (lineMachine actions) p
        (line name ((str ", ").intercalate (front ++ [last])) ++ rest) =
        scan (lineMachine actions) q rest := by
  obtain ⟨q, state, ready, scanned⟩ := scan_list (p := { p with
    state := .spaceBeforeHeaderValue, header := { name := name }, headerCmsList := isCmsList name
    req := r }) rfl list rfl elements
    processed
  refine ⟨q, state, ready, fun rest => ?_⟩
  have text : line name ((str ", ").intercalate (front ++ [last])) ++ rest =
      name ++ (str ": " ++ ((str ", ").intercalate (front ++ [last]) ++ (crlf ++ rest))) := by
    simp [line]
  rw [text, scan_isName at_ isName]
  exact scanned rest

theorem reads_list {name first : Bytes} {more : List Bytes} {s : ρ} (ok : IsName name)
    (list : isCmsList name = true) (elements : ∀ v ∈ first :: more, IsElement v)
    (processed : (first :: more).foldlM (fun r v =>
      actions.processReadyHeader { name := name, value := v } r) r = .ok s) :
    Reads actions (line name ((str ", ").intercalate (first :: more))) r s := by
  intro p at_
  obtain ⟨front, last, split⟩ := List.eq_nil_or_concat (first :: more) |>.resolve_left (by simp)
  rw [List.concat_eq_append] at split
  rw [split] at elements processed ⊢
  rw [List.foldlM_append] at processed
  obtain ⟨mid, before, after⟩ := bind_eq_ok.mp processed
  obtain ⟨q, state, ready, scanned⟩ := scan_listLine at_ ok list elements before
  refine ⟨q, .next state ?_, scanned⟩
  rw [ready]
  rw [List.foldlM_cons] at after
  obtain ⟨handed, processed', done⟩ := bind_eq_ok.mp after
  cases done
  exact processed'

variable (actions) in
/-- Any value without control characters is collected, less the spaces around it. -/
private theorem scan_plainValue (state : p.state = .headerValue ∨ p.state = .spaceBeforeHeaderValue)
    (single : p.headerCmsList = false) {value : Bytes} (plain : ∀ c ∈ value, isCtl c = false) :
    ∃ q, (q.state = .headerValue ∨ q.state = .spaceBeforeHeaderValue) ∧
      q.header.name = p.header.name ∧ q.headerCmsList = false ∧
      q.req = p.req ∧ ∀ rest, scan (lineMachine actions) p (value ++ rest) =
        scan (lineMachine actions) q rest := by
  induction value generalizing p with
  | nil => exact ⟨p, state, rfl, single, rfl, fun _ => rfl⟩
  | cons c value ih =>
    have later : ∀ d ∈ value, isCtl d = false := fun d member => plain d (List.mem_cons_of_mem _ member)
    have running : (lineMachine actions).good p = false := by
      rcases state with state | state <;> simp [lineMachine, state]
    have push := headerValue_push actions p (plain c List.mem_cons_self) (by simp [single])
    have collected : consumeLine actions p c = headerValue actions p c → ∃ q,
      (q.state = .headerValue ∨ q.state = .spaceBeforeHeaderValue) ∧
        q.header.name = p.header.name ∧ q.headerCmsList = false ∧ q.req = p.req ∧
        ∀ rest, scan (lineMachine actions) p (c :: value ++ rest) =
          scan (lineMachine actions) q rest := by
      intro value_
      obtain ⟨q, state', name, single', req, scanned⟩ :=
        ih (p := { p with state := .headerValue, header.value := p.header.value ++ [c] })
        (.inl rfl) single later
      refine ⟨q, state', name, single', req, fun rest => ?_⟩
      rw [List.cons_append, scan_step running (value_.trans push)]
      exact scanned rest
    rcases state with state | state
    · exact collected (by simp only [consumeLine, state])
    · cases sp : isSp c with
      | false => exact collected (by simp only [consumeLine, state, sp, Bool.false_eq_true, ↓reduceIte])
      | true =>
        have skipped : (lineMachine actions).consume p c = .ok p := by
          simp only [lineMachine, consumeLine, state, sp, ↓reduceIte]
        obtain ⟨q, state', name, single', req, scanned⟩ := ih (.inr state) single later
        refine ⟨q, state', name, single', req, fun rest => ?_⟩
        rw [List.cons_append, scan_step running skipped]
        exact scanned rest

/-- A line whose value may be anything that a line can hold. -/
theorem scan_plainLine (at_ : AtLine actions p r) {name value : Bytes} (some_ : name ≠ [])
    (token : ∀ c ∈ name, isToken c = true) (single : isCmsList (toLower name) = false)
    (plain : ∀ c ∈ value, isCtl c = false) :
    ∃ q value', q.state = .headerLineStart ∧
      readyHeader actions q = actions.processReadyHeader { name := toLower name, value := value' } r ∧
      ∀ rest, scan (lineMachine actions) p (line name value ++ rest) =
        scan (lineMachine actions) q rest := by
  obtain ⟨q, state, name_, single', req, scanned⟩ := scan_plainValue actions (p := { p with
    state := .spaceBeforeHeaderValue
    header := { name := toLower name }
    headerCmsList := isCmsList (toLower name)
    req := r }) (.inr rfl) single plain
  refine ⟨{ q with state := .headerLineStart }, trimRight q.header.value, rfl, ?_, fun rest => ?_⟩
  · simp only [readyHeader, single', name_, req, Bool.false_and, Bool.false_eq_true, ↓reduceIte]
  · have text : line name value ++ rest = name ++ (str ": " ++ (value ++ (crlf ++ rest))) := by
      simp [line]
    rw [text, scan_start at_ some_ token, scanned]
    exact scan_crlf state rest

end Lines

end Crablib.HeaderProofs
