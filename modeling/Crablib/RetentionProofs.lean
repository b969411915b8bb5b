import Crablib.AcceptedProofs
import Crablib.TerminatorProofs

/-! What a request keeps of its header lines. A value is lost where the parser has a
field for the name and does not see in it what it looks for, and it is not what was
sent where it begins on a line of its own. -/
namespace Crablib.RetentionProofs
open Http Scanner RequestParser HeaderProofs RequestTextProofs FramingProofs CodingProofs
open AcceptedProofs TerminatorProofs

section Fields

/-- A header line, and the lines that continue it. -/
structure Field where
  name : Bytes
  value : Bytes
  more : Bytes := []
  deriving DecidableEq

/-- The value as it was sent, less the spaces around it. -/
def Field.text (f : Field) : Bytes := trim (f.value ++ f.more)

/-- What the parser collects of the value. -/
def Field.collected (f : Field) : Bytes := f.value.dropWhile isSp ++ f.more

def Field.header (f : Field) : Header := { name := f.name, value := trimRight f.collected }

/-- Such a line continues the one before. -/
def continues (line : Bytes) : Bool := line.head?.any isSp

/-- The name is what stands before the first colon, in lower case. -/
def fieldOf (line : Bytes) : Field :=
  { name := toLower (trimRight (line.takeWhile (· ≠ ch ':'))),
    value := (line.dropWhile (· ≠ ch ':')).tail }

/-- Empty lines are not header lines. -/
def addLine (fields : List Field) (line : Bytes) : List Field :=
  if continues line then
    match fields.getLast? with
    | some last => fields.dropLast ++ [{ last with more := last.more ++ line }]
    | none => fields
  else if line = [] then fields
  else fields ++ [fieldOf line]

def fieldsOf (lines : List Bytes) : List Field := lines.foldl addLine []

def dropCr (line : Bytes) : Bytes := if line.getLast? = some 13 then line.dropLast else line

/-- The lines of a text, which end with a line feed or with both characters. -/
def linesOf (text : Bytes) : List Bytes := (text.splitOn 10).map dropCr

/-- The header lines behind the first line of a request. -/
def headerFields (text : Bytes) : List Field :=
  fieldsOf (linesOf ((skipEmpty text).dropWhile (· ≠ 10)).tail)

variable {lines : List Bytes} {line name : Bytes} {c : UInt8}

private theorem fieldsOf_push (lines : List Bytes) (line : Bytes) :
    fieldsOf (lines ++ [line]) = addLine (fieldsOf lines) line :=
  List.foldl_append

private theorem fieldsOf_empty (lines : List Bytes) : fieldsOf (lines ++ [[]]) = fieldsOf lines := by
  rw [fieldsOf_push]
  rfl

/-- A complete line of text. -/
structure IsWhole (line : Bytes) : Prop where
  lf : 10 ∉ line
  cr : 13 ∉ line

/-- The lines that a text consists of. -/
inductive Rendered : Bytes → List Bytes → Prop where
  | nil : Rendered [] []
  | line {front : Bytes} {lines : List Bytes} (before : Rendered front lines) {line : Bytes}
      (whole : IsWhole line) {ends : Bytes}
      (terminator : ends = [10] ∨ ends = [13, 10]) : Rendered (front ++ (line ++ ends)) (lines ++ [line])

private theorem dropCr_whole (whole : IsWhole line) : dropCr line = line := by
  rw [dropCr, if_neg]
  intro last
  exact whole.cr (List.mem_of_getLast? last)

theorem Rendered.linesOf {text : Bytes} (rendered : Rendered text lines) (rest : Bytes) :
    linesOf (text ++ rest) = lines ++ linesOf rest := by
  induction rendered generalizing rest with
  | nil => rfl
  | @line front lines before line whole ends terminator ih =>
    rw [List.append_assoc, List.append_assoc, ih, List.append_assoc]
    refine congrArg (lines ++ ·) ?_
    rcases terminator with rfl | rfl
    · rw [List.singleton_append, RetentionProofs.linesOf,
        List.splitOn_append_cons_self_of_not_mem whole.lf, List.map_cons, dropCr_whole whole]
      rfl
    · have lf : 10 ∉ line ++ [13] := by simpa using whole.lf
      have text : line ++ ([13, 10] ++ rest) = (line ++ [13]) ++ 10 :: rest := by simp
      rw [text, RetentionProofs.linesOf, List.splitOn_append_cons_self_of_not_mem lf, List.map_cons]
      simp [dropCr, RetentionProofs.linesOf]

end Fields

section Kept

/-- What the fields hold that no other header line writes. -/
structure Kept where
  headers : List Header := []
  host : Bytes := []
  origin : Bytes := []
  authorization : Bytes := []
  key : Bytes := []
  version : Bytes := []

def keptOf (req : RequestHeader) : Kept :=
  ⟨req.headers, req.host, req.origin, req.basicAuthorization, req.secWebsocketKey,
    req.secWebsocketVersion⟩

/-- The names whose values are read for what they say. -/
def readNames : List Bytes :=
  [str "content-length", str "content-type", str "transfer-encoding", str "connection", str "upgrade"]

/-- The headers that are kept, one after the other. -/
def Kept.add (kept : Kept) (h : Header) : Kept :=
  if h.name ∈ readNames then kept
  else if h.name = str "host" then { kept with host := h.value }
  else if h.name = str "origin" then { kept with origin := h.value }
  else if h.name = str "authorization" then
    { kept with authorization := (parseAuthorizationBasic h.value).getD kept.authorization }
  else if h.name = str "sec-websocket-key" then { kept with key := h.value }
  else if h.name = str "sec-websocket-version" then { kept with version := h.value }
  else { kept with headers := kept.headers ++ [h] }

/-- What is kept of some header lines. -/
def keep (fields : List Field) : Kept := fields.foldl (fun kept f => kept.add f.header) {}

private theorem keep_push (fields : List Field) (f : Field) :
    keep (fields ++ [f]) = (keep fields).add f.header :=
  List.foldl_append

theorem common_read {name value : Bytes} {c d : RequestResponseHeader}
    (processed : processCommonHeader name value c = some (.ok d)) :
    name ∈ readNames ∧ d.headers = c.headers := by
  unfold processCommonHeader at processed
  simp only at processed
  repeat' split at processed
  all_goals
    cases processed
    try exact ⟨by simp [readNames, *], rfl⟩

theorem common_other {name value : Bytes} {c : RequestResponseHeader}
    (other : processCommonHeader name value c = none) :
    name ∉ readNames := by
  unfold processCommonHeader at other
  simp only at other
  repeat' split at other
  all_goals
    cases other
    try simp [readNames, *]

private theorem processReadyHeader_kept {h : Header} {r s : RequestHeader}
    (processed : processReadyHeader h r = .ok s) :
    keptOf s = (keptOf r).add h := by
  unfold processReadyHeader at processed
  split at processed
  · rename_i common found
    obtain ⟨read, same⟩ := common_read found
    cases processed
    rw [Kept.add, if_pos read, keptOf, keptOf, same]
  · cases processed
  · rename_i found
    rw [Kept.add, if_neg (common_other found)]
    repeat' split at processed
    all_goals
      cases processed
      simp_all [keptOf]

end Kept

section Reading

variable {lines : List Bytes} {line name : Bytes} {fields : List Field} {f : Field}
    {p q : HeaderLines RequestHeader} {c : UInt8}

/-- The line being read belongs to `f`, behind these fields. -/
inductive Current (lines : List Bytes) : Bytes → List Field → Field → Prop where
  | opened {name spaces raw : Bytes} (isToken_ : IsToken name) (blank : ∀ c ∈ spaces, isSp c = true) :
      Current lines (name ++ (spaces ++ ch ':' :: raw)) (fieldsOf lines) ⟨toLower name, raw, []⟩
  | continued {fields : List Field} {last : Field} {line : Bytes}
      (before : fieldsOf lines = fields ++ [last])
      (starts : continues line = true) :
      Current lines line fields { last with more := last.more ++ line }

private theorem trimRight_spaces {text spaces : Bytes} (blank : ∀ c ∈ spaces, isSp c = true) :
    trimRight (text ++ spaces) = trimRight text := by
  unfold trimRight
  rw [List.reverse_append, List.dropWhile_append_of_pos fun c member =>
    blank c (List.mem_reverse.mp member)]

private theorem token_colon (isToken_ : IsToken name) {spaces : Bytes}
    (blank : ∀ c ∈ spaces, isSp c = true) :
    ∀ c ∈ name ++ spaces, decide (c ≠ ch ':') = true := by
  intro c member
  rw [decide_eq_true_iff]
  rcases List.mem_append.mp member with member | member
  · exact (token_facts (isToken_.token c member)).2.1
  · rintro rfl
    exact absurd (blank _ member) (by decide)

private theorem fieldOf_opened (isToken_ : IsToken name) {spaces : Bytes}
    (blank : ∀ c ∈ spaces, isSp c = true) (raw : Bytes) :
    fieldOf (name ++ (spaces ++ ch ':' :: raw)) = ⟨toLower name, raw, []⟩ := by
  have all := token_colon isToken_ blank
  have last : trimRight name = name := by
    have other : ∀ c ∈ name, c ≠ 32 := by
      rintro c member rfl
      exact absurd (token_facts (isToken_.token 32 member)).1 (by decide)
    refine trimRight_value ⟨fun c member => (token_facts (isToken_.token c member)).2.2.1,
      fun first => ?_, fun last => ?_⟩
    · exact other 32 (List.mem_of_mem_head? first) rfl
    · exact other 32 (List.mem_of_getLast? last) rfl
  rw [← List.append_assoc, fieldOf, List.takeWhile_append_of_pos all, List.dropWhile_append_of_pos all]
  simp [trimRight_spaces blank, last]

theorem Current.makes (current : Current lines line fields f) :
    fieldsOf (lines ++ [line]) = fields ++ [f] := by
  rw [fieldsOf_push]
  cases current with
  | @opened name spaces raw isToken_ blank =>
    obtain ⟨c, more, rfl⟩ := List.exists_cons_of_ne_nil isToken_.some
    have start : continues (c :: more ++ (spaces ++ ch ':' :: raw)) = false := by
      show Option.any isSp (some c) = false
      exact (token_facts (isToken_.token c List.mem_cons_self)).1
    simp only [addLine, start, Bool.false_eq_true, ↓reduceIte]
    rw [if_neg (by simp), fieldOf_opened isToken_ blank]
  | @continued _ last _ before starts => simp [addLine, starts, before]

/-- One more character of the line. -/
theorem Current.push (current : Current lines line fields f) (c : UInt8) :
    ∃ g, Current lines (line ++ [c]) fields g ∧ g.name = f.name ∧
      (f.collected ≠ [] ∨ isSp c = false → g.collected = f.collected ++ [c]) ∧
      (f.collected = [] → isSp c = true → g.collected = []) := by
  cases current with
  | @opened name spaces raw isToken_ blank =>
    refine ⟨⟨toLower name, raw ++ [c], []⟩, ?_, rfl, ?_, ?_⟩
    · have opened :
          Current lines (name ++ (spaces ++ ch ':' :: (raw ++ [c]))) (fieldsOf lines)
          ⟨toLower name, raw ++ [c], []⟩ :=
        .opened isToken_ blank
      simpa using opened
    · intro some_
      simp only [Field.collected, List.append_nil] at some_ ⊢
      rw [List.dropWhile_append]
      split
      · rename_i none
        have sp : isSp c = false := some_.resolve_left fun other => other (List.isEmpty_iff.mp none)
        rw [List.isEmpty_iff.mp none, List.nil_append, List.dropWhile_cons_of_neg (by simp [sp])]
      · rfl
    · intro none sp
      simp only [Field.collected, List.append_nil] at none ⊢
      rw [List.dropWhile_append, none, List.isEmpty_nil, if_pos rfl, List.dropWhile_cons_of_pos sp]
      rfl
  | @continued _ last _ before starts =>
    have some_ : line ≠ [] := by
      rintro rfl
      cases starts
    have starts' : continues (line ++ [c]) = true := by
      obtain ⟨d, rest, rfl⟩ := List.exists_cons_of_ne_nil some_
      exact starts
    refine ⟨_, .continued before starts', rfl, fun _ => by simp [Field.collected], ?_⟩
    intro none
    simp only [Field.collected, List.append_eq_nil_iff] at none
    exact absurd none.2.2 some_

/-- The header under construction is that of `f`, and the fields before it are kept. -/
structure Held (fields : List Field) (f : Field) (p : HeaderLines RequestHeader) : Prop where
  name : p.header.name = f.name
  list : p.headerCmsList = isCmsList f.name
  value : isCmsList f.name = false → p.header.value = f.collected
  kept : keptOf p.req = keep fields

/-- How the header lines that were read show in the parser. -/
def Reads (lines : List Bytes) (line : Bytes) (p : HeaderLines RequestHeader) : Prop :=
  match p.state with
  | .firstHeaderLineStart => line = [] ∧ fieldsOf lines = [] ∧ p.header = {} ∧ keptOf p.req = {}
  | .headerLineStart => line = [] ∧ ∃ fields f, fieldsOf lines = fields ++ [f] ∧ Held fields f p
  | .headerName =>
    IsToken line ∧ p.header = { name := toLower line } ∧ keptOf p.req = keep (fieldsOf lines)
  | .headerColon =>
    ∃ name spaces, line = name ++ spaces ∧ IsToken name ∧ (∀ c ∈ spaces, isSp c = true) ∧
      p.header = { name := toLower name } ∧ keptOf p.req = keep (fieldsOf lines)
  | .spaceBeforeHeaderValue =>
    IsWhole line ∧ ∃ fields f, Current lines line fields f ∧ Held fields f p ∧
      (isCmsList f.name = false → f.collected = [])
  | .headerValue =>
    IsWhole line ∧ ∃ fields f, Current lines line fields f ∧ Held fields f p ∧
      (isCmsList f.name = false → f.collected ≠ [])
  | .headerLf =>
    ∃ whole, line = whole ++ [13] ∧ IsWhole whole ∧ ∃ fields f,
      fieldsOf (lines ++ [whole]) = fields ++ [f] ∧ Held fields f p
  | .finalLf => line = [13] ∧ keptOf p.req = keep (fieldsOf lines)
  | .good => line = [] ∧ keptOf p.req = keep (fieldsOf lines)

/-- The same, whether the line goes on or is over. -/
def Goes (lines : List Bytes) (line : Bytes) (p : HeaderLines RequestHeader) : Prop :=
  Reads lines line p ∨ ∃ whole, IsWhole whole ∧ (line = whole ++ [10] ∨ line = whole ++ [13, 10]) ∧
    Reads (lines ++ [whole]) [] p

private theorem add_read {kept : Kept} {h : Header} (read : isCmsList h.name = true) :
    kept.add h = kept := by
  have member : h.name ∈ readNames := by
    rcases Bool.or_eq_true_iff.mp read with same | same <;> simp [readNames, beq_iff_eq.mp same]
  rw [Kept.add, if_pos member]

private theorem Held.ready (held : Held fields f p) {r : RequestHeader}
    (ready : readyHeader actions p = .ok r) :
    keptOf r = keep (fields ++ [f]) := by
  rw [keep_push, ← held.kept]
  simp only [readyHeader, held.list] at ready
  cases list : isCmsList f.name with
  | true =>
    rw [add_read (h := f.header) list]
    split at ready
    · cases ready
      rfl
    · rw [processReadyHeader_kept ready, add_read]
      show isCmsList p.header.name = true
      rw [held.name, list]
  | false =>
    simp only [list, Bool.false_and, Bool.false_eq_true, ↓reduceIte, held.name, held.value list] at ready
    exact processReadyHeader_kept ready

private theorem IsWhole.push (whole : IsWhole line) (lf : c ≠ 10) (cr : c ≠ 13) :
    IsWhole (line ++ [c]) :=
  ⟨by simp [whole.lf, Ne.symm lf], by simp [whole.cr, Ne.symm cr]⟩

private theorem isWhole_nil : IsWhole [] := ⟨by simp, by simp⟩

private theorem lineStart_goes (header : p.header = {}) (kept : keptOf p.req = keep (fieldsOf lines))
    (consumed : lineStart p c = .ok q) : Goes lines [c] q := by
  unfold lineStart at consumed
  split at consumed
  · rename_i cr
    cases consumed
    exact .inl ⟨congrArg (fun c => [c]) cr, kept⟩
  split at consumed
  · rename_i lf
    cases consumed
    refine .inr ⟨[], isWhole_nil, .inl (congrArg (fun c => [c]) lf), rfl, ?_⟩
    rw [fieldsOf_empty]
    exact kept
  split at consumed
  · cases consumed
  · rename_i token
    cases consumed
    refine .inl ⟨⟨by simp, by simpa using token⟩, ?_, kept⟩
    simp [header, toLower]

private theorem headerColon_goes {spaces : Bytes} (isToken_ : IsToken name)
    (blank : ∀ c ∈ spaces, isSp c = true) (header : p.header = { name := toLower name })
    (kept : keptOf p.req = keep (fieldsOf lines)) (consumed : headerColon p c = .ok q) :
    Goes lines (name ++ spaces ++ [c]) q := by
  unfold headerColon at consumed
  split at consumed
  · rename_i sp
    cases consumed
    refine .inl ⟨name, spaces ++ [c], List.append_assoc .., isToken_, ?_, header, kept⟩
    intro d member
    rcases List.mem_append.mp member with member | member
    · exact blank d member
    · rw [List.mem_singleton.mp member, sp]
  split at consumed
  · cases consumed
  · rename_i colon
    cases consumed
    have same : c = ch ':' := by simpa using colon
    have all : ∀ d ∈ name ++ spaces, d ≠ 10 ∧ d ≠ 13 := by
      intro d member
      rcases List.mem_append.mp member with member | member
      · have facts := token_facts (isToken_.token d member)
        exact ⟨facts.2.2.2.2, facts.2.2.2.1⟩
      · have sp := blank d member
        constructor
        · rintro rfl
          exact absurd sp (by decide)
        · rintro rfl
          exact absurd sp (by decide)
    have whole : IsWhole (name ++ spaces) :=
      ⟨fun member => (all 10 member).1 rfl, fun member => (all 13 member).2 rfl⟩
    refine .inl ⟨whole.push (by rw [same]; decide) (by rw [same]; decide), fieldsOf lines,
      ⟨toLower name, [], []⟩, ?_, ?_, fun _ => rfl⟩
    · have opened :
          Current lines (name ++ (spaces ++ ch ':' :: [])) (fieldsOf lines)
          ⟨toLower name, [], []⟩ := .opened isToken_ blank
      rwa [← List.append_assoc, ← same] at opened
    · exact ⟨by rw [header], by rw [header], fun _ => by rw [header]; rfl, kept⟩

private theorem headerValue_goes (whole : IsWhole line) (current : Current lines line fields f)
    (held : Held fields f p) (some_ : isCmsList f.name = false → f.collected ≠ [] ∨ isSp c = false)
    (consumed : headerValue actions p c = .ok q) :
    Goes lines (line ++ [c]) q := by
  obtain ⟨g, current', name, pushed, -⟩ := current.push c
  unfold headerValue at consumed
  split at consumed
  · rename_i cr
    cases consumed
    exact .inl ⟨line, by rw [cr], whole, fields, f, current.makes, held.name, held.list,
      held.value, held.kept⟩
  rename_i cr
  split at consumed
  · rename_i lf
    cases consumed
    exact .inr ⟨line, whole, .inl (by rw [lf]), rfl, fields, f, current.makes, held.name, held.list,
      held.value, held.kept⟩
  rename_i lf
  split at consumed
  · cases consumed
  split at consumed
  · rename_i comma
    have list : isCmsList f.name = true := held.list ▸ (Bool.and_eq_true_iff.mp comma).1
    split at consumed
    · cases consumed
    · rename_i r ready
      cases consumed
      have kept := held.ready ready
      rw [keep_push, add_read (h := f.header) list] at kept
      refine .inl ⟨whole.push lf cr, fields, g, current',
        ⟨held.name.trans name.symm, by rw [name]; exact held.list, ?_, kept⟩, ?_⟩
      · intro single
        rw [name, list] at single
        cases single
      · intro single
        rw [name, list] at single
        cases single
  · cases consumed
    refine .inl ⟨whole.push lf cr, fields, g, current',
      ⟨held.name.trans name.symm, by rw [name]; exact held.list, ?_, held.kept⟩, ?_⟩
    · intro single
      rw [name] at single
      show p.header.value ++ [c] = g.collected
      rw [held.value single, pushed (some_ single)]
    · intro single
      rw [name] at single
      rw [pushed (some_ single)]
      simp

/-- One byte of the header lines. -/
private theorem consumeLine_goes (reads : Reads lines line p)
    (consumed : consumeLine actions p c = .ok q) :
    Goes lines (line ++ [c]) q := by
  obtain ⟨state, header, list, req⟩ := p
  cases state with
  | firstHeaderLineStart =>
    obtain ⟨rfl, none, fresh, kept⟩ := reads
    refine lineStart_goes (p := { header := header, headerCmsList := list,
                                  req := actions.atFirstLine req }) fresh ?_ consumed
    rw [none]
    exact kept
  | headerLineStart =>
    obtain ⟨rfl, fields, f, made, held⟩ := reads
    simp only [consumeLine] at consumed
    split at consumed
    · rename_i sp
      cases consumed
      have start : continues [c] = true := sp
      have facts : c ≠ 10 ∧ c ≠ 13 := by
        constructor
        · rintro rfl
          exact absurd sp (by decide)
        · rintro rfl
          exact absurd sp (by decide)
      refine .inl ⟨isWhole_nil.push facts.1 facts.2, fields, _, .continued made start,
        ⟨held.name, held.list, ?_, held.kept⟩, ?_⟩
      · intro single
        show header.value ++ [c] = _
        rw [show header.value = f.collected from held.value single]
        simp [Field.collected]
      · simp [Field.collected]
    · split at consumed
      · cases consumed
      · rename_i r ready
        have kept := held.ready ready
        rw [← made] at kept
        exact lineStart_goes (p := { state := .headerLineStart, header := {}, headerCmsList := list,
                                     req := r }) rfl kept consumed
  | headerName =>
    obtain ⟨isToken_, named, kept⟩ := reads
    simp only [consumeLine] at consumed
    split at consumed
    · rename_i sp
      cases consumed
      exact .inl ⟨line, [c], rfl, isToken_, by simpa using sp, named, kept⟩
    split at consumed
    · split at consumed
      · cases consumed
      · rename_i token
        cases consumed
        refine .inl ⟨⟨by simp, ?_⟩, ?_, kept⟩
        · intro d member
          rcases List.mem_append.mp member with member | member
          · exact isToken_.token d member
          · rw [List.mem_singleton.mp member]
            simpa using token
        · rw [show header = _ from named]
          simp [toLower]
    · have none : ∀ c ∈ ([] : Bytes), isSp c = true := by simp
      have goes := headerColon_goes isToken_ none named kept consumed
      rwa [List.append_nil] at goes
  | headerColon =>
    obtain ⟨name, spaces, rfl, isToken_, blank, named, kept⟩ := reads
    exact headerColon_goes isToken_ blank named kept consumed
  | spaceBeforeHeaderValue =>
    obtain ⟨whole, fields, f, current, held, none⟩ := reads
    simp only [consumeLine] at consumed
    split at consumed
    · rename_i sp
      cases consumed
      obtain ⟨g, current', name, -, blank⟩ := current.push c
      have facts : c ≠ 10 ∧ c ≠ 13 := by
        constructor
        · rintro rfl
          exact absurd sp (by decide)
        · rintro rfl
          exact absurd sp (by decide)
      refine .inl ⟨whole.push facts.1 facts.2, fields, g, current',
        ⟨held.name.trans name.symm, by rw [name]; exact held.list, ?_, held.kept⟩, ?_⟩
      · intro single
        rw [name] at single
        rw [held.value single, blank (none single) sp, none single]
      · intro single
        rw [name] at single
        exact blank (none single) sp
    · rename_i sp
      exact headerValue_goes whole current held (fun _ => .inr (by simpa using sp)) consumed
  | headerValue =>
    obtain ⟨whole, fields, f, current, held, some_⟩ := reads
    exact headerValue_goes whole current held (fun single => .inl (some_ single)) consumed
  | headerLf =>
    obtain ⟨whole, rfl, isWhole, fields, f, made, held⟩ := reads
    simp only [consumeLine] at consumed
    split at consumed
    · cases consumed
    · rename_i lf
      cases consumed
      have same : c = 10 := by simpa using lf
      exact .inr ⟨whole, isWhole, .inr (by rw [same, List.append_assoc]; rfl), rfl, fields, f, made,
        held.name, held.list, held.value, held.kept⟩
  | finalLf =>
    obtain ⟨rfl, kept⟩ := reads
    simp only [consumeLine] at consumed
    split at consumed
    · cases consumed
    · rename_i lf
      cases consumed
      have same : c = 10 := by simpa using lf
      refine .inr ⟨[], isWhole_nil, .inr (by rw [same]; rfl), rfl, ?_⟩
      rw [fieldsOf_empty]
      exact kept
  | good => cases consumed

/-- The header lines so far. -/
def Lines (block : Bytes) (p : HeaderLines RequestHeader) : Prop :=
  ∃ front lines line, block = front ++ line ∧ Rendered front lines ∧ Reads lines line p

private theorem Lines.consume {block : Bytes} (reading : Lines block p)
    (consumed : consumeLine actions p c = .ok q) :
    Lines (block ++ [c]) q := by
  obtain ⟨front, lines, line, rfl, rendered, reads⟩ := reading
  rcases consumeLine_goes reads consumed with reads' | ⟨whole, isWhole, terminator, reads'⟩
  · exact ⟨front, lines, line ++ [c], by simp, rendered, reads'⟩
  · rcases terminator with ends | ends
    · exact ⟨front ++ (whole ++ [10]), lines ++ [whole], [], by simp [ends],
        rendered.line isWhole (.inl rfl), reads'⟩
    · exact ⟨front ++ (whole ++ [13, 10]), lines ++ [whole], [], by simp [ends],
        rendered.line isWhole (.inr rfl), reads'⟩

end Reading

section Requests

variable {seen text : Bytes} {c : UInt8} {p q : RequestParser}

/-- The first line is read, and then these header lines. -/
structure Reading (seen : Bytes) (p : RequestParser) : Prop where
  follows : Follows seen p
  second : p.state = .statusLineLf → ∃ line, 10 ∉ line ∧ (Opens seen line ∨ Opens seen (line ++ [10]))
  before : p.state ≠ .headerLines → p.lines.state = .firstHeaderLineStart ∧
    p.lines.header = {} ∧ keptOf p.req = {}
  behind : p.state = .headerLines → ∃ line block, 10 ∉ line ∧
    Opens seen (line ++ 10 :: block) ∧ Lines block p.lines

private theorem advance_first (before : p.state ≠ .headerLines) (advanced : p.advance c = .ok q) :
    (q.state = .headerLines → c = 10 ∧ (p.state = .httpVersionMinor ∨ p.state = .statusLineLf)) ∧
      (q.state = .statusLineLf → p.state = .httpVersionMinor ∧ c = 13 ∨
        p.state = .statusLineCr ∧ c = 10) ∧
      q.lines.state = p.lines.state ∧ q.lines.header = p.lines.header ∧ keptOf q.req = keptOf p.req := by
  obtain ⟨state, lines, percent, total⟩ := p
  cases state
  case headerLines => exact absurd rfl before
  all_goals
    simp only [advance, expectLetter] at advanced
    repeat' split at advanced
  all_goals cases advanced
  all_goals simp_all [goTo, pushPath, setReq, req, keptOf]

private theorem Reading.step (reading : Reading seen p) (advanced : p.advance c = .ok q) :
    Reading (seen ++ [c]) q := by
  obtain ⟨follows, second, before, behind⟩ := reading
  by_cases state : p.state = .headerLines
  · obtain ⟨line, block, whole, opens, lines⟩ := behind state
    have follows' := follows.step advanced
    simp only [advance, state] at advanced
    split at advanced
    · cases advanced
    · rename_i lines' consumed
      cases advanced
      refine ⟨follows', fun other => ?_, fun other => absurd rfl other, fun _ => ?_⟩
      · cases other
      · refine ⟨line, block ++ [c], whole, ?_, lines.consume consumed⟩
        have pushed := opens.push c
        rwa [List.append_assoc] at pushed
  · obtain ⟨enters, falls, lineState, header, kept⟩ := advance_first state advanced
    have fresh := before state
    rw [← lineState, ← header, ← kept] at fresh
    refine ⟨follows.step advanced, fun here => ?_, fun _ => fresh, fun here => ?_⟩
    · rcases falls here with ⟨from_, rfl⟩ | ⟨from_, rfl⟩
      · simp only [Follows, from_] at follows
        obtain ⟨-, -, line, opens, lineOf, -⟩ := follows
        exact ⟨line ++ [13], by simp [lineOf.whole], .inl (opens.push 13)⟩
      · simp only [Follows, from_] at follows
        obtain ⟨-, -, line, opens, lineOf, -⟩ := follows
        exact ⟨line, lineOf.whole, .inr (opens.push 10)⟩
    · obtain ⟨rfl, from_⟩ := enters here
      have none :
          Lines [] q.lines := ⟨[], [], [], rfl,
          .nil, by simp only [Reads, fresh.1]; exact ⟨trivial, rfl, fresh.2.1, fresh.2.2⟩⟩
      have empty : Lines [10] q.lines := by
        refine ⟨[10], [[]], [], rfl, .line .nil isWhole_nil (.inl rfl), ?_⟩
        simp only [Reads, fresh.1]
        exact ⟨trivial, rfl, fresh.2.1, fresh.2.2⟩
      rcases from_ with from_ | from_
      · simp only [Follows, from_] at follows
        obtain ⟨-, -, line, opens, lineOf, -⟩ := follows
        exact ⟨line, [], lineOf.whole, opens.push 10, none⟩
      · obtain ⟨line, whole, opens | opens⟩ := second from_
        · exact ⟨line, [], whole, opens.push 10, none⟩
        · refine ⟨line, [10], whole, ?_, empty⟩
          have pushed := opens.push 10
          rwa [List.append_assoc] at pushed

/-- Of an accepted request, all its header lines are kept in order. -/
theorem accepted_kept (accepted : AcceptsWhole text p) : keptOf p.req = keep (headerFields text) := by
  obtain ⟨parsed, good⟩ := accepted
  have within : scan plain {} (text ++ []) = .ok ({ p with totalLength := 0 }, []) := by
    rw [List.append_nil]
    exact limited.scan_within parsed 0
  have reading : Reading ([] ++ text) { p with totalLength := 0 } := by
    refine scan_traces (P := Reading) (fun seen s a t _ reading advanced => reading.step advanced)
      (s := ({} : RequestParser)) ?_ within
    constructor
    · exact ⟨rfl, fun _ => rfl⟩
    · exact fun here => nomatch here
    · exact fun _ => ⟨rfl, rfl, rfl⟩
    · exact fun here => nomatch here
  simp only [isGood, Bool.and_eq_true, beq_iff_eq] at good
  obtain ⟨line, block, whole, opens, front, lines, last, rfl, rendered, reads⟩ := reading.behind good.1
  simp only [Reads, good.2] at reads
  obtain ⟨rfl, kept⟩ := reads
  have first : skipEmpty text = line ++ 10 :: front := by
    have all := opens []
    simpa using all
  have others : ∀ c ∈ line, decide (c ≠ 10) = true := by
    intro c member
    rw [decide_eq_true_iff]
    rintro rfl
    exact whole member
  have split := rendered.linesOf []
  rw [List.append_nil] at split
  rw [headerFields, first, List.dropWhile_append_of_pos others,
    List.dropWhile_cons_of_neg (by simp), List.tail_cons, split]
  show keptOf p.req = keep (fieldsOf (lines ++ [[]]))
  rw [fieldsOf_empty]
  exact kept

end Requests

section Values

variable {fields : List Field} {f : Field} {lines : List Bytes} {text : Bytes}

/-- What continues a blank line is blank: the value begins on its own line. -/
def Field.Begins (f : Field) : Prop := (∀ c ∈ f.value, isSp c = true) → ∀ c ∈ f.more, isSp c = true

/-- What continues a line begins with a space. -/
private def Continued (f : Field) : Prop := f.more = [] ∨ continues f.more = true

private theorem addLine_continued (kept : ∀ f ∈ fields, Continued f) (line : Bytes) :
    ∀ f ∈ addLine fields line, Continued f := by
  intro f member
  unfold addLine at member
  split at member
  · rename_i starts
    split at member
    · rename_i last found
      rcases List.mem_append.mp member with member | member
      · exact kept f (List.dropLast_subset _ member)
      · rw [List.mem_singleton.mp member]
        refine .inr ?_
        rcases kept last (List.mem_of_getLast? found) with none | starts'
        · show continues (last.more ++ line) = true
          rwa [none]
        · show continues (last.more ++ line) = true
          obtain ⟨c, more, split⟩ :=
            List.exists_cons_of_ne_nil
              (show last.more ≠ [] by rintro none; rw [none] at starts'; cases starts')
          rw [split] at starts' ⊢
          exact starts'
    · exact kept f member
  · split at member
    · exact kept f member
    · rcases List.mem_append.mp member with member | member
      · exact kept f member
      · rw [List.mem_singleton.mp member]
        exact .inl rfl

private theorem fieldsOf_continued (lines : List Bytes) : ∀ f ∈ fieldsOf lines, Continued f := by
  suffices ∀ fields, (∀ f ∈ fields, Continued f) → ∀ f ∈ lines.foldl addLine fields,
    Continued f from this [] (by simp)
  induction lines with
  | nil => exact fun _ kept => kept
  | cons line lines ih => exact fun fields kept => ih _ (addLine_continued kept line)

private theorem trimRight_front (text : Bytes) :
    ∃ spaces, (∀ c ∈ spaces, isSp c = true) ∧ text = trimRight text ++ spaces := by
  refine ⟨(text.reverse.takeWhile isSp).reverse, fun c member =>
    List.mem_takeWhile_imp (List.mem_reverse.mp member), ?_⟩
  rw [trimRight, ← List.reverse_append, List.takeWhile_append_dropWhile, List.reverse_reverse]

private theorem trimRight_nil_iff {text : Bytes} : trimRight text = [] ↔ ∀ c ∈ text, isSp c = true := by
  simp [trimRight, List.dropWhile_eq_nil_iff]

private theorem trimRight_continues {text : Bytes} (some_ : trimRight text ≠ []) :
    continues (trimRight text) = continues text := by
  obtain ⟨spaces, -, split⟩ := trimRight_front text
  obtain ⟨c, more, front⟩ := List.exists_cons_of_ne_nil some_
  rw [front] at split ⊢
  rw [split]
  rfl

private theorem trim_nil_iff {text : Bytes} : trim text = [] ↔ ∀ c ∈ text, isSp c = true := by
  rw [trim, trimRight_nil_iff]
  constructor
  · intro blank
    apply List.dropWhile_eq_nil_iff.mp
    have first := List.head?_dropWhile_not isSp text
    cases rest : text.dropWhile isSp with
    | nil => rfl
    | cons c more =>
      rw [rest] at first blank
      rw [List.head?_cons] at first
      exact absurd (blank c List.mem_cons_self) (by simpa using first)
  · intro all c member
    exact all c ((List.dropWhile_suffix isSp).subset member)

private theorem trim_starts (text : Bytes) : continues (trim text) = false := by
  by_cases none : trim text = []
  · rw [none]
    rfl
  · rw [trim, trimRight_continues none, continues]
    have first := List.head?_dropWhile_not isSp text
    cases start : (text.dropWhile isSp).head? with
    | none => rfl
    | some c =>
      rw [start] at first
      simpa using first

/-- A value that begins on its line is collected as it was sent. -/
private theorem header_begins (begins : f.Begins) : f.header = { name := f.name, value := f.text } := by
  rw [Field.header, Field.text, trim, Field.collected, List.dropWhile_append]
  split
  · rename_i blank
    have more := begins (List.dropWhile_eq_nil_iff.mp (List.isEmpty_iff.mp blank))
    rw [List.isEmpty_iff.mp blank, List.nil_append, trimRight_nil_iff.mpr more,
      List.dropWhile_eq_nil_iff.mpr more]
    rfl
  · rfl

/-- A value that does not is collected with the spaces before it. -/
private theorem header_late (continued : Continued f) (late : ¬f.Begins) :
    f.text ≠ [] ∧ continues f.header.value = true := by
  have blank : ∀ c ∈ f.value, isSp c = true :=
    Classical.byContradiction fun other => late fun all => absurd all other
  have more : ¬∀ c ∈ f.more, isSp c = true := fun all => late fun _ => all
  constructor
  · intro none
    exact more fun c member => trim_nil_iff.mp none c (List.mem_append_right _ member)
  · have value : f.header.value = trimRight f.more := by
      rw [Field.header, Field.collected, List.dropWhile_eq_nil_iff.mpr blank, List.nil_append]
    rw [value, trimRight_continues fun none => more (trimRight_nil_iff.mp none)]
    exact continued.resolve_left fun none => more (by simp [none])

private theorem header_iff (continued : Continued f) :
    f.header = { name := f.name, value := f.text } ↔ f.Begins := by
  constructor
  · intro same
    refine Classical.byContradiction fun late => ?_
    have starts := (header_late continued late).2
    rw [same, show f.text = trim (f.value ++ f.more) from rfl, trim_starts] at starts
    cases starts
  · exact header_begins

private theorem trim_ends {text : Bytes} {c : UInt8}
    (last : (trim text).getLast? = some c) : isSp c = false := by
  have first := List.head?_dropWhile_not isSp (text.dropWhile isSp).reverse
  rw [trim, trimRight, List.getLast?_reverse] at last
  rw [last] at first
  exact first

end Values

section Authorization

/-- The value can be found again, less the letter case of the scheme and the number of
spaces behind it. -/
def Recovers (value credentials : Bytes) : Prop :=
  value = [] ∧ credentials = [] ∨
    credentials ≠ [] ∧ ∃ scheme spaces, toLower scheme = str "basic" ∧ spaces ≠ [] ∧
    (∀ c ∈ spaces, isSp c = true) ∧
      value = scheme ++ spaces ++ credentials

theorem authorization_none {value : Bytes} (starts : continues value = true) :
    parseAuthorizationBasic value = none := by
  have other : toLower (value.take 5) ≠ str "basic" := by
    cases value with
    | nil => cases starts
    | cons c value =>
      intro same
      have first : lowerChar c = ch 'b' :=
        (List.cons.inj (show lowerChar c :: toLower (value.take 4) = ch 'b' :: str "asic" from same)).1
      have sp : isSp c = true := starts
      revert sp first
      refine byte_cases (P := fun c => lowerChar c = ch 'b' → isSp c = true → False) ?_ c
      decide +kernel
  rw [parseAuthorizationBasic, if_pos (.inr (.inl other))]

/-- The parser keeps an authorization that it recognises, and nothing of another one. -/
private theorem recovers_iff (text : Bytes) :
    Recovers (trim text) ((parseAuthorizationBasic (trim text)).getD []) ↔
      trim text = [] ∨ (parseAuthorizationBasic (trim text)).isSome = true := by
  constructor
  · rintro (⟨none, -⟩ | ⟨some_, -⟩)
    · exact .inl none
    · cases found : parseAuthorizationBasic (trim text) with
      | none =>
        rw [found] at some_
        exact absurd rfl some_
      | some token => exact .inr rfl
  · rintro (none | found)
    · rw [none]
      exact .inl ⟨rfl, rfl⟩
    · refine .inr ?_
      have last : ∀ c, (trim text).getLast? = some c → isSp c = false := fun c last => trim_ends last
      generalize trim text = value at found last ⊢
      unfold parseAuthorizationBasic at found ⊢
      split at found
      · cases found
      rename_i basic
      rw [if_neg basic]
      simp only [not_or, Nat.not_lt, Decidable.not_not, ne_eq] at basic
      obtain ⟨long, scheme, sp⟩ := basic
      rw [Option.getD_some]
      have behind : value.drop 5 = value.getD 5 0 :: value.drop 6 := by
        have within : 5 < value.length := by omega
        rw [List.drop_eq_getElem_cons within, List.getD_eq_getElem?_getD,
          List.getElem?_eq_getElem within, Option.getD_some]
      have split : value = value.take 5 ++ (value.getD 5 0 :: (value.drop 6).takeWhile isSp) ++
          (value.drop 6).dropWhile isSp := by
        rw [List.append_assoc, List.cons_append, List.takeWhile_append_dropWhile, ← behind,
          List.take_append_drop]
      refine ⟨fun none => ?_, value.take 5, value.getD 5 0 :: (value.drop 6).takeWhile isSp,
        scheme, by simp, ?_, split⟩
      · rw [none, List.append_nil] at split
        have blank : ∀ c ∈ value.getD 5 0 :: (value.drop 6).takeWhile isSp, isSp c = true := by
          intro c member
          rcases List.mem_cons.mp member with rfl | member
          · exact sp
          · exact List.mem_takeWhile_imp member
        cases end_ : (value.getD 5 0 :: (value.drop 6).takeWhile isSp).getLast? with
        | none => simp at end_
        | some c =>
          have ends : value.getLast? = some c := by
            rw [split, List.getLast?_append, end_, Option.some_or]
          have blank_ := blank c (List.mem_of_getLast? end_)
          rw [last c ends] at blank_
          cases blank_
      · intro c member
        rcases List.mem_cons.mp member with rfl | member
        · exact sp
        · exact List.mem_takeWhile_imp member

end Authorization

section Retention

variable {fields : List Field} {f : Field} {text : Bytes} {p : RequestParser}

/-- Every value that is not read for what it says is in the message. -/
structure Retained (fields : List Field) (req : RequestHeader) : Prop where
  headers : req.headers = (fields.filter fun f => f.name ∉ specialNames).map fun f =>
    { name := f.name, value := f.text }
  host : ∀ f ∈ fields, f.name = str "host" → req.host = f.text
  origin : ∀ f ∈ fields, f.name = str "origin" → req.origin = f.text
  key : ∀ f ∈ fields, f.name = str "sec-websocket-key" → req.secWebsocketKey = f.text
  version : ∀ f ∈ fields, f.name = str "sec-websocket-version" → req.secWebsocketVersion = f.text
  authorization : ∀ f ∈ fields, f.name = str "authorization" → Recovers f.text req.basicAuthorization

/-- Every such value begins on the line of its name, and an authorization is one that
the parser looks for. -/
structure Recognized (fields : List Field) : Prop where
  begins : ∀ f ∈ fields, f.name ∉ readNames → f.Begins
  basic : ∀ f ∈ fields, f.name = str "authorization" → f.text = [] ∨
    (parseAuthorizationBasic f.text).isSome = true

private theorem keep_headers (fields : List Field) :
    (keep fields).headers = (fields.filter fun f => f.name ∉ specialNames).map Field.header := by
  suffices ∀ kept : Kept, (fields.foldl (fun kept f => kept.add f.header) kept).headers =
      kept.headers ++ (fields.filter fun f => f.name ∉ specialNames).map Field.header from this {}
  induction fields with
  | nil => simp
  | cons f fields ih =>
    intro kept
    rw [List.foldl_cons, ih]
    have name : f.header.name = f.name := rfl
    by_cases special : f.name ∈ specialNames
    · have same : (kept.add f.header).headers = kept.headers := by
        simp only [specialNames, List.mem_cons, List.not_mem_nil, or_false] at special
        unfold Kept.add
        repeat' split
        all_goals try rfl
        simp_all [readNames]
      rw [same, List.filter_cons_of_neg (by simpa using special)]
    · have added : (kept.add f.header).headers = kept.headers ++ [f.header] := by
        simp only [specialNames, List.mem_cons, List.not_mem_nil, not_or, or_false] at special
        simp [Kept.add, readNames, name, special]
      rw [added, List.filter_cons_of_pos (by simpa using special), List.map_cons, List.append_assoc]
      rfl

/-- A header writes the field of its own name and no other. -/
private theorem add_fields (kept : Kept) (h : Header) :
    (kept.add h).host = (if h.name = str "host" then h.value else kept.host) ∧
      (kept.add h).origin = (if h.name = str "origin" then h.value else kept.origin) ∧
      (kept.add h).key = (if h.name = str "sec-websocket-key" then h.value else kept.key) ∧
      (kept.add h).version = (if h.name = str "sec-websocket-version" then h.value else kept.version) ∧
      (kept.add h).authorization =
        if h.name = str "authorization" then
          (parseAuthorizationBasic h.value).getD kept.authorization else kept.authorization := by
  unfold Kept.add
  split
  · rename_i read
    simp only [readNames, List.mem_cons, List.not_mem_nil, or_false] at read
    rcases read with name | name | name | name | name
    all_goals
      rw [name]
      exact ⟨rfl, rfl, rfl, rfl, rfl⟩
  -- one name after the other, in the order of the comparisons
  iterate 4
    split
    · rename_i name
      rw [name]
      exact ⟨rfl, rfl, rfl, rfl, rfl⟩
  split <;> exact ⟨rfl, rfl, rfl, rfl, rfl⟩

/-- A field that one name alone writes. -/
private theorem keep_own (get : Kept → Bytes) {name : Bytes} (value : Bytes → Bytes → Bytes)
    (written : ∀ kept h, get (Kept.add kept h) = if h.name = name then
      value h.value (get kept) else get kept)
    (distinct : (fields.map (·.name)).Nodup) (member : f ∈ fields) (named : f.name = name) :
    get (keep fields) = value f.header.value (get {}) := by
  have skips : ∀ (fields : List Field) kept, name ∉ fields.map (·.name) →
      get (fields.foldl (fun kept f => kept.add f.header) kept) = get kept := by
    intro fields
    induction fields with
    | nil => exact fun _ _ => rfl
    | cons g fields ih =>
      intro kept absent
      rw [List.map_cons, List.mem_cons, not_or] at absent
      rw [List.foldl_cons, ih _ absent.2, written]
      exact if_neg (Ne.symm absent.1)
  obtain ⟨front, back, rfl⟩ := List.append_of_mem member
  rw [List.map_append, List.map_cons, List.nodup_append] at distinct
  obtain ⟨-, later, apart⟩ := distinct
  rw [List.nodup_cons, named] at later
  have before : name ∉ front.map (·.name) := fun member => apart name member name (by simp [named]) rfl
  rw [keep, List.foldl_append, List.foldl_cons, skips back _ later.1, written, skips front _ before]
  exact if_pos named

private theorem header_kept (continued : Continued f) : f.header.value = f.text ↔ f.Begins := by
  rw [← header_iff continued]
  constructor
  · intro same
    rw [← same]
    rfl
  · exact fun same => congrArg Header.value same

private theorem keep_fields (distinct : (fields.map (·.name)).Nodup) (member : f ∈ fields) :
    (f.name = str "host" → (keep fields).host = f.header.value) ∧
      (f.name = str "origin" → (keep fields).origin = f.header.value) ∧
      (f.name = str "sec-websocket-key" → (keep fields).key = f.header.value) ∧
      (f.name = str "sec-websocket-version" → (keep fields).version = f.header.value) ∧
      (f.name = str "authorization" →
        (keep fields).authorization = (parseAuthorizationBasic f.header.value).getD []) :=
  ⟨keep_own Kept.host (fun value _ => value) (fun kept h => (add_fields kept h).1) distinct member,
    keep_own Kept.origin (fun value _ => value) (fun kept h => (add_fields kept h).2.1) distinct member,
    keep_own Kept.key (fun value _ => value) (fun kept h => (add_fields kept h).2.2.1) distinct member,
    keep_own Kept.version (fun value _ => value)
      (fun kept h => (add_fields kept h).2.2.2.1) distinct member,
    keep_own Kept.authorization (fun value old => (parseAuthorizationBasic value).getD old)
      (fun kept h => (add_fields kept h).2.2.2.2) distinct member⟩

/-- What the fields hold of some lines with different names is retained exactly if the
parser recognises all the values. -/
private theorem keep_retained_iff (continued : ∀ f ∈ fields, Continued f)
    (distinct : (fields.map (·.name)).Nodup) {req : RequestHeader}
    (kept : keptOf req = keep fields) : Retained fields req ↔ Recognized fields := by
  have headers : req.headers = (fields.filter fun f => f.name ∉ specialNames).map Field.header :=
    (congrArg Kept.headers kept).trans (keep_headers fields)
  have values := fun f (member : f ∈ fields) => keep_fields distinct member
  rw [← kept] at values
  -- an authorization that begins later is not looked into
  have late : ∀ f ∈ fields, f.name = str "authorization" →
      Recovers f.text req.basicAuthorization → f.Begins := by
    intro f member named recovers
    refine Classical.byContradiction fun other => ?_
    obtain ⟨some_, starts⟩ := header_late (continued f member) other
    have none : req.basicAuthorization = [] := by
      refine ((values f member).2.2.2.2 named).trans ?_
      rw [authorization_none starts]
      rfl
    rcases recovers with ⟨empty, -⟩ | ⟨credentials, -⟩
    · exact some_ empty
    · exact credentials none
  have credentials : ∀ f ∈ fields, f.name = str "authorization" → f.Begins →
      (Recovers f.text req.basicAuthorization ↔ f.text = [] ∨
        (parseAuthorizationBasic f.text).isSome = true) := by
    intro f member named begins
    rw [← show (keptOf req).authorization = req.basicAuthorization from rfl,
      (values f member).2.2.2.2 named, (header_kept (continued f member)).mpr begins]
    exact recovers_iff _
  constructor
  · intro retained
    constructor
    · intro f member other
      rw [← header_kept (continued f member)]
      obtain ⟨host, origin, key, version, -⟩ := values f member
      by_cases extra : f.name ∈ specialNames
      · simp only [readNames, specialNames, List.mem_cons, List.not_mem_nil, or_false,
          not_or] at other extra
        rcases extra with named | named | named | named | named | named | named | named | named | named
        · exact absurd named other.1
        · exact absurd named other.2.2.1
        · exact (host named).symm.trans (retained.host f member named)
        · exact (origin named).symm.trans (retained.origin f member named)
        · exact absurd named other.2.1
        · exact absurd named other.2.2.2.1
        · exact (header_kept (continued f member)).mpr
            (late f member named (retained.authorization f member named))
        · exact absurd named other.2.2.2.2
        · exact (key named).symm.trans (retained.key f member named)
        · exact (version named).symm.trans (retained.version f member named)
      · have same := List.map_inj_left.mp (headers.symm.trans retained.headers) f
          (List.mem_filter.mpr ⟨member, by simpa using extra⟩)
        exact congrArg Header.value same
    · intro f member named
      have recovers := retained.authorization f member named
      exact (credentials f member named (late f member named recovers)).mp recovers
  · intro recognized
    have same : ∀ f ∈ fields, f.name ∉ readNames → f.header.value = f.text := fun f member other =>
      (header_kept (continued f member)).mpr (recognized.begins f member other)
    constructor
    · rw [headers]
      refine List.map_congr_left fun f member => ?_
      obtain ⟨within, extra⟩ := List.mem_filter.mp member
      refine header_begins (recognized.begins f within fun read => ?_)
      simp only [specialNames, readNames, List.mem_cons, List.not_mem_nil, or_false,
        decide_eq_true_eq] at extra read
      rcases read with named | named | named | named | named <;> simp [named] at extra
    · exact fun f member named =>
        ((values f member).1 named).trans (same f member (by rw [named]; decide))
    · exact fun f member named =>
        ((values f member).2.1 named).trans (same f member (by rw [named]; decide))
    · exact fun f member named =>
        ((values f member).2.2.1 named).trans (same f member (by rw [named]; decide))
    · exact fun f member named =>
        ((values f member).2.2.2.1 named).trans (same f member (by rw [named]; decide))
    · intro f member named
      exact (credentials f member named (recognized.begins f member (by rw [named]; decide))).mpr
        (recognized.basic f member named)

/-- Of an accepted request without repeated names, every value is retained exactly if
the parser recognises all of them. -/
theorem accepted_retained_iff (accepted : AcceptsWhole text p)
    (distinct : ((headerFields text).map (·.name)).Nodup) :
    Retained (headerFields text) p.req ↔ Recognized (headerFields text) :=
  keep_retained_iff (fieldsOf_continued _) distinct (accepted_kept accepted)

theorem accepted_retained_iff_basic :
    ∃ p, AcceptsWhole
        (str "GET / HTTP/1.1\r\nHost: a\r\nAuthorization : BASIC  dTpw\r\nX-Id: 7\r\n\t8 \r\n\r\n") p ∧
      Retained [⟨str "host", str " a", []⟩, ⟨str "authorization", str " BASIC  dTpw", []⟩,
        ⟨str "x-id", str " 7", str "\t8 "⟩] p.req := by
  obtain ⟨p, accepted, -⟩ :=
    acceptsWhole_of_run
      (str "GET / HTTP/1.1\r\nHost: a\r\nAuthorization : BASIC  dTpw\r\nX-Id: 7\r\n\t8 \r\n\r\n")
      (fun p => p.req.basicAuthorization) (str "dTpw") (by decide +kernel)
  have fields :
      headerFields
        (str "GET / HTTP/1.1\r\nHost: a\r\nAuthorization : BASIC  dTpw\r\nX-Id: 7\r\n\t8 \r\n\r\n") =
      [⟨str "host", str " a", []⟩, ⟨str "authorization", str " BASIC  dTpw", []⟩,
        ⟨str "x-id", str " 7", str "\t8 "⟩] := by decide +kernel
  have retained := (accepted_retained_iff accepted (by rw [fields]; decide +kernel)).mpr (by
    rw [fields]
    constructor
    · intro f member _ blank
      simp only [List.mem_cons, List.not_mem_nil, or_false] at member
      rcases member with rfl | rfl | rfl
      · simp
      · simp
      · exact absurd (blank (ch '7') (by decide)) (by decide)
    · intro f member named
      simp only [List.mem_cons, List.not_mem_nil, or_false] at member
      rcases member with rfl | rfl | rfl
      · exact absurd named (by decide)
      · exact .inr (by decide +kernel)
      · exact absurd named (by decide))
  rw [fields] at retained
  exact ⟨p, accepted, retained⟩

/-- A bearer token is lost without an error, and a value on a line of its own comes
back with the space before it. -/
theorem values_lost :
    (∃ p, AcceptsWhole (str "GET / HTTP/1.1\r\nauthorization: Bearer t\r\n\r\n") p ∧
        headerFields (str "GET / HTTP/1.1\r\nauthorization: Bearer t\r\n\r\n") =
          [⟨str "authorization", str " Bearer t", []⟩] ∧
        ¬Retained [⟨str "authorization", str " Bearer t", []⟩] p.req) ∧
      ∃ p, AcceptsWhole (str "GET / HTTP/1.1\r\nx-id:\r\n 7\r\n\r\n") p ∧
        headerFields (str "GET / HTTP/1.1\r\nx-id:\r\n 7\r\n\r\n") = [⟨str "x-id", [], str " 7"⟩] ∧
        ¬Retained [⟨str "x-id", [], str " 7"⟩] p.req := by
  constructor
  · obtain ⟨p, accepted, none⟩ :=
      acceptsWhole_of_run (str "GET / HTTP/1.1\r\nauthorization: Bearer t\r\n\r\n")
      (fun p => p.req.basicAuthorization) [] (by decide +kernel)
    refine ⟨p, accepted, by decide +kernel, fun retained => ?_⟩
    rcases retained.authorization _ List.mem_cons_self rfl with ⟨empty, -⟩ | ⟨credentials, -⟩
    · exact absurd empty (by decide +kernel)
    · exact credentials none
  · obtain ⟨p, accepted, spaced⟩ := acceptsWhole_of_run (str "GET / HTTP/1.1\r\nx-id:\r\n 7\r\n\r\n")
      (fun p => p.req.headers) [⟨str "x-id", str " 7"⟩] (by decide +kernel)
    refine ⟨p, accepted, by decide +kernel, fun retained => ?_⟩
    have same := spaced.symm.trans retained.headers
    exact absurd same (by decide +kernel)

end Retention

end Crablib.RetentionProofs
