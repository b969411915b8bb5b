import Crablib.RequestTextProofs
import Crablib.ResponseTextProofs

/-! The header lines of requests and responses, read side by side. From the first line
on both readers go through a text in lockstep, as long as no header comes that only
one of them knows. -/
namespace Crablib.LockstepProofs
open Http Scanner HeaderProofs HeaderTextProofs

/-- The names that one of the parsers handles in its own way. -/
def ownNames : List Bytes :=
  [str "host", str "origin", str "authorization", str "sec-websocket-key", str "sec-websocket-version",
    str "sec-websocket-accept", str "date", str "server"]

section Names

/-- A reader of header lines that makes nothing of them. -/
def nameActions : LineActions Unit where
  processReadyHeader := fun _ _ => .ok ()
  atFirstLine := id
  invalidState := ""

/-- Names from a place in the header block on: each is complete at its colon. -/
def namesFrom : HeaderLines Unit → Bytes → List Bytes
  | _, [] => []
  | p, c :: text =>
    match consumeLine nameActions p c with
    | .error _ => []
    | .ok q => (if q.state = .spaceBeforeHeaderValue then [q.header.name] else []) ++ namesFrom q text

/-- The names of the headers in a text that follows the first line. -/
def headerNames (text : Bytes) : List Bytes := namesFrom { req := () } text

/-- The place in the header block, without the message. -/
def place {ρ : Type} (p : HeaderLines ρ) : HeaderLines Unit :=
  { state := p.state, header := p.header, headerCmsList := p.headerCmsList, req := () }

private theorem ready_named {ρ : Type} (p : HeaderLines ρ) :
    readyHeader nameActions (place p) = .ok () := by
  simp only [readyHeader, nameActions]
  split <;> rfl

private theorem lineStart_place {ρ : Type} {p q : HeaderLines ρ} {c : UInt8}
    (started : lineStart p c = .ok q) :
    lineStart (place p) c = .ok (place q) := by
  unfold lineStart at started ⊢
  split at started
  · cases started
    simp_all [place]
  split at started
  · cases started
    simp_all [place]
  split at started
  · cases started
  · cases started
    simp_all [place]

private theorem headerColon_place {ρ : Type} {p q : HeaderLines ρ} {c : UInt8}
    (read : headerColon p c = .ok q) :
    headerColon (place p) c = .ok (place q) := by
  unfold headerColon at read ⊢
  split at read
  · cases read
    simp_all [place]
  split at read
  · cases read
  · cases read
    simp_all [place]

private theorem headerValue_place {ρ : Type} {actions : LineActions ρ} {p q : HeaderLines ρ} {c : UInt8}
    (read : headerValue actions p c = .ok q) : headerValue nameActions (place p) c = .ok (place q) := by
  have ready := ready_named p
  unfold headerValue at read ⊢
  split at read
  · cases read
    simp_all [place]
  split at read
  · cases read
    simp_all [place]
  split at read
  · cases read
  split at read
  · split at read
    · cases read
    · cases read
      simp_all [place]
  · cases read
    simp_all [place]

/-- A parser that goes on takes its place along. -/
theorem consumeLine_place {ρ : Type} {actions : LineActions ρ} {p q : HeaderLines ρ} {c : UInt8}
    (consumed : consumeLine actions p c = .ok q) :
    consumeLine nameActions (place p) c = .ok (place q) := by
  obtain ⟨state, header, list, req⟩ := p
  cases state <;> simp only [consumeLine, place] at consumed ⊢
  case firstHeaderLineStart =>
    have started := lineStart_place consumed
    exact started
  case headerLineStart =>
    split at consumed
    · rename_i sp
      cases consumed
      rw [if_pos sp]
    · rename_i sp
      rw [if_neg sp]
      split at consumed
      · cases consumed
      · have ready := ready_named (⟨.headerLineStart, header, list, req⟩ : HeaderLines ρ)
        have started := lineStart_place consumed
        rw [place] at ready
        rw [ready]
        exact started
  case headerName =>
    split at consumed
    · rename_i sp
      cases consumed
      rw [if_pos sp]
    · rename_i sp
      rw [if_neg sp]
      split at consumed
      · rename_i name
        rw [if_pos name]
        split at consumed
        · cases consumed
        · rename_i token
          cases consumed
          rw [if_neg token]
      · rename_i colon
        rw [if_neg colon]
        exact headerColon_place consumed
  case headerColon => exact headerColon_place consumed
  case spaceBeforeHeaderValue =>
    split at consumed
    · rename_i sp
      cases consumed
      rw [if_pos sp]
    · rename_i sp
      rw [if_neg sp]
      exact headerValue_place consumed
  case headerValue => exact headerValue_place consumed
  case headerLf =>
    split at consumed
    · cases consumed
    · rename_i newline
      cases consumed
      rw [if_neg newline]
  case finalLf =>
    split at consumed
    · cases consumed
    · rename_i newline
      cases consumed
      rw [if_neg newline]
  case good => cases consumed

theorem namesFrom_front (p : HeaderLines Unit) (front back : Bytes) {name : Bytes}
    (member : name ∈ namesFrom p front) : name ∈ namesFrom p (front ++ back) := by
  induction front generalizing p with
  | nil => simp [namesFrom] at member
  | cons c front ih =>
    simp only [namesFrom, List.cons_append] at member ⊢
    split at member
    · simp at member
    · rcases List.mem_append.mp member with here | later
      · exact List.mem_append_left _ here
      · exact List.mem_append_right _ (ih _ later)

end Names

section Lockstep

/-- The name of the current header is complete. -/
def isNamed : LineState → Bool
  | .spaceBeforeHeaderValue | .headerValue | .headerLf | .headerLineStart => true
  | _ => false

/-- The fields that requests and responses share. -/
def SameFields (r : RequestHeader) (s : ResponseHeader) : Prop :=
  r.toRequestResponseHeader = s.toRequestResponseHeader

/-- Two parsers at the same place with the same fields. The request parser sets its
default for `keep_alive` only when it enters the first line. -/
structure Agree (p : HeaderLines RequestHeader) (q : HeaderLines ResponseHeader) : Prop where
  place : place p = place q
  first : p.state = .firstHeaderLineStart → SameFields (RequestParser.actions.atFirstLine p.req) q.req
  later : p.state ≠ .firstHeaderLineStart → SameFields p.req q.req
  own : isNamed p.state = true → p.header.name ∉ ownNames

/-- A header that both know, or none, does the same to both. -/
theorem processReadyHeader_alike {h : Header} {r : RequestHeader} {s : ResponseHeader}
    (own : h.name ∉ ownNames) (same : SameFields r s) :
    Steps (fun (_ : Bytes) => SameFields) [] (RequestParser.processReadyHeader h r)
      (ResponseParser.processReadyHeader h s) := by
  simp only [ownNames, List.mem_cons, List.not_mem_nil, or_false, not_or] at own
  obtain ⟨host, origin, authorization, key, version, accept, date, server⟩ := own
  have same' : r.toRequestResponseHeader = s.toRequestResponseHeader := same
  simp only [RequestParser.processReadyHeader, ResponseParser.processReadyHeader, same', host,
    origin, authorization, key, version, accept, date, server, ↓reduceIte]
  cases processCommonHeader h.name h.value s.toRequestResponseHeader with
  | none => exact .ok rfl
  | some result =>
    cases result with
    | error e => exact .error e
    | ok common => exact .ok rfl

variable {p : HeaderLines RequestHeader} {q : HeaderLines ResponseHeader} {c : UInt8}

private theorem readyHeader_alike (same : place p = place q) (fields : SameFields p.req q.req)
    (own : p.header.name ∉ ownNames) :
    Steps (fun (_ : Bytes) => SameFields) [] (readyHeader RequestParser.actions p)
      (readyHeader ResponseParser.actions q) := by
  simp only [place, HeaderLines.mk.injEq, and_true] at same
  obtain ⟨-, header, list⟩ := same
  simp only [readyHeader, header, list]
  split
  · exact .ok fields
  · exact processReadyHeader_alike (by rwa [header] at own) fields

private theorem lineStart_alike (header : p.header = q.header) (list : p.headerCmsList = q.headerCmsList)
    (fields : SameFields p.req q.req) :
    Steps (fun (_ : Bytes) => Agree) [] (lineStart p c) (lineStart q c) := by
  simp only [lineStart, header]
  split
  · exact .ok ⟨by simp [place, list], by simp, fun _ => fields, by simp [isNamed]⟩
  split
  · exact .ok ⟨by simp [place, list], by simp, fun _ => fields, by simp [isNamed]⟩
  split
  · exact .error _
  · exact .ok ⟨by simp [place, list], by simp, fun _ => fields, by simp [isNamed]⟩

private theorem headerColon_alike (agree : Agree p q) (running : p.state ≠ .firstHeaderLineStart)
    (named : ∀ p', headerColon p c = .ok p' → p'.state = .spaceBeforeHeaderValue →
      p'.header.name ∉ ownNames) :
    Steps (fun (_ : Bytes) => Agree) [] (headerColon p c) (headerColon q c) := by
  have same := agree.place
  simp only [place, HeaderLines.mk.injEq, and_true] at same
  obtain ⟨-, header, list⟩ := same
  have fields := agree.later running
  simp only [headerColon, header] at named ⊢
  split
  · exact .ok ⟨by simp [place, list], by simp, fun _ => fields, by simp [isNamed]⟩
  split
  · exact .error _
  · rename_i sp colon
    rw [if_neg sp, if_neg colon] at named
    exact .ok ⟨by simp [place], by simp, fun _ => fields, fun _ => named _ rfl rfl⟩

private theorem headerValue_alike (agree : Agree p q) (named : isNamed p.state = true) :
    Steps (fun (_ : Bytes) => Agree) []
      (headerValue RequestParser.actions p c) (headerValue ResponseParser.actions q c) := by
  have same := agree.place
  simp only [place, HeaderLines.mk.injEq, and_true] at same
  obtain ⟨-, header, list⟩ := same
  have own := agree.own named
  have fields : SameFields p.req q.req := agree.later (by rintro state; simp [state, isNamed] at named)
  simp only [headerValue, list]
  split
  · exact .ok ⟨by simp [place, header], by simp, fun _ => fields, fun _ => own⟩
  split
  · exact .ok ⟨by simp [place, header], by simp, fun _ => fields, fun _ => own⟩
  split
  · exact .error _
  split
  · have ready := readyHeader_alike agree.place fields own
    generalize readyHeader RequestParser.actions p = first at ready
    generalize readyHeader ResponseParser.actions q = second at ready
    cases ready with
    | error e => exact .error e
    | ok fields => exact .ok ⟨by simp [place, header], by simp, fun _ => fields, fun _ => own⟩
  · exact .ok ⟨by simp [place, header], by simp, fun _ => fields, fun _ => own⟩

/-- One byte keeps the parsers together, or makes both fail in the same way. -/
theorem consumeLine_alike (agree : Agree p q) (running : p.state ≠ .good)
    (named : ∀ p', consumeLine RequestParser.actions p c = .ok p' → p'.state = .spaceBeforeHeaderValue →
      p'.header.name ∉ ownNames) :
    Steps (fun (_ : Bytes) => Agree) []
      (consumeLine RequestParser.actions p c) (consumeLine ResponseParser.actions q c) := by
  have same := agree.place
  obtain ⟨state, header, list, r⟩ := p
  obtain ⟨_, _, _, s⟩ := q
  simp only [place, HeaderLines.mk.injEq, and_true] at same
  obtain ⟨rfl, rfl, rfl⟩ := same
  cases state <;> simp only [consumeLine] at named ⊢
  case firstHeaderLineStart => exact lineStart_alike rfl rfl (agree.first rfl)
  case headerLineStart =>
    have own := agree.own rfl
    have fields := agree.later (by simp)
    split
    · exact .ok ⟨rfl, by simp, fun _ => fields, fun _ => own⟩
    · have ready := readyHeader_alike agree.place fields own
      generalize readyHeader RequestParser.actions _ = first at ready
      generalize readyHeader ResponseParser.actions _ = second at ready
      cases ready with
      | error e => exact .error e
      | ok fields => exact lineStart_alike rfl rfl fields
  case headerName =>
    have fields := agree.later (by simp)
    split
    · exact .ok ⟨rfl, by simp, fun _ => fields, by simp [isNamed]⟩
    · rename_i sp
      rw [if_neg sp] at named
      split
      · split
        · exact .error _
        · exact .ok ⟨rfl, by simp, fun _ => fields, by simp [isNamed]⟩
      · rename_i colon
        rw [if_neg colon] at named
        exact headerColon_alike agree (by simp) named
  case headerColon => exact headerColon_alike agree (by simp) named
  case spaceBeforeHeaderValue =>
    split
    · exact .ok agree
    · exact headerValue_alike agree rfl
  case headerValue => exact headerValue_alike agree rfl
  case headerLf =>
    split
    · exact .error _
    · exact .ok ⟨rfl, by simp, fun _ => agree.later (by simp), fun _ => agree.own rfl⟩
  case finalLf =>
    split
    · exact .error _
    · exact .ok ⟨rfl, by simp, fun _ => agree.later (by simp), by simp [isNamed]⟩
  case good => exact absurd rfl running

end Lockstep

section FirstLine

private theorem lineStart_leaves {ρ : Type} {p q : HeaderLines ρ} {c : UInt8}
    (started : lineStart p c = .ok q) :
    q.state ≠ .firstHeaderLineStart := by
  unfold lineStart at started
  repeat' split at started
  all_goals cases started <;> simp

private theorem headerColon_leaves {ρ : Type} {p q : HeaderLines ρ} {c : UInt8}
    (read : headerColon p c = .ok q) :
    q.state ≠ .firstHeaderLineStart := by
  unfold headerColon at read
  repeat' split at read
  all_goals cases read <;> simp

private theorem headerValue_leaves {ρ : Type} {actions : LineActions ρ} {p q : HeaderLines ρ} {c : UInt8}
    (read : headerValue actions p c = .ok q) : q.state ≠ .firstHeaderLineStart := by
  unfold headerValue at read
  repeat' split at read
  all_goals cases read <;> simp

/-- No byte leads to the first line. -/
theorem consumeLine_leaves {ρ : Type} {actions : LineActions ρ} {p q : HeaderLines ρ} {c : UInt8}
    (consumed : consumeLine actions p c = .ok q) : q.state ≠ .firstHeaderLineStart := by
  obtain ⟨state, header, list, req⟩ := p
  cases state <;> simp only [consumeLine] at consumed
  case firstHeaderLineStart => exact lineStart_leaves consumed
  case headerColon => exact headerColon_leaves consumed
  case headerValue => exact headerValue_leaves consumed
  all_goals
    repeat' split at consumed
    all_goals
      first
      | (cases consumed; done)
      | (cases consumed; simp)
      | exact lineStart_leaves consumed
      | exact headerColon_leaves consumed
      | exact headerValue_leaves consumed

/-- What holds of a parser in front of the header lines holds of it until it takes the
first byte of them. -/
theorem front_kept {ρ σ : Type} {actions : LineActions ρ} {n : Machine σ UInt8 Error}
    (reader : LineReader n actions) {P : σ → Prop}
    (keeps : ∀ {s c t}, ¬reader.behind s → P s → n.consume s c = .ok t → P t)
    {s t : σ} {text rest : Bytes} (start : P s)
    (scanned : scan n s text = .ok (t, rest))
    (first : reader.behind t → (reader.lines t).state = .firstHeaderLineStart) : P t := by
  let Front : σ → Prop := fun s =>
    (reader.behind s → (reader.lines s).state = .firstHeaderLineStart) → P s
  refine scan_preserves (P := Front) (fun s c t running front consumed => ?_) (fun _ => start) scanned
    first
  intro first
  by_cases behind : reader.behind s
  · rw [reader.consume behind] at consumed
    cases read : consumeLine actions (reader.lines s) c with
    | error e =>
      rw [read] at consumed
      cases consumed
    | ok l =>
      rw [read] at consumed
      cases consumed
      have state := first (reader.behind_set behind l)
      rw [reader.lines_set] at state
      exact absurd state (consumeLine_leaves read)
  · exact keeps behind (front fun there => absurd there behind) consumed

/-- The start line of a request leaves the header lines alone, and sets nothing of the
common fields but the version. -/
def RequestFresh (p : RequestParser) : Prop :=
  p.lines = { req := p.req } ∧ p.req.toRequestResponseHeader =
    { httpVersionMajor := p.req.httpVersionMajor, httpVersionMinor := p.req.httpVersionMinor }

theorem request_before {p q : RequestParser} {c : UInt8} (state : p.state ≠ .headerLines)
    (advanced : p.advance c = .ok q) :
    q.lines = { p.lines with req := q.req } ∧ q.req.toRequestResponseHeader =
      { p.req.toRequestResponseHeader with
        httpVersionMajor := q.req.httpVersionMajor, httpVersionMinor := q.req.httpVersionMinor } := by
  obtain ⟨state_, _, _, _⟩ := p
  cases state_ <;> simp only [RequestParser.advance, RequestParser.expectLetter] at advanced
  case headerLines => exact absurd rfl state
  all_goals
    repeat' split at advanced
    all_goals
      cases advanced
      try exact ⟨rfl, rfl⟩

theorem request_fresh {limit : Nat} {p : RequestParser} {text rest : Bytes}
    (parsed : RequestParser.parse { maxTotalLength := limit } text = .ok (p, rest))
    (first : p.state = .headerLines → p.lines.state = .firstHeaderLineStart) : RequestFresh p := by
  have fresh : RequestFresh { p with totalLength := 0 } := by
    refine front_kept RequestTextProofs.reader ?_ ⟨rfl, rfl⟩
      (RequestTextProofs.limited.scan_within parsed 0) first
    intro p c q front fresh advanced
    obtain ⟨lines, fields⟩ := request_before front advanced
    exact ⟨by rw [lines, fresh.1], by rw [fields, fresh.2]⟩
  exact fresh

/-- The states in which a response parser reads the version. -/
def readsVersion : ResponseParserState → Bool
  | .httpVersionH | .httpVersionHt | .httpVersionHtt | .httpVersionHttp | .httpVersionSlash
  | .httpVersionMajorStart | .httpVersionMajor | .httpVersionMinorStart | .httpVersionMinor => true
  | _ => false

/-- The status line leaves the header lines alone, and sets nothing of the common
fields but the version, and with it the default for `keep_alive`. -/
def ResponseFresh (p : ResponseParser) : Prop :=
  p.lines = { req := p.req } ∧ p.req.toRequestResponseHeader =
    { httpVersionMajor := p.req.httpVersionMajor, httpVersionMinor := p.req.httpVersionMinor
      keepAlive := readsVersion p.state || persists p.req.httpVersionMajor p.req.httpVersionMinor }

private theorem response_before {p q : ResponseParser} {c : UInt8} (state : p.state ≠ .headerLines)
    (keepAlive : p.req.keepAlive = (readsVersion p.state ||
      persists p.req.httpVersionMajor p.req.httpVersionMinor))
    (advanced : p.advance c = .ok q) :
    q.lines = { p.lines with req := q.req } ∧ q.req.toRequestResponseHeader =
      { p.req.toRequestResponseHeader with
        httpVersionMajor := q.req.httpVersionMajor, httpVersionMinor := q.req.httpVersionMinor
        keepAlive := readsVersion q.state ||
          persists q.req.httpVersionMajor q.req.httpVersionMinor } := by
  obtain ⟨state_, ⟨_, _, _, ⟨⟨major, minor, headers, keep, length, chunked, encodings, upgrade,
    websocket, mime, suffix⟩, _, _, _, _, _⟩⟩, _⟩ := p
  simp only [ResponseParser.req] at keepAlive
  subst keepAlive
  cases state_ <;> simp only [ResponseParser.advance, ResponseParser.expectLetter,
    ResponseParser.statusDigit, ResponseParser.statusText] at advanced
  case headerLines => exact absurd rfl state
  all_goals
    repeat' split at advanced
    all_goals
      cases advanced
      try exact ⟨rfl, rfl⟩

theorem response_fresh {limit : Nat} {p : ResponseParser} {text rest : Bytes}
    (parsed : ResponseParser.parse { maxTotalLength := limit } text = .ok (p, rest))
    (first : p.state = .headerLines → p.lines.state = .firstHeaderLineStart) : ResponseFresh p := by
  have fresh : ResponseFresh { p with totalLength := 0 } := by
    refine front_kept ResponseTextProofs.reader ?_ ⟨rfl, rfl⟩
      (ResponseTextProofs.limited.scan_within parsed 0) first
    intro p c q front fresh advanced
    obtain ⟨lines, fields⟩ := response_before front (by rw [fresh.2]) advanced
    exact ⟨by rw [lines, fresh.1], by rw [fields, fresh.2]⟩
  exact fresh

end FirstLine

section Abreast

/-- What the parsers throw at their limit. -/
def tooLong : Error := .runtime "HTTP Header too long - security violation"

/-- The readers are at the same place, and meet no name of their own in the text. -/
structure Abreast (text : Bytes) (l : HeaderLines RequestHeader)
    (l' : HeaderLines ResponseHeader) : Prop where
  agree : Agree l l'
  names : ∀ name ∈ namesFrom (place l) text, name ∉ ownNames

variable {l : HeaderLines RequestHeader} {l' : HeaderLines ResponseHeader} {c : UInt8} {text : Bytes}

theorem agree_state (agree : Agree l l') : l.state = l'.state := by
  have same := agree.place
  simp only [place, HeaderLines.mk.injEq, and_true] at same
  exact same.1

/-- The readers are past the first byte of the first line. -/
private def Further (text : Bytes) (l : HeaderLines RequestHeader)
    (l' : HeaderLines ResponseHeader) : Prop :=
  Abreast text l l' ∧ l.state ≠ .firstHeaderLineStart

private theorem abreast_step (abreast : Abreast (c :: text) l l') (running : l.state ≠ .good) :
    Steps Further text (consumeLine RequestParser.actions l c)
      (consumeLine ResponseParser.actions l' c) := by
  obtain ⟨agree, names⟩ := abreast
  have named : ∀ l₁, consumeLine RequestParser.actions l c = .ok l₁ →
      l₁.state = .spaceBeforeHeaderValue → l₁.header.name ∉ ownNames := by
    intro l₁ consumed state
    refine names _ ?_
    have here : (place l₁).state = .spaceBeforeHeaderValue := state
    simp only [namesFrom, consumeLine_place consumed, here, ↓reduceIte]
    exact List.mem_append_left _ (List.mem_singleton.mpr rfl)
  have stepped := consumeLine_alike agree running named
  generalize taken : consumeLine RequestParser.actions l c = result at stepped
  generalize consumeLine ResponseParser.actions l' c = result' at stepped
  cases stepped with
  | error e => exact .error e
  | ok agree' =>
    refine .ok ⟨⟨agree', fun name member => names name ?_⟩, consumeLine_leaves taken⟩
    simp only [namesFrom, consumeLine_place taken]
    exact List.mem_append_right _ member

/-- Abreast, the readers go through the text alike. Once a byte of it is read, they
hold the same fields. -/
theorem scan_abreast (abreast : Abreast text l l') (running : l.state ≠ .good) :
    Matches (fun _ l l' => l.state = l'.state ∧ (text ≠ [] → SameFields l.req l'.req))
      (scan (lineMachine RequestParser.actions) l text)
      (scan (lineMachine ResponseParser.actions) l' text) := by
  cases text with
  | nil => exact .ok [] ⟨agree_state abreast.agree, fun some_ => absurd rfl some_⟩
  | cons c text =>
    have open_ : (lineMachine RequestParser.actions).good l = false := by
      simpa [lineMachine] using running
    have open' : (lineMachine ResponseParser.actions).good l' = false := by
      simpa [lineMachine, ← agree_state abreast.agree] using running
    have step := abreast_step abreast running
    generalize first : consumeLine RequestParser.actions l c = result at step
    generalize second : consumeLine ResponseParser.actions l' c = result' at step
    cases step with
    | error e =>
      rw [scan_fail open_ first, scan_fail open' second]
      exact .error e
    | ok further =>
      rw [scan_step open_ first, scan_step open' second]
      have matches_ := scan_matches (m := lineMachine RequestParser.actions)
        (n := lineMachine ResponseParser.actions) (R := Further)
        (fun related => by simp only [lineMachine, agree_state related.1.agree])
        (fun related open_ => abreast_step related.1 (by simpa [lineMachine] using open_)) further
      exact matches_.mono fun _ _ _ related =>
        ⟨agree_state related.1.agree, fun _ => related.1.agree.later related.2⟩

end Abreast

end Crablib.LockstepProofs
