import Crablib.Http.QueryParser
import Mathlib.Data.List.TakeWhile

/-! What `parse_uri` makes of a text: its parts are found by their separators, and
the path is decoded, cut into segments and freed of its dot segments. -/
namespace Crablib.UriProofs
open Http URIParser

section Meaning

/-- The bytes that the text of a path stands for, with `none` for a separator. An
escape that is cut short or not made of hex digits stands for its own characters,
a separator among them is then no separator. -/
def unescape : Bytes → List (Option UInt8)
  | [] => []
  | c :: rest =>
    if c = ch '%' then
      match rest with
      | [] => [some c]
      | first :: rest =>
        match fromHexDigit first with
        | none => some c :: some first :: unescape rest
        | some digit1 =>
          match rest with
          | [] => [some c, some first]
          | second :: rest =>
            match fromHexDigit second with
            | none => some c :: some first :: some second :: unescape rest
            | some digit2 => some (UInt8.ofNat (digit1 * 16 + digit2)) :: unescape rest
    else if c = ch '/' then none :: unescape rest
    else some c :: unescape rest

/-- The segments behind one that is complete. -/
def leave (done : List Bytes) (segment : Bytes) : List Bytes :=
  if segment = str ".." then done.dropLast else if segment = str "." then done else done ++ [segment]

/-- The segments of a path whose dot segments are resolved, the last one as it is. -/
def resolve (done : List Bytes) (segment : Bytes) : List (Option UInt8) → List Bytes
  | [] => done ++ [segment]
  | none :: rest => resolve (leave done segment) [] rest
  | some c :: rest => resolve done (segment ++ [c]) rest

/-- What follows the `/` behind host and port. -/
def targetText (text : Bytes) : Bytes :=
  let authority := (text.dropWhile (· ≠ ch ':')).drop 3
  (authority.dropWhile (· ≠ ch '/')).drop 1

def pathText (text : Bytes) : Bytes := (targetText text).takeWhile (· ≠ ch '?')

def queryText (text : Bytes) : Bytes := ((targetText text).dropWhile (· ≠ ch '?')).drop 1

/-- The segments of the path, decoded. -/
def segments (text : Bytes) : List Bytes := resolve [] [] (unescape (pathText text))

end Meaning

section Phases

variable {p q : URIParser}

theorem parseRange_step {c : UInt8} (consumed : p.consume c = .ok q) (text : Bytes) :
    parseRange p (c :: text) = parseRange q text := by
  simp [parseRange, consumed]

/-- The components with the one under construction, an unfinished escape included. -/
def pending (p : URIParser) : List Bytes := p.flushEscape.pathComponents ++ [p.flushEscape.curPath]

/-- Somewhere in the path. -/
def InPath (p : URIParser) : Prop := p.state = .path ∨ p.state = .pathHex1 ∨ p.state = .pathHex2

private theorem persist_leave (p : URIParser) :
    p.persistPathComponent =
      { p with pathComponents := leave p.pathComponents p.curPath, curPath := [] } := by
  simp only [persistPathComponent, leave]
  split
  · rfl
  · split <;> simp_all

private theorem percent_step (state : p.state = .path) :
    p.consume (ch '%') = .ok (p.goTo .pathHex1) := by
  simp [consume, state]

private theorem first_step {first : UInt8} {digit : Nat} (question : first ≠ ch '?')
    (hex : fromHexDigit first = some digit) :
    (p.goTo .pathHex1).consume first = .ok { p with state := .pathHex2, percent1HexSym := first } := by
  simp [consume, goTo, question, hex]

/-- The text of a path is read as its meaning says. -/
private theorem parse_path (state : p.state = .path) {text : Bytes} (inside : ch '?' ∉ text) :
    ∃ q, (∀ rest, parseRange p (text ++ rest) = parseRange q rest) ∧ InPath q ∧ q.uri = p.uri ∧
      pending q = resolve p.pathComponents p.curPath (unescape text) := by
  -- along the recursion of `unescape`, which takes an escape at a time
  fun_induction unescape text generalizing p with
  | case1 => exact ⟨p, fun _ => rfl, .inl state, rfl, by simp [pending, flushEscape, state, resolve]⟩
  | case2 =>
    refine ⟨p.goTo .pathHex1, parseRange_step (percent_step state), .inr (.inl rfl), rfl, ?_⟩
    simp [pending, flushEscape, goTo, pushPath, resolve]
  | case3 first rest digit ih =>
    have question : first ≠ ch '?' := by grind
    have step : (p.goTo .pathHex1).consume first = .ok (p.pushPath [ch '%', first]) := by
      simp [consume, goTo, question, digit, pushPath, state]
    obtain ⟨q, ran, in_, uri, resolved⟩ := ih (p := p.pushPath [ch '%', first]) state (by grind)
    refine ⟨q, fun more => ?_, in_, uri, ?_⟩
    · exact (parseRange_step (percent_step state) _).trans ((parseRange_step step _).trans (ran more))
    · rw [resolved]
      simp [pushPath, resolve]
  | case4 first digit1 hex =>
    refine ⟨{ p with state := .pathHex2, percent1HexSym := first }, fun more => ?_,
      .inr (.inr rfl), rfl, ?_⟩
    · exact (parseRange_step (percent_step state) _).trans
        (parseRange_step (first_step (by grind) hex) _)
    · simp [pending, flushEscape, goTo, pushPath, resolve]
  | case5 first digit1 hex second rest digit ih =>
    have question : second ≠ ch '?' := by grind
    have step : { p with state := .pathHex2, percent1HexSym := first }.consume second =
        .ok { p with percent1HexSym := first, curPath := p.curPath ++ [ch '%', first, second] } := by
      simp [consume, goTo, question, digit, pushPath, state]
    obtain ⟨q, ran, in_, uri, resolved⟩ :=
      ih (p := { p with percent1HexSym := first, curPath := p.curPath ++ [ch '%', first, second] })
        state (by grind)
    refine ⟨q, fun more => ?_, in_, uri, ?_⟩
    · exact (parseRange_step (percent_step state) _).trans
        ((parseRange_step (first_step (by grind) hex) _).trans
        ((parseRange_step step _).trans (ran more)))
    · rw [resolved]
      simp [resolve]
  | case6 first digit1 hex second rest digit2 hex2 ih =>
    have question : second ≠ ch '?' := by grind
    have step : { p with state := .pathHex2, percent1HexSym := first }.consume second =
        .ok { p with percent1HexSym := first,
                     curPath := p.curPath ++ [UInt8.ofNat (digit1 * 16 + digit2)] } := by
      simp [consume, goTo, question, hex, hex2, pushPath, state]
    obtain ⟨q, ran, in_, uri, resolved⟩ :=
      ih (p := { p with percent1HexSym := first, curPath := p.curPath ++
        [UInt8.ofNat (digit1 * 16 + digit2)] }) state (by grind)
    refine ⟨q, fun more => ?_, in_, uri, ?_⟩
    · exact (parseRange_step (percent_step state) _).trans
        ((parseRange_step (first_step (by grind) hex) _).trans
        ((parseRange_step step _).trans (ran more)))
    · rw [resolved]
      simp [resolve]
  | case7 rest other ih =>
    have step : p.consume (ch '/') = .ok p.persistPathComponent := by
      have facts : ch '/' ≠ ch '%' ∧ ch '/' ≠ ch '?' := by decide
      simp [consume, state, facts]
    rw [persist_leave] at step
    obtain ⟨q, ran, in_, uri, resolved⟩ :=
      ih (p := { p with pathComponents := leave p.pathComponents p.curPath, curPath := [] }) state
        (by grind)
    exact ⟨q, fun more => (parseRange_step step _).trans (ran more), in_, uri, resolved⟩
  | case8 c rest percent slash ih =>
    have question : c ≠ ch '?' := by grind
    have step : p.consume c = .ok (p.pushPath [c]) := by simp [consume, state, percent, question, slash]
    obtain ⟨q, ran, in_, uri, resolved⟩ := ih (p := p.pushPath [c]) state (by grind)
    exact ⟨q, fun more => (parseRange_step step _).trans (ran more), in_, uri, resolved⟩

private theorem parse_query (state : p.state = .query) (text : Bytes) :
    parseRange p text = .ok { p with uri.query := p.uri.query ++ text } := by
  induction text generalizing p with
  | nil => simp [parseRange]
  | cons c text ih =>
    have step : p.consume c = .ok { p with uri.query := p.uri.query ++ [c] } := by simp [consume, state]
    rw [parseRange_step step, ih (p := { p with uri.query := p.uri.query ++ [c] }) state]
    simp

/-- What `consume_end` leaves of a parser that has read a host. -/
theorem consumeEnd_ok (ended : p.consumeEnd = .ok q) :
    q.uri = { p.uri with path := p.uri.path ++ (pending p).flatMap fun pc => ch '/' :: pc } := by
  have kept : p.flushEscape.uri = p.uri := by
    simp only [flushEscape]
    split <;> rfl
  simp only [consumeEnd] at ended
  split at ended
  all_goals first | (cases ended; done) | skip
  all_goals
    simp only [Except.ok.injEq] at ended
    rw [← ended]
    simp [goTo, pending, kept]

/-- From the `/` behind the host to the end. -/
theorem parse_target (state : p.state = .path) (fresh : p.uri.query = []) {text : Bytes}
    (ran : parseRange p text = .ok q) :
    q.uri = { p.uri with query := (text.dropWhile (· ≠ ch '?')).drop 1 } ∧
      pending q = resolve p.pathComponents p.curPath (unescape (text.takeWhile (· ≠ ch '?'))) := by
  have inside : ch '?' ∉ text.takeWhile (· ≠ ch '?') := fun member => by
    simpa using List.mem_takeWhile_imp member
  obtain ⟨m, read, in_, uri, resolved⟩ := parse_path state inside
  have split := List.takeWhile_append_dropWhile (p := (· ≠ ch '?')) (l := text)
  rw [← split, read] at ran
  cases rest : text.dropWhile (· ≠ ch '?') with
  | nil =>
    rw [rest] at ran
    cases ran
    refine ⟨?_, resolved⟩
    rw [uri, List.drop_nil, ← fresh]
  | cons c query =>
    have question : c = ch '?' := by
      have stops := List.head?_dropWhile_not (· ≠ ch '?') text
      rw [rest] at stops
      simpa using stops
    subst question
    have step : m.consume (ch '?') = .ok (m.flushEscape.goTo .query) := by
      have other : ch '?' ≠ ch '%' := by decide
      rcases in_ with state | state | state <;> simp [consume, flushEscape, state, goTo, other]
    have kept : m.flushEscape.uri = p.uri := by
      rcases in_ with state | state | state <;> simp [flushEscape, state, goTo, pushPath, uri]
    rw [rest, parseRange_step step, parse_query rfl] at ran
    cases ran
    refine ⟨by simp [goTo, kept, fresh], ?_⟩
    rw [← resolved]
    rfl

/-- What the text in front of the path leaves alone, and where the host comes from. -/
private structure Kept (p q : URIParser) (text : Bytes) : Prop where
  scheme : q.uri.scheme = p.uri.scheme
  path : q.uri.path = p.uri.path
  query : q.uri.query = p.uri.query
  components : q.pathComponents = p.pathComponents
  current : q.curPath = p.curPath
  host : ∀ c ∈ q.uri.host, c ∈ p.uri.host ∨ c ∈ text

private theorem Kept.refl (p : URIParser) : Kept p p [] :=
  ⟨rfl, rfl, rfl, rfl, rfl, fun _ member => .inl member⟩

private theorem Kept.trans {m : URIParser} {c : UInt8} {text : Bytes} (first : Kept p m [c])
    (second : Kept m q text) :
    Kept p q (c :: text) := by
  refine ⟨second.scheme.trans first.scheme, second.path.trans first.path, second.query.trans first.query,
    second.components.trans first.components, second.current.trans first.current, fun d member => ?_⟩
  rcases second.host d member with before | behind
  · rcases first.host d before with start | here
    · exact .inl start
    · exact .inr (by simp_all)
  · exact .inr (List.mem_cons_of_mem _ behind)

private def InHost (p : URIParser) : Prop := p.state = .host ∨ p.state = .port

private theorem host_step (in_ : InHost p) {c : UInt8} (slash : c ≠ ch '/')
    (consumed : p.consume c = .ok q) :
    InHost q ∧ Kept p q [c] := by
  rcases in_ with state | state <;>
    simp only [consume, state, assignUserInfo, slash, ↓reduceIte] at consumed <;>
    repeat' split at consumed
  all_goals first | (cases consumed; done) | skip
  all_goals
    simp only [Except.ok.injEq] at consumed
    subst consumed
    exact ⟨by simp_all [InHost, goTo], by constructor <;> simp_all [goTo]⟩

/-- Host and port, with the user in front of them, to the `/` that ends them or to
the end of the text. -/
private theorem parse_host (in_ : InHost p) {text : Bytes} (ran : parseRange p text = .ok q) :
    (ch '/' ∉ text ∧ InHost q ∧ Kept p q text) ∨
      ∃ front target m, text = front ++ ch '/' :: target ∧ ch '/' ∉ front ∧
      m.state = .path ∧ Kept p m front ∧
        parseRange m target = .ok q := by
  induction text generalizing p with
  | nil =>
    cases ran
    exact .inl ⟨by simp, in_, .refl _⟩
  | cons c text ih =>
    by_cases slash : c = ch '/'
    · subst slash
      have step : p.consume (ch '/') = .ok (p.goTo .path) := by
        have other : ch '/' ≠ ch '@' := by decide
        rcases in_ with state | state <;> simp [consume, state, other]
      rw [parseRange_step step] at ran
      exact .inr ⟨[], text, p.goTo .path, rfl, by simp, rfl,
        ⟨rfl, rfl, rfl, rfl, rfl, fun _ member => .inl member⟩, ran⟩
    · cases consumed : p.consume c with
      | error e => simp [parseRange, consumed] at ran
      | ok m =>
        rw [parseRange_step consumed] at ran
        obtain ⟨still, first⟩ := host_step in_ slash consumed
        rcases ih still ran with
          ⟨none, ended, kept⟩ | ⟨front, target, m', rfl, none, state, kept, behind⟩
        · exact .inl ⟨by simp [none, Ne.symm slash], ended, first.trans kept⟩
        · exact .inr ⟨c :: front, target, m', rfl, by simp [none, Ne.symm slash], state,
            first.trans kept, behind⟩

/-- The scheme and the separator behind it; a text that ends before has no host. -/
theorem parse_scheme (state : p.state = .scheme) {text : Bytes} {ended : URIParser}
    (ran : parseRange p text = .ok q) (end_ : q.consumeEnd = .ok ended) :
    ∃ front rest m, text = front ++ ch ':' :: ch '/' :: ch '/' :: rest ∧
      ch ':' ∉ front ∧ m.state = .host ∧
      m.uri = { p.uri with scheme := p.uri.scheme ++ front } ∧ m.pathComponents = p.pathComponents ∧
      m.curPath = p.curPath ∧ parseRange m rest = .ok q := by
  induction text generalizing p with
  | nil =>
    cases ran
    simp [consumeEnd, flushEscape, state] at end_
  | cons c text ih =>
    by_cases colon : c = ch ':'
    · subst colon
      have step : p.consume (ch ':') = .ok (p.goTo .schemeSep1) := by simp [consume, state]
      rw [parseRange_step step] at ran
      match text with
      | [] =>
        cases ran
        simp [consumeEnd, flushEscape, goTo] at end_
      | [a] =>
        by_cases slash : a = ch '/'
        · simp only [parseRange, consume, goTo, slash, ne_eq, not_true_eq_false, ↓reduceIte,
            Except.ok.injEq] at ran
          subst ran
          simp [consumeEnd, flushEscape] at end_
        · simp [parseRange, consume, goTo, slash] at ran
      | a :: b :: rest =>
        by_cases slash : a = ch '/'
        · by_cases second : b = ch '/'
          · subst slash second
            have sep1 : (p.goTo .schemeSep1).consume (ch '/') = .ok (p.goTo .schemeSep2) := by
              simp [consume, goTo]
            have sep2 : (p.goTo .schemeSep2).consume (ch '/') = .ok (p.goTo .host) := by
              simp [consume, goTo]
            rw [parseRange_step sep1, parseRange_step sep2] at ran
            exact ⟨[], rest, p.goTo .host, rfl, by simp, rfl, by simp [goTo], rfl, rfl, ran⟩
          · simp [parseRange, consume, goTo, slash, second] at ran
        · simp [parseRange, consume, goTo, slash] at ran
    · have step : p.consume c = .ok { p with uri.scheme := p.uri.scheme ++ [c] } := by
        simp [consume, state, colon]
      rw [parseRange_step step] at ran
      obtain ⟨front, rest, m, rfl, none, host, uri, components, current, behind⟩ :=
        ih (p := { p with uri.scheme := p.uri.scheme ++ [c] }) state ran
      exact ⟨c :: front, rest, m, rfl, by simp [none, Ne.symm colon], host, by simp [uri],
        components, current, behind⟩

end Phases

theorem dropWhile_part {front rest : Bytes} {c : UInt8} (none : c ∉ front) :
    (front ++ c :: rest).dropWhile (· ≠ c) = c :: rest := by
  rw [List.dropWhile_append_of_pos]
  · simp
  · intro d member
    have other : d ≠ c := fun same => none (same ▸ member)
    simpa using other

/-- What is read of a text that is accepted: the path is made of its segments, the
query is as it stands, and the host has no character that the text has not. -/
theorem parseUri_meaning {text : Bytes} {u : URI} (accepted : parseUri text = .ok u) :
    u.path = (segments text).flatMap (fun segment => ch '/' :: segment) ∧ u.query = queryText text ∧
      ∀ c ∈ u.host, c ∈ text := by
  simp only [parseUri, URIParser.parse] at accepted
  split at accepted
  · cases accepted
  rename_i ended parsed
  cases accepted
  split at parsed
  · cases parsed
  rename_i q ran
  obtain ⟨scheme, rest, m, rfl, colon, host, uri, components, current, behind⟩ :=
    parse_scheme rfl ran parsed
  have end_ := consumeEnd_ok parsed
  have authority : (scheme ++ ch ':' :: ch '/' :: ch '/' :: rest).dropWhile (· ≠ ch ':') =
      ch ':' :: ch '/' :: ch '/' :: rest :=
    dropWhile_part colon
  rcases parse_host (.inl host) behind with
    ⟨slash, in_, kept⟩ | ⟨front, target, m', rfl, slash, state, kept, path⟩
  · have target : targetText (scheme ++ ch ':' :: ch '/' :: ch '/' :: rest) = [] := by
      have all : rest.dropWhile (· ≠ ch '/') = [] := by
        rw [List.dropWhile_eq_nil_iff]
        intro c member
        have other : c ≠ ch '/' := fun same => slash (same ▸ member)
        simpa using other
      simp only [targetText, authority, List.drop_succ_cons, List.drop_zero, all, List.drop_nil]
    have pending_ : pending q = [[]] := by
      have flushed : q.flushEscape = q := by rcases in_ with state | state <;> simp [flushEscape, state]
      simp [pending, flushed, kept.components, kept.current, components, current]
    refine ⟨?_, ?_, fun c member => ?_⟩
    · simp [end_, pending_, kept.path, uri, segments, pathText, target, unescape, resolve]
    · simp [end_, kept.query, uri, queryText, target]
    · rw [end_] at member
      rcases kept.host c member with start | inside
      · simp [uri] at start
      · simp [inside]
  · have target_ :
        targetText (scheme ++ ch ':' :: ch '/' :: ch '/' :: (front ++ ch '/' :: target)) = target := by
      have slashed : (front ++ ch '/' :: target).dropWhile (· ≠ ch '/') = ch '/' :: target :=
        dropWhile_part slash
      simp only [targetText, authority, List.drop_succ_cons, List.drop_zero, slashed]
    obtain ⟨read, pending_⟩ := parse_target state (by simp [kept.query, uri]) path
    rw [kept.components, kept.current, components, current] at pending_
    refine ⟨?_, ?_, fun c member => ?_⟩
    · simp only [end_, pending_, read, kept.path, uri, segments, pathText, target_, List.nil_append]
    · simp only [end_, read, queryText, target_]
    · simp only [end_, read] at member
      rcases kept.host c member with start | inside
      · simp [uri] at start
      · simp [inside]

end Crablib.UriProofs
