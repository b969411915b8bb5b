import Crablib.UriProofs

/-! All the parts that `parse_uri` finds in a text, as functions of its authority and of
what follows it, and which texts it accepts at all. The authority ends for the parser at
the first slash only. -/
namespace Crablib.UriPartsProofs
open Http URIParser UriProofs

section Meaning

/-- What follows the first `c`. -/
def behind (c : UInt8) (text : Bytes) : Bytes := (text.dropWhile (· ≠ c)).drop 1

/-- The user that an authority names. -/
def userOf (authority : Bytes) : Bytes :=
  if ch '@' ∈ authority then urlDecode (authority.takeWhile (· ≠ ch '@')) else []

/-- Host and port of an authority. -/
def hostPort (authority : Bytes) : Bytes :=
  if ch '@' ∈ authority then behind (ch '@') authority else authority

def hostOf (authority : Bytes) : Bytes := (hostPort authority).takeWhile (· ≠ ch ':')

def portOf (authority : Bytes) : Bytes := behind (ch ':') (hostPort authority)

/-- The path that a target stands for. -/
def pathOf (target : Bytes) : Bytes :=
  (resolve [] [] (unescape (target.takeWhile (· ≠ ch '?')))).flatMap fun segment => ch '/' :: segment

/-- The parts of an accepted text: the scheme, an authority without slashes and with one
`@` at most, and the target behind the slash, if there is one. -/
structure Parts (text scheme authority target : Bytes) : Prop where
  split : text = scheme ++ str "://" ++ authority ∧ target = [] ∨
    text = scheme ++ str "://" ++ authority ++ ch '/' :: target
  colon : ch ':' ∉ scheme
  slash : ch '/' ∉ authority
  single : ch '@' ∉ hostPort authority

/-- What a text of these parts is parsed into. -/
def uriOf (scheme authority target : Bytes) : URI where
  scheme := scheme
  userInfo := userOf authority
  host := hostOf authority
  port := portOf authority
  path := pathOf target
  query := behind (ch '?') target

theorem takeWhile_all {text : Bytes} {c : UInt8} (none : c ∉ text) : text.takeWhile (· ≠ c) = text := by
  have all : ∀ d ∈ text, decide (d ≠ c) = true := by
    intro d member
    rw [decide_eq_true_iff]
    rintro rfl
    exact none member
  have taken := @List.takeWhile_append_of_pos _ _ _ [] all
  simpa using taken

theorem takeWhile_part {front : Bytes} {c : UInt8} (none : c ∉ front) (rest : Bytes) :
    (front ++ c :: rest).takeWhile (· ≠ c) = front := by
  have all : ∀ d ∈ front, decide (d ≠ c) = true := by
    intro d member
    rw [decide_eq_true_iff]
    rintro rfl
    exact none member
  rw [List.takeWhile_append_of_pos all]
  simp

theorem behind_part {front : Bytes} {c : UInt8} (none : c ∉ front) (rest : Bytes) :
    behind c (front ++ c :: rest) = rest := by
  have found : (front ++ c :: rest).dropWhile (· ≠ c) = c :: rest := dropWhile_part none
  rw [behind, found, List.drop_one, List.tail_cons]

theorem behind_none {text : Bytes} {c : UInt8} (none : c ∉ text) : behind c text = [] := by
  have all : text.dropWhile (· ≠ c) = [] := by
    rw [List.dropWhile_eq_nil_iff]
    intro d member
    rw [decide_eq_true_iff]
    rintro rfl
    exact none member
  rw [behind, all, List.drop_nil]

end Meaning

section Authority

variable {p : URIParser} {text : Bytes}

private theorem run_scheme (state : p.state = .scheme) (none : ch ':' ∉ text) (rest : Bytes) :
    parseRange p (text ++ rest) = parseRange { p with uri.scheme := p.uri.scheme ++ text } rest := by
  induction text generalizing p with
  | nil => simp
  | cons c text ih =>
    have other : c ≠ ch ':' := fun same => none (same ▸ List.mem_cons_self)
    have step : p.consume c = .ok { p with uri.scheme := p.uri.scheme ++ [c] } := by
      simp [consume, state, other]
    rw [List.cons_append, parseRange_step step,
      ih (p := { p with uri.scheme := p.uri.scheme ++ [c] }) state fun member =>
      none (List.mem_cons_of_mem _ member)]
    simp

private theorem run_host (state : p.state = .host) (user : ch '@' ∉ text) (slash : ch '/' ∉ text)
    (colon : ch ':' ∉ text) (rest : Bytes) :
    parseRange p (text ++ rest) = parseRange { p with uri.host := p.uri.host ++ text } rest := by
  induction text generalizing p with
  | nil => simp
  | cons c text ih =>
    have other : c ≠ ch '@' ∧ c ≠ ch '/' ∧ c ≠ ch ':' :=
      ⟨fun same => user (same ▸ List.mem_cons_self), fun same => slash (same ▸ List.mem_cons_self),
        fun same => colon (same ▸ List.mem_cons_self)⟩
    have step : p.consume c = .ok { p with uri.host := p.uri.host ++ [c] } := by
      simp [consume, state, other]
    rw [List.cons_append, parseRange_step step, ih (p := { p with uri.host := p.uri.host ++ [c] }) state
      (fun member => user (List.mem_cons_of_mem _ member)) (fun member =>
      slash (List.mem_cons_of_mem _ member)) fun member => colon (List.mem_cons_of_mem _ member)]
    simp

private theorem run_port (state : p.state = .port) (user : ch '@' ∉ text)
    (slash : ch '/' ∉ text) (rest : Bytes) :
    parseRange p (text ++ rest) = parseRange { p with uri.port := p.uri.port ++ text } rest := by
  induction text generalizing p with
  | nil => simp
  | cons c text ih =>
    have other : c ≠ ch '@' ∧ c ≠ ch '/' :=
      ⟨fun same => user (same ▸ List.mem_cons_self), fun same => slash (same ▸ List.mem_cons_self)⟩
    have step : p.consume c = .ok { p with uri.port := p.uri.port ++ [c] } := by
      simp [consume, state, other]
    rw [List.cons_append, parseRange_step step, ih (p := { p with uri.port := p.uri.port ++ [c] }) state
      (fun member => user (List.mem_cons_of_mem _ member)) fun member =>
      slash (List.mem_cons_of_mem _ member)]
    simp

/-- The parser behind a part of the authority that was read as host and port. -/
structure HostPort (p q : URIParser) (text : Bytes) : Prop where
  place : q.state = .host ∧ ch ':' ∉ text ∨ q.state = .port ∧ ch ':' ∈ text
  same : q = { p with
    state := q.state
    uri := { p.uri with host := text.takeWhile (· ≠ ch ':'), port := behind (ch ':') text } }

/-- A text without `@` and slashes is read as host and port. -/
private theorem run_hostPort (state : p.state = .host) (fresh : p.uri.host = [] ∧ p.uri.port = [])
    (user : ch '@' ∉ text) (slash : ch '/' ∉ text) :
    ∃ q, HostPort p q text ∧ ∀ rest, parseRange p (text ++ rest) = parseRange q rest := by
  by_cases colon : ch ':' ∈ text
  · obtain ⟨host, port, rfl, none⟩ := List.eq_append_cons_of_mem colon
    have step : ({ p with uri.host := host } : URIParser).consume (ch ':') =
        .ok { p with state := .port, uri.host := host } := by
      have other : ch ':' ≠ ch '@' ∧ ch ':' ≠ ch '/' := by decide
      simp [consume, state, goTo, other]
    refine ⟨{ p with state := .port, uri := { p.uri with host := host, port := port } },
      ⟨.inr ⟨rfl, colon⟩, ?_⟩, fun rest => ?_⟩
    · rw [takeWhile_part none, behind_part none]
    · have host_ := @run_host p host state (fun member => user (List.mem_append_left _ member))
        (fun member => slash (List.mem_append_left _ member)) none (ch ':' :: port ++ rest)
      have port_ := @run_port { p with state := .port, uri.host := host } port rfl
        (fun member => user (by simp [member])) (fun member => slash (by simp [member])) rest
      rw [List.append_assoc, host_, fresh.1, List.nil_append, List.cons_append,
        parseRange_step step, port_]
      simp [fresh.2]
  · refine ⟨{ p with uri.host := text }, ⟨.inl ⟨state, colon⟩, ?_⟩, fun rest => ?_⟩
    · rw [takeWhile_all colon, behind_none colon, ← fresh.2]
    · rw [run_host state user slash colon, fresh.1, List.nil_append]

/-- What was read as host and port names the user, if an `@` follows. -/
private theorem assign_user {q : URIParser} (read : HostPort p q text) :
    q.consume (ch '@') =
      if p.userInfoAssigned then .error (.runtime "URI parser - second @ is prohibited")
      else .ok { p with
        state := .host
        userInfoAssigned := true
        uri := { p.uri with userInfo := urlDecode text, host := [], port := [] } } := by
  rcases read.place with ⟨state, none⟩ | ⟨state, colon⟩
  · rw [read.same, state, takeWhile_all none, behind_none none]
    simp only [consume, assignUserInfo, ↓reduceIte]
  · obtain ⟨host, port, rfl, none⟩ := List.eq_append_cons_of_mem colon
    rw [read.same, state, takeWhile_part none, behind_part none]
    simp [consume, assignUserInfo]

/-- A parser at the start of an authority. -/
structure AtHost (p : URIParser) : Prop where
  state : p.state = .host
  host : p.uri.host = []
  port : p.uri.port = []
  user : p.uri.userInfo = [] ∧ p.userInfoAssigned = false

/-- An authority is read to its end, or refused for its second `@`. -/
private theorem run_authority (at_ : AtHost p) (slash : ch '/' ∉ text) :
    (ch '@' ∉ hostPort text → ∃ q, (q.state = .host ∨ q.state = .port) ∧
      q = { p with
        state := q.state
        userInfoAssigned := q.userInfoAssigned
        uri := { p.uri with userInfo := userOf text, host := hostOf text, port := portOf text } } ∧
      ∀ rest, parseRange p (text ++ rest) = parseRange q rest) ∧
    (ch '@' ∈ hostPort text → ∀ rest, ∃ e, parseRange p (text ++ rest) = .error e) := by
  obtain ⟨state, host, port, user, assigned⟩ := at_
  by_cases named : ch '@' ∈ text
  · obtain ⟨front, back, rfl, none⟩ := List.eq_append_cons_of_mem named
    have slash1 : ch '/' ∉ front := fun member => slash (List.mem_append_left _ member)
    have slash2 : ch '/' ∉ back := fun member => slash (by simp [member])
    have rest_ : hostPort (front ++ ch '@' :: back) = back := by
      rw [hostPort, if_pos named, behind_part none]
    have user_ : userOf (front ++ ch '@' :: back) = urlDecode front := by
      rw [userOf, if_pos named, takeWhile_part none]
    obtain ⟨m, read, run⟩ := run_hostPort state ⟨host, port⟩ none slash1
    have step := assign_user read
    simp only [assigned, Bool.false_eq_true, ↓reduceIte] at step
    have behind_ : ∀ rest, parseRange p (front ++ ch '@' :: back ++ rest) = parseRange { p with
        state := .host
        userInfoAssigned := true
        uri := { p.uri with userInfo := urlDecode front, host := [], port := [] } } (back ++ rest) := by
      intro rest
      rw [List.append_assoc, run, List.cons_append, parseRange_step step]
    rw [rest_]
    constructor
    · intro single
      obtain ⟨q, read', run'⟩ := run_hostPort (p := { p with
        state := .host
        userInfoAssigned := true
        uri := { p.uri with userInfo := urlDecode front, host := [], port := [] } }) rfl
          ⟨rfl, rfl⟩ single slash2
      refine ⟨q, read'.place.imp And.left And.left, ?_, fun rest => (behind_ rest).trans (run' rest)⟩
      rw [user_, hostOf, portOf, rest_, read'.same]
    · intro second rest
      obtain ⟨front', back', rfl, none'⟩ := List.eq_append_cons_of_mem second
      obtain ⟨m', read', run'⟩ := run_hostPort (p := { p with
        state := .host
        userInfoAssigned := true
        uri := { p.uri with userInfo := urlDecode front, host := [], port := [] } }) rfl ⟨rfl, rfl⟩ none'
        (fun member => slash2 (List.mem_append_left _ member))
      have fails := assign_user read'
      simp only [↓reduceIte] at fails
      refine ⟨.runtime "URI parser - second @ is prohibited", ?_⟩
      rw [behind_, List.append_assoc, run', List.cons_append, parseRange, fails]
  · have rest_ : hostPort text = text := if_neg named
    have user_ : userOf text = [] := if_neg named
    rw [rest_]
    constructor
    · intro single
      obtain ⟨q, read, run⟩ := run_hostPort state ⟨host, port⟩ single slash
      refine ⟨q, read.place.imp And.left And.left, ?_, run⟩
      rw [user_, hostOf, portOf, rest_, read.same, ← user]
    · exact fun member => absurd member named

end Authority

section Whole

variable {text scheme authority target : Bytes} {u : URI}

/-- The states in which a text may end. -/
private def MayEnd (p : URIParser) : Prop :=
  p.state = .path ∨ p.state = .pathHex1 ∨ p.state = .pathHex2 ∨ p.state = .query

private theorem target_step {p : URIParser} (may : MayEnd p) (c : UInt8) :
    ∃ q, p.consume c = .ok q ∧ MayEnd q := by
  rcases may with state | state | state | state
  · simp only [consume, state]
    repeat' split
    · exact ⟨_, rfl, .inr (.inl rfl)⟩
    · exact ⟨_, rfl, .inr (.inr (.inr rfl))⟩
    · refine ⟨_, rfl, .inl ?_⟩
      unfold persistPathComponent
      repeat' split
      all_goals exact state
    · exact ⟨_, rfl, .inl state⟩
  · simp only [consume, state]
    repeat' split
    · exact ⟨_, rfl, .inr (.inr (.inr rfl))⟩
    · exact ⟨_, rfl, .inl rfl⟩
    · exact ⟨_, rfl, .inr (.inr (.inl rfl))⟩
  · simp only [consume, state]
    repeat' split
    · exact ⟨_, rfl, .inr (.inr (.inr rfl))⟩
    · exact ⟨_, rfl, .inl rfl⟩
    · exact ⟨_, rfl, .inl rfl⟩
  · simp only [consume, state]
    exact ⟨_, rfl, .inr (.inr (.inr rfl))⟩

/-- A target is always read to its end. -/
private theorem run_target {p : URIParser} (may : MayEnd p) (text : Bytes) :
    ∃ q, parseRange p text = .ok q ∧ MayEnd q := by
  induction text generalizing p with
  | nil => exact ⟨p, rfl, may⟩
  | cons c text ih =>
    obtain ⟨m, step, may'⟩ := target_step may c
    obtain ⟨q, run, may''⟩ := ih may'
    exact ⟨q, (parseRange_step step text).trans run, may''⟩

private theorem end_target {p : URIParser} (may : MayEnd p) : ∃ q, p.consumeEnd = .ok q := by
  rcases may with state | state | state | state <;> simp [consumeEnd, flushEscape, state, goTo]

private theorem scheme_read (colon : ch ':' ∉ scheme) (rest : Bytes) :
    parseRange {} (scheme ++ str "://" ++ rest) =
      parseRange { state := .host, uri := { scheme := scheme } } rest := by
  have run := run_scheme (p := {}) rfl colon (str "://" ++ rest)
  rw [List.append_assoc, run]
  rfl

/-- A text of these parts is accepted. -/
theorem parseUri_of_parts (parts : Parts text scheme authority target) :
    parseUri text = .ok (uriOf scheme authority target) := by
  obtain ⟨split, colon, slash, single⟩ := parts
  obtain ⟨q, state, same, run⟩ :=
    (run_authority (p := { state := .host, uri := { scheme := scheme } })
      ⟨rfl, rfl, rfl, rfl, rfl⟩ slash).1 single
  rcases split with ⟨split, rfl⟩ | split
  · have ran : parseRange {} text = .ok q := by
      rw [split, scheme_read colon, ← List.append_nil authority, run]
      rfl
    have flushed : q.flushEscape = q := by rcases state with state | state <;> simp [flushEscape, state]
    have ended : q.consumeEnd = .ok { q with state := .good, uri.path := [ch '/'] } := by
      have fresh : q.uri.path = [] ∧ q.pathComponents = [] ∧ q.curPath = [] := by
        rw [same]
        exact ⟨rfl, rfl, rfl⟩
      rcases state with state | state <;> simp [consumeEnd, flushed, state, fresh, goTo]
    simp only [parseUri, URIParser.parse, ran, ended]
    rw [same]
    simp [uriOf, pathOf, behind, unescape, resolve]
  · obtain ⟨r, ran, may⟩ := run_target (p := { q with state := .path }) (.inl rfl) target
    have step : q.consume (ch '/') = .ok { q with state := .path } := by
      have other : ch '/' ≠ ch '@' := by decide
      rcases state with state | state <;> simp [consume, state, goTo, other]
    have whole : parseRange {} text = .ok r := by
      rw [split, List.append_assoc, scheme_read colon, run, parseRange_step step, ran]
    obtain ⟨ended, end_⟩ := end_target may
    have fresh : q.uri.path = [] ∧ q.uri.query = [] ∧ q.pathComponents = [] ∧ q.curPath = [] := by
      rw [same]
      exact ⟨rfl, rfl, rfl, rfl⟩
    obtain ⟨uri, pending_⟩ := parse_target (p := { q with state := .path }) rfl fresh.2.1 ran
    have read := consumeEnd_ok end_
    rw [uri, pending_] at read
    simp only [parseUri, URIParser.parse, whole, end_, read, fresh.1, fresh.2.2.1,
      fresh.2.2.2, List.nil_append]
    rw [same]
    rfl

/-- Every accepted text has parts, and is parsed into them. -/
theorem parts_of_parseUri (accepted : parseUri text = .ok u) :
    ∃ scheme authority target, Parts text scheme authority target ∧
      u = uriOf scheme authority target := by
  have found : ∃ scheme authority target, Parts text scheme authority target := by
    simp only [parseUri, URIParser.parse] at accepted
    split at accepted
    · cases accepted
    rename_i ended parsed
    split at parsed
    · cases parsed
    rename_i q ran
    obtain ⟨scheme, rest, m, rfl, colon, host, uri, components, current, later⟩ :=
      parse_scheme rfl ran parsed
    have read : parseRange {} (scheme ++ str "://" ++ rest) = .ok q := by
      rw [List.append_assoc]
      exact ran
    rw [scheme_read colon] at read
    have single : ∀ authority more, rest = authority ++ more → ch '/' ∉ authority →
        ch '@' ∉ hostPort authority := by
      intro authority more split slash second
      obtain ⟨e, failed⟩ :=
        (run_authority (p := { state := .host, uri := { scheme := scheme } })
          ⟨rfl, rfl, rfl, rfl, rfl⟩ slash).2 second more
      rw [split, failed] at read
      cases read
    have text_ : scheme ++ ch ':' :: ch '/' :: ch '/' :: rest = scheme ++ str "://" ++ rest := by
      rw [List.append_assoc]
      rfl
    by_cases slash : ch '/' ∈ rest
    · obtain ⟨authority, target, rfl, none⟩ := List.eq_append_cons_of_mem slash
      refine ⟨scheme, authority, target, .inr ?_, colon, none, single authority _ rfl none⟩
      rw [text_, List.append_assoc]
      simp
    · exact ⟨scheme, rest, [], .inl ⟨text_, rfl⟩, colon, slash, single rest [] (by simp) slash⟩
  obtain ⟨scheme, authority, target, parts⟩ := found
  have parsed := parseUri_of_parts parts
  rw [accepted] at parsed
  cases parsed
  exact ⟨scheme, authority, target, parts, rfl⟩

end Whole

section Boundary

variable {text authority : Bytes} {u : URI} {c : UInt8}

/-- What ends the authority of a URI. -/
def IsDelimiter (c : UInt8) : Prop := c = ch '/' ∨ c = ch '?' ∨ c = ch '#'

instance (c : UInt8) : Decidable (IsDelimiter c) :=
  inferInstanceAs (Decidable (c = ch '/' ∨ c = ch '?' ∨ c = ch '#'))

/-- What follows the scheme and its separator. -/
def afterScheme (text : Bytes) : Bytes := (text.dropWhile (· ≠ ch ':')).drop 3

/-- The authority as the standard delimits it. -/
def authorityOf (text : Bytes) : Bytes := (afterScheme text).takeWhile fun c => !decide (IsDelimiter c)

/-- User, host and port come from the authority alone. -/
structure Bounded (text : Bytes) (u : URI) : Prop where
  userInfo : u.userInfo = userOf (authorityOf text)
  host : u.host = hostOf (authorityOf text)
  port : u.port = portOf (authorityOf text)
  clear : ∀ c ∈ u.host ++ u.port, ¬IsDelimiter c

theorem hostPort_subset (authority : Bytes) : hostPort authority ⊆ authority := by
  intro c member
  unfold hostPort at member
  split at member
  · exact (List.dropWhile_suffix _).subset (List.mem_of_mem_drop member)
  · exact member

theorem host_port_subset (member : c ∈ hostOf authority ++ portOf authority) :
    c ∈ hostPort authority := by
  rcases List.mem_append.mp member with member | member
  · exact (List.takeWhile_prefix _).subset member
  · exact (List.dropWhile_suffix _).subset (List.mem_of_mem_drop member)

private theorem mem_host_port (member : c ∈ hostPort authority) (other : c ≠ ch ':') :
    c ∈ hostOf authority ++ portOf authority := by
  by_cases colon : ch ':' ∈ hostPort authority
  · obtain ⟨host, port, split, none⟩ := List.eq_append_cons_of_mem colon
    rw [hostOf, portOf, split, takeWhile_part none, behind_part none]
    rw [split] at member
    simpa [other] using member
  · rw [hostOf, takeWhile_all colon]
    exact List.mem_append_left _ member

private theorem urlDecode_ne_nil {text : Bytes} (some_ : text ≠ []) : urlDecode text ≠ [] := by
  obtain ⟨c, rest, rfl⟩ := List.exists_cons_of_ne_nil some_
  rcases rest with _ | ⟨first, _ | ⟨second, rest⟩⟩
  · simp [urlDecode]
  · simp [urlDecode]
  · rw [urlDecode]
    repeat' split
    all_goals simp

private theorem authorityOf_clear (text : Bytes) : ∀ c ∈ authorityOf text, ¬IsDelimiter c := by
  intro c member
  simpa using List.mem_takeWhile_imp member

/-- An authority that goes on behind a question mark or a number sign is not taken for
what it is. -/
private theorem boundary_missed {front back : Bytes} (clear : ∀ d ∈ front, ¬IsDelimiter d)
    (delimiter : IsDelimiter c) (user : userOf (front ++ c :: back) = userOf front)
    (host : hostOf (front ++ c :: back) = hostOf front)
    (port : portOf (front ++ c :: back) = portOf front) : False := by
  have facts : c ≠ ch ':' ∧ c ≠ ch '@' := by
    rcases delimiter with rfl | rfl | rfl <;> decide
  have inside : c ∉ hostPort (front ++ c :: back) := by
    intro member
    have within := mem_host_port member facts.1
    rw [host, port] at within
    exact clear c (hostPort_subset front (host_port_subset within)) delimiter
  by_cases named : ch '@' ∈ front
  · obtain ⟨before, after, rfl, none⟩ := List.eq_append_cons_of_mem named
    refine inside ?_
    rw [hostPort, if_pos (by simp), List.append_assoc, List.cons_append, behind_part none]
    simp
  · by_cases later : ch '@' ∈ back
    · have all : ch '@' ∈ front ++ c :: back := by simp [later]
      obtain ⟨before, after, rfl, none⟩ := List.eq_append_cons_of_mem later
      have fresh : ch '@' ∉ front ++ c :: before := by simp [named, none, Ne.symm facts.2]
      have split : front ++ c :: (before ++ ch '@' :: after) = (front ++ c :: before) ++
        ch '@' :: after := by simp
      rw [userOf, if_pos all, userOf, if_neg named, split, takeWhile_part fresh] at user
      exact urlDecode_ne_nil (by simp) user
    · refine inside ?_
      rw [hostPort, if_neg (by simp [named, later, Ne.symm facts.2])]
      simp

/-- User, host and port of an accepted text are those of its authority exactly if no
question mark and no number sign stands before its first slash. -/
theorem authority_bounded_iff (accepted : parseUri text = .ok u) :
    Bounded text u ↔ ∀ c ∈ (afterScheme text).takeWhile (· ≠ ch '/'), c ≠ ch '?' ∧ c ≠ ch '#' := by
  obtain ⟨scheme, authority, target, ⟨split, colon, slash, single⟩, rfl⟩ := parts_of_parseUri accepted
  obtain ⟨more, after, ends⟩ : ∃ more, afterScheme text = authority ++ more ∧
      (more = [] ∨ ∃ target, more = ch '/' :: target) := by
    have from_ : ∀ rest, afterScheme (scheme ++ str "://" ++ rest) = rest := by
      intro rest
      have found :
          (scheme ++ str "://" ++ rest).dropWhile (· ≠ ch ':') = ch ':' :: ch '/' :: ch '/' :: rest := by
        rw [List.append_assoc]
        exact dropWhile_part colon
      rw [afterScheme, found]
      rfl
    rcases split with ⟨split, -⟩ | split
    · exact ⟨[], by rw [split, from_, List.append_nil], .inl rfl⟩
    · refine ⟨ch '/' :: target, ?_, .inr ⟨target, rfl⟩⟩
      rw [split, List.append_assoc, from_]
  have taken : (afterScheme text).takeWhile (· ≠ ch '/') = authority := by
    rw [after]
    rcases ends with rfl | ⟨target, rfl⟩
    · rw [List.append_nil, takeWhile_all slash]
    · exact takeWhile_part slash target
  rw [taken]
  constructor
  · intro bounded c member
    refine Classical.byContradiction fun other => ?_
    -- the first delimiter in what the parser takes for the authority
    have clear := authorityOf_clear text
    have part : authorityOf text = authority.takeWhile fun c => !decide (IsDelimiter c) := by
      rw [authorityOf, after]
      rcases ends with rfl | ⟨target, rfl⟩
      · rw [List.append_nil]
      · have stop : IsDelimiter (ch '/') := .inl rfl
        rw [List.takeWhile_append]
        split
        · rename_i full
          have whole : authority.takeWhile (fun c => !decide (IsDelimiter c)) = authority :=
            (List.takeWhile_prefix _).eq_of_length full
          simp [stop, whole]
        · rfl
    cases rest : authority.dropWhile fun c => !decide (IsDelimiter c) with
    | nil =>
      rw [List.dropWhile_eq_nil_iff] at rest
      have none := rest c member
      have delimiter : IsDelimiter c := by
        rw [IsDelimiter]
        by_cases query : c = ch '?'
        · exact .inr (.inl query)
        · exact .inr (.inr (Classical.byContradiction fun anchor => other ⟨query, anchor⟩))
      simp [delimiter] at none
    | cons d back =>
      have delimiter : IsDelimiter d := by
        have stops := List.head?_dropWhile_not (fun c => !decide (IsDelimiter c)) authority
        rw [rest] at stops
        simpa using stops
      have whole : authority = authorityOf text ++ d :: back := by
        rw [part, ← rest, List.takeWhile_append_dropWhile]
      have user := bounded.userInfo
      have host := bounded.host
      have port := bounded.port
      simp only [uriOf] at user host port
      rw [whole] at user host port
      exact boundary_missed clear delimiter user host port
  · intro none
    have clear : ∀ c ∈ authority, ¬IsDelimiter c := by
      rintro c member (rfl | rfl | rfl)
      · exact slash member
      · exact (none _ member).1 rfl
      · exact (none _ member).2 rfl
    have same : authorityOf text = authority := by
      have all : ∀ c ∈ authority, (!decide (IsDelimiter c)) = true := by
        intro c member
        simpa using clear c member
      rw [authorityOf, after, List.takeWhile_append_of_pos all]
      rcases ends with rfl | ⟨target, rfl⟩
      · simp
      · have stop : IsDelimiter (ch '/') := .inl rfl
        simp [stop]
    refine ⟨by rw [same]; rfl, by rw [same]; rfl, by rw [same]; rfl, ?_⟩
    intro c member
    exact clear c (hostPort_subset authority (host_port_subset member))

theorem authority_bounded_iff_user :
    ∃ u, parseUri (str "http://u:p@h:80/a?b@c#d") = .ok u ∧
      (Bounded (str "http://u:p@h:80/a?b@c#d") u ↔
        ∀ c ∈ (afterScheme (str "http://u:p@h:80/a?b@c#d")).takeWhile (· ≠ ch '/'),
        c ≠ ch '?' ∧ c ≠ ch '#') := by
  have parts : Parts (str "http://u:p@h:80/a?b@c#d") (str "http") (str "u:p@h:80") (str "a?b@c#d") :=
    ⟨.inr (by decide +kernel), by decide +kernel, by decide +kernel, by decide +kernel⟩
  exact ⟨_, parseUri_of_parts parts, authority_bounded_iff (parseUri_of_parts parts)⟩

/-- What stands behind the question mark is taken for the host. -/
theorem authority_passed :
    ∃ u, parseUri (str "http://a?@b/") = .ok u ∧ u.host = str "b" ∧
      authorityOf (str "http://a?@b/") = str "a" ∧ ¬Bounded (str "http://a?@b/") u := by
  have parts : Parts (str "http://a?@b/") (str "http") (str "a?@b") [] :=
    ⟨.inr (by decide +kernel), by decide +kernel, by decide +kernel, by decide +kernel⟩
  refine ⟨_, parseUri_of_parts parts, by decide +kernel, by decide +kernel, ?_⟩
  intro bounded
  exact absurd bounded.host (by decide +kernel)

end Boundary

end Crablib.UriPartsProofs
