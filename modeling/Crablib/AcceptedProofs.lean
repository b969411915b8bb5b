import Crablib.CodingProofs

/-! What an accepted request is made of. The header lines are checked by every path
that stores something of them; the first line lets an empty method and a version of
one digit pass, which can be seen in the text. -/
namespace Crablib.AcceptedProofs
open Http Scanner RequestParser HeaderProofs RequestTextProofs CodingProofs

section Stored

/-- A text whose only control characters are tabs. -/
def IsText (text : Bytes) : Prop := ∀ c ∈ text, isCtl c = true → c = 9

/-- All the values that a request has from its header lines. -/
def storedValues (req : RequestHeader) : List Bytes :=
  req.headers.map (·.value) ++ req.transferEncodings ++
    [req.contentTypeMime, req.contentTypeSuffix, req.basicAuthorization, req.host, req.origin,
      req.secWebsocketKey, req.secWebsocketVersion]

/-- What was stored of the header lines is as it should be. -/
structure Stored (req : RequestHeader) : Prop where
  names : ∀ h ∈ req.headers, IsName h.name
  values : ∀ value ∈ storedValues req, IsText value

theorem isText_nil : IsText [] := by
  intro c member
  cases member

private theorem IsText.subset {text part : Bytes} (ok : IsText text)
    (within : part ⊆ text) : IsText part :=
  fun c member => ok c (within member)

private theorem lowerChar_facts (c : UInt8) :
    lowerChar (lowerChar c) = lowerChar c ∧ isToken (lowerChar c) = isToken c ∧
    isCtl (lowerChar c) = isCtl c ∧ (lowerChar c = 9 ↔ c = 9) := by
  refine byte_cases (P := fun c => lowerChar (lowerChar c) = lowerChar c ∧
    isToken (lowerChar c) = isToken c ∧
    isCtl (lowerChar c) = isCtl c ∧ (lowerChar c = 9 ↔ c = 9)) ?_ c
  decide +kernel

private theorem IsText.toLower {text : Bytes} (ok : IsText text) : IsText (toLower text) := by
  intro c member ctl
  obtain ⟨d, within, rfl⟩ := List.mem_map.mp member
  obtain ⟨-, -, same, tab⟩ := lowerChar_facts d
  exact tab.mpr (ok d within (same ▸ ctl))

private theorem trimRight_subset (text : Bytes) : trimRight text ⊆ text := by
  intro c member
  exact List.mem_reverse.mp ((List.dropWhile_suffix isSp).subset (List.mem_reverse.mp member))

private theorem IsText.contentType {value : Bytes} (ok : IsText value) :
    IsText (parseContentTypeValue value).1 ∧ IsText (parseContentTypeValue value).2 := by
  constructor
  · exact IsText.toLower (ok.subset (List.takeWhile_subset _))
  · refine ok.subset (List.Subset.trans (List.dropWhile_suffix _).subset ?_)
    have rest : (value.dropWhile fun c => !(c == ch ';' || isSp c)).dropWhile isSp ⊆ value :=
      List.Subset.trans (List.dropWhile_suffix _).subset (List.dropWhile_suffix _).subset
    split
    · exact List.Subset.trans (List.tail_suffix _ |>.subset) rest
    · exact rest

private theorem IsText.authorization {value token : Bytes} (ok : IsText value)
    (found : parseAuthorizationBasic value = some token) :
    IsText token := by
  unfold parseAuthorizationBasic at found
  split at found
  · cases found
  · cases found
    exact ok.subset (List.Subset.trans (List.dropWhile_suffix _).subset (List.drop_subset _ _))

/-- The common fields store nothing but parts of the value, in lower case or not. -/
private theorem common_stored {name value : Bytes} {req next : RequestResponseHeader} (ok : IsText value)
    (processed : processCommonHeader name value req = some (.ok next)) :
    next.headers = req.headers ∧
      (∀ coding ∈ next.transferEncodings, coding ∈ req.transferEncodings ∨ IsText coding) ∧
      (next.contentTypeMime = req.contentTypeMime ∨ IsText next.contentTypeMime) ∧
      (next.contentTypeSuffix = req.contentTypeSuffix ∨ IsText next.contentTypeSuffix) := by
  obtain ⟨mime, suffix⟩ := ok.contentType
  unfold processCommonHeader at processed
  simp only at processed
  repeat' split at processed
  all_goals
    cases processed
    try exact ⟨rfl, fun _ member => .inl member, .inl rfl, .inl rfl⟩
  · refine ⟨rfl, ?_, .inl rfl, .inl rfl⟩
    intro coding member
    rcases List.mem_append.mp member with member | member
    · exact .inl member
    · rw [List.mem_singleton.mp member]
      exact .inr ok.toLower
  · exact ⟨rfl, fun _ member => .inl member, .inr mime, .inr suffix⟩

private theorem stored_iff (req : RequestHeader) : Stored req ↔
    (∀ h ∈ req.headers, IsName h.name ∧ IsText h.value) ∧
      (∀ coding ∈ req.transferEncodings, IsText coding) ∧
      IsText req.contentTypeMime ∧ IsText req.contentTypeSuffix ∧
      IsText req.basicAuthorization ∧ IsText req.host ∧
      IsText req.origin ∧ IsText req.secWebsocketKey ∧ IsText req.secWebsocketVersion := by
  constructor
  · rintro ⟨names, values⟩
    simp only [storedValues, List.forall_mem_append, List.forall_mem_cons, List.forall_mem_map] at values
    obtain ⟨⟨kept, codings⟩, mime, suffix, authorization, host, origin, key, version, -⟩ := values
    exact ⟨fun h member => ⟨names h member, kept h member⟩, codings, mime, suffix, authorization,
      host, origin, key, version⟩
  · rintro ⟨headers, codings, mime, suffix, authorization, host, origin, key, version⟩
    refine ⟨fun h member => (headers h member).1, ?_⟩
    simp only [storedValues, List.forall_mem_append, List.forall_mem_cons, List.forall_mem_map]
    exact ⟨⟨fun h member => (headers h member).2, codings⟩, mime, suffix, authorization, host,
      origin, key, version, by simp⟩

/-- A ready header is stored as it is, or in parts. -/
private theorem processReadyHeader_stored {h : Header} {r s : RequestHeader} (name : IsName h.name)
    (value : IsText h.value) (stored : Stored r) (processed : processReadyHeader h r = .ok s) :
    Stored s := by
  rw [stored_iff] at stored ⊢
  obtain ⟨headers, codings, mime, suffix, authorization, host, origin, key, version⟩ := stored
  unfold processReadyHeader at processed
  split at processed
  · rename_i common found
    cases processed
    obtain ⟨same, codings', mime', suffix'⟩ := common_stored value found
    refine ⟨same ▸ headers, ?_, ?_, ?_, authorization, host, origin, key, version⟩
    · exact fun coding member => (codings' coding member).elim (codings coding) id
    · exact mime'.elim (fun same => same ▸ mime) id
    · exact suffix'.elim (fun same => same ▸ suffix) id
  · cases processed
  · repeat' split at processed
    all_goals cases processed
    · exact ⟨headers, codings, mime, suffix, authorization, value, origin, key, version⟩
    · exact ⟨headers, codings, mime, suffix, authorization, host, value, key, version⟩
    · refine ⟨headers, codings, mime, suffix, ?_, host, origin, key, version⟩
      cases found : parseAuthorizationBasic h.value with
      | none => exact authorization
      | some token => exact value.authorization found
    · exact ⟨headers, codings, mime, suffix, authorization, host, origin, value, version⟩
    · exact ⟨headers, codings, mime, suffix, authorization, host, origin, key, value⟩
    · refine ⟨?_, codings, mime, suffix, authorization, host, origin, key, version⟩
      intro g member
      rcases List.mem_append.mp member with member | member
      · exact headers g member
      · rw [List.mem_singleton.mp member]
        exact ⟨name, value⟩

end Stored

section Lines

variable {p q : HeaderLines RequestHeader} {c : UInt8}

/-- The states in which a header line has begun. -/
def HasName : LineState → Prop
  | .firstHeaderLineStart | .finalLf | .good => False
  | _ => True

/-- The header under construction, and all that were stored before it. -/
structure Fit (p : HeaderLines RequestHeader) : Prop where
  name : ∀ c ∈ p.header.name, isToken c = true ∧ lowerChar c = c
  begun : HasName p.state → p.header.name ≠ []
  value : IsText p.header.value
  stored : Stored p.req

private theorem Fit.isName (fit : Fit p) (begun : HasName p.state) : IsName p.header.name :=
  ⟨fit.begun begun, fun c member => (fit.name c member).1, fun c member => (fit.name c member).2⟩

private theorem readyHeader_stored (fit : Fit p) (begun : HasName p.state) {r : RequestHeader}
    (ready : readyHeader actions p = .ok r) :
    Stored r := by
  simp only [readyHeader] at ready
  split at ready
  · cases ready
    exact fit.stored
  · exact processReadyHeader_stored (h := { p.header with value := trimRight p.header.value })
      (fit.isName begun) (fit.value.subset (trimRight_subset _)) fit.stored ready

private theorem name_push {name : Bytes} (kept : ∀ c ∈ name, isToken c = true ∧ lowerChar c = c)
    (token : isToken c = true) :
    ∀ d ∈ name ++ [lowerChar c], isToken d = true ∧ lowerChar d = d := by
  intro d member
  rcases List.mem_append.mp member with member | member
  · exact kept d member
  · rw [List.mem_singleton.mp member]
    obtain ⟨lower, same, -⟩ := lowerChar_facts c
    exact ⟨same.trans token, lower⟩

private theorem value_push {value : Bytes} (kept : IsText value) (text : isCtl c = true → c = 9) :
    IsText (value ++ [c]) := by
  intro d member
  rcases List.mem_append.mp member with member | member
  · exact kept d member
  · rw [List.mem_singleton.mp member]
    exact text

private theorem sp_text (sp : isSp c = true) : isCtl c = true → c = 9 := by
  revert sp
  refine byte_cases (P := fun c => isSp c = true → isCtl c = true → c = 9) ?_ c
  decide +kernel

private theorem lineStart_fit (name : ∀ c ∈ p.header.name, isToken c = true ∧ lowerChar c = c)
    (value : IsText p.header.value) (stored : Stored p.req)
    (consumed : lineStart p c = .ok q) : Fit q := by
  unfold lineStart at consumed
  split at consumed
  · cases consumed
    exact ⟨name, False.elim, value, stored⟩
  split at consumed
  · cases consumed
    exact ⟨name, False.elim, value, stored⟩
  split at consumed
  · cases consumed
  · rename_i token
    cases consumed
    exact ⟨name_push name (by simpa using token), fun _ => by simp, value, stored⟩

private theorem headerColon_fit (fit : Fit p) (begun : HasName p.state)
    (consumed : headerColon p c = .ok q) : Fit q := by
  unfold headerColon at consumed
  repeat' split at consumed
  all_goals cases consumed
  all_goals exact ⟨fit.name, fun _ => fit.begun begun, fit.value, fit.stored⟩

private theorem headerValue_fit (fit : Fit p) (begun : HasName p.state)
    (consumed : headerValue actions p c = .ok q) : Fit q := by
  unfold headerValue at consumed
  split at consumed
  · cases consumed
    exact ⟨fit.name, fun _ => fit.begun begun, fit.value, fit.stored⟩
  split at consumed
  · cases consumed
    exact ⟨fit.name, fun _ => fit.begun begun, fit.value, fit.stored⟩
  split at consumed
  · cases consumed
  rename_i plain
  split at consumed
  · split at consumed
    · cases consumed
    · rename_i r ready
      cases consumed
      exact ⟨fit.name, fun _ => fit.begun begun, isText_nil, readyHeader_stored fit begun ready⟩
  · cases consumed
    exact ⟨fit.name, fun _ => fit.begun begun, value_push fit.value fun ctl =>
      absurd ctl plain, fit.stored⟩

private theorem consumeLine_fit (fit : Fit p) (consumed : consumeLine actions p c = .ok q) : Fit q := by
  obtain ⟨state, header, list, req⟩ := p
  cases state with
  | firstHeaderLineStart =>
    refine lineStart_fit (p := { header := header, headerCmsList := list,
                                 req := actions.atFirstLine req }) fit.name fit.value ?_ consumed
    exact ⟨fit.stored.names, fit.stored.values⟩
  | headerLineStart =>
    simp only [consumeLine] at consumed
    split at consumed
    · rename_i sp
      cases consumed
      exact ⟨fit.name, fun _ => fit.begun trivial, value_push fit.value (sp_text sp), fit.stored⟩
    · split at consumed
      · cases consumed
      · rename_i r ready
        refine lineStart_fit ?_ isText_nil (readyHeader_stored fit trivial ready) consumed
        intro d member
        cases member
  | headerName =>
    simp only [consumeLine] at consumed
    split at consumed
    · cases consumed
      exact ⟨fit.name, fun _ => fit.begun trivial, fit.value, fit.stored⟩
    split at consumed
    · split at consumed
      · cases consumed
      · rename_i token
        cases consumed
        exact ⟨name_push fit.name (by simpa using token), fun _ => by simp, fit.value, fit.stored⟩
    · exact headerColon_fit fit trivial consumed
  | headerColon => exact headerColon_fit fit trivial consumed
  | spaceBeforeHeaderValue =>
    simp only [consumeLine] at consumed
    split at consumed
    · cases consumed
      exact fit
    · exact headerValue_fit fit trivial consumed
  | headerValue => exact headerValue_fit fit trivial consumed
  | headerLf =>
    simp only [consumeLine] at consumed
    split at consumed <;> cases consumed
    exact ⟨fit.name, fun _ => fit.begun trivial, fit.value, fit.stored⟩
  | finalLf =>
    simp only [consumeLine] at consumed
    split at consumed <;> cases consumed
    exact ⟨fit.name, False.elim, fit.value, fit.stored⟩
  | good => cases consumed

end Lines

section FirstLine

/-- What is left of a text behind the empty lines at its start. Behind a bare line feed
the parser expects the first line. -/
def skipEmpty : Bytes → Bytes
  | 13 :: 10 :: text => skipEmpty text
  | 10 :: text => text
  | text => text

theorem skipEmpty_lf (text : Bytes) : skipEmpty (10 :: text) = text := rfl

theorem skipEmpty_other {c : UInt8} (cr : c ≠ 13) (lf : c ≠ 10) (text : Bytes) :
    skipEmpty (c :: text) = c :: text := by
  unfold skipEmpty
  split
  · rename_i same
    cases same
    exact absurd rfl cr
  · rename_i same
    cases same
    exact absurd rfl lf
  · rfl

/-- The first line that is not skipped. -/
def firstLine (text : Bytes) : Bytes := (skipEmpty text).takeWhile (· ≠ 10)

/-- What stands behind the last slash. -/
def versionText (line : Bytes) : Bytes := (line.reverse.takeWhile (· ≠ ch '/')).reverse

/-- What was read opens the text in this way, whatever follows. -/
def Opens (seen text : Bytes) : Prop := ∀ more, skipEmpty (seen ++ more) = text ++ more

/-- A line that begins with a method and a space. -/
structure LineOf (method line : Bytes) : Prop where
  token : ∀ c ∈ method, isToken c = true
  begins : ∃ c more, line = method ++ c :: more ∧ isSp c = true
  whole : 10 ∉ line

/-- The line is being read, behind its method. -/
def Under (seen method : Bytes) : Prop := ∃ line, Opens seen line ∧ LineOf method line

/-- The number behind the last slash was read so far as `major`. -/
def Numbered (line : Bytes) (major : Int) : Prop :=
  ∃ front digit tail, line = front ++ ch '/' :: digit :: tail ∧ ch '/' ∉ digit :: tail ∧ 0 ≤ major ∧
    (major ≤ 1 ↔ digit = ch '0' ∨ digit = ch '1')

/-- The same line, behind the first digit of its version. -/
def UnderVersion (seen method : Bytes) (major : Int) : Prop :=
  ∃ line, Opens seen line ∧ LineOf method line ∧ Numbered line major

/-- The line is over. -/
def Over (seen method : Bytes) (major : Int) : Prop :=
  ∃ line more, Opens seen (line ++ 10 :: more) ∧ LineOf method line ∧ Numbered line major

/-- How what was read shows in the parser. -/
def Follows (seen : Bytes) (p : RequestParser) : Prop :=
  match p.state with
  | .methodStart => p.req.method = [] ∧ ∀ more, skipEmpty (seen ++ more) = skipEmpty more
  | .methodStartLf => p.req.method = [] ∧ ∀ more, skipEmpty (seen ++ more) = skipEmpty (13 :: more)
  | .method => (∀ c ∈ p.req.method, isToken c = true) ∧ Opens seen p.req.method
  | .uriStart | .uriPercent1 | .uriPercent2 => Under seen p.req.method
  | .uri | .uriQueryString | .uriAnchor | .httpVersionH | .httpVersionHt | .httpVersionHtt
  | .httpVersionHttp | .httpVersionSlash =>
    p.req.path ≠ [] ∧ Under seen p.req.method
  | .httpVersionMajorStart => p.req.path ≠ [] ∧ ∃ front, Opens seen (front ++ [ch '/']) ∧
      LineOf p.req.method (front ++ [ch '/'])
  | .httpVersionMajor | .httpVersionMinorStart =>
    p.req.path ≠ [] ∧ UnderVersion seen p.req.method p.req.httpVersionMajor
  | .httpVersionMinor | .statusLineCr =>
    p.req.path ≠ [] ∧ p.req.httpVersionMinor ≤ 99 ∧ UnderVersion seen p.req.method p.req.httpVersionMajor
  | .statusLineLf =>
    p.req.path ≠ [] ∧ p.req.httpVersionMinor ≤ 99 ∧
      (UnderVersion seen p.req.method p.req.httpVersionMajor ∨
        Over seen p.req.method p.req.httpVersionMajor)
  | .headerLines =>
    p.req.path ≠ [] ∧ p.req.httpVersionMinor ≤ 99 ∧ Over seen p.req.method p.req.httpVersionMajor

variable {seen line method : Bytes} {major : Int} {c : UInt8}

theorem Opens.push (opens : Opens seen line) (c : UInt8) : Opens (seen ++ [c]) (line ++ [c]) := by
  intro more
  rw [List.append_assoc, List.append_assoc]
  exact opens ([c] ++ more)

private theorem LineOf.push (lineOf : LineOf method line) (other : c ≠ 10) :
    LineOf method (line ++ [c]) := by
  obtain ⟨token, ⟨space, more, begins, sp⟩, whole⟩ := lineOf
  refine ⟨token, ⟨space, more ++ [c], by simp [begins], sp⟩, ?_⟩
  simp [whole, Ne.symm other]

private theorem Under.push (under : Under seen method) (other : c ≠ 10) :
    Under (seen ++ [c]) method := by
  obtain ⟨line, opens, lineOf⟩ := under
  exact ⟨line ++ [c], opens.push c, lineOf.push other⟩

private theorem Numbered.push (numbered : Numbered line major) (other : c ≠ ch '/') :
    Numbered (line ++ [c]) major := by
  obtain ⟨front, digit, tail, split, last, rest⟩ := numbered
  refine ⟨front, digit, tail ++ [c], by simp [split], ?_, rest⟩
  intro member
  rcases List.mem_append.mp (List.cons_append ▸ member) with member | member
  · exact last member
  · exact other (List.mem_singleton.mp member).symm

private theorem UnderVersion.push (under : UnderVersion seen method major) (lf : c ≠ 10)
    (slash : c ≠ ch '/') :
    UnderVersion (seen ++ [c]) method major := by
  obtain ⟨line, opens, lineOf, numbered⟩ := under
  exact ⟨line ++ [c], opens.push c, lineOf.push lf, numbered.push slash⟩

private theorem UnderVersion.ends (under : UnderVersion seen method major) :
    Over (seen ++ [10]) method major := by
  obtain ⟨line, opens, lineOf, numbered⟩ := under
  exact ⟨line, [], opens.push 10, lineOf, numbered⟩

private theorem Over.push (past : Over seen method major) (c : UInt8) :
    Over (seen ++ [c]) method major := by
  obtain ⟨line, more, opens, lineOf, numbered⟩ := past
  refine ⟨line, more ++ [c], ?_, lineOf, numbered⟩
  have pushed := opens.push c
  rwa [List.append_assoc] at pushed

private theorem lf_of_plain (plain : ¬isCtl c = true) : c ≠ 10 := by
  rintro rfl
  exact plain (by decide)

private theorem sp_facts (sp : isSp c = true) : c ≠ 10 ∧ c ≠ ch '/' := by
  constructor
  · rintro rfl
    exact absurd sp (by decide)
  · rintro rfl
    exact absurd sp (by decide)

private theorem digit_facts (digit : isDigit c = true) :
    c ≠ 10 ∧ c ≠ ch '/' ∧ 0 ≤ (digitOf c : Int) ∧ ((digitOf c : Int) ≤ 1 ↔ c = ch '0' ∨ c = ch '1') ∧
      (digitOf c : Int) ≤ 99 := by
  revert digit
  refine byte_cases (P := fun c => isDigit c = true → c ≠ 10 ∧ c ≠ ch '/' ∧ 0 ≤ (digitOf c : Int) ∧
    ((digitOf c : Int) ≤ 1 ↔ c = ch '0' ∨ c = ch '1') ∧ (digitOf c : Int) ≤ 99) ?_ c
  decide +kernel

private theorem hex_lf {digit : Nat} (found : fromHexDigit c = some digit) : c ≠ 10 := by
  rintro rfl
  exact absurd found (by simp [fromHexDigit])

private theorem expectLetter_ok {p q : RequestParser} {letter : Char}
    {next : RequestParserState} {message : String}
    (advanced : p.expectLetter c letter next message = .ok q) : c = ch letter ∧ q = p.goTo next := by
  unfold expectLetter at advanced
  split at advanced
  · cases advanced
  · rename_i same
    cases advanced
    exact ⟨by simpa using same, rfl⟩

private theorem token_push (token : ∀ d ∈ method, isToken d = true) (isToken_ : isToken c = true) :
    ∀ d ∈ method ++ [c], isToken d = true := by
  intro d member
  rcases List.mem_append.mp member with member | member
  · exact token d member
  · rw [List.mem_singleton.mp member]
    exact isToken_

/-- One byte before the header lines. -/
private theorem advance_follows {p q : RequestParser} (follows : Follows seen p)
    (before : p.state ≠ .headerLines) (advanced : p.advance c = .ok q) : Follows (seen ++ [c]) q := by
  obtain ⟨state, lines, percent, total⟩ := p
  cases state
  case headerLines => exact absurd rfl before
  case methodStart =>
    obtain ⟨none, skipped⟩ := follows
    simp only [advance] at advanced
    split at advanced
    · rename_i cr
      cases advanced
      refine ⟨none, fun more => ?_⟩
      rw [List.append_assoc, skipped, cr]
      rfl
    split at advanced
    · rename_i lf
      cases advanced
      have empty : lines.req.method = [] := none
      refine ⟨by simp [goTo, req, empty], fun more => ?_⟩
      rw [List.append_assoc, skipped, lf, List.singleton_append, skipEmpty_lf]
      simp [goTo, req, empty]
    · rename_i cr lf
      split at advanced
      · cases advanced
      · rename_i token
        cases advanced
        have empty : lines.req.method = [] := none
        have isToken_ : isToken c = true := by simpa using token
        refine ⟨?_, fun more => ?_⟩
        · simpa [goTo, setReq, req, empty] using isToken_
        · rw [List.append_assoc, skipped, List.singleton_append, skipEmpty_other cr lf]
          simp [goTo, setReq, req, empty]
  case methodStartLf =>
    obtain ⟨none, skipped⟩ := follows
    simp only [advance] at advanced
    split at advanced
    · cases advanced
    · rename_i lf
      cases advanced
      refine ⟨none, fun more => ?_⟩
      have same : c = 10 := by simpa using lf
      rw [List.append_assoc, skipped, same]
      rfl
  case method =>
    obtain ⟨token, opens⟩ := follows
    simp only [advance] at advanced
    split at advanced
    · rename_i sp
      cases advanced
      have whole : 10 ∉ lines.req.method ++ [c] := by
        intro member
        rcases List.mem_append.mp member with member | member
        · exact (token_facts (token 10 member)).2.2.2.2 rfl
        · exact (sp_facts sp).1 (List.mem_singleton.mp member).symm
      exact ⟨lines.req.method ++ [c], opens.push c, token, ⟨c, [], rfl, sp⟩, whole⟩
    · split at advanced
      · cases advanced
      · rename_i isToken_
        cases advanced
        exact ⟨token_push token (by simpa using isToken_), opens.push c⟩
  case uriStart =>
    have under : Under seen lines.req.method := follows
    simp only [advance] at advanced
    split at advanced
    · rename_i sp
      cases advanced
      exact under.push (sp_facts sp).1
    split at advanced
    · cases advanced
    rename_i plain
    have under_ := under.push (lf_of_plain plain)
    repeat' split at advanced
    all_goals cases advanced
    · exact under_
    · exact ⟨by simp [goTo, pushPath, setReq, req], under_⟩
  case uri =>
    obtain ⟨path, under⟩ := follows
    simp only [advance] at advanced
    split at advanced
    · rename_i sp
      cases advanced
      exact ⟨path, under.push (sp_facts sp).1⟩
    split at advanced
    · cases advanced
    rename_i plain
    have under_ := under.push (lf_of_plain plain)
    repeat' split at advanced
    all_goals cases advanced
    · exact ⟨path, under_⟩
    · exact ⟨path, under_⟩
    · exact under_
    · exact ⟨by simp [pushPath, setReq, req], under_⟩
  case uriPercent1 =>
    have under : Under seen lines.req.method := follows
    simp only [advance] at advanced
    split at advanced
    · cases advanced
    · rename_i digit found
      cases advanced
      exact under.push (hex_lf found)
  case uriPercent2 =>
    have under : Under seen lines.req.method := follows
    simp only [advance] at advanced
    split at advanced
    · cases advanced
    · rename_i digit found
      cases advanced
      exact ⟨by simp [goTo, pushPath, setReq, req], under.push (hex_lf found)⟩
  case uriQueryString =>
    obtain ⟨path, under⟩ := follows
    simp only [advance] at advanced
    split at advanced
    · rename_i sp
      cases advanced
      exact ⟨path, under.push (sp_facts sp).1⟩
    split at advanced
    · cases advanced
    rename_i plain
    have under_ := under.push (lf_of_plain plain)
    split at advanced
    all_goals cases advanced
    all_goals exact ⟨path, under_⟩
  case uriAnchor =>
    obtain ⟨path, under⟩ := follows
    simp only [advance] at advanced
    split at advanced
    · rename_i sp
      cases advanced
      exact ⟨path, under.push (sp_facts sp).1⟩
    split at advanced
    · cases advanced
    · rename_i plain
      cases advanced
      exact ⟨path, under.push (lf_of_plain plain)⟩
  case httpVersionH =>
    obtain ⟨path, under⟩ := follows
    simp only [advance] at advanced
    split at advanced
    · rename_i sp
      cases advanced
      exact ⟨path, under.push (sp_facts sp).1⟩
    · obtain ⟨rfl, rfl⟩ := expectLetter_ok advanced
      exact ⟨path, under.push (by decide)⟩
  case httpVersionHt =>
    obtain ⟨path, under⟩ := follows
    obtain ⟨rfl, rfl⟩ := expectLetter_ok advanced
    exact ⟨path, under.push (by decide)⟩
  case httpVersionHtt =>
    obtain ⟨path, under⟩ := follows
    obtain ⟨rfl, rfl⟩ := expectLetter_ok advanced
    exact ⟨path, under.push (by decide)⟩
  case httpVersionHttp =>
    obtain ⟨path, under⟩ := follows
    obtain ⟨rfl, rfl⟩ := expectLetter_ok advanced
    exact ⟨path, under.push (by decide)⟩
  case httpVersionSlash =>
    obtain ⟨path, line, opens, lineOf⟩ := follows
    obtain ⟨rfl, rfl⟩ := expectLetter_ok advanced
    exact ⟨path, line, opens.push _, lineOf.push (by decide)⟩
  case httpVersionMajorStart =>
    obtain ⟨path, front, opens, lineOf⟩ := follows
    simp only [advance] at advanced
    split at advanced
    · cases advanced
    · rename_i digit
      cases advanced
      obtain ⟨lf, slash, least, one, -⟩ := digit_facts (c := c) (by simpa using digit)
      exact ⟨path, front ++ [ch '/'] ++ [c], opens.push c, lineOf.push lf, front, c,
        [], by simp, by simp [Ne.symm slash], least, one⟩
  case httpVersionMajor =>
    obtain ⟨path, line, opens, lineOf, numbered⟩ := follows
    simp only [advance] at advanced
    split at advanced
    · rename_i dot
      cases advanced
      have lf : c ≠ 10 := by
        rw [dot]
        decide
      have slash : c ≠ ch '/' := by
        rw [dot]
        decide
      exact ⟨path, line ++ [c], opens.push c, lineOf.push lf, numbered.push slash⟩
    split at advanced
    · cases advanced
    rename_i digit
    split at advanced
    · cases advanced
    · rename_i small
      cases advanced
      obtain ⟨lf, slash, least, -⟩ := digit_facts (c := c) (by simpa using digit)
      refine ⟨path, line ++ [c], opens.push c, lineOf.push lf, ?_⟩
      -- a version of more digits is checked, and so was the first of them
      obtain ⟨front, first, tail, split, last, positive, one⟩ := numbered.push slash
      have small_ : lines.req.httpVersionMajor * 10 + (digitOf c : Int) ≤ 1 := by simpa [req] using small
      have positive_ : 0 ≤ lines.req.httpVersionMajor := positive
      have first_ : first = ch '0' ∨ first = ch '1' :=
        one.mp (by show lines.req.httpVersionMajor ≤ 1; omega)
      refine ⟨front, first, tail, split, last, ?_, iff_of_true small_ first_⟩
      show 0 ≤ lines.req.httpVersionMajor * 10 + (digitOf c : Int)
      omega
  case httpVersionMinorStart =>
    obtain ⟨path, under⟩ := follows
    simp only [advance] at advanced
    split at advanced
    · cases advanced
    · rename_i digit
      cases advanced
      obtain ⟨lf, slash, -, -, most⟩ := digit_facts (c := c) (by simpa using digit)
      exact ⟨path, most, under.push lf slash⟩
  case httpVersionMinor =>
    obtain ⟨path, most, under⟩ := follows
    simp only [advance] at advanced
    split at advanced
    · rename_i cr
      cases advanced
      exact ⟨path, most, .inl (under.push (by rw [cr]; decide) (by rw [cr]; decide))⟩
    split at advanced
    · rename_i lf
      cases advanced
      exact ⟨path, most, lf ▸ under.ends⟩
    split at advanced
    · rename_i sp
      cases advanced
      exact ⟨path, most, under.push (sp_facts sp).1 (sp_facts sp).2⟩
    split at advanced
    · cases advanced
    rename_i digit
    split at advanced
    · cases advanced
    · rename_i small
      cases advanced
      obtain ⟨lf, slash, -⟩ := digit_facts (c := c) (by simpa using digit)
      have most_ : lines.req.httpVersionMinor * 10 + (digitOf c : Int) ≤ 99 := by simpa [req] using small
      exact ⟨path, most_, under.push lf slash⟩
  case statusLineCr =>
    obtain ⟨path, most, under⟩ := follows
    simp only [advance] at advanced
    split at advanced
    · rename_i sp
      cases advanced
      exact ⟨path, most, under.push (sp_facts sp).1 (sp_facts sp).2⟩
    split at advanced
    · cases advanced
    · rename_i lf
      cases advanced
      have same : c = 10 := by simpa using lf
      exact ⟨path, most, .inr (same ▸ under.ends)⟩
  case statusLineLf =>
    obtain ⟨path, most, place⟩ := follows
    simp only [advance] at advanced
    split at advanced
    · cases advanced
    · rename_i lf
      cases advanced
      have same : c = 10 := by simpa using lf
      rcases place with under | past
      · exact ⟨path, most, same ▸ under.ends⟩
      · exact ⟨path, most, past.push c⟩

/-- What the first line says is the same in two messages. -/
structure SameLine (r s : RequestHeader) : Prop where
  method : s.method = r.method
  path : s.path = r.path
  major : s.httpVersionMajor = r.httpVersionMajor
  minor : s.httpVersionMinor = r.httpVersionMinor

private theorem processReadyHeader_sameLine {h : Header} {r s : RequestHeader}
    (processed : processReadyHeader h r = .ok s) :
    SameLine r s := by
  unfold processReadyHeader at processed
  split at processed
  · rename_i common found
    cases processed
    obtain ⟨major, minor, -⟩ := processCommonHeader_keeps found
    exact ⟨rfl, rfl, major, minor⟩
  · cases processed
  · repeat' split at processed
    all_goals cases processed
    all_goals exact ⟨rfl, rfl, rfl, rfl⟩

/-- Header lines leave what was read of the first line. -/
private theorem headerLines_follows {p q : RequestParser} (follows : Follows seen p)
    (state : p.state = .headerLines) (advanced : p.advance c = .ok q) : Follows (seen ++ [c]) q := by
  obtain ⟨here, lines, percent, total⟩ := p
  subst state
  obtain ⟨path, most, past⟩ := follows
  simp only [advance] at advanced
  split at advanced
  · cases advanced
  · rename_i lines' consumed
    cases advanced
    have same : SameLine lines.req lines'.req := by
      refine consumeLine_keeps (P := SameLine lines.req) ?_ ?_ (p := lines) ⟨rfl, rfl, rfl, rfl⟩ consumed
      · rintro r ⟨method, path, major, minor⟩
        exact ⟨method, path, major, minor⟩
      · rintro h r s ⟨method, path, major, minor⟩ processed
        have next := processReadyHeader_sameLine processed
        exact ⟨next.method.trans method, next.path.trans path, next.major.trans major,
          next.minor.trans minor⟩
    show lines'.req.path ≠ [] ∧ lines'.req.httpVersionMinor ≤ 99 ∧
      Over (seen ++ [c]) lines'.req.method lines'.req.httpVersionMajor
    rw [same.method, same.path, same.major, same.minor]
    exact ⟨path, most, past.push c⟩

theorem Follows.step {p q : RequestParser} (follows : Follows seen p)
    (advanced : p.advance c = .ok q) : Follows (seen ++ [c]) q := by
  by_cases state : p.state = .headerLines
  · exact headerLines_follows follows state advanced
  · exact advance_follows follows state advanced

/-- The header lines are touched only behind the first line. -/
private theorem advance_fit {p q : RequestParser} (fit : Fit p.lines)
    (advanced : p.advance c = .ok q) : Fit q.lines := by
  obtain ⟨state, lines, percent, total⟩ := p
  cases state
  case headerLines =>
    simp only [advance] at advanced
    split at advanced
    · cases advanced
    · rename_i lines' consumed
      cases advanced
      exact consumeLine_fit fit consumed
  all_goals
    simp only [advance, expectLetter] at advanced
    repeat' split at advanced
  all_goals cases advanced
  all_goals exact ⟨fit.name, fit.begun, fit.value, fit.stored.names, fit.stored.values⟩

end FirstLine

section Requests

/-- A request as it should be. -/
structure WellFormed (req : RequestHeader) : Prop where
  method : req.method ≠ []
  token : ∀ c ∈ req.method, isToken c = true
  path : req.path ≠ []
  major : req.httpVersionMajor ≤ 1
  minor : req.httpVersionMinor ≤ 99
  names : ∀ h ∈ req.headers, IsName h.name
  values : ∀ value ∈ storedValues req, IsText value

/-- The first line does not begin with a space, and the version behind its last slash
begins with 0 or 1. -/
structure Regular (text : Bytes) : Prop where
  method : ∀ c, (firstLine text).head? = some c → isSp c = false
  version : (versionText (firstLine text)).head? = some (ch '0') ∨
    (versionText (firstLine text)).head? = some (ch '1')

/-- What the parser found is what the first line says. -/
private theorem accepted_facts {text : Bytes} {p : RequestParser} (accepted : Accepts text p) :
    p.req.path ≠ [] ∧ p.req.httpVersionMinor ≤ 99 ∧ Stored p.req ∧
      LineOf p.req.method (firstLine text) ∧ Numbered (firstLine text) p.req.httpVersionMajor := by
  obtain ⟨rest, parsed, good⟩ := accepted
  have within : scan plain {} text = .ok ({ p with totalLength := 0 }, rest) :=
    limited.scan_within parsed 0
  obtain ⟨used, rfl⟩ := rest_suffix within
  have fit : Fit ({ p with totalLength := 0 } : RequestParser).lines := by
    refine scan_preserves (P := fun q : RequestParser => Fit q.lines) (fun s a t _ fit advanced =>
      advance_fit fit advanced) ?_ within
    exact ⟨by simp, fun begun => begun.elim, isText_nil, by simp, by simp [storedValues, isText_nil]⟩
  have follows : Follows ([] ++ used) { p with totalLength := 0 } := by
    refine scan_traces (P := Follows) ?_ (s := ({} : RequestParser)) ⟨rfl, fun _ => rfl⟩ within
    intro seen s a t running follows advanced
    exact follows.step advanced
  have state : p.state = .headerLines := by
    simp only [isGood, Bool.and_eq_true, beq_iff_eq] at good
    exact good.1
  simp only [Follows, state, List.nil_append] at follows
  obtain ⟨path, most, line, more, opens, lineOf, numbered⟩ := follows
  have first : firstLine (used ++ rest) = line := by
    have kept : ∀ c ∈ line, decide (c ≠ 10) = true := by
      intro c member
      rw [decide_eq_true_iff]
      rintro rfl
      exact lineOf.whole member
    rw [firstLine, opens, List.append_assoc, List.cons_append, List.takeWhile_append_of_pos kept]
    simp
  rw [first]
  exact ⟨path, most, fit.stored, lineOf, numbered⟩

/-- An accepted request is as it should be exactly if its first line has a method and
no version above 1. -/
theorem accepted_wellFormed_iff {text : Bytes} {p : RequestParser} (accepted : Accepts text p) :
    WellFormed p.req ↔ Regular text := by
  obtain ⟨path, minor, stored, lineOf, front, digit, tail, split, last, positive, one⟩ :=
    accepted_facts accepted
  obtain ⟨token, ⟨space, more, begins, sp⟩, whole⟩ := lineOf
  have version : (versionText (firstLine text)).head? = some digit := by
    have kept : ∀ c ∈ (digit :: tail).reverse, decide (c ≠ ch '/') = true := by
      intro c member
      rw [decide_eq_true_iff]
      rintro rfl
      exact last (List.mem_reverse.mp member)
    rw [versionText, split, List.reverse_append, List.reverse_cons, List.append_assoc,
      List.takeWhile_append_of_pos kept]
    simp
  have method : p.req.method ≠ [] ↔ ∀ c, (firstLine text).head? = some c → isSp c = false := by
    rw [begins]
    cases name : p.req.method with
    | nil => simp [sp]
    | cons c method =>
      have other := (token_facts (token c (by simp [name]))).1
      simp [other]
  constructor
  · intro wellFormed
    refine ⟨method.mp wellFormed.method, ?_⟩
    rw [version]
    exact (one.mp wellFormed.major).imp (congrArg some) (congrArg some)
  · intro regular
    have first := regular.version
    rw [version, Option.some.injEq, Option.some.injEq] at first
    exact ⟨method.mpr regular.method, token, path, one.mpr first, minor, stored.names, stored.values⟩

/-- A run on a text, and what it makes of it. -/
theorem accepts_of_run {α : Type} (text : Bytes) (f : RequestParser → α) (value : α)
    (run : ((RequestParser.parse {} text).toOption.map fun read => (read.1.isGood, f read.1)) =
      some (true, value)) :
    ∃ p, Accepts text p ∧ f p = value := by
  obtain ⟨read, parsed, seen⟩ := ok_of_run run
  obtain ⟨good, value⟩ := Prod.mk.inj seen
  exact ⟨read.1, ⟨read.2, parsed, good⟩, value⟩

theorem accepted_wellFormed_iff_folded :
    ∃ p, Accepts (str "\r\nGET /%41 HTTP/01.1\nHost: a\r\n b\r\n\r\n") p ∧
      (WellFormed p.req ↔ Regular (str "\r\nGET /%41 HTTP/01.1\nHost: a\r\n b\r\n\r\n")) := by
  obtain ⟨p, accepted, -⟩ := accepts_of_run (str "\r\nGET /%41 HTTP/01.1\nHost: a\r\n b\r\n\r\n")
    (fun p => p.req.host) (str "a b") (by decide +kernel)
  exact ⟨p, accepted, accepted_wellFormed_iff accepted⟩

/-- A request without a method is accepted behind a bare line feed, and so is one of
version 9. -/
theorem malformed_accepted :
    (∃ p, Accepts (str "\n / HTTP/1.1\r\n\r\n") p ∧ ¬WellFormed p.req) ∧
      ∃ p, Accepts (str "GET / HTTP/9.1\r\n\r\n") p ∧ ¬WellFormed p.req := by
  constructor
  · obtain ⟨p, accepted, none⟩ := accepts_of_run (str "\n / HTTP/1.1\r\n\r\n") (fun p => p.req.method) []
      (by decide +kernel)
    exact ⟨p, accepted, fun wellFormed => wellFormed.method none⟩
  · obtain ⟨p, accepted, nine⟩ :=
      accepts_of_run (str "GET / HTTP/9.1\r\n\r\n") (fun p => p.req.httpVersionMajor)
      9 (by decide +kernel)
    refine ⟨p, accepted, fun wellFormed => ?_⟩
    have major := wellFormed.major
    rw [nine] at major
    exact absurd major (by decide)

end Requests

end Crablib.AcceptedProofs
