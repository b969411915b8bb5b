import Crablib.ListLayoutProofs
import Crablib.RecordingProofs
import Crablib.RetentionProofs

/-! A line end before a space of a value. Behind a character of the value it changes
nothing. Before the value the parser skips spaces, but not behind a line end, so the
value is then read with a space in front. -/
namespace Crablib.ContinuationProofs
open Http Scanner RequestParser LockstepProofs HeaderProofs RequestTextProofs FramingProofs
open CodingProofs
open TerminatorProofs ListLayoutProofs RetentionProofs RecordingProofs Folds

section Values

variable {β : Type} {name value value' : Bytes} {later : List Header} {r s : RequestHeader}

/-- What some headers make of a message. -/
def processed (headers : List Header) (r : RequestHeader) : Option RequestHeader :=
  headers.foldlM (fun r h => (processReadyHeader h r).toOption) r

/-- A part that the headers of one name set when they see in it what they look for,
and that no other header touches. -/
private structure Slot (name : Bytes) (part : Part RequestHeader β)
    (read : Bytes → Option β) : Prop where
  put_put : ∀ b b' r, part.put b (part.put b' r) = part.put b r
  process : ∀ value r, processReadyHeader { name := name, value := value } r =
    .ok (part.put ((read value).getD (part.get r)) r)
  others : ∀ h, h.name ≠ name → part.Leaves fun r => (processReadyHeader h r).toOption

private theorem Slot.processed_iff {part : Part RequestHeader β} {read : Bytes → Option β}
    (slot : Slot name part read)
    (ends : processed ({ name := name, value := value } :: later) r = some s) :
    processed ({ name := name, value := value' } :: later) r = some s ↔
      (∃ h ∈ later, h.name = name ∧ (read h.value).isSome = true) ∨
        (read value').getD (part.get r) = (read value).getD (part.get r) := by
  have own : ∀ h : Header, (h.name == name && (read h.value).isSome) = true →
      part.Overwrites fun r => (processReadyHeader h r).toOption := by
    rintro ⟨name', value⟩ same b r
    obtain ⟨same, found⟩ := Bool.and_eq_true_iff.mp same
    obtain rfl : name' = name := beq_iff_eq.mp same
    obtain ⟨b', found⟩ := Option.isSome_iff_exists.mp found
    simp only at found
    simp only [slot.process, found, Option.getD_some, slot.put_put]
  have others : ∀ h : Header, (h.name == name && (read h.value).isSome) = false →
      part.Leaves fun r => (processReadyHeader h r).toOption := by
    rintro ⟨name', value⟩ other
    by_cases same : name' = name
    · subst same
      have none : read value = none := by simpa using other
      intro b r
      simp only [slot.process, none, Option.getD_none, part.put_get]
      rfl
    · exact slot.others _ same
  have first : ∀ value, processed ({ name := name, value := value } :: later) r =
      processed later (part.put ((read value).getD (part.get r)) r) := by
    intro value
    rw [processed, List.foldlM_cons, slot.process]
    rfl
  have written : later.any (fun h => h.name == name && (read h.value).isSome) = true ↔
      ∃ h ∈ later, h.name = name ∧ (read h.value).isSome = true := by
    simp
  rw [first] at ends ⊢
  rw [← written]
  exact foldlM_put_iff own others ends

/-- A field set to what it is leaves the header. -/
private theorem header_same (r : RequestHeader) : { r with host := r.host } = r := rfl

private def hostPart : Part RequestHeader Bytes where
  get := fun r => r.host
  put := fun b r => { r with host := b }
  get_put := fun _ _ => rfl
  put_get := header_same

private def originPart : Part RequestHeader Bytes where
  get := fun r => r.origin
  put := fun b r => { r with origin := b }
  get_put := fun _ _ => rfl
  put_get := header_same

private def keyPart : Part RequestHeader Bytes where
  get := fun r => r.secWebsocketKey
  put := fun b r => { r with secWebsocketKey := b }
  get_put := fun _ _ => rfl
  put_get := header_same

private def versionPart : Part RequestHeader Bytes where
  get := fun r => r.secWebsocketVersion
  put := fun b r => { r with secWebsocketVersion := b }
  get_put := fun _ _ => rfl
  put_get := header_same

private def authorizationPart : Part RequestHeader Bytes where
  get := fun r => r.basicAuthorization
  put := fun b r => { r with basicAuthorization := b }
  get_put := fun _ _ => rfl
  put_get := header_same

private def typePart : Part RequestResponseHeader (Bytes × Bytes) where
  get := fun c => (c.contentTypeMime, c.contentTypeSuffix)
  put := fun b c => { c with contentTypeMime := b.1, contentTypeSuffix := b.2 }
  get_put := fun _ _ => rfl
  put_get := fun _ => rfl

private theorem host_slot : Slot (str "host") hostPart some where
  put_put := fun _ _ _ => rfl
  process := fun _ _ => rfl
  others := fun h other b r => by
    simp only [processReadyHeader, hostPart]
    repeat' split
    all_goals first | rfl | contradiction

private theorem origin_slot : Slot (str "origin") originPart some where
  put_put := fun _ _ _ => rfl
  process := fun _ _ => rfl
  others := fun h other b r => by
    simp only [processReadyHeader, originPart]
    repeat' split
    all_goals rfl

private theorem key_slot : Slot (str "sec-websocket-key") keyPart some where
  put_put := fun _ _ _ => rfl
  process := fun _ _ => rfl
  others := fun h other b r => by
    simp only [processReadyHeader, keyPart]
    repeat' split
    all_goals rfl

private theorem version_slot : Slot (str "sec-websocket-version") versionPart some where
  put_put := fun _ _ _ => rfl
  process := fun _ _ => rfl
  others := fun h other b r => by
    simp only [processReadyHeader, versionPart]
    repeat' split
    all_goals rfl

private theorem authorization_slot :
    Slot (str "authorization") authorizationPart parseAuthorizationBasic where
  put_put := fun _ _ _ => rfl
  process := fun _ _ => rfl
  others := fun h other b r => by
    simp only [processReadyHeader, authorizationPart]
    repeat' split
    all_goals rfl

private theorem common_type (other : name ≠ str "content-type") (value : Bytes) (b : Bytes × Bytes)
    (c : RequestResponseHeader) :
    processCommonHeader name value (typePart.put b c) =
      (processCommonHeader name value c).map fun result => result.map (typePart.put b) := by
  simp only [processCommonHeader, typePart, other, ↓reduceIte]
  by_cases length : name = str "content-length"
  · by_cases given : c.contentLength.isSome = true <;> simp only [length, given, ↓reduceIte]
    · rfl
    · cases integerParse .uint64 value <;> rfl
  by_cases coding : name = str "transfer-encoding"
  · have apart : str "transfer-encoding" ≠ str "content-length" := by decide
    simp only [coding, apart, ↓reduceIte]
    by_cases chunked : toLower value = str "chunked"
    · by_cases some_ : (!c.transferEncodings.isEmpty) = true <;>
        simp only [chunked, some_, ↓reduceIte] <;> rfl
    · simp only [chunked, ↓reduceIte]
      split <;> rfl
  simp only [length, coding, ↓reduceIte]
  split
  · split
    · rfl
    split
    · rfl
    · split <;> rfl
  split
  · split <;> rfl
  · rfl

private theorem type_slot :
    Slot (str "content-type") (ofRequest typePart) fun value => some (parseContentTypeValue value) where
  put_put := fun _ _ _ => rfl
  process := fun _ _ => rfl
  others := fun h other => request_leaves ⟨fun _ _ => rfl, fun _ _ _ => rfl⟩ (common_type other h.value)

/-- What each header adds to a list is added in order. -/
private theorem processed_adds {α : Type} {get : RequestHeader → List α} {add : Header → List α}
    (step : ∀ h r s, processReadyHeader h r = .ok s → get s = get r ++ add h) {headers : List Header}
    (ends : processed headers r = some s) : get s = get r ++ headers.flatMap add := by
  induction headers generalizing r with
  | nil =>
    cases ends
    simp
  | cons h headers ih =>
    rw [processed, List.foldlM_cons] at ends
    cases done : processReadyHeader h r with
    | error e =>
      rw [done] at ends
      cases ends
    | ok t =>
      rw [done] at ends
      rw [ih ends, step h r t done, List.flatMap_cons, List.append_assoc]

private theorem adds_header (h : Header) (r s : RequestHeader) (done : processReadyHeader h r = .ok s) :
    s.headers = r.headers ++ if h.name ∉ specialNames then [h] else [] := by
  by_cases special : h.name ∈ specialNames
  · rw [if_neg (by simpa using special), List.append_nil]
    unfold processReadyHeader at done
    split at done
    · rename_i common found
      cases done
      exact (common_read found).2
    · cases done
    · simp only [specialNames, List.mem_cons, List.not_mem_nil, or_false] at special
      repeat' split at done
      all_goals cases done
      all_goals try rfl
      rename_i other _ _ _ _ _
      have read := common_other other
      simp_all [readNames]
  · rw [if_pos special]
    have kept := requestCommon.extra h r special
    cases (show processReadyHeader h r = _ from kept).symm.trans done
    rfl

/-- The coding that a header adds. -/
private def codingOf (h : Header) : List Bytes :=
  if h.name = str "transfer-encoding" ∧ toLower h.value ≠ str "chunked" ∧
    toLower h.value ≠ str "identity" then [toLower h.value] else []

private theorem process_codings (value : Bytes) (r : RequestHeader) :
    processReadyHeader { name := str "transfer-encoding", value := value } r =
      (codingOption value (codings.get r.toRequestResponseHeader)).map fun b =>
      (ofRequest codings).put b r := by
  simp only [processReadyHeader, common_codings]
  cases codingOption value (codings.get r.toRequestResponseHeader) <;> rfl

private theorem codingOption_adds {b b' : List Bytes × Bool} (taken : codingOption value b = .ok b') :
    b'.1 = b.1 ++ codingOf { name := str "transfer-encoding", value := value } := by
  unfold codingOption at taken
  unfold codingOf
  split at taken
  · rename_i chunked
    rw [if_neg (by simp [chunked]), List.append_nil]
    split at taken <;> cases taken
    rfl
  · rename_i chunked
    split at taken <;> cases taken
    · rename_i identity
      rw [if_neg (by simp [identity]), List.append_nil]
    · rename_i identity
      rw [if_pos ⟨rfl, chunked, identity⟩]

private theorem adds_coding (h : Header) (r s : RequestHeader) (done : processReadyHeader h r = .ok s) :
    s.transferEncodings = r.transferEncodings ++ codingOf h := by
  obtain ⟨name, value⟩ := h
  by_cases same : name = str "transfer-encoding"
  · subst same
    rw [process_codings] at done
    cases taken : codingOption value (codings.get r.toRequestResponseHeader) with
    | error e =>
      rw [taken] at done
      cases done
    | ok b =>
      rw [taken] at done
      cases done
      exact codingOption_adds taken
  · rw [codingOf, if_neg (by simp [same]), List.append_nil]
    have leaves : (ofRequest codings).Leaves fun r => (processReadyHeader ⟨name, value⟩ r).toOption :=
      request_leaves ⟨fun _ _ => rfl, fun _ _ _ => rfl⟩ (common_elsewhere same value)
    have kept := leaves.get (r := r) (s := s) (by rw [done]; rfl)
    exact congrArg Prod.fst kept

variable {spaces : Bytes}

/-- The names under which the last value is kept as it is. -/
def keptNames : List Bytes :=
  [str "host", str "origin", str "sec-websocket-key", str "sec-websocket-version"]

/-- Spaces that were read as a part of a value do no harm to it: a number is read behind
them, a media type is not if there was none, and of other values nothing is left when a
later header of the name replaces them. -/
def Ignored (name value : Bytes) (r : RequestHeader) (later : List Header) : Prop :=
  if name = str "content-length" then True
  else if name = str "content-type" then (∃ h ∈ later, h.name = name) ∨
    (parseContentTypeValue value).1 = []
  else if name = str "authorization" then
    (∃ h ∈ later, h.name = name ∧ (parseAuthorizationBasic h.value).isSome = true) ∨
      (parseAuthorizationBasic value).getD r.basicAuthorization = r.basicAuthorization
  else name ∈ keptNames ∧ ∃ h ∈ later, h.name = name

/-- Some spaces. -/
structure IsSpaces (spaces : Bytes) : Prop where
  some : spaces ≠ []
  blank : ∀ c ∈ spaces, c = 32

private theorem spaced_ne (isSpaces : IsSpaces spaces) (value : Bytes) : spaces ++ value ≠ value := by
  intro same
  have lengths := congrArg List.length same
  have some_ := List.length_pos_iff.mpr isSpaces.some
  rw [List.length_append] at lengths
  omega

private theorem toLower_spaced (isSpaces : IsSpaces spaces) (value : Bytes) {word : Bytes}
    (other : word.head? ≠ some 32) :
    toLower (spaces ++ value) ≠ word := by
  obtain ⟨c, more, rfl⟩ := List.exists_cons_of_ne_nil isSpaces.some
  rintro rfl
  rw [isSpaces.blank c List.mem_cons_self] at other
  exact other rfl

private theorem type_spaced (isSpaces : IsSpaces spaces) (value : Bytes) :
    parseContentTypeValue (spaces ++ value) = parseContentTypeValue value ↔
      (parseContentTypeValue value).1 = [] := by
  have first : (parseContentTypeValue (spaces ++ value)).1 = [] := by
    obtain ⟨c, more, rfl⟩ := List.exists_cons_of_ne_nil isSpaces.some
    rw [isSpaces.blank c List.mem_cons_self]
    rfl
  constructor
  · intro same
    rw [← same, first]
  · intro none
    refine Prod.ext (first.trans none.symm) ?_
    have stops : value.takeWhile (fun c => !(c == ch ';' || isSp c)) = [] := by
      simpa [parseContentTypeValue, toLower] using none
    have whole : value.dropWhile (fun c => !(c == ch ';' || isSp c)) = value := by
      have split := List.takeWhile_append_dropWhile (p := fun c => !(c == ch ';' || isSp c)) (l := value)
      rw [stops, List.nil_append] at split
      exact split
    have spaced : (spaces ++ value).dropWhile (fun c => !(c == ch ';' || isSp c)) = spaces ++ value := by
      obtain ⟨c, more, rfl⟩ := List.exists_cons_of_ne_nil isSpaces.some
      rw [isSpaces.blank c List.mem_cons_self]
      rfl
    have skipped : (spaces ++ value).dropWhile isSp = value.dropWhile isSp :=
      List.dropWhile_append_of_pos fun c member => by rw [isSpaces.blank c member]; rfl
    simp only [parseContentTypeValue, whole, spaced, skipped]

private theorem integerParse_spaced (isSpaces : IsSpaces spaces) (value : Bytes) (t : IntType) :
    integerParse t (spaces ++ value) = integerParse t value := by
  have skipped : (spaces ++ value).dropWhile isIntegerSpace = value.dropWhile isIntegerSpace :=
    List.dropWhile_append_of_pos fun c member => by rw [isSpaces.blank c member]; rfl
  simp only [integerParse, skipped]

private theorem authorization_spaced (isSpaces : IsSpaces spaces) (value : Bytes) :
    parseAuthorizationBasic (spaces ++ value) = none := by
  refine authorization_none ?_
  obtain ⟨c, more, rfl⟩ := List.exists_cons_of_ne_nil isSpaces.some
  rw [isSpaces.blank c List.mem_cons_self]
  rfl

private theorem connection_refused (value : Bytes) (r : RequestHeader)
    (closes : toLower value ≠ str "close") (keeps : toLower value ≠ str "keep-alive")
    (upgrades : toLower value ≠ str "upgrade") :
    (processReadyHeader { name := str "connection", value := value } r).toOption = none := by
  have apart : str "connection" ≠ str "content-length" ∧ str "connection" ≠ str "transfer-encoding" ∧
      str "connection" ≠ str "content-type" := by
    decide
  simp only [processReadyHeader, processCommonHeader, apart.1, apart.2.1, apart.2.2, closes,
    keeps, upgrades, ↓reduceIte]
  rfl

private theorem upgrade_refused (value : Bytes) (r : RequestHeader)
    (other : toLower value ≠ str "websocket") :
    (processReadyHeader { name := str "upgrade", value := value } r).toOption = none := by
  have apart : str "upgrade" ≠ str "content-length" ∧ str "upgrade" ≠ str "transfer-encoding" ∧
    str "upgrade" ≠ str "content-type" ∧
      str "upgrade" ≠ str "connection" := by
    decide
  simp only [processReadyHeader, processCommonHeader, apart.1, apart.2.1, apart.2.2.1,
    apart.2.2.2, other, ↓reduceIte]
  rfl

private theorem processed_refused {h : Header}
    (refused : (processReadyHeader h r).toOption = none) : processed (h :: later) r = none := by
  rw [processed, List.foldlM_cons, refused]
  rfl

private theorem length_spaced (isSpaces : IsSpaces spaces) (value : Bytes) (r : RequestHeader) :
    processReadyHeader { name := str "content-length", value := spaces ++ value } r =
      processReadyHeader { name := str "content-length", value := value } r := by
  by_cases given : r.contentLength.isSome = true
  · simp only [processReadyHeader, processCommonHeader, given, ↓reduceIte]
  · cases parsed : integerParse .uint64 value with
    | error e =>
      simp only [processReadyHeader, processCommonHeader, integerParse_spaced isSpaces, parsed,
        given, Bool.false_eq_true, ↓reduceIte]
    | ok length =>
      simp only [processReadyHeader, processCommonHeader, integerParse_spaced isSpaces, parsed,
        given, Bool.false_eq_true, ↓reduceIte]

private theorem kept_spaced {part : Part RequestHeader Bytes}
    (slot : Slot name part some) (ne : value' ≠ value)
    (ends : processed ({ name := name, value := value } :: later) r = some s) :
    processed ({ name := name, value := value' } :: later) r = some s ↔ ∃ h ∈ later, h.name = name := by
  rw [slot.processed_iff ends]
  simp [ne]

private theorem coding_spaced (isSpaces : IsSpaces spaces)
    (ends : processed ({ name := str "transfer-encoding", value := value } :: later) r = some s) :
    processed ({ name := str "transfer-encoding", value := spaces ++ value } :: later) r ≠ some s := by
  intro ends'
  have same := (processed_adds adds_coding ends).symm.trans (processed_adds adds_coding ends')
  have coding := List.append_cancel_right (List.append_cancel_left same)
  have chunked : toLower (spaces ++ value) ≠ str "chunked" := toLower_spaced isSpaces value (by decide)
  have identity : toLower (spaces ++ value) ≠ str "identity" := toLower_spaced isSpaces value (by decide)
  unfold codingOf at coding
  simp only [chunked, identity, ne_eq, not_false_eq_true, and_self, ↓reduceIte] at coding
  split at coding
  · have lengths := congrArg List.length (List.singleton_inj.mp coding)
    have some_ := List.length_pos_iff.mpr isSpaces.some
    simp only [toLower, List.length_map, List.length_append] at lengths
    omega
  · cases coding

private theorem extra_spaced (extra : name ∉ specialNames) (ne : value' ≠ value)
    (ends : processed ({ name := name, value := value } :: later) r = some s) :
    processed ({ name := name, value := value' } :: later) r ≠ some s := by
  intro ends'
  have same := (processed_adds adds_header ends).symm.trans (processed_adds adds_header ends')
  have header := List.append_cancel_right (List.append_cancel_left same)
  simp only [extra, not_false_eq_true, ↓reduceIte, List.cons.injEq, Header.mk.injEq,
    true_and, and_true] at header
  exact ne header.symm

/-- Spaces in front of a value are seen in the message, unless its header ignores them. -/
theorem processed_spaced (isSpaces : IsSpaces spaces)
    (ends : processed ({ name := name, value := value } :: later) r = some s) :
    processed ({ name := name, value := spaces ++ value } :: later) r = some s ↔
      Ignored name value r later := by
  have ne := spaced_ne isSpaces value
  unfold Ignored
  split
  · rename_i length
    subst length
    have same := length_spaced isSpaces value r
    rw [processed, List.foldlM_cons] at ends ⊢
    rw [same]
    simp only [ends]
  split
  · rename_i type_
    subst type_
    rw [type_slot.processed_iff ends]
    simp [type_spaced isSpaces]
  split
  · rename_i authorization
    subst authorization
    rw [authorization_slot.processed_iff ends, authorization_spaced isSpaces]
    exact or_congr_right eq_comm
  rename_i length type_ authorization
  by_cases special : name ∈ specialNames
  · simp only [specialNames, List.mem_cons, List.not_mem_nil, or_false, length, type_,
      authorization, false_or] at special
    rcases special with rfl | rfl | rfl | rfl | rfl | rfl | rfl
    · simp [coding_spaced isSpaces ends, show str "transfer-encoding" ∉ keptNames by decide]
    · simp [kept_spaced host_slot ne ends, show str "host" ∈ keptNames by decide]
    · simp [kept_spaced origin_slot ne ends, show str "origin" ∈ keptNames by decide]
    · have refused := connection_refused (spaces ++ value) r
        (toLower_spaced isSpaces value (by decide)) (toLower_spaced isSpaces value (by decide))
        (toLower_spaced isSpaces value (by decide))
      simp [processed_refused refused, show str "connection" ∉ keptNames by decide]
    · have refused := upgrade_refused (spaces ++ value) r (toLower_spaced isSpaces value (by decide))
      simp [processed_refused refused, show str "upgrade" ∉ keptNames by decide]
    · simp [kept_spaced key_slot ne ends, show str "sec-websocket-key" ∈ keptNames by decide]
    · simp [kept_spaced version_slot ne ends, show str "sec-websocket-version" ∈ keptNames by decide]
  · have other : name ∉ keptNames := fun kept => special ((show keptNames ⊆ specialNames by decide) kept)
    simp [extra_spaced special ne ends, other]

end Values

section Folded

variable {p p' : HeaderLines RequestHeader} {back : Bytes}

/-- The headers that a parser within the lines still finds in a text. -/
def headersOf (p : HeaderLines RequestHeader) (text : Bytes) : List Header :=
  match scan (lineMachine recorder) (withReq p []) text with
  | .error _ => []
  | .ok (q, _) => q.req

/-- The value that a parser behind a colon will find. -/
def valueOf (p : HeaderLines RequestHeader) (text : Bytes) : Bytes :=
  trimRight (restOf p.headerCmsList (text.dropWhile isSp))

/-- A line end before a space does no harm: it stands behind a character of the value, or
only spaces follow up to the value, which is missing or ignores them. -/
def Foldable (p : HeaderLines RequestHeader) (back : Bytes) : Prop :=
  p.state = .headerValue ∨
    p.state = .spaceBeforeHeaderValue ∧ 9 ∉ back.takeWhile isSp ∧
      (valueOf p back = [] ∨ Ignored p.header.name (valueOf p back) p.req (headersOf p back).tail)

private theorem trimRight_spaced {spaces : Bytes} (isSpaces : IsSpaces spaces) (value : Bytes) :
    trimRight (spaces ++ value) = if trimRight value = [] then [] else spaces ++ trimRight value := by
  have blank : spaces.reverse.dropWhile isSp = [] := by
    rw [List.dropWhile_eq_nil_iff]
    intro c member
    rw [isSpaces.blank c (List.mem_reverse.mp member)]
    rfl
  unfold trimRight
  rw [List.reverse_append, List.dropWhile_append, blank]
  cases left : value.reverse.dropWhile isSp with
  | nil => simp
  | cons c more => simp

/-- The same for a value as it is read. -/
private theorem processed_ready {spaces name value : Bytes} {list : Bool} {later : List Header}
    {r s : RequestHeader} (isSpaces : IsSpaces spaces)
    (ends : processed (ready name list value ++ later) r = some s) :
    processed (ready name list (spaces ++ value) ++ later) r = some s ↔
      trimRight value = [] ∨ Ignored name (trimRight value) r (ready name list value ++ later).tail := by
  unfold ready at ends ⊢
  rw [trimRight_spaced isSpaces]
  by_cases none : trimRight value = []
  · rw [none] at ends ⊢
    simpa using ends
  · have some_ : (list && (trimRight value).isEmpty) = false := by simp [none]
    have some_' : (list && (spaces ++ trimRight value).isEmpty) = false := by simp [none]
    rw [some_] at ends ⊢
    rw [if_neg none, some_']
    exact (processed_spaced isSpaces ends).trans (or_iff_right none).symm

private theorem scan_tab {actions : LineActions ρ} {p : HeaderLines ρ}
    (state : p.state = .headerValue) (tab : 9 ∈ back.takeWhile isSp)
    (result : HeaderLines ρ × Bytes) : scan (lineMachine actions) p back ≠ .ok result := by
  induction back generalizing p with
  | nil => cases tab
  | cons c back ih =>
    by_cases sp : isSp c = true
    · rw [List.takeWhile_cons, if_pos sp] at tab
      have running : (lineMachine actions).good p = false := by simp [lineMachine, state]
      rcases Bool.or_eq_true_iff.mp sp with space | space
      · obtain rfl := beq_iff_eq.mp space
        have later : 9 ∈ back.takeWhile isSp := by simpa using tab
        have consumed :
            (lineMachine actions).consume p 32 =
            .ok { p with state := .headerValue, header.value := p.header.value ++ [32] } := by
          have comma : (32 == ch ',') = false := by decide
          simp [lineMachine, consumeLine, headerValue, state, comma]
        rw [scan_step running consumed]
        exact ih rfl later
      · obtain rfl := beq_iff_eq.mp space
        have consumed :
            (lineMachine actions).consume p 9 =
            .error (.runtime "Invalid character (control) in header value") := by
          have ctl : isCtl 9 = true := by decide
          simp [lineMachine, consumeLine, headerValue, state, ctl]
        rw [scan_fail running consumed]
        simp
    · rw [List.takeWhile_cons, if_neg sp] at tab
      cases tab

/-- Once the spaces before a value are over, it does not matter that there were none. -/
private theorem scan_before {actions : LineActions ρ} {p q : HeaderLines ρ}
    (state : p.state = .spaceBeforeHeaderValue) (over_ : ∀ c, back.head? = some c → isSp c = false)
    (scanned : scan (lineMachine actions) p back = .ok (q, [])) (good : q.state = .good) :
    scan (lineMachine actions) { p with state := .headerValue } back = .ok (q, []) := by
  cases back with
  | nil =>
    cases scanned
    rw [state] at good
    cases good
  | cons c back =>
    obtain ⟨-, next, consumed, later⟩ := scan_first scanned
    have sp := over_ c rfl
    have here : (lineMachine actions).consume { p with state := .headerValue } c = .ok next := by
      simp only [lineMachine, consumeLine, state, sp, Bool.false_eq_true, ↓reduceIte] at consumed ⊢
      exact consumed
    rw [scan_step (by simp [lineMachine]) here]
    exact later

theorem folded_iff (state : p.state = .spaceBeforeHeaderValue) (empty : p.header.value = [])
    (scanned : scan (lineMachine actions) p back = .ok (p', [])) (good : p'.state = .good) :
    (∃ q, scan (lineMachine actions) { p with state := .headerValue, header.value := [32] } back =
      .ok (q, []) ∧ q.state = .good ∧ q.req = p'.req) ↔
      9 ∉ back.takeWhile isSp ∧
      (valueOf p back = [] ∨ Ignored p.header.name (valueOf p back) p.req (headersOf p back).tail) := by
  by_cases tab : 9 ∈ back.takeWhile isSp
  · constructor
    · rintro ⟨q, scanned', -⟩
      exact absurd scanned' (scan_tab rfl tab _)
    · exact fun other => absurd tab other.1
  obtain ⟨q, recorded, taken_, same⟩ := (scan_recorded (by simp [state]) back).mp scanned
  have split : back.takeWhile isSp ++ back.dropWhile isSp = back := List.takeWhile_append_dropWhile
  have blanks : ∀ c ∈ back.takeWhile isSp, isSp c = true :=
    fun c member => List.all_eq_true.mp List.all_takeWhile c member
  have headers : headersOf p back = q.req := by rw [headersOf, recorded]
  have spaces : IsSpaces (32 :: back.takeWhile isSp) := by
    refine ⟨by simp, fun c member => ?_⟩
    rcases List.mem_cons.mp member with rfl | member
    · rfl
    rcases Bool.or_eq_true_iff.mp (blanks c member) with space | space
    · exact beq_iff_eq.mp space
    · exact absurd (beq_iff_eq.mp space ▸ member) tab
  -- Behind the spaces both parsers take the same way.
  have good' : q.state = .good := by
    rw [same] at good
    exact good
  have first : ∀ c, (back.dropWhile isSp).head? = some c → isSp c = false := by
    intro c found
    have other := List.head?_dropWhile_not isSp back
    rw [found] at other
    exact other
  have started :
      scan (lineMachine recorder) { withReq p [] with state := .headerValue }
      (back.dropWhile isSp) = .ok (q, []) := by
    rw [← split, scan_spaces (by exact state) blanks] at recorded
    exact scan_before (by exact state) first recorded good'
  obtain ⟨later, ends⟩ := scan_rest (.inl rfl) started good'
  let found : Bytes → List Header := fun value =>
    ready p.header.name p.headerCmsList (value ++ restOf p.headerCmsList (back.dropWhile isSp)) ++ later
  have reads :
      ∀ value, scan (lineMachine recorder)
      (withReq { p with state := .headerValue, header.value := value } []) (back.dropWhile isSp) =
      .ok (withReq q (found value), []) := ends
  have unfolded : q.req = found [] := by
    have own := started.symm.trans (reads p.header.value)
    rw [empty] at own
    exact congrArg (fun q => q.req) (Prod.mk.inj (Except.ok.inj own)).1
  have folded :
      scan (lineMachine recorder)
      (withReq { p with state := .headerValue, header.value := [32] } []) back =
      .ok (withReq q (found (32 :: back.takeWhile isSp)), []) := by
    let start : HeaderLines (List Header) :=
      withReq { p with state := .headerValue, header.value := [32] } []
    have collected : Collected start (back.takeWhile isSp) := by
      refine ⟨fun c member => ?_, fun _ member => ?_⟩
      · rw [spaces.blank c (List.mem_cons_of_mem _ member)]
        rfl
      · exact absurd (spaces.blank _ (List.mem_cons_of_mem _ member)) (by decide)
    have more : scan (lineMachine recorder) start (back.takeWhile isSp ++ back.dropWhile isSp) =
      _ := scan_more rfl collected _
    rw [split] at more
    exact more.trans (reads _)
  have ends_ : processed (found []) p.req = some p'.req := by
    rw [← unfolded]
    exact taken_
  have whole :
      (∃ q, scan (lineMachine actions) { p with state := .headerValue, header.value := [32] } back =
        .ok (q, []) ∧ q.state = .good ∧
      q.req = p'.req) ↔ processed (found (32 :: back.takeWhile isSp)) p.req = some p'.req := by
    constructor
    · rintro ⟨q', scanned', -, same'⟩
      obtain ⟨q'', recorded', taken', -⟩ := (scan_recorded (by simp) back).mp scanned'
      cases folded.symm.trans recorded'
      rw [same'] at taken'
      exact taken'
    · intro made
      exact ⟨withReq q p'.req, (scan_recorded (by simp) back).mpr ⟨_, folded, made, rfl⟩, good', rfl⟩
  rw [whole, headers, unfolded]
  exact (and_iff_right tab).symm.trans (and_congr_right fun _ => processed_ready spaces ends_)

end Folded

section Whole

variable {front back : Bytes} {p q : RequestParser}

/-- No value is kept outside of one. -/
private def Cleared {ρ : Type} (p : HeaderLines ρ) : Prop := ¬InValue p.state → p.header.value = []

private theorem lineStart_cleared {ρ : Type} {p q : HeaderLines ρ} {c : UInt8}
    (empty : p.header.value = []) (started : lineStart p c = .ok q) : Cleared q := by
  unfold lineStart at started
  repeat' split at started
  all_goals cases started
  all_goals exact fun _ => empty

private theorem headerColon_cleared {ρ : Type} {p q : HeaderLines ρ} {c : UInt8}
    (empty : p.header.value = []) (read : headerColon p c = .ok q) : Cleared q := by
  unfold headerColon at read
  repeat' split at read
  all_goals cases read
  all_goals exact fun _ => empty

private theorem headerValue_cleared {ρ : Type} {actions : LineActions ρ}
    {p q : HeaderLines ρ} {c : UInt8} (read : headerValue actions p c = .ok q) : Cleared q := by
  unfold headerValue at read
  repeat' split at read
  all_goals cases read
  all_goals first | exact fun _ => rfl | exact fun other => absurd (by simp [InValue]) other

private theorem consumeLine_cleared {ρ : Type} {actions : LineActions ρ} {p q : HeaderLines ρ}
    {c : UInt8} (cleared : Cleared p) (consumed : consumeLine actions p c = .ok q) : Cleared q := by
  obtain ⟨state, header, list, req⟩ := p
  have empty : ¬InValue state → header.value = [] := cleared
  cases state with
  | firstHeaderLineStart =>
    exact lineStart_cleared (p := ⟨_, header, list, actions.atFirstLine req⟩)
      (empty (by simp [InValue])) consumed
  | headerLineStart =>
    simp only [consumeLine] at consumed
    split at consumed
    · cases consumed
      exact fun other => absurd (.inl rfl) other
    · split at consumed
      · cases consumed
      · exact lineStart_cleared rfl consumed
  | headerName =>
    simp only [consumeLine] at consumed
    split at consumed
    · cases consumed
      exact fun _ => empty (by simp [InValue])
    split at consumed
    · split at consumed <;> cases consumed
      exact fun _ => empty (by simp [InValue])
    · exact headerColon_cleared (empty (by simp [InValue])) consumed
  | headerColon =>
    exact headerColon_cleared (p := ⟨_, header, list, req⟩) (empty (by simp [InValue])) consumed
  | spaceBeforeHeaderValue =>
    simp only [consumeLine] at consumed
    split at consumed
    · cases consumed
      exact fun _ => empty (by simp [InValue])
    · exact headerValue_cleared consumed
  | headerValue => exact headerValue_cleared (p := ⟨_, header, list, req⟩) consumed
  | headerLf =>
    simp only [consumeLine] at consumed
    split at consumed <;> cases consumed
    exact fun other => absurd (.inr (.inr rfl)) other
  | finalLf =>
    simp only [consumeLine] at consumed
    split at consumed <;> cases consumed
    exact fun _ => empty (by simp [InValue])
  | good => cases consumed

private theorem parse_cleared (read : RequestParser.parse {} front = .ok (q, [])) : Cleared q.lines := by
  refine scan_preserves (P := fun q : RequestParser => Cleared q.lines)
    (fun p c q running cleared consumed => ?_) (fun _ => rfl) read
  simp only [RequestParser.machine, RequestParser.consume] at consumed
  split at consumed
  · cases consumed
  by_cases state : p.state = .headerLines
  · simp only [RequestParser.advance, state] at consumed
    split at consumed
    · cases consumed
    · rename_i lines step
      cases consumed
      exact consumeLine_cleared cleared step
  · obtain ⟨lines, -⟩ := request_before (p := { p with totalLength := p.totalLength + 1 }) state consumed
    rw [lines]
    exact cleared

/-- The states behind the colon of a header line in which a space may come. -/
def BehindColon (state : LineState) : Prop :=
  state = .headerValue ∨ state = .spaceBeforeHeaderValue ∨ state = .headerLineStart

private theorem accepts_lines {more : Bytes} {r : RequestHeader}
    (read : RequestParser.parse {} front = .ok (q, [])) (state : q.state = .headerLines)
    (fits : (front ++ more).length ≤ ({} : RequestParser).maxTotalLength) :
    (∃ p, AcceptsWhole (front ++ more) p ∧ p.req = r) ↔
      ∃ lines, scan (lineMachine actions) q.lines more = .ok (lines, []) ∧
      lines.state = .good ∧ lines.req = r := by
  have within : scan plain {} front = .ok ({ q with totalLength := 0 }, []) := limited.scan_within read 0
  have whole : scan plain {} (front ++ more) = scan plain { q with totalLength := 0 } more := by
    rw [scan_append, within]
    rfl
  constructor
  · rintro ⟨p, ⟨parsed, good⟩, same⟩
    have parsed' : scan plain {} (front ++ more) = .ok ({ p with totalLength := 0 }, []) :=
      limited.scan_within parsed 0
    obtain ⟨-, scanned⟩ := reader.of_scan (s := { q with totalLength := 0 }) state
      (whole.symm.trans parsed')
    have goodLines : p.lines.state = .good := by
      have both := Bool.and_eq_true_iff.mp good
      exact beq_iff_eq.mp both.2
    exact ⟨p.lines, scanned, goodLines, same⟩
  · rintro ⟨lines, scanned, good, same⟩
    have scanned' := reader.scan_ok (s := { q with totalLength := 0 }) state scanned
    have fits' : limited.count {} + (front ++ more).length ≤ limited.limit {} := by
      show 0 + (front ++ more).length ≤ ({} : RequestParser).maxTotalLength
      omega
    obtain ⟨n, parsed⟩ := limited.scan_ok fits' (whole.trans scanned')
    refine ⟨_, ⟨parsed, ?_⟩, same⟩
    simp [limited, isGood, reader, state, good]

private theorem scan_folded {p : HeaderLines RequestHeader}
    (state : p.state = .headerValue ∨ p.state = .spaceBeforeHeaderValue) :
    scan (lineMachine actions) p (crlf ++ 32 :: back) =
      scan (lineMachine actions) { p with
        state := .headerValue, header.value := p.header.value ++ [32] } back := by
  rw [scan_crlf state]
  exact scan_step (by simp [lineMachine]) (by simp [lineMachine, consumeLine]) back

private theorem scan_space {p : HeaderLines RequestHeader} (state : p.state = .headerValue) :
    scan (lineMachine actions) p (32 :: back) =
      scan (lineMachine actions) { p with
        state := .headerValue, header.value := p.header.value ++ [32] } back := by
  have comma : (32 == ch ',') = false := by decide
  exact scan_step (by simp [lineMachine, state])
    (by simp [lineMachine, consumeLine, headerValue, state, comma]) back

/-- At the start of a line the line end is an empty line. -/
private theorem scan_ended {p lines : HeaderLines RequestHeader} (state : p.state = .headerLineStart) :
    scan (lineMachine actions) p (crlf ++ 32 :: back) ≠ .ok (lines, []) := by
  intro scanned
  cases ready_ : readyHeader actions p with
  | error e =>
    have failed : (lineMachine actions).consume p 13 = .error e := by
      simp [lineMachine, consumeLine, state, ready_]
    rw [crlf, List.cons_append, scan_fail (by simp [lineMachine, state]) failed] at scanned
    cases scanned
  | ok r =>
    rw [scan_end (.next state ready_)] at scanned
    cases scanned

/-- A line end goes in before a space behind the colon of a header line. The request is
still accepted, and says the same, exactly if the space stands behind a character of the
value or the value does not mind spaces in front of it. -/
theorem folded_lines_iff (accepted : AcceptsWhole (front ++ 32 :: back) p)
    (read : RequestParser.parse {} front = .ok (q, [])) (state : q.state = .headerLines)
    (colon : BehindColon q.lines.state)
    (fits : (front ++ (crlf ++ 32 :: back)).length ≤ ({} : RequestParser).maxTotalLength) :
    (∃ p', AcceptsWhole (front ++ (crlf ++ 32 :: back)) p' ∧ p'.req = p.req) ↔
      Foldable q.lines back := by
  have shorter : (front ++ 32 :: back).length ≤ ({} : RequestParser).maxTotalLength := by
    simp only [List.length_append, List.length_cons] at fits ⊢
    omega
  obtain ⟨lines, scanned, good, same⟩ :=
    (accepts_lines (r := p.req) read state shorter).mp ⟨p, accepted, rfl⟩
  rw [accepts_lines read state fits]
  unfold Foldable
  rcases colon with value | before | start
  · rw [scan_folded (.inl value), ← scan_space value]
    exact iff_of_true ⟨lines, scanned, good, same⟩ (.inl value)
  · have empty : q.lines.header.value = [] := parse_cleared read (by simp [InValue, before])
    have skipped :
        scan (lineMachine actions) q.lines (32 :: back) = scan (lineMachine actions) q.lines back :=
      scan_step (by simp [lineMachine, before]) (by simp [lineMachine, consumeLine, before]) back
    rw [scan_folded (.inr before), empty, List.nil_append, ← same,
      folded_iff before empty (skipped ▸ scanned) good]
    simp [before]
  · refine iff_of_false ?_ (by simp [start])
    rintro ⟨lines', scanned', -⟩
    exact scan_ended start scanned'

private theorem reads_of_run (text : Bytes) (state : LineState)
    (run : ((RequestParser.parse {} text).toOption.map fun read =>
      (read.2, read.1.state, read.1.lines.state)) = some ([], .headerLines, state)) :
    ∃ q, RequestParser.parse {} text = .ok (q, []) ∧ q.state = .headerLines ∧ q.lines.state = state := by
  obtain ⟨⟨q, rest⟩, parsed, seen⟩ := ok_of_run run
  simp only [Prod.mk.injEq] at seen
  obtain ⟨rfl, headerLines, lines⟩ := seen
  exact ⟨q, parsed, headerLines, lines⟩

theorem folded_lines_iff_length :
    ∃ p q, AcceptsWhole (str "POST / HTTP/1.1\r\nContent-Length:" ++ 32 :: str "5\r\n\r\n") p ∧
      RequestParser.parse {} (str "POST / HTTP/1.1\r\nContent-Length:") = .ok (q, []) ∧
      q.lines.state = .spaceBeforeHeaderValue ∧
      ((∃ p', AcceptsWhole (str "POST / HTTP/1.1\r\nContent-Length:" ++
        (crlf ++ 32 :: str "5\r\n\r\n")) p' ∧ p'.req = p.req) ↔
        Foldable q.lines (str "5\r\n\r\n")) := by
  obtain ⟨p, accepted, -⟩ :=
    acceptsWhole_of_run (str "POST / HTTP/1.1\r\nContent-Length:" ++ 32 :: str "5\r\n\r\n")
    (fun p => p.req.contentLength) (some 5) (by decide +kernel)
  obtain ⟨q, read, headerLines, state⟩ :=
    reads_of_run (str "POST / HTTP/1.1\r\nContent-Length:") .spaceBeforeHeaderValue (by decide +kernel)
  exact ⟨p, q, accepted, read, state,
    folded_lines_iff accepted read headerLines (.inr (.inl state)) (by decide +kernel)⟩

/-- A folded coding is not the one that chunks the body. -/
theorem folded_coding_unknown :
    (str "POST / HTTP/1.1\r\nTransfer-Encoding:" ++ (crlf ++ 32 :: str "chunked\r\n\r\n")).length ≤
      ({} : RequestParser).maxTotalLength ∧
      ∃ p, AcceptsWhole (str "POST / HTTP/1.1\r\nTransfer-Encoding:" ++ 32 :: str "chunked\r\n\r\n")
        p ∧ p.req.transferEncodingChunked = true ∧
        (∃ p', AcceptsWhole (str "POST / HTTP/1.1\r\nTransfer-Encoding:" ++
          (crlf ++ 32 :: str "chunked\r\n\r\n")) p' ∧
          (p'.req.transferEncodingChunked, p'.req.transferEncodings) = (false, [str " chunked"])) ∧
        ¬∃ p', AcceptsWhole (str "POST / HTTP/1.1\r\nTransfer-Encoding:" ++
          (crlf ++ 32 :: str "chunked\r\n\r\n")) p' ∧ p'.req = p.req := by
  obtain ⟨p, accepted, chunked⟩ :=
    acceptsWhole_of_run (str "POST / HTTP/1.1\r\nTransfer-Encoding:" ++ 32 :: str "chunked\r\n\r\n")
    (fun p => p.req.transferEncodingChunked) true (by decide +kernel)
  obtain ⟨p', accepted', other⟩ :=
    acceptsWhole_of_run (str "POST / HTTP/1.1\r\nTransfer-Encoding:" ++
      (crlf ++ 32 :: str "chunked\r\n\r\n"))
    (fun p => (p.req.transferEncodingChunked, p.req.transferEncodings))
      (false, [str " chunked"]) (by decide +kernel)
  refine ⟨by decide +kernel, p, accepted, chunked, ⟨p', accepted', other⟩, ?_⟩
  rintro ⟨p'', accepted'', same⟩
  cases accepted'.1.symm.trans accepted''.1
  rw [same, chunked] at other
  cases other

end Whole

end Crablib.ContinuationProofs
