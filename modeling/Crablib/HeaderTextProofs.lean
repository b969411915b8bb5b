import Crablib.HeaderProofs
import Crablib.NumeralProofs

/-! The lines that requests and responses have in common, from `to_string_common`
to the parser that reads them. Both parsers keep the common fields alike, which is
all that is used of them here. -/
namespace Crablib.HeaderTextProofs
open Http Scanner HeaderProofs NumeralProofs

/-- A parser that keeps the common fields of its message in one place, and adds
headers with other names to the list. -/
structure Common {ρ : Type} (actions : LineActions ρ) where
  get : ρ → RequestResponseHeader
  set : ρ → RequestResponseHeader → ρ
  isExtra : Bytes → Prop
  get_set : ∀ r c, get (set r c) = c
  set_set : ∀ r c d, set (set r c) d = set r d
  set_get : ∀ r, set r (get r) = r
  common : ∀ h r c, processCommonHeader h.name h.value (get r) = some (.ok c) →
    actions.processReadyHeader h r = .ok (set r c)
  single : ∀ name, isExtra name → isCmsList name = false
  extra : ∀ h r, isExtra h.name →
    actions.processReadyHeader h r = .ok (set r { get r with headers := (get r).headers ++ [h] })

/-- Common fields that survive the way through the text. The names in `isExtra` are
those that the parser adds to its list. -/
structure Sendable (isExtra : Bytes → Prop) (c : RequestResponseHeader) : Prop where
  mime : IsValue c.contentTypeMime
  mimeLower : toLower c.contentTypeMime = c.contentTypeMime
  mimePlain : ch ';' ∉ c.contentTypeMime ∧ 32 ∉ c.contentTypeMime
  suffix : IsValue c.contentTypeSuffix
  noSuffix : c.contentTypeMime = [] → c.contentTypeSuffix = []
  encodings : ∀ e ∈ c.transferEncodings, IsElement e ∧ toLower e = e ∧
    e ≠ str "chunked" ∧ e ≠ str "identity"
  chunked : c.transferEncodingChunked = true → c.transferEncodings = []
  headers : ∀ h ∈ c.headers, IsName h.name ∧ IsValue h.value ∧ isExtra h.name

/-- Persistence as the version alone implies it. -/
def persists (major minor : Int) : Bool := major == 1 && minor ≥ 1

/-- The common fields a parser starts the header lines with. -/
def atStart (major minor : Int) : RequestResponseHeader :=
  { httpVersionMajor := major, httpVersionMinor := minor, keepAlive := persists major minor }

/-- What the connection lines announce. -/
def announced (c : RequestResponseHeader) : RequestResponseHeader :=
  let start := { c with
    keepAlive := persists c.httpVersionMajor c.httpVersionMinor, connectionUpgrade := false
    upgradeWebsocket := false }
  if c.httpVersionMajor = 1 ∧ c.httpVersionMinor = 0 ∧ c.keepAlive then { start with keepAlive := true }
  else if c.httpVersionMajor = 1 ∧ c.httpVersionMinor = 1 ∧ ¬c.keepAlive then
    { start with keepAlive := false }
  else if c.connectionUpgrade ∧ c.upgradeWebsocket then
    { start with connectionUpgrade := true, upgradeWebsocket := true }
  else start

/-- For the versions in use, and an upgrade only where it is announced, nothing of
the common fields is lost. -/
theorem announced_eq {c : RequestResponseHeader} (major : c.httpVersionMajor = 1)
    (minor : c.httpVersionMinor = 0 ∨ c.httpVersionMinor = 1)
    (upgrade : c.connectionUpgrade = c.upgradeWebsocket)
    (only : c.connectionUpgrade = true → c.httpVersionMinor = 1 ∧ c.keepAlive = true) :
    announced c = c := by
  obtain ⟨major_, minor_, headers, keepAlive, contentLength, chunked, encodings, connection,
    websocket, mime, suffix⟩ := c
  simp only at major minor upgrade only
  subst major upgrade
  rcases minor with rfl | rfl <;> cases keepAlive <;> cases connection_ : connection <;>
    simp_all [announced, persists]

section ContentType

private theorem takeWhile_all {α : Type} {p : α → Bool} {front back : List α}
    (all : ∀ a ∈ front, p a = true) (stop : ∀ a, back.head? = some a → p a = false) :
    (front ++ back).takeWhile p = front ∧ (front ++ back).dropWhile p = back := by
  induction front with
  | nil =>
    cases back with
    | nil => simp
    | cons a back => simp [stop a rfl]
  | cons a front ih =>
    have later := ih fun b member => all b (List.mem_cons_of_mem _ member)
    simp [all a List.mem_cons_self, later]

/-- The value of a content type is taken apart as it was put together. -/
theorem parseContentTypeValue_text {mime suffix : Bytes} (lower : toLower mime = mime)
    (plain : ∀ c ∈ mime, isCtl c = false) (apart : ch ';' ∉ mime ∧ 32 ∉ mime)
    (first : suffix.head? ≠ some 32) (plainSuffix : ∀ c ∈ suffix, isCtl c = false) :
    parseContentTypeValue (mime ++ if suffix.isEmpty then [] else str "; " ++ suffix) =
      (mime, suffix) := by
  have goes : ∀ c ∈ mime, (!(c == ch ';' || isSp c)) = true := by
    intro c member
    have semicolon : c ≠ ch ';' := fun same => apart.1 (same ▸ member)
    have space : c ≠ 32 := fun same => apart.2 (same ▸ member)
    have tab : c ≠ 9 := by
      rintro rfl
      exact absurd (plain 9 member) (by decide)
    simp [isSp, semicolon, space, tab]
  cases suffix with
  | nil =>
    obtain ⟨taken, dropped⟩ := takeWhile_all goes (show ∀ c, [].head? = some c → _ by simp)
    simp only [List.append_nil] at taken dropped
    simp only [parseContentTypeValue, List.isEmpty_nil, ↓reduceIte, List.append_nil,
      taken, dropped, lower]
    rfl
  | cons c suffix =>
    obtain ⟨taken, dropped⟩ := takeWhile_all goes
      (show ∀ a, (str "; " ++ c :: suffix).head? = some a → _ by rintro a same; cases same; decide)
    have sp : isSp c = false := by
      have space : c ≠ 32 := by simpa using first
      have tab : c ≠ 9 := by
        rintro rfl
        exact absurd (plainSuffix 9 List.mem_cons_self) (by decide)
      simp [isSp, space, tab]
    have text : str "; " ++ c :: suffix = ch ';' :: ch ' ' :: c :: suffix := rfl
    have semicolon : isSp (ch ';') = false := by decide
    simp only [parseContentTypeValue, List.isEmpty_cons, Bool.false_eq_true, ↓reduceIte,
      taken, dropped, lower]
    simp [text, semicolon, List.dropWhile_cons, sp]

end ContentType

section CommonLines

theorem isLine_plain {name value : Bytes} (isName : IsName name) (single : isCmsList name = false)
    (isValue : IsValue value) :
    IsLine name value :=
  ⟨isName, isValue, fun list => by simp [single] at list⟩

variable {ρ : Type} {actions : LineActions ρ} (common : Common actions)

/-- One line that sets common fields. -/
private theorem reads_set {name value : Bytes} {c d : RequestResponseHeader} (ok : IsLine name value)
    (processed : processCommonHeader name value c = some (.ok d)) (r : ρ) :
    Reads actions (line name value) (common.set r c) (common.set r d) := by
  refine reads_line ok ?_
  have done := common.common { name := name, value := value } (common.set r c) d
    (by rw [common.get_set]; exact processed)
  rwa [common.set_set] at done

variable {c : RequestResponseHeader} (ok : Sendable common.isExtra c) (r : ρ)

/-- The common fields behind each of the lines. -/
private def afterType (c : RequestResponseHeader) : RequestResponseHeader :=
  { atStart c.httpVersionMajor c.httpVersionMinor with
    contentTypeMime := c.contentTypeMime, contentTypeSuffix := c.contentTypeSuffix }

private def afterLength (c : RequestResponseHeader) : RequestResponseHeader :=
  { afterType c with contentLength := c.contentLength }

private def afterConnection (c : RequestResponseHeader) : RequestResponseHeader :=
  { afterLength c with
    keepAlive := (announced c).keepAlive
    connectionUpgrade := (announced c).connectionUpgrade
    upgradeWebsocket := (announced c).upgradeWebsocket }

private def afterEncoding (c : RequestResponseHeader) : RequestResponseHeader :=
  { afterConnection c with
    transferEncodingChunked := c.transferEncodingChunked, transferEncodings := c.transferEncodings }

include ok in
private theorem reads_contentType :
    Reads actions c.contentTypeLine (common.set r (atStart c.httpVersionMajor c.httpVersionMinor))
      (common.set r (afterType c)) := by
  unfold RequestResponseHeader.contentTypeLine
  by_cases empty : c.contentTypeMime = []
  · have same : afterType c = atStart c.httpVersionMajor c.httpVersionMinor := by
      simp [afterType, atStart, empty, ok.noSuffix empty]
    simp only [empty, same, List.isEmpty_nil, ↓reduceIte]
    exact reads_nil _
  · have some_ : c.contentTypeMime.isEmpty = false := by simpa using empty
    have text : str "content-type: " ++ c.contentTypeMime ++
        (if c.contentTypeSuffix.isEmpty then [] else str "; " ++ c.contentTypeSuffix) ++ crlf =
        line (str "content-type") (c.contentTypeMime ++ if c.contentTypeSuffix.isEmpty then []
        else str "; " ++ c.contentTypeSuffix) := by
      have name : str "content-type: " = str "content-type" ++ str ": " := by decide
      simp [line, name]
    simp only [some_, Bool.false_eq_true, ↓reduceIte, text]
    refine reads_set common (isLine_plain (by decide) (by decide) ?_) ?_ r
    · refine ⟨?_, ?_, ?_⟩
      · intro d member
        rcases List.mem_append.mp member with mime | rest
        · exact ok.mime.plain d mime
        · by_cases none : c.contentTypeSuffix.isEmpty = true
          · simp [none] at rest
          · simp only [none, Bool.false_eq_true, ↓reduceIte] at rest
            rcases List.mem_append.mp rest with semicolon | suffix
            · have all : ∀ d ∈ str "; ", isCtl d = false := List.all_iff_forall_prop.mp (by decide)
              exact all d semicolon
            · exact ok.suffix.plain d suffix
      · obtain ⟨first, mime, split⟩ := List.exists_cons_of_ne_nil empty
        have start := ok.mime.first
        rw [split] at start ⊢
        exact start
      · by_cases none : c.contentTypeSuffix = []
        · simpa [none] using ok.mime.last
        · have some_ : c.contentTypeSuffix.isEmpty = false := by simpa using none
          simp only [some_, Bool.false_eq_true, ↓reduceIte]
          obtain ⟨suffix, last, split⟩ := List.eq_nil_or_concat c.contentTypeSuffix |>.resolve_left none
          have stop := ok.suffix.last
          rw [split] at stop ⊢
          simpa [← List.append_assoc] using stop
    · have parsed := parseContentTypeValue_text ok.mimeLower ok.mime.plain ok.mimePlain
        ok.suffix.first ok.suffix.plain
      have other : str "content-type" ≠ str "content-length" ∧
        str "content-type" ≠ str "transfer-encoding" := by decide
      simp only [processCommonHeader, other.1, other.2, parsed, ↓reduceIte]
      rfl

/-- A printed number is a value. -/
theorem isValue_decimal (n : Nat) : IsValue (decimal n) := by
  refine ⟨fun d member => (decimal_plain n d member).1, fun first => ?_, fun last => ?_⟩
  · exact absurd (decimal_plain n 32 (List.mem_of_head? first)).2 (by decide)
  · exact absurd (decimal_plain n 32 (List.mem_of_getLast? last)).2 (by decide)

private theorem reads_contentLength :
    Reads actions c.contentLengthLine (common.set r (afterType c)) (common.set r (afterLength c)) := by
  unfold RequestResponseHeader.contentLengthLine
  cases length : c.contentLength with
  | none =>
    have same : afterLength c = afterType c := by simp [afterLength, afterType, atStart, length]
    rw [same]
    exact reads_nil _
  | some n =>
    refine reads_set common (isLine_plain (by decide) (by decide) (isValue_decimal _)) ?_ r
    have none : (afterType c).contentLength = none := rfl
    simp only [processCommonHeader, none, Option.isSome_none, Bool.false_eq_true, ↓reduceIte,
      integerParse_decimal n.toNat_lt]
    simp [afterLength, length]

/-- What the parsers make of the connection lines. -/
private theorem process_keepAlive (d : RequestResponseHeader) :
    processCommonHeader (str "connection") (str "keep-alive") d =
      some (.ok { d with keepAlive := true }) := rfl

private theorem process_close (d : RequestResponseHeader) :
    processCommonHeader (str "connection") (str "close") d =
      some (.ok { d with keepAlive := false }) := rfl

private theorem process_upgrade (d : RequestResponseHeader) :
    processCommonHeader (str "connection") (str "upgrade") d =
      some (.ok { d with connectionUpgrade := true }) := rfl

private theorem process_websocket (d : RequestResponseHeader) :
    processCommonHeader (str "upgrade") (str "websocket") d =
      some (.ok { d with upgradeWebsocket := true }) := rfl

private theorem reads_connection :
    Reads actions c.connectionLines (common.set r (afterLength c))
      (common.set r (afterConnection c)) := by
  unfold RequestResponseHeader.connectionLines
  by_cases keep : c.httpVersionMajor = 1 ∧ c.httpVersionMinor = 0 ∧ c.keepAlive
  · have after : afterConnection c = { afterLength c with keepAlive := true } := by
      simp [afterConnection, announced, keep, afterLength, afterType, atStart]
    rw [if_pos keep, after]
    exact reads_set common (by decide) (process_keepAlive _) r
  · rw [if_neg keep]
    by_cases close : c.httpVersionMajor = 1 ∧ c.httpVersionMinor = 1 ∧ ¬c.keepAlive
    · have after : afterConnection c = { afterLength c with keepAlive := false } := by
        simp [afterConnection, announced, close, afterLength, afterType, atStart]
      rw [if_pos close, after]
      exact reads_set common (by decide) (process_close _) r
    · rw [if_neg close]
      by_cases upgrade : c.connectionUpgrade ∧ c.upgradeWebsocket
      · have after : afterConnection c =
            { { afterLength c with connectionUpgrade := true } with upgradeWebsocket := true } := by
          simp only [afterConnection, announced, if_neg keep, if_neg close, if_pos upgrade]
          rfl
        rw [if_pos upgrade, after]
        exact (reads_set common (by decide) (process_upgrade _) r).trans
          (reads_set common (by decide) (process_websocket _) r)
      · have after : afterConnection c = afterLength c := by
          simp only [afterConnection, announced, if_neg keep, if_neg close, if_neg upgrade]
          rfl
        rw [if_neg upgrade, after]
        exact reads_nil _

/-- Encodings join the list. -/
private theorem process_encodings {encodings : List Bytes}
    (ok : ∀ e ∈ encodings, IsElement e ∧ toLower e = e ∧ e ≠ str "chunked" ∧ e ≠ str "identity")
    (d : RequestResponseHeader) :
    encodings.foldlM (fun s e =>
      actions.processReadyHeader { name := str "transfer-encoding", value := e } s) (common.set r d) =
      .ok (common.set r { d with transferEncodings := d.transferEncodings ++ encodings }) := by
  induction encodings generalizing d with
  | nil => simp [pure, Except.pure]
  | cons e encodings ih =>
    obtain ⟨-, lower, chunked, identity⟩ := ok e List.mem_cons_self
    have name : str "transfer-encoding" ≠ str "content-length" := by decide
    have processed :
        actions.processReadyHeader { name := str "transfer-encoding", value := e } (common.set r d) =
        .ok (common.set r { d with transferEncodings := d.transferEncodings ++ [e] }) := by
      rw [common.common _ _ { d with transferEncodings := d.transferEncodings ++ [e] }, common.set_set]
      rw [common.get_set]
      simp only [processCommonHeader, name, lower, chunked, identity, ↓reduceIte]
    rw [List.foldlM_cons, processed]
    refine (ih (fun e member => ok e (List.mem_cons_of_mem _ member)) _).trans ?_
    simp

include ok in
private theorem reads_encoding :
    Reads actions c.transferEncodingLine (common.set r (afterConnection c))
      (common.set r (afterEncoding c)) := by
  have text : ∀ all : List Bytes,
    str "transfer-encoding:" ++ str " " ++ (str ", ").intercalate all ++ crlf =
      line (str "transfer-encoding") ((str ", ").intercalate all) := by
    intro all
    have name : str "transfer-encoding:" ++ str " " = str "transfer-encoding" ++ str ": " := by decide
    simp only [line, name]
  unfold RequestResponseHeader.transferEncodingLine
  cases chunked : c.transferEncodingChunked with
  | true =>
    have none := ok.chunked chunked
    have after : afterEncoding c = { afterConnection c with transferEncodingChunked := true } := by
      simp [afterEncoding, chunked, none, afterConnection, afterLength, afterType, atStart]
    simp only [none, List.nil_append, ↓reduceIte, List.isEmpty_cons, Bool.false_eq_true, text, after]
    refine reads_list (by decide) (by decide) (fun v member => ?_) ?_
    · rw [List.mem_singleton.mp member]
      exact ⟨by decide, by decide, by decide⟩
    · have processed :
          actions.processReadyHeader { name := str "transfer-encoding", value := str "chunked" }
          (common.set r (afterConnection c)) =
          .ok (common.set r { afterConnection c with transferEncodingChunked := true }) := by
        rw [common.common _ _ { afterConnection c with transferEncodingChunked := true }, common.set_set]
        rw [common.get_set]
        rfl
      rw [List.foldlM_cons, processed]
      rfl
  | false =>
    cases encodings : c.transferEncodings with
    | nil =>
      have after : afterEncoding c = afterConnection c := by
        simp [afterEncoding, chunked, encodings, afterConnection, afterLength, afterType, atStart]
      rw [after]
      exact reads_nil _
    | cons first more =>
      have elements := ok.encodings
      rw [encodings] at elements
      simp only [Bool.false_eq_true, ↓reduceIte, List.append_nil, List.isEmpty_cons, text]
      refine reads_list (by decide) (by decide) (fun v member => (elements v member).1) ?_
      rw [process_encodings common r elements]
      simp [afterEncoding, chunked, encodings, afterConnection, afterLength, afterType, atStart]

include ok in
private theorem reads_headers :
    Reads actions (c.headers.flatMap fun h => line h.name h.value) (common.set r (afterEncoding c))
      (common.set r (announced c)) := by
  have fold : ∀ (headers : List Header) (d : RequestResponseHeader),
    (∀ h ∈ headers, common.isExtra h.name) →
      headers.foldlM (fun s h => actions.processReadyHeader h s) (common.set r d) =
        .ok (common.set r { d with headers := d.headers ++ headers }) := by
    intro headers
    induction headers with
    | nil => simp [pure, Except.pure]
    | cons h headers ih =>
      intro d extra
      have processed := common.extra h (common.set r d) (extra h List.mem_cons_self)
      rw [common.get_set, common.set_set] at processed
      rw [List.foldlM_cons, processed]
      refine (ih _ fun g member => extra g (List.mem_cons_of_mem _ member)).trans ?_
      simp
  refine reads_lines (fun h member => ?_) ?_
  · obtain ⟨isName, isValue, extra⟩ := ok.headers h member
    exact isLine_plain isName (common.single h.name extra) isValue
  rw [fold c.headers (afterEncoding c) fun h member => (ok.headers h member).2.2]
  congr 2
  simp only [afterEncoding, afterConnection, afterLength, afterType, atStart, announced]
  split
  · rfl
  · split
    · rfl
    · split <;> rfl

include ok in
/-- The common lines bring back the common fields, as far as they are announced. -/
theorem reads_common :
    Reads actions c.toStringCommon (common.set r (atStart c.httpVersionMajor c.httpVersionMinor))
      (common.set r (announced c)) :=
  ((((reads_contentType common ok r).trans (reads_contentLength common r)).trans
    (reads_connection common r)).trans
    (reads_encoding common ok r)).trans (reads_headers common ok r)

end CommonLines

end Crablib.HeaderTextProofs
