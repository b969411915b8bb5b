import Crablib.RequestTextProofs

/-! How much a request parser holds. Every byte that is kept was read, so that the
limit on the length of a head is one on the memory of its fields. -/
namespace Crablib.HeldProofs
open Http Scanner RequestParser RequestTextProofs

section Sizes

def headerSize (h : Header) : Nat := h.name.length + h.value.length

def commonSize (req : RequestResponseHeader) : Nat :=
  (req.headers.map headerSize).sum + (req.transferEncodings.map List.length).sum +
    req.contentTypeMime.length + req.contentTypeSuffix.length

def requestSize (req : RequestHeader) : Nat :=
  commonSize req.toRequestResponseHeader + req.method.length + req.path.length + req.queryString.length +
    req.basicAuthorization.length + req.host.length + req.origin.length + req.secWebsocketKey.length +
    req.secWebsocketVersion.length

/-- The length of all strings of a header block under construction. -/
def linesSize (p : HeaderLines RequestHeader) : Nat := requestSize p.req + headerSize p.header

/-- The length of all strings of a parser. -/
def held (p : RequestParser) : Nat := linesSize p.lines

end Sizes

section Values

private theorem length_dropWhile_le (keep : UInt8 → Bool) (text : Bytes) :
    (text.dropWhile keep).length ≤ text.length :=
  (List.dropWhile_suffix keep).length_le

private theorem length_trimRight_le (text : Bytes) : (trimRight text).length ≤ text.length := by
  have trimmed := length_dropWhile_le isSp text.reverse
  rw [List.length_reverse] at trimmed
  rwa [trimRight, List.length_reverse]

private theorem length_toLower (text : Bytes) : (toLower text).length = text.length := List.length_map _

/-- The type and the suffix are two disjoint parts of the value. -/
private theorem parseContentTypeValue_length (value : Bytes) :
    (parseContentTypeValue value).1.length + (parseContentTypeValue value).2.length ≤ value.length := by
  simp only [parseContentTypeValue, length_toLower]
  generalize (fun c => !(c == ch ';' || isSp c)) = keep
  have parts : (value.takeWhile keep).length + (value.dropWhile keep).length = value.length := by
    rw [← List.length_append, List.takeWhile_append_dropWhile]
  have spaces := length_dropWhile_le isSp (value.dropWhile keep)
  generalize (value.dropWhile keep).dropWhile isSp = rest at spaces ⊢
  have semicolon : (if rest.head? = some (ch ';') then rest.tail else rest).length ≤ rest.length := by
    split
    · rw [List.length_tail]
      omega
    · exact Nat.le_refl _
  have suffix := length_dropWhile_le isSp (if rest.head? = some (ch ';') then rest.tail else rest)
  omega

private theorem parseAuthorizationBasic_length {value token : Bytes}
    (parsed : parseAuthorizationBasic value = some token) :
    token.length ≤ value.length := by
  unfold parseAuthorizationBasic at parsed
  split at parsed
  · cases parsed
  · cases parsed
    have shorter := length_dropWhile_le isSp (value.drop 6)
    rw [List.length_drop] at shorter
    omega

end Values

section Fields

/-- The field of a header grows by no more than the value that goes to it. -/
private theorem processCommonHeader_size {name value : Bytes} {req next : RequestResponseHeader}
    (processed : processCommonHeader name value req = some (.ok next)) :
    commonSize next ≤ commonSize req + value.length := by
  unfold processCommonHeader at processed
  simp only at processed
  split at processed
  · repeat' split at processed
    all_goals cases processed
    exact Nat.le_add_right _ _
  split at processed
  · repeat' split at processed
    all_goals cases processed
    · exact Nat.le_add_right _ _
    · exact Nat.le_add_right _ _
    · simp only [commonSize, List.map_append, List.sum_append, List.map_cons, List.map_nil,
        List.sum_cons, List.sum_nil, length_toLower]
      omega
  split at processed
  · cases processed
    have parts := parseContentTypeValue_length value
    simp only [commonSize]
    omega
  split at processed
  · repeat' split at processed
    all_goals cases processed
    all_goals exact Nat.le_add_right _ _
  split at processed
  · split at processed
    all_goals cases processed
    exact Nat.le_add_right _ _
  · cases processed

private theorem processReadyHeader_size {header : Header} {req next : RequestHeader}
    (processed : processReadyHeader header req = .ok next) :
    requestSize next ≤ requestSize req + headerSize header := by
  unfold processReadyHeader at processed
  split at processed
  · rename_i common done
    cases processed
    have grown := processCommonHeader_size done
    simp only [requestSize, headerSize]
    omega
  · cases processed
  · split at processed
    · cases processed
      simp only [requestSize, headerSize]
      omega
    split at processed
    · cases processed
      simp only [requestSize, headerSize]
      omega
    split at processed
    · cases processed
      have token : ((parseAuthorizationBasic header.value).getD req.basicAuthorization).length ≤
          req.basicAuthorization.length + header.value.length := by
        cases parsed : parseAuthorizationBasic header.value with
        | none => simp
        | some token =>
          have shorter := parseAuthorizationBasic_length parsed
          simp only [Option.getD_some]
          omega
      simp only [requestSize, headerSize]
      omega
    split at processed
    · cases processed
      simp only [requestSize, headerSize]
      omega
    split at processed
    · cases processed
      simp only [requestSize, headerSize]
      omega
    · cases processed
      simp only [requestSize, commonSize, List.map_append, List.sum_append, List.map_cons,
        List.map_nil, List.sum_cons, List.sum_nil]
      omega

/-- An element of a list goes to its field without the name. -/
private theorem processReadyHeader_element {header : Header} {req next : RequestHeader}
    (list : isCmsList header.name = true) (processed : processReadyHeader header req = .ok next) :
    requestSize next ≤ requestSize req + header.value.length := by
  unfold processReadyHeader at processed
  split at processed
  · rename_i common done
    cases processed
    have grown := processCommonHeader_size done
    simp only [requestSize]
    omega
  · cases processed
  · rename_i other
    exfalso
    have names : header.name = str "connection" ∨ header.name = str "transfer-encoding" := by
      simpa [isCmsList] using list
    unfold processCommonHeader at other
    rcases names with name | name
    all_goals
      rw [name] at other
      simp [str] at other
      repeat' split at other
    all_goals cases other

end Fields

section Lines

variable {p q : HeaderLines RequestHeader} {c : UInt8} {read : Nat}

/-- The states in which the name of the header under construction is complete. -/
def Named : LineState → Prop
  | .spaceBeforeHeaderValue | .headerValue | .headerLf | .headerLineStart => True
  | _ => False

/-- The strings are made of the bytes read, and only the values of lists are taken
apart. -/
structure Fits (p : HeaderLines RequestHeader) (read : Nat) : Prop where
  size : linesSize p ≤ read
  list : Named p.state → p.headerCmsList = true → isCmsList p.header.name = true

private theorem readyHeader_size {req : RequestHeader} (ready : readyHeader actions p = .ok req) :
    requestSize req ≤ linesSize p := by
  simp only [readyHeader] at ready
  split at ready
  · cases ready
    exact Nat.le_add_right _ _
  · have grown := processReadyHeader_size ready
    have trimmed := length_trimRight_le p.header.value
    simp only [headerSize, linesSize] at grown ⊢
    omega

/-- What is left of the header under construction behind an element is its name. -/
private theorem readyHeader_element {req : RequestHeader} (list : isCmsList p.header.name = true)
    (ready : readyHeader actions p = .ok req) :
    requestSize req + p.header.name.length ≤ linesSize p := by
  simp only [readyHeader] at ready
  split at ready
  · cases ready
    simp only [linesSize, headerSize]
    omega
  · have grown := @processReadyHeader_element { p.header with value := trimRight p.header.value }
      _ _ list ready
    have trimmed := length_trimRight_le p.header.value
    simp only [headerSize, linesSize] at grown ⊢
    omega

private theorem lineStart_fits (size : linesSize p ≤ read) (consumed : lineStart p c = .ok q) :
    Fits q (read + 1) := by
  unfold lineStart at consumed
  repeat' split at consumed
  all_goals cases consumed
  · exact ⟨Nat.le_succ_of_le size, False.elim⟩
  · exact ⟨Nat.le_succ_of_le size, False.elim⟩
  · refine ⟨?_, False.elim⟩
    simp only [linesSize, headerSize, List.length_append, List.length_singleton] at size ⊢
    omega

private theorem headerColon_fits (size : linesSize p ≤ read) (consumed : headerColon p c = .ok q) :
    Fits q (read + 1) := by
  unfold headerColon at consumed
  repeat' split at consumed
  all_goals cases consumed
  · exact ⟨Nat.le_succ_of_le size, False.elim⟩
  · exact ⟨Nat.le_succ_of_le size, fun _ => id⟩

private theorem headerValue_fits (fits : Fits p read) (named : Named p.state)
    (consumed : headerValue actions p c = .ok q) :
    Fits q (read + 1) := by
  have size := fits.size
  unfold headerValue at consumed
  split at consumed
  · cases consumed
    exact ⟨Nat.le_succ_of_le size, fun _ => fits.list named⟩
  split at consumed
  · cases consumed
    exact ⟨Nat.le_succ_of_le size, fun _ => fits.list named⟩
  split at consumed
  · cases consumed
  split at consumed
  · rename_i comma
    split at consumed
    · cases consumed
    · rename_i req ready
      cases consumed
      have list := fits.list named (Bool.and_eq_true_iff.mp comma).1
      have left := readyHeader_element list ready
      refine ⟨?_, fun _ => fits.list named⟩
      simp only [linesSize, headerSize, List.length_nil] at left size ⊢
      omega
  · cases consumed
    refine ⟨?_, fun _ => fits.list named⟩
    simp only [linesSize, headerSize, List.length_append, List.length_singleton] at size ⊢
    omega

/-- No byte of a header block makes the strings grow by more than one. -/
private theorem consumeLine_fits (fits : Fits p read) (consumed : consumeLine actions p c = .ok q) :
    Fits q (read + 1) := by
  have size := fits.size
  obtain ⟨state, header, list, req⟩ := p
  cases state with
  | firstHeaderLineStart =>
    exact lineStart_fits (p := ⟨_, header, list, actions.atFirstLine req⟩) size consumed
  | headerLineStart =>
    simp only [consumeLine] at consumed
    split at consumed
    · cases consumed
      refine ⟨?_, fun _ => fits.list trivial⟩
      simp only [linesSize, headerSize, List.length_append, List.length_singleton] at size ⊢
      omega
    · split at consumed
      · cases consumed
      · rename_i next ready
        refine lineStart_fits ?_ consumed
        exact (readyHeader_size ready).trans size
  | headerName =>
    simp only [consumeLine] at consumed
    split at consumed
    · cases consumed
      exact ⟨Nat.le_succ_of_le size, False.elim⟩
    split at consumed
    · split at consumed
      · cases consumed
      · cases consumed
        refine ⟨?_, False.elim⟩
        simp only [linesSize, headerSize, List.length_append, List.length_singleton] at size ⊢
        omega
    · exact headerColon_fits size consumed
  | headerColon => exact headerColon_fits size consumed
  | spaceBeforeHeaderValue =>
    simp only [consumeLine] at consumed
    split at consumed
    · cases consumed
      exact ⟨Nat.le_succ_of_le size, fits.list⟩
    · exact headerValue_fits fits trivial consumed
  | headerValue => exact headerValue_fits fits trivial consumed
  | headerLf =>
    simp only [consumeLine] at consumed
    split at consumed <;> cases consumed
    exact ⟨Nat.le_succ_of_le size, fun _ => fits.list trivial⟩
  | finalLf =>
    simp only [consumeLine] at consumed
    split at consumed <;> cases consumed
    exact ⟨Nat.le_succ_of_le size, False.elim⟩
  | good => cases consumed

end Lines

section Bytes

variable {p q : RequestParser} {c : UInt8} {read : Nat}

/-- The same for the first line. -/
private theorem advance_fits (fits : Fits p.lines read) (advanced : p.advance c = .ok q) :
    Fits q.lines (read + 1) := by
  have size := fits.size
  obtain ⟨state, lines, percent, total⟩ := p
  cases state
  case headerLines =>
    simp only [advance] at advanced
    split at advanced
    · cases advanced
    · rename_i lines' consumed
      cases advanced
      exact consumeLine_fits fits consumed
  all_goals
    simp only [advance, expectLetter] at advanced
    repeat' split at advanced
  all_goals cases advanced
  all_goals
    refine ⟨?_, fits.list⟩
    simp only [linesSize, requestSize, commonSize, setReq, pushPath, goTo, RequestParser.req,
      List.length_append, List.length_singleton] at size ⊢
    omega

/-- The parser has counted the bytes it read, and holds no more of them. -/
structure Bounded (limit : Nat) (p : RequestParser) (read : Nat) : Prop where
  counted : p.totalLength = read
  limited : p.maxTotalLength = limit
  within : read ≤ limit
  fits : Fits p.lines read

private theorem consume_bounded {limit : Nat} (bounded : Bounded limit p read)
    (consumed : p.consume c = .ok q) :
    Bounded limit q (read + 1) := by
  unfold consume at consumed
  split at consumed
  · cases consumed
  · rename_i within
    rw [bounded.counted, bounded.limited] at within
    rw [bounded.counted] at consumed
    obtain ⟨total, limited⟩ := advance_counts consumed
    exact ⟨total, limited.trans bounded.limited, Nat.le_of_not_lt within,
      advance_fits (p := { p with totalLength := read + 1 }) bounded.fits consumed⟩

end Bytes

/-- A fresh parser that is fed any bytes in any pieces holds strings of no more bytes
than it took, which are at most its `maxTotalLength`; once it took so many and is not at
its end, the next byte makes it throw. -/
theorem header_memory_bounded (limit : Nat) (pieces : List Bytes) {p : RequestParser} {rest : Bytes}
    (fed : feed machine { maxTotalLength := limit } pieces = .ok (p, rest)) :
    ∃ used, pieces.flatten = used ++ rest ∧ held p ≤ used.length ∧ used.length ≤ limit ∧
      (used.length = limit → p.isGood = false → ∀ c more,
        feed machine { maxTotalLength := limit } (pieces ++ [c :: more]) =
          .error (.runtime "HTTP Header too long - security violation")) := by
  rw [feed_flatten] at fed
  obtain ⟨used, whole⟩ := rest_suffix fed
  have bounded : Bounded limit p (0 + used.length) := by
    rw [whole] at fed
    refine scan_counts (P := Bounded limit) ?_ ⟨rfl, rfl, Nat.zero_le _, Nat.le_refl _, False.elim⟩ fed
    intro s a t k running bounded consumed
    exact consume_bounded bounded consumed
  rw [Nat.zero_add] at bounded
  refine ⟨used, whole, bounded.fits.size, bounded.within, ?_⟩
  intro full running c more
  have none : rest = [] := by
    cases rest with
    | nil => rfl
    | cons a rest =>
      have good := good_of_rest fed (by simp)
      exact absurd (good.symm.trans running) (by simp)
  rw [feed_flatten, List.flatten_append, scan_append, fed, none]
  refine scan_fail running ?_ _
  show p.consume c = _
  rw [consume, bounded.counted, bounded.limited, full]
  exact if_pos (Nat.lt_succ_self limit)

theorem header_memory_bounded_fold :
    ∃ p used, feed machine {} [str "GET /%41 HTTP/1.1\r\nho", str "st: a\r\n b"] = .ok (p, []) ∧
      str "GET /%41 HTTP/1.1\r\nhost: a\r\n b" = used ++ [] ∧ held p ≤ used.length := by
  have run :
      (feed machine {} [str "GET /%41 HTTP/1.1\r\nho", str "st: a\r\n b"]).toOption.map
      Prod.snd = some [] := by
    decide +kernel
  cases fed : feed machine {} [str "GET /%41 HTTP/1.1\r\nho", str "st: a\r\n b"] with
  | error e =>
    rw [fed] at run
    cases run
  | ok result =>
    obtain ⟨p, rest⟩ := result
    rw [fed] at run
    cases run
    obtain ⟨used, whole, small, -⟩ := header_memory_bounded 8192 _ fed
    exact ⟨p, used, rfl, whole, small⟩

end Crablib.HeldProofs
