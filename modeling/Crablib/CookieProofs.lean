import Crablib.CodingProofs
import Crablib.QueryProofs

/-! What `CookieParser` makes of any number of cookie strings, against the meaning of a
cookie: pieces between semicolons, a key and a value in each, both without the spaces
around them. -/
namespace Crablib.CookieProofs
open Http CookieParser CodingProofs QueryProofs

section Meaning

/-- The pair that a piece stands for; a piece of spaces stands for none. -/
def cookieOf (piece : Bytes) : List (Bytes × Bytes) :=
  let text := piece.dropWhile isSp
  if text = [] then [] else [(trimRight (keyText text), trim (valueText text))]

/-- The pairs of cookie strings, read as one string with semicolons between them. -/
def cookies (strings : List Bytes) : List (Bytes × Bytes) :=
  (([ch ';'].intercalate strings).splitOn (ch ';')).flatMap cookieOf

end Meaning

section Pieces

variable {p : CookieParser} {text : Bytes} {assigned : List (Bytes × Bytes)}

private theorem skip_spaces (state : p.state = .keyWsBefore ∨ p.state = .valueWsBefore) :
    text.foldl consume p = (text.dropWhile isSp).foldl consume p := by
  induction text with
  | nil => rfl
  | cons c text ih =>
    cases sp : isSp c with
    | true =>
      have skipped : p.consume c = p := by
        rcases state with state | state
        · simp [consume, state, sp]
        · simp [consume, state, sp]
      rw [List.foldl_cons, skipped, ih, List.dropWhile_cons_of_pos sp]
    | false => rw [List.dropWhile_cons_of_neg (by simp [sp])]

private theorem collect_value (state : p.state = .value) (inside : ch ';' ∉ text) :
    text.foldl consume p = { p with value := p.value ++ text } := by
  induction text generalizing p with
  | nil => simp
  | cons c text ih =>
    have other : c ≠ ch ';' := fun same => inside (same ▸ List.mem_cons_self)
    have pushed : p.consume c = { p with value := p.value ++ [c] } := by
      simp [consume, consumeValue, state, other]
    rw [List.foldl_cons, pushed, ih (p := { p with value := p.value ++ [c] }) state fun member =>
      inside (List.mem_cons_of_mem _ member)]
    simp

private theorem collect_key (state : p.state = .key) (inside : ch ';' ∉ text)
    (equality : ch '=' ∉ text) :
    text.foldl consume p = { p with key := p.key ++ text } := by
  induction text generalizing p with
  | nil => simp
  | cons c text ih =>
    have other : c ≠ ch ';' := fun same => inside (same ▸ List.mem_cons_self)
    have apart : c ≠ ch '=' := fun same => equality (same ▸ List.mem_cons_self)
    have pushed : p.consume c = { p with key := p.key ++ [c] } := by
      simp [consume, consumeKey, state, other, apart]
    rw [List.foldl_cons, pushed,
      ih (p := { p with key := p.key ++ [c] }) state (fun member =>
      inside (List.mem_cons_of_mem _ member))
      fun member => equality (List.mem_cons_of_mem _ member)]
    simp

private theorem consume_semicolon (p : CookieParser) : p.consume (ch ';') = p.consumeEnd := by
  have sp : isSp (ch ';') = false := by decide
  obtain ⟨state, key, value, parsed⟩ := p
  cases state <;> simp [consume, consumeKey, consumeValue, consumeEnd, persistPair, sp]

/-- A key without the spaces before it. -/
private theorem run_key (some_ : text ≠ []) (first : ∀ c, text.head? = some c → isSp c = false)
    (inside : ch ';' ∉ text) (equality : ch '=' ∉ text) :
    text.foldl consume { parsed := assigned } = { state := .key, key := text, parsed := assigned } := by
  obtain ⟨c, more, rfl⟩ := List.exists_cons_of_ne_nil some_
  have other : c ≠ ch ';' := fun same => inside (same ▸ List.mem_cons_self)
  have apart : c ≠ ch '=' := fun same => equality (same ▸ List.mem_cons_self)
  have pushed :
      ({ parsed := assigned } : CookieParser).consume c =
      { state := .key, key := [c], parsed := assigned } := by
    simp [consume, consumeKey, first c rfl, other, apart]
  rw [List.foldl_cons, pushed, collect_key (p := { state := .key, key := [c], parsed := assigned }) rfl
    (fun member => inside (List.mem_cons_of_mem _ member)) fun member =>
    equality (List.mem_cons_of_mem _ member)]
  rfl

/-- A value that is persisted loses the spaces around it. -/
private theorem run_value (state : p.state = .valueWsBefore) (empty : p.value = [])
    (inside : ch ';' ∉ text) :
    (text.foldl consume p).consumeEnd =
      { p with state := .keyWsBefore, parsed := p.parsed ++ [(trimRight p.key, trim text)],
               key := [], value := [] } := by
  rw [skip_spaces (.inr state), trim]
  cases rest : text.dropWhile isSp with
  | nil => simp [consumeEnd, state, persistPair, empty]
  | cons c more =>
    have within : ∀ d ∈ c :: more, d ∈ text := by
      intro d member
      rw [← rest] at member
      exact (List.dropWhile_suffix isSp).subset member
    have other : c ≠ ch ';' := fun same => inside (same ▸ within c List.mem_cons_self)
    have sp : isSp c = false := by
      have stops := List.head?_dropWhile_not isSp text
      rw [rest] at stops
      simpa using stops
    have pushed : p.consume c = { p with state := .value, value := [c] } := by
      simp [consume, consumeValue, state, empty, sp, other]
    rw [List.foldl_cons, pushed, collect_value (p := { p with state := .value, value := [c] }) rfl
      fun member => inside (within _ (List.mem_cons_of_mem _ member))]
    simp [consumeEnd, persistPair]

/-- A piece is persisted as the pair that it stands for. -/
private theorem run_piece (inside : ch ';' ∉ text) :
    (text.foldl consume { parsed := assigned }).consumeEnd =
      { parsed := assigned ++ cookieOf text } := by
  have within : ∀ d ∈ text.dropWhile isSp, d ∈ text :=
    fun d member => (List.dropWhile_suffix isSp).subset member
  have first : ∀ c, (text.dropWhile isSp).head? = some c → isSp c = false := by
    intro c head
    have stops := List.head?_dropWhile_not isSp text
    rw [head] at stops
    simpa using stops
  rw [skip_spaces (.inl rfl), cookieOf]
  generalize text.dropWhile isSp = rest at within first
  by_cases none : rest = []
  · subst none
    simp [consumeEnd]
  simp only [none, ↓reduceIte]
  by_cases equality : ch '=' ∈ rest
  · obtain ⟨front, back, rfl, apart⟩ := List.eq_append_cons_of_mem equality
    have clear : ch ';' ∉ front := fun member => inside (within _ (List.mem_append_left _ member))
    have clear_ : ch ';' ∉ back :=
      fun member => inside (within _ (List.mem_append_right _ (List.mem_cons_of_mem _ member)))
    have behind : ((front ++ ch '=' :: back).foldl consume { parsed := assigned }) =
        back.foldl consume { state := .valueWsBefore, key := front, parsed := assigned } := by
      rw [List.foldl_append, List.foldl_cons]
      have facts : isSp (ch '=') = false ∧ ch '=' ≠ ch ';' := by decide
      cases front with
      | nil => simp [consume, consumeKey, facts]
      | cons c front =>
        rw [run_key (by simp) (fun d head => first d (by simpa using head)) clear apart]
        simp [consume, consumeKey, facts]
    rw [behind, run_value rfl rfl clear_, keyText_split apart, valueText_split apart]
  · rw [run_key none first (fun member => inside (within _ member)) equality, keyText_bare equality,
      valueText_bare equality]
    simp [consumeEnd, persistPair, trim]

/-- A string is parsed piece by piece. -/
private theorem parse_pieces (text : Bytes) :
    CookieParser.parse { parsed := assigned } text =
      { parsed := assigned ++ (text.splitOn (ch ';')).flatMap cookieOf } := by
  induction length : text.length using Nat.strongRecOn generalizing assigned text with
  | ind n ih =>
    subst length
    by_cases semicolon : ch ';' ∈ text
    · obtain ⟨front, back, rfl, first⟩ := List.eq_append_cons_of_mem semicolon
      have shorter : back.length < (front ++ ch ';' :: back).length := by
        simp only [List.length_append, List.length_cons]
        omega
      have later := @ih back.length shorter (assigned ++ cookieOf front) back rfl
      rw [List.splitOn_append_cons_self_of_not_mem first, List.flatMap_cons, ← List.append_assoc]
      rw [CookieParser.parse] at later ⊢
      rw [List.foldl_append, List.foldl_cons, consume_semicolon, run_piece first]
      exact later
    · rw [CookieParser.parse, run_piece semicolon, List.splitOn_eq_singleton semicolon]
      simp

end Pieces

section Strings

private theorem pieces_intercalate (strings : List Bytes) :
    cookies strings = strings.flatMap fun text => (text.splitOn (ch ';')).flatMap cookieOf := by
  rw [cookies]
  induction strings with
  | nil => rfl
  | cons text strings ih =>
    cases strings with
    | nil => simp
    | cons next strings =>
      have joined :
          [ch ';'].intercalate (text :: next :: strings) = text ++ ch ';' ::
          [ch ';'].intercalate (next :: strings) := by
        simp [List.intercalate]
      rw [joined, List.splitOn_append_cons_self, List.flatMap_append, ih]
      rfl

private theorem parse_strings (strings : List Bytes) :
    (strings.foldl CookieParser.parse {}).parsed = cookies strings := by
  have run : ∀ (strings : List Bytes) (assigned : List (Bytes × Bytes)),
      strings.foldl CookieParser.parse { parsed := assigned } =
        { parsed := assigned ++ strings.flatMap fun text =>
          (text.splitOn (ch ';')).flatMap cookieOf } := by
    intro strings
    induction strings with
    | nil => simp
    | cons text strings ih =>
      intro assigned
      rw [List.foldl_cons, parse_pieces, ih, List.flatMap_cons, List.append_assoc]
  rw [pieces_intercalate]
  exact congrArg CookieParser.parsed (run strings [])

/-- Cookie strings that are parsed in turn leave the pairs of them all, and the map in
which later ones override earlier ones. A request parses those of all its `cookie`
headers. -/
theorem cookies_parsed (strings : List Bytes) :
    (strings.foldl CookieParser.parse {}).parsed = cookies strings ∧
      (∀ key, finds (strings.foldl CookieParser.parse {}).parsed key = finds (cookies strings) key) ∧
      ∀ request : Request,
        (request.header.headers.filter (·.name = str "cookie")).map (·.value) = strings →
        request.parseCookies = cookies strings := by
  have all := parse_strings strings
  refine ⟨all, fun key => by rw [all], ?_⟩
  rintro request rfl
  exact all

example : parseCookieString (str " a = 1=2 ;; b;=c") = [(str "a", str "1=2"), (str "b", []),
      ([], str "c")] := by decide

end Strings

end Crablib.CookieProofs
