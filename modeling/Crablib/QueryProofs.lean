import Crablib.Http.QueryParser
import Mathlib.Data.List.TakeWhile

/-! What `parse_query_string` makes of a text, against the meaning of a query: pieces
between ampersands, a key and a value in each, both decoded leniently. The parser
decides what a malformed escape is while it looks at the character behind it, and
swallows that character with it. -/
namespace Crablib.QueryProofs
open Http QueryParser

section Meaning

/-- A plus stands for a space. -/
def plus (c : UInt8) : UInt8 := if c = ch '+' then ch ' ' else c

/-- The bytes that the text of a key or of a value stands for. -/
def field (text : Bytes) : Bytes := urlDecode (text.map plus)

def keyText (piece : Bytes) : Bytes := piece.takeWhile (· ≠ ch '=')

def valueText (piece : Bytes) : Bytes := (piece.dropWhile (· ≠ ch '=')).drop 1

/-- The pieces of a query with their keys and values, the empty ones dropped. -/
def pairs (text : Bytes) : List (Bytes × Bytes) :=
  ((text.splitOn (ch '&')).filter (· ≠ [])).map fun piece =>
    (field (keyText piece), field (valueText piece))

/-- The map that a list of assignments leaves: later ones override earlier ones. -/
def finds (assigned : List (Bytes × Bytes)) (key : Bytes) : Option Bytes := assigned.reverse.lookup key

end Meaning

section Condition

/-- A character that means the same to the parser behind a malformed escape as anywhere
else: no plus, and no percent sign that starts an escape. -/
def Harmless (c : UInt8) (rest : Bytes) : Prop :=
  c ≠ ch '+' ∧ (c = ch '%' → ∀ first second more, rest = first :: second :: more →
    fromHexDigit first = none ∨ fromHexDigit second = none)

/-- The text of a key or a value in which every malformed escape is followed by such a
character, and by no equality sign once it has a digit. -/
def Proper : Bytes → Prop
  | [] => True
  | c :: rest =>
    if c = ch '%' then
      match rest with
      | [] => True
      | first :: rest =>
        match fromHexDigit first with
        | none => Harmless first rest ∧ Proper rest
        | some _ =>
          match rest with
          | [] => True
          | second :: rest =>
            match fromHexDigit second with
            | none => (second ≠ ch '=' ∧ Harmless second rest) ∧ Proper rest
            | some _ => Proper rest
    else Proper rest

/-- The escape that a text breaks off in. -/
def brokenOff : Bytes → Bytes
  | [] => []
  | c :: rest =>
    if c = ch '%' then
      match rest with
      | [] => [c]
      | first :: rest =>
        match fromHexDigit first with
        | none => brokenOff rest
        | some _ =>
          match rest with
          | [] => [c, first]
          | _ :: rest => brokenOff rest
    else brokenOff rest

/-- The last field of a piece. -/
def lastText (piece : Bytes) : Bytes := if ch '=' ∈ piece then valueText piece else keyText piece

/-- A piece that ends where the ampersand behind it stands: not within an escape, or
with a bare percent sign in the value of a nonempty key before an empty piece. -/
def Ends (piece next : Bytes) : Prop :=
  brokenOff (lastText piece) = [] ∨
    brokenOff (lastText piece) = [ch '%'] ∧ ch '=' ∈ piece ∧ keyText piece ≠ [] ∧ next = []

/-- The pieces of a query that the parser reads as it should. -/
def Clean : List Bytes → Prop
  | [] => True
  | [piece] => Proper (keyText piece) ∧ Proper (valueText piece)
  | piece :: next :: more =>
    (Proper (keyText piece) ∧ Proper (valueText piece)) ∧ Ends piece next ∧ Clean (next :: more)

end Condition

section Reading

/-- The bytes the parser makes of the text of a field. -/
def reading : Bytes → Bytes
  | [] => []
  | c :: rest =>
    if c = ch '%' then
      match rest with
      | [] => [c]
      | first :: rest =>
        match fromHexDigit first with
        | none => c :: first :: reading rest
        | some digit1 =>
          match rest with
          | [] => [c, first]
          | second :: rest =>
            match fromHexDigit second with
            | none => c :: first :: (if second = ch '=' then reading rest else second :: reading rest)
            | some digit2 => UInt8.ofNat (digit1 * 16 + digit2) :: reading rest
    else plus c :: reading rest

section Tokens
variable {first second c : UInt8} {digit1 digit2 : Nat}
attribute [local simp] reading brokenOff

theorem reading_bare (none : fromHexDigit first = none) (rest : Bytes) :
    reading (ch '%' :: first :: rest) = [ch '%', first] ++ reading rest := by
  simp [none]

theorem reading_half (hex : fromHexDigit first = some digit1)
    (none : fromHexDigit second = none) (rest : Bytes) :
    reading (ch '%' :: first :: second :: rest) =
      (if second = ch '=' then [ch '%', first] else [ch '%', first, second]) ++ reading rest := by
  rw [reading]
  simp only [↓reduceIte, hex, none]
  split <;> rfl

theorem reading_escape (hex1 : fromHexDigit first = some digit1)
    (hex2 : fromHexDigit second = some digit2) (rest : Bytes) :
    reading (ch '%' :: first :: second :: rest) =
      [UInt8.ofNat (digit1 * 16 + digit2)] ++ reading rest := by
  rw [reading]
  simp only [↓reduceIte, hex1, hex2]
  rfl

theorem reading_other (other : c ≠ ch '%') (rest : Bytes) :
    reading (c :: rest) = [plus c] ++ reading rest := by
  rw [reading.eq_def]
  simp only [other, ↓reduceIte]
  rfl

theorem brokenOff_bare (none : fromHexDigit first = none) (rest : Bytes) :
    brokenOff (ch '%' :: first :: rest) = brokenOff rest := by
  rw [brokenOff.eq_def]
  simp only [↓reduceIte, none]

theorem brokenOff_digit (hex : fromHexDigit first = some digit1) (rest : Bytes) :
    brokenOff (ch '%' :: first :: second :: rest) = brokenOff rest := by
  simp [hex]

theorem brokenOff_other (other : c ≠ ch '%') (rest : Bytes) :
    brokenOff (c :: rest) = brokenOff rest := by
  rw [brokenOff.eq_def]
  simp only [other, ↓reduceIte]

end Tokens

@[simp] theorem plus_percent : plus (ch '%') = ch '%' := by decide

theorem plus_hex {c : UInt8} {digit : Nat} (hex : fromHexDigit c = some digit) : plus c = c := by
  unfold plus
  split
  · rename_i same
    rw [same] at hex
    exact absurd hex (by decide +revert)
  · rfl

@[simp] theorem fromHexDigit_plus (c : UInt8) : fromHexDigit (plus c) = fromHexDigit c := by
  unfold plus
  split
  · rename_i same
    rw [same]
    decide
  · rfl

theorem plus_eq_percent {c : UInt8} : plus c = ch '%' ↔ c = ch '%' := by
  unfold plus
  split
  · rename_i same
    rw [same]
    decide
  · rfl

theorem field_other {c : UInt8} (other : c ≠ ch '%') (rest : Bytes) :
    field (c :: rest) = plus c :: field rest := by
  have kept : plus c ≠ ch '%' := fun same => other (plus_eq_percent.mp same)
  unfold field
  match rest with
  | [] => simp [urlDecode]
  | [second] => simp [urlDecode]
  | first :: second :: more => simp [urlDecode, kept]

theorem field_escape {first second : UInt8} {digit1 digit2 : Nat}
    (hex1 : fromHexDigit first = some digit1) (hex2 : fromHexDigit second = some digit2) (rest : Bytes) :
    field (ch '%' :: first :: second :: rest) = UInt8.ofNat (digit1 * 16 + digit2) :: field rest := by
  simp [field, urlDecode, hex1, hex2]

/-- A percent sign that starts no escape stands for itself. -/
theorem field_percent {rest : Bytes} (malformed : ∀ first second more, rest = first :: second :: more →
    fromHexDigit first = none ∨ fromHexDigit second = none) :
    field (ch '%' :: rest) = ch '%' :: field rest := by
  unfold field
  match rest with
  | [] => simp [urlDecode]
  | [second] => simp [urlDecode]
  | first :: second :: more =>
    rcases malformed first second more rfl with none | none
    · simp [urlDecode, none]
    · cases hex : fromHexDigit first <;> simp [urlDecode, none, hex]

/-- A harmless character is read behind a malformed escape as it is elsewhere. -/
theorem field_harmless {c : UInt8} {rest : Bytes} (harmless : Harmless c rest) :
    field (c :: rest) = c :: field rest := by
  by_cases percent : c = ch '%'
  · rw [percent]
    exact field_percent (harmless.2 percent)
  · rw [field_other percent, plus, if_neg harmless.1]

theorem hex_ne {c : UInt8} {digit : Nat} (hex : fromHexDigit c = some digit) (other : Char)
    (not_hex : fromHexDigit (ch other) = none) : c ≠ ch other := by
  intro same
  rw [same, not_hex] at hex
  cases hex

theorem reading_proper {text : Bytes} (proper : Proper text) : reading text = field text := by
  fun_induction reading text with
  | case1 => rfl
  | case2 => rfl
  | case3 first rest none ih =>
    unfold Proper at proper
    simp only [↓reduceIte, none] at proper
    rw [field_percent (by grind), field_harmless proper.1, ih proper.2]
  | case4 first digit1 hex =>
    rw [field_percent (by grind), field_other (hex_ne hex '%' (by decide)), plus_hex hex]
    rfl
  | case5 first digit1 hex second rest none ih =>
    unfold Proper at proper
    simp only [↓reduceIte, hex, none] at proper
    obtain ⟨⟨equality, harmless⟩, proper⟩ := proper
    rw [field_percent (by grind), field_other (hex_ne hex '%' (by decide)), plus_hex hex,
      field_harmless harmless, if_neg equality, ih proper]
  | case6 first digit1 hex second rest digit2 hex2 ih =>
    unfold Proper at proper
    simp only [↓reduceIte, hex, hex2] at proper
    rw [field_escape hex hex2, ih proper]
  | case7 c rest other ih =>
    unfold Proper at proper
    simp only [other, ↓reduceIte] at proper
    rw [field_other other, ih proper]

end Reading

section Divergence
variable {text u x : Bytes}

private theorem percent_apart {rest more : Bytes} (some : u ≠ []) (none : ch '%' ∉ u) :
    ch '%' :: rest ≠ u ++ more := by
  obtain ⟨head, tail, rfl⟩ := List.exists_cons_of_ne_nil some
  intro same
  have first := (List.cons.inj same).1
  exact none (first ▸ List.mem_cons_self)

/-- What the first character is taken off moves to the end. -/
private theorem rotate {c : UInt8} {rest more : Bytes} (some : u ≠ []) (none : ch '%' ∉ u)
    (same : c :: rest = u ++ (c :: more)) : ∃ v, v ≠ [] ∧ ch '%' ∉ v ∧ rest = v ++ more := by
  obtain ⟨head, tail, rfl⟩ := List.exists_cons_of_ne_nil some
  obtain ⟨rfl, rest_⟩ := List.cons.inj same
  refine ⟨tail ++ [c], by simp, by grind, ?_⟩
  rw [rest_, List.append_assoc]
  rfl

/-- The parser never lags behind by characters that are no percent signs: it falls out
of step only where both have one. -/
private theorem field_apart (some : u ≠ []) (none : ch '%' ∉ u) :
    field text ≠ u ++ (reading text ++ x) := by
  intro same
  fun_induction reading text generalizing u with
  | case1 =>
    have empty : u ++ ([] ++ x) = [] := same.symm
    simp [some] at empty
  | case2 => exact percent_apart some none same
  | case3 first rest bare ih =>
    rw [field_percent (by grind)] at same
    exact percent_apart some none same
  | case4 first digit1 hex =>
    rw [field_percent (by grind)] at same
    exact percent_apart some none same
  | case5 first digit1 hex second rest half ih =>
    rw [field_percent (by grind)] at same
    exact percent_apart some none same
  | case6 first digit1 hex second rest digit2 hex2 ih =>
    rw [field_escape hex hex2] at same
    obtain ⟨v, some, none, same⟩ := rotate some none same
    exact ih some none same
  | case7 c rest percent ih =>
    rw [field_other percent] at same
    obtain ⟨v, some, none, same⟩ := rotate some none same
    exact ih some none same

/-- Nor does it get ahead by an equality sign. -/
private theorem reading_apart (follows : x = [] ∨ ∃ y, x = ch '&' :: y) :
    ch '=' :: field text ≠ reading text ++ x := by
  have facts : ch '=' ≠ ch '&' ∧ ch '=' ≠ ch '%' := by decide
  intro same
  fun_induction reading text with
  | case1 =>
    rcases follows with rfl | ⟨y, rfl⟩
    · cases same
    · exact facts.1 (List.cons.inj same).1
  | case2 | case3 | case4 | case5 => exact facts.2 (List.cons.inj same).1
  | case6 first digit1 hex second rest digit2 hex2 ih =>
    rw [field_escape hex hex2, List.cons_append] at same
    obtain ⟨first, same⟩ := List.cons.inj same
    exact ih (first ▸ same)
  | case7 c rest percent ih =>
    rw [field_other percent, List.cons_append] at same
    obtain ⟨first, same⟩ := List.cons.inj same
    exact ih (first ▸ same)

/-- A character that is read as itself behind a malformed escape is harmless there. -/
private theorem harmless_of_field {c : UInt8} {rest : Bytes}
    (same : field (c :: rest) = c :: (reading rest ++ x)) :
    Harmless c rest ∧ field rest = reading rest ++ x := by
  have harmless : Harmless c rest := by
    constructor
    · rintro rfl
      rw [field_other (by decide)] at same
      exact absurd (List.cons.inj same).1 (by decide)
    · rintro rfl first second more rfl
      cases hex1 : fromHexDigit first with
      | none => exact .inl rfl
      | some digit1 =>
        cases hex2 : fromHexDigit second with
        | none => exact .inr rfl
        | some digit2 =>
          have other1 := hex_ne hex1 '%' (by decide)
          have other2 := hex_ne hex2 '%' (by decide)
          rw [field_escape hex1 hex2, reading_other other1, reading_other other2, plus_hex hex1,
            plus_hex hex2] at same
          have behind : field more = [first, second] ++ (reading more ++ x) := (List.cons.inj same).2
          exact absurd behind (field_apart (by simp) (by grind))
  refine ⟨harmless, ?_⟩
  rw [field_harmless harmless] at same
  exact (List.cons.inj same).2

/-- A field means what the parser reads only if it is proper, and then no more than that. -/
theorem field_eq_reading (follows : x = [] ∨ ∃ y, x = ch '&' :: y)
    (same : field text = reading text ++ x) :
    x = [] ∧ Proper text := by
  fun_induction reading text with
  | case1 => exact ⟨same.symm, trivial⟩
  | case2 =>
    have whole : [ch '%'] = ch '%' :: x := same
    exact ⟨(List.cons.inj whole).2.symm, by simp [Proper]⟩
  | case3 first rest bare ih =>
    rw [field_percent (by grind)] at same
    obtain ⟨harmless, same⟩ := harmless_of_field (List.cons.inj same).2
    obtain ⟨none, proper⟩ := ih same
    refine ⟨none, ?_⟩
    unfold Proper
    simp only [↓reduceIte, bare]
    exact ⟨harmless, proper⟩
  | case4 first digit1 hex =>
    rw [field_percent (by grind), field_other (hex_ne hex '%' (by decide)), plus_hex hex] at same
    have whole : [] = x := (List.cons.inj (List.cons.inj same).2).2
    exact ⟨whole.symm, by simp [Proper, hex]⟩
  | case5 first digit1 hex second rest half ih =>
    rw [field_percent (by grind), field_other (hex_ne hex '%' (by decide)), plus_hex hex] at same
    have same := (List.cons.inj (List.cons.inj same).2).2
    have equality : second ≠ ch '=' := by
      rintro rfl
      rw [if_pos rfl, field_other (by decide)] at same
      exact reading_apart follows same
    rw [if_neg equality] at same
    obtain ⟨harmless, same⟩ := harmless_of_field same
    obtain ⟨none, proper⟩ := ih same
    refine ⟨none, ?_⟩
    unfold Proper
    simp only [↓reduceIte, hex, half]
    exact ⟨⟨equality, harmless⟩, proper⟩
  | case6 first digit1 hex second rest digit2 hex2 ih =>
    rw [field_escape hex hex2] at same
    obtain ⟨none, proper⟩ := ih (List.cons.inj same).2
    refine ⟨none, ?_⟩
    unfold Proper
    simp only [↓reduceIte, hex, hex2]
    exact proper
  | case7 c rest percent ih =>
    rw [field_other percent] at same
    obtain ⟨none, proper⟩ := ih (List.cons.inj same).2
    refine ⟨none, ?_⟩
    unfold Proper
    simp only [percent, ↓reduceIte]
    exact proper

/-- A field is read as it is meant exactly if it is proper. -/
theorem reading_eq_iff : reading text = field text ↔ Proper text := by
  constructor
  · intro same
    exact (field_eq_reading (.inl rfl) (by rw [same, List.append_nil])).2
  · exact reading_proper

end Divergence

section Run
variable {p q r : QueryParser} {text rest : Bytes}

/-- The escape that is under way. -/
def pending (p : QueryParser) : Bytes :=
  match p.state with
  | .key | .value => []
  | .keyPercent1 | .valuePercent1 => [ch '%']
  | .keyPercent2 | .valuePercent2 => [ch '%', p.percent1HexSym]

/-- The parser read the text of a field as part of a key. -/
structure InKey (p : QueryParser) (text : Bytes) (q : QueryParser) : Prop where
  state : q.state = .key ∨ q.state = .keyPercent1 ∨ q.state = .keyPercent2
  read : q.key ++ pending q = p.key ++ reading text
  broken : pending q = brokenOff text
  value : q.value = p.value
  parsed : q.parsed = p.parsed

private theorem InKey.from (run : InKey q rest r) (out : Bytes) (key : q.key = p.key ++ out)
    (value : q.value = p.value) (parsed : q.parsed = p.parsed)
    (read : reading text = out ++ reading rest) (broken : brokenOff text = brokenOff rest) :
    InKey p text r where
  state := run.state
  read := by rw [run.read, key, read, List.append_assoc]
  broken := run.broken.trans broken.symm
  value := run.value.trans value
  parsed := run.parsed.trans parsed

private theorem percent_key (state : p.state = .key) : p.consume (ch '%') = p.goTo .keyPercent1 := by
  have other : ch '%' ≠ ch '&' := by decide
  simp [consume, state, other]

theorem run_key (state : p.state = .key) (inside : ch '&' ∉ text) (equality : ch '=' ∉ text) :
    InKey p text (text.foldl consume p) := by
  -- along the recursion of `reading`, which takes an escape at a time
  fun_induction reading text generalizing p with
  | case1 =>
    exact ⟨.inl state, by simp [pending, state, reading], by simp [pending, state, brokenOff], rfl, rfl⟩
  | case2 =>
    rw [List.foldl_cons, percent_key state]
    exact ⟨.inr (.inl rfl), rfl, rfl, rfl, rfl⟩
  | case3 first rest none ih =>
    have equal : first ≠ ch '=' := by grind
    have step : (p.goTo .keyPercent1).consume first = (p.pushKey [ch '%', first]).goTo .key := by
      simp [consume, goTo, pushKey, equal, none]
    rw [List.foldl_cons, List.foldl_cons, percent_key state, step]
    have run := ih (p := (p.pushKey [ch '%', first]).goTo .key) rfl (by grind) (by grind)
    exact run.from [ch '%', first] rfl rfl rfl (reading_bare none rest) (brokenOff_bare none rest)
  | case4 first digit1 hex =>
    have equal : first ≠ ch '=' := by grind
    have step :
        (p.goTo .keyPercent1).consume first =
        { p with state := .keyPercent2, percent1HexSym := first } := by
      simp [consume, goTo, equal, hex]
    rw [List.foldl_cons, List.foldl_cons, percent_key state, step]
    exact ⟨.inr (.inr rfl), by simp [pending, reading, hex], by simp [pending, brokenOff, hex], rfl, rfl⟩
  | case5 first digit1 hex second rest none ih =>
    have equal : first ≠ ch '=' ∧ second ≠ ch '=' := by grind
    have step : ((p.goTo .keyPercent1).consume first).consume second =
        { p with state := .key, percent1HexSym := first, key := p.key ++ [ch '%', first, second] } := by
      simp [consume, goTo, pushKey, equal, hex, none]
    rw [List.foldl_cons, List.foldl_cons, List.foldl_cons, percent_key state, step]
    have run := ih (p := { p with state := .key, percent1HexSym := first, key := p.key ++
      [ch '%', first, second] }) rfl (by grind) (by grind)
    refine run.from [ch '%', first, second] rfl rfl rfl ?_ (brokenOff_digit hex rest)
    rw [reading_half hex none, if_neg equal.2]
  | case6 first digit1 hex second rest digit2 hex2 ih =>
    have equal : first ≠ ch '=' ∧ second ≠ ch '=' := by grind
    have step : ((p.goTo .keyPercent1).consume first).consume second =
        { p with
          state := .key
          percent1HexSym := first
          key := p.key ++ [UInt8.ofNat (digit1 * 16 + digit2)] } := by
      simp [consume, goTo, pushKey, equal, hex, hex2, escaped]
    rw [List.foldl_cons, List.foldl_cons, List.foldl_cons, percent_key state, step]
    have run := ih (p := { p with state := .key, percent1HexSym := first, key := p.key ++
      [UInt8.ofNat (digit1 * 16 + digit2)] }) rfl (by grind) (by grind)
    exact run.from [UInt8.ofNat (digit1 * 16 + digit2)] rfl rfl rfl (reading_escape hex hex2 rest)
      (brokenOff_digit hex rest)
  | case7 c rest other ih =>
    have ordinary : c ≠ ch '&' ∧ c ≠ ch '=' := by grind
    have step : p.consume c = (p.pushKey [plus c]).goTo .key := by
      simp only [consume, state, ordinary.1, ordinary.2, other, ↓reduceIte, plus]
      split <;> rfl
    rw [List.foldl_cons, step]
    have run := ih (p := (p.pushKey [plus c]).goTo .key) rfl (by grind) (by grind)
    exact run.from [plus c] rfl rfl rfl (reading_other other rest) (brokenOff_other other rest)

/-- The parser read the text of a field as part of a value. -/
structure InValue (p : QueryParser) (text : Bytes) (q : QueryParser) : Prop where
  state : q.state = .value ∨ q.state = .valuePercent1 ∨ q.state = .valuePercent2
  read : q.value ++ pending q = p.value ++ reading text
  broken : pending q = brokenOff text
  key : q.key = p.key
  parsed : q.parsed = p.parsed

private theorem InValue.from (run : InValue q rest r) (out : Bytes) (value : q.value = p.value ++ out)
    (key : q.key = p.key) (parsed : q.parsed = p.parsed) (read : reading text = out ++ reading rest)
    (broken : brokenOff text = brokenOff rest) : InValue p text r where
  state := run.state
  read := by rw [run.read, value, read, List.append_assoc]
  broken := run.broken.trans broken.symm
  key := run.key.trans key
  parsed := run.parsed.trans parsed

private theorem percent_value (state : p.state = .value) :
    p.consume (ch '%') = p.goTo .valuePercent1 := by
  have other : ch '%' ≠ ch '&' := by decide
  simp [consume, state, other]

theorem run_value (state : p.state = .value) (inside : ch '&' ∉ text) :
    InValue p text (text.foldl consume p) := by
  fun_induction reading text generalizing p with
  | case1 =>
    exact ⟨.inl state, by simp [pending, state, reading], by simp [pending, state, brokenOff], rfl, rfl⟩
  | case2 =>
    rw [List.foldl_cons, percent_value state]
    exact ⟨.inr (.inl rfl), rfl, rfl, rfl, rfl⟩
  | case3 first rest none ih =>
    have other : first ≠ ch '&' := by grind
    have step : (p.goTo .valuePercent1).consume first = (p.pushValue [ch '%', first]).goTo .value := by
      simp [consume, goTo, pushValue, other, none]
    rw [List.foldl_cons, List.foldl_cons, percent_value state, step]
    have run := ih (p := (p.pushValue [ch '%', first]).goTo .value) rfl (by grind)
    exact run.from [ch '%', first] rfl rfl rfl (reading_bare none rest) (brokenOff_bare none rest)
  | case4 first digit1 hex =>
    have other : first ≠ ch '&' := by grind
    have step : (p.goTo .valuePercent1).consume first =
        { p with state := .valuePercent2, percent1HexSym := first } := by
      simp [consume, goTo, other, hex]
    rw [List.foldl_cons, List.foldl_cons, percent_value state, step]
    exact ⟨.inr (.inr rfl), by simp [pending, reading, hex], by simp [pending, brokenOff, hex], rfl, rfl⟩
  | case5 first digit1 hex second rest none ih =>
    have other : first ≠ ch '&' := by grind
    -- an equality sign is dropped here
    generalize dropped : (if second = ch '=' then [ch '%', first] else [ch '%', first, second]) = out
    have step : ((p.goTo .valuePercent1).consume first).consume second =
        { p with state := .value, percent1HexSym := first, value := p.value ++ out } := by
      simp only [consume, goTo, pushValue, other, ↓reduceIte, hex, none, ← dropped]
      split <;> rfl
    rw [List.foldl_cons, List.foldl_cons, List.foldl_cons, percent_value state, step]
    have run := ih (p := { p with
      state := .value, percent1HexSym := first, value := p.value ++ out }) rfl (by grind)
    refine run.from out rfl rfl rfl ?_ (brokenOff_digit hex rest)
    rw [reading_half hex none, dropped]
  | case6 first digit1 hex second rest digit2 hex2 ih =>
    have other : first ≠ ch '&' := by grind
    have equal : second ≠ ch '=' := hex_ne hex2 '=' (by decide)
    have step : ((p.goTo .valuePercent1).consume first).consume second =
        { p with
          state := .value
          percent1HexSym := first
          value := p.value ++ [UInt8.ofNat (digit1 * 16 + digit2)] } := by
      simp [consume, goTo, pushValue, other, equal, hex, hex2, escaped]
    rw [List.foldl_cons, List.foldl_cons, List.foldl_cons, percent_value state, step]
    have run := ih (p := { p with state := .value, percent1HexSym := first, value := p.value ++
      [UInt8.ofNat (digit1 * 16 + digit2)] }) rfl (by grind)
    exact run.from [UInt8.ofNat (digit1 * 16 + digit2)] rfl rfl rfl (reading_escape hex hex2 rest)
      (brokenOff_digit hex rest)
  | case7 c rest other ih =>
    have ordinary : c ≠ ch '&' := by grind
    have step : p.consume c = (p.pushValue [plus c]).goTo .value := by
      simp only [consume, state, ordinary, other, ↓reduceIte, plus]
      split <;> rfl
    rw [List.foldl_cons, step]
    have run := ih (p := (p.pushValue [plus c]).goTo .value) rfl (by grind)
    exact run.from [plus c] rfl rfl rfl (reading_other other rest) (brokenOff_other other rest)

theorem keyText_split {key : Bytes} (none : ch '=' ∉ key) (value : Bytes) :
    keyText (key ++ ch '=' :: value) = key := by
  unfold keyText
  rw [List.takeWhile_append_of_pos]
  · simp
  · intro c found
    have other : c ≠ ch '=' := fun same => none (same ▸ found)
    simpa using other

theorem valueText_split {key : Bytes} (none : ch '=' ∉ key) (value : Bytes) :
    valueText (key ++ ch '=' :: value) = value := by
  unfold valueText
  rw [List.dropWhile_append_of_pos]
  · simp
  · intro c found
    have other : c ≠ ch '=' := fun same => none (same ▸ found)
    simpa using other

theorem keyText_bare {piece : Bytes} (bare : ch '=' ∉ piece) : keyText piece = piece := by
  rw [keyText, List.takeWhile_eq_self_iff]
  intro c found
  have other : c ≠ ch '=' := fun same => bare (same ▸ found)
  simpa using other

theorem valueText_bare {piece : Bytes} (bare : ch '=' ∉ piece) : valueText piece = [] := by
  have none : piece.dropWhile (· ≠ ch '=') = [] := by
    rw [List.dropWhile_eq_nil_iff]
    intro c found
    have other : c ≠ ch '=' := fun same => bare (same ▸ found)
    simpa using other
  rw [valueText, none]
  rfl

/-- The equality sign that ends a key. -/
theorem equality_step (run : InKey p text q) :
    (q.consume (ch '=')).state = .value ∧ (q.consume (ch '=')).key = p.key ++ reading text ∧
      (q.consume (ch '=')).value = p.value ∧ (q.consume (ch '=')).parsed = p.parsed := by
  have other : ch '=' ≠ ch '&' ∧ ch '=' ≠ ch '%' := by decide
  have read := run.read
  rw [← run.value, ← run.parsed, ← read]
  rcases run.state with state | state | state <;>
    simp [consume, state, other, goTo, pushKey, pending]

/-- A whole piece, of a key alone or of a key and a value. -/
inductive Behind (p : QueryParser) (piece : Bytes) (q : QueryParser) : Prop where
  | key (bare : ch '=' ∉ piece) (run : InKey p piece q)
  | value (r : QueryParser) (equality : ch '=' ∈ piece) (key : r.key = p.key ++ reading (keyText piece))
      (value : r.value = p.value) (parsed : r.parsed = p.parsed) (run : InValue r (valueText piece) q)

theorem piece_run {piece : Bytes} (state : p.state = .key) (inside : ch '&' ∉ piece) :
    Behind p piece (piece.foldl consume p) := by
  by_cases equality : ch '=' ∈ piece
  · obtain ⟨key, value, split, none⟩ := List.eq_append_cons_of_mem equality
    have keyed := keyText_split none value
    have valued := valueText_split none value
    rw [← split] at keyed valued
    have run : InKey p key (key.foldl consume p) := run_key state (by grind) none
    obtain ⟨state, read, value_, parsed⟩ := equality_step run
    refine .value _ equality (keyed ▸ read) value_ parsed ?_
    rw [valued, split, List.foldl_append, List.foldl_cons]
    exact run_value state (by grind)
  · exact .key equality (run_key state inside equality)

/-- The parser where a piece starts. -/
structure Fresh (p : QueryParser) : Prop where
  state : p.state = .key
  key : p.key = []
  value : p.value = []

/-- What the parser makes of a piece, if it makes anything of it. -/
def readPair (piece : Bytes) : List (Bytes × Bytes) :=
  if piece = [] then [] else [(reading (keyText piece), reading (valueText piece))]

theorem reading_nil_iff : reading text = [] ↔ text = [] := by
  fun_cases reading text <;> simp

/-- Every state but that of a key still empty persists a pair at the end. -/
theorem end_key (state : q.state = .key ∨ q.state = .keyPercent1 ∨ q.state = .keyPercent2)
    (value : q.value = []) :
    Fresh q.consumeEnd ∧ q.consumeEnd.parsed =
      q.parsed ++ if q.key ++ pending q = [] then [] else [(q.key ++ pending q, [])] := by
  rcases state with state | state | state
  · by_cases none : q.key = []
    · have ended : q.consumeEnd = q.goTo .key := by simp [consumeEnd, state, none]
      rw [ended]
      exact ⟨⟨rfl, none, value⟩, by simp [goTo, pending, state, none]⟩
    · have ended : q.consumeEnd = q.persistPair.goTo .key := by simp [consumeEnd, state, none]
      rw [ended]
      exact ⟨⟨rfl, rfl, rfl⟩, by simp [goTo, persistPair, pending, state, none, value]⟩
  · have ended : q.consumeEnd = (q.pushKey [ch '%']).persistPair.goTo .key := by simp [consumeEnd, state]
    rw [ended]
    exact ⟨⟨rfl, rfl, rfl⟩, by simp [goTo, persistPair, pushKey, pending, state, value]⟩
  · have ended : q.consumeEnd = (q.pushKey [ch '%', q.percent1HexSym]).persistPair.goTo .key := by
      simp [consumeEnd, state]
    rw [ended]
    exact ⟨⟨rfl, rfl, rfl⟩, by simp [goTo, persistPair, pushKey, pending, state, value]⟩

theorem end_value (state : q.state = .value ∨ q.state = .valuePercent1 ∨ q.state = .valuePercent2) :
    Fresh q.consumeEnd ∧ q.consumeEnd.parsed = q.parsed ++ [(q.key, q.value ++ pending q)] := by
  have ended : q.consumeEnd = (q.pushValue (pending q)).persistPair.goTo .key := by
    rcases state with state | state | state <;>
      simp [consumeEnd, state, pending, pushValue, persistPair, goTo]
  rw [ended]
  exact ⟨⟨rfl, rfl, rfl⟩, rfl⟩

/-- A piece that the text ends behind is persisted whatever escape is under way. -/
theorem piece_end {piece : Bytes} (fresh : Fresh p) (behind : Behind p piece q) :
    Fresh q.consumeEnd ∧ q.consumeEnd.parsed = p.parsed ++ readPair piece := by
  cases behind with
  | key bare run =>
    have read := run.read
    rw [fresh.key, List.nil_append] at read
    obtain ⟨next, parsed⟩ := end_key run.state (run.value.trans fresh.value)
    refine ⟨next, ?_⟩
    rw [parsed, run.parsed, read, readPair, keyText_bare bare, valueText_bare bare]
    simp only [reading_nil_iff]
    rfl
  | value r equality key value parsed run =>
    have some : piece ≠ [] := List.ne_nil_of_mem equality
    have read := run.read
    rw [value, fresh.value, List.nil_append] at read
    obtain ⟨next, parsed_⟩ := end_value run.state
    refine ⟨next, ?_⟩
    rw [parsed_, run.parsed, parsed, read, run.key, key, fresh.key, readPair,
      if_neg some, List.nil_append]

/-- So is one behind which an ampersand stands, unless an escape is under way. -/
theorem piece_ampersand {piece : Bytes} (fresh : Fresh p) (behind : Behind p piece q)
    (done : pending q = []) :
    Fresh (q.consume (ch '&')) ∧ (q.consume (ch '&')).parsed = p.parsed ++ readPair piece := by
  have same : q.consume (ch '&') = q.consumeEnd := by
    cases state : q.state with
    | key | value => simp [consume, consumeEnd, state]
    | keyPercent1 | keyPercent2 | valuePercent1 | valuePercent2 => simp [pending, state] at done
  rw [same]
  exact piece_end fresh behind

theorem behind_pending {piece : Bytes} (behind : Behind p piece q) :
    pending q = brokenOff (lastText piece) := by
  cases behind with
  | key bare run => rw [run.broken, lastText, if_neg bare, keyText_bare bare]
  | value r equality key value parsed run => rw [run.broken, lastText, if_pos equality]

end Run

section Count
variable {p q : QueryParser}

/-- One for a pair under way. -/
def owed (p : QueryParser) : Nat := if p.state = .key ∧ p.key = [] then 0 else 1

/-- One for a first piece that is not empty. -/
def starts : Bytes → Nat
  | [] => 0
  | c :: _ => if c = ch '&' then 0 else 1

/-- The pieces behind the first one that are not empty. -/
def later : Bytes → Nat
  | [] => 0
  | c :: text => if c = ch '&' then starts text + later text else later text

private theorem starts_other {c : UInt8} (other : c ≠ ch '&') (text : Bytes) :
    starts (c :: text) = 1 := if_neg other

private theorem later_other {c : UInt8} (other : c ≠ ch '&') (text : Bytes) :
    later (c :: text) = later text :=
  if_neg other

private theorem owed_le : owed p ≤ 1 := by
  unfold owed
  split <;> omega

private theorem starts_le (text : Bytes) : starts text ≤ 1 := by
  fun_cases starts text <;> omega

theorem starts_head {text next : Bytes} {more : List Bytes}
    (pieces : text.splitOn (ch '&') = next :: more) :
    starts text = if next = [] then 0 else 1 := by
  cases text with
  | nil =>
    rw [List.splitOn_nil] at pieces
    simp [starts, (List.cons.inj pieces).1.symm]
  | cons c text =>
    rw [List.splitOn_cons_eq_if_modifyHead] at pieces
    by_cases ampersand : c = ch '&'
    · simp only [ampersand, BEq.rfl, ↓reduceIte] at pieces
      simp [starts, ampersand, (List.cons.inj pieces).1.symm]
    · simp only [beq_iff_eq, ampersand, ↓reduceIte] at pieces
      cases parts : text.splitOn (ch '&') with
      | nil => exact absurd parts (List.splitOn_ne_nil _ _)
      | cons first others =>
        rw [parts] at pieces
        simp [starts, ampersand, (List.cons.inj pieces).1.symm]

theorem pairs_length (text : Bytes) : (pairs text).length = starts text + later text := by
  induction text with
  | nil => decide
  | cons c text ih =>
    cases parts : text.splitOn (ch '&') with
    | nil => exact absurd parts (List.splitOn_ne_nil _ _)
    | cons first others =>
      have head := starts_head parts
      simp only [pairs, List.length_map, parts] at ih ⊢
      rw [List.splitOn_cons_eq_if_modifyHead, parts]
      by_cases ampersand : c = ch '&'
      · simp only [ampersand, BEq.rfl, ↓reduceIte]
        rw [List.filter_cons_of_neg (by simp), ih]
        exact (Nat.zero_add _).symm
      · rw [starts_other ampersand, later_other ampersand]
        simp only [beq_iff_eq, ampersand, ↓reduceIte, List.modifyHead_cons]
        rw [List.filter_cons_of_pos (by simp)]
        by_cases none : first = []
        · rw [List.filter_cons_of_neg (by simp [none])] at ih
          simp only [none, ↓reduceIte] at head
          simp only [List.length_cons]
          omega
        · rw [List.filter_cons_of_pos (by simp [none])] at ih
          simp only [none, ↓reduceIte] at head
          simp only [List.length_cons] at ih ⊢
          omega

/-- Only an ampersand persists a pair. -/
theorem consume_parsed {c : UInt8} (other : c ≠ ch '&') : (p.consume c).parsed = p.parsed := by
  cases state : p.state <;> simp only [consume, state, other, ↓reduceIte] <;>
    grind [goTo, pushKey, pushValue]

/-- A pair that an ampersand persists was owed. -/
theorem ampersand_owed :
    (p.consume (ch '&')).parsed.length + owed (p.consume (ch '&')) ≤ p.parsed.length + owed p := by
  have facts : ch '&' ≠ ch '=' ∧ fromHexDigit (ch '&') = none := by decide
  cases state : p.state with
  | key =>
    by_cases none : p.key = [] <;> simp [consume, state, none, owed, goTo, persistPair]
  | value => simp [consume, state, owed, goTo, persistPair]
  | valuePercent1 =>
    have less := owed_le (p := p.consume (ch '&'))
    simpa [consume, state, owed, goTo, pushValue] using less
  | keyPercent1 | keyPercent2 | valuePercent2 =>
    simp [consume, state, facts, owed, goTo, pushKey, pushValue]

theorem end_owed : p.consumeEnd.parsed.length ≤ p.parsed.length + owed p := by
  cases state : p.state with
  | key => by_cases none : p.key = [] <;> simp [consumeEnd, state, none, owed, goTo, persistPair]
  | value | keyPercent1 | keyPercent2 | valuePercent1 | valuePercent2 =>
    simp [consumeEnd, state, owed, goTo, persistPair, pushKey, pushValue]

/-- The parser has no more pairs than there are pieces, and one less for each piece that
it does not tell from the one before. -/
theorem parse_count (p : QueryParser) (text : Bytes) :
    (p.parse text).parsed.length ≤ p.parsed.length + max (owed p) (starts text) + later text := by
  induction text generalizing p with
  | nil => exact Nat.le_trans end_owed (Nat.add_le_add_left (Nat.le_max_left _ _) _)
  | cons c text ih =>
    have next := ih (p.consume c)
    have small := owed_le (p := p.consume c)
    have one := starts_le text
    have step : p.parse (c :: text) = (p.consume c).parse text := rfl
    rw [step]
    by_cases ampersand : c = ch '&'
    · subst ampersand
      have paid := ampersand_owed (p := p)
      have count : later (ch '&' :: text) = starts text + later text := rfl
      omega
    · rw [consume_parsed ampersand] at next
      rw [starts_other ampersand, later_other ampersand]
      omega

/-- No pair is taken out of the map again. -/
theorem parse_extends (p : QueryParser) (text : Bytes) :
    ∃ more, (p.parse text).parsed = p.parsed ++ more := by
  induction text generalizing p with
  | nil =>
    have ended : p.parse [] = p.consumeEnd := rfl
    rw [ended]
    fun_cases consumeEnd p
    case case2 => exact ⟨[], (List.append_nil _).symm⟩
    all_goals exact ⟨[_], rfl⟩
  | cons c text ih =>
    have step : p.parse (c :: text) = (p.consume c).parse text := rfl
    obtain ⟨more, after⟩ := ih (p.consume c)
    obtain ⟨new, before⟩ : ∃ new, (p.consume c).parsed = p.parsed ++ new := by
      fun_cases consume p c
      case case1 | case13 => exact ⟨[_], rfl⟩
      all_goals exact ⟨[], (List.append_nil _).symm⟩
    exact ⟨new ++ more, by rw [step, after, before, List.append_assoc]⟩

end Count

section Query
variable {p q : QueryParser} {piece rest : Bytes}

/-- The pair a piece stands for, if it stands for one. -/
def pairOf (piece : Bytes) : List (Bytes × Bytes) :=
  if piece = [] then [] else [(field (keyText piece), field (valueText piece))]

private theorem pairs_bare (bare : ch '&' ∉ piece) : pairs piece = pairOf piece := by
  rw [pairs, List.splitOn_eq_singleton bare, pairOf]
  by_cases none : piece = [] <;> simp [none]

private theorem pairs_ampersand (bare : ch '&' ∉ piece) (rest : Bytes) :
    pairs (piece ++ ch '&' :: rest) = pairOf piece ++ pairs rest := by
  rw [pairs, List.splitOn_append_cons_self_of_not_mem bare, pairOf]
  by_cases none : piece = [] <;> simp [none, pairs]

private theorem pair_length (piece : Bytes) : (readPair piece).length = (pairOf piece).length := by
  unfold readPair pairOf
  split <;> rfl

/-- A piece is read as it is meant exactly if its fields are. -/
private theorem readPair_iff :
    readPair piece = pairOf piece ↔ Proper (keyText piece) ∧ Proper (valueText piece) := by
  rw [← reading_eq_iff, ← reading_eq_iff, readPair, pairOf]
  split
  · rename_i none
    subst none
    exact ⟨fun _ => ⟨rfl, rfl⟩, fun _ => rfl⟩
  · simp

private theorem starts_zero {text : Bytes} (none : starts text = 0) :
    text = [] ∨ ∃ rest, text = ch '&' :: rest := by
  cases text with
  | nil => exact .inl rfl
  | cons c text =>
    refine .inr ⟨text, ?_⟩
    simp only [starts] at none
    grind

/-- A pair under way goes into the map if nothing more is read of it. -/
private theorem parse_leftover (under : p.state = .key ∧ p.key ≠ [] ∨ p.state = .value) {text : Bytes}
    (none : starts text = 0) : p.parse text = (p.persistPair.goTo .key).parse text := by
  rcases starts_zero none with rfl | ⟨rest, rfl⟩
  · rcases under with ⟨state, some⟩ | state
    · simp [parse, consumeEnd, state, some, goTo, persistPair]
    · simp [parse, consumeEnd, state, goTo, persistPair]
  · rcases under with ⟨state, some⟩ | state
    · simp [parse, consume, state, some, goTo, persistPair]
    · simp [parse, consume, state, goTo, persistPair]

/-- A query without ampersands. -/
private theorem parse_bare_iff (fresh : Fresh p) (bare : ch '&' ∉ piece) :
    (p.parse piece).parsed = p.parsed ++ pairs piece ↔ Clean (piece.splitOn (ch '&')) := by
  have parsed : (p.parse piece).parsed = p.parsed ++ readPair piece :=
    (piece_end fresh (piece_run fresh.state bare)).2
  rw [parsed, pairs_bare bare, List.splitOn_eq_singleton bare, List.append_cancel_left_eq, readPair_iff]
  rfl

/-- A piece that was told from the next one. -/
private theorem parse_apart_iff {r : QueryParser} {next : Bytes} {more : List Bytes}
    (parsed : r.parsed = p.parsed ++ readPair piece) (ends : Ends piece next)
    (pieces : rest.splitOn (ch '&') = next :: more)
    (ih : (r.parse rest).parsed = r.parsed ++ pairs rest ↔ Clean (rest.splitOn (ch '&'))) :
    (r.parse rest).parsed = p.parsed ++ (pairOf piece ++ pairs rest) ↔
      Clean (piece :: rest.splitOn (ch '&')) := by
  obtain ⟨tail, extended⟩ := parse_extends r rest
  rw [pieces] at ih ⊢
  rw [Clean, ← readPair_iff, ← ih, extended, parsed, List.append_assoc, List.append_cancel_left_eq,
    ← List.append_assoc, List.append_cancel_left_eq]
  constructor
  · intro same
    obtain ⟨pair, tail⟩ := List.append_inj same (pair_length piece)
    exact ⟨pair, ends, tail⟩
  · rintro ⟨pair, -, tail⟩
    rw [pair, tail]

/-- A piece that was not told from the next one leaves too few pairs. -/
private theorem parse_merged {r : QueryParser} (parsed : r.parsed = p.parsed) (some : piece ≠ [])
    (few : max (owed r) (starts rest) ≤ starts rest) :
    (r.parse rest).parsed ≠ p.parsed ++ (pairOf piece ++ pairs rest) := by
  intro same
  have count := parse_count r rest
  have one : (pairOf piece).length = 1 := by simp [pairOf, some]
  rw [same, parsed, List.length_append, List.length_append, one, pairs_length] at count
  omega

/-- A pair that goes into the map with something it does not have is a wrong one. -/
private theorem parse_wrong {r : QueryParser} (parsed : r.parsed = p.parsed) (some : piece ≠ [])
    (under : r.state = .key ∧ r.key ≠ [] ∨ r.state = .value) (none : starts rest = 0)
    (wrong : r.key ≠ field (keyText piece) ∨ r.value ≠ field (valueText piece)) :
    (r.parse rest).parsed ≠ p.parsed ++ (pairOf piece ++ pairs rest) := by
  intro same
  obtain ⟨more, extended⟩ := parse_extends (r.persistPair.goTo .key) rest
  have persisted : (r.persistPair.goTo .key).parsed = p.parsed ++ [(r.key, r.value)] := by
    rw [← parsed]
    rfl
  rw [parse_leftover under none, extended, persisted, List.append_assoc,
    List.append_cancel_left_eq, pairOf, if_neg some] at same
  have pair := (List.cons.inj same).1
  rcases wrong with key | value
  · exact key (Prod.mk.inj pair).1
  · exact value (Prod.mk.inj pair).2

private theorem field_ne (text : Bytes) : reading text ++ [ch '&'] ≠ field text := by
  intro same
  have none := (field_eq_reading (.inr ⟨[], rfl⟩) same.symm).1
  simp at none

private theorem behind_parsed (behind : Behind p piece q) : q.parsed = p.parsed := by
  cases behind with
  | key bare run => exact run.parsed
  | value r equality key value parsed run => exact run.parsed.trans parsed

/-- Within an escape an ampersand persists nothing. -/
private theorem within_parsed (under : pending q ≠ []) : (q.consume (ch '&')).parsed = q.parsed := by
  have facts : ch '&' ≠ ch '=' ∧ fromHexDigit (ch '&') = none := by decide
  cases state : q.state with
  | key | value => simp [pending, state] at under
  | keyPercent1 | keyPercent2 | valuePercent1 | valuePercent2 =>
    simp [consume, state, facts, goTo, pushKey, pushValue]

/-- Within an escape of a key it becomes part of the key. -/
private theorem within_key (fresh : Fresh p) (run : InKey p piece q) (under : pending q ≠ []) :
    (q.consume (ch '&')).state = .key ∧ (q.consume (ch '&')).key = reading piece ++ [ch '&'] := by
  have facts : ch '&' ≠ ch '=' ∧ fromHexDigit (ch '&') = none := by decide
  have read := run.read
  rw [fresh.key, List.nil_append] at read
  rcases run.state with state | state | state
  · simp [pending, state] at under
  · simp [consume, state, facts, ← read, pending, goTo, pushKey]
  · simp [consume, state, facts, ← read, pending, goTo, pushKey]

/-- An ampersand within an escape, before a piece that is empty. -/
private theorem parse_within_iff {next : Bytes} {more : List Bytes} (fresh : Fresh p)
    (behind : Behind p piece q) (under : pending q ≠ []) (some : piece ≠ [])
    (pieces : rest.splitOn (ch '&') = next :: more) (none : starts rest = 0) (empty : next = [])
    (ih : ∀ {p : QueryParser}, Fresh p →
      ((p.parse rest).parsed = p.parsed ++ pairs rest ↔ Clean (rest.splitOn (ch '&')))) :
    ((q.consume (ch '&')).parse rest).parsed = p.parsed ++ (pairOf piece ++ pairs rest) ↔
      Clean (piece :: rest.splitOn (ch '&')) := by
  have facts : ch '&' ≠ ch '=' ∧ fromHexDigit (ch '&') = .none := by decide
  have broken := behind_pending behind
  have parsed := (within_parsed under).trans (behind_parsed behind)
  have unclean (not_ : ¬Ends piece next) : ¬Clean (piece :: rest.splitOn (ch '&')) := by
    rw [pieces]
    exact fun clean => not_ clean.2.1
  cases behind with
  | key bare run =>
    obtain ⟨state, key⟩ := within_key fresh run under
    refine iff_of_false (parse_wrong parsed some (.inl ⟨state, by simp [key]⟩) none (.inl ?_))
      (unclean ?_)
    · rw [key, keyText_bare bare]
      exact field_ne piece
    · rintro (done | ⟨-, equality, -⟩)
      · exact under (broken.trans done)
      · exact bare equality
  | value r equality key value parsed_ run =>
    have read := run.read
    rw [value, fresh.value, List.nil_append] at read
    have key := run.key.trans key
    rw [fresh.key, List.nil_append] at key
    rcases run.state with state | state | state
    · simp [pending, state] at under
    · have step : q.consume (ch '&') = (q.pushValue [ch '%']).goTo .key := by simp [consume, state]
      have percent : pending q = [ch '%'] := by simp [pending, state]
      rw [percent] at read broken
      by_cases nameless : keyText piece = []
      · -- nobody owes a pair without a key
        have free : owed (q.consume (ch '&')) = 0 := by
          rw [nameless] at key
          rw [step, owed, if_pos ⟨rfl, key⟩]
        refine iff_of_false (parse_merged parsed some (by omega)) (unclean ?_)
        rintro (done | ⟨-, -, named, -⟩)
        · rw [done] at broken
          cases broken
        · exact named nameless
      · have named : (q.consume (ch '&')).key ≠ [] := by
          rw [step]
          exact fun none => nameless (reading_nil_iff.mp (key.symm.trans none))
        have leftover := parse_leftover (.inl ⟨by rw [step]; rfl, named⟩) none
        rw [leftover]
        refine parse_apart_iff ?_ (.inr ⟨broken.symm, equality, nameless, empty⟩)
          pieces (ih ⟨rfl, rfl, rfl⟩)
        have persisted : ((q.consume (ch '&')).persistPair.goTo .key).parsed =
            q.parsed ++ [(q.key, q.value ++ [ch '%'])] := by
          rw [step]
          rfl
        rw [persisted, run.parsed, parsed_, key, read, readPair, if_neg some]
    · have step : q.consume (ch '&') = (q.pushValue [ch '%', q.percent1HexSym, ch '&']).goTo .value := by
        simp [consume, state, facts]
      have half : pending q = [ch '%', q.percent1HexSym] := by simp [pending, state]
      rw [half] at read broken
      have longer : (q.consume (ch '&')).value = reading (valueText piece) ++ [ch '&'] := by
        rw [step, ← read, List.append_assoc]
        rfl
      refine iff_of_false (parse_wrong parsed some (.inr (by rw [step]; rfl)) none (.inr ?_))
        (unclean ?_)
      · rw [longer]
        exact field_ne (valueText piece)
      · rintro (done | ⟨bare, -⟩)
        · rw [done] at broken
          cases broken
        · rw [bare] at broken
          cases broken

/-- A query whose first piece ends with an ampersand. -/
private theorem parse_ampersand_iff (fresh : Fresh p) (bare : ch '&' ∉ piece)
    (ih : ∀ {p : QueryParser}, Fresh p →
      ((p.parse rest).parsed = p.parsed ++ pairs rest ↔ Clean (rest.splitOn (ch '&')))) :
    (p.parse (piece ++ ch '&' :: rest)).parsed = p.parsed ++ pairs (piece ++ ch '&' :: rest) ↔
      Clean ((piece ++ ch '&' :: rest).splitOn (ch '&')) := by
  have behind := piece_run fresh.state bare
  have broken := behind_pending behind
  generalize run : piece.foldl consume p = q at behind broken
  have ran : p.parse (piece ++ ch '&' :: rest) = (q.consume (ch '&')).parse rest := by
    rw [parse, List.foldl_append, run]
    rfl
  rw [ran, pairs_ampersand bare, List.splitOn_append_cons_self_of_not_mem bare]
  obtain ⟨next, more, pieces⟩ := List.exists_cons_of_ne_nil (List.splitOn_ne_nil (ch '&') rest)
  have head := starts_head pieces
  by_cases done : pending q = []
  · obtain ⟨ended, parsed⟩ := piece_ampersand fresh behind done
    exact parse_apart_iff parsed (.inl (broken.symm.trans done)) pieces (ih ended)
  · have some : piece ≠ [] := by
      rintro rfl
      exact done broken
    by_cases empty : next = []
    · rw [if_pos empty] at head
      exact parse_within_iff fresh behind done some pieces head empty ih
    · rw [if_neg empty] at head
      have small := owed_le (p := q.consume (ch '&'))
      refine iff_of_false (parse_merged ((within_parsed done).trans (behind_parsed behind)) some
        (by omega)) ?_
      rw [pieces]
      rintro ⟨-, ended | ⟨-, -, -, none⟩, -⟩
      · exact done (broken.trans ended)
      · exact empty none

/-- The parser makes exactly the pairs of the query exactly if the query is clean. -/
theorem parse_iff (p : QueryParser) (text : Bytes) (fresh : Fresh p) :
    (p.parse text).parsed = p.parsed ++ pairs text ↔ Clean (text.splitOn (ch '&')) := by
  by_cases ampersand : ch '&' ∈ text
  · obtain ⟨piece, rest, split, bare⟩ := List.eq_append_cons_of_mem ampersand
    rw [split]
    exact parse_ampersand_iff fresh bare fun {q} fresh => parse_iff q rest fresh
  · exact parse_bare_iff fresh ampersand
termination_by text.length
decreasing_by
  rw [split, List.length_append, List.length_cons]
  omega

/-- A clean query is parsed into the map of its pairs, and every other query makes the
parser assign something that is not a pair of it. -/
theorem parse_query_string_iff (text : Bytes) :
    (parseQueryString text = pairs text ↔ Clean (text.splitOn (ch '&'))) ∧
      (Clean (text.splitOn (ch '&')) → ∀ key,
        finds (parseQueryString text) key = finds (pairs text) key) := by
  have exact_ : parseQueryString text = pairs text ↔ Clean (text.splitOn (ch '&')) :=
    parse_iff {} text ⟨rfl, rfl, rfl⟩
  refine ⟨exact_, ?_⟩
  intro clean key
  rw [exact_.mpr clean]

/-- The value of `a` is never persisted, and what follows is taken for more of it. -/
theorem parse_query_string_merges :
    ¬∀ key, finds (parseQueryString (str "a=%&b=1")) key = finds (pairs (str "a=%&b=1")) key := by
  intro all
  have lost := all (str "a")
  revert lost
  decide +kernel

end Query
end Crablib.QueryProofs
