import Crablib.IntegerCast
import Mathlib.Data.List.TakeWhile

/-! `integer_parse_impl` reads exactly the decimal numbers of its type. The loop
without overflow checks stays below a power of ten that every type has room for; the
loop with checks asks for one more digit exactly what the limits of the type ask for. -/
namespace Crablib.IntegerProofs

section Values

/-- The number that digits add to one read before. -/
def valueFrom (before : Nat) (digits : Bytes) : Nat :=
  digits.foldl (fun value c => value * 10 + digitOf c) before

@[simp] theorem valueFrom_nil (before : Nat) : valueFrom before [] = before := rfl

@[simp] theorem valueFrom_cons (before : Nat) (c : UInt8) (digits : Bytes) :
    valueFrom before (c :: digits) = valueFrom (before * 10 + digitOf c) digits :=
  List.foldl_cons

theorem valueFrom_append (before : Nat) (first second : Bytes) :
    valueFrom before (first ++ second) = valueFrom (valueFrom before first) second :=
  List.foldl_append

theorem le_valueFrom (before : Nat) (digits : Bytes) : before ≤ valueFrom before digits := by
  induction digits generalizing before with
  | nil => exact Nat.le_refl _
  | cons c digits ih =>
    have := ih (before * 10 + digitOf c)
    rw [valueFrom_cons]
    omega

theorem digit_facts {c : UInt8} (isDigit_ : isDigit c = true) :
    isIntegerSpace c = false ∧ c ≠ ch '-' ∧ c ≠ ch '+' ∧ digitOf c < 10 := by
  revert isDigit_
  refine byte_cases (P := fun c => isDigit c = true → isIntegerSpace c = false ∧ c ≠ ch '-' ∧
    c ≠ ch '+' ∧ digitOf c < 10) ?_ c
  decide +kernel

/-- A number with the sign it is read with. -/
def signed (negative : Bool) (value : Nat) : Int := if negative then -(value : Int) else value

end Values

section Limits

/-- The types that the template is used with. -/
def Standard (t : IntType) : Prop := t.bits = 8 ∨ t.bits = 16 ∨ t.bits = 32 ∨ t.bits = 64

/-- The largest number that may follow the sign. -/
def limit (t : IntType) (negative : Bool) : Nat :=
  if t.signed then if negative then 2 ^ (t.bits - 1) else 2 ^ (t.bits - 1) - 1
  else if negative then 0 else 2 ^ t.bits - 1

variable {t : IntType} {negative : Bool}

/-- A number within the limit is a value of the type, and no other one is. -/
theorem signed_within (standard : Standard t) (negative : Bool) (value : Nat) :
    (t.min ≤ signed negative value ∧ signed negative value ≤ t.max) ↔ value ≤ limit t negative := by
  obtain ⟨bits, isSigned⟩ := t
  unfold Standard at standard
  simp only at standard
  unfold signed limit IntType.min IntType.max
  rcases standard with rfl | rfl | rfl | rfl <;> cases isSigned <;> cases negative <;> grind

theorem wrap_within (standard : Standard t) {v : Int} (least : t.min ≤ v)
    (most : v ≤ t.max) : t.wrap v = v := by
  obtain ⟨bits, isSigned⟩ := t
  unfold Standard at standard
  simp only at standard
  unfold IntType.min at least
  unfold IntType.max at most
  unfold IntType.wrap IntType.min
  rcases standard with rfl | rfl | rfl | rfl <;> cases isSigned <;> simp at least most ⊢ <;> omega

/-- One more digit behind a number. -/
private theorem signed_digit (value digit : Nat) :
    (if negative then signed negative value * 10 - digit else signed negative value * 10 + digit) =
      signed negative (value * 10 + digit) := by
  unfold signed
  cases negative
  · simp
  · simp
    omega

/-- A digit that fits is added without loss. -/
theorem accumulate_exact (standard : Standard t) {value digit : Nat}
    (fits : value * 10 + digit ≤ limit t negative) :
    accumulate t negative (signed negative value) digit = signed negative (value * 10 + digit) := by
  obtain ⟨least, most⟩ := (signed_within standard negative (value * 10 + digit)).mpr fits
  rw [accumulate, signed_digit, wrap_within standard least most]

/-- The comparisons of the last digit ask whether the number still fits. -/
theorem wouldOverflow_iff (standard : Standard t) (value : Nat) {digit : Nat} (small : digit < 10)
    (signs : negative = true → t.signed = true) :
    wouldOverflow t negative (signed negative value) digit = true ↔
      limit t negative < value * 10 + digit := by
  obtain ⟨bits, isSigned⟩ := t
  unfold Standard at standard
  simp only at standard signs
  unfold wouldOverflow signed limit IntType.min IntType.max
  cases negative <;> cases isSigned
  · rcases standard with rfl | rfl | rfl | rfl <;> simp <;> omega
  · rcases standard with rfl | rfl | rfl | rfl <;> simp <;> omega
  · simp at signs
  · rcases standard with rfl | rfl | rfl | rfl <;> simp <;> omega

theorem size_pos (standard : Standard t) : 0 < t.size := by
  unfold Standard at standard
  rcases standard with bits | bits | bits | bits <;> simp [IntType.size, bits]

/-- Every type has room for the digits that are read without a check. -/
theorem safe_room (standard : Standard t) (signs : negative = true → t.signed = true) :
    10 ^ (t.size * 2) ≤ limit t negative := by
  obtain ⟨bits, isSigned⟩ := t
  unfold Standard at standard
  simp only at standard signs
  unfold limit IntType.size
  cases negative <;> cases isSigned
  · rcases standard with rfl | rfl | rfl | rfl <;> decide
  · rcases standard with rfl | rfl | rfl | rfl <;> decide
  · simp at signs
  · rcases standard with rfl | rfl | rfl | rfl <;> decide

end Limits

section Loops
variable {t : IntType} {negative : Bool}

/-- Bytes that do not go on with a digit. -/
def NoDigit (rest : Bytes) : Prop := ∀ c more, rest = c :: more → isDigit c = false

theorem noDigit_nil : NoDigit [] := fun _ _ same => by cases same

/-- Every text is digits and what follows them. -/
theorem digits_split (text : Bytes) :
    ∃ digits rest, text = digits ++ rest ∧ (∀ c ∈ digits, isDigit c = true) ∧ NoDigit rest := by
  induction text with
  | nil => exact ⟨[], [], rfl, by simp, noDigit_nil⟩
  | cons c text ih =>
    by_cases digit : isDigit c = true
    · obtain ⟨digits, rest, rfl, isDigits, stops⟩ := ih
      refine ⟨c :: digits, rest, rfl, ?_, stops⟩
      intro d member
      rcases List.mem_cons.mp member with rfl | member
      · exact digit
      · exact isDigits d member
    · refine ⟨[], c :: text, rfl, by simp, ?_⟩
      intro d more same
      cases same
      simpa using digit

/-- The loop with checks reads digits as far as their number fits. -/
theorem checkedDigits_eq (standard : Standard t)
    (signs : negative = true → t.signed = true) (value : Nat) (fits : value ≤ limit t negative)
    {digits rest : Bytes} (isDigits : ∀ c ∈ digits, isDigit c = true) (stops : NoDigit rest) :
    checkedDigits t negative (signed negative value) (digits ++ rest) =
      if valueFrom value digits ≤ limit t negative then
        .ok (signed negative (valueFrom value digits), rest)
      else .error (if negative then "Number underflow " else "Number overflow ") := by
  induction digits generalizing value with
  | nil =>
    rw [List.nil_append, valueFrom_nil, if_pos fits]
    cases rest with
    | nil => rfl
    | cons c rest => simp [checkedDigits, stops c rest rfl]
  | cons c digits ih =>
    have digit := isDigits c List.mem_cons_self
    have overflow := wouldOverflow_iff standard value (digit_facts digit).2.2.2 signs
    have later := le_valueFrom (value * 10 + digitOf c) digits
    simp only [List.cons_append, checkedDigits, digit, ↓reduceIte, valueFrom_cons]
    by_cases more : limit t negative < value * 10 + digitOf c
    · have beyond : ¬valueFrom (value * 10 + digitOf c) digits ≤ limit t negative := by omega
      simp only [overflow.mpr more, beyond, ↓reduceIte]
    · have within : value * 10 + digitOf c ≤ limit t negative := Nat.le_of_not_lt more
      have fits : ¬wouldOverflow t negative (signed negative value) (digitOf c) = true :=
        fun would => more (overflow.mp would)
      simp only [fits, Bool.false_eq_true, ↓reduceIte, accumulate_exact standard within]
      exact ih _ within fun d member => isDigits d (List.mem_cons_of_mem c member)

/-- The loop without checks does nothing that the one with checks would not do. -/
theorem safeDigits_checked (standard : Standard t)
    (signs : negative = true → t.signed = true) (room count : Nat) (few : count + room ≤ t.size * 2)
    (value : Nat) (short : value < 10 ^ count) (text : Bytes) :
    checkedDigits t negative (safeDigits t negative room (signed negative value) text).1
        (safeDigits t negative room (signed negative value) text).2 =
      checkedDigits t negative (signed negative value) text := by
  induction room generalizing count value text with
  | zero => rfl
  | succ room ih =>
    cases text with
    | nil => rfl
    | cons c text =>
      by_cases digit : isDigit c = true
      · have small := (digit_facts digit).2.2.2
        have power : value * 10 + digitOf c < 10 ^ (count + 1) := by
          rw [Nat.pow_succ]
          omega
        have within : value * 10 + digitOf c ≤ limit t negative :=
          Nat.le_trans (Nat.le_of_lt power)
            (Nat.le_trans (Nat.pow_le_pow_right (by omega) (by omega)) (safe_room standard signs))
        have overflow := wouldOverflow_iff standard value small signs
        have fits : ¬wouldOverflow t negative (signed negative value) (digitOf c) = true := by
          rw [overflow]
          omega
        simp only [safeDigits, checkedDigits, digit, fits, Bool.false_eq_true, ↓reduceIte,
          accumulate_exact standard within]
        exact ih (count + 1) (by omega) _ power text
      · simp only [safeDigits, digit, Bool.false_eq_true, ↓reduceIte]

/-- The body of a number: zero, or digits without a leading zero. -/
def IsBody (digits : Bytes) : Prop :=
  digits = [ch '0'] ∨ ∃ c rest, digits = c :: rest ∧ digitOf c ≠ 0 ∧ ∀ d ∈ c :: rest, isDigit d = true

/-- A text that starts with a digit starts with the body of a number, and goes on with a
digit only behind a zero. -/
theorem body_split {c : UInt8} (digit : isDigit c = true) (text : Bytes) :
    ∃ digits rest, c :: text = digits ++ rest ∧ IsBody digits ∧ (digits = [ch '0'] ∨ NoDigit rest) := by
  by_cases zero : digitOf c = 0
  · have same : c = ch '0' := by
      have all : ∀ d : UInt8, isDigit d = true → digitOf d = 0 → d = ch '0' := by
        refine byte_cases (P := fun d => isDigit d = true → digitOf d = 0 → d = ch '0') ?_
        decide +kernel
      exact all c digit zero
    exact ⟨[ch '0'], text, by rw [same]; rfl, .inl rfl, .inl rfl⟩
  · obtain ⟨digits, rest, rfl, isDigits, stops⟩ := digits_split text
    refine ⟨c :: digits, rest, rfl, .inr ⟨c, digits, rfl, zero, ?_⟩, .inr stops⟩
    intro d member
    rcases List.mem_cons.mp member with rfl | member
    · exact digit
    · exact isDigits d member

/-- A single digit fits every type. -/
theorem digit_within (standard : Standard t) (signs : negative = true → t.signed = true)
    {digit : Nat} (small : digit < 10) :
    digit ≤ limit t negative := by
  have room := safe_room standard signs
  have size := size_pos standard
  have ten : 10 ≤ 10 ^ (t.size * 2) := Nat.le_self_pow (by omega) 10
  omega

theorem accumulate_first (standard : Standard t)
    (signs : negative = true → t.signed = true) {digit : Nat} (small : digit < 10) :
    accumulate t negative 0 digit = signed negative digit := by
  have within : 0 * 10 + digit ≤ limit t negative := by
    have fits := digit_within standard signs small
    omega
  have exact_ := accumulate_exact standard within
  rw [Nat.zero_mul, Nat.zero_add] at exact_
  rw [← exact_]
  cases negative <;> rfl

theorem signed_eq_zero {value : Nat} : signed negative value = 0 ↔ value = 0 := by
  unfold signed
  cases negative <;> simp

/-- The body of a number is read if it fits. -/
theorem parseDigits_eq (standard : Standard t)
    (signs : negative = true → t.signed = true) {digits rest : Bytes} (body : IsBody digits)
    (stops : digits = [ch '0'] ∨ NoDigit rest) :
    parseDigits t negative (digits ++ rest) =
      if valueFrom 0 digits ≤ limit t negative then .ok (signed negative (valueFrom 0 digits), rest)
      else .error (if negative then "Number underflow " else "Number overflow ") := by
  rcases body with rfl | ⟨c, more, rfl, some, isDigits⟩
  · have zero : accumulate t negative 0 (digitOf (ch '0')) = 0 := by
      rw [show digitOf (ch '0') = 0 by decide, accumulate_first standard signs (by omega)]
      cases negative <;> rfl
    have digit : isDigit (ch '0') = true := by decide
    have value : valueFrom 0 [ch '0'] = 0 := by decide
    rw [value, if_pos (Nat.zero_le _)]
    simp only [List.singleton_append, parseDigits, digit, Bool.not_true,
      Bool.false_eq_true, ↓reduceIte, zero]
    cases negative <;> rfl
  · have digit := isDigits c List.mem_cons_self
    have small := (digit_facts digit).2.2.2
    have stops_ : NoDigit rest := by
      rcases stops with same | stops
      · obtain ⟨rfl, -⟩ := List.cons.inj same
        exact absurd (by decide) some
      · exact stops
    have nonzero : ¬signed negative (digitOf c) = 0 := fun zero => some (signed_eq_zero.mp zero)
    have size := size_pos standard
    have safe := safeDigits_checked standard signs (t.size * 2 - 1) 1 (by omega)
      (digitOf c) small (more ++ rest)
    have checked := checkedDigits_eq standard signs (digitOf c) (digit_within standard signs small)
      (fun d member => isDigits d (List.mem_cons_of_mem c member)) stops_
    simp only [List.cons_append, parseDigits, digit, Bool.not_true, Bool.false_eq_true, ↓reduceIte,
      accumulate_first standard signs small, nonzero,
      safe, checked, valueFrom_cons, Nat.zero_mul, Nat.zero_add]

end Loops

section Stored
variable {t : IntType} {negative : Bool}

/-- What one more digit makes of a number, before it is stored. -/
def raw (negative : Bool) (value : Int) (digit : Nat) : Int :=
  if negative then value * 10 - digit else value * 10 + digit

/-- What the loop without checks stores, before it is narrowed to the type. -/
def safeStored (t : IntType) (negative : Bool) : Nat → Int → Bytes → List Int
  | 0, _, _ => []
  | _ + 1, _, [] => []
  | room + 1, value, c :: rest =>
    if isDigit c then raw negative value (digitOf c) :: safeStored t negative room
      (accumulate t negative value (digitOf c)) rest
    else []

/-- What the loop with checks stores. -/
def checkedStored (t : IntType) (negative : Bool) : Int → Bytes → List Int
  | _, [] => []
  | value, c :: rest =>
    if isDigit c then
      if wouldOverflow t negative value (digitOf c) then []
      else raw negative value (digitOf c) :: checkedStored t negative
        (accumulate t negative value (digitOf c)) rest
    else []

/-- What is stored for the first digit and for those behind it. -/
def digitsStored (t : IntType) (negative : Bool) : Bytes → List Int
  | [] => []
  | c :: rest =>
    if !isDigit c then []
    else
      let value := accumulate t negative 0 (digitOf c)
      if value = 0 then [raw negative 0 (digitOf c)]
      else
        let safe := safeDigits t negative (t.size * 2 - 1) value rest
        raw negative 0 (digitOf c) :: safeStored t negative (t.size * 2 - 1) value rest ++
          checkedStored t negative safe.1 safe.2

/-- Everything that is stored on the way through a text, also if it is refused in the end. -/
def stored (t : IntType) (text : Bytes) : List Int :=
  match text.dropWhile isIntegerSpace with
  | [] => []
  | c :: rest =>
    if c = ch '-' then if !t.signed then [] else digitsStored t true rest
    else if c = ch '+' then digitsStored t false rest
    else digitsStored t false (c :: rest)

/-- A value of the type. -/
def Representable (t : IntType) (v : Int) : Prop := t.min ≤ v ∧ v ≤ t.max

private theorem raw_signed (value digit : Nat) :
    raw negative (signed negative value) digit = signed negative (value * 10 + digit) :=
  signed_digit value digit

/-- Without checks no number leaves the type, and the loop ends at one that has few digits. -/
theorem safeStored_within (standard : Standard t)
    (signs : negative = true → t.signed = true) (room count : Nat) (few : count + room ≤ t.size * 2)
    (value : Nat) (short : value < 10 ^ count) (text : Bytes) :
    (∀ v ∈ safeStored t negative room (signed negative value) text, Representable t v) ∧
      ∃ last, last ≤ limit t negative ∧
      (safeDigits t negative room (signed negative value) text).1 = signed negative last := by
  have power := safe_room standard signs
  have bound : value ≤ limit t negative :=
    Nat.le_trans (Nat.le_of_lt short) (Nat.le_trans (Nat.pow_le_pow_right (by omega) (by omega)) power)
  induction room generalizing count value text with
  | zero => exact ⟨by simp [safeStored], value, bound, rfl⟩
  | succ room ih =>
    cases text with
    | nil => exact ⟨by simp [safeStored], value, bound, rfl⟩
    | cons c text =>
      by_cases digit : isDigit c = true
      · have small := (digit_facts digit).2.2.2
        have next : value * 10 + digitOf c < 10 ^ (count + 1) := by
          rw [Nat.pow_succ]
          omega
        have within : value * 10 + digitOf c ≤ limit t negative :=
          Nat.le_trans (Nat.le_of_lt next)
            (Nat.le_trans (Nat.pow_le_pow_right (by omega) (by omega)) power)
        obtain ⟨later, ends⟩ := ih (count + 1) (by omega) (value * 10 + digitOf c) next text within
        simp only [safeStored, safeDigits, digit, ↓reduceIte, raw_signed,
          accumulate_exact standard within]
        refine ⟨?_, ends⟩
        intro v member
        rcases List.mem_cons.mp member with rfl | member
        · exact (signed_within standard _ _).mpr within
        · exact later v member
      · simp only [safeStored, safeDigits, digit, Bool.false_eq_true, ↓reduceIte]
        exact ⟨by simp, value, bound, rfl⟩

/-- Nor does one with them. -/
theorem checkedStored_within (standard : Standard t)
    (signs : negative = true → t.signed = true) (value : Nat)
    (fits : value ≤ limit t negative) (text : Bytes) :
    ∀ v ∈ checkedStored t negative (signed negative value) text, Representable t v := by
  induction text generalizing value with
  | nil => simp [checkedStored]
  | cons c text ih =>
    by_cases digit : isDigit c = true
    · have overflow := wouldOverflow_iff standard value (digit_facts digit).2.2.2 signs
      by_cases more : limit t negative < value * 10 + digitOf c
      · simp [checkedStored, digit, overflow.mpr more]
      · have within : value * 10 + digitOf c ≤ limit t negative := Nat.le_of_not_lt more
        have fits : ¬wouldOverflow t negative (signed negative value) (digitOf c) = true :=
          fun would => more (overflow.mp would)
        simp only [checkedStored, digit, fits, Bool.false_eq_true, ↓reduceIte, raw_signed,
          accumulate_exact standard within]
        intro v member
        rcases List.mem_cons.mp member with rfl | member
        · exact (signed_within standard _ _).mpr within
        · exact ih _ within v member
    · simp [checkedStored, digit]

theorem digitsStored_within (standard : Standard t)
    (signs : negative = true → t.signed = true) (text : Bytes) :
    ∀ v ∈ digitsStored t negative text, Representable t v := by
  cases text with
  | nil => simp [digitsStored]
  | cons c text =>
    by_cases digit : isDigit c = true
    · have small := (digit_facts digit).2.2.2
      have fits := digit_within standard signs small
      have first : raw negative 0 (digitOf c) = signed negative (digitOf c) := by
        cases negative <;> simp [raw, signed]
      have here : Representable t (signed negative (digitOf c)) := (signed_within standard _ _).mpr fits
      simp only [digitsStored, digit, Bool.not_true, Bool.false_eq_true, ↓reduceIte,
        accumulate_first standard signs small, first]
      split
      · simpa using here
      · have size := size_pos standard
        obtain ⟨safe, last, within, ends⟩ :=
          safeStored_within standard signs (t.size * 2 - 1) 1 (by omega) (digitOf c) small text
        rw [ends]
        intro v member
        rw [List.cons_append] at member
        rcases List.mem_cons.mp member with rfl | member
        · exact here
        · rcases List.mem_append.mp member with member | member
          · exact safe v member
          · exact checkedStored_within standard signs last within _ v member
    · simp [digitsStored, digit]

/-- Whatever the text, nothing that is stored leaves the type. -/
theorem stored_within (standard : Standard t) (text : Bytes) :
    ∀ v ∈ stored t text, Representable t v := by
  unfold stored
  split
  · simp
  · split
    · split
      · simp
      · rename_i isSigned
        exact digitsStored_within standard (fun _ => by simpa using isSigned) _
    · split
      · exact digitsStored_within standard (fun wrong => by cases wrong) _
      · exact digitsStored_within standard (fun wrong => by cases wrong) _

private theorem accumulate_raw (t : IntType) (negative : Bool) (value : Int) (digit : Nat) :
    accumulate t negative value digit = t.wrap (raw negative value digit) := rfl

/-- A loop ends with the last number that it stored, narrowed to the type. -/
private def lastOf (t : IntType) (stored : List Int) (value : Int) : Int :=
  (stored.getLast?.map t.wrap).getD value

private theorem lastOf_cons (v : Int) (later : List Int) (value : Int) :
    lastOf t (v :: later) value = lastOf t later (t.wrap v) := by
  rw [lastOf, lastOf, List.getLast?_cons]
  cases later.getLast? <;> rfl

private theorem lastOf_append (first later : List Int) (value : Int) :
    lastOf t (first ++ later) value = lastOf t later (lastOf t first value) := by
  induction first generalizing value with
  | nil => rfl
  | cons v first ih => rw [List.cons_append, lastOf_cons, lastOf_cons, ih]

private theorem last_cons (v : Int) (later : List Int) :
    (v :: later).getLast?.map t.wrap = some (lastOf t later (t.wrap v)) := by
  rw [lastOf, List.getLast?_cons]
  cases later.getLast? <;> rfl

private theorem safeStored_last (room : Nat) (value : Int) (text : Bytes) :
    (safeDigits t negative room value text).1 =
      lastOf t (safeStored t negative room value text) value := by
  induction room generalizing value text with
  | zero => rfl
  | succ room ih =>
    cases text with
    | nil => rfl
    | cons c text =>
      by_cases digit : isDigit c = true
      · simp only [safeDigits, safeStored, digit, ↓reduceIte, lastOf_cons]
        exact ih _ text
      · simp only [safeDigits, safeStored, digit, Bool.false_eq_true, ↓reduceIte]
        rfl

private theorem checkedStored_last {value n : Int} {text rest : Bytes}
    (read : checkedDigits t negative value text = .ok (n, rest)) :
    n = lastOf t (checkedStored t negative value text) value := by
  induction text generalizing value with
  | nil =>
    cases read
    rfl
  | cons c text ih =>
    simp only [checkedDigits, checkedStored] at read ⊢
    split at read
    · split at read
      · cases read
      · rename_i digit fits
        simp only [digit, fits, Bool.false_eq_true, ↓reduceIte, lastOf_cons]
        exact ih read
    · rename_i other
      cases read
      simp only [other, Bool.false_eq_true, ↓reduceIte]
      rfl

private theorem digitsStored_last {n : Int} {text rest : Bytes}
    (read : parseDigits t negative text = .ok (n, rest)) :
    (digitsStored t negative text).getLast?.map t.wrap = some n := by
  cases text with
  | nil => cases read
  | cons c text =>
    simp only [parseDigits, digitsStored] at read ⊢
    split at read
    · cases read
    rename_i digit
    simp only [digit, Bool.false_eq_true, ↓reduceIte]
    split at read
    · rename_i zero
      cases read
      rw [if_pos zero]
      rfl
    · rename_i more
      rw [if_neg more, List.cons_append, last_cons, lastOf_append, ← accumulate_raw, ← safeStored_last,
        ← checkedStored_last read]

end Stored

section Grammar
variable {t : IntType}

/-- What may stand before a number: nothing, or a sign, a minus sign only in a signed type. -/
def IsSign (t : IntType) (sign : Bytes) : Prop :=
  sign = [] ∨ sign = [ch '+'] ∨ sign = [ch '-'] ∧ t.signed = true

def IsSpace (text : Bytes) : Prop := ∀ c ∈ text, isIntegerSpace c = true

/-- A number in decimal digits, with space around it. -/
def Denotes (t : IntType) (text : Bytes) (n : Int) : Prop :=
  ∃ front sign digits back, text = front ++ sign ++ digits ++ back ∧ IsSpace front ∧
    IsSign t sign ∧ IsBody digits ∧ IsSpace back ∧ n = signed (sign = [ch '-']) (valueFrom 0 digits)

private theorem space_noDigit {back : Bytes} (space : IsSpace back) : NoDigit back := by
  rintro c more rfl
  have isSpace := space c List.mem_cons_self
  cases digit : isDigit c with
  | false => rfl
  | true =>
    rw [(digit_facts digit).1] at isSpace
    cases isSpace

private theorem body_head {digits : Bytes} (body : IsBody digits) :
    ∃ c rest, digits = c :: rest ∧ isDigit c = true := by
  rcases body with rfl | ⟨c, rest, rfl, -, isDigits⟩
  · exact ⟨ch '0', [], rfl, by decide⟩
  · exact ⟨c, rest, rfl, isDigits c List.mem_cons_self⟩

private theorem dropWhile_space {front rest : Bytes} (space : IsSpace front)
    (stops : ∀ c more, rest = c :: more → isIntegerSpace c = false) :
    (front ++ rest).dropWhile isIntegerSpace = rest := by
  rw [List.dropWhile_append_of_pos space]
  cases rest with
  | nil => rfl
  | cons c rest => simp [stops c rest rfl]

private theorem dropWhile_empty {back : Bytes} :
    (back.dropWhile isIntegerSpace).isEmpty = true ↔ IsSpace back := by
  rw [List.isEmpty_iff, List.dropWhile_eq_nil_iff]
  rfl

/-- What is read behind the sign. -/
private theorem parseDigits_ok {negative : Bool} (standard : Standard t)
    (signs : negative = true → t.signed = true) {text rest : Bytes} {v : Int}
    (parsed : parseDigits t negative text = .ok (v, rest)) :
    ∃ digits, text = digits ++ rest ∧ IsBody digits ∧ v = signed negative (valueFrom 0 digits) ∧
      valueFrom 0 digits ≤ limit t negative := by
  cases text with
  | nil => cases parsed
  | cons c text =>
    by_cases digit : isDigit c = true
    · obtain ⟨digits, behind, split, body, stops⟩ := body_split digit text
      rw [split, parseDigits_eq standard signs body stops] at parsed
      by_cases fits : valueFrom 0 digits ≤ limit t negative
      · rw [if_pos fits] at parsed
        cases parsed
        exact ⟨digits, split, body, rfl, fits⟩
      · rw [if_neg fits] at parsed
        cases parsed
    · simp [parseDigits, digit] at parsed

/-- What follows the digits must be space. -/
def finish (parsed : Except String (Int × Bytes)) : Except String Int := do
  let parsed ← parsed
  if (parsed.2.dropWhile isIntegerSpace).isEmpty then .ok parsed.1
  else
    .error "Number must contain only whitespaces after digits, and must not have excess leading zeroes "

/-- The digits behind a sign are read exactly if they are a number that fits, and
nothing but space follows. -/
private theorem finish_ok_iff {negative : Bool} (standard : Standard t)
    (signs : negative = true → t.signed = true) (text : Bytes) (n : Int) :
    finish (parseDigits t negative text) = .ok n ↔
      ∃ digits back, text = digits ++ back ∧ IsBody digits ∧ IsSpace back ∧
      n = signed negative (valueFrom 0 digits) ∧
        valueFrom 0 digits ≤ limit t negative := by
  constructor
  · intro finished
    simp only [finish, bind_eq_ok] at finished
    obtain ⟨⟨v, rest⟩, read, ended⟩ := finished
    split at ended
    · rename_i empty
      cases ended
      obtain ⟨digits, split, isBody, value, fits⟩ := parseDigits_ok standard signs read
      exact ⟨digits, rest, split, isBody, dropWhile_empty.mp empty, value, fits⟩
    · cases ended
  · rintro ⟨digits, back, rfl, isBody, space, rfl, fits⟩
    rw [parseDigits_eq standard signs isBody (.inr (space_noDigit space)), if_pos fits]
    simp only [finish, bind, Except.bind, dropWhile_empty.mpr space, ↓reduceIte]

/-- The text behind the space in front of it, by its sign. -/
private theorem integerParse_eq (text : Bytes) :
    integerParse t text =
      match text.dropWhile isIntegerSpace with
      | [] => .error "Number must start from sign or digit "
      | c :: rest =>
        if c = ch '-' then
          if !t.signed then .error "Unsigned Number cannot be negative "
            else finish (parseDigits t true rest)
        else if c = ch '+' then finish (parseDigits t false rest)
        else finish (parseDigits t false (c :: rest)) := by
  unfold integerParse finish
  cases text.dropWhile isIntegerSpace with
  | nil => rfl
  | cons c rest =>
    simp only
    split
    · split <;> rfl
    · split <;> rfl

/-- A number is read exactly if the text denotes it and the type has it. -/
theorem integerParse_ok_iff (standard : Standard t) (text : Bytes) (n : Int) :
    integerParse t text = .ok n ↔ Denotes t text n ∧ Representable t n := by
  rw [integerParse_eq]
  constructor
  · intro parsed
    have front := List.takeWhile_append_dropWhile (p := isIntegerSpace) (l := text)
    have isSpace : IsSpace (text.takeWhile isIntegerSpace) :=
      fun c member => List.mem_takeWhile_imp member
    have denotes : ∀ sign body negative, text.dropWhile isIntegerSpace = sign ++ body → IsSign t sign →
        negative = decide (sign = [ch '-']) → (negative = true → t.signed = true) →
        finish (parseDigits t negative body) = .ok n → Denotes t text n ∧ Representable t n := by
      intro sign body negative split isSign same signs finished
      obtain ⟨digits, back, rfl, isBody, space, rfl, fits⟩ :=
        (finish_ok_iff standard signs body n).mp finished
      refine ⟨⟨text.takeWhile isIntegerSpace, sign, digits, back, ?_, isSpace, isSign,
        isBody, space, by rw [same]⟩, (signed_within standard _ _).mpr fits⟩
      rw [List.append_assoc, List.append_assoc, ← split, front]
    split at parsed
    · cases parsed
    · rename_i c more start
      split at parsed
      · rename_i minus
        split at parsed
        · cases parsed
        · rename_i isSigned
          have isSigned_ : t.signed = true := by simpa using isSigned
          exact denotes [ch '-'] more true (by rw [start, minus]; rfl)
            (.inr (.inr ⟨rfl, isSigned_⟩)) rfl (fun _ => isSigned_) parsed
      · split at parsed
        · rename_i plus
          exact denotes [ch '+'] more false (by rw [start, plus]; rfl) (.inr (.inl rfl)) rfl
            (fun wrong => by cases wrong) parsed
        · exact denotes [] (c :: more) false (by rw [start]; rfl) (.inl rfl) rfl
            (fun wrong => by cases wrong) parsed
  · rintro ⟨⟨front, sign, digits, back, rfl, isSpace, isSign, isBody, space, rfl⟩, fits⟩
    have fits_ := (signed_within standard _ _).mp fits
    rw [List.append_assoc, List.append_assoc]
    rcases isSign with rfl | rfl | ⟨rfl, isSigned⟩
    · obtain ⟨c, more, split, digit⟩ := body_head isBody
      obtain ⟨notSpace, notMinus, notPlus, -⟩ := digit_facts digit
      have trimmed : (front ++ ([] ++ (digits ++ back))).dropWhile isIntegerSpace =
          c :: (more ++ back) := by
        rw [List.nil_append, split, List.cons_append]
        exact dropWhile_space isSpace fun d later same => (List.cons.inj same).1 ▸ notSpace
      simp only [trimmed, notMinus, notPlus, ↓reduceIte]
      exact (finish_ok_iff standard (fun wrong => by cases wrong) _ _).mpr
        ⟨digits, back, by rw [split]; rfl, isBody, space, rfl, fits_⟩
    · have trimmed : (front ++ ([ch '+'] ++ (digits ++ back))).dropWhile isIntegerSpace =
          ch '+' :: (digits ++ back) :=
        dropWhile_space isSpace fun d later same => (List.cons.inj same).1 ▸ (by decide)
      have notMinus : ¬ch '+' = ch '-' := by decide
      simp only [trimmed, notMinus, ↓reduceIte]
      exact (finish_ok_iff standard (fun wrong => by cases wrong) _ _).mpr ⟨digits, back, rfl,
        isBody, space, rfl, fits_⟩
    · have trimmed : (front ++ ([ch '-'] ++ (digits ++ back))).dropWhile isIntegerSpace =
          ch '-' :: (digits ++ back) :=
        dropWhile_space isSpace fun d later same => (List.cons.inj same).1 ▸ (by decide)
      simp only [trimmed, isSigned, Bool.not_true, Bool.false_eq_true, ↓reduceIte]
      exact (finish_ok_iff standard (fun _ => isSigned) _ _).mpr ⟨digits, back, rfl,
        isBody, space, rfl, fits_⟩

/-- What is read is the last number that was stored. -/
theorem stored_last (standard : Standard t) {text : Bytes} {n : Int}
    (read : integerParse t text = .ok n) :
    (stored t text).getLast? = some n := by
  have wrapped : (stored t text).getLast?.map t.wrap = some n := by
    rw [integerParse_eq] at read
    have finished : ∀ {negative text}, finish (parseDigits t negative text) = .ok n →
        (digitsStored t negative text).getLast?.map t.wrap = some n := by
      intro negative text finished
      simp only [finish, bind_eq_ok] at finished
      obtain ⟨⟨v, rest⟩, digits, ended⟩ := finished
      split at ended
      · cases ended
        exact digitsStored_last digits
      · cases ended
    unfold stored
    split at read
    · cases read
    · split at read
      · rename_i minus
        split at read
        · cases read
        · rename_i isSigned
          rw [if_pos minus, if_neg isSigned]
          exact finished read
      · rename_i notMinus
        rw [if_neg notMinus]
        split at read
        · rename_i plus
          rw [if_pos plus]
          exact finished read
        · rename_i notPlus
          rw [if_neg notPlus]
          exact finished read
  cases last : (stored t text).getLast? with
  | none =>
    rw [last] at wrapped
    cases wrapped
  | some v =>
    have fits := stored_within standard text v (List.mem_of_getLast? last)
    rw [last, Option.map_some, wrap_within standard fits.1 fits.2] at wrapped
    exact wrapped

end Grammar

/-- For every integer type of 8, 16, 32 or 64 bits a text is read exactly if it is a
number in decimal digits that the type has, as that number, and whatever the text,
every number that either loop stores is one of the type; the last of them is what is
read. -/
theorem integer_parse_exact (t : IntType) (standard : Standard t) (text : Bytes) :
    (∀ n, integerParse t text = .ok n ↔ Denotes t text n ∧ Representable t n) ∧
      (∀ v ∈ stored t text, Representable t v) ∧
      ∀ n, integerParse t text = .ok n → (stored t text).getLast? = some n :=
  ⟨integerParse_ok_iff standard text, stored_within standard text, fun _ read =>
    stored_last standard read⟩

/-- The least number of eight bits, with space around it. -/
theorem integer_parse_least : integerParse ⟨8, true⟩ (str " -128\t") = .ok (-128) := by
  refine ((integer_parse_exact ⟨8, true⟩ (.inl rfl) (str " -128\t")).1 (-128)).mpr
    ⟨?_, by decide, by decide⟩
  refine ⟨str " ", str "-", str "128", str "\t", by decide, ?_,
    .inr (.inr ⟨by decide, rfl⟩), ?_, ?_, by decide⟩
  · unfold IsSpace
    decide +kernel
  · exact .inr ⟨ch '1', str "28", by decide, by decide, by decide +kernel⟩
  · unfold IsSpace
    decide +kernel

end Crablib.IntegerProofs
