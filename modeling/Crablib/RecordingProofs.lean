import Crablib.LockstepProofs

/-! Header lines are found first and processed then: where a line ends and what its
value is does not depend on the message, so every parser of header lines is one that
only records what it finds. -/
namespace Crablib.RecordingProofs
open Http Scanner LockstepProofs HeaderProofs

section Lines

variable {ρ σ : Type}

/-- The same place in the lines, with another message. -/
def withReq (p : HeaderLines ρ) (r : σ) : HeaderLines σ :=
  { state := p.state, header := p.header, headerCmsList := p.headerCmsList, req := r }

@[simp] theorem withReq_state (p : HeaderLines ρ) (r : σ) : (withReq p r).state = p.state := rfl

/-- A parser of header lines that keeps what it hands over. -/
def recorder : LineActions (List Header) where
  processReadyHeader := fun h headers => .ok (headers ++ [h])
  atFirstLine := id
  invalidState := RequestParser.actions.invalidState

/-- What some headers make of a message. -/
def taken (actions : LineActions ρ) (headers : List Header) (r : ρ) : Option ρ :=
  headers.foldlM (fun r h => (actions.processReadyHeader h r).toOption) r

/-- The header that is handed over, unless it is empty in a list. -/
def ready (name : Bytes) (list : Bool) (value : Bytes) : List Header :=
  if list && (trimRight value).isEmpty then [] else [{ name := name, value := trimRight value }]

private theorem readyHeader_taken (actions : LineActions ρ) (p : HeaderLines ρ) :
    (readyHeader actions p).toOption =
      taken actions (ready p.header.name p.headerCmsList p.header.value) p.req := by
  unfold readyHeader ready
  simp only
  split
  · rfl
  · simp only [taken, List.foldlM_cons, List.foldlM_nil, bind_pure]

private theorem lineStart_withReq (p : HeaderLines Unit) (r : ρ) (c : UInt8) :
    lineStart (withReq p r) c = (lineStart p c).map (withReq · r) := by
  unfold lineStart
  repeat' split
  all_goals rfl

private theorem headerColon_withReq (p : HeaderLines Unit) (r : ρ) (c : UInt8) :
    headerColon (withReq p r) c = (headerColon p c).map (withReq · r) := by
  unfold headerColon
  repeat' split
  all_goals rfl

/-- A step that hands over the same headers and leads to the same place, whatever the
message. -/
private def Hands (step : ∀ ρ : Type, LineActions ρ → ρ → Except Error (HeaderLines ρ)) : Prop :=
  ∃ (headers : List Header) (end_ : Option (HeaderLines Unit)),
    ∀ (ρ : Type) (actions : LineActions ρ) (r : ρ),
    (step ρ actions r).toOption = (taken actions headers r).bind fun s => end_.map (withReq · s)

private theorem hands_nothing {step : ∀ ρ : Type, LineActions ρ → ρ → Except Error (HeaderLines ρ)}
    (end_ : Except Error (HeaderLines Unit))
    (same : ∀ (ρ : Type) (actions : LineActions ρ) (r : ρ),
      step ρ actions r = end_.map (withReq · r)) : Hands step := by
  refine ⟨[], end_.toOption, fun ρ actions r => ?_⟩
  rw [same]
  cases end_ <;> rfl

private theorem hands_ready {step : ∀ ρ : Type, LineActions ρ → ρ → Except Error (HeaderLines ρ)}
    (p : HeaderLines Unit) (end_ : Except Error (HeaderLines Unit))
    (same : ∀ (ρ : Type) (actions : LineActions ρ) (r : ρ),
      step ρ actions r = (readyHeader actions (withReq p r)).bind fun s => end_.map (withReq · s)) :
    Hands step := by
  refine ⟨ready p.header.name p.headerCmsList p.header.value, end_.toOption, fun ρ actions r => ?_⟩
  have taken_ :
      (readyHeader actions (withReq p r)).toOption =
      taken actions (ready p.header.name p.headerCmsList p.header.value) r :=
    readyHeader_taken actions (withReq p r)
  rw [same, ← taken_]
  cases readyHeader actions (withReq p r) with
  | error e => rfl
  | ok s => cases end_ <;> rfl

private theorem headerValue_hands (p : HeaderLines Unit) (c : UInt8) :
    Hands fun _ actions r => headerValue actions (withReq p r) c := by
  unfold headerValue
  by_cases cr : c = 13
  · apply hands_nothing (.ok { p with state := .headerLf })
    intro ρ actions r
    simp only [cr, ↓reduceIte]
    rfl
  by_cases lf : c = 10
  · apply hands_nothing (.ok { p with state := .headerLineStart })
    intro ρ actions r
    simp only [lf, ↓reduceIte]
    rfl
  by_cases ctl : isCtl c = true
  · apply hands_nothing (.error (.runtime "Invalid character (control) in header value"))
    intro ρ actions r
    simp only [cr, lf, ctl, ↓reduceIte]
    rfl
  by_cases comma : (p.headerCmsList && c == ch ',') = true
  · apply hands_ready p (.ok { p with state := .spaceBeforeHeaderValue, header.value := [] })
    intro ρ actions r
    have comma : ((withReq p r).headerCmsList && c == ch ',') = true := comma
    simp only [cr, lf, ctl, comma, ↓reduceIte]
    cases readyHeader actions (withReq p r) <;> rfl
  · apply hands_nothing (.ok { p with state := .headerValue, header.value := p.header.value ++ [c] })
    intro ρ actions r
    have other : ((withReq p r).headerCmsList && c == ch ',') = false := eq_false_of_ne_true comma
    simp only [cr, lf, ctl, other, ↓reduceIte]
    rfl

/-- What a byte hands over, and where it leads, whatever the message. -/
private theorem consumeLine_hands {p : HeaderLines Unit} (later : p.state ≠ .firstHeaderLineStart)
    (running : p.state ≠ .good) (c : UInt8) :
    Hands fun _ actions r => consumeLine actions (withReq p r) c := by
  have colon : Hands fun ρ _ r => headerColon (withReq p r) c :=
    hands_nothing (headerColon p c) fun _ _ r => headerColon_withReq p r c
  have end_ : ∀ (message : String) (state : LineState), Hands fun ρ _ r =>
      if c ≠ 10 then .error (.runtime message) else .ok { withReq p r with state := state } := by
    intro message state
    apply hands_nothing (if c ≠ 10 then .error (.runtime message) else .ok { p with state := state })
    intro ρ actions r
    split <;> rfl
  unfold consumeLine
  simp only [withReq_state]
  cases state : p.state with
  | firstHeaderLineStart => exact absurd state later
  | good => exact absurd state running
  | headerLineStart =>
    by_cases sp : isSp c = true
    · apply hands_nothing (.ok { p with state := .headerValue, header.value := p.header.value ++ [c] })
      intro ρ actions r
      simp only [sp, ↓reduceIte]
      rfl
    · apply hands_ready p (lineStart { p with header := {} } c)
      intro ρ actions r
      simp only [sp, ↓reduceIte, Bool.false_eq_true]
      cases readyHeader actions (withReq p r) with
      | error e => rfl
      | ok s => exact lineStart_withReq { p with header := {} } s c
  | headerName =>
    by_cases sp : isSp c = true
    · apply hands_nothing (.ok { p with state := .headerColon })
      intro ρ actions r
      simp only [sp, ↓reduceIte]
      rfl
    by_cases other : c ≠ ch ':'
    · simp only [sp, other, ne_eq, not_false_eq_true, Bool.false_eq_true, ↓reduceIte]
      apply hands_nothing (if !isToken c then .error (.runtime "Invalid character at header name")
        else .ok { p with state := .headerName, header.name := p.header.name ++ [lowerChar c] })
      intro ρ actions r
      split <;> rfl
    · simp only [sp, other, Bool.false_eq_true, ↓reduceIte]
      exact colon
  | headerColon => exact colon
  | spaceBeforeHeaderValue =>
    by_cases sp : isSp c = true
    · apply hands_nothing (.ok p)
      intro ρ actions r
      simp only [sp, ↓reduceIte]
      rfl
    · simp only [sp, Bool.false_eq_true, ↓reduceIte]
      exact headerValue_hands p c
  | headerValue => exact headerValue_hands p c
  | headerLf => exact end_ _ _
  | finalLf => exact end_ _ _

private theorem taken_append (actions : LineActions ρ) (headers headers' : List Header) (r : ρ) :
    taken actions (headers ++ headers') r = (taken actions headers r).bind (taken actions headers') := by
  simp only [taken, List.foldlM_append]
  rfl

private theorem taken_recorder (headers kept : List Header) :
    taken recorder headers kept = some (kept ++ headers) := by
  induction headers generalizing kept with
  | nil => rw [List.append_nil]; rfl
  | cons h headers ih => exact (ih (kept ++ [h])).trans (by rw [List.append_assoc]; rfl)

private theorem scan_toOption {m : Machine σ UInt8 Error} {s : σ} {c : UInt8}
    (running : m.good s = false) (text : Bytes) :
    (scan m s (c :: text)).toOption = (m.consume s c).toOption.bind fun t =>
      (scan m t text).toOption := by
  cases consumed : m.consume s c with
  | error e =>
    rw [scan_fail running consumed]
    rfl
  | ok t =>
    rw [scan_step running consumed]
    rfl

/-- The same for a text. -/
private theorem scan_hands {p : HeaderLines Unit}
    (later : p.state ≠ .firstHeaderLineStart) (text : Bytes) :
    ∃ (headers : List Header) (end_ : Option (HeaderLines Unit × Bytes)),
      ∀ (ρ : Type) (actions : LineActions ρ) (r : ρ),
      (scan (lineMachine actions) (withReq p r) text).toOption =
        (taken actions headers r).bind fun s => end_.map fun q => (withReq q.1 s, q.2) := by
  induction text generalizing p with
  | nil => exact ⟨[], some (p, []), fun ρ actions r => rfl⟩
  | cons c text ih =>
    by_cases good : p.state = .good
    · refine ⟨[], some (p, c :: text), fun ρ actions r => ?_⟩
      rw [scan_good (by simp [lineMachine, good])]
      rfl
    obtain ⟨headers, end_, hands⟩ := consumeLine_hands later good c
    have step : ∀ (ρ : Type) (actions : LineActions ρ) (r : ρ),
      (scan (lineMachine actions) (withReq p r) (c :: text)).toOption =
        ((taken actions headers r).bind fun s => end_.map (withReq · s)).bind fun q =>
      (scan (lineMachine actions) q text).toOption := by
      intro ρ actions r
      rw [scan_toOption (by simp [lineMachine, good]), ← hands]
      rfl
    cases end_ with
    | none =>
      refine ⟨headers, none, fun ρ actions r => ?_⟩
      rw [step]
      cases taken actions headers r <;> rfl
    | some q =>
      have later' : q.state ≠ .firstHeaderLineStart := by
        have led := hands (List Header) recorder []
        rw [taken_recorder] at led
        simp only [Option.bind_some, Option.map_some] at led
        have leaves := consumeLine_leaves (toOption_eq_some.mp led)
        exact leaves
      obtain ⟨headers', end_', hands'⟩ := ih later'
      refine ⟨headers ++ headers', end_', fun ρ actions r => ?_⟩
      rw [step, taken_append]
      cases taken actions headers r with
      | none => rfl
      | some s => exact hands' ρ actions s

/-- To read header lines is to find the headers, and then to process them. -/
theorem scan_recorded {actions : LineActions ρ} {p p' : HeaderLines ρ}
    (later : p.state ≠ .firstHeaderLineStart) (text : Bytes) :
    scan (lineMachine actions) p text = .ok (p', []) ↔
      ∃ q, scan (lineMachine recorder) (withReq p []) text = .ok (q, []) ∧
      taken actions q.req p.req = some p'.req ∧
        p' = withReq q p'.req := by
  obtain ⟨headers, end_, hands⟩ := scan_hands (p := withReq p ()) later text
  have recorded : (scan (lineMachine recorder) (withReq p []) text).toOption = end_.map fun q =>
      (withReq q.1 headers, q.2) := by
    have recorded := hands (List Header) recorder []
    rw [taken_recorder] at recorded
    exact recorded
  have read : (scan (lineMachine actions) p text).toOption =
      (taken actions headers p.req).bind fun s => end_.map fun q => (withReq q.1 s, q.2) :=
    hands ρ actions p.req
  rw [← toOption_eq_some, read, Option.bind_eq_some_iff]
  constructor
  · rintro ⟨s, made, ends⟩
    obtain ⟨⟨q, rest⟩, rfl, same⟩ := Option.map_eq_some_iff.mp ends
    cases same
    exact ⟨withReq q headers, toOption_eq_some.mp recorded, made, rfl⟩
  · rintro ⟨q, scanned, made, same⟩
    rw [scanned] at recorded
    obtain ⟨⟨q', rest⟩, rfl, same'⟩ := Option.map_eq_some_iff.mp recorded.symm
    cases same'
    rw [same]
    exact ⟨_, made, rfl⟩

end Lines

section Rest

/-- The rest of a value: up to a comma in a list, and up to the line that does not
continue it. -/
def restOf (list : Bool) : Bytes → Bytes
  | [] => []
  | c :: text =>
    if c = 13 then restOf list text
    else if c = 10 then if text.head?.any isSp then restOf list text else []
    else if list && c == ch ',' then []
    else c :: restOf list text

/-- The states in which a value is under construction. -/
def InValue (state : LineState) : Prop :=
  state = .headerValue ∨ state = .headerLf ∨ state = .headerLineStart

/-- What is still to be read of the value under construction. -/
def rest (state : LineState) (list : Bool) (text : Bytes) : Bytes :=
  restOf list (if state = .headerLineStart then 10 :: text else text)

private theorem scan_onto {p q : HeaderLines (List Header)} {text : Bytes}
    (later : p.state ≠ .firstHeaderLineStart)
    (scanned : scan (lineMachine recorder) p text = .ok (q, [])) :
    ∃ headers, ∀ kept, scan (lineMachine recorder) (withReq p kept) text =
      .ok (withReq q (kept ++ headers), []) := by
  obtain ⟨q', recorded, -, same⟩ := (scan_recorded later text).mp scanned
  refine ⟨q'.req, fun kept => ?_⟩
  rw [scan_recorded (by exact later)]
  refine ⟨q', recorded, taken_recorder _ _, ?_⟩
  rw [same]
  rfl

private theorem readyHeader_recorder (p : HeaderLines (List Header)) :
    readyHeader recorder p = .ok (p.req ++ ready p.header.name p.headerCmsList p.header.value) :=
  toOption_eq_some.mp ((readyHeader_taken recorder p).trans (taken_recorder _ _))

private theorem restOf_sp {c : UInt8} (sp : isSp c = true) (list : Bool) (text : Bytes) :
    restOf list (c :: text) = c :: restOf list text := by
  rcases Bool.or_eq_true_iff.mp sp with same | same
  · rw [beq_iff_eq.mp same, restOf, if_neg (by decide), if_neg (by decide), if_neg (by simp [ch])]
  · rw [beq_iff_eq.mp same, restOf, if_neg (by decide), if_neg (by decide), if_neg (by simp [ch])]

/-- The same place in the lines, with another value. -/
def holding {ρ : Type} (p : HeaderLines ρ) (value : Bytes) : HeaderLines ρ :=
  { p with header.value := value }

/-- A byte is read alike behind every value, or ends them all. -/
private inductive Reads (p : HeaderLines (List Header)) (c : UInt8) (text : Bytes)
    (p' : HeaderLines (List Header)) : Prop where
  | more (added : Bytes) (state : InValue p'.state) (rest_ :
      rest p.state p.headerCmsList (c :: text) = added ++ rest p'.state p.headerCmsList text)
      (consumed : ∀ value, consumeLine recorder (holding p value) c =
        .ok { holding p (value ++ added) with state := p'.state }) :
      Reads p c text p'
  | ends (rest_ : rest p.state p.headerCmsList (c :: text) = [])
      (consumed : ∀ value, consumeLine recorder (holding p value) c =
        .ok (withReq p' (p.req ++ ready p.header.name p.headerCmsList value))) : Reads p c text p'

private theorem headerValue_reads {p p' : HeaderLines (List Header)} {c : UInt8}
    (state : p.state = .headerValue) (text : Bytes) (consumed : headerValue recorder p c = .ok p') :
    Reads p c text p' := by
  have here :
      ∀ value, consumeLine recorder (holding p value) c = headerValue recorder (holding p value) c := by
    intro value
    simp only [consumeLine, holding, state]
  unfold headerValue at consumed here
  split at consumed
  · rename_i cr
    cases consumed
    refine .more [] (.inr (.inl rfl)) ?_ fun value => ?_
    · simp [rest, restOf, state, cr]
    · rw [here, if_pos cr, List.append_nil]
  split at consumed
  · rename_i lf
    cases consumed
    refine .more [] (.inr (.inr rfl)) ?_ fun value => ?_
    · simp [rest, state, lf]
    · rw [here, if_neg ‹_›, if_pos lf, List.append_nil]
  split at consumed
  · cases consumed
  rename_i cr lf ctl
  split at consumed
  · rename_i comma
    rw [readyHeader_recorder] at consumed
    cases consumed
    refine .ends ?_ fun value => ?_
    · simp only [rest, restOf, state, cr, lf, comma, reduceCtorEq, ↓reduceIte]
    · have comma : ((holding p value).headerCmsList && c == ch ',') = true := comma
      rw [here, if_neg cr, if_neg lf, if_neg ctl, if_pos comma, readyHeader_recorder]
      rfl
  · rename_i other
    cases consumed
    refine .more [c] (.inl rfl) ?_ fun value => ?_
    · simp [rest, restOf, state, cr, lf, other]
    · have other : ¬((holding p value).headerCmsList && c == ch ',') = true := other
      rw [here, if_neg cr, if_neg lf, if_neg ctl, if_neg other]
      rfl

private theorem consumeLine_reads {p p' : HeaderLines (List Header)} {c : UInt8}
    (state : InValue p.state) (text : Bytes) (consumed : consumeLine recorder p c = .ok p') :
    Reads p c text p' := by
  rcases state with state | state | state
  · simp only [consumeLine, state] at consumed
    exact headerValue_reads state text consumed
  · simp only [consumeLine, state] at consumed
    split at consumed
    · cases consumed
    rename_i lf
    cases consumed
    refine .more [] (.inr (.inr rfl)) ?_ fun value => ?_
    · simp only [rest, state, reduceCtorEq, ↓reduceIte, List.nil_append]
      rw [Classical.not_not.mp lf]
    · simp only [consumeLine, holding, state, lf, List.append_nil, ↓reduceIte]
  · simp only [consumeLine, state] at consumed
    split at consumed
    · rename_i sp
      cases consumed
      refine .more [c] (.inl rfl) ?_ fun value => ?_
      · rw [rest, rest, if_pos state, if_neg (by simp), restOf, if_neg (by decide), if_pos rfl,
          if_pos (by exact sp), restOf_sp sp]
        rfl
      · simp only [consumeLine, holding, state, sp, ↓reduceIte]
    · rename_i sp
      let start : HeaderLines Unit :=
        { state := .headerLineStart, headerCmsList := p.headerCmsList, req := () }
      have started : ∀ kept : List Header, lineStart (withReq start kept) c = .ok (withReq p' kept) := by
        intro kept
        rw [readyHeader_recorder] at consumed
        have started := (lineStart_withReq start
          (p.req ++ ready p.header.name p.headerCmsList p.header.value) c).symm.trans consumed
        rw [lineStart_withReq]
        cases made : lineStart start c with
        | error e =>
          rw [made] at started
          cases started
        | ok next =>
          rw [made] at started
          cases started
          rfl
      refine .ends ?_ fun value => ?_
      · rw [rest, if_pos state, restOf, if_neg (by decide), if_pos rfl, if_neg (by exact sp)]
      · have ready_ := readyHeader_recorder (holding p value)
        simp only [consumeLine, show (holding p value).state = .headerLineStart from state, sp, ready_]
        exact started _

/-- The value under construction may be any other, up to the byte that ends it. -/
theorem scan_rest {p q : HeaderLines (List Header)} {text : Bytes} (state : InValue p.state)
    (scanned : scan (lineMachine recorder) p text = .ok (q, [])) (good : q.state = .good) :
    ∃ later, ∀ value, scan (lineMachine recorder) (holding p value) text =
      .ok (withReq q (p.req ++ ready p.header.name p.headerCmsList
        (value ++ rest p.state p.headerCmsList text) ++ later), []) := by
  induction text generalizing p with
  | nil =>
    cases scanned
    rw [good] at state
    simp [InValue] at state
  | cons c text ih =>
    obtain ⟨running, p', consumed, later⟩ := scan_first scanned
    have step : ∀ value p'', consumeLine recorder (holding p value) c = .ok p'' →
        scan (lineMachine recorder) (holding p value) (c :: text) =
          scan (lineMachine recorder) p'' text :=
      fun value p'' consumed =>
        scan_step (m := lineMachine recorder) (s := holding p value) running consumed text
    cases consumeLine_reads state text consumed with
    | more added state' rest_ read =>
      have same : { holding p (p.header.value ++ added) with state := p'.state } = p' :=
        Except.ok.inj ((read p.header.value).symm.trans consumed)
      rw [← same] at later
      obtain ⟨headers, ends⟩ :=
        ih (p := { holding p (p.header.value ++ added) with state := p'.state }) state' later
      refine ⟨headers, fun value => ?_⟩
      rw [step _ _ (read value)]
      refine (ends (value ++ added)).trans ?_
      simp only [rest_, holding, List.append_assoc]
    | ends rest_ read =>
      obtain ⟨headers, onto⟩ := scan_onto (consumeLine_leaves consumed) later
      refine ⟨headers, fun value => ?_⟩
      rw [step _ _ (read value), onto, rest_, List.append_nil]

end Rest

end Crablib.RecordingProofs
