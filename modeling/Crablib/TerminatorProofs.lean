import Crablib.AcceptedProofs

/-! Line ends of a request head. Each state that ends a line takes a bare line feed for
the two characters, except where empty lines are skipped: there a bare line feed is
taken for the end of them. -/
namespace Crablib.TerminatorProofs
open Http Scanner RequestParser HeaderProofs RequestTextProofs AcceptedProofs

section States

/-- The parser is behind the empty lines at the start. -/
def Started (p : RequestParser) : Prop := p.state ≠ .methodStart ∧ p.state ≠ .methodStartLf

/-- No byte leads back to them. -/
private theorem advance_started {p q : RequestParser} {c : UInt8} (started : Started p)
    (advanced : p.advance c = .ok q) :
    Started q := by
  obtain ⟨start, startLf⟩ := started
  obtain ⟨state, lines, percent, total⟩ := p
  cases state
  case methodStart => exact absurd rfl start
  case methodStartLf => exact absurd rfl startLf
  all_goals
    simp only [advance, expectLetter] at advanced
    repeat' split at advanced
  all_goals cases advanced
  all_goals exact ⟨by simp [goTo, setReq, pushPath], by simp [goTo, setReq, pushPath]⟩

/-- The end of a header line. -/
private theorem consumeLine_terminator {p q r : HeaderLines RequestHeader}
    (cr : consumeLine actions p 13 = .ok q) (lf : consumeLine actions q 10 = .ok r) :
    consumeLine actions p 10 = .ok r := by
  have facts : isSp 13 = false ∧ isSp 10 = false ∧ isToken 13 = false ∧ (13 : UInt8) ≠ ch ':' := by
    decide
  have value : headerValue actions p 13 = .ok q → headerValue actions p 10 = .ok r := by
    intro end_
    simp only [headerValue, ↓reduceIte, Except.ok.injEq] at end_
    subst end_
    simpa [consumeLine, headerValue] using lf
  have start : ∀ p' : HeaderLines RequestHeader, lineStart p' 13 = .ok q → lineStart p' 10 = .ok r := by
    intro p' end_
    simp only [lineStart, ↓reduceIte, Except.ok.injEq] at end_
    subst end_
    simpa [consumeLine, lineStart] using lf
  obtain ⟨state, header, list, req⟩ := p
  cases state with
  | firstHeaderLineStart => exact start _ cr
  | headerLineStart =>
    simp only [consumeLine, facts.1, facts.2.1, Bool.false_eq_true, ↓reduceIte] at cr ⊢
    split at cr
    · cases cr
    · exact start _ cr
  | headerName =>
    simp only [consumeLine, facts, Bool.false_eq_true, ↓reduceIte, ne_eq,
      not_false_eq_true, Bool.not_false] at cr
    cases cr
  | headerColon =>
    simp only [consumeLine, headerColon, facts, Bool.false_eq_true, ↓reduceIte, ne_eq,
      not_false_eq_true] at cr
    cases cr
  | spaceBeforeHeaderValue =>
    simp only [consumeLine, facts.1, facts.2.1, Bool.false_eq_true, ↓reduceIte] at cr ⊢
    exact value cr
  | headerValue => exact value cr
  | headerLf => cases cr
  | finalLf => cases cr
  | good => cases cr

/-- The end of any other line. -/
private theorem advance_terminator {p q r : RequestParser} (started : Started p)
    (cr : p.advance 13 = .ok q) (lf : q.advance 10 = .ok r) : p.advance 10 = .ok r := by
  obtain ⟨start, startLf⟩ := started
  obtain ⟨state, lines, percent, total⟩ := p
  cases state
  case methodStart => exact absurd rfl start
  case methodStartLf => exact absurd rfl startLf
  case httpVersionMinor =>
    cases cr
    cases lf
    rfl
  case headerLines =>
    simp only [advance] at cr ⊢
    split at cr
    · cases cr
    · rename_i lines' consumed
      cases cr
      simp only [advance] at lf
      split at lf
      · cases lf
      · rename_i lines'' consumed'
        cases lf
        rw [consumeLine_terminator consumed consumed']
  all_goals exact absurd cr (by
    simp [advance, expectLetter, isSp, isToken, isCtl, isChar, isDigit, fromHexDigit, ch])

end States

section Requests

variable {text text' : Bytes} {p q : RequestParser}

/-- The parser accepts a text to its last byte. -/
def AcceptsWhole (text : Bytes) (p : RequestParser) : Prop :=
  RequestParser.parse {} text = .ok (p, []) ∧ p.isGood = true

/-- No line ended by a bare line feed is skipped before another empty line. -/
def OneBare (text : Bytes) : Prop := ∀ c, (skipEmpty text).head? = some c → c ≠ 13 ∧ c ≠ 10

private theorem scan_started (started : Started p) (relaxes : Relaxes 13 10 text text')
    (scanned : scan plain p text = .ok (q, [])) :
    scan plain p text' = .ok (q, []) :=
  scan_relaxes (m := plain) (P := Started) (fun _ _ _ => advance_started)
    (fun _ _ _ => advance_terminator) started relaxes scanned

/-- Behind a bare line feed the first line is read as it is behind the other line ends. -/
private theorem advance_method {c : UInt8} {r : RequestParser} (state : p.state = .methodStart)
    (cr : c ≠ 13) (lf : c ≠ 10) (advanced : p.advance c = .ok r) :
    (p.goTo .method).advance c = .ok r ∧ r.state = .method := by
  simp only [advance, state, cr, lf, ↓reduceIte] at advanced
  split at advanced
  · cases advanced
  · rename_i token
    have isToken_ : isToken c = true := by simpa using token
    cases advanced
    refine ⟨?_, rfl⟩
    simp [advance, goTo, setReq, req, (token_facts isToken_).1, isToken_]

private theorem advance_method_fails {c : UInt8} (end_ : c = 13 ∨ c = 10) :
    ∃ e, plain.consume (p.goTo .method) c = .error e := by
  rcases end_ with rfl | rfl
  · exact ⟨_, rfl⟩
  · exact ⟨_, rfl⟩

/-- From the start, where empty lines are skipped. -/
private theorem scan_start (state : p.state = .methodStart) (relaxes : Relaxes 13 10 text text')
    (scanned : scan plain p text = .ok (q, [])) (good : q.isGood = true) :
    (OneBare text' → scan plain p text' = .ok (q, [])) ∧
      (¬OneBare text' → ∃ e, scan plain p text' = .error e) := by
  have running : ∀ {r : RequestParser}, r.state ≠ .headerLines → plain.good r = false := fun other => by
    simp [plain, isGood, other]
  induction relaxes generalizing p with
  | nil =>
    cases scanned
    simp [isGood, state] at good
  | @symbol c text text' cr lf more _ =>
    have other : OneBare (c :: text') := by
      intro d first
      rw [skipEmpty_other cr lf, List.head?_cons, Option.some.injEq] at first
      exact first ▸ ⟨cr, lf⟩
    refine ⟨fun _ => ?_, fun not => absurd other not⟩
    obtain ⟨going, r, consumed, later⟩ := scan_first scanned
    rw [scan_step going consumed]
    have method := (advance_method state cr lf consumed).2
    exact scan_started ⟨by simp [method], by simp [method]⟩ more later
  | @kept text text' _ ih =>
    obtain ⟨going, r, consumed, later⟩ := scan_first scanned
    obtain ⟨going', u, consumed', later'⟩ := scan_first later
    have skipped : OneBare (13 :: 10 :: text') ↔ OneBare text' := Iff.rfl
    have state' : u.state = .methodStart := by
      simp only [plain, advance, state, ↓reduceIte, Except.ok.injEq] at consumed
      subst consumed
      simp only [plain, advance, goTo, ne_eq, not_true_eq_false, ↓reduceIte,
        Except.ok.injEq] at consumed'
      exact congrArg RequestParser.state consumed'.symm
    rw [skipped, scan_step going consumed, scan_step going' consumed']
    exact ih state' later'
  | @bare text text' more _ =>
    obtain ⟨going, r, consumed, later⟩ := scan_first scanned
    obtain ⟨-, u, consumed', later'⟩ := scan_first later
    have same : u = p := by
      simp only [plain, advance, state, ↓reduceIte, Except.ok.injEq] at consumed
      subst consumed
      simp only [plain, advance, goTo, ne_eq, not_true_eq_false, ↓reduceIte,
        Except.ok.injEq] at consumed'
      rw [← consumed', ← state]
    rw [same] at later'
    have bare : plain.consume p 10 = .ok (p.goTo .method) := by simp [plain, advance, state]
    rw [scan_step going bare]
    have running : plain.good (p.goTo .method) = false := rfl
    cases more with
    | nil =>
      cases later'
      simp [isGood, state] at good
    | @symbol c text text' cr lf more =>
      have other : OneBare (10 :: c :: text') := by
        intro d first
        rw [skipEmpty_lf, List.head?_cons, Option.some.injEq] at first
        exact first ▸ ⟨cr, lf⟩
      refine ⟨fun _ => ?_, fun not => absurd other not⟩
      obtain ⟨-, v, consumed'', later''⟩ := scan_first later'
      obtain ⟨again, method⟩ := advance_method state cr lf consumed''
      rw [scan_step running again]
      exact scan_started ⟨by simp [method], by simp [method]⟩ more later''
    | @kept text text' more =>
      refine ⟨fun other => absurd rfl (other 13 rfl).1, fun _ => ?_⟩
      obtain ⟨e, failed⟩ := advance_method_fails (p := p) (.inl rfl)
      exact ⟨e, scan_fail running failed _⟩
    | @bare text text' more =>
      refine ⟨fun other => absurd rfl (other 10 rfl).2, fun _ => ?_⟩
      obtain ⟨e, failed⟩ := advance_method_fails (p := p) (.inr rfl)
      exact ⟨e, scan_fail running failed _⟩

/-- Some line ends of an accepted request head become bare line feeds. The head is still
accepted, and says the same, exactly if no empty line but the last at its start is
among them. -/
theorem terminators_interchangeable_iff (accepted : AcceptsWhole text p)
    (relaxes : Relaxes 13 10 text text') :
    (∃ q, AcceptsWhole text' q ∧ q.req = p.req) ↔ OneBare text' := by
  obtain ⟨parsed, good⟩ := accepted
  have within : scan plain {} text = .ok ({ p with totalLength := 0 }, []) :=
    limited.scan_within parsed 0
  obtain ⟨taken, refused⟩ := scan_start rfl relaxes within good
  constructor
  · rintro ⟨q, ⟨parsed', good'⟩, -⟩
    refine Classical.byContradiction fun other => ?_
    obtain ⟨e, failed⟩ := refused other
    have within' : scan plain {} text' = .ok ({ q with totalLength := 0 }, []) :=
      limited.scan_within parsed' 0
    rw [failed] at within'
    cases within'
  · intro other
    have fits : text.length ≤ ({} : RequestParser).maxTotalLength := by
      obtain ⟨bound, total⟩ := limited.scan_count parsed (Nat.zero_le _)
      have start : limited.count ({} : RequestParser) = 0 := rfl
      have none : ([] : Bytes).length = 0 := rfl
      have limit : limited.limit {} = ({} : RequestParser).maxTotalLength := rfl
      omega
    have shorter := relaxes.length_le
    have within' : limited.count {} + text'.length ≤ limited.limit {} := by
      show 0 + text'.length ≤ ({} : RequestParser).maxTotalLength
      omega
    obtain ⟨n, parsed'⟩ := limited.scan_ok within' (taken other)
    exact ⟨_, ⟨parsed', good⟩, rfl⟩

theorem acceptsWhole_of_run {α : Type} (text : Bytes) (f : RequestParser → α) (value : α)
    (run : ((RequestParser.parse {} text).toOption.map fun read =>
      (read.1.isGood, read.2, f read.1)) = some (true, [], value)) :
    ∃ p, AcceptsWhole text p ∧ f p = value := by
  obtain ⟨⟨p, rest⟩, parsed, seen⟩ := ok_of_run run
  simp only [Prod.mk.injEq] at seen
  obtain ⟨good, rfl, value⟩ := seen
  exact ⟨p, ⟨parsed, good⟩, value⟩

private theorem relaxes_plain (text : Bytes) (ends : ∀ c ∈ text, c ≠ 13 ∧ c ≠ 10) {rest : Bytes}
    (more : Relaxes 13 10 text' rest) :
    Relaxes 13 10 (text ++ text') (text ++ rest) := by
  induction text with
  | nil => exact more
  | cons c text ih =>
    obtain ⟨cr, lf⟩ := ends c List.mem_cons_self
    exact .symbol cr lf (ih fun d member => ends d (List.mem_cons_of_mem _ member))

theorem terminators_interchangeable_iff_mixed :
    ∃ p, AcceptsWhole (str "\r\nGET / HTTP/1.1\r\nHost: a\r\n\r\n") p ∧
      Relaxes 13 10 (str "\r\nGET / HTTP/1.1\r\nHost: a\r\n\r\n")
        (str "\nGET / HTTP/1.1\r\nHost: a\n\r\n") ∧
      ((∃ q, AcceptsWhole (str "\nGET / HTTP/1.1\r\nHost: a\n\r\n") q ∧ q.req = p.req) ↔
        OneBare (str "\nGET / HTTP/1.1\r\nHost: a\n\r\n")) := by
  obtain ⟨p, accepted, -⟩ := acceptsWhole_of_run (str "\r\nGET / HTTP/1.1\r\nHost: a\r\n\r\n")
    (fun p => p.req.host) (str "a") (by decide +kernel)
  have relaxes :
      Relaxes 13 10 (str "\r\nGET / HTTP/1.1\r\nHost: a\r\n\r\n")
      (str "\nGET / HTTP/1.1\r\nHost: a\n\r\n") :=
    .bare (relaxes_plain (str "GET / HTTP/1.1") (by decide +kernel)
      (.kept (relaxes_plain (str "Host: a") (by decide +kernel) (.bare (.kept .nil)))))
  exact ⟨p, accepted, relaxes, terminators_interchangeable_iff accepted relaxes⟩

/-- The first of two empty lines may not end in a bare line feed. -/
theorem bare_empty_line_refused :
    (∃ p, AcceptsWhole (str "\r\n\r\nGET / HTTP/1.1\r\n\r\n") p) ∧
      Relaxes 13 10 (str "\r\n\r\nGET / HTTP/1.1\r\n\r\n") (str "\n\r\nGET / HTTP/1.1\r\n\r\n") ∧
      ¬∃ q, AcceptsWhole (str "\n\r\nGET / HTTP/1.1\r\n\r\n") q := by
  refine ⟨?_, ?_, ?_⟩
  · obtain ⟨p, accepted, -⟩ := acceptsWhole_of_run (str "\r\n\r\nGET / HTTP/1.1\r\n\r\n")
      (fun p => p.req.method) (str "GET") (by decide +kernel)
    exact ⟨p, accepted⟩
  · exact .bare (.kept (relaxes_plain (str "GET / HTTP/1.1") (by decide +kernel) (.kept (.kept .nil))))
  · rintro ⟨q, parsed, -⟩
    have refused : (RequestParser.parse {} (str "\n\r\nGET / HTTP/1.1\r\n\r\n")).toOption.isSome =
      false := by decide +kernel
    rw [parsed] at refused
    cases refused

end Requests

end Crablib.TerminatorProofs
