import Crablib.EncoderProofs
import Crablib.UriPartsProofs

/-! Dot segments of a parsed path, and what becomes of a parsed URI that is printed and
parsed again. A segment is freed of dots when the slash behind it comes; the last one has
no slash behind it, and an escaped slash is none. -/
namespace Crablib.DotSegmentProofs
open Http UriProofs UriPartsProofs EncoderProofs

section Segments

/-- A segment that means a place in the path. -/
def IsDot (segment : Bytes) : Prop := segment = str "." ∨ segment = str ".."

instance (segment : Bytes) : Decidable (IsDot segment) :=
  inferInstanceAs (Decidable (segment = str "." ∨ segment = str ".."))

/-- The text of a path. -/
def joined (segments : List Bytes) : Bytes := segments.flatMap fun segment => ch '/' :: segment

private theorem split_more (segments : List Bytes) (first : Bytes) :
    (first ++ joined segments).splitOn (ch '/') = first.splitOn (ch '/') ++
      segments.flatMap (·.splitOn (ch '/')) := by
  induction segments generalizing first with
  | nil => simp [joined]
  | cons segment segments ih =>
    have text :
        first ++ joined (segment :: segments) = first ++ ch '/' ::
        (segment ++ joined segments) := by simp [joined]
    rw [text, List.splitOn_append_cons_self, ih, List.flatMap_cons]

/-- A path is split where its segments meet, and within them. -/
theorem split_joined (segments : List Bytes) :
    (joined segments).splitOn (ch '/') = [] :: segments.flatMap (·.splitOn (ch '/')) := by
  have split := split_more segments []
  rwa [List.nil_append] at split

private theorem leave_clean {done : List Bytes} (clean : ∀ s ∈ done, ¬IsDot s) (segment : Bytes) :
    ∀ s ∈ leave done segment, ¬IsDot s := by
  intro s member
  unfold leave at member
  split at member
  · exact clean s (List.dropLast_subset done member)
  split at member
  · exact clean s member
  · rename_i parent here
    rcases List.mem_append.mp member with member | member
    · exact clean s member
    · rw [List.mem_singleton.mp member]
      rintro (same | same)
      · exact here same
      · exact parent same

/-- Every segment but the last is free of dots. -/
private theorem resolve_shape {done : List Bytes} (clean : ∀ s ∈ done, ¬IsDot s) (segment : Bytes)
    (rest : List (Option UInt8)) :
    ∃ kept last, resolve done segment rest = kept ++ [last] ∧ ∀ s ∈ kept, ¬IsDot s := by
  induction rest generalizing done segment with
  | nil => exact ⟨done, segment, rfl, clean⟩
  | cons c rest ih =>
    cases c with
    | none => exact ih (leave_clean clean segment) []
    | some c => exact ih clean (segment ++ [c])

private theorem segments_shape (text : Bytes) :
    ∃ kept last, segments text = kept ++ [last] ∧ ∀ s ∈ kept, ¬IsDot s :=
  resolve_shape (fun _ member => absurd member List.not_mem_nil) [] _

/-- A segment in which an escape stands for a slash hides its dots from the parser. -/
def Hides (segment : Bytes) : Prop := ch '/' ∈ segment ∧ ∃ piece ∈ segment.splitOn (ch '/'), IsDot piece

private theorem pieces_clean {segment : Bytes} (clean : ¬IsDot segment) :
    (∀ piece ∈ segment.splitOn (ch '/'), ¬IsDot piece) ↔ ¬Hides segment := by
  by_cases slash : ch '/' ∈ segment
  · simp [Hides, slash]
  · rw [List.splitOn_eq_singleton slash]
    simp [Hides, slash, clean]

/-- Neither is a dot segment the last one, nor does one hide in it or before it. -/
structure NoDots (text : Bytes) : Prop where
  last : ∀ piece ∈ ((segments text).getLastD []).splitOn (ch '/'), ¬IsDot piece
  hidden : ∀ segment ∈ (segments text).dropLast, ¬Hides segment

/-- The path of an accepted text has no dot segments exactly if its last segment is none
and no escaped slash hides one. -/
theorem dot_segments_removed_iff {text : Bytes} {u : URI} (accepted : parseUri text = .ok u) :
    (∀ piece ∈ u.path.splitOn (ch '/'), ¬IsDot piece) ↔ NoDots text := by
  have path : u.path = joined (segments text) := (parseUri_meaning accepted).1
  obtain ⟨kept, last, split, clean⟩ := segments_shape text
  have empty : ¬IsDot [] := by decide
  rw [path, split_joined, split]
  constructor
  · intro none
    refine ⟨fun piece member => none piece ?_, fun segment member => ?_⟩
    · rw [split, List.getLastD_concat] at member
      simp [member]
    · rw [split, List.dropLast_concat] at member
      refine (pieces_clean (clean segment member)).mp fun piece inside => none piece ?_
      exact List.mem_cons_of_mem _ (List.mem_flatMap.mpr ⟨segment, by simp [member], inside⟩)
  · rintro ⟨last_, hidden⟩ piece member
    rw [split, List.getLastD_concat] at last_
    rw [split, List.dropLast_concat] at hidden
    rcases List.mem_cons.mp member with rfl | member
    · exact empty
    · obtain ⟨segment, here, inside⟩ := List.mem_flatMap.mp member
      rcases List.mem_append.mp here with here | here
      · exact (pieces_clean (clean segment here)).mpr (hidden segment here) piece inside
      · rw [List.mem_singleton.mp here] at inside
        exact last_ piece inside

private theorem parts_of_text {text scheme authority target : Bytes}
    (split : text = scheme ++ str "://" ++ authority ++ ch '/' :: target) (colon : ch ':' ∉ scheme)
    (slash : ch '/' ∉ authority) (single : ch '@' ∉ hostPort authority) :
    parseUri text = .ok (uriOf scheme authority target) :=
  parseUri_of_parts ⟨.inr split, colon, slash, single⟩

theorem dot_segments_removed_iff_parent :
    ∃ u, parseUri (str "http://h/a/./b/../c") = .ok u ∧
      ((∀ piece ∈ u.path.splitOn (ch '/'), ¬IsDot piece) ↔ NoDots (str "http://h/a/./b/../c")) := by
  have parsed :
      parseUri (str "http://h/a/./b/../c") = .ok (uriOf (str "http") (str "h") (str "a/./b/../c")) :=
    parts_of_text (by decide +kernel) (by decide +kernel) (by decide +kernel) (by decide +kernel)
  exact ⟨_, parsed, dot_segments_removed_iff parsed⟩

/-- A dot segment at the end is kept, and so is one behind an escaped slash. -/
theorem dot_segments_kept :
    (∃ u, parseUri (str "http://h/a/..") = .ok u ∧ ¬∀ piece ∈ u.path.splitOn (ch '/'), ¬IsDot piece) ∧
      ∃ u, parseUri (str "http://h/a%2f../b") = .ok u ∧
      ¬∀ piece ∈ u.path.splitOn (ch '/'), ¬IsDot piece := by
  constructor
  · have parsed : parseUri (str "http://h/a/..") = .ok (uriOf (str "http") (str "h") (str "a/..")) :=
      parts_of_text (by decide +kernel) (by decide +kernel) (by decide +kernel) (by decide +kernel)
    refine ⟨_, parsed, fun none => none (str "..") (by decide +kernel) (by decide)⟩
  · have parsed :
        parseUri (str "http://h/a%2f../b") = .ok (uriOf (str "http") (str "h") (str "a%2f../b")) :=
      parts_of_text (by decide +kernel) (by decide +kernel) (by decide +kernel) (by decide +kernel)
    refine ⟨_, parsed, fun none => none (str "..") (by decide +kernel) (by decide)⟩

end Segments

section Printing

/-- The bytes of a printed path: each of its slashes separates. -/
def marks (text : Bytes) : List (Option UInt8) := text.map fun c => if c = ch '/' then none else some c

private theorem unescape_spelled {text spelled : Bytes} (spells : Spells true text spelled) :
    unescape spelled = marks text := by
  induction spells with
  | nil => rfl
  | @plain c text spelled isPlain _ ih =>
    rw [unescape.eq_def]
    simp only [isPlain.percent, ↓reduceIte, ih]
    by_cases slash : c = ch '/' <;> simp [marks, slash]
  | @escape first second high low text spelled hex1 hex2 slash _ ih =>
    have other := slash rfl
    have step :
        unescape (ch '%' :: first :: second :: spelled) = some (UInt8.ofNat (high * 16 + low)) ::
        unescape spelled := by
      rw [unescape.eq_def]
      simp only [↓reduceIte, hex1, hex2]
    rw [step, ih]
    generalize UInt8.ofNat (high * 16 + low) = c at other
    simp [marks, other]

/-- Segments that are resolved without being read again. -/
def settle (done : List Bytes) : List Bytes → List Bytes
  | [] => done
  | [segment] => done ++ [segment]
  | segment :: next :: more => settle (leave done segment) (next :: more)

private theorem resolve_marks {text first : Bytes} {more : List Bytes}
    (split : text.splitOn (ch '/') = first :: more) (done : List Bytes) (segment : Bytes) :
    resolve done segment (marks text) = settle done ((segment ++ first) :: more) := by
  induction text generalizing done segment first more with
  | nil =>
    cases split
    simp [marks, resolve, settle]
  | cons c text ih =>
    obtain ⟨first', more', split'⟩ := List.exists_cons_of_ne_nil (List.splitOn_ne_nil (ch '/') text)
    rw [List.splitOn_cons_eq_if_modifyHead, split'] at split
    by_cases slash : c = ch '/'
    · simp only [slash, beq_self_eq_true, ↓reduceIte, List.cons.injEq] at split
      obtain ⟨rfl, rfl⟩ := split
      have read := ih split' (leave done segment) []
      simpa [marks, slash, resolve, settle] using read
    · have other : (c == ch '/') = false := by simpa using slash
      simp only [other, Bool.false_eq_true, ↓reduceIte, List.modifyHead_cons, List.cons.injEq] at split
      obtain ⟨rfl, rfl⟩ := split
      have read := ih split' done (segment ++ [c])
      simpa [marks, slash, resolve] using read

/-- Segments without dots are all kept. -/
private theorem settle_clean {init : List Bytes} (clean : ∀ s ∈ init, ¬IsDot s)
    (done : List Bytes) (last : Bytes) :
    settle done (init ++ [last]) = done ++ init ++ [last] := by
  induction init generalizing done with
  | nil => simp [settle]
  | cons segment init ih =>
    have here := clean segment List.mem_cons_self
    have kept : leave done segment = done ++ [segment] := by
      have parent : segment ≠ str ".." := fun same => here (.inr same)
      have self : segment ≠ str "." := fun same => here (.inl same)
      simp [leave, parent, self]
    have step :
        settle done (segment :: init ++ [last]) = settle (leave done segment) (init ++ [last]) := by
      cases init <;> rfl
    rw [step, kept, ih fun s member => clean s (List.mem_cons_of_mem _ member)]
    simp

/-- What is left of segments has no dots before its end, and nothing that was not among
them. -/
private theorem settle_shape (done init : List Bytes) (clean : ∀ s ∈ done, ¬IsDot s) (last : Bytes) :
    ∃ kept, settle done (init ++ [last]) = kept ++ [last] ∧ (∀ s ∈ kept, ¬IsDot s) ∧ ∀ s ∈ kept,
      s ∈ done ∨ s ∈ init := by
  induction init generalizing done with
  | nil => exact ⟨done, rfl, clean, fun s member => .inl member⟩
  | cons segment init ih =>
    have step :
        settle done (segment :: init ++ [last]) = settle (leave done segment) (init ++ [last]) := by
      cases init <;> rfl
    obtain ⟨kept, shape, clean', within⟩ := ih (leave done segment) (leave_clean clean segment)
    refine ⟨kept, step.trans shape, clean', fun s member => ?_⟩
    rcases within s member with before | later
    · unfold leave at before
      split at before
      · exact .inl (List.dropLast_subset done before)
      split at before
      · exact .inl before
      · rcases List.mem_append.mp before with before | here
        · exact .inl before
        · exact .inr (by simp [List.mem_singleton.mp here])
    · exact .inr (List.mem_cons_of_mem _ later)

private theorem joined_injective {list list' : List Bytes} (clear : ∀ s ∈ list, ch '/' ∉ s)
    (clear' : ∀ s ∈ list', ch '/' ∉ s) (same : joined list = joined list') : list = list' := by
  have pieces : ∀ list : List Bytes, (∀ s ∈ list, ch '/' ∉ s) →
      list.flatMap (·.splitOn (ch '/')) = list := by
    intro list clear
    induction list with
    | nil => rfl
    | cons s list ih =>
      rw [List.flatMap_cons, List.splitOn_eq_singleton (clear s List.mem_cons_self),
        ih fun t member => clear t (List.mem_cons_of_mem _ member)]
      rfl
  have split := congrArg (·.splitOn (ch '/')) same
  simp only [split_joined, pieces list clear, pieces list' clear', List.cons.injEq, true_and] at split
  exact split

private theorem spelled_clear {path : Bool} {text spelled : Bytes} (spells : Spells path text spelled) :
    ch '@' ∉ spelled ∧ ch '?' ∉ spelled ∧ (path = false → ch '/' ∉ spelled) := by
  induction spells with
  | nil => simp
  | @plain c text spelled isPlain _ ih =>
    obtain ⟨user, query, slash⟩ := ih
    refine ⟨by simp [user, Ne.symm isPlain.user], by simp [query, Ne.symm isPlain.query], fun none => ?_⟩
    simp [slash none, Ne.symm (isPlain.slash none)]
  | @escape first second high low text spelled hex1 hex2 _ _ ih =>
    obtain ⟨user, query, slash⟩ := ih
    have digits : ∀ other : Char, fromHexDigit (ch other) = none →
      ch other ≠ ch '%' → ch other ∉ spelled →
        ch other ∉ ch '%' :: first :: second :: spelled := by
      intro other not_hex percent none
      simp [percent, none, Ne.symm (QueryProofs.hex_ne hex1 other not_hex),
        Ne.symm (QueryProofs.hex_ne hex2 other not_hex)]
    exact ⟨digits '@' (by decide) (by decide) user, digits '?' (by decide) (by decide) query,
      fun none => digits '/' (by decide) (by decide) (slash none)⟩

/-- The authority as it is printed. -/
def printedAuthority (user host port : Bytes) : Bytes :=
  (if user.isEmpty then [] else urlEncode user false ++ str "@") ++
    (host ++ if port.isEmpty then [] else str ":" ++ port)

/-- User, host and port are found in what they are printed to. -/
private theorem printed_authority (user : Bytes) {host port : Bytes}
    (clear : ∀ c ∈ host ++ port, c ≠ ch '@' ∧ c ≠ ch '/') (colon : ch ':' ∉ host) :
    ch '/' ∉ printedAuthority user host port ∧ ch '@' ∉ hostPort (printedAuthority user host port) ∧
      userOf (printedAuthority user host port) = user ∧ hostOf (printedAuthority user host port) = host ∧
      portOf (printedAuthority user host port) = port := by
  have at_ : ch '@' ∉ host ++ port := fun member => (clear _ member).1 rfl
  have slash : ch '/' ∉ host ++ port := fun member => (clear _ member).2 rfl
  simp only [List.mem_append, not_or] at at_ slash
  have back : ch '@' ∉ (host ++ if port.isEmpty then [] else str ":" ++ port) ∧
      ch '/' ∉ (host ++ if port.isEmpty then [] else str ":" ++ port) ∧
      (host ++ if port.isEmpty then [] else str ":" ++ port).takeWhile (· ≠ ch ':') = host ∧
      behind (ch ':') (host ++ if port.isEmpty then [] else str ":" ++ port) = port := by
    cases port with
    | nil =>
      rw [List.isEmpty_nil, if_pos rfl, List.append_nil]
      exact ⟨at_.1, slash.1, takeWhile_all colon, behind_none colon⟩
    | cons c port =>
      rw [List.isEmpty_cons, if_neg (by simp)]
      have facts : ch '@' ≠ ch ':' ∧ ch '/' ≠ ch ':' := by decide
      have text : str ":" ++ c :: port = ch ':' :: c :: port := rfl
      rw [text]
      refine ⟨?_, ?_, takeWhile_part colon _, behind_part colon _⟩
      · simp only [List.mem_append, List.mem_cons, not_or] at at_ ⊢
        exact ⟨at_.1, facts.1, at_.2⟩
      · simp only [List.mem_append, List.mem_cons, not_or] at slash ⊢
        exact ⟨slash.1, facts.2, slash.2⟩
  obtain ⟨user_, slash_, host_, port_⟩ := back
  unfold printedAuthority
  generalize (host ++ if port.isEmpty then [] else str ":" ++ port) = rest at user_ slash_ host_ port_
  cases user with
  | nil =>
    rw [List.isEmpty_nil, if_pos rfl, List.nil_append]
    have same : hostPort rest = rest := if_neg user_
    rw [hostOf, portOf, same]
    exact ⟨slash_, user_, if_neg user_, host_, port_⟩
  | cons c user =>
    obtain ⟨encoded, -, slashed⟩ := spelled_clear (urlEncode_spells (c :: user) false)
    rw [List.isEmpty_cons, if_neg (by simp)]
    have text :
        urlEncode (c :: user) false ++ str "@" ++ rest =
        urlEncode (c :: user) false ++ ch '@' :: rest := by
      rw [List.append_assoc]
      rfl
    have named : ch '@' ∈ urlEncode (c :: user) false ++ ch '@' :: rest := by simp
    have apart : ch '/' ≠ ch '@' := by decide
    have same : hostPort (urlEncode (c :: user) false ++ ch '@' :: rest) = rest := by
      rw [hostPort, if_pos named, behind_part encoded]
    rw [text, hostOf, portOf, same, userOf, if_pos named, takeWhile_part encoded,
      urlDecode_spelled (urlEncode_spells _ _)]
    exact ⟨by simp [slashed rfl, slash_, apart], user_, rfl, host_, port_⟩

/-- A URI that is printed is parsed again, with its path resolved once more. -/
private theorem parse_printed {u : URI} {path : Bytes} (colon : ch ':' ∉ u.scheme)
    (clear : ∀ c ∈ u.host ++ u.port, c ≠ ch '@' ∧ c ≠ ch '/')
    (host : ch ':' ∉ u.host) (path_ : u.path = ch '/' :: path) :
    parseUri u.toString = .ok { u with path := joined (settle [] (path.splitOn (ch '/'))) } := by
  obtain ⟨slash, single, user, host_, port⟩ := printed_authority u.userInfo clear host
  obtain ⟨-, question, -⟩ := spelled_clear (urlEncode_spells path true)
  have encoded : urlEncode u.path true = ch '/' :: urlEncode path true := by
    have kept : (!isUriReserved (ch '/') || (true && ch '/' == ch '/')) = true := by decide
    rw [path_, urlEncode, List.flatMap_cons, if_pos kept]
    rfl
  have text : u.toString = u.scheme ++ str "://" ++ printedAuthority u.userInfo u.host u.port ++
      ch '/' :: (urlEncode path true ++ if u.query.isEmpty then [] else str "?" ++ u.query) := by
    rw [URI.toString, encoded, printedAuthority]
    simp only [List.append_assoc, List.cons_append]
  have target :
      (urlEncode path true ++ if u.query.isEmpty then [] else str "?" ++ u.query).takeWhile
      (· ≠ ch '?') = urlEncode path true ∧
      behind (ch '?') (urlEncode path true ++ if u.query.isEmpty then [] else str "?" ++ u.query) =
        u.query := by
    cases query : u.query with
    | nil =>
      rw [List.isEmpty_nil, if_pos rfl, List.append_nil]
      exact ⟨takeWhile_all question, behind_none question⟩
    | cons c query =>
      rw [List.isEmpty_cons, if_neg (by simp)]
      exact ⟨takeWhile_part question _, behind_part question _⟩
  have parsed := parseUri_of_parts ⟨.inr text, colon, slash, single⟩
  obtain ⟨first, more, split⟩ := List.exists_cons_of_ne_nil (List.splitOn_ne_nil (ch '/') path)
  rw [parsed, uriOf, user, host_, port, pathOf, target.1, target.2,
    unescape_spelled (urlEncode_spells path true), resolve_marks split, List.nil_append, split]
  rfl

private theorem joined_split (text : Bytes) :
    joined (text.splitOn (ch '/')) = ch '/' :: text ∧ ∀ s ∈ text.splitOn (ch '/'), ch '/' ∉ s := by
  induction text with
  | nil => simp [joined]
  | cons c text ih =>
    obtain ⟨first, more, split⟩ := List.exists_cons_of_ne_nil (List.splitOn_ne_nil (ch '/') text)
    rw [List.splitOn_cons_eq_if_modifyHead, split]
    rw [split] at ih
    obtain ⟨whole, clear⟩ := ih
    by_cases slash : c = ch '/'
    · simp only [slash, beq_self_eq_true, ↓reduceIte]
      refine ⟨congrArg (ch '/' :: ·) whole, fun s member => ?_⟩
      rcases List.mem_cons.mp member with rfl | member
      · simp
      · exact clear s member
    · have other : (c == ch '/') = false := by simpa using slash
      simp only [other, Bool.false_eq_true, ↓reduceIte, List.modifyHead_cons]
      constructor
      · simp only [joined, List.flatMap_cons, List.cons_append, List.cons.injEq, true_and] at whole ⊢
        rw [whole]
      · intro s member
        rcases List.mem_cons.mp member with rfl | member
        · simp [Ne.symm slash, clear first List.mem_cons_self]
        · exact clear s (List.mem_cons_of_mem _ member)

/-- Resolving segments once more changes nothing exactly if only the last one may be a
dot segment. -/
private theorem settle_same_iff {init : List Bytes} {last : Bytes}
    (clear : ∀ s ∈ init ++ [last], ch '/' ∉ s) :
    joined (settle [] (init ++ [last])) = joined (init ++ [last]) ↔ ∀ s ∈ init, ¬IsDot s := by
  constructor
  · intro same
    obtain ⟨kept, shape, clean, within⟩ :=
      settle_shape [] init (fun _ member => absurd member List.not_mem_nil) last
    have clear' : ∀ s ∈ settle [] (init ++ [last]), ch '/' ∉ s := by
      rw [shape]
      intro s member
      rcases List.mem_append.mp member with member | member
      · rcases within s member with none | inside
        · cases none
        · exact clear s (List.mem_append_left _ inside)
      · exact clear s (List.mem_append_right _ member)
    have segments_ := joined_injective clear' clear same
    rw [shape] at segments_
    rw [← (List.append_inj' segments_ rfl).1]
    exact clean
  · intro clean
    rw [settle_clean clean]
    rfl

/-- A dot segment is nowhere but at the very end of the path. -/
structure LastDots (text : Bytes) : Prop where
  last : ∀ piece ∈ (((segments text).getLastD []).splitOn (ch '/')).dropLast, ¬IsDot piece
  hidden : ∀ segment ∈ (segments text).dropLast, ¬Hides segment

/-- An accepted URI is the same when it is printed and parsed again exactly if no escaped
slash hides a dot segment before the end of its path. -/
theorem printed_parsed_iff {text : Bytes} {u : URI} (accepted : parseUri text = .ok u) :
    parseUri u.toString = .ok u ↔ LastDots text := by
  have path : u.path = joined (segments text) := (parseUri_meaning accepted).1
  obtain ⟨kept, last, split, clean⟩ := segments_shape text
  obtain ⟨scheme, authority, target, ⟨-, colon, slash, single⟩, same⟩ := parts_of_parseUri accepted
  have clear : ∀ c ∈ u.host ++ u.port, c ≠ ch '@' ∧ c ≠ ch '/' := by
    rw [same]
    intro c member
    have inside := host_port_subset member
    constructor
    · rintro rfl
      exact single inside
    · rintro rfl
      exact slash (hostPort_subset _ inside)
  have host : ch ':' ∉ u.host := by
    rw [same]
    intro member
    simpa using List.mem_takeWhile_imp member
  obtain ⟨p, path_⟩ : ∃ p, u.path = ch '/' :: p := by
    rw [path, split]
    cases kept with
    | nil => exact ⟨_, rfl⟩
    | cons first kept => exact ⟨_, rfl⟩
  obtain ⟨whole, separate⟩ := joined_split p
  have pieces :
      p.splitOn (ch '/') = (kept.flatMap (·.splitOn (ch '/')) ++ (last.splitOn (ch '/')).dropLast) ++
      [(last.splitOn (ch '/')).getLast (List.splitOn_ne_nil _ _)] := by
    have both := split_joined (segments text)
    rw [← path, path_] at both
    have front : (ch '/' :: p).splitOn (ch '/') = [] :: p.splitOn (ch '/') :=
      List.splitOn_append_cons_self [] p
    rw [front, List.cons.injEq] at both
    rw [both.2, split, List.flatMap_append, List.append_assoc, List.dropLast_concat_getLast]
    simp
  have printed := parse_printed (by rw [same]; exact colon) clear host path_
  have again : parseUri u.toString = .ok u ↔
      joined (settle [] (p.splitOn (ch '/'))) = joined (p.splitOn (ch '/')) := by
    rw [printed, whole, ← path_]
    constructor
    · intro equal
      cases u
      cases equal
      rfl
    · intro equal
      rw [equal]
  rw [again]
  rw [pieces] at separate ⊢
  rw [settle_same_iff separate]
  constructor
  · intro none
    refine ⟨fun piece member => none piece ?_, fun segment member => ?_⟩
    · rw [split, List.getLastD_concat] at member
      exact List.mem_append_right _ member
    · rw [split, List.dropLast_concat] at member
      refine (pieces_clean (clean segment member)).mp fun piece inside => none piece ?_
      exact List.mem_append_left _ (List.mem_flatMap.mpr ⟨segment, member, inside⟩)
  · rintro ⟨last_, hidden⟩ piece member
    rw [split, List.getLastD_concat] at last_
    rw [split, List.dropLast_concat] at hidden
    rcases List.mem_append.mp member with member | member
    · obtain ⟨segment, here, inside⟩ := List.mem_flatMap.mp member
      exact (pieces_clean (clean segment here)).mpr (hidden segment here) piece inside
    · exact last_ piece member

theorem printed_parsed_iff_user :
    ∃ u, parseUri (str "http://u%40:p@h:/a%2fb/%25?x") = .ok u ∧
      (parseUri u.toString = .ok u ↔ LastDots (str "http://u%40:p@h:/a%2fb/%25?x")) := by
  have parsed :
      parseUri (str "http://u%40:p@h:/a%2fb/%25?x") =
      .ok (uriOf (str "http") (str "u%40:p@h:") (str "a%2fb/%25?x")) :=
    parts_of_text (by decide +kernel) (by decide +kernel) (by decide +kernel) (by decide +kernel)
  exact ⟨_, parsed, printed_parsed_iff parsed⟩

/-- The dot segment that an escaped slash hid is resolved the second time. -/
theorem printed_parsed_changes :
    ∃ u, parseUri (str "http://h/a%2f../b") = .ok u ∧ parseUri u.toString ≠ .ok u := by
  have parsed :
      parseUri (str "http://h/a%2f../b") = .ok (uriOf (str "http") (str "h") (str "a%2f../b")) :=
    parts_of_text (by decide +kernel) (by decide +kernel) (by decide +kernel) (by decide +kernel)
  refine ⟨_, parsed, ?_⟩
  intro same
  have path := congrArg (fun result => result.toOption.map URI.path) same
  revert path
  decide +kernel

end Printing

end Crablib.DotSegmentProofs
