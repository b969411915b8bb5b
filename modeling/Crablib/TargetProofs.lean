import Crablib.Http.Types

/-! The target of a request set and read back. `set_uri` forgets an earlier query
only for a target that has one, and `get_uri` gives nothing for one that has none. -/
namespace Crablib.TargetProofs
open Http

/-- The target ends in a `?` that has nothing behind it. -/
def LoneMark (uri : Bytes) : Prop := ∃ path, uri = path ++ [ch '?'] ∧ ch '?' ∉ path

/-- A header on which targets were set one after another. -/
def setUris (req : RequestHeader) (uris : List Bytes) : RequestHeader :=
  uris.foldl RequestHeader.setUri req

theorem setUri_query {path : Bytes} (plain : ch '?' ∉ path) (req : RequestHeader) (query : Bytes) :
    req.setUri (path ++ ch '?' :: query) = { req with path := path, queryString := query } := by
  rw [RequestHeader.setUri, findIdx?_first plain]
  simp only [List.take_left, List.drop_append,
    List.drop_eq_nil_of_le (Nat.le_add_right path.length 1), Nat.add_sub_cancel_left]
  rfl

theorem setUri_plain {uri : Bytes} (plain : ch '?' ∉ uri) (req : RequestHeader) :
    req.setUri uri = { req with path := uri } := by
  rw [RequestHeader.setUri, findIdx?_absent plain]

/-- For a target with a query both functions agree, whatever was set before. -/
theorem set_query {uri : Bytes} (mark : ch '?' ∈ uri) (lone : ¬LoneMark uri) (req : RequestHeader) :
    (req.setUri uri).getUri = uri := by
  obtain ⟨path, query, split, plain⟩ := List.eq_append_cons_of_mem mark
  have set := setUri_query plain req query
  rw [← split] at set
  have more : query ≠ [] := by
    rintro rfl
    exact lone ⟨path, split, plain⟩
  rw [set, RequestHeader.getUri, if_neg (by rwa [List.isEmpty_iff]), split, List.append_assoc]
  rfl

/-- A target without a query is read back only where nothing is there to read. -/
theorem get_plain {uri : Bytes} (plain : ch '?' ∉ uri) (req : RequestHeader) :
    (req.setUri uri).getUri = uri ↔ uri = [] ∧ req.queryString = [] := by
  rw [setUri_plain plain, RequestHeader.getUri]
  cases query : req.queryString with
  | nil => simp [eq_comm]
  | cons c rest =>
    refine iff_of_false (fun same => plain ?_) fun both => by cases both.2
    have member : ch '?' ∈ uri ++ str "?" ++ c :: rest := by simp [show str "?" = [ch '?'] from rfl]
    simp only [List.isEmpty_cons, Bool.false_eq_true, if_false] at same
    rwa [same] at member

/-- What is set is read back, and nothing depends on what was set before, exactly if
the target has a query. -/
theorem target_iff (req : RequestHeader) {uri : Bytes} (lone : ¬LoneMark uri) :
    ((∀ uris, ((setUris req uris).setUri uri).getUri = uri) ∧
      ∀ uris, ((setUris req uris).setUri uri).path = (req.setUri uri).path ∧
        ((setUris req uris).setUri uri).queryString = (req.setUri uri).queryString) ↔ ch '?' ∈ uri := by
  constructor
  · intro ⟨readBack, _⟩
    apply Classical.byContradiction
    intro plain
    -- a query that was set before is still there
    have unmarked : ch '?' ∉ ([] : Bytes) := by simp
    have earlier : setUris req [str "?a"] = { req with path := [], queryString := str "a" } :=
      setUri_query unmarked req (str "a")
    have stale := ((get_plain plain _).mp (readBack [str "?a"])).2
    rw [earlier] at stale
    cases stale
  · intro mark
    refine ⟨fun uris => ?_, fun uris => ?_⟩
    · exact set_query mark lone (setUris req uris)
    · obtain ⟨path, query, split, plain⟩ := List.eq_append_cons_of_mem mark
      rw [split, setUri_query plain, setUri_query plain]
      exact ⟨rfl, rfl⟩

theorem target_iff_search :
    ((∀ uris, ((setUris {} uris).setUri (str "/find?q=1")).getUri = str "/find?q=1") ∧
    ∀ uris, ((setUris {} uris).setUri (str "/find?q=1")).path =
      (RequestHeader.setUri {} (str "/find?q=1")).path ∧
      ((setUris {} uris).setUri (str "/find?q=1")).queryString =
        (RequestHeader.setUri {} (str "/find?q=1")).queryString) ↔
    ch '?' ∈ str "/find?q=1" := by
  refine target_iff {} ?_
  rintro ⟨path, split, plain⟩
  have last := congrArg List.getLast? split
  rw [List.getLast?_append, show (str "/find?q=1").getLast? = some (ch '1') from rfl] at last
  exact absurd (Option.some.inj last) (by decide)

/-- A target without a query is lost, and takes over the query of an earlier one. -/
theorem target_lost : ((setUris {} []).setUri (str "/a")).getUri = [] ∧
    ((setUris {} [str "/find?q=1"]).setUri (str "/a")).getUri = str "/a?q=1" := by
  decide +kernel

end Crablib.TargetProofs
