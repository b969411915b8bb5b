import Crablib.BodyTextProofs
import Crablib.PairingProofs
import Crablib.ResponseStreamProofs

/-! Responses as a server's user writes them, whole or piece by piece, and what a
client reads of them. A draft is a response that was started; its text grows with
every piece, and can always be completed to one response that the parsers accept. So
a client finds no response in an unfinished draft, and exactly the draft in a
finished one. -/
namespace Crablib.DraftProofs
open Http Scanner BodyParser NumeralProofs ChunkProofs BodyTextProofs HeaderTextProofs
open ResponseTextProofs
open Cutting ResponseStreamProofs
open Exchange (Entry Phase started)

/-- A response that was started: the request it answers, the header as it was sent,
and the body written so far. -/
structure Draft where
  request : Request
  header : ResponseHeader
  pieces : List Bytes := []
  ended : Bool := false

namespace Draft

def body (d : Draft) : Bytes := d.pieces.flatten

def chunk (val : Bytes) : Bytes := hex val.length ++ crlf ++ val ++ crlf

/-- The bytes of the body: as they are where a length was announced, else in chunks. -/
def bodyText (d : Draft) : Bytes :=
  match d.header.contentLength with
  | some _ => d.body
  | none => d.pieces.flatMap chunk ++ if d.ended then str "0\r\n\r\n" else []

def text (d : Draft) : Bytes := d.header.toString ++ d.bodyText

/-- Whether the whole response was written. -/
def Done (d : Draft) : Prop :=
  match d.header.contentLength with
  | some length => d.body.length = length.toNat
  | none => d.ended = true

/-- The response a client reads. -/
def asRead (d : Draft) : Response := { header := parsedAs d.header, body := d.body }

end Draft

/-- A header that a client reads back, with one framing. -/
structure Readable (resp : ResponseHeader) : Prop where
  sendable : ResponseSendable resp
  fits : resp.toString.length ≤ ({} : ResponseParser).maxTotalLength
  framed : resp.transferEncodingChunked = resp.contentLength.isNone

/-- A draft within its framing. -/
structure Proper (d : Draft) : Prop where
  readable : Readable d.header
  counted : ∀ length, d.header.contentLength = some length → d.body.length ≤ length.toNat
  chunked : d.header.contentLength = none → ∀ val ∈ d.pieces, val ≠ [] ∧ val.length < 2 ^ 64

section Reading

variable {d : Draft}

private theorem announced_framing (c : RequestResponseHeader) :
    (announced c).contentLength = c.contentLength ∧ (announced c).transferEncodingChunked =
      c.transferEncodingChunked := by
  unfold announced
  simp only
  split
  · exact ⟨rfl, rfl⟩
  · split
    · exact ⟨rfl, rfl⟩
    · split <;> exact ⟨rfl, rfl⟩

/-- A header and a body that is read as announced are one response. -/
private theorem first_response {resp : ResponseHeader} (readable : Readable resp) {bytes body : Bytes}
    (carried : ∃ q, (make resp.contentLength resp.transferEncodingChunked).parse bytes =
      .ok (q, []) ∧ q.isGood = true ∧ q.body = body) :
    responseCutter.first (resp.toString ++ bytes) =
      some ({ header := parsedAs resp, body := body }, []) := by
  obtain ⟨p, parsed, good, same⟩ := response_parsed readable.sendable readable.fits
  obtain ⟨q, read, good', rfl⟩ := carried
  obtain ⟨length, chunked⟩ := announced_framing resp.toRequestResponseHeader
  have framing : p.req.contentLength = resp.contentLength ∧
      p.req.transferEncodingChunked = resp.transferEncodingChunked := by
    rw [same]
    exact ⟨length, chunked⟩
  refine responseCutter_first.mpr ⟨p, bytes, q, scan_whole parsed good bytes, good,
    ?_, good', by rw [same]⟩
  rw [framing.1, framing.2]
  exact read

/-- Pieces in chunks of their own. -/
private def inChunks (pieces : List Bytes) : Chunked where
  chunks := pieces.map fun val => ({ digits := hex val.length }, val)
  last := { digits := str "0" }
  trailers := []

private theorem inChunks_fits {pieces : List Bytes}
    (small : ∀ val ∈ pieces, val ≠ [] ∧ val.length < 2 ^ 64) {before : Nat} (first : before ≤ 2) :
    Fits before ((inChunks pieces).chunks.map Prod.fst ++ [(inChunks pieces).last]) := by
  induction pieces generalizing before with
  | nil =>
    have one : (SizeLine.text { digits := str "0" }).length = 1 := rfl
    refine ⟨?_, trivial⟩
    show before + (SizeLine.text { digits := str "0" }).length + 2 ≤ maxChunkHeaderTotalLength
    rw [one, maxChunkHeaderTotalLength]
    omega
  | cons val pieces ih =>
    have few : (hex val.length).length ≤ 15 + 1 :=
      hex_length (by simpa using (small val List.mem_cons_self).2)
    refine ⟨?_, ih (fun v member => small v (List.mem_cons_of_mem _ member)) (Nat.le_refl 2)⟩
    simp only [SizeLine.text, List.append_nil, maxChunkHeaderTotalLength]
    omega

private theorem inChunks_valid {pieces : List Bytes}
    (small : ∀ val ∈ pieces, val ≠ [] ∧ val.length < 2 ^ 64) :
    (inChunks pieces).Valid where
  chunks := by
    intro chunk member
    obtain ⟨val, piece, rfl⟩ := List.mem_map.mp member
    exact ⟨(small val piece).1, (small val piece).2, hex_spells _, .inl rfl, by simp⟩
  last := zero_spells
  lines := inChunks_fits small (Nat.zero_le 2)
  trailers := by simp [inChunks]
  trailing := show (trailersText []).length ≤ maxTrailersTotalLength by decide

/-- Any number of pieces in chunks, and the last chunk. -/
private theorem parse_pieces {pieces : List Bytes}
    (small : ∀ val ∈ pieces, val ≠ [] ∧ val.length < 2 ^ 64) :
    ∃ q, (make none true).parse (pieces.flatMap Draft.chunk ++ str "0\r\n\r\n") = .ok (q, []) ∧
      q.isGood = true ∧ q.body = pieces.flatten := by
  obtain ⟨q, good, same, takes⟩ := takes_chunked (inChunks pieces) (inChunks_valid small) none
  have text : (inChunks pieces).text = pieces.flatMap Draft.chunk ++ str "0\r\n\r\n" := by
    have last : str "0\r\n\r\n" = str "0" ++ crlf ++ crlf := rfl
    have chunks : (inChunks pieces).chunks.flatMap chunkText = pieces.flatMap Draft.chunk := by
      simp only [inChunks, List.flatMap_map]
      congr 1
      funext val
      simp [chunkText, SizeLine.text, Draft.chunk]
    rw [Chunked.text, chunks, last]
    simp [inChunks, SizeLine.text, trailersText]
  have whole := takes []
  rw [List.append_nil, scan_nil, text] at whole
  refine ⟨q, (parse_scan (ParserProofs.make_sound _ _) _).trans whole, good, same.trans ?_⟩
  simp [Chunked.body, inChunks, Function.comp_def]

/-- More text completes the draft to one response. Where none is needed the draft is
done, and it is that response. -/
theorem Proper.completes (proper : Proper d) :
    ∃ more resp, responseCutter.first (d.text ++ more) = some (resp, []) ∧ (d.Done ↔ more = []) ∧
      (more = [] → resp = d.asRead) := by
  have framed := proper.readable.framed
  cases length : d.header.contentLength with
  | some n =>
    have within := proper.counted n length
    refine ⟨List.replicate (n.toNat - d.body.length) 0,
      { header := parsedAs d.header, body := d.body ++ List.replicate (n.toNat - d.body.length) 0 },
      ?_, ?_, ?_⟩
    · rw [Draft.text, List.append_assoc]
      refine first_response proper.readable ?_
      rw [framed, length]
      have text : d.bodyText = d.body := by simp only [Draft.bodyText, length]
      rw [text]
      refine parse_counted ?_
      rw [List.length_append, List.length_replicate]
      omega
    · simp only [Draft.Done, length, List.replicate_eq_nil_iff]
      omega
    · intro none
      rw [none]
      simp [Draft.asRead]
  | none =>
    have pieces := parse_pieces (proper.chunked length)
    refine ⟨if d.ended then [] else str "0\r\n\r\n", d.asRead, ?_, ?_, fun _ => rfl⟩
    · have text :
          d.bodyText ++ (if d.ended then [] else str "0\r\n\r\n") =
          d.pieces.flatMap Draft.chunk ++ str "0\r\n\r\n" := by
        simp only [Draft.bodyText, length]
        cases d.ended <;> simp
      rw [Draft.text, List.append_assoc, text]
      refine first_response proper.readable ?_
      rw [framed, length]
      exact pieces
    · simp only [Draft.Done, length]
      cases d.ended <;> simp [str]

/-- The drafts of one connection: each is within its framing, and only the last one
may be unfinished. -/
structure Drafted (drafts : List Draft) : Prop where
  proper : ∀ d ∈ drafts, Proper d
  done : ∀ d ∈ drafts.dropLast, d.Done

private theorem cuts_done {drafts : List Draft} (proper : ∀ d ∈ drafts, Proper d)
    (done : ∀ d ∈ drafts, d.Done) :
    Cuts responseCutter (drafts.flatMap Draft.text) (drafts.map Draft.asRead) [] := by
  refine cuts_flatten fun d member => ?_
  obtain ⟨more, resp, first, finished, same⟩ := (proper d member).completes
  have none := finished.mp (done d member)
  rw [none, List.append_nil] at first
  rw [first, same none]

/-- A client reads all the drafts that are done. -/
theorem read_done {drafts : List Draft} (proper : ∀ d ∈ drafts, Proper d) (done : ∀ d ∈ drafts, d.Done) :
    messages responseCutter (drafts.flatMap Draft.text) = drafts.map Draft.asRead := by
  rw [(cuts_done proper done).messages_eq, messages_none rfl, List.append_nil]

/-- A client reads the drafts in order, and nothing of an unfinished one. -/
theorem read_drafts {drafts : List Draft} (drafted : Drafted drafts) :
    ∃ front back, drafts = front ++ back ∧ (∀ d ∈ front, d.Done) ∧
      messages responseCutter (drafts.flatMap Draft.text) = front.map Draft.asRead := by
  rcases List.eq_nil_or_concat drafts with rfl | ⟨front, last, rfl⟩
  · exact ⟨[], [], rfl, by simp, messages_none rfl⟩
  · have done := drafted.done
    rw [List.concat_eq_append, List.dropLast_concat] at done
    have proper : ∀ d ∈ front, Proper d := fun d member => drafted.proper d (by simp [member])
    obtain ⟨more, resp, first, finished, -⟩ := (drafted.proper last (by simp)).completes
    by_cases none : more = []
    · have all : ∀ d ∈ front ++ [last], d.Done := by
        intro d member
        rcases List.mem_append.mp member with old | new
        · exact done d old
        · rw [List.mem_singleton.mp new]
          exact finished.mpr none
      rw [List.concat_eq_append] at drafted ⊢
      exact ⟨front ++ [last], [], (List.append_nil _).symm, all, read_done drafted.proper all⟩
    · have whole := ((cuts_done proper done).append last.text).messages_eq
      rw [List.nil_append, messages_none (first_proper first none), List.append_nil] at whole
      refine ⟨front, [last], List.concat_eq_append, done, ?_⟩
      rw [List.concat_eq_append, List.flatMap_append, List.flatMap_singleton]
      exact whole

end Reading

section Writing

/-- The last draft changed. -/
def onLast (change : Draft → Draft) : List Draft → List Draft
  | [] => []
  | [d] => [change d]
  | d :: later :: drafts => d :: onLast change (later :: drafts)

private theorem onLast_append (change : Draft → Draft) (front : List Draft) (d : Draft) :
    onLast change (front ++ [d]) = front ++ [change d] := by
  induction front with
  | nil => rfl
  | cons first front ih =>
    cases front with
    | nil => rfl
    | cons second front => exact congrArg (first :: ·) ih

def addPiece (val : Bytes) (d : Draft) : Draft := { d with pieces := d.pieces ++ [val] }

def finish (d : Draft) : Draft := { d with ended := true }

/-- The drafts after an entry of the log; a response that starts has this header and
answers this request. -/
def note (request : Request) (header : ResponseHeader) (drafts : List Draft) : Entry → List Draft
  | .header _ _ => drafts ++ [{ request := request, header := header }]
  | .data val => onLast (addPiece val) drafts
  | .chunk val _ => onLast (addPiece val) drafts
  | .complete _ => onLast finish drafts
  | _ => drafts

/-- The entries that a connection makes for responses that can be read. -/
def Authentic (header : ResponseHeader) : Phase → Entry → Prop
  | _, .header block length =>
    Readable header ∧ block = header.toString ∧ length = header.contentLength.map UInt64.toNat
  | _, .chunk val payload => val ≠ [] ∧ val.length < 2 ^ 64 ∧ payload = Draft.chunk val
  | .chunked, .complete terminator => terminator = str "0\r\n\r\n"
  | _, .complete terminator => terminator = []
  | _, .upgrade _ => False
  | _, _ => True

/-- The same for a log that starts in a phase. -/
def AuthenticLog (header : ResponseHeader) : Phase → List Entry → Prop
  | _, [] => True
  | phase, e :: log =>
    Authentic header phase e ∧ ∀ next, Exchange.advance phase e = some next →
      AuthenticLog header next log

/-- How the drafts stand in a phase of the exchange. -/
def Standing (phase : Phase) (drafts : List Draft) : Prop :=
  (∀ d ∈ drafts, Proper d) ∧
    match phase with
    | .idle => ∀ d ∈ drafts, d.Done
    | .owed => ∀ d ∈ drafts, d.Done
    | .counted left => ∃ front d length, drafts = front ++ [d] ∧ (∀ e ∈ front, e.Done) ∧
        d.header.contentLength = some length ∧ d.body.length + left = length.toNat
    | .chunked => ∃ front d, drafts = front ++ [d] ∧ (∀ e ∈ front, e.Done) ∧
        d.header.contentLength = none ∧ d.ended = false
    | .upgraded => False

variable {phase next last : Phase} {drafts : List Draft} {request : Request}
    {header : ResponseHeader} {e : Entry} {log : List Entry}

theorem Standing.drafted (standing : Standing phase drafts) : Drafted drafts := by
  obtain ⟨proper, stands⟩ := standing
  refine ⟨proper, ?_⟩
  have all : (∀ d ∈ drafts, d.Done) → ∀ d ∈ drafts.dropLast, d.Done :=
    fun done d member => done d (List.dropLast_subset drafts member)
  cases phase with
  | idle => exact all stands
  | owed => exact all stands
  | counted left =>
    obtain ⟨front, d, length, rfl, done, -⟩ := stands
    rwa [List.dropLast_concat]
  | chunked =>
    obtain ⟨front, d, rfl, done, -⟩ := stands
    rwa [List.dropLast_concat]
  | upgraded => exact stands.elim

/-- A response that starts. -/
private theorem note_header {block : Bytes} {length : Option Nat} (proper : ∀ d ∈ drafts, Proper d)
    (done : ∀ d ∈ drafts, d.Done) (authentic : Authentic header .owed (.header block length)) :
    Standing (started length) (note request header drafts (.header block length)) ∧
      (note request header drafts (.header block length)).flatMap Draft.text =
        drafts.flatMap Draft.text ++ block := by
  obtain ⟨readable, rfl, rfl⟩ := authentic
  have fresh : Proper { request := request, header := header } :=
    ⟨readable, fun length _ => Nat.zero_le _, fun _ val member => by cases member⟩
  have all :
      ∀ d ∈ note request header drafts
        (.header header.toString (header.contentLength.map UInt64.toNat)), Proper d := by
    intro d member
    rcases List.mem_append.mp member with old | new
    · exact proper d old
    · rw [List.mem_singleton.mp new]
      exact fresh
  constructor
  · refine ⟨all, ?_⟩
    cases length : header.contentLength with
    | none => exact ⟨drafts, _, rfl, done, length, rfl⟩
    | some n => exact ⟨drafts, _, n, rfl, done, length, Nat.zero_add _⟩
  · simp only [note, List.flatMap_append, List.flatMap_singleton]
    congr 1
    simp only [Draft.text, Draft.bodyText, Draft.body]
    cases header.contentLength <;> simp

@[simp] theorem addPiece_body (val : Bytes) (d : Draft) : (addPiece val d).body = d.body ++ val := by
  simp [addPiece, Draft.body]

private theorem finish_proper {d : Draft} (proper : Proper d) : Proper (finish d) :=
  ⟨proper.readable, proper.counted, proper.chunked⟩

/-- A change of the last draft that adds bytes to its text. -/
private theorem change_last {front : List Draft} {d d' : Draft} {bytes : Bytes}
    (proper : ∀ e ∈ front ++ [d], Proper e) (changed : Proper d') (text : d'.text = d.text ++ bytes) :
    (∀ e ∈ front ++ [d'], Proper e) ∧
      (front ++ [d']).flatMap Draft.text = (front ++ [d]).flatMap Draft.text ++ bytes := by
  constructor
  · intro e member
    rcases List.mem_append.mp member with old | new
    · exact proper e (List.mem_append_left _ old)
    · rw [List.mem_singleton.mp new]
      exact changed
  · rw [List.flatMap_append, List.flatMap_append, List.flatMap_singleton, List.flatMap_singleton,
      text, List.append_assoc]

/-- One entry moves the drafts along with the phase, and adds its bytes to their text. -/
private theorem note_step (request : Request) (standing : Standing phase drafts)
    (advances : Exchange.advance phase e = some next) (authentic : Authentic header phase e) :
    Standing next (note request header drafts e) ∧
      (note request header drafts e).flatMap Draft.text = drafts.flatMap Draft.text ++ e.bytes := by
  obtain ⟨proper, stands⟩ := standing
  unfold Exchange.advance at advances
  split at advances
  · cases advances
    exact ⟨⟨proper, stands⟩, (List.append_nil _).symm⟩
  · cases advances
    exact note_header proper stands authentic
  · exact authentic.elim
  · rename_i left val
    split at advances
    · rename_i fits
      cases advances
      obtain ⟨front, d, length, rfl, done, announced, total⟩ := stands
      have within : d.body.length + val.length ≤ length.toNat := by omega
      have changed : Proper (addPiece val d) := by
        refine ⟨(proper d (by simp)).readable, fun n same => ?_, fun none => ?_⟩
        · have counted : some n = some length := same.symm.trans announced
          rw [addPiece_body, List.length_append, Option.some.inj counted]
          exact within
        · exact absurd (announced.symm.trans none) (by simp)
      have text : (addPiece val d).text = d.text ++ val := by
        have body := addPiece_body val d
        simp only [Draft.text, Draft.bodyText, show (addPiece val d).header = d.header from rfl,
          announced, body, List.append_assoc]
      obtain ⟨proper', same⟩ := change_last proper changed text
      simp only [note, onLast_append]
      refine ⟨⟨proper', front, addPiece val d, length, rfl, done, announced, ?_⟩, same⟩
      rw [addPiece_body, List.length_append]
      omega
    · cases advances
  · rename_i terminator
    cases advances
    obtain ⟨front, d, length, rfl, done, announced, total⟩ := stands
    have none : terminator = [] := authentic
    have kept := proper d (by simp)
    have text : (finish d).text = d.text ++ [] := by
      simp only [Draft.text, Draft.bodyText, finish, Draft.body, announced, List.append_nil]
    obtain ⟨proper', same⟩ := change_last proper (finish_proper kept) text
    simp only [note, onLast_append, none]
    refine ⟨⟨proper', ?_⟩, same⟩
    intro e member
    rcases List.mem_append.mp member with old | new
    · exact done e old
    · rw [List.mem_singleton.mp new]
      simp only [Draft.Done, finish, announced]
      exact total
  · rename_i val payload
    cases advances
    obtain ⟨front, d, rfl, done, announced, running⟩ := stands
    obtain ⟨some_, small, rfl⟩ := authentic
    have kept := proper d (by simp)
    have changed : Proper (addPiece val d) := by
      refine ⟨kept.readable, fun n same => ?_, fun none v member => ?_⟩
      · exact absurd (announced.symm.trans same) (by simp)
      · rcases List.mem_append.mp member with old | new
        · exact kept.chunked none v old
        · rw [List.mem_singleton.mp new]
          exact ⟨some_, small⟩
    have text : (addPiece val d).text = d.text ++ Draft.chunk val := by
      simp [Draft.text, Draft.bodyText, addPiece, announced, running]
    obtain ⟨proper', same⟩ := change_last proper changed text
    simp only [note, onLast_append]
    exact ⟨⟨proper', front, addPiece val d, rfl, done, announced, running⟩, same⟩
  · rename_i terminator
    cases advances
    obtain ⟨front, d, rfl, done, announced, running⟩ := stands
    have last : terminator = str "0\r\n\r\n" := authentic
    have kept := proper d (by simp)
    have text : (finish d).text = d.text ++ terminator := by
      simp [Draft.text, Draft.bodyText, finish, announced, running, last]
    obtain ⟨proper', same⟩ := change_last proper (finish_proper kept) text
    simp only [note, onLast_append]
    refine ⟨⟨proper', ?_⟩, same⟩
    intro e member
    rcases List.mem_append.mp member with old | new
    · exact done e old
    · rw [List.mem_singleton.mp new]
      simp only [Draft.Done, finish, announced]
  · cases advances
    exact stands.elim
  · cases advances

/-- So does a whole log. -/
theorem notes_run (request : Request) (standing : Standing phase drafts)
    (ran : Exchange.run phase log = some last) (authentic : AuthenticLog header phase log) :
    Standing last (log.foldl (note request header) drafts) ∧
      (log.foldl (note request header) drafts).flatMap Draft.text = drafts.flatMap Draft.text ++
        log.flatMap Entry.bytes := by
  induction log generalizing phase drafts with
  | nil =>
    cases ran
    exact ⟨standing, by simp⟩
  | cons e log ih =>
    rw [Exchange.run_cons, Option.bind_eq_some_iff] at ran
    obtain ⟨next, advances, rest⟩ := ran
    obtain ⟨first, later⟩ := authentic
    obtain ⟨standing', text⟩ := note_step request standing advances first
    obtain ⟨standing'', text'⟩ := ih standing' rest (later next advances)
    exact ⟨standing'', by rw [List.foldl_cons, text', text, List.flatMap_cons, List.append_assoc]⟩

private theorem addPiece_request (val : Bytes) (d : Draft) : (addPiece val d).request = d.request := rfl

private theorem finish_request (d : Draft) : (finish d).request = d.request := rfl

private theorem onLast_request {change : Draft → Draft} (same : ∀ d, (change d).request = d.request)
    (drafts : List Draft) :
    (onLast change drafts).map Draft.request = drafts.map Draft.request := by
  fun_induction onLast change drafts with
  | case1 => rfl
  | case2 d => simp [same]
  | case3 d later drafts ih => simp [ih]

/-- Every header block of a log starts a draft that answers the request. -/
theorem notes_answer (request : Request) (drafts : List Draft)
    (ran : Exchange.run phase log = some last) (authentic : AuthenticLog header phase log) :
    (log.foldl (note request header) drafts).map Draft.request =
      drafts.map Draft.request ++ List.replicate (Exchange.blocks log) request := by
  induction log generalizing phase drafts with
  | nil => simp [Exchange.blocks]
  | cons e log ih =>
    rw [Exchange.run_cons, Option.bind_eq_some_iff] at ran
    obtain ⟨next, advances, rest⟩ := ran
    obtain ⟨first, later⟩ := authentic
    have noted : (note request header drafts e).map Draft.request =
        drafts.map Draft.request ++ if e.isBlock then [request] else [] := by
      cases e with
      | header block length => simp [note, Exchange.Entry.isBlock]
      | data val =>
        have same := onLast_request (addPiece_request val) drafts
        simpa [note, Exchange.Entry.isBlock] using same
      | chunk val payload =>
        have same := onLast_request (addPiece_request val) drafts
        simpa [note, Exchange.Entry.isBlock] using same
      | complete terminator =>
        have same := onLast_request finish_request drafts
        simpa [note, Exchange.Entry.isBlock, finish] using same
      | upgrade block => cases phase <;> exact first.elim
      | request => simp [note, Exchange.Entry.isBlock]
      | web payload => simp [note, Exchange.Entry.isBlock]
    rw [List.foldl_cons, ih _ rest (later next advances), noted]
    cases block : e.isBlock with
    | false => simp [Exchange.blocks, block]
    | true => simp [Exchange.blocks, block, List.replicate_succ]

/-- The drafts answer the requests that were delivered, in order, and only the last
request may wait for its response to start. -/
structure Answering (phase : Phase) (requests : List Request) (drafts : List Draft) : Prop where
  answers : drafts.map Draft.request <+: requests
  owed : requests.length = drafts.length + phase.debt

/-- What is written between two requests answers the last one. -/
theorem Answering.writes {requests : List Request} (answering : Answering phase requests drafts)
    (ran : Exchange.run phase log = some last) (quiet : Exchange.requests log = 0)
    (current : ∀ r, requests.getLast? = some r → request = r)
    (authentic : AuthenticLog header phase log) :
    Answering last requests (log.foldl (note request header) drafts) := by
  have balance := Exchange.run_balance ran
  have noted := notes_answer request drafts ran authentic
  have length :
      (log.foldl (note request header) drafts).length = drafts.length + Exchange.blocks log := by
    have counted := congrArg List.length noted
    simpa using counted
  have owed := answering.owed
  have small : phase.debt ≤ 1 := by cases phase <;> simp [Phase.debt]
  refine ⟨?_, by omega⟩
  rw [noted]
  by_cases none : Exchange.blocks log = 0
  · simpa [none] using answering.answers
  · have one : Exchange.blocks log = 1 := by omega
    obtain ⟨later, same⟩ := answering.answers
    have single : later.length = 1 := by
      have total := congrArg List.length same
      rw [List.length_append, List.length_map] at total
      omega
    obtain ⟨r, rfl⟩ := List.length_eq_one_iff.mp single
    have named : request = r := current r (by rw [← same]; simp)
    rw [one, ← same, named]
    exact List.prefix_rfl

end Writing
end Crablib.DraftProofs
