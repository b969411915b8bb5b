import Crablib.SpeakingProofs

/-! What a server connection puts on the wire while its user answers with responses
that a client can read: the texts of the drafts, one for each request in the order in
which the requests were delivered. -/
namespace Crablib.AnsweringProofs
open Http ServerConnection ServerRun StreamsProofs SocketProofs ServerConnectionProofs
open ServerEndProofs PairingProofs
open DraftProofs SpeakingProofs
open Exchange (Entry Phase started)

variable {c d : ServerConnection}

section Ending

private theorem dead_stream (dead : Dead c) (op : ServerOp) (same : reopens op = false) :
    stream (perform c op).conn.sock <+: stream c.sock := by
  have unheard := dead.closed
  simp only [isOpen, BufferedTcpSocket.isOpen, TcpSocket.isOpen, Bool.or_eq_false_iff] at unheard
  obtain ⟨invalid, idle⟩ := unheard
  have throws : c.isWritingBody = false := by simp [isWritingBody, dead.state, dead.plain]
  cases op with
  | accept accepted =>
    cases accepted with
    | missing => exact stream_close c.sock false
    | ready => simp [reopens] at same
    | refused => simp [reopens] at same
  | close => exact stream_close c.sock false
  | readNextRequest => simp [perform, readNextRequest, dead.state]
  | readNextMessage => simp [perform, readNextMessage, dead.state]
  | webSocketUpgrade => simp [perform, webSocketUpgrade, dead.closed, settle, pure, Except.pure]
  | writeResponse resp => simp [perform, writeResponse, dead.closed]
  | writeHeader resp bo => simp [perform, writeHeader, dead.closed, settle, pure, Except.pure]
  | writeMessage message bo => simp [perform, writeMessage, dead.closed, settle, pure, Except.pure]
  | writeOpcode opcode => simp [perform, writeOpcode, dead.closed, settle, pure, Except.pure]
  | writeData val bo =>
    simp [perform, writeData, writeBody, throws, invariant, settle, bind, Except.bind]
  | writeString ss bo =>
    simp [perform, writeString, writeBody, throws, invariant, settle, bind, Except.bind]
  | writeLastChunk bo => simp [perform, writeLastChunk, throws, invariant, settle, bind, Except.bind]
  | arrive arrivals => simp [perform, TcpSocket.arrive, invalid]
  | plan sends => exact List.prefix_rfl
  | notify canRead canWrite => simp [perform, TcpSocket.notify, invalid]
  | dispatch => simp [perform, dispatch, idle]
  | pingTimer => simp [perform, onWmPingTimer, dead.pingTimer, settle, pure, Except.pure]
  | shutdownTimer => simp [perform, shutdownTimerHandler, dead.shutdownTimer]

private theorem alive_settle {result : Except Error ServerConnection} (serving : Serving c)
    (alive : ∀ d, result = .ok d → d.isOpen = true) : (settle c result).conn.isOpen = true :=
  settle_conn (P := fun d => d.isOpen = true) serving.opened alive

/-- Of a connection that serves requests, only an event, a timer or a close make a
closed one, and they do not add to its stream. -/
private theorem serving_stream (serving : Serving c) (op : ServerOp) (same : reopens op = false)
    (dead : Dead (perform c op).conn) : stream (perform c op).conn.sock <+: stream c.sock := by
  have alive : (perform c op).conn.isOpen = true →
      stream (perform c op).conn.sock <+: stream c.sock := by
    intro opened
    exact absurd opened (by simp [dead.closed])
  have talks : ∀ {message : WebMessage} {bo : BufferOptions} {e : ServerConnection},
      c.writeMessage message bo = .ok e → e = c := by
    intro message bo e done
    obtain ⟨-, rfl⟩ | ⟨-, web, -⟩ := writeMessage_ok done
    · rfl
    · simp [serving.http] at web
  cases op with
  | accept accepted =>
    cases accepted with
    | missing => exact stream_close c.sock false
    | ready => simp [reopens] at same
    | refused => simp [reopens] at same
  | close => exact stream_close c.sock false
  | readNextRequest =>
    refine alive ?_
    simp only [perform, readNextRequest]
    split
    · exact serving.opened
    · rename_i ready
      have state : c.state = .requestReady := by simpa using ready
      have taken : Serving c.takeRequest := by
        refine ⟨serving.opened, rfl, serving.plain, fun asked => ?_⟩
        exact absurd state (serving.ended asked).1.unready
      exact (step_advanceState taken).serving.opened
  | readNextMessage =>
    have unready : c.state ≠ .web .ready := by
      intro web
      simpa [isStateWebsocket, web] using serving.http
    simp [perform, readNextMessage, unready]
  | webSocketUpgrade =>
    refine alive (alive_settle serving fun e done => ?_)
    obtain ⟨-, rfl⟩ | ⟨opened, -, -, rfl⟩ := webSocketUpgrade_ok done
    · exact serving.opened
    · exact (writeString_extends c.sock c.upgradeResponse.toString .write).isOpen.trans opened
  | writeResponse resp =>
    refine alive ?_
    rw [perform, settleAfter_conn]
    exact (step_writeResponse serving resp).serving.opened
  | writeHeader resp bo =>
    exact alive (alive_settle serving fun e done => (step_writeHeader serving done).serving.opened)
  | writeMessage message bo =>
    exact alive (alive_settle serving fun e done => talks done ▸ serving.opened)
  | writeOpcode opcode =>
    refine alive (alive_settle serving fun e done => ?_)
    obtain ⟨-, rfl⟩ | ⟨-, web, -⟩ := writeOpcode_ok done
    · exact serving.opened
    · simp [serving.http] at web
  | writeData val bo =>
    exact alive (alive_settle serving fun e done =>
      (step_writeBody (fun s => write_extends s val bo) serving done).serving.opened)
  | writeString ss bo =>
    exact alive (alive_settle serving fun e done =>
      (step_writeBody (fun s => writeString_extends s ss bo) serving done).serving.opened)
  | writeLastChunk bo =>
    exact alive (alive_settle serving fun e done => (step_writeLastChunk serving done).serving.opened)
  | arrive arrivals =>
    simp only [perform, TcpSocket.arrive]
    split <;> exact List.prefix_rfl
  | plan sends => exact List.prefix_rfl
  | notify canRead canWrite =>
    simp only [perform, TcpSocket.notify]
    split <;> exact List.prefix_rfl
  | dispatch =>
    have handled : stream c.socketEvent.sock <+: stream c.sock :=
      stream_sockHandler { c.sock with sock.pending := false }
    simp only [perform, dispatch] at dead ⊢
    split
    · rename_i pending
      rw [if_pos pending] at dead
      unfold ServerConnection.sockHandler at dead ⊢
      split
      · exact (stream_close _ false).trans handled
      · rename_i open_
        have opened : c.socketEvent.sock.isOpen = true := by simpa [isOpen] using open_
        split
        · exact handled
        · rename_i reads
          have spec := sockHandler_keeps { c.sock with sock.pending := false } opened
          have event := step_of_sock serving opened spec.1 (fun shut => shut_sockHandler shut) spec.2
          rw [if_neg open_, if_neg reads] at dead
          have alive := (step_advanceState event.serving).serving.opened
          exact absurd alive (by simpa [socketEvent] using dead.closed)
    · exact List.prefix_rfl
  | pingTimer =>
    refine alive (alive_settle serving fun e done => ?_)
    obtain rfl | ⟨pinged, rfl, rfl | sent⟩ := onWmPingTimer_ok done
    · exact serving.opened
    · exact (writeString_extends c.sock [] .write).isOpen.trans serving.opened
    · obtain ⟨-, rfl⟩ | ⟨-, web, -⟩ := writeMessage_ok sent
      · exact serving.opened
      · have http := serving.http
        simp_all [isStateWebsocket]
  | shutdownTimer =>
    simp only [perform, shutdownTimerHandler]
    split
    · have closed : c.sock.shutdownTimerHandler.isOpen = false := close_isOpen_false _
      simp only [ServerConnection.sockHandler, isOpen, closed, Bool.not_false, ↓reduceIte]
      exact (stream_close _ false).trans (stream_close _ false)
    · exact List.prefix_rfl

/-- A connection that ends adds nothing to its stream. -/
private theorem ended_stream (mode : Serving c ∨ Dead c) (op : ServerOp) (same : reopens op = false)
    (dead : Dead (perform c op).conn) : stream (perform c op).conn.sock <+: stream c.sock := by
  rcases mode with serving | silent
  · exact serving_stream serving op same dead
  · exact dead_stream silent op same

end Ending

section Entries

variable {header : ResponseHeader} {phase : Phase}

private theorem authentic_append {front back : List Entry} (first : AuthenticLog header phase front)
    (second : ∀ middle, Exchange.run phase front = some middle → AuthenticLog header middle back) :
    AuthenticLog header phase (front ++ back) := by
  induction front generalizing phase with
  | nil => exact second phase rfl
  | cons e front ih =>
    refine ⟨first.1, fun next advances => ih (first.2 next advances) fun middle ran => second middle ?_⟩
    rw [Exchange.run_cons, advances]
    exact ran

private theorem authentic_one {e : Entry} (authentic : Authentic header phase e) :
    AuthenticLog header phase [e] :=
  ⟨authentic, fun _ _ => trivial⟩

private theorem authentic_header {resp : ResponseHeader} (readable : Readable (c.completeHeader resp)) :
    AuthenticLog (c.completeHeader resp) phase (headerEntries c resp) := by
  unfold headerEntries
  split
  · exact authentic_one ⟨readable, rfl, rfl⟩
  · trivial

private theorem authentic_body {send : Send} {val : Bytes} {bo : BufferOptions} (serving : Serving c)
    (done : c.writeBody send val bo = .ok d) (small : val.length < 2 ^ 64) :
    AuthenticLog header (phaseOf c) (bodyEntries c val) := by
  obtain ⟨writing, -⟩ | ⟨-, state, ⟨remaining, counted, fits, -⟩ | ⟨chunked, -⟩⟩ := writeBody_ok done
  · simp [serving.plain] at writing
  · have phase : phaseOf c = .counted remaining := by simp [phaseOf, state, counted, started]
    simp only [bodyEntries, counted, phase]
    split
    · refine ⟨trivial, fun next advances => authentic_one ?_⟩
      simp only [Exchange.advance, fits, ↓reduceIte, Option.some.injEq] at advances
      rw [← advances]
      rfl
    · exact authentic_one trivial
  · simp only [bodyEntries, chunked]
    split
    · trivial
    · rename_i some_
      exact authentic_one ⟨by simpa using some_, small, rfl⟩

private theorem authentic_last {bo : BufferOptions} (serving : Serving c)
    (done : c.writeLastChunk bo = .ok d) :
    AuthenticLog header (phaseOf c) lastEntries := by
  obtain ⟨writing, -⟩ | ⟨-, state, chunked, -⟩ := writeLastChunk_ok done
  · simp [serving.plain] at writing
  · have phase : phaseOf c = .chunked := by simp [phaseOf, state, chunked, started]
    rw [phase]
    exact authentic_one rfl

private theorem authentic_returned {result : Except Error ServerConnection}
    {log : ServerConnection → List Entry}
    (after : ∀ d, result = .ok d → AuthenticLog header phase (log d)) :
    AuthenticLog header phase (ifReturned result log) := by
  cases result with
  | error e => trivial
  | ok d => exact after d rfl

/-- Between two calls the phase is the one that the log of the first led to. -/
private theorem Step.authentic {log later : List Entry} (step : Step c d log)
    (first : AuthenticLog header (phaseOf c) log) (second : AuthenticLog header (phaseOf d) later) :
    AuthenticLog header (phaseOf c) (log ++ later) := by
  refine authentic_append first fun middle ran => ?_
  rw [step.phase, Option.some.injEq] at ran
  exact ran ▸ second

private theorem authentic_response {resp : Response} (serving : Serving c)
    (readable : Readable (c.completeHeader resp.header)) (small : resp.body.length < 2 ^ 64) :
    AuthenticLog (c.completeHeader resp.header) (phaseOf c) (responseEntries c resp) := by
  simp only [responseEntries, serving.opened, Bool.not_true, Bool.false_eq_true, ↓reduceIte]
  refine authentic_returned fun withHeader first => ?_
  have started_ := step_writeHeader serving first
  refine Step.authentic started_ (authentic_header readable)
    (authentic_returned fun withBody second => ?_)
  have written := step_writeBody (fun s => writeString_extends s _ _) started_.serving second
  refine Step.authentic written (authentic_body started_.serving second small) ?_
  split
  · exact authentic_returned fun done last => authentic_last written.serving last
  · trivial

/-- The header that a call starts a response with. -/
def headed (c : ServerConnection) : ServerOp → ResponseHeader
  | .writeResponse resp => c.completeHeader resp.header
  | .writeHeader resp _ => c.completeHeader resp
  | _ => {}

/-- What a user does who answers with responses that a client can read, on one
connection. -/
def Plain (c : ServerConnection) (op : ServerOp) : Prop :=
  reopens op = false ∧
    match op with
    | .webSocketUpgrade => False
    | .writeResponse resp => Readable (c.completeHeader resp.header) ∧ resp.body.length < 2 ^ 64
    | .writeHeader resp _ => Readable (c.completeHeader resp)
    | .writeData val _ => val.length < 2 ^ 64
    | .writeString ss _ => ss.length < 2 ^ 64
    | _ => True

theorem entries_authentic (serving : Serving c) {op : ServerOp} (plain : Plain c op) :
    AuthenticLog (headed c op) (phaseOf c) (entries c op) := by
  obtain ⟨-, fair⟩ := plain
  simp only [entries, serving.http, Bool.false_eq_true, ↓reduceIte]
  cases op with
  | readNextRequest =>
    simp only
    split
    · exact authentic_one trivial
    · trivial
  | webSocketUpgrade => exact fair.elim
  | writeResponse resp => exact authentic_response serving fair.1 fair.2
  | writeHeader resp bo => exact authentic_returned fun e _ => authentic_header fair
  | writeData val bo => exact authentic_returned fun e done => authentic_body serving done fair
  | writeString ss bo => exact authentic_returned fun e done => authentic_body serving done fair
  | writeLastChunk bo => exact authentic_returned fun e done => authentic_last serving done
  | _ => trivial

end Entries

section Answering

variable {requests : List Request} {drafts : List Draft}

/-- A connection whose stream is the texts of the drafts, up to its close; the drafts
answer the requests that were delivered. -/
structure Answers (c : ServerConnection) (requests : List Request) (drafts : List Draft) : Prop where
  mode : Serving c ∨ Dead c
  drafted : Drafted drafts
  answers : drafts.map Draft.request <+: requests
  placed : stream c.sock <+: drafts.flatMap Draft.text
  whole : Serving c → stream c.sock = drafts.flatMap Draft.text ∧ Standing (phaseOf c) drafts ∧
    DraftProofs.Answering (phaseOf c) requests drafts

/-- The drafts after an operation; a response that starts answers the last request. -/
def drawn (c : ServerConnection) (op : ServerOp) (requests : List Request)
    (drafts : List Draft) : List Draft :=
  (entries c op).foldl (note (requests.getLast?.getD {}) (headed c op)) drafts

private theorem answers_dead (mode : Serving c ∨ Dead c) (drafted : Drafted drafts)
    (answers : drafts.map Draft.request <+: requests)
    (placed : stream c.sock <+: drafts.flatMap Draft.text) (op : ServerOp)
    (same : reopens op = false) (dead : Dead (perform c op).conn) :
    Answers (perform c op).conn requests drafts :=
  ⟨.inr dead, drafted, answers, (ended_stream mode op same dead).trans placed,
    fun serving => absurd serving.opened (by simp [dead.closed])⟩

private theorem requests_returned {result : Except Error ServerConnection}
    {log : ServerConnection → List Entry} (none : ∀ d, Exchange.requests (log d) = 0) :
    Exchange.requests (ifReturned result log) = 0 := by
  cases result with
  | error e => rfl
  | ok d => exact none d

private theorem requests_append (front back : List Entry) :
    Exchange.requests (front ++ back) = Exchange.requests front + Exchange.requests back :=
  List.countP_append

/-- Only reading the next request takes one. -/
private theorem requests_written {op : ServerOp} (serving : Serving c) (other : op ≠ .readNextRequest) :
    Exchange.requests (entries c op) = 0 := by
  have header : ∀ (e : ServerConnection) (resp : ResponseHeader),
      Exchange.requests (headerEntries e resp) = 0 := by
    intro e resp
    unfold headerEntries
    split <;> rfl
  have body : ∀ (e : ServerConnection) (val : Bytes), Exchange.requests (bodyEntries e val) = 0 := by
    intro e val
    unfold bodyEntries
    split
    · split <;> rfl
    · split <;> rfl
  simp only [entries, serving.http, Bool.false_eq_true, ↓reduceIte]
  cases op with
  | readNextRequest => exact absurd rfl other
  | webSocketUpgrade =>
    refine requests_returned fun _ => ?_
    split <;> rfl
  | writeResponse resp =>
    simp only [responseEntries]
    split
    · rfl
    · refine requests_returned fun withHeader => ?_
      rw [requests_append, header, Nat.zero_add]
      refine requests_returned fun withBody => ?_
      rw [requests_append, body, Nat.zero_add]
      split
      · exact requests_returned fun _ => rfl
      · rfl
  | writeHeader resp bo => exact requests_returned fun _ => header c resp
  | writeData val bo => exact requests_returned fun _ => body c val
  | writeString ss bo => exact requests_returned fun _ => body c ss
  | writeLastChunk bo => exact requests_returned fun _ => rfl
  | _ => rfl

/-- The request that is taken is owed a response. -/
private theorem answering_taken (serving : Serving c)
    (answering : DraftProofs.Answering (phaseOf c) requests drafts) {last : Phase}
    (ran : Exchange.run (phaseOf c) (entries c .readNextRequest) = some last) :
    DraftProofs.Answering last (requests ++ (perform c .readNextRequest).request.toList)
      (drawn c .readNextRequest requests drafts) := by
  simp only [entries, serving.http, Bool.false_eq_true, ↓reduceIte] at ran
  simp only [drawn, entries, serving.http, Bool.false_eq_true, ↓reduceIte, perform]
  cases taken : c.readNextRequest.1 with
  | none =>
    simp only [taken, Option.isSome_none, Bool.false_eq_true, ↓reduceIte, Exchange.run_nil,
      Option.some.injEq] at ran
    simpa [ran] using answering
  | some r =>
    have ready : phaseOf c = .idle := by
      unfold readNextRequest at taken
      split at taken
      · cases taken
      · rename_i ready
        have state : c.state = .requestReady := by simpa using ready
        simp [phaseOf, state]
    rw [ready] at ran answering
    simp only [taken, Option.isSome_some, ↓reduceIte, Exchange.run_cons, Exchange.advance,
      Option.bind_some, Exchange.run_nil, Option.some.injEq] at ran
    have owed := answering.owed
    refine ⟨answering.answers.trans (List.prefix_append _ _), ?_⟩
    rw [← ran]
    simpa [Exchange.Phase.debt, note] using owed

private theorem request_of_entries {op : ServerOp} (serving : Serving c) (nothing : entries c op = []) :
    (perform c op).request = none := by
  by_cases takes : op = .readNextRequest
  · subst takes
    simp only [entries, serving.http, Bool.false_eq_true, ↓reduceIte] at nothing
    simp only [perform]
    cases taken : c.readNextRequest.1 with
    | none => rfl
    | some r => simp [taken] at nothing
  · exact RequestStreamProofs.request_none_of takes

/-- One operation moves the drafts along with the stream. -/
theorem perform_answers (answers : Answers c requests drafts) {op : ServerOp} (plain : Plain c op) :
    Answers (perform c op).conn (requests ++ (perform c op).request.toList)
      (drawn c op requests drafts) ∧
      drafts.flatMap Draft.text <+: (drawn c op requests drafts).flatMap Draft.text := by
  have same : reopens op = false := plain.1
  -- a connection that ends takes and emits nothing
  have ends : ∀ mode : Serving c ∨ Dead c, Dead (perform c op).conn → entries c op = [] →
    (perform c op).request = none →
      Answers (perform c op).conn (requests ++ (perform c op).request.toList)
        (drawn c op requests drafts) ∧
        drafts.flatMap Draft.text <+: (drawn c op requests drafts).flatMap Draft.text := by
    intro mode dead nothing none
    simp only [drawn, nothing, none, List.foldl_nil, Option.toList_none, List.append_nil]
    exact ⟨answers_dead mode answers.drafted answers.answers answers.placed op same dead,
      List.prefix_rfl⟩
  rcases answers.mode with serving | dead
  · obtain ⟨stream_, standing, answering⟩ := answers.whole serving
    have authentic := entries_authentic serving plain
    rcases perform_serving serving op same with ⟨dead, nothing⟩ | after
    · exact ends (.inl serving) dead nothing (request_of_entries serving nothing)
    · obtain ⟨grew, ran⟩ :
          stream (perform c op).conn.sock = stream c.sock ++ (entries c op).flatMap Entry.bytes ∧
          Exchange.run (phaseOf c) (entries c op) = some (phaseOf (perform c op).conn) := by
        rcases after with step | ⟨-, -, grew, ran⟩
        · exact ⟨step.stream, step.phase⟩
        · exact ⟨grew, ran⟩
      obtain ⟨standing', text⟩ := notes_run (requests.getLast?.getD {}) standing ran authentic
      have served : Serving (perform c op).conn := by
        rcases after with step | ⟨-, web, -⟩
        · exact step.serving
        · -- no such log leads to an upgrade
          have upgraded : phaseOf (perform c op).conn = .upgraded := by
            unfold isStateWebsocket at web
            split at web
            · rename_i state
              simp [phaseOf, state]
            · cases web
          rw [upgraded] at standing'
          exact standing'.2.elim
      have whole :
          stream (perform c op).conn.sock = (drawn c op requests drafts).flatMap Draft.text := by
        rw [grew, stream_, drawn, text]
      have answering' :
          DraftProofs.Answering (phaseOf (perform c op).conn) (requests ++ (perform c op).request.toList)
          (drawn c op requests drafts) := by
        by_cases takes : op = .readNextRequest
        · rw [takes] at ran ⊢
          exact answering_taken serving answering ran
        · have none := RequestStreamProofs.request_none_of (c := c) takes
          rw [none, Option.toList_none, List.append_nil]
          refine answering.writes ran (requests_written serving takes) (fun r last => ?_) authentic
          rw [last, Option.getD_some]
      refine ⟨⟨.inl served, standing'.drafted, answering'.answers, whole ▸ List.prefix_rfl,
        fun _ => ⟨whole, standing', answering'⟩⟩, ?_⟩
      rw [drawn, text]
      exact List.prefix_append _ _
  · obtain ⟨dead', nothing⟩ := perform_dead dead op same
    exact ends (.inr dead) dead' nothing (RequestStreamProofs.request_none (by simp [dead.state]) op)

end Answering
end Crablib.AnsweringProofs
