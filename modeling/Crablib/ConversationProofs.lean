import Crablib.AnsweringProofs

/-! Two parties that talk HTTP: a client connection, a server connection, and the
bytes each one has sent on their way to the other. Whatever the users, the kernels,
the timers and the network do, and in whatever order, the server's user takes the
requests that the client's user wrote, and the client's user reads the responses to
them, each in its turn. -/
namespace Crablib.ConversationProofs
open Http StreamsProofs SocketProofs ArrivalProofs Cutting
open PairingProofs DraftProofs SpeakingProofs AnsweringProofs
open RequestStreamProofs (requestCutter requestCutter_first)
open ResponseStreamProofs (responseCutter)
open RequestTextProofs (RequestSendable)
open RequestFramingProofs (Announced)

/-- The two connections, the requests that were put on the wire and the responses that
were started. -/
structure World where
  client : ResponseStreamProofs.Received
  server : RequestStreamProofs.Received
  written : List Request := []
  drafts : List Draft := []

/-- What happens to a party, or bytes that arrive at it. -/
inductive WorldOp where
  | client (op : ClientRun.ClientOp)
  | server (op : ServerRun.ServerOp)
  | toServer (arrivals : List Arrival)
  | toClient (arrivals : List Arrival)

def converse (w : World) : WorldOp → World
  | .client op =>
    { w with
      client := ResponseStreamProofs.receive w.client op
      written := w.written ++ asked w.client.conn op }
  | .server op =>
    { w with
      server := RequestStreamProofs.receive w.server op
      drafts := drawn w.server.conn op w.server.requests w.drafts }
  | .toServer arrivals => { w with server := RequestStreamProofs.receive w.server (.arrive arrivals) }
  | .toClient arrivals => { w with client := ResponseStreamProofs.receive w.client (.arrive arrivals) }

/-- What a client has sent to the other side. -/
def clientSent (w : World) : Bytes := w.client.conn.sock.sock.descriptor.sent

def serverSent (w : World) : Bytes := w.server.conn.sock.sock.descriptor.sent

/-- A request that a server reads back: text without ambiguities, a header that is not
too long, the length of the body announced. -/
structure Legible (req : Request) : Prop where
  sendable : RequestSendable req.header
  fits : req.header.toString.length ≤ ({} : RequestParser).maxTotalLength
  announced : Announced req.header.contentLength req.body

/-- The users keep to plain requests and legible messages, and only bytes that were
sent arrive, each once and in order. -/
def Fair (w : World) : WorldOp → Prop
  | .client op =>
    SpeakingProofs.Plain w.client.conn op ∧ ClientRun.isArrive op = false ∧
      ∀ req ∈ asked w.client.conn op, Legible req
  | .server op => AnsweringProofs.Plain w.server.conn op ∧ ServerRun.isArrive op = false
  | .toServer arrivals => brought arrivals <+: (clientSent w).drop w.server.arrived.length
  | .toClient arrivals => brought arrivals <+: (serverSent w).drop w.client.arrived.length

/-- A conversation starts when the client has connected and the server has accepted,
whatever happened to the two connections before. -/
structure Meeting where
  keys : List UInt32 := []
  clientBefore : List ClientRun.ClientOp := []
  serverBefore : List ServerRun.ServerOp := []
  host : Bytes
  port : UInt16
  result : ConnectResult
  connects : result ≠ .failed

def Meeting.begin (m : Meeting) : World where
  client := ResponseStreamProofs.receive
    (Run.after ResponseStreamProofs.receive { conn := { keys := m.keys } } m.clientBefore)
    (.connectAddress m.host m.port m.result)
  server := RequestStreamProofs.receive (Run.after RequestStreamProofs.receive {} m.serverBefore)
    (.accept .ready)

/-- What holds in every conversation. -/
structure Held (w : World) : Prop where
  clientStep : ResponseStreamProofs.InStep w.client
  serverStep : RequestStreamProofs.InStep w.server
  speaks :
      Speaks w.client.conn (w.written.flatMap requestText) w.written.length w.client.responses.length
  answers : Answers w.server.conn w.server.requests w.drafts
  legible : ∀ req ∈ w.written, Legible req
  toServer : w.server.arrived <+: w.written.flatMap requestText
  toClient : w.client.arrived <+: w.drafts.flatMap Draft.text

section Keeping

variable {w : World}

/-- Bytes that were sent arrive behind those that arrived. -/
private theorem arrives_behind {arrived sent said bytes : Bytes} (before : arrived <+: said)
    (sent_ : sent <+: said) (next : bytes <+: sent.drop arrived.length) : arrived ++ bytes <+: said := by
  by_cases more : arrived.length ≤ sent.length
  · have front : arrived = sent.take arrived.length :=
      List.prefix_iff_eq_take.mp (List.prefix_of_prefix_length_le before sent_ more)
    refine List.IsPrefix.trans ?_ sent_
    have joined : arrived ++ bytes <+: arrived ++ sent.drop arrived.length :=
      (List.prefix_append_right_inj arrived).mpr next
    have whole : arrived ++ sent.drop arrived.length = sent := by
      conv => lhs; arg 1; rw [front]
      exact List.take_append_drop _ _
    rwa [whole] at joined
  · rw [List.drop_eq_nil_of_le (by omega), List.prefix_nil] at next
    rwa [next, List.append_nil]

private theorem sent_begins (s : BufferedTcpSocket) : s.sock.descriptor.sent <+: stream s :=
  List.prefix_append _ _

private theorem connects_speaks (c : ClientConnection) (host : Bytes) (port : UInt16)
    {result : ConnectResult} (connects : result ≠ .failed) :
    Speaks (ClientRun.perform c (.connectAddress host port result)).conn [] 0 0 := by
  have opens : (c.close.sock.connect result).1 = true := by
    cases result with
    | failed => exact absurd rfl connects
    | inProgress => rfl
    | immediate => rfl
  have none : stream (c.close.sock.connect result).2 = [] := by
    cases result with
    | failed => exact absurd rfl connects
    | inProgress => rfl
    | immediate => rfl
  simp only [ClientRun.perform, ClientConnection.connectAddress, opens, Bool.not_true,
    Bool.false_eq_true, ↓reduceIte]
  exact
    { resolved := rfl
      plain := by simp [ResponseStreamProofs.Upgrading, ClientHistoryProofs.isWeb]
      opened := by simp [ClientHistoryProofs.connect_isOpen _ opens]
      placed := none ▸ List.prefix_rfl
      whole := fun _ => ⟨none, rfl⟩
      few := by omega }

private theorem accepted_answers (c : ServerConnection) :
    Answers (ServerRun.perform c (.accept .ready)).conn [] [] := by
  obtain ⟨serving, idle⟩ := accept_serving c (.accept .ready) rfl
  have none : stream (ServerRun.perform c (.accept .ready)).conn.sock = [] := rfl
  have drafted : Drafted [] := by constructor <;> simp
  refine ⟨.inl serving, drafted, List.prefix_rfl, none ▸ List.prefix_rfl, fun _ => ⟨none, ?_, ?_⟩⟩
  · rw [idle]
    exact ⟨drafted.proper, by simp⟩
  · rw [idle]
    exact ⟨List.prefix_rfl, rfl⟩

private theorem begin_held (m : Meeting) : Held m.begin := by
  have client :
      ResponseStreamProofs.InStep
      (Run.after ResponseStreamProofs.receive { conn := { keys := m.keys } } m.clientBefore) :=
    Run.invariant_of_keeps ResponseStreamProofs.receive_inStep
      (ResponseStreamProofs.inStep_start m.keys) m.clientBefore
  have server : RequestStreamProofs.InStep (Run.after RequestStreamProofs.receive {} m.serverBefore) :=
    Run.invariant_of_keeps RequestStreamProofs.receive_inStep
      RequestStreamProofs.inStep_start m.serverBefore
  exact
    { clientStep := ResponseStreamProofs.receive_inStep _ (.connectAddress m.host m.port m.result) client
      serverStep := RequestStreamProofs.receive_inStep _ (.accept .ready) server
      speaks := connects_speaks _ m.host m.port m.connects
      answers := accepted_answers _
      legible := fun req member => by cases member
      toServer := List.prefix_rfl
      toClient := List.prefix_rfl }

private theorem drawn_arrive {c : ServerConnection} {requests : List Request} {drafts : List Draft}
    (answers : Answers c requests drafts) (arrivals : List Arrival) :
    drawn c (.arrive arrivals) requests drafts = drafts := by
  have http : c.isStateWebsocket = false := by
    rcases answers.mode with serving | dead
    · exact serving.http
    · simp [ServerConnection.isStateWebsocket, dead.state]
  simp [drawn, entries, http]

private theorem client_held {op : ClientRun.ClientOp} (held : Held w) (fair : Fair w (.client op)) :
    Held (converse w (.client op)) := by
  obtain ⟨plain, quiet, legible⟩ := fair
  have spoken := perform_speaks held.speaks held.clientStep.parting plain
  have nothing : ResponseStreamProofs.reached w.client.conn op = [] := by
    cases op <;> first | rfl | simp [ClientRun.isArrive] at quiet
  have received :
      ResponseStreamProofs.receive w.client op =
      ⟨(ClientRun.perform w.client.conn op).conn, w.client.arrived,
      w.client.responses ++ (ClientRun.perform w.client.conn op).response.toList⟩ := by
    simp [ResponseStreamProofs.receive, plain.1, nothing]
  have step := ResponseStreamProofs.receive_inStep w.client op held.clientStep
  simp only [converse, received] at step ⊢
  exact
    { clientStep := step
      serverStep := held.serverStep
      speaks := by simpa using spoken
      answers := held.answers
      legible := fun req member => (List.mem_append.mp member).elim (held.legible req) (legible req)
      toServer := by
        rw [List.flatMap_append]
        exact held.toServer.trans (List.prefix_append _ _)
      toClient := held.toClient }

private theorem server_held {op : ServerRun.ServerOp} (held : Held w) (fair : Fair w (.server op)) :
    Held (converse w (.server op)) := by
  obtain ⟨plain, quiet⟩ := fair
  obtain ⟨answered, grows⟩ := perform_answers held.answers plain
  have nothing : RequestStreamProofs.reached w.server.conn op = [] := by
    cases op <;> first | rfl | simp [ServerRun.isArrive] at quiet
  have received :
      RequestStreamProofs.receive w.server op =
      ⟨(ServerRun.perform w.server.conn op).conn, w.server.arrived,
      w.server.requests ++ (ServerRun.perform w.server.conn op).request.toList⟩ := by
    simp [RequestStreamProofs.receive, plain.1, nothing]
  have step := RequestStreamProofs.receive_inStep w.server op held.serverStep
  simp only [converse, received] at step ⊢
  exact
    { clientStep := held.clientStep
      serverStep := step
      speaks := held.speaks
      answers := answered
      legible := held.legible
      toServer := held.toServer
      toClient := held.toClient.trans grows }

private theorem toServer_held {arrivals : List Arrival} (held : Held w)
    (fair : Fair w (.toServer arrivals)) :
    Held (converse w (.toServer arrivals)) := by
  have plain : AnsweringProofs.Plain w.server.conn (.arrive arrivals) := ⟨rfl, trivial⟩
  have answered := (perform_answers held.answers plain).1
  rw [drawn_arrive held.answers] at answered
  exact
    { clientStep := held.clientStep
      serverStep := RequestStreamProofs.receive_inStep w.server (.arrive arrivals) held.serverStep
      speaks := held.speaks
      answers := answered
      legible := held.legible
      toServer := by
        have sent := (sent_begins w.client.conn.sock).trans held.speaks.placed
        have next := arrives_behind held.toServer sent fair
        show w.server.arrived ++ (if w.server.conn.sock.sock.fdValid then brought arrivals else []) <+: _
        split
        · exact next
        · rw [List.append_nil]
          exact held.toServer
      toClient := held.toClient }

private theorem toClient_held {arrivals : List Arrival} (held : Held w)
    (fair : Fair w (.toClient arrivals)) :
    Held (converse w (.toClient arrivals)) := by
  have plain : SpeakingProofs.Plain w.client.conn (.arrive arrivals) := ⟨rfl, trivial⟩
  have spoken := perform_speaks held.speaks held.clientStep.parting plain
  exact
    { clientStep := ResponseStreamProofs.receive_inStep w.client (.arrive arrivals) held.clientStep
      serverStep := held.serverStep
      speaks := by
        simpa [converse, asked, ClientRun.perform, ResponseStreamProofs.receive,
          ResponseStreamProofs.starts] using spoken
      answers := held.answers
      legible := held.legible
      toServer := held.toServer
      toClient := by
        have sent := (sent_begins w.server.conn.sock).trans held.answers.placed
        have next := arrives_behind held.toClient sent fair
        show w.client.arrived ++ (if w.client.conn.sock.sock.fdValid then brought arrivals else []) <+: _
        split
        · exact next
        · rw [List.append_nil]
          exact held.toClient }

theorem converse_held (w : World) (op : WorldOp) (held : Held w) (fair : Fair w op) :
    Held (converse w op) := by
  cases op with
  | client op => exact client_held held fair
  | server op => exact server_held held fair
  | toServer arrivals => exact toServer_held held fair
  | toClient arrivals => exact toClient_held held fair

end Keeping

section Reading

variable {w : World}

/-- A legible request is one request, the one that was written. -/
private theorem legible_first {req : Request} (legible : Legible req) :
    requestCutter.first (requestText req) = some (req, []) := by
  obtain ⟨p, parsed, good, same⟩ := RequestTextProofs.parse_toString legible.sendable legible.fits
  obtain ⟨q, read, good', body⟩ :=
    (RequestFramingProofs.carried_iff req.header.contentLength req.body).mpr legible.announced
  have unchunked := legible.sendable.unchunked
  refine requestCutter_first.mpr ⟨p, req.body, q, Scanner.scan_whole parsed good req.body, good, ?_,
    good', ?_⟩
  · rw [same, unchunked]
    exact read
  · rw [same, body, ← unchunked]

private theorem written_messages (held : Held w) :
    messages requestCutter (w.written.flatMap requestText) = w.written := by
  have cuts : Cuts requestCutter (w.written.flatMap requestText) (w.written.map id) [] :=
    cuts_flatten fun req member => legible_first (held.legible req member)
  rw [cuts.messages_eq, messages_none rfl, List.append_nil, List.map_id]

/-- The requests that were taken are the first ones that were written. -/
theorem Held.requests (held : Held w) : w.server.requests <+: w.written := by
  obtain ⟨later, same⟩ := held.toServer
  have read := messages_append requestCutter w.server.arrived later
  rw [same, written_messages held] at read
  exact held.serverStep.read.trans read

/-- The responses that were read are finished drafts, the first ones. -/
theorem Held.responses (held : Held w) :
    ∃ front back, w.drafts = front ++ back ∧ (∀ d ∈ front, d.Done) ∧
      w.client.responses <+: front.map Draft.asRead := by
  obtain ⟨later, same⟩ := held.toClient
  have read := messages_append responseCutter w.client.arrived later
  obtain ⟨front, back, split, done, all⟩ := read_drafts held.answers.drafted
  rw [same, all] at read
  exact ⟨front, back, split, done, held.clientStep.read.trans read⟩

private theorem prefix_getElem {α : Type} {front whole : List α} {i : Nat} {a : α}
    (prefix_ : front <+: whole) (at_ : front[i]? = some a) : whole[i]? = some a := by
  obtain ⟨later, rfl⟩ := prefix_
  obtain ⟨short, -⟩ := List.getElem?_eq_some_iff.mp at_
  rw [List.getElem?_append_left short, at_]

/-- A response that was read is the one that was written to the request in its place. -/
theorem Held.matched (held : Held w) {i : Nat} {resp : Response}
    (read : w.client.responses[i]? = some resp) :
    ∃ d, w.drafts[i]? = some d ∧ d.Done ∧ w.written[i]? = some d.request ∧ resp = d.asRead := by
  obtain ⟨front, back, split, done, first⟩ := held.responses
  have drafted := prefix_getElem first read
  rw [List.getElem?_map, Option.map_eq_some_iff] at drafted
  obtain ⟨d, at_, same⟩ := drafted
  have here : w.drafts[i]? = some d := prefix_getElem ⟨back, split.symm⟩ at_
  refine ⟨d, here, done d (List.mem_of_getElem? at_), ?_, same.symm⟩
  refine prefix_getElem (held.answers.answers.trans held.requests) ?_
  rw [List.getElem?_map, here, Option.map_some]

/-- A server at rest that received all that was written has delivered it all, but for
a request that is ready. -/
theorem Held.all_requests (held : Held w) (rests : RequestStreamProofs.Rests w.server.conn)
    (all : w.server.arrived = w.written.flatMap requestText) :
    w.server.requests ++ RequestStreamProofs.waiting w.server.conn = w.written := by
  rw [← held.serverStep.complete rests, all, written_messages held]

/-- So does a client at rest that received all of the responses. -/
theorem Held.all_responses (held : Held w) (rests : ResponseStreamProofs.Rests w.client.conn)
    (all : w.client.arrived = w.drafts.flatMap Draft.text) (done : ∀ d ∈ w.drafts, d.Done) :
    w.client.responses ++ ResponseStreamProofs.waiting w.client.conn = w.drafts.map Draft.asRead := by
  rw [← held.clientStep.complete rests, all, read_done held.answers.drafted.proper done]

end Reading

/-- In every conversation, whatever order the calls, events, timers and arrivals come
in: the requests that the server's user took are the first of those that the client's
user wrote, unchanged. The response that the client's user read in a place is the
whole of what the server's user wrote in answer to the request in that place, and no
request is written before the response to the last one was read. When everything that
was sent arrived and was read, nothing is missing on either side. -/
theorem conversation_in_order (m : Meeting) (ops : List WorldOp)
    (fair : Run.Meets converse Fair m.begin ops) :
    let w := Run.after converse m.begin ops
    w.server.requests <+: w.written ∧
    (∀ (i : Nat) (resp : Response), w.client.responses[i]? = some resp →
      ∃ d : Draft, w.drafts[i]? = some d ∧ d.Done ∧ w.written[i]? = some d.request ∧ resp = d.asRead) ∧
    w.written.length ≤ w.client.responses.length + 1 ∧
    (RequestStreamProofs.Rests w.server.conn → w.server.arrived = w.written.flatMap requestText →
      w.server.requests ++ RequestStreamProofs.waiting w.server.conn = w.written) ∧
    (ResponseStreamProofs.Rests w.client.conn → w.client.arrived = w.drafts.flatMap Draft.text →
      (∀ d ∈ w.drafts, d.Done) →
      w.client.responses ++ ResponseStreamProofs.waiting w.client.conn = w.drafts.map Draft.asRead) := by
  intro w
  have held : Held w := Run.invariant_of_meets converse_held (begin_held m) ops fair
  exact ⟨held.requests, fun i resp read => held.matched read, held.speaks.few.2,
    held.all_requests, held.all_responses⟩

section Example

private def meeting : Meeting where
  host := str "h"
  port := 80
  result := .immediate
  connects := by simp

private def question : Request := { header := { method := str "GET", path := str "/" } }

private def reply : Response :=
  { header := { status := 200, contentLength := some 2 }, body := str "ok" }

/-- A request and its response, each in two segments. -/
private def exchange : List WorldOp :=
  [.client .dispatch, .client (.writeRequest question),
    .toServer [.data 71 (str "ET / HTTP/1.1\r\nh")], .server (.notify true true), .server .dispatch,
    .toServer [.data 111 (str "st: h\r\n\r\n")], .server (.notify true true), .server .dispatch,
    .server .readNextRequest, .server (.writeResponse reply),
    .toClient [.data 72 (str "TTP/1.1 200 OK\r\ncont"), .data 101 (str "nt-length: 2\r\n\r\nok")],
    .client (.notify true true), .client .dispatch, .client .readNextResponse]

private theorem legible_question : Legible { question with header.host := str "h" } where
  sendable :=
    { major := rfl, minor := .inr rfl, method := by decide,
      token := List.all_iff_forall_prop.mp (by decide), path := by decide
      isPath := List.all_iff_forall_prop.mp (by decide)
      isQuery := List.all_iff_forall_prop.mp (by decide), unchunked := rfl
      upgrade := rfl, upgradeOnly := fun _ => ⟨rfl, rfl⟩
      common :=
        { mime := by decide, mimeLower := by decide, mimePlain := by decide, suffix := by decide
          noSuffix := by decide, encodings := by decide, chunked := by decide, headers := by decide }
      host := by decide, origin := by decide, basicAuthorization := by decide
      secWebsocketKey := by decide, secWebsocketVersion := by decide }
  fits := by decide
  announced := .inr ⟨rfl, rfl⟩

private theorem readable_reply : Readable reply.header where
  sendable :=
    { version := ⟨by decide, by decide⟩, status := by decide, statusText := by decide
      common :=
        { mime := by decide, mimeLower := by decide, mimePlain := by decide, suffix := by decide
          noSuffix := by decide, encodings := by decide, chunked := by decide, headers := by decide }
      date := by decide, secWebsocketAccept := by decide }
  fits := by decide
  framed := rfl

private theorem exchange_fair : Run.Meets converse Fair meeting.begin exchange := by
  have quiet : ∀ {w : World} {op : ClientRun.ClientOp}, SpeakingProofs.Plain w.client.conn op →
    ClientRun.isArrive op = false →
      asked w.client.conn op = [] → Fair w (.client op) := by
    intro w op plain unarrived nothing
    exact ⟨plain, unarrived, by simp [nothing]⟩
  refine ⟨quiet ⟨rfl, trivial⟩ rfl rfl, ⟨⟨rfl, rfl⟩, rfl, ?_⟩, ?_, ⟨⟨rfl, trivial⟩, rfl⟩,
    ⟨⟨rfl, trivial⟩, rfl⟩, ?_,
    ⟨⟨rfl, trivial⟩, rfl⟩, ⟨⟨rfl, trivial⟩, rfl⟩, ⟨⟨rfl, trivial⟩, rfl⟩, ⟨⟨rfl, ?_, ?_⟩, rfl⟩, ?_,
    quiet ⟨rfl, trivial⟩ rfl rfl, quiet ⟨rfl, trivial⟩ rfl rfl, quiet ⟨rfl, trivial⟩ rfl rfl, trivial⟩
  · have sent :
        asked (Run.after converse meeting.begin [.client .dispatch]).client.conn
        (.writeRequest question) = [{ question with header.host := str "h" }] := by decide
    intro req member
    have only : req ∈ [{ question with header.host := str "h" }] := sent ▸ member
    rw [List.mem_singleton.mp only]
    exact legible_question
  · show _ <+: (clientSent (Run.after converse meeting.begin (exchange.take 2))).drop _
    decide
  · show _ <+: (clientSent (Run.after converse meeting.begin (exchange.take 5))).drop _
    decide
  · have same :
        (Run.after converse meeting.begin (exchange.take 9)).server.conn.completeHeader
        reply.header = reply.header := by
      decide
    exact same ▸ readable_reply
  · decide
  · show _ <+: (serverSent (Run.after converse meeting.begin (exchange.take 10))).drop _
    decide

/-- The response is read, and it answers the request. -/
theorem conversation_in_order_exchange :
    (Run.after converse meeting.begin exchange).client.responses.map Response.body = [str "ok"] ∧
      (Run.after converse meeting.begin exchange).server.requests <+:
        (Run.after converse meeting.begin exchange).written := by
  have ordered := conversation_in_order meeting exchange exchange_fair
  exact ⟨by decide +kernel, ordered.1⟩

end Example
end Crablib.ConversationProofs
