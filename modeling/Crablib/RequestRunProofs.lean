import Crablib.ClientHistoryProofs
import Crablib.RequestRun

/-! An outstanding request can be answered as long as its connection is open: every way
in which the connection ends goes through `on_connection`, which reports it. The one
exception is `send` itself, which closes the connection of the outstanding request before
it is known whether a new one can be made. -/
namespace Crablib.RequestRunProofs
open Http RequestRun SocketProofs ClientHistoryProofs

variable {r : ClientRequestSimple} {c d : ClientConnection}

/-- The protocols that `connect` knows. -/
def Supported (protocol : Bytes) : Prop := protocol = str "http" ∨ protocol = str "https"

instance (protocol : Bytes) : Decidable (Supported protocol) := inferInstanceAs (Decidable (_ ∨ _))

section Connection

theorem close_closed (c : ClientConnection) : c.close.isOpen = false := by
  simp [ClientConnection.isOpen, ClientConnection.close, BufferedTcpSocket.close,
    BufferedTcpSocket.isOpen, close_isOpen_false]

theorem writeRequest_isOpen {req : Request} (done : c.writeRequest req = .ok d) :
    d.isOpen = c.isOpen := by
  have sock := (steady_writeRequest done).isOpen
  have dns : d.dnsOpen = c.dnsOpen := by
    simp only [ClientConnection.writeRequest] at done
    split at done
    · cases done
      rfl
    · split at done
      · simp only [bind_eq_ok, invariant_ok, pure_eq_ok] at done
        obtain ⟨-, -, rfl⟩ := done
        rfl
      · simp only [bind_eq_ok, invariant_ok, pure_eq_ok] at done
        obtain ⟨-, -, -, -, -, -, rfl⟩ := done
        simp only [ClientConnection.sendRequest]
        split <;> rfl
  simp only [ClientConnection.isOpen, sock, dns]

/-- A connection whose name is being resolved, with the request that waits for it. -/
def resolving (c : ClientConnection) (request : Request) (port : UInt16)
    (protocol : Bytes) : ClientConnection :=
  { c.close with
    dnsOpen := true
    host := request.header.host
    port := port
    protocol := protocol
    state := .resolvingHost
    waitingRequest := some request }

end Connection

section Send

/-- What `send` can come to: the request is written to the open connection or refused by
it, a connection cannot be made, or the request waits for the name of a new one. -/
inductive Sent (r : ClientRequestSimple) (request : Request) (port : UInt16) (protocol : Bytes) :
    ClientRequestSimple → Prop where
  | written (c : ClientConnection) (opened : r.connection.isOpen = true)
      (same : r.isElsewhere request.header.host port protocol = false)
      (done : r.connection.writeRequest request = .ok c) :
      Sent r request port protocol { r with timeoutTimer := false, connection := c, requesting := true }
  | refused (opened : r.connection.isOpen = true)
      (same : r.isElsewhere request.header.host port protocol = false) :
      Sent r request port protocol { r with timeoutTimer := false }
  | unsupported (c : ClientConnection) (from_ : c = r.connection ∨ c = r.connection.close)
      (unknown : ¬Supported protocol) :
      Sent r request port protocol { r with timeoutTimer := false, connection := c.close }
  | waiting (c : ClientConnection) (from_ : c = r.connection ∨ c = r.connection.close)
      (known : Supported protocol) : Sent r request port protocol
        { r with timeoutTimer := false, connection := resolving c request port protocol,
                 requesting := true }

private theorem sent_new (request : Request) (port : UInt16) (protocol : Bytes) {kept : ClientConnection}
    (keeps : (if r.isElsewhere request.header.host port protocol then r.connection.close
      else r.connection) = kept)
    (closed : kept.isOpen = false) :
    Sent r request port protocol (r.sendTo request port protocol).2 := by
  have from_ : kept = r.connection ∨ kept = r.connection.close := by
    rw [← keeps]
    split
    · exact .inr rfl
    · exact .inl rfl
  simp only [ClientRequestSimple.sendTo, keeps, closed, Bool.not_false, ↓reduceIte,
    ClientConnection.connectHost]
  by_cases unknown : protocol ≠ str "http" ∧ protocol ≠ str "https"
  · simp only [unknown, ne_eq, not_false_eq_true, and_self, ↓reduceIte]
    exact .unsupported kept from_ (not_or.mpr unknown)
  · simp only [unknown, ↓reduceIte]
    have known : Supported protocol := by
      by_cases http : protocol = str "http"
      · exact .inl http
      · by_cases https : protocol = str "https"
        · exact .inr https
        · exact absurd ⟨http, https⟩ unknown
    exact .waiting kept from_ known

theorem sendTo_cases (r : ClientRequestSimple) (request : Request) (port : UInt16) (protocol : Bytes) :
    Sent r request port protocol (r.sendTo request port protocol).2 := by
  cases elsewhere : r.isElsewhere request.header.host port protocol with
  | true => exact sent_new request port protocol (by rw [elsewhere]; rfl) (close_closed r.connection)
  | false =>
    cases opened : r.connection.isOpen with
    | false => exact sent_new request port protocol (by rw [elsewhere]; rfl) opened
    | true =>
      simp only [ClientRequestSimple.sendTo, elsewhere, Bool.false_eq_true, ↓reduceIte,
        opened, Bool.not_true]
      cases done : r.connection.writeRequest request with
      | error e => exact .refused opened elsewhere
      | ok c => exact .written c opened elsewhere done

/-- `send` and `get` throw and change nothing, or come to the `send` they are for. -/
theorem perform_target (r : ClientRequestSimple) (op : RequestOp) (call : Request × UInt16 × Bytes)
    (targets : target op = some call) :
    (perform r op).requests = (r.sendTo call.1 call.2.1 call.2.2).2 := by
  have settled (result : Except Error Unit × ClientRequestSimple) :
      (settle result).requests = result.2 := by
    unfold settle
    split <;> rfl
  have bySend (uriStr : Bytes) (request : Request)
    (targets : target.uriTarget uriStr request = some call) :
      (r.send uriStr request).2 = (r.sendTo call.1 call.2.1 call.2.2).2 := by
    unfold target.uriTarget at targets
    unfold ClientRequestSimple.send
    cases parsed : parseUri uriStr with
    | error e => simp [parsed] at targets
    | ok uri =>
      simp only [parsed] at targets ⊢
      cases ported : ClientRequestSimple.portText uri >>= integerCast .uint16 with
      | error e => simp [ported] at targets
      | ok port =>
        simp only [ported, Option.some.injEq] at targets ⊢
        rw [← targets]
  cases op with
  | sendTo request port protocol =>
    cases targets
    exact settled _
  | send uriStr request => rw [perform, settled, bySend uriStr request targets]
  | get uriStr request => rw [perform, settled, ClientRequestSimple.get, bySend uriStr _ targets]
  | _ => cases targets

theorem perform_untargeted (r : ClientRequestSimple) (uriStr : Bytes) (request : Request)
    (targets : target.uriTarget uriStr request = none) : (r.send uriStr request).2 = r := by
  unfold target.uriTarget at targets
  unfold ClientRequestSimple.send
  cases parsed : parseUri uriStr with
  | error e => rfl
  | ok uri =>
    simp only [parsed] at targets ⊢
    cases ported : ClientRequestSimple.portText uri >>= integerCast .uint16 with
    | error e => rfl
    | ok port => simp [ported] at targets

end Send

section Answers

/-- An outstanding request has its connection, and the timer that drops an idle
connection is not running. -/
structure Answerable (r : ClientRequestSimple) : Prop where
  opened : r.requesting = true → r.connection.isOpen = true
  timer : r.timeoutTimer = true → r.requesting = false

/-- While a request is outstanding, `send` and `get` are called with a protocol that
`connect` knows, and the name of a connection that needs TLS is not found: a build
without TLS throws when it is. -/
def Safe (r : ClientRequestSimple) (op : RequestOp) : Prop :=
  r.requesting = true →
    match op with
    | .dnsHandler (some _) => r.connection.dnsOpen = true → r.connection.protocol = str "http"
    | op => ∀ call, target op = some call → Supported call.2.2

private theorem opened_of_sock (opened : c.sock.isOpen = true) : c.isOpen = true := by
  simp [ClientConnection.isOpen, opened]

/-- A socket event that the user does not hear of leaves the connection open. -/
theorem dispatch_isOpen (opened : c.isOpen = true) (unheard : c.dispatch.1 = false) :
    c.dispatch.2.isOpen = true := by
  unfold ClientConnection.dispatch at unheard ⊢
  split
  · rename_i pending
    rw [if_pos pending] at unheard
    unfold ClientConnection.sockHandler at unheard ⊢
    split
    · rename_i closed
      rw [if_pos closed] at unheard
      cases unheard
    · rename_i open_
      have steady := steady_advanceState c.socketEvent
      exact opened_of_sock (by rw [steady.isOpen]; simpa using open_)
  · exact opened

/-- The shutdown timer always ends in a call of the user's handler. -/
theorem shutdownTimer_isOpen (opened : c.isOpen = true) (unheard : c.shutdownTimerHandler.1 = false) :
    c.shutdownTimerHandler.2.isOpen = true := by
  unfold ClientConnection.shutdownTimerHandler at unheard ⊢
  split
  · rename_i set_
    have closed : c.sock.shutdownTimerHandler.isOpen = false := close_isOpen_false _
    rw [if_pos set_] at unheard
    simp [ClientConnection.sockHandler, closed] at unheard
  · exact opened

/-- A name that was found, for a connection without TLS. -/
theorem dnsHandler_isOpen {result : Option ConnectResult} {outcome : Except Error Bool}
    (opened : c.isOpen = true)
    (plain : result.isSome = true → c.dnsOpen = true → c.protocol = str "http")
    (done : c.dnsHandler result = (outcome, d)) :
    outcome = .ok true ∨ d.isOpen = true := by
  simp only [ClientConnection.dnsHandler] at done
  split at done
  · cases done
    exact .inr opened
  · rename_i waiting
    split at done
    · cases done
      exact .inl rfl
    · rename_i result
      have http : c.protocol = str "http" := plain rfl (by simpa using waiting)
      simp only [http, ne_eq, not_true_eq_false, ↓reduceIte] at done
      split at done
      · cases done
        exact .inl rfl
      · rename_i connected
        have open_ : (c.sock.connect result).2.isOpen = true :=
          connect_isOpen c.sock (by simpa using connected)
        right
        split at done
        · cases done
          exact opened_of_sock open_
        · split at done
          · cases done
            exact opened_of_sock open_
          · rename_i written
            cases done
            exact opened_of_sock ((steady_writeRequest written).isOpen.trans open_)

private theorem onConnection_answerable (timer : r.timeoutTimer = true → r.requesting = false) :
    Answerable r.onConnection.2 := by
  unfold ClientRequestSimple.onConnection
  split
  · unfold ClientRequestSimple.onConnectionClose
    split
    · rename_i idle
      have idle : r.requesting = false := by simpa using idle
      exact ⟨fun outstanding => absurd outstanding (by simp [idle]), nofun⟩
    · exact ⟨nofun, nofun⟩
  · rename_i open_
    have opened : r.connection.isOpen = true := by simpa using open_
    split
    · rename_i c none_
      have same : c = r.connection := by
        unfold ClientConnection.readNextResponse at none_
        split at none_
        · cases none_
          rfl
        · cases none_
      subst same
      exact ⟨fun _ => opened, timer⟩
    · split
      · rename_i idle
        have idle : r.requesting = false := by simpa using idle
        exact ⟨fun outstanding => absurd outstanding (by simp [idle]), fun _ => idle⟩
      · exact ⟨nofun, fun _ => rfl⟩

private theorem handle_answerable {event : Bool × ClientConnection} (answerable : Answerable r)
    (kept : event.1 = false → r.requesting = true → event.2.isOpen = true) :
    Answerable (handle r event).requests := by
  unfold handle
  simp only
  split
  · exact onConnection_answerable (r := { r with connection := event.2 }) answerable.timer
  · rename_i unheard
    exact ⟨kept (by simpa using unheard), answerable.timer⟩

private theorem sent_answerable {request : Request} {port : UInt16} {protocol : Bytes}
    {next : ClientRequestSimple} (known : r.requesting = true → Supported protocol)
    (sent : Sent r request port protocol next) : Answerable next := by
  cases sent with
  | written c opened same done => exact ⟨fun _ => (writeRequest_isOpen done).trans opened, nofun⟩
  | refused opened same => exact ⟨fun _ => opened, nofun⟩
  | unsupported c from_ unknown => exact ⟨fun outstanding => absurd (known outstanding) unknown, nofun⟩
  | waiting c from_ known => exact ⟨fun _ => rfl, nofun⟩

theorem perform_answerable (answerable : Answerable r) (op : RequestOp) (safe : Safe r op) :
    Answerable (perform r op).requests := by
  cases targets : target op with
  | some call =>
    rw [perform_target r op call targets]
    refine sent_answerable (fun outstanding => ?_) (sendTo_cases r call.1 call.2.1 call.2.2)
    have all := safe outstanding
    cases op with
    | sendTo request port protocol => exact all call targets
    | send uriStr request => exact all call targets
    | get uriStr request => exact all call targets
    | _ => cases targets
  | none =>
    have unchanged (uriStr : Bytes) (request : Request)
      (untargeted : target.uriTarget uriStr request = none) :
        Answerable (settle (r.send uriStr request)).requests := by
      have same := perform_untargeted r uriStr request untargeted
      unfold settle
      split <;> exact same.symm ▸ answerable
    cases op with
    | sendTo request port protocol => cases targets
    | send uriStr request => exact unchanged uriStr request targets
    | get uriStr request => exact unchanged uriStr _ targets
    | cancel =>
      simp only [perform, ClientRequestSimple.cancel]
      split
      · exact answerable
      · exact ⟨fun outstanding => (by cases outstanding), fun _ => rfl⟩
    | dnsHandler result =>
      obtain ⟨outcome, d, done⟩ : ∃ outcome d, r.connection.dnsHandler result = (outcome, d) :=
        ⟨_, _, rfl⟩
      have kept (outstanding : r.requesting = true) : outcome = .ok true ∨ d.isOpen = true := by
        apply dnsHandler_isOpen (answerable.opened outstanding) _ done
        intro found
        obtain ⟨connected, rfl⟩ := Option.isSome_iff_exists.mp found
        exact safe outstanding
      simp only [perform, done]
      split
      · rename_i calls c same
        cases same
        refine handle_answerable answerable fun unheard outstanding => ?_
        rcases kept outstanding with heard | open_
        · cases heard
          cases unheard
        · exact open_
      · rename_i e c same
        cases same
        refine ⟨fun outstanding => ?_, answerable.timer⟩
        rcases kept outstanding with heard | open_
        · cases heard
        · exact open_
    | arrive arrivals =>
      refine ⟨fun outstanding => ?_, answerable.timer⟩
      have opened := answerable.opened outstanding
      simp only [perform, TcpSocket.arrive]
      split
      · exact opened
      · exact opened
    | plan sends => exact ⟨answerable.opened, answerable.timer⟩
    | notify canRead canWrite =>
      refine ⟨fun outstanding => ?_, answerable.timer⟩
      have opened := answerable.opened outstanding
      simp only [perform, TcpSocket.notify]
      split
      · simp [ClientConnection.isOpen, BufferedTcpSocket.isOpen, TcpSocket.isOpen,
          TcpSocket.addPendingCallable]
      · exact opened
    | dispatch =>
      exact handle_answerable answerable fun unheard outstanding =>
        dispatch_isOpen (answerable.opened outstanding) unheard
    | shutdownTimer =>
      exact handle_answerable answerable fun unheard outstanding =>
        shutdownTimer_isOpen (answerable.opened outstanding) unheard
    | timeoutTimer =>
      simp only [perform]
      split
      · rename_i set_
        exact ⟨fun outstanding =>
          absurd outstanding (by simp [ClientRequestSimple.onTimeoutTimer, answerable.timer set_]),
          fun set_ => (by cases set_)⟩
      · exact answerable

/-- A handler is called for an outstanding request only, and then it is outstanding no
more. -/
theorem called_outstanding (r : ClientRequestSimple) (op : RequestOp)
    (called : (perform r op).called.isSome = true) :
    r.requesting = true ∧ (perform r op).requests.requesting = false := by
  have onConnection (r : ClientRequestSimple) (called : r.onConnection.1.isSome = true) :
      r.requesting = true ∧ r.onConnection.2.requesting = false := by
    unfold ClientRequestSimple.onConnection ClientRequestSimple.onConnectionClose at called ⊢
    grind
  have handled (event : Bool × ClientConnection) (called : (handle r event).called.isSome = true) :
      r.requesting = true ∧ (handle r event).requests.requesting = false := by
    unfold handle at called ⊢
    simp only at called ⊢
    split at called
    · rename_i heard
      rw [if_pos heard]
      exact onConnection _ called
    · cases called
  have unhandled (result : Except Error Unit × ClientRequestSimple) : (settle result).called = none := by
    unfold settle
    split <;> rfl
  cases op with
  | sendTo request port protocol => simp [perform, unhandled] at called
  | send uriStr request => simp [perform, unhandled] at called
  | get uriStr request => simp [perform, unhandled] at called
  | dnsHandler result =>
    simp only [perform] at called ⊢
    split at called
    · rename_i calls c done
      exact handled (calls, c) called
    · cases called
  | dispatch => exact handled _ called
  | shutdownTimer => exact handled _ called
  | _ => cases called

/-- In every run in which no `send` of an outstanding request's user names an unknown
protocol, and no name of an outstanding TLS connection is found, an outstanding request
has its connection and can be answered, once. -/
theorem outstanding_request_answerable (ops : List RequestOp)
    (safe : Run.Meets (fun r op => (perform r op).requests) Safe {} ops) :
    ((afterOps {} ops).requesting = true → (afterOps {} ops).connection.isOpen = true) ∧
      ∀ op, (perform (afterOps {} ops) op).called.isSome = true →
        (afterOps {} ops).requesting = true ∧
        (perform (afterOps {} ops) op).requests.requesting = false := by
  have start : Answerable {} := ⟨nofun, nofun⟩
  have reached : Answerable (afterOps {} ops) :=
    Run.invariant_of_meets (P := Answerable) (fun _ op kept safe =>
      perform_answerable kept op safe) start ops safe
  exact ⟨reached.opened, fun op called => called_outstanding _ op called⟩

/-- A request to a host. -/
def requestTo (host : Bytes) : Request :=
  { header := { method := str "GET", path := str "/", host := host } }

/-- Two requests, the second to another host while the first is outstanding. -/
def twoHosts : List RequestOp :=
  [.sendTo (requestTo (str "a")) 80 (str "http"), .dnsHandler (some .inProgress),
    .sendTo (requestTo (str "b")) 443 (str "https")]

theorem outstanding_request_answerable_moved :
    (afterOps {} twoHosts).requesting = true ∧ (afterOps {} twoHosts).connection.isOpen = true := by
  have safe : Run.Meets (fun r op => (perform r op).requests) Safe {} twoHosts := by
    refine ⟨nofun, fun _ _ => rfl, fun _ call targets => ?_, trivial⟩
    cases targets
    exact .inr rfl
  have outstanding : (afterOps {} twoHosts).requesting = true := by decide +kernel
  exact ⟨outstanding, (outstanding_request_answerable twoHosts safe).1 outstanding⟩

/-- The second request names a protocol that is not known. The connection of the first
one is gone and nobody will be told. -/
theorem outstanding_request_dropped :
    (afterOps {} [.sendTo (requestTo (str "a")) 80 (str "http"),
      .sendTo (requestTo (str "b")) 21 (str "ftp")]).requesting = true ∧
      (afterOps {} [.sendTo (requestTo (str "a")) 80 (str "http"),
        .sendTo (requestTo (str "b")) 21 (str "ftp")]).connection.isOpen = false := by
  decide +kernel

end Answers

end Crablib.RequestRunProofs
