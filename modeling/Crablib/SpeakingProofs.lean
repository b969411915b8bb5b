import Crablib.DraftProofs
import Crablib.RequestStreamProofs

/-! What a client connection puts on the wire while its user sends requests that do
not upgrade: the text of each, the next one after the response to the last was taken.
Nothing else a client does adds a byte. -/
namespace Crablib.SpeakingProofs
open Http ClientConnection ClientRun StreamsProofs SocketProofs InboundProofs ServerEndProofs
open ClientHistoryProofs
open ResponseStreamProofs RequestFramingProofs
open ClientProgressProofs (writeMessage_cases)
open EndpointProofs (client client_models)

section Sockets

/-- A socket that is closed keeps of its stream what was sent. -/
theorem stream_close (s : BufferedTcpSocket) (withEvent : Bool) :
    stream (s.close withEvent) <+: stream s := by
  simp [stream, BufferedTcpSocket.close]

theorem stream_sockHandler (s : BufferedTcpSocket) : stream s.sockHandler <+: stream s := by
  unfold BufferedTcpSocket.sockHandler
  split
  · have flushed : stream s.flush = stream s := by simpa using (flush_extends s).stream
    simp only
    split
    · have received := readSome_received s.flush.sock 4096
      rw [← flushed]
      simp [stream, received.sent]
    · exact flushed ▸ List.prefix_rfl
  · exact stream_close s false

end Sockets

section Speaking

variable {c d : ClientConnection} {said : Bytes} {written taken : Nat}

def requestText (req : Request) : Bytes := req.header.toString ++ req.body

/-- The request as it is sent: under the name of the host of the connection. -/
def addressed (c : ClientConnection) (req : Request) : Request :=
  { header := sentHeader c req, body := req.body }

/-- The requests that a call puts on the wire. -/
def asked (c : ClientConnection) : ClientRun.ClientOp → List Request
  | .writeRequest req =>
    match c.writeRequest req with
    | .error _ => []
    | .ok _ => if c.state = .waitingWriteRequest then [addressed c req] else []
  | _ => []

/-- The responses that are to come in a state. -/
def owing : ClientState → Nat
  | .responseHeader => 1
  | .responseBody => 1
  | .responseReady => 1
  | _ => 0

/-- A connection that was never asked to upgrade: its stream is what it said, up to
its close, and at most one of its requests has no response. -/
structure Speaks (c : ClientConnection) (said : Bytes) (written taken : Nat) : Prop where
  resolved : c.dnsOpen = false
  plain : ¬Upgrading c
  opened : c.sock.isOpen = true ↔ c.state ≠ .resolvingHost
  placed : stream c.sock <+: said
  whole : c.state ≠ .resolvingHost → stream c.sock = said ∧ written = taken + owing c.state
  few : taken ≤ written ∧ written ≤ taken + 1

/-- Steps that put nothing on the wire and take no response. -/
structure Mute (c d : ClientConnection) : Prop where
  stream : stream d.sock = stream c.sock
  isOpen : d.sock.isOpen = c.sock.isOpen
  resolved : d.dnsOpen = c.dnsOpen
  plain : ¬Upgrading c → ¬Upgrading d
  closed : d.state = .resolvingHost ↔ c.state = .resolvingHost
  owing : owing d.state = owing c.state

theorem Mute.refl (c : ClientConnection) : Mute c c := ⟨rfl, rfl, rfl, id, Iff.rfl, rfl⟩

/-- Steps of the socket alone. -/
private theorem mute_of_sock (stream : SocketProofs.stream d.sock = SocketProofs.stream c.sock)
    (isOpen : d.sock.isOpen = c.sock.isOpen) (state : d.state = c.state)
    (resolved : d.dnsOpen = c.dnsOpen) : Mute c d :=
  ⟨stream, isOpen, resolved, by rw [Upgrading, Upgrading, state]; exact id, by rw [state], by rw [state]⟩

theorem Speaks.mute (speaks : Speaks c said written taken) (mute : Mute c d) :
    Speaks d said written taken where
  resolved := mute.resolved.trans speaks.resolved
  plain := mute.plain speaks.plain
  opened := by
    rw [mute.isOpen, speaks.opened]
    exact not_congr mute.closed.symm
  placed := mute.stream ▸ speaks.placed
  whole := fun state => by
    rw [mute.stream, mute.owing]
    exact speaks.whole (mt mute.closed.mpr state)
  few := speaks.few

/-- A connection that closed says no more. -/
theorem Speaks.close (speaks : Speaks c said written taken) (d : ClientConnection)
    (placed : stream d.sock <+: stream c.sock) :
    Speaks d.close said written taken where
  resolved := rfl
  plain := by simp [Upgrading, ClientConnection.close, isWeb]
  opened := by simp [ClientConnection.close, BufferedTcpSocket.close,
    BufferedTcpSocket.isOpen, close_isOpen_false]
  placed := ((stream_close d.sock false).trans placed).trans speaks.placed
  whole := fun state => absurd rfl state
  few := speaks.few

private theorem onException_speaks (speaks : Speaks c said written taken) :
    Speaks c.onException said written taken := by
  obtain ⟨stream, isOpen⟩ := writeShutdown_keeps c.sock
  exact speaks.mute (mute_of_sock stream isOpen rfl rfl)

/-- A response that is under way. -/
private theorem mute_of_response (sock : d.sock = c.sock) (resolved : d.dnsOpen = c.dnsOpen)
    (before : owing c.state = 1) (after : owing d.state = 1) : Mute c d := by
  have plain : ∀ {e : ClientConnection}, owing e.state = 1 → ¬Upgrading e ∧
      e.state ≠ .resolvingHost := by
    intro e one
    unfold owing at one
    split at one <;> simp_all [Upgrading, isWeb]
  refine ⟨by rw [sock], by rw [sock], resolved, fun _ => (plain after).1, ?_, after.trans before.symm⟩
  exact ⟨fun state => absurd state (plain after).2, fun state => absurd state (plain before).2⟩

private theorem readResponseBody_speaks (state : c.state = .responseBody)
    (speaks : Speaks c said written taken) :
    client.Caught (Speaks · said written taken) c.readResponseBody := by
  unfold readResponseBody
  split
  · exact onException_speaks speaks
  · simp only
    split
    · exact speaks.mute (mute_of_response rfl rfl (by rw [state]; rfl) (by rw [state]; rfl))
    · exact speaks.mute (mute_of_response rfl rfl (by rw [state]; rfl) rfl)

private theorem readResponseHeader_speaks (state : c.state = .responseHeader)
    (speaks : Speaks c said written taken) :
    client.Caught (Speaks · said written taken) c.readResponseHeader := by
  have one : owing c.state = 1 := by rw [state]; rfl
  unfold readResponseHeader
  split
  · exact onException_speaks speaks
  · simp only
    split
    · exact speaks.mute (mute_of_response rfl rfl one one)
    · split
      · refine onException_speaks (speaks.mute ?_)
        exact mute_of_response rfl rfl one one
      · refine readResponseBody_speaks rfl (speaks.mute ?_)
        exact mute_of_response rfl rfl one rfl

private theorem switchState_speaks (speaks : Speaks c said written taken) :
    client.Caught (Speaks · said written taken) c.switchState := by
  unfold switchState
  split
  · rename_i state
    exact readResponseHeader_speaks state speaks
  · rename_i state
    exact readResponseBody_speaks state speaks
  · rename_i state
    exact absurd (.inl state) speaks.plain
  · rename_i state
    exact absurd (.inr (by rw [state]; rfl)) speaks.plain
  · rename_i state
    exact absurd (.inr (by rw [state]; rfl)) speaks.plain
  · exact speaks

private theorem turn_speaks (speaks : Speaks c said written taken) :
    client.Caught (Speaks · said written taken) c.turn := by
  unfold turn
  split
  · have quiet := readFrom_quiet c.readBuffer c.sock
    have filled : Speaks { c with
        readBuffer := (c.readBuffer.readFrom BufferedTcpSocket.istream c.sock).2.1
        sock := (c.readBuffer.readFrom BufferedTcpSocket.istream c.sock).2.2 } said written taken :=
      speaks.mute (mute_of_sock quiet.stream quiet.isOpen rfl rfl)
    simp only
    split
    · exact filled
    · exact switchState_speaks filled
  · exact switchState_speaks speaks

theorem advanceState_speaks (speaks : Speaks c said written taken) :
    Speaks c.advanceState.2 said written taken :=
  client_models.caught (fun _ => turn_speaks) speaks

/-- A call that puts nothing on the wire, and leaves the connection as it is. -/
private theorem silent_settle {result : Except Error ClientConnection}
    (speaks : Speaks c said written taken) (silent : ∀ d, result = .ok d → Mute c d) :
    Speaks (settle c result).conn said written taken := by
  cases result with
  | error e => exact speaks
  | ok d => exact speaks.mute (silent d rfl)

private theorem writeRequest_waiting {req : Request} (opened : c.sock.isOpen = true)
    (state : c.state = .waitingWriteRequest) (done : c.writeRequest req = .ok d) :
    d = c.sendRequest (sentHeader c req) req.body := by
  have other : ¬ClientState.waitingWriteRequest = .resolvingHost := by simp
  have open_ : c.isOpen = true := by simp [ClientConnection.isOpen, opened]
  simp only [ClientConnection.writeRequest, open_, state, Bool.not_true, Bool.false_eq_true,
    ↓reduceIte, other, bind_eq_ok, invariant_ok, pure_eq_ok] at done
  obtain ⟨-, -, -, -, -, -, rfl⟩ := done
  rfl

private theorem writeRequest_speaks {req : Request}
    (speaks : Speaks c said written taken) (parting : Parting c)
    (unasked : req.header.isWebsocketUpgrade = false) :
    Speaks (perform c (.writeRequest req)).conn
      (said ++ (asked c (.writeRequest req)).flatMap requestText)
      (written + (asked c (.writeRequest req)).length) taken := by
  by_cases state : c.state = .waitingWriteRequest
  · cases done : c.writeRequest req with
    | error e => simpa [perform, asked, settle, done] using speaks
    | ok d =>
      have opened : c.sock.isOpen = true := speaks.opened.mpr (by simp [state])
      have same := writeRequest_waiting opened state done
      have sent := (writeRequest_stream parting opened state done).1
      obtain ⟨before, balance⟩ := speaks.whole (by simp [state])
      have kept := (steady_writeRequest done).isOpen
      have header : (sentHeader c req).isWebsocketUpgrade = false := unasked
      have next : d.state = .responseHeader := by simp [same, sendRequest, header]
      have resolved : d.dnsOpen = c.dnsOpen := by simp [same, sendRequest, header]
      have whole : stream d.sock = said ++ requestText (addressed c req) := by rw [sent, before]; rfl
      have owed : owing c.state = 0 := by rw [state]; rfl
      simp only [perform, asked, settle, done, state, ↓reduceIte, List.flatMap_singleton,
        List.length_singleton]
      exact
        { resolved := resolved.trans speaks.resolved
          plain := by simp [Upgrading, next, isWeb]
          opened := by simp [kept, opened, next]
          placed := whole ▸ List.prefix_rfl
          whole := fun _ => ⟨whole, by rw [next, balance, owed]; rfl⟩
          few := by omega }
  · have nothing : asked c (.writeRequest req) = [] := by
      simp only [asked, state, ↓reduceIte]
      split <;> rfl
    rw [nothing]
    simp only [List.flatMap_nil, List.append_nil, List.length_nil, Nat.add_zero]
    refine silent_settle speaks fun d done => ?_
    obtain rfl | rfl | ⟨-, waits, -⟩ := writeRequest_cases done
    · exact Mute.refl d
    · exact mute_of_sock rfl rfl rfl rfl
    · exact absurd waits state

private theorem readNextResponse_speaks (speaks : Speaks c said written taken) :
    Speaks c.readNextResponse.2 said written (taken + c.readNextResponse.1.toList.length) := by
  unfold readNextResponse
  split
  · exact speaks
  · rename_i ready
    have state : c.state = .responseReady := by simpa using ready
    have opened : c.sock.isOpen = true := speaks.opened.mpr (by simp [state])
    obtain ⟨same, balance⟩ := speaks.whole (by simp [state])
    have owed : owing c.state = 1 := by rw [state]; rfl
    have taken_ : Speaks c.takeResponse said written (taken + 1) :=
      { resolved := speaks.resolved
        plain := by simp [Upgrading, takeResponse, isWeb]
        opened := by simp [takeResponse, opened]
        placed := speaks.placed
        whole := fun _ => ⟨same, by rw [balance, owed]; rfl⟩
        few := by omega }
    exact advanceState_speaks taken_

private theorem sockHandler_speaks (speaks : Speaks c said written taken) {s : BufferedTcpSocket}
    (placed : stream s <+: stream c.sock)
    (kept : s.isOpen = true → c.sock.isOpen = true ∧ stream s = stream c.sock) :
    Speaks ({ c with sock := s }).sockHandler.2 said written taken := by
  unfold ClientConnection.sockHandler
  split
  · exact speaks.close _ placed
  · rename_i opened
    have open_ : s.isOpen = true := by simpa using opened
    obtain ⟨before, same⟩ := kept open_
    exact advanceState_speaks (speaks.mute (mute_of_sock same (open_.trans before.symm) rfl rfl))

private theorem dispatch_speaks (speaks : Speaks c said written taken) :
    Speaks c.dispatch.2 said written taken := by
  unfold ClientConnection.dispatch
  split
  · rename_i pending
    refine sockHandler_speaks speaks (stream_sockHandler { c.sock with sock.pending := false })
      fun opened => ?_
    refine ⟨?_, (sockHandler_keeps _ opened).2⟩
    simp [BufferedTcpSocket.isOpen, TcpSocket.isOpen, pending]
  · exact speaks

private theorem shutdownTimer_speaks (speaks : Speaks c said written taken) :
    Speaks c.shutdownTimerHandler.2 said written taken := by
  unfold ClientConnection.shutdownTimerHandler
  split
  · have closed : c.sock.shutdownTimerHandler.isOpen = false := close_isOpen_false _
    refine sockHandler_speaks speaks (stream_close _ false) fun opened => ?_
    simp [closed] at opened
  · exact speaks

/-- What a user does who sends requests that do not upgrade, on one connection. -/
def Plain (c : ClientConnection) (op : ClientRun.ClientOp) : Prop :=
  starts c op = false ∧
    match op with
    | .webSocketUpgrade _ _ => False
    | .writeRequest req => req.header.isWebsocketUpgrade = false
    | _ => True

/-- One operation: a request that is sent extends what was said, a response that is
delivered was owed. -/
theorem perform_speaks (speaks : Speaks c said written taken) (parting : Parting c)
    {op : ClientRun.ClientOp} (plain : Plain c op) :
    Speaks (perform c op).conn (said ++ (asked c op).flatMap requestText) (written + (asked c op).length)
      (taken + (perform c op).response.toList.length) := by
  obtain ⟨same, unasked⟩ := plain
  have silent : ∀ {d : ClientConnection}, Speaks d said written taken → asked c op = [] →
    (perform c op).response = none →
      Speaks d (said ++ (asked c op).flatMap requestText) (written + (asked c op).length)
        (taken + (perform c op).response.toList.length) := by
    intro d speaks nothing none
    simpa [nothing, none] using speaks
  cases op with
  | connectAddress host port result => cases same
  | connectHost host port protocol => cases same
  | close => cases same
  | readNextResponse => simpa [perform, asked] using readNextResponse_speaks speaks
  | readNextMessage =>
    have unready : c.state ≠ .web .ready := by
      intro web
      exact speaks.plain (.inr (by rw [web]; rfl))
    simpa [perform, asked, readNextMessage, unready] using speaks
  | webSocketUpgrade rh rdata => exact unasked.elim
  | writeRequest req =>
    have none : (perform c (.writeRequest req)).response = none := response_none (by simp)
    rw [none]
    exact writeRequest_speaks speaks parting unasked
  | writeMessage message =>
    refine silent (silent_settle speaks fun d done => ?_) rfl (response_none (by simp))
    obtain rfl | ⟨may, -⟩ := writeMessage_cases done
    · exact Mute.refl d
    · unfold mayWriteMessage at may
      split at may
      · rename_i web
        exact absurd (.inr (by rw [web]; rfl)) speaks.plain
      · rename_i asks
        exact absurd (.inl asks) speaks.plain
      · cases may
  | dnsHandler result =>
    refine silent ?_ rfl (response_none (by simp))
    simpa [perform, ClientConnection.dnsHandler, speaks.resolved, settleAfter] using speaks
  | arrive arrivals =>
    refine silent (speaks.mute ?_) rfl rfl
    simp only [perform, TcpSocket.arrive]
    split
    · exact mute_of_sock rfl rfl rfl rfl
    · exact Mute.refl c
  | plan sends => exact silent (speaks.mute (mute_of_sock rfl rfl rfl rfl)) rfl rfl
  | notify canRead canWrite =>
    refine silent (speaks.mute ?_) rfl rfl
    simp only [perform, TcpSocket.notify]
    split
    · rename_i valid
      refine mute_of_sock rfl ?_ rfl rfl
      simp [BufferedTcpSocket.isOpen, TcpSocket.isOpen, TcpSocket.addPendingCallable, valid]
    · exact Mute.refl c
  | dispatch => exact silent (dispatch_speaks speaks) rfl rfl
  | shutdownTimer => exact silent (shutdownTimer_speaks speaks) rfl rfl

end Speaking
end Crablib.SpeakingProofs
