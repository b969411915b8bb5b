import Crablib.ClientHistoryProofs
import Crablib.ServerHistoryProofs

/-! What a connection keeps from the connections before it. Nothing that its
user could notice, unless a message was left behind: `close`, `accept` and the
upgrade reset everything else. -/
namespace Crablib.HistoryProofs
open Http

/-- Whatever was done with a connection before, and whatever was received: if no
part of a web message was left in it, then from a close (of a client) or an
accept (of a server) on it cannot be told from a new one by any further calls
and any received bytes in any segments. A new client is compared that draws the
same random numbers. -/
theorem history_unseen (keys : List UInt32) (clientHistory : List ClientRun.ClientOp)
    (clientInputs : List ClientRun.Input) (serverHistory : List ServerRun.ServerOp)
    (accepted : Accepted) (serverInputs : List ServerRun.Input) :
    ((ClientRun.afterOps { keys := keys } clientHistory).reader.webMessage = none →
      ClientRun.observed (ClientRun.afterOps { keys := keys } clientHistory).close clientInputs =
        ClientRun.observed { keys := (ClientRun.afterOps { keys := keys } clientHistory).keys }
          clientInputs) ∧
    (accepted ≠ .missing → (ServerRun.afterOps {} serverHistory).reader.webMessage = none →
      ServerRun.observed ((ServerRun.afterOps {} serverHistory).accept accepted).2 serverInputs =
        ServerRun.observed (({} : ServerConnection).accept accepted).2 serverInputs) := by
  constructor
  · intro clean
    have held := ClientHistoryProofs.reached keys clientHistory
    have settled :
        ClientHistoryProofs.Settled (ClientRun.afterOps { keys := keys } clientHistory).close :=
      fun _ => rfl
    exact (ClientHistoryProofs.observed_same (ClientHistoryProofs.close_same held clean)
      settled clientInputs).symm
  · intro got clean
    have held := ServerHistoryProofs.reached serverHistory
    have mode :
        PairingProofs.Mode (ServerRun.perform (ServerRun.afterOps {} serverHistory)
        (.accept accepted)).conn :=
      PairingProofs.perform_mode held.mode (.accept accepted)
    rw [ServerRun.perform, ServerConnectionProofs.settleAfter_conn] at mode
    exact (ServerHistoryProofs.observed_same (ServerHistoryProofs.accept_same held clean got)
      mode serverInputs).symm

section Examples

/-- The random bytes of an upgrade. -/
def rdata : Bytes := List.replicate 16 7

def upgradeRequest : RequestHeader :=
  { method := str "GET"
    path := str "/"
    httpVersionMajor := 1
    httpVersionMinor := 1
    connectionUpgrade := true
    upgradeWebsocket := true
    secWebsocketVersion := str "13"
    secWebsocketKey := Base64.encode rdata }

/-- The answer to it. -/
def upgradeAnswer : ResponseHeader :=
  { connectionUpgrade := true
    upgradeWebsocket := true
    secWebsocketAccept := ResponseHeader.generateSecWebsocketAccept (Base64.encode rdata)
    status := 101 }

/-- A client connects, upgrades and receives these bytes. -/
def clientReceives (bytes : Bytes) : List ClientRun.Input :=
  [.single (.connectAddress [] 80 .inProgress) rfl, .segments [] true,
    .single (.webSocketUpgrade { path := str "/" } rdata) rfl,
    .segments (segment upgradeAnswer.toString) true,
    .segments (segment bytes) true, .single .readNextMessage rfl]

/-- A server, after its accept, is asked to upgrade, does and receives these
bytes. -/
def serverReceives (bytes : Bytes) : List ServerRun.Input :=
  [.segments (segment upgradeRequest.toString) true, .single .readNextRequest rfl,
    .single .webSocketUpgrade rfl, .segments (segment bytes) true, .single .readNextMessage rfl]

/-- A whole text message, and the first half of one. -/
def wholeMessage : Bytes := webMessageHeader true 1 1 none ++ str "a"

def halfMessage : Bytes := webMessageHeader false 1 1 none ++ str "a"

def clientHistory (bytes : Bytes) : List ClientRun.ClientOp :=
  (clientReceives bytes).flatMap ClientRun.Input.ops

def serverHistory (bytes : Bytes) : List ServerRun.ServerOp :=
  .accept .ready :: (serverReceives bytes).flatMap ServerRun.Input.ops

/-- After a history in which a message was received and read, the next one
arrives as on a new connection. -/
theorem history_unseen_read :
    ((ClientRun.afterOps { keys := [7] } (clientHistory wholeMessage)).reader.webMessage = none ∧
      ClientRun.observed (ClientRun.afterOps { keys := [7] } (clientHistory wholeMessage)).close
          (clientReceives wholeMessage) =
        ClientRun.observed { keys := (ClientRun.afterOps { keys := [7] }
          (clientHistory wholeMessage)).keys }
          (clientReceives wholeMessage)) ∧
    ((ServerRun.afterOps {} (serverHistory wholeMessage)).reader.webMessage = none ∧
      ServerRun.observed ((ServerRun.afterOps {} (serverHistory wholeMessage)).accept .ready).2
          (serverReceives wholeMessage) =
        ServerRun.observed (({} : ServerConnection).accept .ready).2 (serverReceives wholeMessage)) := by
  have client :
      (ClientRun.afterOps { keys := [7] } (clientHistory wholeMessage)).reader.webMessage = none := by
    decide +kernel
  have server : (ServerRun.afterOps {} (serverHistory wholeMessage)).reader.webMessage = none := by
    decide +kernel
  obtain ⟨clientUnseen, serverUnseen⟩ :=
    history_unseen [7] (clientHistory wholeMessage) (clientReceives wholeMessage)
    (serverHistory wholeMessage) .ready (serverReceives wholeMessage)
  exact ⟨⟨client, clientUnseen client⟩, server, serverUnseen (by decide) server⟩

/-- Half a message is received before the connection is closed. On the next
connection a whole message is a protocol error, on a new one it is delivered. -/
theorem half_message_leaks :
    (ClientRun.observed (ClientRun.afterOps {} (clientHistory halfMessage)).close
      (clientReceives wholeMessage) ≠
        ClientRun.observed { keys := (ClientRun.afterOps {} (clientHistory halfMessage)).keys }
          (clientReceives wholeMessage)) ∧
      ServerRun.observed ((ServerRun.afterOps {} (serverHistory halfMessage)).accept .ready).2
          (serverReceives wholeMessage) ≠
        ServerRun.observed (({} : ServerConnection).accept .ready).2 (serverReceives wholeMessage) := by
  constructor <;> decide +kernel

end Examples

end Crablib.HistoryProofs
