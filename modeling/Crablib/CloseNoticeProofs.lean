import Crablib.PipelineProofs

/-! What the web-socket handler of a client is told. The notes of a run list the
upgrades and the calls of the handler in the order in which they end; whether the
handler is set is all that the notes and the client have to agree on. -/
namespace Crablib.CloseNoticeProofs
open Http Server ServerRun PipelineProofs Client

inductive Note where
  /-- A call of `web_socket_upgrade` that returned. -/
  | upgraded
  /-- `on_client_handle_message` called the handler, and how the call ended. -/
  | told (message : WebMessage) (ending : UserEnd)
  /-- `on_client_disconnected` called the handler, and how the call ended. -/
  | parted (message : WebMessage) (ending : UserEnd)
  deriving DecidableEq

namespace Note

def isCall : Note → Bool
  | .upgraded => false
  | _ => true

def isClose : Note → Bool
  | .upgraded => false
  | .told message _ => message.opcode == .close
  | .parted message _ => message.opcode == .close

def returned : Note → Bool
  | .upgraded => true
  | .told _ ending => ending == .returns
  | .parted _ ending => ending == .returns

/-- A CLOSE frame of the peer. -/
def isPeerClose : Note → Bool
  | .told message _ => message.opcode == .close
  | _ => false

end Note

def closes (notes : List Note) : Nat := notes.countP Note.isClose

/-- The handler was told of the end exactly once, and of nothing afterwards. -/
structure NotifiedOnce (notes : List Note) : Prop where
  once : closes notes = 1
  last : notes.Pairwise fun earlier later => earlier.isClose = true → later.isCall = false

/-- The handler never throws when it is told of the end, and no upgrade follows a
CLOSE frame of the peer. -/
structure Careful (notes : List Note) : Prop where
  returns : ∀ note ∈ notes, note.isClose = true → note.returned = true
  final : notes.Pairwise fun earlier later => earlier.isPeerClose = true → later ≠ .upgraded

section Notes

variable {set : Bool} {notes : List Note}

theorem Careful.front {first second : List Note} (careful : Careful (first ++ second)) : Careful first :=
  ⟨fun note member => careful.returns note (List.mem_append_left _ member),
    (List.pairwise_append.mp careful.final).1⟩

private theorem peer_close {note : Note} (peer : note.isPeerClose = true) : note.isClose = true := by
  cases note <;> simp_all [Note.isPeerClose, Note.isClose]

/-- The notes of a client that is not erased, and whether its handler is set. -/
structure Kept (set : Bool) (notes : List Note) : Prop where
  isSet : Careful notes → set = true → closes notes = 0
  dropped : Careful notes → set = false → notes = [] ∨ NotifiedOnce notes ∧ ∃ note ∈ notes,
    note.isPeerClose = true
  careless : ¬Careful notes → 2 ≤ closes notes ∨ set = true ∧ 1 ≤ closes notes

theorem kept_start : Kept false [] where
  isSet := fun _ set => by cases set
  dropped := fun _ _ => .inl rfl
  careless := fun careless => absurd ⟨by simp, List.Pairwise.nil⟩ careless

private theorem closes_append (first second : List Note) :
    closes (first ++ second) = closes first + closes second :=
  List.countP_append

private theorem closes_upgrades {more : List Note} (upgrades : ∀ note ∈ more, note = .upgraded) :
    closes more = 0 := by
  refine List.countP_eq_zero.mpr fun note member => ?_
  rw [upgrades note member]
  simp [Note.isClose]

/-- Upgrades set the handler. -/
theorem Kept.upgrade (kept : Kept set notes) {more : List Note}
    (upgrades : ∀ note ∈ more, note = .upgraded) :
    Kept (set || !more.isEmpty) (notes ++ more) := by
  have same : closes (notes ++ more) = closes notes := by
    rw [closes_append, closes_upgrades upgrades, Nat.add_zero]
  cases more with
  | nil => simpa using kept
  | cons first rest =>
    obtain rfl := upgrades first List.mem_cons_self
    rw [List.isEmpty_cons, Bool.not_false, Bool.or_true]
    refine ⟨fun careful _ => ?_, fun _ unset => (by cases unset), fun careless => ?_⟩
    · rw [same]
      cases set with
      | true => exact kept.isSet careful.front rfl
      | false =>
        rcases kept.dropped careful.front rfl with rfl | ⟨-, note, member, peer⟩
        · rfl
        · exact absurd rfl ((List.pairwise_append.mp careful.final).2.2 note member
            _ List.mem_cons_self peer)
    · rw [same]
      by_cases before : Careful notes
      · -- only an upgrade behind a CLOSE frame can be what is careless
        refine .inr ⟨rfl, List.one_le_countP_iff.mpr (Classical.byContradiction fun absent => ?_)⟩
        have none : ∀ note ∈ notes, note.isClose = false := fun note member => by
          simpa using fun close => absent ⟨note, member, close⟩
        refine careless ⟨fun note member => ?_,
          List.pairwise_append.mpr ⟨before.final, ?_, fun note member _ _ peer => ?_⟩⟩
        · rcases List.mem_append.mp member with old | new
          · exact before.returns note old
          · rw [upgrades note new]
            exact fun _ => rfl
        · refine List.Pairwise.imp_of_mem (fun first _ _ peer => ?_)
            (List.pairwise_of_forall (fun _ _ => trivial))
          rw [upgrades _ first] at peer
          cases peer
        · exact absurd (peer_close peer) (by simp [none note member])
      · rcases kept.careless before with twice | ⟨-, once⟩
        · exact .inl twice
        · exact .inr ⟨rfl, once⟩

private theorem careful_snoc {note : Note} (careful : Careful notes)
    (returns : note.isClose = true → note.returned = true) (call : note ≠ .upgraded) :
    Careful (notes ++ [note]) := by
  refine ⟨fun other member => ?_,
    List.pairwise_append.mpr ⟨careful.final, List.pairwise_singleton _ _, ?_⟩⟩
  · rcases List.mem_append.mp member with old | new
    · exact careful.returns other old
    · rw [List.mem_singleton.mp new]
      exact returns
  · intro earlier _ later new _
    rw [List.mem_singleton.mp new]
    exact call

private theorem closes_snoc {note : Note} (close : note.isClose = true) :
    closes (notes ++ [note]) = closes notes + 1 := by
  simp [closes, close]

/-- The first word of the end, behind calls that were about something else. -/
private theorem notified_snoc {note : Note} (none : closes notes = 0)
    (close : note.isClose = true) : NotifiedOnce (notes ++ [note]) := by
  refine ⟨by rw [closes_snoc close, none],
    List.pairwise_append.mpr ⟨?_, List.pairwise_singleton _ _, ?_⟩⟩
  · refine List.Pairwise.imp_of_mem (fun first _ _ closed => ?_)
      (List.pairwise_of_forall (fun _ _ => trivial))
    exact absurd closed (List.countP_eq_zero.mp none _ first)
  · intro earlier old later _ closed
    exact absurd closed (List.countP_eq_zero.mp none earlier old)

/-- The handler is told something, and dropped behind a CLOSE for which it returned. -/
theorem Kept.told (kept : Kept true notes) (message : WebMessage) (ending : UserEnd) :
    Kept (!(ending == .returns && message.opcode == .close)) (notes ++ [.told message ending]) := by
  cases close : (Note.told message ending).isClose with
  | false =>
    have opcode : (message.opcode == .close) = false := close
    have same : closes (notes ++ [.told message ending]) = closes notes := by simp [closes, close]
    rw [opcode, Bool.and_false, Bool.not_false]
    refine ⟨fun careful _ => same.trans (kept.isSet careful.front rfl), fun _ unset =>
      (by cases unset), fun careless => ?_⟩
    rw [same]
    exact kept.careless fun careful => careless (careful_snoc careful (by simp [close]) (by simp))
  | true =>
    have opcode : (message.opcode == .close) = true := close
    rw [opcode, Bool.and_true]
    refine ⟨fun careful set => ?_, fun careful unset => ?_, fun careless => ?_⟩
    · have returns : (ending == .returns) = true :=
        careful.returns _ (List.mem_append_right _ List.mem_cons_self) close
      simp [returns] at set
    · exact .inr ⟨notified_snoc (kept.isSet careful.front rfl) close, _,
        List.mem_append_right _ List.mem_cons_self, close⟩
    · rw [closes_snoc close]
      by_cases before : Careful notes
      · have throws : (ending == .returns) = false := by
          cases returns : ending == .returns with
          | false => rfl
          | true =>
            have careful : Careful (notes ++ [.told message ending]) :=
              careful_snoc before (fun _ => returns) (by simp)
            exact absurd careful careless
        exact .inr ⟨by simp [throws], by omega⟩
      · rcases kept.careless before with twice | ⟨-, once⟩
        · exact .inl (by omega)
        · exact .inl (by omega)

/-- The handler throws when the client is disconnected, and stays set. -/
theorem kept_parted {message : WebMessage} (close : message.opcode = .close) {ending : UserEnd}
    (throws : ending ≠ .returns) : Kept true (notes ++ [.parted message ending]) := by
  have isClose : (Note.parted message ending).isClose = true := by simp [Note.isClose, close]
  refine ⟨fun careful _ => ?_, fun _ unset => (by cases unset),
    fun _ => .inr ⟨rfl, by rw [closes_snoc isClose]; omega⟩⟩
  have returns := careful.returns _ (List.mem_append_right _ List.mem_cons_self) isClose
  simp [Note.returned, throws] at returns

/-- What is claimed of an erased client that was upgraded. -/
def Finished (notes : List Note) : Prop := .upgraded ∈ notes → (NotifiedOnce notes ↔ Careful notes)

/-- The handler returns when the client is disconnected. -/
theorem Kept.finish (kept : Kept true notes) {message : WebMessage} (close : message.opcode = .close) :
    Finished (notes ++ [.parted message .returns]) := by
  have isClose : (Note.parted message .returns).isClose = true := by simp [Note.isClose, close]
  refine fun _ => ⟨fun notified => ?_, fun careful =>
    notified_snoc (kept.isSet careful.front rfl) isClose⟩
  have once := notified.once
  rw [closes_snoc isClose] at once
  refine Classical.byContradiction fun careless => ?_
  have before : ¬Careful notes := fun careful => careless (careful_snoc careful (fun _ => rfl) (by simp))
  rcases kept.careless before with twice | ⟨-, already⟩ <;> omega

/-- The handler was dropped before the client is disconnected, or never set. -/
theorem Kept.finished (kept : Kept false notes) : Finished notes := by
  intro upgraded
  refine ⟨fun notified => Classical.byContradiction fun careless => ?_, fun careful => ?_⟩
  · have once := notified.once
    rcases kept.careless careless with twice | ⟨set, -⟩
    · omega
    · cases set
  · rcases kept.dropped careful rfl with rfl | ⟨notified, -⟩
    · cases upgraded
    · exact notified

end Notes

section Calls

variable {user : Nat → UserCall} {who : Client}

/-- Whether an operation sets the web-socket handler. -/
def registers (who : Client) (date : Bytes) : ClientOp → Bool
  | .webSocketUpgrade =>
    match (who.perform date .webSocketUpgrade).1 with
    | .ok _ => true
    | .error _ => false
  | _ => false

def opsNotes (date : Bytes) : Client → List ClientOp → List Note
  | _, [] => []
  | who, op :: ops =>
    (if registers who date op then [.upgraded] else []) ++ opsNotes date (who.perform date op).2 ops

/-- The notes of the next call of the user's code. -/
def invokeNotes (user : Nat → UserCall) (who : Client) : List Note :=
  opsNotes (user who.calls).date { who with calls := who.calls + 1 } (user who.calls).ops

def callNotes (user : Nat → UserCall) (isSet : Bool) (who : Client) : List Note :=
  if isSet then invokeNotes user who else []

private theorem perform_wsHandler (who : Client) (date : Bytes) (op : ClientOp) :
    (who.perform date op).2.wsHandler = (who.wsHandler || registers who date op) ∧
      (who.perform date op).2.erased = who.erased := by
  have forwarded : ∀ (who : Client) (result : Except Error ServerConnection) (next : Client → Client),
      (∀ who, (next who).wsHandler = who.wsHandler ∧ (next who).erased = who.erased) →
      (who.forward result next).2.wsHandler = who.wsHandler ∧
      (who.forward result next).2.erased = who.erased := by
    intro who result next same
    cases result with
    | error e => exact ⟨rfl, rfl⟩
    | ok conn => exact same _
  cases op <;> simp only [registers, Bool.or_false]
  case write response =>
    simp only [Client.perform, Client.write]
    split <;> exact ⟨rfl, rfl⟩
  case writeMessage wm =>
    simp only [Client.perform, Client.writeMessage]
    split <;> exact forwarded _ _ _ fun _ => ⟨rfl, rfl⟩
  case writeData val bo => exact forwarded _ _ _ fun _ => ⟨rfl, rfl⟩
  case writeString ss bo => exact forwarded _ _ _ fun _ => ⟨rfl, rfl⟩
  case writeLastChunk bo => exact forwarded _ _ _ fun _ => ⟨rfl, rfl⟩
  case webSocketUpgrade =>
    simp only [Client.perform, Client.forward]
    cases who.conn.webSocketUpgrade with
    | error e => exact ⟨(Bool.or_false _).symm, rfl⟩
    | ok conn => exact ⟨(Bool.or_true _).symm, rfl⟩
  case postponeResponse =>
    simp only [Client.perform]
    split <;> exact ⟨rfl, rfl⟩
  case startWriteStream response => exact forwarded _ _ _ fun _ => ⟨rfl, rfl⟩
  case startWriteMessage opcode => exact forwarded _ _ _ fun _ => ⟨rfl, rfl⟩

private theorem opsNotes_upgrades (date : Bytes) (who : Client) (ops : List ClientOp) :
    ∀ note ∈ opsNotes date who ops, note = .upgraded := by
  induction ops generalizing who with
  | nil => simp [opsNotes]
  | cons op ops ih =>
    intro note member
    rcases List.mem_append.mp member with here | later
    · split at here
      · exact List.mem_singleton.mp here
      · cases here
    · exact ih _ note later

private theorem runOps_wsHandler (date : Bytes) (who : Client) (ops : List ClientOp) :
    (who.runOps date ops).wsHandler = (who.wsHandler || !(opsNotes date who ops).isEmpty) ∧
      (who.runOps date ops).erased = who.erased := by
  induction ops generalizing who with
  | nil => exact ⟨by simp [Client.runOps, opsNotes], rfl⟩
  | cons op ops ih =>
    obtain ⟨set, erased⟩ := perform_wsHandler who date op
    obtain ⟨sets, same⟩ := ih (who.perform date op).2
    have next : who.runOps date (op :: ops) = (who.perform date op).2.runOps date ops := rfl
    rw [next]
    refine ⟨?_, same.trans erased⟩
    rw [sets, set, opsNotes]
    cases registers who date op <;> simp

/-- The client and the notes so far agree. -/
structure Agree (who : Client) (notes : List Note) : Prop where
  present : who.erased = false
  kept : Kept who.wsHandler notes

private theorem runOps_agree {notes : List Note} (agree : Agree who notes) (date : Bytes)
    (ops : List ClientOp) :
    Agree (who.runOps date ops) (notes ++ opsNotes date who ops) := by
  obtain ⟨set, erased⟩ := runOps_wsHandler date who ops
  refine ⟨erased.trans agree.present, ?_⟩
  rw [set]
  exact agree.kept.upgrade (opsNotes_upgrades date who ops)

private theorem invoke_agree (user : Nat → UserCall) {notes : List Note} (agree : Agree who notes) :
    Agree (who.invoke user) (notes ++ invokeNotes user who) := by
  have counted : Agree { who with calls := who.calls + 1 } notes := ⟨agree.present, agree.kept⟩
  exact runOps_agree counted _ _

private theorem call_agree (user : Nat → UserCall) {notes : List Note}
    (agree : Agree who notes) (isSet : Bool) :
    Agree (who.call user isSet).2 (notes ++ callNotes user isSet who) := by
  unfold Client.call callNotes
  cases isSet with
  | false => simpa using agree
  | true =>
    simp only [Bool.not_true, Bool.false_eq_true, ↓reduceIte]
    split <;> exact invoke_agree user agree

/-- What only touches the connection agrees with the same notes. -/
private theorem Agree.conn {notes : List Note} (agree : Agree who notes) {next : Client}
    (set : next.wsHandler = who.wsHandler) (erased : next.erased = who.erased) : Agree next notes :=
  ⟨erased.trans agree.present, by rw [set]; exact agree.kept⟩

end Calls

section Server

variable {user : Nat → UserCall} {who : Client} {notes : List Note}

def messageNotes (user : Nat → UserCall) (who : Client) (message : WebMessage) : List Note :=
  if who.wsHandler then invokeNotes user who ++ [.told message (user who.calls).ending] else []

def loopNotes (user : Nat → UserCall) : Nat → Client → List Note
  | 0, _ => []
  | passes + 1, who =>
    match who.conn.readNextMessage with
    | (some message, conn) =>
      messageNotes user { who with conn := conn } message ++
        match onClientHandleMessage user { who with conn := conn } message with
        | (.error _, _) => []
        | (.ok _, next) => loopNotes user passes next
    | (none, _) =>
      match who.conn.readNextRequest with
      | (some _, conn) =>
        invokeNotes user { who with conn := conn } ++
          match onClientHandleRequest user { who with conn := conn } with
          | (.error _, _) => []
          | (.ok _, next) => loopNotes user passes next
      | (none, _) => []

def disconnectNotes (user : Nat → UserCall) (who : Client) : List Note :=
  callNotes user who.dHandler who ++
    match who.call user who.dHandler with
    | (.error _, _) => []
    | (.ok _, told) =>
      callNotes user told.rwdHandler told ++
        match told.call user told.rwdHandler with
        | (.error _, _) => []
        | (.ok _, streamed) =>
          if streamed.wsHandler then
            invokeNotes user streamed ++
              [.parted (disconnectMessage streamed) (user streamed.calls).ending]
          else []

def handlerNotes (user : Nat → UserCall) (who : Client) : List Note :=
  if !who.conn.isOpen then disconnectNotes user who
  else
    callNotes user who.rwdHandler who ++
      match who.call user who.rwdHandler with
      | (.error _, _) => []
      | (.ok _, streamed) => loopNotes user (streamed.conn.passes + 1) streamed

private theorem write_wsHandler (who : Client) (response : Response) (date : Bytes) :
    (who.write response date).2.wsHandler = who.wsHandler ∧
      (who.write response date).2.erased = who.erased := by
  obtain ⟨set, erased⟩ := perform_wsHandler who date (.write response)
  exact ⟨set.trans (Bool.or_false _), erased⟩

private theorem writeMessage_wsHandler (who : Client) (wm : WebMessage) :
    (who.writeMessage wm).2.wsHandler = who.wsHandler ∧ (who.writeMessage wm).2.erased = who.erased := by
  obtain ⟨set, erased⟩ := perform_wsHandler who [] (.writeMessage wm)
  exact ⟨set.trans (Bool.or_false _), erased⟩

private theorem request_agree (user : Nat → UserCall) (agree : Agree who notes) :
    Agree (onClientHandleRequest user who).2 (notes ++ invokeNotes user who) := by
  have after := invoke_agree user agree
  simp only [onClientHandleRequest]
  split
  · obtain ⟨set, erased⟩ :=
      write_wsHandler (who.invoke user) (unauthorizedResponse _) (user who.calls).date
    exact after.conn set erased
  · split
    · obtain ⟨set, erased⟩ := write_wsHandler (who.invoke user) (.simpleText 422 _) (user who.calls).date
      exact after.conn set erased
    · exact after
  · split <;> exact after

private theorem message_agree (user : Nat → UserCall) (agree : Agree who notes) (message : WebMessage) :
    Agree (onClientHandleMessage user who message).2 (notes ++ messageNotes user who message) := by
  cases set : who.wsHandler with
  | false =>
    simp only [onClientHandleMessage, messageNotes, set, Bool.false_eq_true, ↓reduceIte,
      List.append_nil, Bool.false_and]
    exact agree.conn set.symm rfl
  | true =>
    have after := invoke_agree user agree
    have still : (who.invoke user).wsHandler = true := by
      refine (runOps_wsHandler (user who.calls).date { who with calls := who.calls + 1 }
        (user who.calls).ops).1.trans ?_
      rw [set, Bool.true_or]
    have kept := after.kept
    rw [still] at kept
    have told := kept.told message (user who.calls).ending
    rw [List.append_assoc] at told
    simp only [onClientHandleMessage, messageNotes, set, ↓reduceIte]
    cases ending : (user who.calls).ending with
    | returns =>
      rw [ending] at told
      have drops : ((who.invoke user).wsHandler && decide (message.opcode ≠ .close)) =
          !(UserEnd.returns == .returns && message.opcode == .close) := by
        cases message.opcode <;> simp [still]
      refine ⟨after.present, ?_⟩
      show Kept ((who.invoke user).wsHandler && decide (message.opcode ≠ .close)) _
      rw [drops]
      exact told
    | unauthorized realm =>
      rw [ending] at told
      obtain ⟨same, erased⟩ :=
        writeMessage_wsHandler (who.invoke user) (errorMessage (str "Error Authorization Required"))
      refine ⟨erased.trans after.present, ?_⟩
      rw [same, still]
      exact told
    | throws what =>
      rw [ending] at told
      obtain ⟨same, erased⟩ := writeMessage_wsHandler (who.invoke user) (errorMessage what)
      refine ⟨erased.trans after.present, ?_⟩
      rw [same, still]
      exact told

private theorem loop_agree (user : Nat → UserCall) (passes : Nat) (agree : Agree who notes) :
    Agree (clientLoop user passes who).2 (notes ++ loopNotes user passes who) := by
  induction passes generalizing who notes with
  | zero => simpa [clientLoop, loopNotes] using agree
  | succ passes ih =>
    have moved : ∀ conn, Agree { who with conn := conn } notes := fun conn => agree.conn rfl rfl
    rcases read : who.conn.readNextMessage with ⟨_ | message, conn⟩
    · rcases taken : who.conn.readNextRequest with ⟨_ | request, conn⟩
      · simpa [clientLoop, loopNotes, read, taken] using agree
      · have handled := request_agree user (moved conn)
        rcases result : onClientHandleRequest user { who with conn := conn } with ⟨_ | _, next⟩ <;>
          rw [result] at handled
        · simpa [clientLoop, loopNotes, read, taken, result] using handled
        · simpa [clientLoop, loopNotes, read, taken, result] using ih handled
    · have handled := message_agree user (moved conn) message
      rcases result : onClientHandleMessage user { who with conn := conn } message with
        ⟨_ | _, next⟩ <;> rw [result] at handled
      · simpa [clientLoop, loopNotes, read, result] using handled
      · simpa [clientLoop, loopNotes, read, result] using ih handled

/-- An erased client is finished, another one agrees with its notes. -/
def Noted (who : Client) (notes : List Note) : Prop :=
  if who.erased then Finished notes else Agree who notes

private theorem noted_of_agree (agree : Agree who notes) : Noted who notes := by
  rw [Noted, agree.present]
  exact agree

/-- The web-socket handler at the disconnection, if it is set. -/
private theorem parted_noted (user : Nat → UserCall) (agree : Agree who notes)
    (set : who.wsHandler = true) :
    (user who.calls).ending = .returns ∧
      Finished (notes ++ (invokeNotes user who ++ [.parted (disconnectMessage who) .returns])) ∨
      (user who.calls).ending ≠ .returns ∧ Agree (who.invoke user)
        (notes ++ (invokeNotes user who ++
          [.parted (disconnectMessage who) (user who.calls).ending])) := by
  have after := invoke_agree user agree
  have still : (who.invoke user).wsHandler = true := by
    refine (runOps_wsHandler (user who.calls).date { who with calls := who.calls + 1 }
      (user who.calls).ops).1.trans ?_
    rw [set, Bool.true_or]
  have kept := after.kept
  rw [still] at kept
  have close : (disconnectMessage who).opcode = .close := rfl
  rw [← List.append_assoc]
  by_cases returns : (user who.calls).ending = .returns
  · exact .inl ⟨returns, kept.finish close⟩
  · refine .inr ⟨returns, after.present, ?_⟩
    rw [still, ← List.append_assoc]
    exact kept_parted close returns

private theorem error_returns {ending : UserEnd} : ending.error = none ↔ ending = .returns := by
  cases ending <;> simp [UserEnd.error]

private theorem disconnect_noted (user : Nat → UserCall) (agree : Agree who notes) :
    Noted (onClientDisconnected user who).2 (notes ++ disconnectNotes user who) := by
  have first := call_agree user agree who.dHandler
  rcases told_ : who.call user who.dHandler with ⟨_ | _, told⟩ <;> rw [told_] at first
  · simpa [onClientDisconnected, disconnectNotes, told_] using noted_of_agree first
  have second := call_agree user first told.rwdHandler
  rcases streamed_ : told.call user told.rwdHandler with ⟨_ | _, streamed⟩ <;> rw [streamed_] at second
  · simpa [onClientDisconnected, disconnectNotes, told_, streamed_] using noted_of_agree second
  cases set : streamed.wsHandler with
  | false =>
    have finished :
        Finished (notes ++ callNotes user who.dHandler who ++ callNotes user told.rwdHandler told) := by
      have kept := second.kept
      rw [set] at kept
      exact kept.finished
    have last : streamed.call user false = (.ok (), streamed) := rfl
    simpa [onClientDisconnected, disconnectNotes, told_, streamed_, set, last, Noted] using finished
  | true =>
    rcases parted_noted user second set with ⟨returns, finished⟩ | ⟨throws, agree'⟩
    · have quiet : (user streamed.calls).ending.error = none := error_returns.mpr returns
      have last : streamed.call user true = (.ok (), streamed.invoke user) := by
        simp [Client.call, quiet]
      simpa [onClientDisconnected, disconnectNotes, told_, streamed_, set, last,
        returns, Noted] using finished
    · cases thrown : (user streamed.calls).ending.error with
      | none => exact absurd (error_returns.mp thrown) throws
      | some e =>
        have last : streamed.call user true = (.error e, streamed.invoke user) := by
          simp [Client.call, thrown]
        simpa [onClientDisconnected, disconnectNotes, told_, streamed_, set, last] using
          noted_of_agree agree'

private theorem handler_noted (user : Nat → UserCall) (agree : Agree who notes) :
    Noted (onClientHandler user who).2 (notes ++ handlerNotes user who) := by
  unfold onClientHandler handlerNotes
  split
  · exact disconnect_noted user agree
  · have first := call_agree user agree who.rwdHandler
    rcases streamed_ : who.call user who.rwdHandler with ⟨_ | _, streamed⟩ <;> rw [streamed_] at first
    · simpa using noted_of_agree first
    · have looped := noted_of_agree (loop_agree user (streamed.conn.passes + 1) first)
      simpa using looped

end Server

section Runs

/-- What can happen to a client: an event of its socket with all that the server does
about it, its ping timer, and operations of the user's code at other times. -/
inductive Happening where
  | event (event : ClientEvent)
  | pingTimer
  | operates (ops : List ClientOp) (date : Bytes)

def happen (user : Nat → UserCall) (who : Client) : Happening → Client
  | .event event => handle user who event
  | .pingTimer =>
    if who.erased then who else { who with conn := (settle who.conn who.conn.onWmPingTimer).conn }
  | .operates ops date => if who.erased then who else who.runOps date ops

def happenNotes (user : Nat → UserCall) (who : Client) : Happening → List Note
  | .event event =>
    if who.erased then []
    else if (settled who event).1 then handlerNotes user (settled who event).2 else []
  | .pingTimer => []
  | .operates ops date => if who.erased then [] else opsNotes date who ops

/-- A client and the notes of its run. -/
def step (user : Nat → UserCall) (state : Client × List Note)
    (happening : Happening) : Client × List Note :=
  (happen user state.1 happening, state.2 ++ happenNotes user state.1 happening)

private theorem settled_wsHandler (who : Client) (event : ClientEvent) :
    (settled who event).2.wsHandler = who.wsHandler ∧ (settled who event).2.erased = who.erased := by
  cases event <;> exact ⟨rfl, rfl⟩

private theorem step_noted (user : Nat → UserCall) (state : Client × List Note) (happening : Happening)
    (noted : Noted state.1 state.2) :
    Noted (step user state happening).1 (step user state happening).2 := by
  obtain ⟨who, notes⟩ := state
  cases erased : who.erased with
  | true => cases happening <;> simpa [step, happen, happenNotes, handle, erased] using noted
  | false =>
    have agree : Agree who notes := by simpa [Noted, erased] using noted
    cases happening with
    | event event =>
      obtain ⟨set, same⟩ := settled_wsHandler who event
      have settled_ : Agree (settled who event).2 notes := agree.conn set same
      cases called : (settled who event).1 with
      | true => simpa [step, happen, happenNotes, handle, erased, called] using
          handler_noted user settled_
      | false => simpa [step, happen, happenNotes, handle, erased, called] using noted_of_agree settled_
    | pingTimer =>
      have pinged :
          Agree { who with conn := (settle who.conn who.conn.onWmPingTimer).conn }
          notes := agree.conn rfl rfl
      simpa [step, happen, happenNotes, erased] using noted_of_agree pinged
    | operates ops date =>
      simpa [step, happen, happenNotes, erased] using noted_of_agree (runOps_agree agree date ops)

/-- The client and its notes at the end of a run. -/
def noted (user : Nat → UserCall) (accepted : Accepted)
    (happenings : List Happening) : Client × List Note :=
  Run.after (step user) (newClient accepted, []) happenings

/-- When a client that was upgraded is erased, its handler was told of the end exactly
once and of nothing afterwards, if and only if it never threw when told of the end and
no upgrade followed a CLOSE frame of the peer. -/
theorem close_notice_once (user : Nat → UserCall) (accepted : Accepted) (happenings : List Happening)
    (erased : (noted user accepted happenings).1.erased = true)
    (upgraded : .upgraded ∈ (noted user accepted happenings).2) :
    NotifiedOnce (noted user accepted happenings).2 ↔ Careful (noted user accepted happenings).2 := by
  have start : Noted (newClient accepted) [] := by
    refine noted_of_agree ⟨?_, ?_⟩
    · rfl
    · exact kept_start
  have ends : Noted (noted user accepted happenings).1 (noted user accepted happenings).2 :=
    Run.invariant_of_keeps (P := fun state : Client × List Note => Noted state.1 state.2)
      (step_noted user) start happenings
  rw [Noted, erased] at ends
  exact ends upgraded

/-- A request handler that upgrades, and a web-socket handler whose first call ends as given. -/
private def upgrades (ending : UserEnd) : Nat → UserCall
  | 0 => { ops := [.webSocketUpgrade] }
  | 1 => { ending := ending }
  | _ => {}

/-- An upgrade, a CLOSE frame of the peer, and the end of the stream. -/
private def farewell : List ClientEvent :=
  received (str ("GET / HTTP/1.1\r\nconnection: upgrade\r\nupgrade: websocket\r\n" ++
      "sec-websocket-key: x\r\nsec-websocket-version: 13\r\n\r\n")) ++
    received [0x88, 0x80, 0, 0, 0, 0] ++
    [.arrive [.fin], .notify true true, .dispatch, .notify true true, .dispatch]

private def parting (ending : UserEnd) : Client × List Note :=
  noted (upgrades ending) .ready (farewell.map .event)

private def quietly : List Note := [.upgraded, .told { opcode := .close, closeCode := 1005 } .returns]

private def twice : List Note :=
  [.upgraded, .told { opcode := .close, closeCode := 1005 } (.throws (str "bye")),
    .parted { opcode := .close, closeCode := 1000 } .returns]

theorem close_notice_once_farewell :
    (parting .returns).1.erased = true ∧ NotifiedOnce (parting .returns).2 := by
  have ends : (parting .returns).1.erased = true ∧ (parting .returns).2 = quietly := by decide +kernel
  have careful : Careful (parting .returns).2 := by
    rw [ends.2]
    exact ⟨by decide, by decide⟩
  have upgraded : .upgraded ∈ (parting .returns).2 := by rw [ends.2]; exact List.mem_cons_self
  exact ⟨ends.1, (close_notice_once (upgrades .returns) .ready (farewell.map .event) ends.1
    upgraded).mpr careful⟩

/-- A handler that throws when it is told of the end is told of it again. -/
theorem close_told_twice :
    (parting (.throws (str "bye"))).1.erased = true ∧ .upgraded ∈ (parting (.throws (str "bye"))).2 ∧
      ¬NotifiedOnce (parting (.throws (str "bye"))).2 := by
  have ends : (parting (.throws (str "bye"))).1.erased = true ∧
    (parting (.throws (str "bye"))).2 = twice := by decide +kernel
  rw [ends.2]
  exact ⟨ends.1, List.mem_cons_self, fun notified => absurd notified.once (by decide)⟩

end Runs

end Crablib.CloseNoticeProofs
