import Dtls13.Driver.SideInvariant

/-! # What sending leaves alone

Sending a flight seals and writes records, and changes the flights, the message numbers
and the list of begun messages. A key update changes the sender besides. A relation
that sees none of that is kept by everything that sends.
-/

namespace Dtls13

open ByteCodec StateLogic

namespace SendingSide

/-- A relation that does not see how records are sealed and written. -/
class OutboxFrame (R : SendingSide → SendingSide → Prop) : Prop extends
    Std.Refl R, IsTrans SendingSide R where
  outbox : ∀ s o, R s (withOutbox o s)
  begun : ∀ s begun, R s { s with begun := begun }

/-- A relation that does not see the sending of flights. -/
class Frame (R : SendingSide → SendingSide → Prop) : Prop extends OutboxFrame R where
  flights : ∀ s flights, R s { s with flights := flights }
  numbers : ∀ s count, R s { s with sender :=
    { s.sender with traffic := s.sender.traffic.commitMessageSequences count } }

/-- Nothing that is received or configured has changed. -/
structure Unreceived (s next : SendingSide) : Prop where
  config : next.config = s.config
  receiver : next.receiver = s.receiver
  cids : next.cids = s.cids

/-- A relation that sees only what is received or configured. -/
class CallFrame (R : SendingSide → SendingSide → Prop) : Prop extends
    Std.Refl R, IsTrans SendingSide R where
  unreceived : ∀ {s next}, Unreceived s next → R s next

instance {R : SendingSide → SendingSide → Prop} [CallFrame R] : Frame R where
  outbox _ _ := CallFrame.unreceived ⟨rfl, rfl, rfl⟩
  begun _ _ := CallFrame.unreceived ⟨rfl, rfl, rfl⟩
  flights _ _ := CallFrame.unreceived ⟨rfl, rfl, rfl⟩
  numbers _ _ := CallFrame.unreceived ⟨rfl, rfl, rfl⟩

variable {P : Primitives} {hooks : AuthHooks} {R : SendingSide → SendingSide → Prop}

section OutboxFrame

variable [OutboxFrame R]

theorem keeps_onOutbox {α : Type} (m : EStateM Err Outbox α) : Keeps R (onOutbox m) :=
  keeps_zoom (fun s o => OutboxFrame.outbox s o) m

theorem keeps_requireTraffic : Keeps R requireTraffic :=
  keeps_bind keeps_get fun _ => keeps_ofExcept _

theorem keeps_sealRecord (contentType : UInt8) (content : Bytes) :
    Keeps R (sealRecord P contentType content) := keeps_bind keeps_get fun _ => keeps_onOutbox _

theorem keeps_ackProtectedRecord (number : RecordNumber) : Keeps R (ackProtectedRecord P number) :=
  keeps_bind keeps_get fun _ => keeps_bind (keeps_onOutbox _) fun _ => keeps_onOutbox _

theorem keeps_sendAlert (level description : UInt8) (s : SendingSide) :
    R s (s.sendAlert P level description) := by
  have hkeeps : Keeps R (do
      let wire ← sealRecord P recordTypeAlert [level, description]
      writeRecord wire) :=
    keeps_bind (keeps_sealRecord _ _) fun _ => keeps_onOutbox _
  exact exec_of_wp (hkeeps s)

theorem keeps_beginning {α : Type} (messages : List HandshakeMessage) {m : SendingM α}
    (hm : Keeps R m) : Keeps R (beginning messages m) := by
  intro s
  have hbegun : ∀ next, R s next → R s { next with begun := next.begun ++ messages } :=
    fun next hnext => IsTrans.trans (r := R) _ _ _ hnext (OutboxFrame.begun next _)
  refine wp_beginning (wp_mono (hm s) (fun _ => hbegun) fun _ next hnext => ?_)
  split
  · exact hnext
  · exact hbegun next hnext

theorem keeps_buildFlight (messages : List HandshakeMessage) : Keeps R (buildFlight P messages) :=
  keeps_bind keeps_get fun _ => keeps_bind (keeps_onOutbox _) fun _ => keeps_pure _

end OutboxFrame

section Frame

variable [Frame R]

theorem keeps_setFlight (slot : FlightSlot) (flight : Option SentFlight) :
    Keeps R (setFlight slot flight) := keeps_modify fun s => Frame.flights s _

theorem keeps_commitFlight (slot : FlightSlot) (messages : List HandshakeMessage)
    (f : SentFlight) : Keeps R (commitFlight P slot messages f) := by
  apply keeps_bind (keeps_beginning messages (keeps_onOutbox _))
  intro written
  apply keeps_bind
  · exact keeps_modify fun s => Frame.numbers s _
  · exact fun _ => keeps_setFlight slot _

theorem keeps_sendFlight (slot : FlightSlot) (bodies : List (UInt8 × Bytes)) :
    Keeps R (sendFlight P slot bodies) :=
  keeps_bind keeps_get fun _ => keeps_bind (keeps_buildFlight _) fun _ => keeps_commitFlight _ _ _

theorem keeps_sendNewSessionTickets (tickets : List (NewSessionTicketMessage × Option UInt8)) :
    Keeps R (sendNewSessionTickets P tickets) := fun s =>
  wp_sendNewSessionTickets (fun _ => Std.Refl.refl s) (Std.Refl.refl s)
    fun bodies _ => keeps_sendFlight .ticket bodies s

theorem keeps_sendNewConnectionIDs
    (hreceiver : ∀ s receiver, R s { s with receiver := receiver })
    (connectionIDs : List Bytes) (immediate : Bool) (registration : Option Err) :
    Keeps R (sendNewConnectionIDs P connectionIDs immediate registration) := by
  intro s
  apply wp_sendNewConnectionIDs
  · exact fun _ => Std.Refl.refl s
  · intro body _
    refine wp_imp (keeps_buildFlight _ s) ?_
    intro flight next hnext
    have hchanged : ∀ receiver, R s { next with receiver := receiver } := fun receiver =>
      Trans.trans hnext (hreceiver next receiver)
    refine ⟨fun _ receiver => hchanged receiver, fun _ receiver _ _ => ?_⟩
    have hcommit : Keeps R (commitFlight P .newConnectionID
        (s.nextMessages [(handshakeTypeNewConnectionID, body)]) flight) := keeps_commitFlight _ _ _
    refine wp_mono (hcommit { next with receiver := receiver }) ?_ ?_
    · exact fun _ _ hlast => Trans.trans (hchanged receiver) hlast
    · intro _ last hlast other
      have hlast : R s last := Trans.trans (hchanged receiver) hlast
      exact Trans.trans hlast (hreceiver last other)

theorem keeps_requestConnectionIDs
    (hopen : ∀ s : SendingSide, R s { s with cids := { s.cids with requestOpen := true } })
    (count : UInt8) : Keeps R (requestConnectionIDs P count) := fun s =>
  wp_requestConnectionIDs (fun _ => Std.Refl.refl s) fun _ =>
    wp_imp (keeps_sendFlight _ _ s) fun _ next hsent => Trans.trans hsent (hopen next)

theorem keeps_requestClientCertificate
    (hauth : ∀ (s : SendingSide) auth, R s { s with auth := auth }) (context body : Bytes) :
    Keeps R (requestClientCertificate P context body) := fun s =>
  wp_requestClientCertificate (fun _ => Std.Refl.refl s) fun _ _ =>
    wp_imp (keeps_sendFlight _ _ s) fun _ next hsent => Trans.trans hsent (hauth next _)

theorem keeps_processPostHandshakeCertificateRequest
    (hauth : ∀ (s : SendingSide) auth, R s { s with auth := auth }) (sequence : Nat)
    (body : Bytes) :
    Keeps R (processPostHandshakeCertificateRequest P hooks sequence body) := fun s =>
  wp_processPostHandshakeCertificateRequest (fun _ => Std.Refl.refl s) (Std.Refl.refl s)
    fun _ _ => wp_imp (keeps_sendFlight _ _ s)
      fun _ next hsent => Trans.trans hsent (hauth next _)

theorem keeps_ackPostHandshakeFlight (numbers : List RecordNumber) (slot : FlightSlot) :
    Keeps R (ackPostHandshakeFlight P numbers slot) := by
  apply keeps_bind keeps_get
  intro s
  cases s.flights slot with
  | none => exact keeps_pure _
  | some f =>
    apply keeps_ite (fun _ => keeps_setFlight _ _)
    exact fun _ => keeps_bind (keeps_onOutbox _) fun _ => keeps_setFlight _ _

theorem keeps_flightTimeout (slot : FlightSlot) (timeoutCount : Nat) :
    Keeps R (flightTimeout P slot timeoutCount) := by
  apply keeps_bind keeps_get
  intro s
  cases s.flights slot with
  | none => exact keeps_pure _
  | some f =>
    apply keeps_ite
    · exact fun _ => keeps_ite (fun _ => keeps_setFlight _ _) fun _ => keeps_pure _
    · exact fun _ => keeps_bind (keeps_onOutbox _) fun _ => keeps_setFlight _ _

theorem keeps_useNextConnectionID
    (hspares : ∀ (s : SendingSide) spares,
      R s { s with cids := { s.cids with peerSpareConnectionIDs := spares } })
    (hactivate : ∀ cid, Keeps R (activatePeerConnectionID cid)) : Keeps R useNextConnectionID := by
  apply keeps_bind keeps_get
  intro s
  cases s.cids.peerSpareConnectionIDs with
  | nil => exact keeps_throw _
  | cons cid spares =>
    apply keeps_bind (keeps_modify fun s => hspares s spares)
    intro _
    exact keeps_bind keeps_requireTraffic fun _ => hactivate cid

theorem keeps_receiveConnectionIDs
    (hcids : ∀ (s : SendingSide) cids, R s { s with cids := cids })
    (hactivate : ∀ cid, Keeps R (activatePeerConnectionID cid))
    (cids : ConnectionIDs) (active : Option Bytes) :
    Keeps R (receiveConnectionIDs cids active) := by
  apply keeps_bind (keeps_modify fun s => hcids s cids)
  intro _
  cases active with
  | none => exact keeps_pure _
  | some cid => exact hactivate cid

end Frame

/-! ## What is received -/

section CallFrame

variable [CallFrame R] {s : SendingSide}

theorem rel_trans {middle next : SendingSide} (hfirst : R s middle) (hsecond : R middle next) :
    R s next := IsTrans.trans (r := R) _ _ _ hfirst hsecond

theorem holds_of_keeps {α : Type} {m : SendingM α} (hm : Keeps R m) {middle : SendingSide}
    (hmiddle : R s middle) : Holds (R s) m middle :=
  wp_both (hm middle) fun _ hnext => rel_trans hmiddle hnext

theorem keeps_onSender {α : Type} (m : EStateM Err Sender α) : Keeps R (onSender m) := by
  apply keeps_zoom
  exact fun _ _ => CallFrame.unreceived ⟨rfl, rfl, rfl⟩

theorem keeps_beginKeyUpdate (requestUpdate : Bool) : Keeps R (beginKeyUpdate P requestUpdate) := by
  apply keeps_bind keeps_get
  intro s
  apply keeps_bind (keeps_onSender _)
  intro wire
  apply keeps_bind (keeps_modify fun s => OutboxFrame.begun s _)
  exact fun _ => keeps_onOutbox _

theorem keeps_retransmitPendingUpdate : Keeps R (retransmitPendingUpdate P) := by
  apply keeps_bind keeps_get
  intro s
  apply keeps_ite (fun _ => keeps_pure _)
  intro _
  exact keeps_bind (keeps_onSender _) fun _ => keeps_bind (keeps_onOutbox _) fun _ => keeps_pure _

variable (R s) in
theorem callFrame_sends : Sends P (R s) (fun _ _ => True) (fun _ _ _ => True) (fun _ _ => True)
    (fun _ _ => True) where
  same hmiddle hsame :=
    rel_trans hmiddle (CallFrame.unreceived ⟨hsame.config, hsame.receiver, hsame.cids⟩)
  reduceMTU _ hmiddle := rel_trans hmiddle (CallFrame.unreceived ⟨rfl, rfl, rfl⟩)
  forget hmiddle _ := rel_trans hmiddle (CallFrame.unreceived ⟨rfl, rfl, rfl⟩)
  outbox hmiddle _ := rel_trans hmiddle (CallFrame.unreceived ⟨rfl, rfl, rfl⟩)
  seals _ _ := ⟨trivial, fun _ _ _ => trivial⟩
  beginUpdate requestUpdate hmiddle :=
    holds_of_keeps (keeps_beginKeyUpdate requestUpdate) hmiddle
  repeatUpdate hmiddle := holds_of_keeps keeps_retransmitPendingUpdate hmiddle
  finishUpdate _ hmiddle := rel_trans hmiddle (CallFrame.unreceived ⟨rfl, rfl, rfl⟩)
  built _ _ _ _ := trivial
  commit slot hmiddle _ := holds_of_keeps (keeps_commitFlight slot _ _) hmiddle
  resend hmiddle _ := by
    constructor <;> intro _ <;>
      exact holds_of_keeps (keeps_bind (keeps_onOutbox _) fun _ => keeps_setFlight _ _) hmiddle

theorem keeps_updateAfterSend : Keeps R (updateAfterSend P) := fun s =>
  (callFrame_sends R s).updates.wp_updateAfterSend (Std.Refl.refl s)

theorem keeps_sendReturnRoutability (probe : Option Bytes) (content : Bytes) :
    Keeps R (sendReturnRoutability P probe content) :=
  keeps_bind keeps_get fun _ => keeps_bind (keeps_onOutbox _) fun _ =>
    keeps_bind (keeps_onOutbox _) fun _ => keeps_updateAfterSend

theorem rel_dispatch {α : Type} {m : SendingM α} (hm : Keeps R m) : R s (dispatch m s) :=
  (callFrame_sends (P := .checksum) R s).dispatch (Std.Refl.refl s) (hm s)

/-- The answer to a key update that was received. -/
theorem rel_receiveKeyUpdate
    (hreceive : ∀ sequence body, Keeps R (onReceiver (ReceivingTraffic.processKeyUpdate P
      sequence body)))
    (incomplete : Option Err) (sequence : Nat) (body : Bytes) (number : RecordNumber) :
    R s (s.step P hooks (.receiveKeyUpdate incomplete sequence body number)) :=
  rel_dispatch fun s => (callFrame_sends R s).updates.wp_processKeyUpdateFragment
    (Std.Refl.refl s) (hreceive sequence body s) incomplete number

/-- The event concerns connection IDs or the keys of the receiving side. -/
def Event.changesReceived : Event → Bool
  | .sendNewConnectionIDs .. | .requestConnectionIDs _ | .useNextConnectionID
  | .receiveConnectionIDs .. | .receiveKeyUpdate .. => true
  | _ => false

theorem rel_step {event : Event} (hevent : event.changesReceived = false) :
    R s (s.step P hooks event) := by
  cases event with
  | sendReturnRoutability probe content =>
    exact rel_dispatch (keeps_sendReturnRoutability probe content)
  | sendNewConnectionIDs | requestConnectionIDs | useNextConnectionID | receiveConnectionIDs
  | receiveKeyUpdate => cases hevent
  | _ => exact (callFrame_sends R s).step (Std.Refl.refl s) rfl rfl trivial

end CallFrame

end SendingSide

end Dtls13
