import Dtls13.Driver.FlightWrites
import Dtls13.Driver.PostHandshake

/-! # Invariants of the sending side

Every step is made of a few parts: a record is sealed and written, a key update is begun,
repeated or acknowledged, a flight is begun, acknowledged or sent again. A predicate that
each part keeps is kept by every step, whatever the order of the parts and wherever one
of them fails. The events that change the connection ID of the records are left out.
-/

namespace Dtls13

open ByteCodec StateLogic

namespace SendingSide

/-- What has nothing to do with messages. -/
structure SameMessages (s next : SendingSide) : Prop where
  sender : next.sender = s.sender
  transport : next.transport = s.transport
  flights : next.flights = s.flights
  begun : next.begun = s.begun

/-- Nor with what is received. -/
structure SameCalls (s next : SendingSide) : Prop extends SameMessages s next where
  config : next.config = s.config
  receiver : next.receiver = s.receiver
  cids : next.cids = s.cids

/-- What holds of every flight, when one of them is replaced. -/
theorem forall_setFlight {Q : SentFlight → Prop} {flights : FlightSlot → Option SentFlight}
    {slot : FlightSlot} {flight : Option SentFlight}
    (hflights : ∀ slot f, flights slot = some f → Q f) (hflight : ∀ f, flight = some f → Q f) :
    ∀ other f, Function.update flights slot flight other = some f → Q f := by
  intro other f hf
  by_cases hsame : other = slot
  · subst hsame
    rw [Function.update_self] at hf
    exact hflight f hf
  · rw [Function.update_of_ne hsame] at hf
    exact hflights other f hf

theorem eq_some_of_update_none {flights : FlightSlot → Option SentFlight}
    {slot other : FlightSlot} {f : SentFlight}
    (hf : Function.update flights slot none other = some f) : flights other = some f := by
  by_cases hsame : other = slot
  · subst hsame
    rw [Function.update_self] at hf
    cases hf
  · rwa [Function.update_of_ne hsame] at hf

/-- Kept, however the run ends. -/
abbrev Holds {α : Type} (I : SendingSide → Prop) (m : SendingM α) (s : SendingSide) : Prop :=
  wp m (fun _ => I) (fun _ => I) s

/-! ## Writing -/

section

variable {I : SendingSide → Prop} {S : CipherStore → CipherStore → Prop}
  {p : SealedRecord → Prop} {s : SendingSide}
  (hstart : Outbox.Writes S p s.outbox s.outbox)
  (hI : ∀ {o : Outbox}, Outbox.Writes S p s.outbox o → I (s.withOutbox o))

include hstart hI

theorem holds_writeRecords {records : List SealedRecord} (hrecords : ∀ r ∈ records, p r) :
    Holds I (writeRecords records) s := by
  unfold writeRecords onOutbox
  rw [Holds, wp_zoom]
  exact wp_both (hstart.wp_writeAll hrecords) fun _ hwrote => hI hwrote.1

theorem holds_writeRecord {record : SealedRecord} (hrecord : p record) :
    Holds I (writeRecord record) s := by
  rw [← writeRecords_singleton]
  exact holds_writeRecords hstart hI (List.forall_mem_singleton.mpr hrecord)

end

/-! ## Key updates -/

/-- The parts of a step that updates keys. `I promised` holds while an update has begun
and its loop is yet to start, or is owed nothing; `failed` is what an error leaves. -/
structure Updates (P : Primitives) (I : Bool → SendingSide → Prop) (failed : SendingSide → Prop) :
    Prop where
  fail : ∀ {promised s}, I promised s → failed s
  responsePending : ∀ {promised s} (pending : Bool), I promised s →
    I promised { s with keyUpdateResponsePending := pending }
  start : ∀ {s}, I true s → I false { s with starting := s.starting + 1 }
  beginUpdate : ∀ {s} (requestUpdate : Bool), I false s →
    wp (beginKeyUpdate P requestUpdate) (fun _ => I true) (fun _ => failed) s
  finishUpdate : ∀ {s} (numbers : List RecordNumber), I false s →
    I false { s with sender := (s.sender.processACK numbers).2 }
  acknowledge : ∀ {s} (number : RecordNumber), I false s →
    wp (ackProtectedRecord P number) (fun _ => I false) (fun _ => failed) s
  ackFlight : ∀ {promised s} (numbers : List RecordNumber) (slot : FlightSlot), I promised s →
    wp (ackPostHandshakeFlight P numbers slot) (fun _ => I promised) (fun _ => failed) s

namespace Updates

variable {P : Primitives} {I : Bool → SendingSide → Prop} {failed : SendingSide → Prop}
  {s : SendingSide} (hI : Updates P I failed)

include hI

theorem wp_ackFlights (numbers : List RecordNumber) (slots : List FlightSlot) {promised : Bool}
    (hs : I promised s) :
    wp (ackFlights P numbers slots) (fun _ => I promised) (fun _ => failed) s := by
  induction slots generalizing s with
  | nil => exact hs
  | cons slot rest ih => exact wp_seq (hI.ackFlight numbers slot hs) fun _ _ hnext => ih hnext

variable (hs : I false s)

include hs

theorem wp_beginAndStart (requestUpdate : Bool) :
    wp (do beginKeyUpdate P requestUpdate; startKeyUpdateRetransmission) (fun _ => I false)
      (fun _ => failed) s :=
  wp_seq (hI.beginUpdate requestUpdate hs) fun _ _ hnext => hI.start hnext

theorem wp_updateAfterSend : wp (updateAfterSend P) (fun _ => I false) (fun _ => failed) s := by
  unfold updateAfterSend maybeStartAutomaticKeyUpdate
  rw [wp_bind, wp_bind, wp_get, wp_ite]
  refine ⟨fun _ => ?_, fun _ => hs⟩
  exact wp_seq (hI.beginUpdate false hs) fun _ _ hnext => hI.start hnext

theorem wp_requestKeyUpdateAfterAuthFailures :
    wp (requestKeyUpdateAfterAuthFailures P) (fun _ => I false) (fun _ => failed) s := by
  unfold requestKeyUpdateAfterAuthFailures
  rw [wp_bind, wp_get, wp_ite]
  exact ⟨fun _ => hI.wp_beginAndStart hs true, fun _ => hs⟩

theorem wp_processKeyUpdateFragment {sequence : Nat} {body : Bytes}
    (hreceive : wp (onReceiver (ReceivingTraffic.processKeyUpdate P sequence body))
      (fun _ => I false) (fun _ => failed) s) (incomplete : Option Err) (number : RecordNumber) :
    wp (processKeyUpdateFragment P incomplete sequence body number) (fun _ => I false)
      (fun _ => failed) s := by
  unfold processKeyUpdateFragment
  cases incomplete with
  | some err => exact hI.fail hs
  | none =>
    dsimp only
    refine wp_seq hreceive ?_
    rintro ⟨requestUpdate, updated⟩ received hreceived
    refine wp_seq (hI.acknowledge number hreceived) ?_
    intro _ acked hacked
    rw [wp_bind, wp_get]
    refine wp_guard hacked fun _ => ?_
    refine wp_guard (hI.wp_beginAndStart hacked false) fun _ => ?_
    rw [wp_ite]
    exact ⟨fun _ => hI.responsePending true hacked, fun _ => hacked⟩

/-- A postponed update begins with the acknowledgement of the one before it. -/
theorem wp_ackKeyUpdate (numbers : List RecordNumber) :
    wp (ackKeyUpdate P numbers) I (fun _ => failed) s := by
  have hacked := hI.finishUpdate numbers hs
  unfold ackKeyUpdate
  rw [wp_bind, wp_get, wp_bind, wp_modify, wp_ite]
  refine ⟨fun _ => ?_, fun _ => hacked⟩
  unfold beginPendingKeyUpdate
  rw [wp_bind, wp_get, wp_ite]
  refine ⟨fun _ => ?_, fun _ => ?_⟩
  · refine wp_seq (hI.beginUpdate false hacked) ?_
    exact fun _ _ hnext => hI.responsePending false hnext
  · rw [wp_ite]
    exact ⟨fun _ => hI.responsePending false hacked, fun _ => hacked⟩

/-- An error after a postponed update began leaves it without its loop. -/
theorem wp_applyACK (numbers : List RecordNumber) :
    wp (applyACK P numbers) (fun _ => I false) (fun _ => failed) s := by
  unfold applyACK
  refine wp_seq (hI.wp_ackKeyUpdate hs numbers) ?_
  intro started acked hacked
  refine wp_seq (hI.wp_ackFlights numbers _ hacked) ?_
  intro _ next hnext
  cases started with
  | false => exact hnext
  | true => exact hI.start hnext

end Updates

/-! ## Everything that sends -/

/-- The messages of a flight, if it can be built. -/
def flightMessages (P : Primitives) (s : SendingSide) (bodies : List (UInt8 × Bytes)) :
    List HandshakeMessage :=
  if succeeds (buildFlight P (s.nextMessages bodies)) s then s.nextMessages bodies else []

/-- The message of an announcement, if it comes to be sent. -/
def announcedMessages (P : Primitives) (s : SendingSide) (connectionIDs : List Bytes)
    (immediate : Bool) (registration : Option Err) : List HandshakeMessage :=
  match registration, announceConnectionIDs P connectionIDs immediate s with
  | none, .ok (messages, _) _ => messages
  | _, _ => []

/-- A predicate that each part of a step keeps. `begins` is what is known of a state in
which a flight of some messages is begun, and `ready` of the flight that is built there.
The ciphers grow in the way `grows`, and `writable` are the records that may be written
when some messages were begun. -/
structure Sends (P : Primitives) (I : SendingSide → Prop)
    (begins : SendingSide → List HandshakeMessage → Prop)
    (ready : SendingSide → List HandshakeMessage → SentFlight → Prop)
    (grows : CipherStore → CipherStore → Prop)
    (writable : List HandshakeMessage → SealedRecord → Prop) : Prop where
  same : ∀ {s next}, I s → SameCalls s next → I next
  reduceMTU : ∀ {s} (mtu : Nat), I s → I { s with transport := { s.transport with pathMTU := mtu } }
  forget : ∀ {s flights}, I s → (∀ slot f, flights slot = some f → s.flights slot = some f) →
    I { s with flights := flights }
  outbox : ∀ {s o}, I s → Outbox.Writes grows (writable s.begun) s.outbox o → I (s.withOutbox o)
  seals : ∀ {s contentType contents records store}, I s → CipherStore.Seals P
      s.sender.traffic.cipher contentType s.sender.store contents records store →
    grows s.sender.store store ∧
      (contentType ≠ recordTypeHandshake → ∀ r ∈ records, writable s.begun r)
  beginUpdate : ∀ {s} (requestUpdate : Bool), I s → Holds I (beginKeyUpdate P requestUpdate) s
  repeatUpdate : ∀ {s}, I s → Holds I (retransmitPendingUpdate P) s
  finishUpdate : ∀ {s} (numbers : List RecordNumber), I s →
    I { s with sender := (s.sender.processACK numbers).2 }
  built : ∀ {s bodies g store}, I s →
    s.sender.traffic.canAllocateMessageSequences bodies.length = .ok () →
    CipherStore.FlightBuilt P (s.nextMessages bodies) s.transport.pathMTU s.sender.traffic.cipher
      s.sender.store g store → begins s (s.nextMessages bodies) →
    ready (s.withOutbox ⟨store, s.transport⟩) (s.nextMessages bodies) ⟨.sealed g, false⟩
  commit : ∀ {s messages f} (slot : FlightSlot), I s → ready s messages f →
    Holds I (commitFlight P slot messages f) s
  resend : ∀ {s slot f}, I s → s.flights slot = some f →
    (∀ numbers, Holds I (do
      let next ← onOutbox (Outbox.retransmitPartialFlight P (f.ack numbers))
      setFlight slot (some next)) s) ∧
    ∀ timeoutCount, Holds I (do
      let next ← onOutbox (Outbox.retransmitAfterTimeout P f timeoutCount)
      setFlight slot (some next)) s

section

variable {P : Primitives} {hooks : AuthHooks} {I : SendingSide → Prop}
  {begins : SendingSide → List HandshakeMessage → Prop}
  {ready : SendingSide → List HandshakeMessage → SentFlight → Prop}
  {grows : CipherStore → CipherStore → Prop}
  {writable : List HandshakeMessage → SealedRecord → Prop} {s : SendingSide}

namespace Sends

section Parts

variable (hI : Sends P I begins ready grows writable)

include hI

theorem wp_onStore {α : Type} {m : EStateM Err CipherStore α} (post : α → Prop) (hs : I s)
    (hm : wp m (fun value store => grows s.sender.store store ∧ post value)
      (fun _ => grows s.sender.store) s.sender.store) :
    wp (onOutbox (Outbox.onStore m)) (fun value next => I next ∧ next.begun = s.begun ∧ post value)
      (fun _ => I) s := by
  unfold onOutbox Outbox.onStore
  rw [wp_zoom, wp_zoom]
  refine wp_mono hm ?_ ?_
  · rintro value store ⟨hgrows, hpost⟩
    exact ⟨hI.outbox hs (Outbox.writes_store hgrows), rfl, hpost⟩
  · exact fun _ store hgrows => hI.outbox hs (Outbox.writes_store hgrows)

theorem writes_refl (hs : I s) : Outbox.Writes grows (writable s.begun) s.outbox s.outbox :=
  Outbox.writes_store (@hI.seals _ recordTypeACK _ _ _ hs .nil).1

theorem wp_writeRecord {record : SealedRecord} (hs : I s) (hrecord : writable s.begun record) :
    Holds I (writeRecord record) s :=
  holds_writeRecord (hI.writes_refl hs) (fun hwrites => hI.outbox hs hwrites) hrecord

theorem wp_sealRecord {contentType : UInt8} (hother : contentType ≠ recordTypeHandshake)
    (content : Bytes) (hs : I s) : wp (sealRecord P contentType content)
      (fun wire next => I next ∧ writable next.begun wire) (fun _ => I) s := by
  have hseal : wp (CipherStore.sealRecord P s.sender.traffic.cipher contentType content)
      (fun wire store => grows s.sender.store store ∧ writable s.begun wire)
      (fun _ => grows s.sender.store) s.sender.store := by
    refine wp_mono (CipherStore.wp_sealRecord_seals P _ contentType content _) ?_ ?_
    · intro wire store hseals
      obtain ⟨hgrows, hwritable⟩ := hI.seals hs hseals
      exact ⟨hgrows, hwritable hother wire (List.mem_singleton_self wire)⟩
    · rintro _ _ rfl
      exact (hI.writes_refl hs).store
  unfold sealRecord
  rw [wp_bind, wp_get]
  refine wp_imp (hI.wp_onStore _ hs hseal) ?_
  rintro wire next ⟨hnext, hbegun, hwire⟩
  exact ⟨hnext, hbegun ▸ hwire⟩

theorem wp_ackProtectedRecord (number : RecordNumber) (hs : I s) :
    Holds I (ackProtectedRecord P number) s := by
  have hbuild : wp (buildACKRecords P [number] s.transport.pathMTU s.sender.traffic.cipher)
      (fun acks store => grows s.sender.store store ∧ ∀ ack ∈ acks, writable s.begun ack)
      (fun _ => grows s.sender.store) s.sender.store := by
    refine wp_mono (CipherStore.wp_buildACKRecords _ _ _ s.sender.store) ?_ ?_
    · rintro acks store ⟨-, chunks, hacks⟩
      obtain ⟨hgrows, hwritable⟩ := hI.seals hs hacks.seals
      exact ⟨hgrows, hwritable (by decide)⟩
    · rintro _ store ⟨_, _, hseals⟩
      exact (hI.seals hs hseals).1
  unfold ackProtectedRecord
  rw [Holds, wp_bind, wp_get, wp_bind]
  refine wp_imp (hI.wp_onStore _ hs hbuild) ?_
  rintro acks next ⟨hnext, hbegun, hacks⟩
  exact holds_writeRecords (hI.writes_refl hnext) (fun hwrites => hI.outbox hnext hwrites)
    (hbegun ▸ hacks)

theorem wp_buildFlight (bodies : List (UInt8 × Bytes)) (hs : I s)
    (hcan : s.sender.traffic.canAllocateMessageSequences bodies.length = .ok ()) :
    wp (buildFlight P (s.nextMessages bodies)) (fun f next => I next ∧
        (begins s (s.nextMessages bodies) → ready next (s.nextMessages bodies) f))
      (fun _ => I) s := by
  unfold buildFlight
  rw [wp_bind, wp_get, wp_bind, onOutbox, Outbox.onStore, wp_zoom, wp_zoom]
  refine wp_mono (CipherStore.wp_buildProtectedFlight _ _ _ _) ?_ ?_
  · exact fun g store hbuilt => ⟨hI.outbox hs (Outbox.writes_store (hI.seals hs hbuilt.seals).1),
      hI.built hs hcan hbuilt⟩
  · rintro _ store ⟨_, _, _, -, hseals⟩
    exact hI.outbox hs (Outbox.writes_store (hI.seals hs hseals).1)

theorem wp_sendFlight (slot : FlightSlot) {bodies : List (UInt8 × Bytes)} (hs : I s)
    (hbegins : begins s (s.flightMessages P bodies))
    (hcan : s.sender.traffic.canAllocateMessageSequences bodies.length = .ok ()) :
    Holds I (sendFlight P slot bodies) s := by
  unfold sendFlight
  rw [Holds, wp_bind, wp_get, wp_bind]
  refine wp_imp (wp_and_eq (hI.wp_buildFlight bodies hs hcan)) ?_
  rintro f built ⟨⟨hbuilt, hready⟩, hrun⟩
  simp only [flightMessages, StateLogic.succeeds, hrun, if_true] at hbegins
  exact hI.commit slot hbuilt (hready hbegins)

theorem wp_dropFlight (slot : FlightSlot) (hs : I s) : Holds I (setFlight slot none) s :=
  hI.forget hs fun _ _ hf => eq_some_of_update_none hf

theorem wp_ackPostHandshakeFlight (numbers : List RecordNumber) (slot : FlightSlot) (hs : I s) :
    Holds I (ackPostHandshakeFlight P numbers slot) s := by
  unfold ackPostHandshakeFlight
  rw [Holds, wp_bind, wp_get]
  cases hslot : s.flights slot with
  | none => exact hs
  | some f =>
    exact wp_ite.mpr ⟨fun _ => hI.wp_dropFlight slot hs,
      fun _ => (hI.resend hs hslot).1 numbers⟩

theorem wp_flightTimeout (slot : FlightSlot) (timeoutCount : Nat) (hs : I s) :
    Holds I (flightTimeout P slot timeoutCount) s := by
  unfold flightTimeout
  rw [Holds, wp_bind, wp_get]
  cases hslot : s.flights slot with
  | none => exact hs
  | some f =>
    refine wp_ite.mpr ⟨fun _ => ?_, fun _ => (hI.resend hs hslot).2 timeoutCount⟩
    exact wp_ite.mpr ⟨fun _ => hI.wp_dropFlight slot hs, fun _ => hs⟩

theorem updates : Updates P (fun _ => I) I where
  fail hs := hs
  responsePending _ hs := hI.same hs ⟨⟨rfl, rfl, rfl, rfl⟩, rfl, rfl, rfl⟩
  start hs := hI.same hs ⟨⟨rfl, rfl, rfl, rfl⟩, rfl, rfl, rfl⟩
  beginUpdate := hI.beginUpdate
  finishUpdate := hI.finishUpdate
  acknowledge := hI.wp_ackProtectedRecord
  ackFlight := hI.wp_ackPostHandshakeFlight

theorem wp_writeDatagramLoop (payload : Bytes) (fuel : Nat) (hs : I s) :
    Holds I (writeDatagramLoop P payload fuel) s := by
  induction fuel generalizing s with
  | zero => exact hs
  | succ fuel ih =>
    unfold writeDatagramLoop
    rw [Holds, wp_bind, wp_get]
    refine wp_guard hs fun _ => ?_
    refine wp_seq (hI.wp_sealRecord (by decide) payload hs) ?_
    rintro wire sealed ⟨hsealed, hwritable⟩
    rw [wp_recover]
    refine wp_mono (hI.wp_writeRecord hsealed hwritable) (fun _ _ hnext => hnext) ?_
    intro err failed hfailed
    rw [wp_bind, wp_get]
    refine wp_guard hfailed fun _ => ?_
    cases failed.transport.reducePathMTU with
    | none => exact hfailed
    | some mtu =>
      dsimp only
      rw [wp_bind, wp_modify]
      exact ih (hI.reduceMTU mtu hfailed)

variable (hs : I s)

include hs

theorem wp_sealAndWrite {contentType : UInt8} (hother : contentType ≠ recordTypeHandshake)
    (content : Bytes) :
    Holds I (do let wire ← sealRecord P contentType content; writeRecord wire) s := by
  rw [Holds, wp_bind]
  refine wp_imp (hI.wp_sealRecord hother content hs) ?_
  exact fun _ _ hsealed => hI.wp_writeRecord hsealed.1 hsealed.2

theorem sendAlert (level description : UInt8) : I (s.sendAlert P level description) :=
  exec_of_wp (hI.wp_sealAndWrite hs (by decide) [level, description])

theorem wp_sendKeyUpdate (requestPeer : Bool) : Holds I (sendKeyUpdate P requestPeer) s := by
  unfold sendKeyUpdate
  rw [Holds, wp_bind]
  exact wp_requireTraffic (fun _ => hs) fun _ => hI.updates.wp_beginAndStart hs requestPeer

theorem wp_writeDatagram (payload : Bytes) : Holds I (writeDatagram P payload) s := by
  unfold writeDatagram
  rw [Holds, wp_bind, wp_get]
  cases s.failure with
  | some err => exact hs
  | none =>
    dsimp only
    refine wp_guard hs fun _ => ?_
    rw [wp_bind]
    apply wp_requireTraffic (fun _ => hs)
    intro _
    refine wp_seq (hI.wp_writeDatagramLoop payload _ hs) ?_
    exact fun _ _ hnext => hI.updates.wp_updateAfterSend hnext

end Parts

/-! ## Whole steps -/

section

variable (hI : Sends P I begins ready grows writable)

include hI

theorem clearTrafficSecrets (hs : I s) : I s.clearTrafficSecrets := by
  have hnone : I { s with flights := fun _ => none } := hI.forget hs nofun
  exact hI.same hnone ⟨⟨rfl, rfl, rfl, rfl⟩, rfl, rfl, rfl⟩

theorem finishFailure (hs : I s) : I (s.finishFailure P) := by
  unfold SendingSide.finishFailure
  cases s.failure with
  | none => exact hs
  | some err =>
    dsimp only
    split
    · split
      · exact hs
      · exact hI.clearTrafficSecrets (hI.sendAlert hs _ _)
    · exact hI.clearTrafficSecrets hs

theorem close (hs : I s) : I (s.close P) := by
  have hclosed : I { s with closed := true } := hI.same hs ⟨⟨rfl, rfl, rfl, rfl⟩, rfl, rfl, rfl⟩
  unfold SendingSide.close
  split
  · exact hs
  · split
    · exact hclosed
    · exact hI.clearTrafficSecrets (hI.sendAlert hclosed _ _)

theorem orFail {α : Type} {m : SendingM α} (hm : Holds I m s) : I (orFail m s) :=
  handle_of_wp (wp_mono hm (fun _ _ hnext => hnext)
    fun _ _ hnext => hI.same hnext ⟨⟨rfl, rfl, rfl, rfl⟩, rfl, rfl, rfl⟩)

theorem dispatch {α : Type} {m : SendingM α} (hs : I s) (hm : Holds I m s) : I (dispatch m s) := by
  unfold SendingSide.dispatch
  split
  · exact hs
  · exact hI.orFail hm

theorem keyUpdateTimer (hs : I s) : I (s.keyUpdateTimer P) := by
  unfold SendingSide.keyUpdateTimer
  split
  · exact hs
  · apply handle_of_wp
    refine wp_mono (hI.repeatUpdate hs) ?_ ?_
    · intro again next hnext
      split
      · exact hnext
      · exact hI.same hnext ⟨⟨rfl, rfl, rfl, rfl⟩, rfl, rfl, rfl⟩
    · exact fun _ _ hnext => hI.same hnext ⟨⟨rfl, rfl, rfl, rfl⟩, rfl, rfl, rfl⟩

theorem receiveAuthentication (hs : I s) (state : Option PostHandshakeAuthState) :
    I (s.receiveAuthentication state) := by
  have hforgotten : I { s with flights := (s.receiveAuthentication state).flights } := by
    apply hI.forget hs
    intro slot f hf
    unfold SendingSide.receiveAuthentication at hf
    dsimp only at hf
    split at hf
    · exact eq_some_of_update_none hf
    · exact hf
  exact hI.same hforgotten ⟨⟨rfl, rfl, rfl, rfl⟩, rfl, rfl, rfl⟩

end

end Sends

/-- The event can change the connection ID of a record. -/
def Event.aboutNames : Event → Bool
  | .useNextConnectionID | .receiveConnectionIDs .. | .sendReturnRoutability .. => true
  | _ => false

/-- The event can change what is received. -/
def Event.aboutReceiving : Event → Bool
  | .sendNewConnectionIDs .. | .requestConnectionIDs _ | .receiveKeyUpdate .. => true
  | _ => false

/-- The messages that the event sends for the first time when no write fails, KeyUpdates
aside. -/
def firstFlight (P : Primitives) (hooks : AuthHooks) (s : SendingSide) :
    Event → List HandshakeMessage
  | .sendNewSessionTickets tickets =>
    match s.newSessionTickets tickets with
    | .ok (some bodies) => s.flightMessages P bodies
    | _ => []
  | .sendNewConnectionIDs connectionIDs immediate registration =>
    s.announcedMessages P connectionIDs immediate registration
  | .requestConnectionIDs count =>
    match s.canRequestConnectionIDs with
    | .ok _ => s.flightMessages P
      [(handshakeTypeRequestConnectionID, marshalRequestConnectionID count)]
    | .error _ => []
  | .requestClientCertificate _ body =>
    match s.certificateRequest body with
    | .ok _ => s.flightMessages P [(handshakeTypeCertificateRequest, body)]
    | .error _ => []
  | .receiveCertificateRequest sequence body =>
    match s.cleared, s.certificateResponse hooks sequence body with
    | false, .ok (some (bodies, _)) => s.flightMessages P bodies
    | _, _ => []
  | _ => []

theorem Sends.step (hI : Sends P I begins ready grows writable) (hs : I s) {event : Event}
    (hnames : event.aboutNames = false) (hreceiving : event.aboutReceiving = false)
    (hbegins : begins s (s.firstFlight P hooks event)) : I (s.step P hooks event) := by
  have hset : ∀ {slot bodies} {f : SendingSide → SendingSide},
      begins s (s.flightMessages P bodies) →
      s.sender.traffic.canAllocateMessageSequences bodies.length = .ok () →
      (∀ next, SameCalls next (f next)) →
      wp (sendFlight P slot bodies) (fun _ next => I (f next)) (fun _ => I) s :=
    fun hbegin hcan hsame => wp_imp (hI.wp_sendFlight _ hs hbegin hcan)
      fun _ next hnext => hI.same hnext (hsame next)
  cases event with
  | sendKeyUpdate requestPeer => exact exec_of_wp (hI.wp_sendKeyUpdate hs requestPeer)
  | writeDatagram payload => exact exec_of_wp (hI.wp_writeDatagram hs payload)
  | sendNewSessionTickets tickets =>
    refine hI.orFail (wp_sendNewSessionTickets (fun _ => hs) hs fun bodies hbodies => ?_)
    simp only [firstFlight, hbodies] at hbegins
    exact hI.wp_sendFlight .ticket hs hbegins (canAllocate_of_newSessionTickets hbodies)
  | requestClientCertificate context body =>
    refine exec_of_wp (wp_requestClientCertificate (fun _ => hs) fun transcript hrequest => ?_)
    simp only [firstFlight, hrequest] at hbegins
    exact hset hbegins (canAllocate_of_certificateRequest hrequest)
      fun _ => ⟨⟨rfl, rfl, rfl, rfl⟩, rfl, rfl, rfl⟩
  | authFailures => exact hI.dispatch hs (hI.updates.wp_requestKeyUpdateAfterAuthFailures hs)
  | receiveACK numbers => exact hI.dispatch hs (hI.updates.wp_applyACK hs numbers)
  | receiveCertificateRequest sequence body =>
    dsimp only [SendingSide.step]
    unfold SendingSide.dispatch
    split
    next => exact hs
    next hkeys =>
      refine hI.orFail (wp_processPostHandshakeCertificateRequest (fun _ => hs) hs
        fun response hresponse => ?_)
      simp only [firstFlight, Bool.eq_false_iff.mpr hkeys, hresponse] at hbegins
      exact hset hbegins (canAllocate_of_certificateResponse hresponse)
        fun _ => ⟨⟨rfl, rfl, rfl, rfl⟩, rfl, rfl, rfl⟩
  | receiveAuthentication state =>
    dsimp only [SendingSide.step]
    split
    · exact hs
    · exact hI.receiveAuthentication hs state
  | acknowledge number => exact hI.dispatch hs (hI.wp_ackProtectedRecord number hs)
  | reject err => exact hI.same hs ⟨⟨rfl, rfl, rfl, rfl⟩, rfl, rfl, rfl⟩
  | startLoop =>
    dsimp only [SendingSide.step]
    split
    · exact hs
    · exact hI.same hs ⟨⟨rfl, rfl, rfl, rfl⟩, rfl, rfl, rfl⟩
  | keyUpdateTimer => exact hI.keyUpdateTimer hs
  | flightTimer slot timeoutCount => exact hI.orFail (hI.wp_flightTimeout slot timeoutCount hs)
  | finishFailure => exact hI.finishFailure hs
  | close => exact hI.close hs
  | useNextConnectionID | receiveConnectionIDs | sendReturnRoutability => cases hnames
  | sendNewConnectionIDs | requestConnectionIDs | receiveKeyUpdate => cases hreceiving

/-- Besides, what is received has nothing to do with it. -/
structure Invariant (P : Primitives) (I : SendingSide → Prop)
    (begins : SendingSide → List HandshakeMessage → Prop)
    (ready : SendingSide → List HandshakeMessage → SentFlight → Prop)
    (grows : CipherStore → CipherStore → Prop)
    (writable : List HandshakeMessage → SealedRecord → Prop) : Prop extends
    Sends P I begins ready grows writable where
  received : ∀ {s} (receiver : ReceivingTraffic) (cids : ConnectionIDs), I s →
    I { s with receiver := receiver, cids := cids }
  readyReceived : ∀ {s messages f} (receiver : ReceivingTraffic), ready s messages f →
    ready { s with receiver := receiver } messages f

theorem Invariant.wp_sendNewConnectionIDs (hI : Invariant P I begins ready grows writable)
    (hs : I s) {connectionIDs : List Bytes} {immediate : Bool} {registration : Option Err}
    (hbegins : begins s (s.announcedMessages P connectionIDs immediate registration)) :
    Holds I (sendNewConnectionIDs P connectionIDs immediate registration) s := by
  apply SendingSide.wp_sendNewConnectionIDs (fun _ => hs)
  intro body hcan
  refine wp_imp (hI.wp_buildFlight [(handshakeTypeNewConnectionID, body)] hs hcan) ?_
  rintro f built ⟨hbuilt, hready⟩
  refine ⟨fun _ receiver => hI.received receiver built.cids hbuilt, ?_⟩
  rintro merged receiver rfl hrun
  simp only [announcedMessages, hrun] at hbegins
  refine wp_mono (hI.commit .newConnectionID (hI.received receiver built.cids hbuilt)
    (hI.readyReceived receiver (hready hbegins))) (fun _ _ hnext => hnext) ?_
  exact fun _ last hlast receiver => hI.received receiver last.cids hlast

theorem Invariant.step (hI : Invariant P I begins ready grows writable) (hs : I s) {event : Event}
    (hnames : event.aboutNames = false) (hbegins : begins s (s.firstFlight P hooks event)) :
    I (s.step P hooks event) := by
  cases event with
  | sendNewConnectionIDs connectionIDs immediate registration =>
    exact exec_of_wp (hI.wp_sendNewConnectionIDs hs hbegins)
  | requestConnectionIDs count =>
    refine exec_of_wp (wp_requestConnectionIDs (fun _ => hs) fun hcan => ?_)
    simp only [firstFlight, hcan] at hbegins
    exact wp_imp (hI.wp_sendFlight _ hs hbegins (canAllocate_of_canRequestConnectionIDs hcan))
      fun _ next hnext => hI.received next.receiver _ hnext
  | receiveKeyUpdate incomplete sequence body number =>
    have hreceive : Holds I (onReceiver (ReceivingTraffic.processKeyUpdate P sequence body)) s := by
      rw [Holds, onReceiver, wp_zoom]
      unfold wp
      split <;> exact hI.received _ _ hs
    exact hI.dispatch hs (hI.updates.wp_processKeyUpdateFragment hs hreceive incomplete number)
  | _ => exact hI.toSends.step hs hnames rfl hbegins

end

end SendingSide

end Dtls13
