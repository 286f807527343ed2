import Dtls13.Conn.System
import Dtls13.Driver.Transport

/-! # Sending over a transport that can fail

The sending side of an established connection when any write to the transport can
fail. A step is one critical section of the code. The error of a call is returned to
the application and the connection goes on; an error of the dispatcher or of a timer
fails the connection, whose keys are dropped in a step of its own. What the receiving
side makes of a record, as far as sending does not depend on it, comes with the event.
-/

namespace Dtls13

open ByteCodec StateLogic Outbox ReceivingTraffic

namespace Sender

def canBeginKeyUpdate (s : Sender) : Bool :=
  s.traffic.update.canUseNewKeys && s.cipher.epoch < maxSendingEpoch

theorem CanBegin.canBeginKeyUpdate {s : Sender} (hcan : s.CanBegin) :
    s.canBeginKeyUpdate = true := by
  simp [Sender.canBeginKeyUpdate, KeyUpdateState.canUseNewKeys, hcan.idle, hcan.epoch_lt]

/-- Keys can be updated, and `seals` more records bring the record limit close. -/
def updateDueAfter (s : Sender) (seals : Nat) : Bool :=
  let limit := s.cipher.suite.recordLimit
  let margin := max (min (limit / 4) 1024) 1
  s.canBeginKeyUpdate && limit - margin ≤ s.cipher.nextSequence + seals

end Sender

/-- The registered connection IDs as they were before a failed announcement. -/
def ReceivingTraffic.restoreConnectionIDs (r : ReceivingTraffic) (connectionIDs : List Bytes) :
    ReceivingTraffic :=
  { r with
    acceptedCIDs := connectionIDs
    epochs := r.epochs.mapCiphers (fun c => { c with acceptedCIDs := connectionIDs })
      fun _ => rfl }

/-- One endpoint after its handshake. `starting` counts the retransmission loops of
key updates that are about to start, and `running` those that run. `begun` lists, in
order, the messages whose first transmission was begun; nothing depends on it. -/
structure SendingSide where
  isClient : Bool
  config : Config
  sender : Sender
  receiver : ReceivingTraffic
  transport : Transport
  flights : FlightSlot → Option SentFlight
  keyUpdateResponsePending : Bool
  cids : ConnectionIDs
  auth : ClientAuth
  starting : Nat
  running : Nat
  begun : List HandshakeMessage
  failure : Option Err
  closed : Bool
  cleared : Bool

abbrev SendingM (α : Type) := EStateM Err SendingSide α

namespace SendingSide

variable (P : Primitives) (hooks : AuthHooks)

/-- A connection after its handshake, over a transport with the given outcomes. -/
def start (c : Conn) (outcomes : List WriteOutcome) : SendingSide where
  isClient := c.isClient
  config := c.config
  sender := c.sender
  receiver := c.receiver
  transport := ⟨c.pathMTU, c.pathMTUFloor, outcomes, []⟩
  flights := fun _ => none
  keyUpdateResponsePending := false
  cids := c.cids
  auth := c.auth
  starting := 0
  running := 0
  begun := []
  failure := none
  closed := false
  cleared := false

/-- Neither closed nor failed. -/
def live (s : SendingSide) : Bool := s.failure.isNone && !s.closed

/-- An update waits for its acknowledgement. -/
def updatePending (s : SendingSide) : Bool := s.sender.traffic.update.pending

def outbox (s : SendingSide) : Outbox := ⟨s.sender.store, s.transport⟩

def withOutbox (o : Outbox) (s : SendingSide) : SendingSide :=
  { s with sender := { s.sender with store := o.store }, transport := o.transport }

def onSender {α : Type} (m : EStateM Err Sender α) : SendingM α :=
  zoom SendingSide.sender (fun sender s => { s with sender := sender }) m

def onOutbox {α : Type} (m : EStateM Err Outbox α) : SendingM α := zoom outbox withOutbox m

def onReceiver {α : Type} (m : EStateM Err ReceivingTraffic α) : SendingM α :=
  zoom SendingSide.receiver (fun r s => { s with receiver := r }) m

def writeRecords (records : List SealedRecord) : SendingM Unit :=
  onOutbox (onTransport (Transport.writeAll records))

def writeRecord (record : SealedRecord) : SendingM Unit :=
  onOutbox (onTransport (Transport.write record))

theorem writeRecords_singleton (record : SealedRecord) :
    writeRecords [record] = writeRecord record := by
  simp [writeRecords, writeRecord, Transport.writeAll]

def sealRecord (contentType : UInt8) (content : Bytes) : SendingM SealedRecord := do
  let s ← get
  onOutbox (onStore (CipherStore.sealRecord P s.sender.traffic.cipher contentType content))

def trafficInstalled (s : SendingSide) : Except Err Unit :=
  if s.cleared then throw (.protocolError "application traffic state is not installed")
  else pure ()

def requireTraffic : SendingM Unit := do
  let s ← get
  ofExcept s.trafficInstalled

def ackProtectedRecord (number : RecordNumber) : SendingM Unit := do
  let s ← get
  let acks ← onOutbox (onStore
    (buildACKRecords P [number] s.transport.pathMTU s.sender.traffic.cipher))
  writeRecords acks

/-! ## Key updates -/

/-- Begins an update and writes its record. When the write fails, the update is
pending all the same. -/
def beginKeyUpdate (requestUpdate : Bool) : SendingM Unit := do
  let s ← get
  let wire ← onSender (Sender.beginKeyUpdate P requestUpdate)
  modify fun next => { next with begun := next.begun ++ [⟨handshakeTypeKeyUpdate,
    s.sender.traffic.messageSequence, marshalKeyUpdate requestUpdate⟩] }
  writeRecord wire

/-- A retransmission loop is about to start. -/
def startKeyUpdateRetransmission : SendingM Unit :=
  modify fun s => { s with starting := s.starting + 1 }

def sendKeyUpdate (requestPeer : Bool) : SendingM Unit := do
  requireTraffic
  beginKeyUpdate P requestPeer
  startKeyUpdateRetransmission

/-- Says whether an update was begun. -/
def maybeStartAutomaticKeyUpdate : SendingM Bool := do
  let s ← get
  if s.sender.updateDueAfter 0 then do
    beginKeyUpdate P false
    pure true
  else pure false

/-- The update of a record that was sent, with its loop. -/
def updateAfterSend : SendingM Unit := do
  let started ← maybeStartAutomaticKeyUpdate P
  if started then startKeyUpdateRetransmission else pure ()

def fitsDatagram (s : SendingSide) (payload : Bytes) : Bool :=
  payload.length ≤ s.sender.cipher.maxContent && (s.config.ignorePathMTU ||
    payload.length + (s.sender.cipher.headerLen16 + s.sender.cipher.suite.overhead + 1) ≤
      s.transport.pathMTU)

/-- Seals and writes a datagram, again for each smaller MTU. Each turn but the last
uses up an outcome, so the number of outcomes bounds the turns. -/
def writeDatagramLoop (payload : Bytes) : Nat → SendingM Unit
  | 0 => throw .datagramTooLarge
  | fuel + 1 => do
    let s ← get
    if !s.fitsDatagram payload then throw .datagramTooLarge
    else do
      let wire ← sealRecord P recordTypeApplicationData payload
      recover (writeRecord wire) fun err => do
        let s ← get
        if s.config.ignorePathMTU || err ≠ .datagramTooLarge then throw err
        else match s.transport.reducePathMTU with
          | none => throw err
          | some mtu => do
            modify fun s => { s with transport := { s.transport with pathMTU := mtu } }
            writeDatagramLoop payload fuel

def writeDatagram (payload : Bytes) : SendingM Unit := do
  let s ← get
  match s.failure with
  | some err => throw err
  | none =>
    if s.closed then throw (.plain "use of closed network connection")
    else do
      requireTraffic
      writeDatagramLoop P payload (s.transport.outcomes.length + 1)
      updateAfterSend P

/-- A path message, sealed with the connection ID of the probed path if there is one. -/
def sendReturnRoutability (probeConnectionID : Option Bytes) (content : Bytes) :
    SendingM Unit := do
  let s ← get
  let ref := s.sender.traffic.cipher
  let wire ← onOutbox (onStore (match probeConnectionID with
    | none => CipherStore.sealRecord P ref recordTypeReturnRoutability content
    | some cid => Outbound.sealProbe P ref cid content))
  writeRecord wire
  updateAfterSend P

def requestKeyUpdateAfterAuthFailures : SendingM Unit := do
  let s ← get
  if s.sender.canBeginKeyUpdate then do
    beginKeyUpdate P true
    startKeyUpdateRetransmission
  else pure ()

/-- `incomplete` is the error of a KeyUpdate that arrives within another message. -/
def processKeyUpdateFragment (incomplete : Option Err) (sequence : Nat) (body : Bytes)
    (number : RecordNumber) : SendingM Unit := do
  match incomplete with
  | some err => throw err
  | none => do
    let (requestUpdate, updated) ← onReceiver (processKeyUpdate P sequence body)
    ackProtectedRecord P number
    let s ← get
    if !updated || !requestUpdate then pure ()
    else if s.sender.canBeginKeyUpdate then do
      beginKeyUpdate P false
      startKeyUpdateRetransmission
    else if s.sender.cipher.epoch < maxSendingEpoch then
      modify fun s => { s with keyUpdateResponsePending := true }
    else pure ()

/-- The loop goes on after this turn. -/
def retransmitPendingUpdate : SendingM Bool := do
  let s ← get
  if s.closed || s.cleared || s.sender.traffic.update.canUseNewKeys then pure false
  else do
    let wire ← onSender (Sender.retransmitKeyUpdate P)
    writeRecord wire
    pure true

/-! ## Flights -/

def setFlight (slot : FlightSlot) (flight : Option SentFlight) : SendingM Unit :=
  modify fun s => { s with flights := Function.update s.flights slot flight }

/-- Lists messages as begun: when the run succeeds, or fails with records written. -/
def beginning {α : Type} (messages : List HandshakeMessage) (m : SendingM α) : SendingM α :=
  fun s =>
    match m s with
    | .ok value next => .ok value { next with begun := next.begun ++ messages }
    | .error err next =>
      .error err (if next.transport.written.length = s.transport.written.length then next
        else { next with begun := next.begun ++ messages })

theorem wp_beginning {α : Type} {messages : List HandshakeMessage} {m : SendingM α}
    {post : α → SendingSide → Prop} {fail : Err → SendingSide → Prop} {s : SendingSide}
    (hm : wp m (fun value next => post value { next with begun := next.begun ++ messages })
      (fun err next => fail err (if next.transport.written.length = s.transport.written.length
        then next else { next with begun := next.begun ++ messages })) s) :
    wp (beginning messages m) post fail s := by
  unfold wp beginning
  rcases wp_cases hm with ⟨value, next, hrun, hpost⟩ | ⟨err, next, hrun, hfail⟩
  · rw [hrun]
    exact hpost
  · rw [hrun]
    exact hfail

def buildFlight (messages : List HandshakeMessage) : SendingM SentFlight := do
  let s ← get
  let flight ← onOutbox (onStore
    (buildProtectedFlight P messages s.transport.pathMTU s.sender.traffic.cipher))
  pure ⟨.sealed flight, false⟩

/-- Writes a new flight, takes the numbers of its messages and keeps it. -/
def commitFlight (slot : FlightSlot) (messages : List HandshakeMessage) (f : SentFlight) :
    SendingM Unit := do
  let written ← beginning messages (onOutbox (writeFlight P f))
  modify fun s => { s with sender :=
    { s.sender with traffic := s.sender.traffic.commitMessageSequences messages.length } }
  setFlight slot (some written)

/-- The messages of a flight begun now. -/
def nextMessages (s : SendingSide) (bodies : List (UInt8 × Bytes)) : List HandshakeMessage :=
  numberMessages s.sender.traffic.messageSequence bodies

def sendFlight (slot : FlightSlot) (bodies : List (UInt8 × Bytes)) : SendingM Unit := do
  let s ← get
  let flight ← buildFlight P (s.nextMessages bodies)
  commitFlight P slot (s.nextMessages bodies) flight

/-- The checks of `sendNewSessionTickets`, and its messages if there is anything to send. -/
def newSessionTickets (s : SendingSide) (tickets : List (NewSessionTicketMessage × Option UInt8)) :
    Except Err (Option (List (UInt8 × Bytes))) :=
  if s.isClient || tickets.isEmpty || tickets.any fun t => 65535 < t.1.ticket.length then pure none
  else do
    let bodies ← Conn.ticketBodies tickets
    s.trafficInstalled
    s.sender.traffic.canAllocateMessageSequences bodies.length
    pure (some bodies)

def sendNewSessionTickets (tickets : List (NewSessionTicketMessage × Option UInt8)) :
    SendingM Unit := do
  let s ← get
  match ← ofExcept (s.newSessionTickets tickets) with
  | none => pure ()
  | some bodies => sendFlight P .ticket bodies

/-- The checks and the flight of an announcement; the peer's records are accepted under
the new IDs from then on. Returns the messages, their flight and all IDs. -/
def announceConnectionIDs (connectionIDs : List Bytes) (immediate : Bool) :
    SendingM (List HandshakeMessage × SentFlight × List Bytes) := do
  let usage := if immediate then ConnectionIDUsage.immediate else .spare
  let body ← ofExcept (NewConnectionIDMessage.marshal ⟨connectionIDs, usage⟩)
  let s ← get
  if !s.cids.negotiated || !s.cids.localUpdatesAllowed then
    throw (.protocolError "NewConnectionId is not permitted for this connection")
  else if (s.flights .newConnectionID).any (!·.complete) then
    throw (.plain "dtls13: NewConnectionId is already awaiting acknowledgement")
  else do
    requireTraffic
    ofExcept (s.sender.traffic.canAllocateMessageSequences 1)
    let merged ← ofExcept (mergeConnectionIDs s.receiver.acceptedCIDs connectionIDs)
    if s.config.maxConnectionIDs < merged.length then
      throw (.configError "NewConnectionId exceeds MaxConnectionIDs")
    else do
      let messages := s.nextMessages [(handshakeTypeNewConnectionID, body)]
      let flight ← buildFlight P messages
      onReceiver (addConnectionIDs connectionIDs)
      pure (messages, flight, merged)

def restoreConnectionIDs (connectionIDs : List Bytes) : SendingM Unit :=
  modify fun s => { s with receiver := s.receiver.restoreConnectionIDs connectionIDs }

/-- `registration` is the error of registering the new IDs with the listener. An
announcement that fails is taken back. -/
def sendNewConnectionIDs (connectionIDs : List Bytes) (immediate : Bool)
    (registration : Option Err) : SendingM Unit := do
  let s ← get
  let (messages, flight, _) ← announceConnectionIDs P connectionIDs immediate
  match registration with
  | some err => do
    restoreConnectionIDs s.receiver.acceptedCIDs
    throw err
  | none =>
    recover (commitFlight P .newConnectionID messages flight) fun err => do
      restoreConnectionIDs s.receiver.acceptedCIDs
      throw err

/-- The checks of `requestConnectionIDs`. -/
def canRequestConnectionIDs (s : SendingSide) : Except Err Unit :=
  if !s.cids.negotiated || s.cids.sendConnectionID.isEmpty then
    throw (.protocolError "RequestConnectionId cannot be sent with an empty connection ID")
  else if s.cids.requestOpen then
    throw (.plain "dtls13: RequestConnectionId is still unfulfilled")
  else if (s.flights .requestCID).any (!·.complete) then
    throw (.plain "dtls13: RequestConnectionId is already awaiting acknowledgement")
  else do
    s.trafficInstalled
    s.sender.traffic.canAllocateMessageSequences 1

def requestConnectionIDs (count : UInt8) : SendingM Unit := do
  let s ← get
  ofExcept s.canRequestConnectionIDs
  sendFlight P .requestCID [(handshakeTypeRequestConnectionID, marshalRequestConnectionID count)]
  modify fun s => { s with cids := { s.cids with requestOpen := true } }

/-- A server's side of an authentication when the request is sent. -/
def newAuthState (s : SendingSide) (context body : Bytes) (transcript : Transcript) :
    PostHandshakeAuthState where
  context := context
  request := body
  transcript := transcript
  inbox := .newHandshakeInbox ((s.auth.finishedMessageSequence + 1) % 2 ^ 16)
    s.config.maxHandshakeMessage s.config.maxBufferedHandshakeMessages
    s.config.maxBufferedHandshakeBytes
  sawCertificate := false
  certificate := none
  verifiedSignature := false
  startSequence := none
  stage := .expectCertificate
  response := none
  pendingApplication := []
  pendingApplicationBytes := 0

/-- The checks of `requestClientCertificate`, and the transcript with the request. -/
def certificateRequest (s : SendingSide) (body : Bytes) : Except Err Transcript :=
  if s.isClient then throw (.plain "dtls13: only a server can request a client certificate")
  else if !s.auth.enabled then
    throw (.configError "ClientAuth must request or require a client certificate")
  else if !s.auth.offered then throw (.protocolError "client did not offer post_handshake_auth")
  else if s.auth.state.isSome then
    throw (.plain "dtls13: post-handshake client authentication is already active")
  else if s.cleared then throw (.plain "dtls13: traffic state is unavailable")
  else do
    s.sender.traffic.canAllocateMessageSequences 1
    s.auth.transcript.add handshakeTypeCertificateRequest body

def requestClientCertificate (context body : Bytes) : SendingM Unit := do
  let s ← get
  let transcript ← ofExcept (s.certificateRequest body)
  sendFlight P .clientAuthRequest [(handshakeTypeCertificateRequest, body)]
  modify fun s => { s with auth :=
    { s.auth with state := some (s.newAuthState context body transcript) } }

/-- What answers a CertificateRequest, and the transcript with the answer; nothing for
a request that was answered before. -/
def certificateResponse (s : SendingSide) (sequence : Nat) (body : Bytes) :
    Except Err (Option (List (UInt8 × Bytes) × Transcript)) := do
  let requestContext ← (hooks.parseCertificateRequest body).run
  if !s.isClient || !s.auth.enabled || requestContext.isEmpty then
    throw (alertError alertUnexpectedMessage
      (.protocolError "unexpected post-handshake CertificateRequest"))
  else if s.auth.lastRequestSequence.any (sequence ≤ ·) then pure none
  else if (s.flights .clientAuthResponse).any (!·.complete) then
    throw (alertError alertUnexpectedMessage
      (.protocolError "overlapping post-handshake CertificateRequest"))
  else do
    let transcript ← s.auth.transcript.add handshakeTypeCertificateRequest body
    let (hasIdentity, certificateBody) ← (hooks.selectClientCertificate body).run
    s.sender.traffic.canAllocateMessageSequences (if hasIdentity then 3 else 2)
    let response ← Conn.clientAuthResponse hooks body transcript s.sender.traffic.secret
      hasIdentity certificateBody
    pure (some response)

def processPostHandshakeCertificateRequest (sequence : Nat) (body : Bytes) : SendingM Unit := do
  let s ← get
  match ← ofExcept (s.certificateResponse hooks sequence body) with
  | none => pure ()
  | some (bodies, transcript) => do
    sendFlight P .clientAuthResponse bodies
    modify fun s => { s with auth :=
      { s.auth with transcript := transcript, lastRequestSequence := some sequence } }

/-! ## Acknowledgements and timers -/

def ackPostHandshakeFlight (numbers : List RecordNumber) (slot : FlightSlot) :
    SendingM Unit := do
  let s ← get
  match s.flights slot with
  | none => pure ()
  | some f =>
    if (f.ack numbers).complete then setFlight slot none
    else do
      let next ← onOutbox (retransmitPartialFlight P (f.ack numbers))
      setFlight slot (some next)

/-- An update the peer asked for, postponed while another one was pending; says
whether it was begun. -/
def beginPendingKeyUpdate : SendingM Bool := do
  let s ← get
  if s.keyUpdateResponsePending && s.sender.canBeginKeyUpdate then do
    beginKeyUpdate P false
    modify fun s => { s with keyUpdateResponsePending := false }
    pure true
  else if s.keyUpdateResponsePending && maxSendingEpoch ≤ s.sender.cipher.epoch then do
    modify fun s => { s with keyUpdateResponsePending := false }
    pure false
  else pure false

def ackFlights (numbers : List RecordNumber) : List FlightSlot → SendingM Unit
  | [] => pure ()
  | slot :: rest => do
    ackPostHandshakeFlight P numbers slot
    ackFlights numbers rest

/-- Applies an acknowledgement to the update; says whether another one was begun. -/
def ackKeyUpdate (numbers : List RecordNumber) : SendingM Bool := do
  let s ← get
  modify fun s => { s with sender := (s.sender.processACK numbers).2 }
  if (s.sender.processACK numbers).1 then beginPendingKeyUpdate P else pure false

/-- The loop of a postponed update starts only when the flights were handled. -/
def applyACK (numbers : List RecordNumber) : SendingM Unit := do
  let started ← ackKeyUpdate P numbers
  ackFlights P numbers FlightSlot.inOrder
  if started then startKeyUpdateRetransmission else pure ()

def flightTimeout (slot : FlightSlot) (timeoutCount : Nat) : SendingM Unit := do
  let s ← get
  match s.flights slot with
  | none => pure ()
  | some f =>
    if f.complete then
      if Conn.clearedWhenComplete slot then setFlight slot none else pure ()
    else do
      let next ← onOutbox (retransmitAfterTimeout P f timeoutCount)
      setFlight slot (some next)

/-! ## Connection IDs and the end of a connection -/

def activatePeerConnectionID (cid : Bytes) : SendingM Unit := do
  onSender (Sender.setConnectionID cid)
  modify fun s => { s with cids := { s.cids with sendConnectionID := cid } }

def useNextConnectionID : SendingM Unit := do
  let s ← get
  match s.cids.peerSpareConnectionIDs with
  | [] => throw (.plain "dtls13: peer has not provided a spare connection ID")
  | cid :: spares => do
    modify fun s => { s with cids := { s.cids with peerSpareConnectionIDs := spares } }
    requireTraffic
    activatePeerConnectionID cid

/-- What a connection-ID message changes; `active` is the ID to use from now on. -/
def receiveConnectionIDs (cids : ConnectionIDs) (active : Option Bytes) : SendingM Unit := do
  modify fun s => { s with cids := cids }
  match active with
  | none => pure ()
  | some cid => activatePeerConnectionID cid

/-- An alert is sealed and written; no failure of it is reported. -/
def sendAlert (level description : UInt8) (s : SendingSide) : SendingSide :=
  exec (do
    let wire ← sealRecord P recordTypeAlert [level, description]
    writeRecord wire) s

/-- Drops the keys and everything that was to be sent with them. -/
def clearTrafficSecrets (s : SendingSide) : SendingSide :=
  { s with
    flights := fun _ => none
    keyUpdateResponsePending := false
    auth := { s.auth with state := none }
    cleared := true }

/-- The first error is the one the connection fails with. -/
def failConnection (s : SendingSide) (err : Err) : SendingSide :=
  { s with failure := some (s.failure.getD err) }

/-- The end of a failed connection. -/
def finishFailure (s : SendingSide) : SendingSide :=
  match s.failure with
  | none => s
  | some err =>
    match outboundAlert err with
    | some description =>
      if s.cleared then s else (s.sendAlert P alertLevelFatal description).clearTrafficSecrets
    | none => s.clearTrafficSecrets

def close (s : SendingSide) : SendingSide :=
  if s.closed then s
  else if s.cleared then { s with closed := true }
  else
    ({ s with closed := true }.sendAlert P alertLevelWarning alertCloseNotify).clearTrafficSecrets

/-- The state after an update began, before its record is written. -/
def updateBegun (s : SendingSide) (requestUpdate : Bool) : SendingSide :=
  { s with
    sender := s.sender.updateBegun P requestUpdate
    begun := s.begun ++ [⟨handshakeTypeKeyUpdate, s.sender.traffic.messageSequence,
      marshalKeyUpdate requestUpdate⟩] }

/-! ## Rules for what begins a message

A call that is refused changes nothing. Otherwise the numbers of its messages are
free, and it sends its flight. -/

section Rules

variable {P hooks} {s : SendingSide} {post : Unit → SendingSide → Prop}
  {fail : Err → SendingSide → Prop}

section

variable (hfail : ∀ err, fail err s)

include hfail

theorem wp_requireTraffic (hpost : s.cleared = false → post () s) :
    wp requireTraffic post fail s := by
  unfold requireTraffic trafficInstalled
  rw [wp_bind, wp_get]
  cases hcleared : s.cleared with
  | true => exact hfail _
  | false => exact hpost hcleared

theorem wp_canAllocate {count : Nat}
    (hpost : s.sender.traffic.canAllocateMessageSequences count = .ok () → post () s) :
    wp (ofExcept (s.sender.traffic.canAllocateMessageSequences count)) post fail s :=
  wp_ofExcept.mpr ⟨fun _ hcan => hpost hcan, fun err _ => hfail err⟩

/-- An update fails to begin, with its message left behind at most, or it is pending
from then on, whether or not its record can be written. -/
theorem wp_beginKeyUpdate {requestUpdate : Bool}
    (hnamed : s.sender.traffic.hasConnectionID = true → s.sender.traffic.connectionID.length ≤ 255)
    (hwrite : s.sender.CanBegin → s.sender.cipher.Sealable recordTypeHandshake 13 →
      wp (writeRecord (s.sender.keyUpdateRecord P requestUpdate)) post fail
        (s.updateBegun P requestUpdate))
    (hleft : ∀ err fragment, s.updatePending = false →
      fail err { s with sender := s.sender.withPendingFragment fragment }) :
    wp (beginKeyUpdate P requestUpdate) post fail s := by
  unfold beginKeyUpdate onSender
  rw [wp_bind, wp_get, wp_bind, wp_zoom]
  apply Sender.wp_beginKeyUpdate P hnamed
  · intro hcan hsealable
    rw [wp_bind, wp_modify]
    exact hwrite hcan hsealable
  · exact fun err _ => hfail err
  · exact fun err hidle _ => hleft err _ hidle

omit hfail in
theorem canAllocate_of_newSessionTickets
    {tickets : List (NewSessionTicketMessage × Option UInt8)} {bodies : List (UInt8 × Bytes)}
    (hbodies : s.newSessionTickets tickets = .ok (some bodies)) :
    s.sender.traffic.canAllocateMessageSequences bodies.length = .ok () := by
  unfold newSessionTickets at hbodies
  split at hbodies
  · cases hbodies
  · obtain ⟨marshalled, -, hbodies⟩ := bind_eq_ok.mp hbodies
    obtain ⟨-, -, hbodies⟩ := bind_eq_ok.mp hbodies
    obtain ⟨⟨⟩, hcan, hbodies⟩ := bind_eq_ok.mp hbodies
    cases hbodies
    exact hcan

theorem wp_sendNewSessionTickets {tickets : List (NewSessionTicketMessage × Option UInt8)}
    (hpost : post () s) (hsend : ∀ bodies : List (UInt8 × Bytes),
      s.newSessionTickets tickets = .ok (some bodies) →
      wp (sendFlight P .ticket bodies) post fail s) :
    wp (sendNewSessionTickets P tickets) post fail s := by
  unfold sendNewSessionTickets
  rw [wp_bind, wp_get]
  refine wp_ofExcept_bind (fun bodies hbodies => ?_) hfail
  cases bodies with
  | none => exact hpost
  | some bodies => exact hsend bodies hbodies

/-- An announcement is refused without effect, or builds its flight and has the new IDs
accepted; `hpartly` is the case that not every cipher accepts them. -/
theorem wp_announceConnectionIDs {connectionIDs : List Bytes} {immediate : Bool}
    {post : List HandshakeMessage × SentFlight × List Bytes → SendingSide → Prop}
    (hbuild : ∀ (body : Bytes) (merged : List Bytes),
      (s.flights .newConnectionID).any (!·.complete) = false →
      s.sender.traffic.canAllocateMessageSequences 1 = .ok () →
      mergeConnectionIDs s.receiver.acceptedCIDs connectionIDs = .ok merged →
      merged.length ≤ s.config.maxConnectionIDs →
      wp (buildFlight P (s.nextMessages [(handshakeTypeNewConnectionID, body)]))
        (fun flight next => wp (addConnectionIDs connectionIDs)
          (fun _ receiver =>
            post (s.nextMessages [(handshakeTypeNewConnectionID, body)], flight, merged)
              { next with receiver := receiver })
          (fun err receiver => fail err { next with receiver := receiver }) next.receiver)
        fail s) : wp (announceConnectionIDs P connectionIDs immediate) post fail s := by
  unfold announceConnectionIDs
  refine wp_ofExcept_bind (fun body _ => ?_) hfail
  rw [wp_bind, wp_get]
  refine wp_guard (hfail _) fun _ => ?_
  refine wp_guard (hfail _) fun hidle => ?_
  rw [wp_bind]
  apply wp_requireTraffic hfail
  intro _
  rw [wp_bind]
  apply wp_canAllocate hfail
  intro hcan
  refine wp_ofExcept_bind (fun merged hmerged => ?_) hfail
  refine wp_guard (hfail _) fun hsize => ?_
  refine wp_seq (hbuild body merged (Bool.eq_false_iff.mpr hidle) hcan hmerged
    (Nat.not_lt.mp hsize)) ?_
  intro flight next hadd
  rw [wp_bind, onReceiver, wp_zoom]
  exact hadd

/-- Only an announcement has work to do between the flight and its transmission: the
IDs are registered first, and taken back when the transmission fails. -/
theorem wp_sendNewConnectionIDs {connectionIDs : List Bytes} {immediate : Bool}
    {registration : Option Err}
    (hsend : ∀ body : Bytes, s.sender.traffic.canAllocateMessageSequences 1 = .ok () →
      wp (buildFlight P (s.nextMessages [(handshakeTypeNewConnectionID, body)]))
        (fun flight next => (∀ err receiver, fail err { next with receiver := receiver }) ∧
          ∀ merged receiver, registration = none →
            announceConnectionIDs P connectionIDs immediate s =
              .ok (s.nextMessages [(handshakeTypeNewConnectionID, body)], flight, merged)
                { next with receiver := receiver } →
            wp (commitFlight P .newConnectionID
                (s.nextMessages [(handshakeTypeNewConnectionID, body)]) flight) post
              (fun err last => ∀ receiver, fail err { last with receiver := receiver })
              { next with receiver := receiver }) fail s) :
    wp (sendNewConnectionIDs P connectionIDs immediate registration) post fail s := by
  have hannounce : wp (announceConnectionIDs P connectionIDs immediate)
      (fun (messages, flight, merged) next => (∀ err receiver,
        fail err { next with receiver := receiver }) ∧ (registration = none →
          announceConnectionIDs P connectionIDs immediate s =
            .ok (messages, flight, merged) next →
          wp (commitFlight P .newConnectionID messages flight) post
            (fun err last => ∀ receiver, fail err { last with receiver := receiver }) next))
      fail s := by
    apply wp_announceConnectionIDs hfail
    intro body merged _ hcan _ _
    refine wp_imp (hsend body hcan) ?_
    rintro flight next ⟨hundone, hcommit⟩
    unfold wp
    split
    next receiver _ => exact ⟨hundone, hcommit merged receiver⟩
    next => exact hundone _ _
  unfold sendNewConnectionIDs
  rw [wp_bind, wp_get, wp_bind]
  refine wp_imp (wp_and_eq hannounce) ?_
  rintro ⟨messages, flight, merged⟩ next ⟨⟨hundone, hcommit⟩, hrun⟩
  cases registration with
  | some err => exact hundone err _
  | none =>
    dsimp only
    rw [wp_recover]
    refine wp_mono (hcommit rfl hrun) (fun _ _ hdone => hdone) fun err last hlast => ?_
    exact hlast _

omit hfail in
theorem canAllocate_of_canRequestConnectionIDs (hcan : s.canRequestConnectionIDs = .ok ()) :
    s.sender.traffic.canAllocateMessageSequences 1 = .ok () := by
  unfold canRequestConnectionIDs at hcan
  split_ifs at hcan
  obtain ⟨-, -, hcan⟩ := bind_eq_ok.mp hcan
  exact hcan

theorem wp_requestConnectionIDs {count : UInt8}
    (hsend : s.canRequestConnectionIDs = .ok () → wp (sendFlight P .requestCID
        [(handshakeTypeRequestConnectionID, marshalRequestConnectionID count)])
        (fun _ next => post () { next with cids := { next.cids with requestOpen := true } })
        fail s) : wp (requestConnectionIDs P count) post fail s := by
  unfold requestConnectionIDs
  rw [wp_bind, wp_get]
  refine wp_ofExcept_bind (fun _ hcan => ?_) hfail
  rw [wp_bind]
  exact hsend hcan

omit hfail in
theorem canAllocate_of_certificateRequest {body : Bytes} {transcript : Transcript}
    (hrequest : s.certificateRequest body = .ok transcript) :
    s.sender.traffic.canAllocateMessageSequences 1 = .ok () := by
  unfold certificateRequest at hrequest
  split_ifs at hrequest
  obtain ⟨⟨⟩, hcan, -⟩ := bind_eq_ok.mp hrequest
  exact hcan

theorem wp_requestClientCertificate {context body : Bytes}
    (hsend : ∀ transcript, s.certificateRequest body = .ok transcript →
      wp (sendFlight P .clientAuthRequest [(handshakeTypeCertificateRequest, body)])
        (fun _ next => post () { next with auth :=
          { next.auth with state := some (next.newAuthState context body transcript) } })
        fail s) : wp (requestClientCertificate P context body) post fail s := by
  unfold requestClientCertificate
  rw [wp_bind, wp_get]
  refine wp_ofExcept_bind (fun transcript htranscript => ?_) hfail
  rw [wp_bind]
  exact hsend transcript htranscript

omit hfail in
theorem canAllocate_of_certificateResponse {sequence : Nat} {body : Bytes}
    {response : List (UInt8 × Bytes) × Transcript}
    (hresponse : s.certificateResponse hooks sequence body = .ok (some response)) :
    s.sender.traffic.canAllocateMessageSequences response.1.length = .ok () := by
  obtain ⟨context, -, hresponse⟩ := bind_eq_ok.mp hresponse
  split_ifs at hresponse
  · cases hresponse
  · obtain ⟨transcript, -, hresponse⟩ := bind_eq_ok.mp hresponse
    obtain ⟨selected, -, hresponse⟩ := bind_eq_ok.mp hresponse
    obtain ⟨⟨⟩, hcan, hresponse⟩ := bind_eq_ok.mp hresponse
    obtain ⟨result, hresult, hresponse⟩ := bind_eq_ok.mp hresponse
    cases hresponse
    rwa [Conn.clientAuthResponse_length hooks hresult]

theorem wp_processPostHandshakeCertificateRequest {sequence : Nat} {body : Bytes}
    (hpost : post () s) (hsend : ∀ response : List (UInt8 × Bytes) × Transcript,
      s.certificateResponse hooks sequence body = .ok (some response) →
      wp (sendFlight P .clientAuthResponse response.1)
        (fun _ next => post () { next with auth :=
          { next.auth with transcript := response.2, lastRequestSequence := some sequence } })
        fail s) :
    wp (processPostHandshakeCertificateRequest P hooks sequence body) post fail s := by
  unfold processPostHandshakeCertificateRequest
  rw [wp_bind, wp_get]
  refine wp_ofExcept_bind (fun response hresponse => ?_) hfail
  cases response with
  | none => exact hpost
  | some response =>
    dsimp only
    rw [wp_bind]
    exact hsend response hresponse

end

end Rules

/-! ## Runs -/

inductive Event where
  | sendKeyUpdate (requestPeer : Bool)
  | writeDatagram (payload : Bytes)
  | sendNewSessionTickets (tickets : List (NewSessionTicketMessage × Option UInt8))
  | sendNewConnectionIDs (connectionIDs : List Bytes) (immediate : Bool)
      (registration : Option Err)
  | requestConnectionIDs (count : UInt8)
  | requestClientCertificate (context body : Bytes)
  | useNextConnectionID
  | sendReturnRoutability (probeConnectionID : Option Bytes) (content : Bytes)
  | authFailures
  | receiveKeyUpdate (incomplete : Option Err) (sequence : Nat) (body : Bytes)
      (number : RecordNumber)
  | receiveACK (numbers : List RecordNumber)
  | receiveCertificateRequest (sequence : Nat) (body : Bytes)
  | receiveConnectionIDs (cids : ConnectionIDs) (active : Option Bytes)
  | receiveAuthentication (state : Option PostHandshakeAuthState)
  | acknowledge (number : RecordNumber)
  | reject (err : Err)
  | startLoop
  | keyUpdateTimer
  | flightTimer (slot : FlightSlot) (timeoutCount : Nat)
  | finishFailure
  | close

/-- The dispatcher and the timers fail the connection with their errors. -/
def orFail {α : Type} (m : SendingM α) (s : SendingSide) : SendingSide :=
  handle m s (fun _ next => next) fun err next => next.failConnection err

/-- A record is dispatched only while there are keys. -/
def dispatch {α : Type} (m : SendingM α) (s : SendingSide) : SendingSide :=
  if s.cleared then s else orFail m s

/-- One turn of a retransmission loop. -/
def keyUpdateTimer (s : SendingSide) : SendingSide :=
  if s.running = 0 then s
  else handle (retransmitPendingUpdate P) s
    (fun again next => if again then next else { next with running := next.running - 1 })
    fun err next => { next.failConnection err with running := next.running - 1 }

/-- An authentication that is over has no request outstanding. -/
def receiveAuthentication (state : Option PostHandshakeAuthState) (s : SendingSide) :
    SendingSide :=
  { s with
    auth := { s.auth with state := state }
    flights := if state.isNone then Function.update s.flights .clientAuthRequest none
      else s.flights }

def step (s : SendingSide) : Event → SendingSide
  | .sendKeyUpdate requestPeer => exec (sendKeyUpdate P requestPeer) s
  | .writeDatagram payload => exec (writeDatagram P payload) s
  | .sendNewSessionTickets tickets => orFail (sendNewSessionTickets P tickets) s
  | .sendNewConnectionIDs connectionIDs immediate registration =>
    exec (sendNewConnectionIDs P connectionIDs immediate registration) s
  | .requestConnectionIDs count => exec (requestConnectionIDs P count) s
  | .requestClientCertificate context body => exec (requestClientCertificate P context body) s
  | .useNextConnectionID => exec useNextConnectionID s
  | .sendReturnRoutability probe content => dispatch (sendReturnRoutability P probe content) s
  | .authFailures => dispatch (requestKeyUpdateAfterAuthFailures P) s
  | .receiveKeyUpdate incomplete sequence body number =>
    dispatch (processKeyUpdateFragment P incomplete sequence body number) s
  | .receiveACK numbers => dispatch (applyACK P numbers) s
  | .receiveCertificateRequest sequence body =>
    dispatch (processPostHandshakeCertificateRequest P hooks sequence body) s
  | .receiveConnectionIDs cids active => dispatch (receiveConnectionIDs cids active) s
  | .receiveAuthentication state => if s.cleared then s else s.receiveAuthentication state
  | .acknowledge number => dispatch (ackProtectedRecord P number) s
  | .reject err => s.failConnection err
  | .startLoop =>
    if s.starting = 0 then s
    else { s with starting := s.starting - 1, running := s.running + 1 }
  | .keyUpdateTimer => s.keyUpdateTimer P
  | .flightTimer slot timeoutCount => orFail (flightTimeout P slot timeoutCount) s
  | .finishFailure => s.finishFailure P
  | .close => s.close P

end SendingSide

end Dtls13
