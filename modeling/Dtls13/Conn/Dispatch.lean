import Dtls13.Conn.Auth

/-! # The record dispatcher

What an established connection does with a datagram: each record is opened with
the cipher its epoch bits select and handed to the handler of its content type. A
record that does not open ends the datagram in silence. An error of a handler ends
the connection with a fatal alert.
-/

namespace Dtls13

open ByteCodec StateLogic

namespace Conn

variable (P : Primitives) (hooks : AuthHooks)

/-! ## Application data and alerts -/

def bufferApplicationRecord (content : Bytes) (number : RecordNumber) : ConnM Bool := do
  onInbound (Inbound.rememberApplicationRecord · number)
  let buffered ← onInbound (Inbound.bufferIncompleteHandshakeApplication · content number)
  if buffered then pure true else bufferPostHandshakeAuthApplication content number

def dispatchApplicationData (content : Bytes) (number : RecordNumber) : ConnM Unit := do
  let buffered ← bufferApplicationRecord content number
  if buffered then pure () else onInbound (Inbound.queueApplicationData · content)

/-- The closing record with the greatest number counts. -/
def receiveClosure (closure : Option RecordNumber) (number : RecordNumber) : RecordNumber :=
  match closure with
  | none => number
  | some current => if recordNumberLess current number then number else current

def dispatchAlert (content : Bytes) (number : RecordNumber) : ConnM Unit :=
  match AlertMessage.parseAlert content with
  | .error err => throw (alertError ((protocolAlert err).getD 0) err)
  | .ok alert =>
    if alert.isUserCanceled then pure ()
    else if alert.isCloseNotify then
      modify fun c => { c with
        closure := some (receiveClosure c.closure number), peerReadClosed := true }
    else throw (.peerAlert alert.description)

/-! ## Acknowledgements -/

/-- Applies an acknowledgement to one flight. -/
def ackPostHandshakeFlight (numbers : List RecordNumber) (slot : FlightSlot) : ConnM Unit := do
  let c ← get
  match c.flights slot with
  | none => pure ()
  | some f =>
    if (f.ack numbers).complete then setFlight slot none
    else do
      let next ← retransmitPartialFlight P (f.ack numbers)
      setFlight slot (some next)

/-- An update the peer asked for, postponed while another one was pending. -/
def beginPendingKeyUpdate : ConnM Unit := do
  let c ← get
  if c.keyUpdateResponsePending && c.canBeginKeyUpdate then do
    beginKeyUpdate P false
    modify fun c => { c with keyUpdateResponsePending := false }
  else if c.keyUpdateResponsePending && maxSendingEpoch ≤ c.sender.cipher.epoch then
    modify fun c => { c with keyUpdateResponsePending := false }
  else pure ()

def ackFlights (numbers : List RecordNumber) : List FlightSlot → ConnM Unit
  | [] => pure ()
  | slot :: rest => do
    ackPostHandshakeFlight P numbers slot
    ackFlights numbers rest

def applyACK (numbers : List RecordNumber) : ConnM Unit := do
  let c ← get
  modify fun c => { c with sender := (c.sender.processACK numbers).2 }
  if (c.sender.processACK numbers).1 then beginPendingKeyUpdate P else pure ()
  ackFlights P numbers FlightSlot.inOrder

/-- Returns the acknowledged numbers, for the wait for the final acknowledgement. -/
def dispatchACK (content : Bytes) (epoch : Nat) : ConnM (List RecordNumber) :=
  match parseACK content with
  | .error err => throw (alertError ((protocolAlert err).getD 0) err)
  | .ok numbers => do
    ofExcept (validateACKEpoch numbers epoch)
    applyACK P numbers
    pure numbers

/-! ## Connection IDs and tickets -/

def activatePeerConnectionID (cid : Bytes) : ConnM Unit := do
  onSender (Sender.setConnectionID cid)
  modify fun c => { c with cids := { c.cids with sendConnectionID := cid } }

/-- The spare IDs with the new ones, as far as the limit allows. -/
def addSpareConnectionIDs (maxConnectionIDs : Nat) (sendConnectionID : Bytes)
    (spares connectionIDs : List Bytes) : List Bytes :=
  connectionIDs.foldl (fun spares cid =>
    if cid = sendConnectionID ∨ cid ∈ spares ∨ maxConnectionIDs ≤ 1 + spares.length then spares
    else spares ++ [cid]) spares

def processNewConnectionID (sequence : Nat) (body : Bytes) : ConnM Unit := do
  let message ← ofExcept (NewConnectionIDMessage.parseNewConnectionID body)
  let c ← get
  if !c.cids.negotiated || !c.cids.peerUpdatesAllowed then
    throw (alertError alertUnexpectedMessage (.protocolError "unexpected NewConnectionId"))
  else if c.cids.lastNewCIDSequence.any (sequence ≤ ·) then pure ()
  else
    let existing := c.cids.sendConnectionID :: c.cids.peerSpareConnectionIDs
    match mergeConnectionIDs existing message.connectionIDs with
    | .error err => throw (alertError alertIllegalParameter err)
    | .ok _ => do
      let spares := addSpareConnectionIDs c.config.maxConnectionIDs c.cids.sendConnectionID
        c.cids.peerSpareConnectionIDs message.connectionIDs
      modify fun c => { c with cids := { c.cids with
        lastNewCIDSequence := some sequence
        requestOpen := false
        peerSpareConnectionIDs := spares } }
      match message.usage, message.connectionIDs with
      | .immediate, cid :: _ => do
        modify fun c => { c with cids := { c.cids with
          peerSpareConnectionIDs := spares.erase cid } }
        activatePeerConnectionID cid
      | _, _ => pure ()

/-- Returns the number of IDs to send, or none for a repeated request. -/
def processRequestConnectionID (sequence : Nat) (body : Bytes) : ConnM (Option UInt8) := do
  let count ← ofExcept (parseRequestConnectionID body)
  let c ← get
  if !c.cids.negotiated || c.cids.localConnectionID.isEmpty then
    throw (alertError alertUnexpectedMessage (.protocolError "unexpected RequestConnectionId"))
  else if c.cids.lastRequestCIDSequence.any (sequence ≤ ·) then pure none
  else do
    modify fun c => { c with cids := { c.cids with lastRequestCIDSequence := some sequence } }
    pure (some count)

/-- A ticket is stored unless it is repeated or exceeds what was asked for. -/
def takeTicket (t : SessionTickets) (sequence : Nat) (message : NewSessionTicketMessage) :
    SessionTickets :=
  match t.limit with
  | none => { t with stored := t.stored ++ [message] }
  | some limit =>
    if sequence ∈ t.processed ∨ limit ≤ t.processed.length then t
    else { t with processed := t.processed ++ [sequence], stored := t.stored ++ [message] }

def processNewSessionTicket (sequence : Nat) (body : Bytes) : ConnM Unit := do
  let message ← ofExcept (NewSessionTicketMessage.parseNewSessionTicket body)
  if message.lifetime = 0 ∨
      NewSessionTicketMessage.maxTicketLifetime < message.lifetime.toNat then pure ()
  else modify fun c =>
    if c.tickets.storesSessions then { c with tickets := takeTicket c.tickets sequence message }
    else c

/-! ## Handshake messages -/

def reassembleProtectedHandshake (f : HandshakeFragment) (number : RecordNumber) :
    ConnM (Option Bytes) :=
  onInbound (Inbound.reassembleProtectedHandshake · f number)

/-- A request or a ticket is acknowledged before it is reassembled. -/
def ackThenProcess (f : HandshakeFragment) (number : RecordNumber)
    (process : Nat → Bytes → ConnM Unit) : ConnM Unit := do
  writeACK P number
  let body ← reassembleProtectedHandshake f number
  match body with
  | none => pure ()
  | some body => process f.messageSequence body

def dispatchPostHandshakeCertificateRequest (f : HandshakeFragment) (number : RecordNumber) :
    ConnM Unit :=
  ackThenProcess P f number (processPostHandshakeCertificateRequest P hooks)

def dispatchNewSessionTicket (f : HandshakeFragment) (number : RecordNumber) : ConnM Unit :=
  ackThenProcess P f number processNewSessionTicket

/-- Connection-ID messages are acknowledged after they were processed. A request is
answered in the background. -/
def dispatchConnectionIDMessage (f : HandshakeFragment) (number : RecordNumber) :
    ConnM Unit := do
  let body ← reassembleProtectedHandshake f number
  let respond ← match body with
    | none => pure none
    | some body =>
      if f.typ = handshakeTypeNewConnectionID then do
        processNewConnectionID f.messageSequence body
        pure none
      else processRequestConnectionID f.messageSequence body
  writeACK P number
  match respond with
  | none => pure ()
  | some count => modify fun c => { c with answers :=
      { c.answers with waiting := c.answers.waiting ++ [count] } }

/-- A message or an authentication response is still incomplete. -/
def hasIncompleteProtectedHandshake (c : Conn) : Bool :=
  c.inbound.hasIncompleteProtected || c.auth.state.any (·.inbox.hasIncompleteProtected)

def processKeyUpdateFragment (f : HandshakeFragment) (number : RecordNumber) : ConnM Unit := do
  let c ← get
  if c.auth.state.any (·.response.isSome) then
    throw (alertError alertUnexpectedMessage (.protocolError
      "KeyUpdate interleaved with post-handshake authentication response"))
  else if c.hasIncompleteProtectedHandshake then
    throw (alertError alertUnexpectedMessage
      (.protocolError "KeyUpdate followed an incomplete handshake message"))
  else do
    let (requestUpdate, updated) ← onReceiver
      (ReceivingTraffic.processKeyUpdate P f.messageSequence f.body)
    writeACK P number
    let c ← get
    if !updated || !requestUpdate then pure ()
    else if c.canBeginKeyUpdate then beginKeyUpdate P false
    else if c.sender.cipher.epoch < maxSendingEpoch then
      modify fun c => { c with keyUpdateResponsePending := true }
    else pure ()

def dispatchPostHandshakeFragment (f : HandshakeFragment) (number : RecordNumber) :
    ConnM Unit := do
  let c ← get
  if f.typ = handshakeTypeCertificateRequest ∧ c.isClient = true then
    dispatchPostHandshakeCertificateRequest P hooks f number
  else if c.isClient = false ∧ (f.typ = handshakeTypeCertificate ∨
      f.typ = handshakeTypeCompressedCertificate ∨ f.typ = handshakeTypeCertificateVerify ∨
      f.typ = handshakeTypeFinished) then
    processPostHandshakeAuthFragment P hooks f number
  else if f.typ = handshakeTypeNewSessionTicket ∧ c.isClient = true then
    dispatchNewSessionTicket P f number
  else if f.typ = handshakeTypeNewConnectionID ∨ f.typ = handshakeTypeRequestConnectionID then
    dispatchConnectionIDMessage P f number
  else if f.typ = handshakeTypeKeyUpdate ∧ f.isWhole = true then
    processKeyUpdateFragment P f number
  else throw (alertError alertUnexpectedMessage
    (.protocolError "unexpected post-handshake message"))

def dispatchPostHandshakeFragments (number : RecordNumber) :
    List HandshakeFragment → ConnM Unit
  | [] => pure ()
  | f :: rest => do
    dispatchPostHandshakeFragment P hooks f number
    dispatchPostHandshakeFragments number rest

/-- Every fragment belongs to the peer's final flight of the handshake. -/
def isCompletedPeerFlightRetransmit (range : Nat × Nat) (fragments : List HandshakeFragment) :
    Bool :=
  !fragments.isEmpty && fragments.all fun f =>
    range.1 ≤ f.messageSequence && f.messageSequence ≤ range.2

/-- A KeyUpdate must be alone in its record. -/
def keyUpdateAligned (fragments : List HandshakeFragment) : Bool :=
  fragments.all fun f => f.typ != handshakeTypeKeyUpdate || fragments.length == 1 && f.isWhole

def dispatchHandshake (content : Bytes) (number : RecordNumber) (epoch : Nat) : ConnM Unit := do
  let fragments ← ofExcept (HandshakeFragment.parseHandshakeFragments content)
  if !keyUpdateAligned fragments then
    throw (alertError alertUnexpectedMessage
      (.protocolError "KeyUpdate is not aligned to a record boundary"))
  else do
    let c ← get
    match if epoch = 2 then c.completedPeerFlight else none with
    | some range =>
      if isCompletedPeerFlightRetransmit range fragments then
        -- A failure to acknowledge is ignored.
        recover (writeACK P number) fun _ => pure ()
      else pure ()
    | none => dispatchPostHandshakeFragments P hooks number fragments

/-! ## Records and datagrams -/

/-- Hands a record to the handler of its type; returns what an ACK acknowledged. -/
def dispatchRecord (opened : OpenedRecord) (number : RecordNumber) :
    ConnM (List RecordNumber) :=
  if opened.contentType = recordTypeApplicationData then
    if number.epoch < 3 then
      throw (alertError alertUnexpectedMessage
        (.protocolError "application data used handshake keys"))
    else do
      dispatchApplicationData opened.content number
      pure []
  else if opened.contentType = recordTypeAlert then do
    dispatchAlert opened.content number
    pure []
  else if opened.contentType = recordTypeACK then dispatchACK P opened.content number.epoch
  else if opened.contentType = recordTypeHandshake then do
    dispatchHandshake P hooks opened.content number number.epoch
    pure []
  else pure []

def requestKeyUpdateAfterAuthFailures : ConnM Unit := do
  let c ← get
  if c.canBeginKeyUpdate then beginKeyUpdate P true else pure ()

/-- Opens the first record of a datagram; a failure to open is a value. -/
def openInPlace (datagram : Bytes) : ConnM (Except Err (OpenedRecord × Nat)) := fun c =>
  let (result, epochs) := c.receiver.epochs.openRecord P datagram
  .ok result { c with receiver := { c.receiver with epochs := epochs } }

/-- The number of the record just opened, and the connection ID it came with. -/
def noteOpened (cipher : RecordCipher) (epoch : Nat) : ConnM RecordNumber := do
  modify fun c =>
    if cipher.hasConnectionID then
      { c with cids := { c.cids with localConnectionID := cipher.lastConnectionID } }
    else c
  pure ⟨epoch, cipher.lastOpened⟩

def ignoredByClosure (c : Conn) (number : RecordNumber) : Bool :=
  c.closure.any (recordNumberLess · number)

/-- The records of a datagram one after the other; each uses up at least a byte. -/
def dispatchRecords : Nat → Bytes → ConnM (List RecordNumber)
  | 0, _ => pure []
  | _, [] => pure []
  | fuel + 1, first :: rest => do
    let result ← openInPlace P (first :: rest)
    match result with
    | .error err =>
      match protectedRecordReceiveError err with
      | some fatal => throw fatal
      | none => do
        let c ← get
        if c.receiver.epochs.shouldRequestKeyUpdateForAuthFailures first then
          requestKeyUpdateAfterAuthFailures P
        else pure ()
        pure []
    | .ok (opened, epoch) => do
      let c ← get
      match c.receiver.epochs.selectCipher first with
      | .error _ => pure []
      | .ok cipher => do
        let number ← noteOpened cipher epoch
        let c ← get
        let numbers ← if c.ignoredByClosure number then pure []
          else dispatchRecord P hooks opened number
        let others ← dispatchRecords fuel ((first :: rest).drop opened.consumed)
        pure (numbers ++ others)

def dispatchDatagram (datagram : Bytes) : ConnM (List RecordNumber) :=
  dispatchRecords P hooks datagram.length datagram

/-- A failed connection has told the peer, if it could, and dropped its state. -/
def failConnection (c : Conn) (err : Err) : Conn :=
  let alerted := match outboundAlert err with
    | none => c
    | some description =>
      exec (do
        let wire ← onStore
          (CipherStore.sealRecord P c.sendCipher recordTypeAlert [alertLevelFatal, description])
        writeRecord wire) c
  { alerted with
    flights := fun _ => none
    inbound := .empty
    keyUpdateResponsePending := false
    auth := { alerted.auth with state := none }
    failure := some err }

end Conn

end Dtls13
