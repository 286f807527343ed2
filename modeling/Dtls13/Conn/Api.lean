import Dtls13.Conn.Dispatch

/-! # Calls and timers

What the application can ask of an established connection, and the retransmission
timers. The error of a call is returned to the application and does not end the
connection; the error of a timer does.
-/

namespace Dtls13

open ByteCodec StateLogic

namespace Conn

variable (P : Primitives)

/-! ## Application data -/

/-- The datagram fits one record, and the record fits the path. -/
def fitsDatagram (c : Conn) (payload : Bytes) : Bool :=
  payload.length ≤ c.sender.cipher.maxContent && (c.config.ignorePathMTU ||
    payload.length + (c.sender.cipher.headerLen16 + c.sender.cipher.suite.overhead + 1) ≤ c.pathMTU)

/-- Keys are updated before the record limit is reached. -/
def wantsAutomaticKeyUpdate (c : Conn) : Bool :=
  let limit := c.sender.cipher.suite.recordLimit
  let margin := max (min (limit / 4) 1024) 1
  c.canBeginKeyUpdate && limit - margin ≤ c.sender.cipher.nextSequence

def maybeStartAutomaticKeyUpdate : ConnM Unit := do
  let c ← get
  if c.wantsAutomaticKeyUpdate then beginKeyUpdate P false else pure ()

def writeDatagram (payload : Bytes) : ConnM Unit := do
  let c ← get
  if !c.fitsDatagram payload then throw .datagramTooLarge
  else do
    let wire ← onStore
      (CipherStore.sealRecord P c.sendCipher recordTypeApplicationData payload)
    writeRecord wire
    maybeStartAutomaticKeyUpdate P

/-- Takes the next datagram, if there is one. -/
def readDatagram : ConnM Unit :=
  modify fun c =>
    match c.inbound.applicationDatagrams with
    | [] => c
    | payload :: rest => { c with inbound := { c.inbound with
        applicationDatagrams := rest
        bufferedApplicationBytes := c.inbound.bufferedApplicationBytes - payload.length } }

/-! ## Keys, tickets and connection IDs -/

def sendKeyUpdate (requestPeer : Bool) : ConnM Unit := beginKeyUpdate P requestPeer

/-- The GREASE extension of a ticket, from a random byte. -/
def greaseExtension : Option UInt8 → Nat
  | none => 0
  | some seed => greaseValue seed

def ticketBodies : List (NewSessionTicketMessage × Option UInt8) → Except Err (List (UInt8 × Bytes))
  | [] => .ok []
  | (message, seed) :: rest => do
    let body ← message.marshalWithGREASE (greaseExtension seed)
    let others ← ticketBodies rest
    pure ((handshakeTypeNewSessionTicket, body) :: others)

/-- A server sends tickets; one that does not fit its vector suppresses them all. -/
def sendNewSessionTickets (tickets : List (NewSessionTicketMessage × Option UInt8)) :
    ConnM Unit := do
  let c ← get
  if c.isClient || tickets.isEmpty || tickets.any fun t => 65535 < t.1.ticket.length then pure ()
  else do
    let bodies ← ofExcept (ticketBodies tickets)
    ofExcept (c.sender.traffic.canAllocateMessageSequences bodies.length)
    sendFlight P .ticket bodies

/-- The new IDs are accepted before the peer learns of them. -/
def sendNewConnectionIDs (connectionIDs : List Bytes) (immediate : Bool) : ConnM Unit := do
  let usage := if immediate then ConnectionIDUsage.immediate else .spare
  let body ← ofExcept (NewConnectionIDMessage.marshal ⟨connectionIDs, usage⟩)
  let c ← get
  if !c.cids.negotiated || !c.cids.localUpdatesAllowed then
    throw (.protocolError "NewConnectionId is not permitted for this connection")
  else if (c.flights .newConnectionID).any (!·.complete) then
    throw (.plain "dtls13: NewConnectionId is already awaiting acknowledgement")
  else do
    ofExcept (c.sender.traffic.canAllocateMessageSequences 1)
    let merged ← ofExcept (mergeConnectionIDs c.receiver.acceptedCIDs connectionIDs)
    if c.config.maxConnectionIDs < merged.length then
      throw (.configError "NewConnectionId exceeds MaxConnectionIDs")
    else do
      let flight ← onStore (buildProtectedFlight P (numberMessages
        c.sender.traffic.messageSequence [(handshakeTypeNewConnectionID, body)]) c.pathMTU
        c.sendCipher)
      onReceiver (ReceivingTraffic.addConnectionIDs connectionIDs)
      commitFlight .newConnectionID 1 flight

/-- The IDs of an answer, as many as were asked for and the limit leaves room for.
`results` is what GetConnectionID returns, with none for an error, which ends the drawing. -/
def answerConnectionIDs (c : Conn) (count : UInt8) (results : List (Option Bytes)) :
    List Bytes :=
  let available := c.config.maxConnectionIDs - c.receiver.acceptedCIDs.length
  ((results.take (min count.toNat available)).takeWhile Option.isSome).filterMap id

/-- The first part of respondToConnectionIDRequest. One answer is drawn at a time. -/
def drawConnectionIDResponse (index : Nat) (results : List (Option Bytes)) : ConnM Unit :=
  modify fun c =>
    match c.answers.drawn, c.answers.waiting[index]? with
    | none, some count => { c with answers := { c.answers with
        waiting := c.answers.waiting.eraseIdx index
        drawn := some (c.answerConnectionIDs count results) } }
    | _, _ => c

/-- The second part of respondToConnectionIDRequest. An error is dropped, and with it
the answer. -/
def sendConnectionIDResponse : ConnM Unit := do
  let c ← get
  match c.answers.drawn with
  | none => pure ()
  | some connectionIDs => do
    modify fun c => { c with answers := { c.answers with drawn := none } }
    recover (sendNewConnectionIDs P connectionIDs false) fun _ => pure ()

def requestConnectionIDs (count : UInt8) : ConnM Unit := do
  let c ← get
  if !c.cids.negotiated || c.cids.sendConnectionID.isEmpty then
    throw (.protocolError "RequestConnectionId cannot be sent with an empty connection ID")
  else if c.cids.requestOpen then
    throw (.plain "dtls13: RequestConnectionId is still unfulfilled")
  else if (c.flights .requestCID).any (!·.complete) then
    throw (.plain "dtls13: RequestConnectionId is already awaiting acknowledgement")
  else do
    ofExcept (c.sender.traffic.canAllocateMessageSequences 1)
    sendFlight P .requestCID [(handshakeTypeRequestConnectionID, marshalRequestConnectionID count)]
    modify fun c => { c with cids := { c.cids with requestOpen := true } }

def useNextConnectionID : ConnM Unit := do
  let c ← get
  match c.cids.peerSpareConnectionIDs with
  | [] => throw (.plain "dtls13: peer has not provided a spare connection ID")
  | cid :: spares => do
    modify fun c => { c with cids := { c.cids with peerSpareConnectionIDs := spares } }
    activatePeerConnectionID cid

/-! ## Timers -/

/-- A pending update is sent again. -/
def keyUpdateTimeout : ConnM Unit := do
  let c ← get
  if c.sender.traffic.update.canUseNewKeys then pure ()
  else do
    let wire ← onSender (Sender.retransmitKeyUpdate P)
    writeRecord wire

/-- The slots whose timer clears a flight it finds complete. -/
def clearedWhenComplete : FlightSlot → Bool
  | .ticket | .newConnectionID | .requestCID => true
  | .clientAuthRequest | .clientAuthResponse => false

/-- A flight that is not complete is sent again; `timeoutCount` counts its timeouts. -/
def flightTimeout (slot : FlightSlot) (timeoutCount : Nat) : ConnM Unit := do
  let c ← get
  match c.flights slot with
  | none => pure ()
  | some f =>
    if f.complete then
      if clearedWhenComplete slot then setFlight slot none else pure ()
    else do
      let (resized, prepared) ← prepareFlightRetransmission P f timeoutCount
      let next ← if resized then writeFlight prepared else retransmitFlight prepared
      setFlight slot (some next)

end Conn

end Dtls13
