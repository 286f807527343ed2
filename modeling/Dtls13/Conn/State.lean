import Dtls13.Conn.Inbound
import Dtls13.Handshake.Flight
import Dtls13.Handshake.Inbox
import Dtls13.Handshake.Transcript
import Dtls13.Traffic.Sound

/-! # The state of an established connection

One endpoint after the handshake: its traffic keys, its outstanding flights, what
it has received, its connection IDs and an authentication exchange under way. An
operation runs in the state and error monad, where a failure keeps what was done
before it. `sent` lists the records handed to the transport; nothing the code does
depends on it.
-/

namespace Dtls13

open ByteCodec StateLogic

/-! ## Connection IDs of the receiving side -/

namespace RecordCipher

/-- The cipher with more accepted connection IDs, or as it was. -/
def withAcceptedConnectionIDs (c : RecordCipher) (connectionIDs : List Bytes) : RecordCipher :=
  match c.addAcceptedConnectionIDs connectionIDs with
  | .ok next => next
  | .error _ => c

theorem withAcceptedConnectionIDs_epoch (c : RecordCipher) (connectionIDs : List Bytes) :
    (c.withAcceptedConnectionIDs connectionIDs).epoch = c.epoch := by
  unfold withAcceptedConnectionIDs addAcceptedConnectionIDs
  split_ifs
  · rfl
  · cases mergeConnectionIDs c.acceptedCIDs connectionIDs <;> rfl

/-- Why a cipher does not accept the connection IDs. -/
def acceptedConnectionIDsError (c : RecordCipher) (connectionIDs : List Bytes) : Option Err :=
  match c.addAcceptedConnectionIDs connectionIDs with
  | .ok _ => none
  | .error err => some err

end RecordCipher

namespace ReceivingTraffic

/-- The epochs whose ciphers come before the first one that refuses the IDs. -/
def acceptingEpochs (r : ReceivingTraffic) (connectionIDs : List Bytes) : List Nat :=
  (r.epochs.ciphers.takeWhile fun c => (c.acceptedConnectionIDsError connectionIDs).isNone).map
    (·.epoch)

theorem accepting_epoch (epochs : List Nat) (connectionIDs : List Bytes) (c : RecordCipher) :
    (if c.epoch ∈ epochs then c.withAcceptedConnectionIDs connectionIDs else c).epoch =
      c.epoch := by
  split
  · exact c.withAcceptedConnectionIDs_epoch connectionIDs
  · rfl

/-- Every cipher accepts the new connection IDs as well. When one refuses, those before
it have accepted them. -/
def addConnectionIDs (connectionIDs : List Bytes) : EStateM Err ReceivingTraffic Unit := do
  let r ← get
  if !r.hasConnectionID then throw (.protocolError "connection ID was not negotiated")
  else match r.epochs.ciphers.findSome? (·.acceptedConnectionIDsError connectionIDs) with
    | some err => do
      modify fun r => { r with
        epochs := r.epochs.mapCiphers
          (fun c => if c.epoch ∈ r.acceptingEpochs connectionIDs
            then c.withAcceptedConnectionIDs connectionIDs else c)
          (accepting_epoch _ connectionIDs) }
      throw err
    | none =>
      modify fun r => { r with
        epochs := r.epochs.mapCiphers (·.withAcceptedConnectionIDs connectionIDs)
          fun c => c.withAcceptedConnectionIDs_epoch connectionIDs
        acceptedCIDs := connectionIDs.foldl
          (fun accepted cid => if accepted.contains cid then accepted else accepted ++ [cid])
          r.acceptedCIDs }

def secretForEpoch (r : ReceivingTraffic) (epoch : Nat) : Option Bytes := r.secrets.lookup epoch

end ReceivingTraffic

/-! ## Parts of a connection -/

/-- The post-handshake flights a connection can have outstanding. -/
inductive FlightSlot where
  | ticket
  | clientAuthRequest
  | clientAuthResponse
  | newConnectionID
  | requestCID
  deriving DecidableEq, Repr

/-- The slots in the order in which an acknowledgement is applied to them. -/
def FlightSlot.inOrder : List FlightSlot :=
  [.ticket, .clientAuthRequest, .clientAuthResponse, .newConnectionID, .requestCID]

inductive AuthStage where
  | expectCertificate
  | expectCertificateVerify
  | expectFinished
  | complete
  deriving DecidableEq, Repr

/-- The records an authentication response arrived in, all of one epoch. -/
structure ResponseRange where
  epoch : Nat
  first : RecordNumber
  last : RecordNumber
  deriving DecidableEq, Repr

/-- A server's side of a client authentication under way. `request` is the body of
the request; `certificate` is the body of a certificate that carries an identity. -/
structure PostHandshakeAuthState where
  context : Bytes
  request : Bytes
  transcript : Transcript
  inbox : HandshakeInbox
  sawCertificate : Bool
  certificate : Option (UInt8 × Bytes)
  verifiedSignature : Bool
  startSequence : Option Nat
  stage : AuthStage
  response : Option ResponseRange
  pendingApplication : List PendingApplication
  pendingApplicationBytes : Nat

/-- Client authentication after the handshake, both roles. -/
structure ClientAuth where
  enabled : Bool
  offered : Bool
  required : Bool
  state : Option PostHandshakeAuthState
  transcript : Transcript
  lastRequestSequence : Option Nat
  completed : Option (Nat × Nat)
  finishedMessageSequence : Nat

structure ConnectionIDs where
  negotiated : Bool
  localUpdatesAllowed : Bool
  peerUpdatesAllowed : Bool
  sendConnectionID : Bytes
  peerSpareConnectionIDs : List Bytes
  localConnectionID : Bytes
  requestOpen : Bool
  lastNewCIDSequence : Option Nat
  lastRequestCIDSequence : Option Nat
  deriving DecidableEq, Repr

/-- What a client does with tickets: whether it stores sessions, how many it asked
for, the sequence numbers of those it took, and the stored tickets. -/
structure SessionTickets where
  storesSessions : Bool
  limit : Option Nat
  processed : List Nat
  stored : List NewSessionTicketMessage
  deriving DecidableEq, Repr

/-- The answers to connection-ID requests, which are sent in the background: the counts
asked for by requests not taken up yet, and the IDs drawn for one request. -/
structure ConnectionIDAnswers where
  waiting : List UInt8
  drawn : Option (List Bytes)
  deriving DecidableEq, Repr

structure Conn where
  isClient : Bool
  config : Config
  sender : Sender
  receiver : ReceivingTraffic
  inbound : Inbound
  pathMTU : Nat
  pathMTUFloor : Nat
  flights : FlightSlot → Option Flight
  keyUpdateResponsePending : Bool
  cids : ConnectionIDs
  answers : ConnectionIDAnswers
  auth : ClientAuth
  tickets : SessionTickets
  completedPeerFlight : Option (Nat × Nat)
  closure : Option RecordNumber
  peerReadClosed : Bool
  sent : List SealedRecord
  failure : Option Err

abbrev ConnM (α : Type) := EStateM Err Conn α

namespace Conn

variable (P : Primitives)

/-- The cipher new records are sealed with. -/
def sendCipher (c : Conn) : CipherRef := c.sender.traffic.cipher

def sendingEpoch (c : Conn) : Nat := c.sender.cipher.epoch

def onSender {α : Type} (m : EStateM Err Sender α) : ConnM α :=
  zoom Conn.sender (fun s c => { c with sender := s }) m

def onStore {α : Type} (m : EStateM Err CipherStore α) : ConnM α := onSender (Sender.onStore m)

def onReceiver {α : Type} (m : EStateM Err ReceivingTraffic α) : ConnM α :=
  zoom Conn.receiver (fun r c => { c with receiver := r }) m

def onInbound {α : Type} (m : Config → EStateM Err Inbound α) : ConnM α := do
  let c ← get
  zoom Conn.inbound (fun i c => { c with inbound := i }) (m c.config)

/-! ## Writing -/

def writeRecords (wires : List SealedRecord) : ConnM Unit :=
  modify fun c => { c with sent := c.sent ++ wires }

def writeRecord (wire : SealedRecord) : ConnM Unit := writeRecords [wire]

/-- Acknowledges one record, in the current sending epoch. -/
def writeACK (number : RecordNumber) : ConnM Unit := do
  let c ← get
  let acks ← onStore (buildACKRecords P [number] c.pathMTU c.sendCipher)
  writeRecords acks

def beginKeyUpdate (requestUpdate : Bool) : ConnM Unit := do
  let wire ← onSender (Sender.beginKeyUpdate P requestUpdate)
  writeRecord wire

def canBeginKeyUpdate (c : Conn) : Bool :=
  c.sender.traffic.update.canUseNewKeys && c.sender.cipher.epoch < maxSendingEpoch

/-! ## Flights -/

def setFlight (slot : FlightSlot) (flight : Option Flight) : ConnM Unit :=
  modify fun c => { c with flights := Function.update c.flights slot flight }

/-- Sends the records the window has room for. -/
def writeFlight (f : Flight) : ConnM Flight := do
  let (next, wires) := f.nextUnsentWire
  writeRecords wires
  pure next

def retransmitFlight (f : Flight) : ConnM Flight := do
  let wires := f.retransmitWire 10
  writeRecords wires
  pure { f with retransmitted := f.retransmitted || !wires.isEmpty }

/-- A partial acknowledgement triggers one rebuild in the life of a flight. -/
def retransmitPartialFlight (f : Flight) : ConnM Flight := do
  let claimed ← if f.retransmitted then pure f
    else do
      let rebuilt ← onStore (Flight.refreshPending P { f with retransmitted := true })
      retransmitFlight rebuilt
  writeFlight claimed

/-- The next smaller MTU, unless the floor is reached. -/
def reducePathMTU (c : Conn) : Option Nat :=
  if c.pathMTU ≤ c.pathMTUFloor then none else some (max (c.pathMTU * 3 / 4) c.pathMTUFloor)

/-- Every third timeout tries a smaller MTU; returns whether it did. -/
def prepareFlightRetransmission (f : Flight) (timeoutCount : Nat) : ConnM (Bool × Flight) := do
  let c ← get
  match if 0 < timeoutCount ∧ timeoutCount % 3 = 0 then c.reducePathMTU else none with
  | some mtu => do
    modify fun c => { c with pathMTU := mtu }
    let resized ← onStore (f.resize P mtu)
    pure (true, resized)
  | none => do
    let rebuilt ← onStore (f.refreshPending P)
    pure (false, rebuilt)

/-- Sends what the window allows of a new flight, takes its message sequence
numbers and keeps it in its slot. -/
def commitFlight (slot : FlightSlot) (count : Nat) (f : Flight) : ConnM Unit := do
  let written ← writeFlight f
  modify fun c => { c with
    sender := { c.sender with traffic := c.sender.traffic.commitMessageSequences count } }
  setFlight slot (some written)

/-- Builds and sends a flight of messages with the next sequence numbers. -/
def sendFlight (slot : FlightSlot) (bodies : List (UInt8 × Bytes)) : ConnM Unit := do
  let c ← get
  let flight ← onStore (buildProtectedFlight P
    (numberMessages c.sender.traffic.messageSequence bodies) c.pathMTU c.sendCipher)
  commitFlight slot bodies.length flight

end Conn

end Dtls13
