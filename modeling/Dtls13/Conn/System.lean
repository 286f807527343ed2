import Dtls13.Conn.Api
import Dtls13.Traffic.Outbound

/-! # Two endpoints and a network

A client and a server after their handshake. The network delivers any record
that an endpoint has sent, any number of times and in any order, or never; calls
and timers happen at any moment. Each record travels in a datagram of its own.
-/

namespace Dtls13

open ByteCodec StateLogic

/-! ## After the handshake -/

/-- A handshake record that may still be under way when the handshake is over. -/
structure LateRecord (store : CipherStore) (record : SealedRecord) : Prop where
  mem : record ∈ store.log
  contentType : record.contentType = recordTypeHandshake

/-- What the handshake leaves one endpoint with. `store` holds the sending ciphers
of the handshake; `late` are its records that may still arrive at the peer. -/
structure EndpointSetup where
  config : Config
  pathMTUFloor : Nat
  applicationSecret : Bytes
  handshakeSecret : Bytes
  messageSequence : UInt16
  connectionID : Bytes
  recordSizeLimit : Nat
  authEnabled : Bool
  authRequired : Bool
  storesSessions : Bool
  ticketLimit : Option Nat
  finalFlight : Nat × Nat
  store : CipherStore
  late : List SealedRecord
  connectionID_le : connectionID.length ≤ 255
  store_sound : store.Sound
  store_epochs : ∀ ref < store.ciphers.length, (store.read ref).epoch ≤ 2
  late_records : ∀ record ∈ late, LateRecord store record

structure Setup where
  suite : CipherSuite
  connectionIDNegotiated : Bool
  postHandshakeAuthOffered : Bool
  transcript : Transcript
  client : EndpointSetup
  server : EndpointSetup

namespace Conn

variable (P : Primitives)

/-- The sending side with the application keys; `peer` receives what it seals. -/
def installSending (suite : CipherSuite) (negotiated : Bool) (own peer : EndpointSetup) : Sender :=
  let sender := Sender.newSendingTraffic P own.store suite own.applicationSecret 3
    own.messageSequence.toNat own.config.replayWindow
  let limited : Sender := ⟨sender.store.write sender.traffic.cipher
    (sender.cipher.setPlaintextLimit peer.recordSizeLimit), sender.traffic⟩
  if negotiated then exec (Sender.setConnectionID peer.connectionID) limited else limited

/-- A new sending side is in order: it is idle, and its epoch is not one of the
handshake. -/
theorem installSending_numbered (suite : CipherSuite) (negotiated : Bool)
    (own peer : EndpointSetup) : (installSending P suite negotiated own peer).Numbered ∧
      3 ≤ (installSending P suite negotiated own peer).cipher.epoch ∧
      (installSending P suite negotiated own peer).traffic.update.pending = false := by
  have hsound := Outbound.sound_newSendingTraffic (P := P) own.store_sound own.store_epochs suite
    own.applicationSecret own.messageSequence.toNat own.config.replayWindow
  unfold installSending
  generalize hnew : Sender.newSendingTraffic P own.store suite own.applicationSecret 3
    own.messageSequence.toNat own.config.replayWindow = sender at hsound
  have hepoch : sender.cipher.epoch = 3 :=
    hnew ▸ congrArg RecordCipher.epoch (CipherStore.read_allocate_new ..)
  have hidle : sender.traffic.update.pending = false := hnew ▸ rfl
  have hsequence : sender.traffic.messageSequence < 2 ^ 16 := hnew ▸ own.messageSequence.toNat_lt
  have hgrows : CipherStore.Grows (fun _ => True) sender.store (sender.store.write
      sender.traffic.cipher (sender.cipher.setPlaintextLimit peer.recordSizeLimit)) :=
    CipherStore.grows_write hsound.cipher_lt ⟨rfl, rfl, rfl, rfl, rfl, le_rfl⟩
  have hlimited := Sender.Numbered.grow ⟨hsound, hsequence⟩ hgrows
  have hlow := hepoch.ge.trans hlimited.epoch_le
  dsimp only
  split_ifs
  · have hset := exec_of_wp (hlimited.numbered.wp_setConnectionID peer.connectionID)
    have hsame := exec_of_wp (Sender.keeps_messages_setConnectionID peer.connectionID
      ⟨sender.store.write sender.traffic.cipher
        (sender.cipher.setPlaintextLimit peer.recordSizeLimit), sender.traffic⟩)
    exact ⟨hset.numbered, hlow.trans hset.epoch_le, hsame.pending.trans hidle⟩
  · exact ⟨hlimited.numbered, hlow, hidle⟩

/-- A receive cipher with the negotiated limit and connection ID. -/
def receiveCipher (suite : CipherSuite) (negotiated : Bool) (own : EndpointSetup) (secret : Bytes)
    (epoch : Nat) : RecordCipher :=
  let cipher := (newRecordCipher P suite secret epoch own.config.replayWindow).setPlaintextLimit
    own.recordSizeLimit
  if negotiated then
    { cipher with
      connectionID := own.connectionID
      hasConnectionID := true
      acceptedCIDs := [own.connectionID] }
  else cipher

@[simp] theorem receiveCipher_epoch (suite : CipherSuite) (negotiated : Bool)
    (own : EndpointSetup) (secret : Bytes) (epoch : Nat) :
    (receiveCipher P suite negotiated own secret epoch).epoch = epoch := by
  cases negotiated <;> rfl

/-- The receiving side keeps the cipher of the handshake for late records. -/
def installReceiving (suite : CipherSuite) (negotiated : Bool) (own peer : EndpointSetup) :
    ReceivingTraffic where
  suite := suite
  secret := peer.applicationSecret
  epochs := ⟨3, [receiveCipher P suite negotiated own peer.applicationSecret 3,
    receiveCipher P suite negotiated own peer.handshakeSecret 2], by simp⟩
  current := 3
  replaySize := own.config.replayWindow
  lastUpdateSequence := 0
  hasUpdateSequence := false
  connectionID := if negotiated then own.connectionID else []
  hasConnectionID := negotiated
  plaintextLimit := own.recordSizeLimit
  acceptedCIDs := if negotiated then [own.connectionID] else []
  secrets := [(3, peer.applicationSecret)]

def start (setup : Setup) (isClient : Bool) (own peer : EndpointSetup) : Conn where
  isClient := isClient
  config := own.config
  sender := installSending P setup.suite setup.connectionIDNegotiated own peer
  receiver := installReceiving P setup.suite setup.connectionIDNegotiated own peer
  inbound := .empty
  pathMTU := own.config.mtu
  pathMTUFloor := own.pathMTUFloor
  flights := fun _ => none
  keyUpdateResponsePending := false
  cids :=
    { negotiated := setup.connectionIDNegotiated
      localUpdatesAllowed := setup.connectionIDNegotiated && !own.connectionID.isEmpty
      peerUpdatesAllowed := setup.connectionIDNegotiated && !peer.connectionID.isEmpty
      sendConnectionID := if setup.connectionIDNegotiated then peer.connectionID else []
      peerSpareConnectionIDs := []
      localConnectionID := if setup.connectionIDNegotiated then own.connectionID else []
      requestOpen := false
      lastNewCIDSequence := none
      lastRequestCIDSequence := none }
  answers := ⟨[], none⟩
  auth :=
    { enabled := own.authEnabled
      offered := setup.postHandshakeAuthOffered
      required := own.authRequired
      state := none
      transcript := setup.transcript
      lastRequestSequence := none
      completed := none
      finishedMessageSequence := peer.finalFlight.2 }
  tickets := ⟨own.storesSessions, own.ticketLimit, [], []⟩
  completedPeerFlight := some peer.finalFlight
  closure := none
  peerReadClosed := false
  sent := own.late
  failure := none

end Conn

/-! ## The system -/

inductive Side where
  | client
  | server
  deriving DecidableEq, Repr

def Side.peer : Side → Side
  | .client => .server
  | .server => .client

/-- What an application can call; the last two are the answers in the background. -/
inductive Call where
  | sendKeyUpdate (requestPeer : Bool)
  | writeDatagram (payload : Bytes)
  | readDatagram
  | sendNewSessionTickets (tickets : List (NewSessionTicketMessage × Option UInt8))
  | sendNewConnectionIDs (connectionIDs : List Bytes) (immediate : Bool)
  | requestConnectionIDs (count : UInt8)
  | useNextConnectionID
  | requestClientCertificate (context body : Bytes)
  | drawConnectionIDResponse (index : Nat) (results : List (Option Bytes))
  | sendConnectionIDResponse
  deriving DecidableEq, Repr

inductive Timeout where
  | keyUpdate
  | flight (slot : FlightSlot) (timeoutCount : Nat)
  deriving DecidableEq, Repr

/-- `deliver` brings the record that the peer sent at this place. -/
inductive SystemEvent where
  | deliver (side : Side) (index : Nat)
  | call (side : Side) (call : Call)
  | timeout (side : Side) (timeout : Timeout)
  deriving DecidableEq, Repr

namespace Conn

variable (P : Primitives) (hooks : AuthHooks)

def perform : Call → ConnM Unit
  | .sendKeyUpdate requestPeer => sendKeyUpdate P requestPeer
  | .writeDatagram payload => writeDatagram P payload
  | .readDatagram => readDatagram
  | .sendNewSessionTickets tickets => sendNewSessionTickets P tickets
  | .sendNewConnectionIDs connectionIDs immediate => sendNewConnectionIDs P connectionIDs immediate
  | .requestConnectionIDs count => requestConnectionIDs P count
  | .useNextConnectionID => useNextConnectionID
  | .requestClientCertificate context body => requestClientCertificate P context body
  | .drawConnectionIDResponse index results => drawConnectionIDResponse index results
  | .sendConnectionIDResponse => sendConnectionIDResponse P

def expire : Timeout → ConnM Unit
  | .keyUpdate => keyUpdateTimeout P
  | .flight slot timeoutCount => flightTimeout P slot timeoutCount

/-- An error ends the connection. -/
def runOrFail {α : Type} (m : ConnM α) (c : Conn) : Conn :=
  handle m c (fun _ next => next) fun err next => next.failConnection P err

def receive (record : SealedRecord) (c : Conn) : Conn :=
  if c.failure.isSome then c else runOrFail P (dispatchDatagram P hooks record.packet) c

def callStep (call : Call) (c : Conn) : Conn :=
  if c.failure.isSome then c else exec (perform P call) c

def timeoutStep (timeout : Timeout) (c : Conn) : Conn :=
  if c.failure.isSome then c else runOrFail P (expire P timeout) c

end Conn

structure System where
  client : Conn
  server : Conn

namespace System

variable (P : Primitives) (hooks : AuthHooks)

def start (setup : Setup) : System where
  client := .start P setup true setup.client setup.server
  server := .start P setup false setup.server setup.client

def endpoint (s : System) : Side → Conn
  | .client => s.client
  | .server => s.server

theorem start_numbered (setup : Setup) (side : Side) :
    let sender := ((start P setup).endpoint side).sender
    sender.Numbered ∧ 3 ≤ sender.cipher.epoch ∧ sender.traffic.update.pending = false := by
  cases side with
  | client => exact Conn.installSending_numbered P _ _ _ _
  | server => exact Conn.installSending_numbered P _ _ _ _

def update (s : System) (side : Side) (f : Conn → Conn) : System :=
  match side with
  | .client => { s with client := f s.client }
  | .server => { s with server := f s.server }

/-- The record a delivery to `side` brings. -/
def delivered (s : System) (side : Side) (index : Nat) : Option SealedRecord :=
  (s.endpoint side.peer).sent[index]?

def step (s : System) : SystemEvent → System
  | .deliver side index =>
    match s.delivered side index with
    | none => s
    | some record => s.update side (Conn.receive P hooks record)
  | .call side call => s.update side (Conn.callStep P call)
  | .timeout side timeout => s.update side (Conn.timeoutStep P timeout)

end System

/-! ### Two small endpoints -/

/-- An authentication without an identity, which every server accepts. -/
def anonymousAuth : AuthHooks where
  parseCertificateRequest request := .ok request
  selectClientCertificate _ := .ok (false, [])
  certificateHandshakeMessage _ certificate := .ok (false, certificate)
  signCertificateVerify _ _ := .ok []
  finishedVerifyData _ _ := List.replicate 32 0
  checkCertificate _ _ _ _ := .ok false
  checkCertificateVerify _ _ _ _ := .ok ()

/-- An endpoint on a path of 256 bytes. -/
def smallEndpoint (secret connectionID : Bytes) (hlength : connectionID.length ≤ 255) :
    EndpointSetup where
  config := { Config.standard with mtu := 256, mtu_ge := le_rfl }
  pathMTUFloor := 256
  applicationSecret := secret
  handshakeSecret := secret ++ [0]
  messageSequence := 0
  connectionID := connectionID
  recordSizeLimit := 0
  authEnabled := true
  authRequired := false
  storesSessions := true
  ticketLimit := none
  finalFlight := (0, 0)
  store := ⟨[], []⟩
  late := []
  connectionID_le := hlength
  store_sound := ⟨by simp, by simp, by simp⟩
  store_epochs := by simp
  late_records := by simp

def smallSetup : Setup where
  suite := .aes128GcmSha256
  connectionIDNegotiated := true
  postHandshakeAuthOffered := true
  transcript := []
  client := smallEndpoint [1] [3] (by decide)
  server := smallEndpoint [2] [4] (by decide)

end Dtls13
