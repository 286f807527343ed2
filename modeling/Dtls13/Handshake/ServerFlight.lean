import Dtls13.Handshake.Inbox
import Dtls13.Handshake.Transcript
import Dtls13.Lib.BatchLoop

/-! # The server's encrypted flight, as a client takes it

EncryptedExtensions, an optional CertificateRequest, Certificate, CertificateVerify
and Finished. The order is kept by a stage that advances with each message; the
handlers check one message each and add it to the transcript. Parsing of the
larger messages and the verification of certificates are parameters.
-/

namespace Dtls13

open ByteCodec BatchLoop

def alertBadCertificate : UInt8 := 42
def alertUnsupportedCertificate : UInt8 := 43
def alertUnsupportedExtension : UInt8 := 110

def handshakeTypeEncryptedExtensions : UInt8 := 8

/-- What one receive call returns: the messages whose turn has come, and the number
of the last record opened. A message has a 24-bit length. -/
structure CompletedHandshakeBatch where
  messages : List CompletedHandshake
  lastOpened : Nat
  encodable : ∀ message ∈ messages, message.body.length < 2 ^ 24

/-! ## The order of messages -/

inductive ServerHandshakeStage where
  | expectEncryptedExtensions
  | expectCertificateRequestOrCertificate
  | expectCertificate
  | expectCertificateVerify
  | expectFinished
  | complete
  deriving DecidableEq, Repr

/-- A certificate may be sent compressed. -/
def isCertificateType (typ : UInt8) : Bool :=
  typ == handshakeTypeCertificate || typ == handshakeTypeCompressedCertificate

namespace ServerHandshakeStage

def unexpectedOrder : Err :=
  alertError alertUnexpectedMessage (.protocolError "unexpected server handshake message order")

/-- The stage after a message of type `typ`. -/
def accept (stage : ServerHandshakeStage) (typ : UInt8) (resumed : Bool) :
    Except Err ServerHandshakeStage :=
  match stage with
  | .expectEncryptedExtensions =>
    if typ ≠ handshakeTypeEncryptedExtensions then .error unexpectedOrder
    else if resumed then .ok .expectFinished
    else .ok .expectCertificateRequestOrCertificate
  | .expectCertificateRequestOrCertificate =>
    if typ = handshakeTypeCertificateRequest then .ok .expectCertificate
    else if isCertificateType typ then .ok .expectCertificateVerify
    else .error unexpectedOrder
  | .expectCertificate =>
    if isCertificateType typ then .ok .expectCertificateVerify else .error unexpectedOrder
  | .expectCertificateVerify =>
    if typ = handshakeTypeCertificateVerify then .ok .expectFinished else .error unexpectedOrder
  | .expectFinished =>
    if typ = handshakeTypeFinished then .ok .complete else .error unexpectedOrder
  | .complete => .error unexpectedOrder

end ServerHandshakeStage

/-! ## The state of a client -/

/-- EncryptedExtensions, parsed and checked against the hello. -/
structure EncryptedExtensions where
  protocol : String
  acceptedEarly : Bool
  retryConfigs : Option Bytes
  handshakeMetadata : Option Bytes
  cachedInformation : UInt8
  serverCertificateType : CertificateType
  clientCertificateType : Option CertificateType
  expectedTicketCount : Option Nat
  recordSizeLimit : Option Nat
  deriving DecidableEq, Repr

structure CertificateRequestMessage where
  requestContext : Bytes
  deriving DecidableEq, Repr

/-- An offer of ECH: whether the server rejected it, and what it sent instead. -/
structure ECHClientContext where
  rejected : Bool
  retryConfigs : Bytes
  deriving DecidableEq, Repr

/-- What of the configuration and the hello the flight is checked against. -/
structure ClientFlightConfig where
  wantsHandshakeMetadata : Bool
  serverCertificateTypes : List CertificateType
  recordSizeLimit : Nat
  newSessionCount : Nat
  resumptionCount : Nat
  earlyData : Bool
  postHandshakeAuth : Bool

/-- A client from the ServerHello on. `resumedSession` is the identity kept with the
session that is resumed, and `selectedIdentity` the position of the chosen PSK. -/
structure ClientHandshakeState where
  selectedIdentity : Option Nat
  resumedSession : Option (PeerIdentity × Bytes)
  echAccepted : Bool
  ech : Option ECHClientContext
  cachedInfo : Option UInt8
  stage : ServerHandshakeStage
  transcript : Transcript
  peer : PeerIdentity
  ocspResponse : Bytes
  verifiedServerSignature : Bool
  certificateRequest : Option CertificateRequestMessage
  negotiated : String
  handshakeMetadata : Option Bytes
  serverCertificateType : CertificateType
  clientCertificateType : CertificateType
  clientCertificateTypeSelected : Bool
  sessionTicketLimit : Option Nat
  recordSizeLimits : Option (Nat × Nat)
  earlyAccepted : Bool
  earlyRejected : Bool
  serverFinishedSequence : Nat
  deriving DecidableEq, Repr

namespace ClientHandshakeState

def usingPSK (s : ClientHandshakeState) : Bool := s.selectedIdentity.isSome

def echRejected (s : ClientHandshakeState) : Bool := s.ech.any (·.rejected)

end ClientHandshakeState

/-- The parsers of the larger messages, given what was selected of the cached
information, and the check of a connection whose ECH was rejected. -/
structure ClientHooks extends PeerHooks where
  parseEncryptedExtensions : Bytes → HookResult EncryptedExtensions
  parseCachedServerCertificate : Option UInt8 → UInt8 → Bytes → HookResult CertificateMessage
  validateCertificateMessage : CertificateType → CertificateMessage → HookResult Unit
  verifyCertificateChainForECHRejection : CertificateMessage → HookResult (List Bytes)
  encryptedClientHelloRejectionVerify : PeerIdentity → HookResult Unit
  parseCertificateRequest : Option UInt8 → Bytes → HookResult CertificateRequestMessage

def cachedCertRequest : UInt8 := 2

def supportsCertificateType (types : List CertificateType) (typ : CertificateType) : Bool :=
  if types.isEmpty then typ == .x509 else types.contains typ

abbrev ClientFlightM := EStateM Err ClientHandshakeState

namespace ClientHandshakeState

variable (config : ClientFlightConfig) (hooks : ClientHooks)

/-! ## Messages -/

/-- Every handler ends by adding its message to the transcript. -/
def recordMessage (message : CompletedHandshake) : ClientFlightM Unit :=
  modify fun s => { s with transcript := s.transcript.record message.typ message.body }

/-- What the client learns from the extensions. -/
def applyEncryptedExtensions (ee : EncryptedExtensions) (s : ClientHandshakeState) :
    ClientHandshakeState :=
  { s with
    negotiated := ee.protocol
    handshakeMetadata := ee.handshakeMetadata
    cachedInfo := s.cachedInfo.map fun _ => ee.cachedInformation
    serverCertificateType := ee.serverCertificateType
    clientCertificateType := ee.clientCertificateType.getD .x509
    clientCertificateTypeSelected := ee.clientCertificateType.isSome
    sessionTicketLimit := match ee.expectedTicketCount with
      | none => s.sessionTicketLimit
      | some count => some (min count
          (if s.resumedSession.isSome then config.resumptionCount else config.newSessionCount))
    ech := match ee.retryConfigs with
      | none => s.ech
      | some configs => s.ech.map fun ech =>
        if ech.rejected then { ech with retryConfigs := configs } else ech
    recordSizeLimits := match ee.recordSizeLimit with
      | none => s.recordSizeLimits
      | some limit => some (config.recordSizeLimit, limit)
    earlyAccepted := s.earlyAccepted || ee.acceptedEarly
    earlyRejected := s.earlyRejected || (!ee.acceptedEarly && config.earlyData) }

def clientEncryptedExtensions (message : CompletedHandshake) : ClientFlightM Unit := do
  let ee ← ofExcept (hooks.parseEncryptedExtensions message.body).run
  let s ← get
  if s.echAccepted && config.wantsHandshakeMetadata && ee.handshakeMetadata.isNone then
    throw (alertError alertMissingExtension
      (.protocolError "server did not accept handshake metadata"))
  else if ee.handshakeMetadata.isSome && !s.echAccepted then
    throw (alertError alertIllegalParameter
      (.protocolError "handshake metadata requires ECH acceptance"))
  else if ee.cachedInformation != 0 && (s.cachedInfo.isNone || s.usingPSK) then
    throw (alertError alertIllegalParameter
      (.protocolError "cached_info selected without certificate authentication"))
  else if !s.usingPSK && !s.echRejected &&
      !supportsCertificateType config.serverCertificateTypes ee.serverCertificateType then
    throw (alertError alertUnsupportedCertificate
      (.protocolError "server did not negotiate an acceptable certificate type"))
  else if ee.retryConfigs.isSome && s.ech.isSome && s.echAccepted then
    throw (alertError alertUnsupportedExtension
      (.protocolError "server sent ECH retry configurations after accepting ECH"))
  else if ee.acceptedEarly && s.selectedIdentity != some 0 then
    throw (alertError alertIllegalParameter
      (.protocolError "early_data was accepted without selecting PSK identity 0"))
  else do
    modify (applyEncryptedExtensions config ee)
    recordMessage message

/-- The identity in a server's Certificate, if the client accepts it. -/
def verifyServerCertificate (s : ClientHandshakeState) (message : CompletedHandshake) :
    Except Err (CertificateMessage × PeerIdentity) := do
  let certMsg ← (hooks.parseCachedServerCertificate s.cachedInfo message.typ message.body).run
  (hooks.validateCertificateMessage s.serverCertificateType certMsg).run
  let (peerCerts, peerRawPublicKey) ←
    if s.serverCertificateType = .rawPublicKey then
      if s.echRejected then
        .error (alertError alertBadCertificate
          (.protocolError "ECH rejection requires X.509 public-name authentication"))
      else do
        let raw ← (hooks.verifyRawPublicKeyMessage certMsg).run
        pure (s.peer.certificates, raw)
    else do
      let certs ← (if s.echRejected then hooks.verifyCertificateChainForECHRejection certMsg
        else hooks.verifyCertificateChain certMsg).run
      pure (certs, s.peer.rawPublicKey)
  let delegated ← (hooks.peerDelegatedCredential certMsg peerCerts).run
  let identity : PeerIdentity := ⟨peerCerts, peerRawPublicKey, delegated⟩
  if s.echRejected then (hooks.encryptedClientHelloRejectionVerify identity).run
  pure (certMsg, identity)

def clientServerCertificate (message : CompletedHandshake) : ClientFlightM Unit := do
  let s ← get
  if s.usingPSK then throw (.protocolError "server sent Certificate in a PSK handshake")
  else if s.cachedInfo.any (· &&& cachedCertRequest != 0) && s.certificateRequest.isNone then
    throw (alertError alertIllegalParameter
      (.protocolError "cached_info selected without CertificateRequest"))
  else do
    let (certMsg, identity) ← ofExcept (verifyServerCertificate hooks s message)
    modify fun s => { s with
      peer := identity
      ocspResponse := (certMsg.certificates.head?.map (·.ocspResponse)).getD s.ocspResponse }
    recordMessage message

def clientCertificateRequest (message : CompletedHandshake) : ClientFlightM Unit := do
  let s ← get
  if s.usingPSK then throw (.protocolError "server requested a certificate in a PSK handshake")
  else if s.certificateRequest.isSome then
    throw (alertError alertUnexpectedMessage (.protocolError "duplicate CertificateRequest"))
  else do
    let request ← ofExcept (hooks.parseCertificateRequest s.cachedInfo message.body).run
    if !request.requestContext.isEmpty then
      throw (alertError alertIllegalParameter
        (.protocolError "initial CertificateRequest context must be empty"))
    else do
      modify fun s => { s with certificateRequest := some request }
      recordMessage message

def clientServerCertificateVerify (message : CompletedHandshake) : ClientFlightM Unit := do
  let s ← get
  if !s.peer.isPresent then
    throw (alertError alertUnexpectedMessage
      (.protocolError "CertificateVerify before Certificate"))
  else do
    let cv ← ofExcept (parseCertificateVerify message.body)
    ofExcept (hooks.verifyPeerAuthenticationSignature s.peer cv s.transcript).run
    recordMessage message

def clientServerFinished (message : CompletedHandshake) : ClientFlightM Unit := do
  let s ← get
  let verify ← ofExcept (parseFinished message.body hooks.hashSize)
  if !hooks.verifyFinished s.transcript verify then
    throw (alertError alertDecryptError (.protocolError "server Finished verification failed"))
  else do
    recordMessage message
    modify fun s => { s with serverFinishedSequence := message.sequence }

/-! ## The loop -/

/-- One message of the flight; the stage advances before the message is handled. -/
def clientMessage (message : CompletedHandshake) : ClientFlightM Unit := do
  let s ← get
  let stage ← ofExcept (s.stage.accept message.typ s.usingPSK)
  modify fun s => { s with stage := stage }
  if message.typ = handshakeTypeEncryptedExtensions then
    clientEncryptedExtensions config hooks message
  else if isCertificateType message.typ then clientServerCertificate hooks message
  else if message.typ = handshakeTypeCertificateRequest then
    clientCertificateRequest hooks message
  else if message.typ = handshakeTypeCertificateVerify then do
    clientServerCertificateVerify hooks message
    modify fun s => { s with verifiedServerSignature := true }
  else if message.typ = handshakeTypeFinished then
    if !s.usingPSK && (!s.peer.isPresent || !s.verifiedServerSignature) then
      throw (.protocolError "server authentication messages are incomplete")
    else clientServerFinished hooks message
  else throw (alertError alertUnexpectedMessage
    (.protocolError "unexpected server handshake message"))

def isComplete (s : ClientHandshakeState) : Bool := s.stage == .complete

/-- A client that resumes a session starts with the identity kept in it. -/
def beginServerFlight (s : ClientHandshakeState) : ClientHandshakeState :=
  { s with
    stage := .expectEncryptedExtensions
    verifiedServerSignature := false
    peer := (s.resumedSession.map (·.1)).getD s.peer
    ocspResponse := (s.resumedSession.map (·.2)).getD s.ocspResponse }

def clientProcessServerFlight (received : List (Except Err CompletedHandshakeBatch))
    (s : ClientHandshakeState) : Outcome Err ClientHandshakeState CompletedHandshakeBatch :=
  match loop isComplete (fun batch => forEach (clientMessage config hooks) batch.messages)
      received s.beginServerFlight with
  | .finished last rest =>
    if last.clientCertificateTypeSelected && last.certificateRequest.isNone &&
        !config.postHandshakeAuth then
      .failed (alertError alertIllegalParameter (.protocolError
        "server selected client certificate type without CertificateRequest"))
    else .finished last rest
  | outcome => outcome

end ClientHandshakeState

end Dtls13
