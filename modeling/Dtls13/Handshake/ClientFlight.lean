import Dtls13.Handshake.ServerFlight

/-! # The client's final flight, as a server takes it

Certificate and CertificateVerify if the server asked for them, then Finished.
Here the stage only says which message may come; whether CertificateVerify
follows Certificate depends on what the Certificate carries.
-/

namespace Dtls13

open ByteCodec BatchLoop

def alertCertificateRequired : UInt8 := 116

inductive ClientHandshakeStage where
  | expectCertificate
  | expectCertificateVerify
  | expectFinished
  | complete
  deriving DecidableEq, Repr

/-- Whether a message of type `typ` may come now; other types are not checked here. -/
def ClientHandshakeStage.accept (stage : ClientHandshakeStage) (typ : UInt8) : Except Err Unit :=
  if isCertificateType typ then
    if stage ≠ .expectCertificate then
      .error (alertError alertUnexpectedMessage (.protocolError "unexpected client Certificate"))
    else .ok ()
  else if typ = handshakeTypeCertificateVerify then
    if stage ≠ .expectCertificateVerify then
      .error (alertError alertUnexpectedMessage
        (.protocolError "client CertificateVerify without certificate"))
    else .ok ()
  else if typ = handshakeTypeFinished then
    if stage ≠ .expectFinished then
      .error (alertError alertUnexpectedMessage (.protocolError "unexpected client Finished"))
    else .ok ()
  else .ok ()

inductive ClientAuthType where
  | noClientCert
  | requestClientCert
  | requireAnyClientCert
  | verifyClientCertIfGiven
  | requireAndVerifyClientCert
  deriving DecidableEq, Repr

/-- A server that waits for the client's last flight. -/
structure ServerHandshakeState where
  usingPSK : Bool
  clientAuth : ClientAuthType
  resumedSession : Option PeerIdentity
  clientCertificateType : CertificateType
  stage : ClientHandshakeStage
  transcript : Transcript
  client : PeerIdentity
  ocspResponse : Bytes
  sawClientCertificate : Bool
  verifiedClientSignature : Bool
  clientFinalFlightStart : Nat
  clientFinishedSeq : Nat
  clientRecords : List RecordNumber
  deriving DecidableEq, Repr

/-- The parsing and verification of a client's messages. -/
structure ServerHooks extends PeerHooks where
  parseCertificateHandshakeMessage : UInt8 → Bytes → HookResult CertificateMessage
  validateCertificateMessage : CertificateType → CertificateMessage → HookResult Unit
  matchCertificateOIDFilters : Bytes → HookResult Unit

abbrev ServerFlightM := EStateM Err ServerHandshakeState

namespace ServerHandshakeState

variable (hooks : ServerHooks)

/-- A server never asks for a certificate when a PSK was selected. -/
def requestsClientCertificate (s : ServerHandshakeState) : Bool :=
  !s.usingPSK && s.clientAuth != .noClientCert

/-- Whether a client without an identity is turned away. -/
def requiresClientCertificate (s : ServerHandshakeState) : Bool :=
  !s.usingPSK &&
    (s.clientAuth == .requireAnyClientCert || s.clientAuth == .requireAndVerifyClientCert)

/-! ## Messages -/

def recordMessage (message : CompletedHandshake) : ServerFlightM Unit :=
  modify fun s => { s with transcript := s.transcript.record message.typ message.body }

/-- The identity in a Certificate that is not empty. -/
def verifyClientIdentity (s : ServerHandshakeState) (certMessage : CertificateMessage) :
    Except Err PeerIdentity := do
  let (clientCerts, clientRawPublicKey) ←
    if s.clientCertificateType = .rawPublicKey then do
      let raw ← (hooks.verifyRawPublicKeyMessage certMessage).run
      pure (s.client.certificates, raw)
    else do
      let certs ← (hooks.verifyCertificateChain certMessage).run
      match certs with
      | [] => .error indexOutOfRange
      | leaf :: _ => do
        match (hooks.matchCertificateOIDFilters leaf).run with
        | .error err => .error (alertError alertUnsupportedCertificate err)
        | .ok () => pure (certs, s.client.rawPublicKey)
  let delegated ← (hooks.peerDelegatedCredential certMessage clientCerts).run
  pure ⟨clientCerts, clientRawPublicKey, delegated⟩

/-- Says whether the Certificate carried any certificates. -/
def serverClientCertificate (message : CompletedHandshake) : ServerFlightM Bool := do
  let s ← get
  let certMessage ← ofExcept
    (hooks.parseCertificateHandshakeMessage message.typ message.body).run
  ofExcept (hooks.validateCertificateMessage s.clientCertificateType certMessage).run
  match certMessage.certificates with
  | [] => do
    recordMessage message
    pure false
  | first :: _ => do
    let identity ← ofExcept (verifyClientIdentity hooks s certMessage)
    modify fun s => { s with client := identity, ocspResponse := first.ocspResponse }
    recordMessage message
    pure true

def serverClientCertificateVerify (message : CompletedHandshake) : ServerFlightM Unit := do
  let s ← get
  if !s.client.isPresent then
    throw (alertError alertUnexpectedMessage
      (.protocolError "client CertificateVerify without certificate"))
  else do
    let cv ← ofExcept (parseCertificateVerify message.body)
    ofExcept (hooks.verifyPeerAuthenticationSignature s.client cv s.transcript).run
    recordMessage message

def serverClientFinished (message : CompletedHandshake) : ServerFlightM Unit := do
  let s ← get
  let verify ← ofExcept (parseFinished message.body hooks.hashSize)
  if !hooks.verifyFinished s.transcript verify then
    throw (alertError alertDecryptError (.protocolError "client Finished verification failed"))
  else recordMessage message

/-- What must have been received before Finished. -/
def checkAuthenticated (s : ServerHandshakeState) : Except Err Unit :=
  if s.requestsClientCertificate && !s.sawClientCertificate then
    .error (alertError alertUnexpectedMessage
      (.protocolError "client omitted Certificate message"))
  else if s.requiresClientCertificate && !s.client.isPresent then
    .error (alertError alertCertificateRequired
      (.protocolError "client certificate is required"))
  else if !s.usingPSK && s.client.isPresent && !s.verifiedClientSignature then
    .error (alertError alertUnexpectedMessage (.protocolError "client omitted CertificateVerify"))
  else .ok ()

/-! ## The loop -/

def serverMessage (message : CompletedHandshake) : ServerFlightM Unit := do
  let s ← get
  ofExcept (s.stage.accept message.typ)
  if isCertificateType message.typ then do
    modify fun s => { s with sawClientCertificate := true }
    let hasCertificates ← serverClientCertificate hooks message
    modify fun s => { s with
      stage := if hasCertificates then .expectCertificateVerify else .expectFinished }
  else if message.typ = handshakeTypeCertificateVerify then do
    serverClientCertificateVerify hooks message
    modify fun s => { s with verifiedClientSignature := true, stage := .expectFinished }
  else if message.typ = handshakeTypeFinished then do
    modify fun s => { s with clientFinishedSeq := message.sequence }
    ofExcept s.checkAuthenticated
    serverClientFinished hooks message
    modify fun s => { s with stage := .complete }
  else throw (alertError alertUnexpectedMessage
    (.protocolError "unexpected client handshake message"))

/-- The messages one receive call returned; the record they were completed by counts
as one more of the client's flight. -/
def serverBatch (messages : List CompletedHandshake) (lastOpened : Nat) : ServerFlightM Unit := do
  modify fun s => { s with clientRecords := s.clientRecords ++ [⟨2, lastOpened⟩] }
  forEach (serverMessage hooks) messages

def isComplete (s : ServerHandshakeState) : Bool := s.stage == .complete

def beginClientFlight (s : ServerHandshakeState) : ServerHandshakeState :=
  { s with
    clientFinalFlightStart := s.clientFinishedSeq
    client := s.resumedSession.getD s.client
    stage := if s.requestsClientCertificate then .expectCertificate else .expectFinished
    sawClientCertificate := false
    verifiedClientSignature := false }

def serverProcessClientFlight (received : List (Except Err CompletedHandshakeBatch))
    (s : ServerHandshakeState) : Outcome Err ServerHandshakeState CompletedHandshakeBatch :=
  loop isComplete (fun batch => serverBatch hooks batch.messages batch.lastOpened) received
    s.beginClientFlight

end ServerHandshakeState

end Dtls13
