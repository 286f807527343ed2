import Dtls13.Conn.State

/-! # Client authentication after the handshake

The server sends a CertificateRequest, the client answers it with one flight of
Certificate, CertificateVerify and Finished, and the server takes these messages
in order. What certificates and signatures are accepted is decided by code that
the exchange of messages does not depend on; it is a parameter here.
-/

namespace Dtls13

open ByteCodec StateLogic

/-- The parsing, choice and verification of certificates. A certificate is chosen
and encoded for a request; the result says whether it holds an identity. Whether
a certificate message is sent compressed is decided with the request at hand. -/
structure AuthHooks where
  parseCertificateRequest : Bytes → HookResult Bytes
  selectClientCertificate : Bytes → HookResult (Bool × Bytes)
  certificateHandshakeMessage : Bytes → Bytes → HookResult (Bool × Bytes)
  signCertificateVerify : Bytes → Transcript → HookResult Bytes
  finishedVerifyData : Bytes → Transcript → Bytes
  checkCertificate : Bytes → Bytes → UInt8 → Bytes → HookResult Bool
  checkCertificateVerify : Bytes → UInt8 × Bytes → Transcript → Bytes → HookResult Unit

namespace Conn

variable (P : Primitives) (hooks : AuthHooks)

def setAuthState (state : Option PostHandshakeAuthState) : ConnM Unit :=
  modify fun c => { c with auth := { c.auth with state := state } }

/-! ## The client's response -/

/-- The messages of the response, once a certificate was chosen. -/
def clientAuthResponse (request : Bytes) (transcript : Transcript) (secret : Bytes)
    (hasIdentity : Bool) (certificateBody : Bytes) :
    Except Err (List (UInt8 × Bytes) × Transcript) := do
  let (compressed, body) ← (hooks.certificateHandshakeMessage request certificateBody).run
  let certificateType :=
    if compressed then handshakeTypeCompressedCertificate else handshakeTypeCertificate
  let transcript ← transcript.add certificateType body
  let (verify, transcript) ← if hasIdentity then do
      let verifyBody ← (hooks.signCertificateVerify request transcript).run
      let transcript ← transcript.add handshakeTypeCertificateVerify verifyBody
      pure ([(handshakeTypeCertificateVerify, verifyBody)], transcript)
    else pure ([], transcript)
  let finishedBody := hooks.finishedVerifyData secret transcript
  let transcript ← transcript.add handshakeTypeFinished finishedBody
  pure ((certificateType, body) :: verify ++ [(handshakeTypeFinished, finishedBody)], transcript)

/-- The response has a message more when the client has an identity to prove. -/
theorem clientAuthResponse_length {request secret certificateBody : Bytes}
    {transcript last : Transcript} {hasIdentity : Bool} {bodies : List (UInt8 × Bytes)}
    (hrun : clientAuthResponse hooks request transcript secret hasIdentity certificateBody =
      .ok (bodies, last)) : bodies.length = if hasIdentity then 3 else 2 := by
  unfold clientAuthResponse at hrun
  obtain ⟨⟨compressed, body⟩, -, hrun⟩ := bind_eq_ok.mp hrun
  obtain ⟨certified, -, hrun⟩ := bind_eq_ok.mp hrun
  cases hasIdentity with
  | false =>
    obtain ⟨unsigned, hunsigned, hrun⟩ := bind_eq_ok.mp hrun
    cases hunsigned
    obtain ⟨finished, -, hrun⟩ := bind_eq_ok.mp hrun
    cases hrun
    rfl
  | true =>
    obtain ⟨verifyBody, -, hrun⟩ := bind_eq_ok.mp hrun
    obtain ⟨verified, -, hrun⟩ := bind_eq_ok.mp hrun
    obtain ⟨signed, hsigned, hrun⟩ := bind_eq_ok.mp hrun
    cases hsigned
    obtain ⟨finished, -, hrun⟩ := bind_eq_ok.mp hrun
    cases hrun
    rfl

def processPostHandshakeCertificateRequest (sequence : Nat) (body : Bytes) : ConnM Unit := do
  let requestContext ← ofExcept (hooks.parseCertificateRequest body).run
  let c ← get
  if !c.isClient || !c.auth.enabled || requestContext.isEmpty then
    throw (alertError alertUnexpectedMessage
      (.protocolError "unexpected post-handshake CertificateRequest"))
  else if c.auth.lastRequestSequence.any (sequence ≤ ·) then pure ()
  else if (c.flights .clientAuthResponse).any (!·.complete) then
    throw (alertError alertUnexpectedMessage
      (.protocolError "overlapping post-handshake CertificateRequest"))
  else do
    let transcript ← ofExcept (c.auth.transcript.add handshakeTypeCertificateRequest body)
    let (hasIdentity, certificateBody) ← ofExcept (hooks.selectClientCertificate body).run
    ofExcept (c.sender.traffic.canAllocateMessageSequences (if hasIdentity then 3 else 2))
    let (bodies, transcript) ← ofExcept (clientAuthResponse hooks body transcript
      c.sender.traffic.secret hasIdentity certificateBody)
    sendFlight P .clientAuthResponse bodies
    modify fun c => { c with auth :=
      { c.auth with transcript := transcript, lastRequestSequence := some sequence } }

/-! ## The server's side -/

/-- Starts the exchange; `context` and `body` are those of the request. -/
def requestClientCertificate (context body : Bytes) : ConnM Unit := do
  let c ← get
  if c.isClient then throw (.plain "dtls13: only a server can request a client certificate")
  else if !c.auth.enabled then
    throw (.configError "ClientAuth must request or require a client certificate")
  else if !c.auth.offered then throw (.protocolError "client did not offer post_handshake_auth")
  else if c.auth.state.isSome then
    throw (.plain "dtls13: post-handshake client authentication is already active")
  else do
    ofExcept (c.sender.traffic.canAllocateMessageSequences 1)
    let transcript ← ofExcept (c.auth.transcript.add handshakeTypeCertificateRequest body)
    sendFlight P .clientAuthRequest [(handshakeTypeCertificateRequest, body)]
    setAuthState (some
      { context := context
        request := body
        transcript := transcript
        inbox := .newHandshakeInbox ((c.auth.finishedMessageSequence + 1) % 2 ^ 16)
          c.config.maxHandshakeMessage c.config.maxBufferedHandshakeMessages
          c.config.maxBufferedHandshakeBytes
        sawCertificate := false
        certificate := none
        verifiedSignature := false
        startSequence := none
        stage := .expectCertificate
        response := none
        pendingApplication := []
        pendingApplicationBytes := 0 })

/-- Ends the exchange; application data held back is released if it succeeded. -/
def finishPostHandshakeAuth (result : Except Err Unit) : ConnM Unit := do
  let clear : ConnM Unit := do
    setAuthState none
    setFlight .clientAuthRequest none
  match result with
  | .error err => do
    clear
    throw err
  | .ok () => do
    let c ← get
    let pending := (c.auth.state.map (·.pendingApplication)).getD []
    recover (onInbound (Inbound.queueAll · pending)) fun err => do
      clear
      throw err
    clear

def processCertificate (state : PostHandshakeAuthState) (message : CompletedHandshake) :
    Except Err PostHandshakeAuthState := do
  if state.stage ≠ .expectCertificate then
    throw (alertError alertUnexpectedMessage
      (.protocolError "unexpected post-handshake Certificate"))
  let hasIdentity ← (hooks.checkCertificate state.request state.context message.typ
    message.body).run
  let transcript ← state.transcript.add message.typ message.body
  pure { state with
    sawCertificate := true
    certificate := if hasIdentity then some (message.typ, message.body) else none
    stage := if hasIdentity then .expectCertificateVerify else .expectFinished
    transcript := transcript }

def processCertificateVerify (state : PostHandshakeAuthState) (message : CompletedHandshake) :
    Except Err PostHandshakeAuthState :=
  match state.stage, state.certificate with
  | .expectCertificateVerify, some certificate => do
    (hooks.checkCertificateVerify state.request certificate state.transcript message.body).run
    let transcript ← state.transcript.add message.typ message.body
    pure { state with
      verifiedSignature := true, stage := .expectFinished, transcript := transcript }
  | _, _ => .error (.protocolError "post-handshake CertificateVerify without certificate")

/-- The checks on the messages received, made when the last one arrives. -/
def checkFinished (required : Bool) (receiver : ReceivingTraffic) (state : PostHandshakeAuthState)
    (response : ResponseRange) (body : Bytes) : Except Err Unit :=
  let hasIdentity := state.certificate.isSome
  if state.stage ≠ .expectFinished then
    .error (alertError alertUnexpectedMessage
      (.protocolError "unexpected post-handshake Finished"))
  else if !state.sawCertificate || required && !hasIdentity ||
      hasIdentity && !state.verifiedSignature then
    .error (.protocolError "post-handshake client authentication is incomplete")
  else if body.length ≠ receiver.suite.hash.size then
    .error (alertError alertDecodeError (.protocolError "invalid Finished length"))
  else match receiver.secretForEpoch response.epoch with
    | none => .error (alertError alertUnexpectedMessage
        (.protocolError "post-handshake authentication epoch secret is unavailable"))
    | some secret =>
      if hooks.finishedVerifyData secret state.transcript ≠ body then
        .error (alertError alertDecryptError
          (.protocolError "post-handshake client Finished verification failed"))
      else .ok ()

def validatePostHandshakeAuthApplicationOrder (state : PostHandshakeAuthState)
    (response : ResponseRange) : Except Err Unit :=
  if state.pendingApplication.any fun application =>
      Inbound.interleaves response.first response.last application.number then
    .error (alertError alertUnexpectedMessage (.protocolError
      "application data interleaved with post-handshake authentication response"))
  else .ok ()

def processFinished (state : PostHandshakeAuthState) (response : ResponseRange)
    (message : CompletedHandshake) : ConnM PostHandshakeAuthState := do
  let c ← get
  ofExcept (checkFinished hooks c.auth.required c.receiver state response message.body)
  onInbound (Inbound.rememberProtectedHandshakeRangeLocked · response.first response.last)
  ofExcept (validatePostHandshakeAuthApplicationOrder state response)
  let transcript ← ofExcept (state.transcript.add message.typ message.body)
  modify fun c => { c with auth := { c.auth with transcript := transcript } }
  pure { state with stage := .complete, transcript := transcript }

def processPostHandshakeAuthMessage (state : PostHandshakeAuthState) (response : ResponseRange)
    (message : CompletedHandshake) : ConnM PostHandshakeAuthState :=
  if message.typ = handshakeTypeCertificate ∨ message.typ = handshakeTypeCompressedCertificate then
    ofExcept (processCertificate hooks state message)
  else if message.typ = handshakeTypeCertificateVerify then
    ofExcept (processCertificateVerify hooks state message)
  else if message.typ = handshakeTypeFinished then processFinished hooks state response message
  else throw (alertError alertUnexpectedMessage
    (.protocolError "unexpected post-handshake authentication message"))

/-- The messages whose turn has come, up to Finished. -/
def processPostHandshakeAuthMessages (response : ResponseRange) :
    List CompletedHandshake → PostHandshakeAuthState → ConnM Unit
  | [], _ => pure ()
  | message :: rest, state => do
    let next ← recover (processPostHandshakeAuthMessage hooks state response message)
      fun err => do
      finishPostHandshakeAuth (.error err)
      pure state
    setAuthState (some next)
    if message.typ = handshakeTypeFinished then do
      modify fun c => { c with auth :=
        { c.auth with completed := some (next.startSequence.getD 0, message.sequence) } }
      finishPostHandshakeAuth (.ok ())
    else processPostHandshakeAuthMessages response rest next

/-- The first message of a response fixes where its sequence numbers start. -/
def noteStartSequence (finishedMessageSequence : Nat) (f : HandshakeFragment)
    (state : PostHandshakeAuthState) : Except Err PostHandshakeAuthState :=
  if state.startSequence = none ∧ (f.typ = handshakeTypeCertificate ∨
      f.typ = handshakeTypeCompressedCertificate) then
    if f.messageSequence ≤ finishedMessageSequence then
      .error (alertError alertUnexpectedMessage
        (.protocolError "post-handshake authentication reused a handshake message sequence"))
    else .ok { state with
      startSequence := some f.messageSequence
      inbox := { state.inbox with expected := f.messageSequence } }
  else .ok state

/-- The range of records of a response, with one more record. -/
def noteResponse (number : RecordNumber) : Option ResponseRange → Except Err ResponseRange
  | none => .ok ⟨number.epoch, number, number⟩
  | some response =>
    if response.epoch ≠ number.epoch then
      .error (alertError alertUnexpectedMessage
        (.protocolError "post-handshake authentication response changed epoch"))
    else .ok { response with
      first := if recordNumberLess number response.first then number else response.first
      last := if recordNumberLess response.last number then number else response.last }

/-- A late record of a response that was completed is acknowledged again. -/
def processPostHandshakeAuthFragment (f : HandshakeFragment) (number : RecordNumber) :
    ConnM Unit := do
  let c ← get
  match c.auth.state with
  | none =>
    if !c.isClient && c.auth.completed.any fun range =>
        range.1 ≤ f.messageSequence && f.messageSequence ≤ range.2 then
      writeACK P number
    else throw (alertError alertUnexpectedMessage
      (.protocolError "unexpected post-handshake authentication response"))
  | some state =>
    if c.isClient then throw (alertError alertUnexpectedMessage
      (.protocolError "unexpected post-handshake authentication response"))
    else do
      let state ← ofExcept (noteStartSequence c.auth.finishedMessageSequence f state)
      let response ← ofExcept (noteResponse number state.response)
      let state := { state with response := some response }
      setAuthState (some state)
      let (messages, inbox) ← fun c =>
        match HandshakeInbox.addProtected f number.epoch state.inbox with
        | .ok messages inbox => .ok (messages, inbox) c
        | .error err _ => .error err c
      let state := { state with inbox := inbox }
      setAuthState (some state)
      writeACK P number
      processPostHandshakeAuthMessages hooks response messages state

/-- Holds application data of the response's epoch back during the exchange. -/
def bufferPostHandshakeAuthApplication (content : Bytes) (number : RecordNumber) :
    ConnM Bool := do
  let c ← get
  match c.auth.state with
  | none => pure false
  | some state =>
    if c.isClient || state.response.all (·.epoch ≠ number.epoch) then pure false
    else if c.config.maxPendingOrderingRecords ≤ state.pendingApplication.length then
      throw (.protocolError
        "too many application records buffered during post-handshake authentication")
    else if c.config.maxBufferedApplicationData <
        state.pendingApplicationBytes + content.length then
      throw (.protocolError
        "buffered post-handshake authentication application data limit exceeded")
    else do
      setAuthState (some { state with
        pendingApplication := state.pendingApplication ++ [⟨number, content⟩]
        pendingApplicationBytes := state.pendingApplicationBytes + content.length })
      pure true

end Conn

end Dtls13
