import Dtls13.Handshake.ClientFlight

/-! # The authentication gate of a handshake

The messages after which a handshake goes on, for both roles, and the transcripts
the peer's signature and Finished were checked against. The loops keep a history
of the messages consumed; each stage says what the history looks like.
-/

namespace Dtls13

open ByteCodec StateLogic BatchLoop Transcript ClientHandshakeStage List

theorem HookResult.run_eq_ok {α : Type} {result : HookResult α} {value : α} :
    result.run = .ok value ↔ result = .ok value := by
  cases result <;> simp [HookResult.run]

theorem parseFinished_eq_ok {b verify : Bytes} {hashSize : Nat} :
    parseFinished b hashSize = .ok verify ↔ b.length = hashSize ∧ b = verify := by
  unfold parseFinished
  split_ifs with hlength
  · simp [hlength]
  · simp [not_not.mp hlength]

/-- What messages add to a transcript. -/
def entries (messages : List CompletedHandshake) : Transcript :=
  messages.map fun message => (message.typ, message.body)

@[simp] theorem entries_append (first second : List CompletedHandshake) :
    entries (first ++ second) = entries first ++ entries second := map_append

@[simp] theorem entries_nil : entries [] = [] := rfl

@[simp] theorem entries_cons (message : CompletedHandshake) (rest : List CompletedHandshake) :
    entries (message :: rest) = (message.typ, message.body) :: entries rest := rfl

/-- A Finished that was checked against a transcript. -/
def FinishedVerified (hooks : PeerHooks) (transcript : Transcript)
    (finished : CompletedHandshake) : Prop :=
  finished.typ = handshakeTypeFinished ∧ finished.body.length = hooks.hashSize ∧
    hooks.verifyFinished transcript finished.body = true

/-- A CertificateVerify whose signature was checked against a transcript. -/
def SignatureVerified (hooks : PeerHooks) (identity : PeerIdentity) (transcript : Transcript)
    (verify : CompletedHandshake) : Prop :=
  verify.typ = handshakeTypeCertificateVerify ∧ identity.isPresent = true ∧
    ∃ cv, parseCertificateVerify verify.body = .ok cv ∧
      hooks.verifyPeerAuthenticationSignature identity cv transcript = .ok ()

/-! ## The client's gate -/

namespace ServerHandshakeStage

/-- The moves of the stage, with the message type that makes each. -/
inductive Advances (resumed : Bool) : ServerHandshakeStage → UInt8 → ServerHandshakeStage → Prop
  | encryptedExtensions : Advances resumed .expectEncryptedExtensions
      handshakeTypeEncryptedExtensions
      (if resumed then .expectFinished else .expectCertificateRequestOrCertificate)
  | certificateRequest : Advances resumed .expectCertificateRequestOrCertificate
      handshakeTypeCertificateRequest .expectCertificate
  | firstCertificate {typ : UInt8} (htyp : isCertificateType typ = true) :
      Advances resumed .expectCertificateRequestOrCertificate typ .expectCertificateVerify
  | certificate {typ : UInt8} (htyp : isCertificateType typ = true) :
      Advances resumed .expectCertificate typ .expectCertificateVerify
  | certificateVerify : Advances resumed .expectCertificateVerify
      handshakeTypeCertificateVerify .expectFinished
  | finished : Advances resumed .expectFinished handshakeTypeFinished .complete

theorem advances_of_accept {stage next : ServerHandshakeStage} {typ : UInt8} {resumed : Bool}
    (haccept : stage.accept typ resumed = .ok next) : Advances resumed stage typ next := by
  cases stage with
  | expectEncryptedExtensions =>
    simp only [accept] at haccept
    split_ifs at haccept with htyp hresumed
    all_goals
      cases haccept
      obtain rfl := not_not.mp htyp
      have hadvance : Advances resumed .expectEncryptedExtensions _ _ := .encryptedExtensions
      simpa [hresumed] using hadvance
  | expectCertificateRequestOrCertificate =>
    simp only [accept] at haccept
    split_ifs at haccept with hrequest hcertificate
    · cases haccept
      subst hrequest
      exact .certificateRequest
    · cases haccept
      exact .firstCertificate hcertificate
  | expectCertificate =>
    simp only [accept] at haccept
    split_ifs at haccept with hcertificate
    cases haccept
    exact .certificate hcertificate
  | expectCertificateVerify =>
    simp only [accept] at haccept
    split_ifs at haccept with hverify
    cases haccept
    subst hverify
    exact .certificateVerify
  | expectFinished =>
    simp only [accept] at haccept
    split_ifs at haccept with hfinished
    cases haccept
    subst hfinished
    exact .finished
  | complete => cases haccept

end ServerHandshakeStage

namespace ClientHandshakeState

/-- What the check of a server's Certificate depends on. -/
structure CertificateContext where
  cachedInfo : Option UInt8
  serverCertificateType : CertificateType
  echRejected : Bool
  peer : PeerIdentity

def certificateContext (s : ClientHandshakeState) : CertificateContext :=
  ⟨s.cachedInfo, s.serverCertificateType, s.echRejected, s.peer⟩

theorem verifyServerCertificate_congr {hooks : ClientHooks} {s s' : ClientHandshakeState}
    (hsame : s.certificateContext = s'.certificateContext) (message : CompletedHandshake) :
    verifyServerCertificate hooks s message = verifyServerCertificate hooks s' message := by
  obtain ⟨hcached, htype, hrejected, hpeer⟩ := CertificateContext.mk.inj hsame
  unfold verifyServerCertificate
  rw [hcached, htype, hrejected, hpeer]

/-- Retry configurations do not change whether ECH was rejected. -/
theorem certificateContext_applyEncryptedExtensions (config : ClientFlightConfig)
    (ee : EncryptedExtensions) (s : ClientHandshakeState) :
    (applyEncryptedExtensions config ee s).certificateContext =
      { s.certificateContext with
        cachedInfo := s.cachedInfo.map fun _ => ee.cachedInformation
        serverCertificateType := ee.serverCertificateType } := by
  have hrejected : (applyEncryptedExtensions config ee s).echRejected = s.echRejected := by
    unfold applyEncryptedExtensions echRejected
    dsimp only
    cases ee.retryConfigs with
    | none => rfl
    | some configs =>
      cases s.ech with
      | none => rfl
      | some ech => cases hrejected : ech.rejected <;> simp [hrejected]
  unfold certificateContext
  rw [hrejected]
  rfl

/-- A handler added its message to the transcript, and kept the order of messages. -/
structure Recorded (message : CompletedHandshake) (s s' : ClientHandshakeState) : Prop where
  selectedIdentity : s'.selectedIdentity = s.selectedIdentity
  stage : s'.stage = s.stage
  transcript : s'.transcript = s.transcript ++ entries [message]

section Handlers

variable {config : ClientFlightConfig} {hooks : ClientHooks} {message : CompletedHandshake}
  {s : ClientHandshakeState}

section

variable (hmessage : message.body.length < 2 ^ 24)

include hmessage

theorem wp_clientEncryptedExtensions :
    wp (clientEncryptedExtensions config hooks message)
      (fun _ s' => Recorded message s s' ∧
        ∃ ee, hooks.parseEncryptedExtensions message.body = .ok ee ∧
          s'.certificateContext = (applyEncryptedExtensions config ee s).certificateContext)
      (fun _ _ => True) s := by
  simp only [clientEncryptedExtensions, recordMessage, wp_bind, wp_ofExcept, wp_get, wp_ite,
    wp_throw, wp_modify, implies_true, and_true, true_and]
  intro ee hee _ _ _ _ _ _
  exact ⟨⟨rfl, rfl, record_eq _ _ hmessage⟩, ee, HookResult.run_eq_ok.mp hee, rfl⟩

theorem wp_clientServerCertificate : wp (clientServerCertificate hooks message)
      (fun _ s' => Recorded message s s' ∧ s.usingPSK = false ∧
        ∃ certMsg, verifyServerCertificate hooks s message = .ok (certMsg, s'.peer))
      (fun _ _ => True) s := by
  simp only [clientServerCertificate, recordMessage, wp_bind, wp_ofExcept, wp_get, wp_ite,
    wp_throw, wp_modify, implies_true, and_true, true_and]
  rintro hpsk _ ⟨certMsg, identity⟩ hverified
  exact ⟨⟨rfl, rfl, record_eq _ _ hmessage⟩, Bool.eq_false_iff.mpr hpsk, certMsg, hverified⟩

theorem wp_clientCertificateRequest :
    wp (clientCertificateRequest hooks message)
      (fun _ s' => Recorded message s s' ∧ s'.certificateContext = s.certificateContext)
      (fun _ _ => True) s := by
  simp only [clientCertificateRequest, recordMessage, wp_bind, wp_ofExcept, wp_get, wp_ite,
    wp_throw, wp_modify, implies_true, and_true, true_and]
  intro _ _ request _ _
  exact ⟨⟨rfl, rfl, record_eq _ _ hmessage⟩, rfl⟩

theorem wp_clientServerCertificateVerify (htyp : message.typ = handshakeTypeCertificateVerify) :
    wp (clientServerCertificateVerify hooks message)
      (fun _ s' => Recorded message s s' ∧
        SignatureVerified hooks.toPeerHooks s.peer s.transcript message)
      (fun _ _ => True) s := by
  simp only [clientServerCertificateVerify, recordMessage, wp_bind, wp_ofExcept, wp_get, wp_ite,
    wp_throw, wp_modify, implies_true, and_true, true_and]
  intro hpresent cv hcv _ hverified
  exact ⟨⟨rfl, rfl, record_eq _ _ hmessage⟩, htyp, by simpa using hpresent, cv, hcv,
    HookResult.run_eq_ok.mp hverified⟩

theorem wp_clientServerFinished (htyp : message.typ = handshakeTypeFinished) :
    wp (clientServerFinished hooks message)
      (fun _ s' => Recorded message s s' ∧ FinishedVerified hooks.toPeerHooks s.transcript message)
      (fun _ _ => True) s := by
  simp only [clientServerFinished, recordMessage, wp_bind, wp_ofExcept, wp_get, wp_ite,
    wp_throw, wp_modify, implies_true, and_true, true_and]
  intro verify hparse hverified
  obtain ⟨hlength, rfl⟩ := parseFinished_eq_ok.mp hparse
  exact ⟨⟨rfl, rfl, record_eq _ _ hmessage⟩, htyp, hlength, by simpa using hverified⟩

end

end Handlers

/-! ### The grammar of the flight -/

/-- EncryptedExtensions that parse to `ee` and, if the server asks for a certificate,
its request. -/
def Opening (hooks : ClientHooks) (ee : EncryptedExtensions) (messages : List CompletedHandshake) :
    Prop :=
  ∃ (extensions : CompletedHandshake) (request : Option CompletedHandshake),
    messages = extensions :: request.toList ∧ extensions.typ = handshakeTypeEncryptedExtensions ∧
      hooks.parseEncryptedExtensions extensions.body = .ok ee ∧
      ∀ message ∈ request, message.typ = handshakeTypeCertificateRequest

/-- A Certificate from which the client took an identity in the given state. -/
def CertificateAccepted (hooks : ClientHooks) (s : ClientHandshakeState)
    (certificate : CompletedHandshake) (identity : PeerIdentity) : Prop :=
  isCertificateType certificate.typ = true ∧
    ∃ certMsg, verifyServerCertificate hooks s certificate = .ok (certMsg, identity)

/-- The state in which a client that started the flight checks the Certificate. -/
abbrev extended (config : ClientFlightConfig) (start : ClientHandshakeState)
    (ee : EncryptedExtensions) : ClientHandshakeState :=
  start.beginServerFlight.applyEncryptedExtensions config ee

section Grammar

variable (config : ClientFlightConfig) (hooks : ClientHooks) (start : ClientHandshakeState)

/-- The flights after which a client goes on, by whether a PSK was selected. The
transcript at the start ends with the ServerHello. -/
inductive ServerFlightAccepted : List CompletedHandshake → Prop
  | psk {extensions finished : CompletedHandshake} (hpsk : start.usingPSK = true)
      (hextensions : extensions.typ = handshakeTypeEncryptedExtensions)
      (hfinished : FinishedVerified hooks.toPeerHooks (start.transcript ++ entries [extensions])
        finished) :
      ServerFlightAccepted [extensions, finished]
  | certificate {ee : EncryptedExtensions} {opening : List CompletedHandshake}
      {certificate verify finished : CompletedHandshake} {identity : PeerIdentity}
      (hpsk : start.usingPSK = false) (hopening : Opening hooks ee opening)
      (hcertificate : CertificateAccepted hooks (start.extended config ee) certificate identity)
      (hverify : SignatureVerified hooks.toPeerHooks identity
        (start.transcript ++ entries (opening ++ [certificate])) verify)
      (hfinished : FinishedVerified hooks.toPeerHooks
        (start.transcript ++ entries (opening ++ [certificate, verify])) finished) :
      ServerFlightAccepted (opening ++ [certificate, verify, finished])

/-- What has been received when a stage is reached, and what a Certificate would be or
was checked with. -/
inductive Received :
    ServerHandshakeStage → CertificateContext → List CompletedHandshake → Prop
  | nothing : Received .expectEncryptedExtensions
      start.beginServerFlight.certificateContext []
  | resumed {context : CertificateContext} {extensions : CompletedHandshake}
      (hpsk : start.usingPSK = true)
      (hextensions : extensions.typ = handshakeTypeEncryptedExtensions) :
      Received .expectFinished context [extensions]
  | extensions {ee : EncryptedExtensions} {extensions : CompletedHandshake}
      (hpsk : start.usingPSK = false) (hopening : Opening hooks ee [extensions]) :
      Received .expectCertificateRequestOrCertificate
        (start.extended config ee).certificateContext [extensions]
  | request {ee : EncryptedExtensions} {opening : List CompletedHandshake}
      (hpsk : start.usingPSK = false) (hopening : Opening hooks ee opening) :
      Received .expectCertificate
        (start.extended config ee).certificateContext opening
  | certificate {context : CertificateContext} {ee : EncryptedExtensions}
      {opening : List CompletedHandshake} {certificate : CompletedHandshake}
      (hpsk : start.usingPSK = false) (hopening : Opening hooks ee opening)
      (hcertificate : CertificateAccepted hooks (start.extended config ee) certificate
        context.peer) :
      Received .expectCertificateVerify context (opening ++ [certificate])
  | verify {context : CertificateContext} {ee : EncryptedExtensions} {identity : PeerIdentity}
      {opening : List CompletedHandshake} {certificate verify : CompletedHandshake}
      (hpsk : start.usingPSK = false) (hopening : Opening hooks ee opening)
      (hcertificate : CertificateAccepted hooks (start.extended config ee) certificate identity)
      (hverify : SignatureVerified hooks.toPeerHooks identity
        (start.transcript ++ entries (opening ++ [certificate])) verify) :
      Received .expectFinished context (opening ++ [certificate, verify])
  | accepted {context : CertificateContext} {messages : List CompletedHandshake}
      (haccepted : ServerFlightAccepted config hooks start messages) :
      Received .complete context messages

end Grammar

/-- The invariant of the loop: the transcript has the messages consumed, in order,
and these are what the stage says. -/
structure FlightInv (config : ClientFlightConfig) (hooks : ClientHooks)
    (start : ClientHandshakeState) (seen : List CompletedHandshake) (s : ClientHandshakeState) :
    Prop where
  selectedIdentity : s.selectedIdentity = start.selectedIdentity
  transcript : s.transcript = start.transcript ++ entries seen
  received : Received config hooks start s.stage s.certificateContext seen

section Loop

variable {config : ClientFlightConfig} {hooks : ClientHooks} {start s : ClientHandshakeState}
  {seen : List CompletedHandshake} {message : CompletedHandshake}

theorem FlightInv.usingPSK (hinv : FlightInv config hooks start seen s) :
    s.usingPSK = start.usingPSK := by
  unfold ClientHandshakeState.usingPSK
  rw [hinv.selectedIdentity]

/-- A stage that a handler does not change goes on from what was recorded. -/
theorem FlightInv.of_recorded {s' : ClientHandshakeState} {stage : ServerHandshakeStage}
    (hinv : FlightInv config hooks start seen s)
    (hrecorded : Recorded message { s with stage := stage } s')
    (hreceived : Received config hooks start stage s'.certificateContext (seen ++ [message])) :
    FlightInv config hooks start (seen ++ [message]) s' where
  selectedIdentity := hrecorded.selectedIdentity.trans hinv.selectedIdentity
  transcript := by
    rw [hrecorded.transcript, hinv.transcript, entries_append, append_assoc]
  received := by
    rw [hrecorded.stage]
    exact hreceived

theorem isCertificateType_ne {typ : UInt8} (htyp : isCertificateType typ = true) :
    typ ≠ handshakeTypeEncryptedExtensions := by
  rintro rfl
  cases htyp

/-- A Certificate comes after an opening, with or without a request. -/
theorem FlightInv.certificate (hmessage : message.body.length < 2 ^ 24)
    (htyp : isCertificateType message.typ = true) (hinv : FlightInv config hooks start seen s)
    {ee : EncryptedExtensions} (hpsk : start.usingPSK = false) (hopening : Opening hooks ee seen)
    (hcontext : s.certificateContext = (start.extended config ee).certificateContext) :
    wp (clientServerCertificate hooks message)
      (fun _ => FlightInv config hooks start (seen ++ [message]))
      (fun _ _ => True) { s with stage := .expectCertificateVerify } := by
  refine wp_mono (wp_clientServerCertificate hmessage) ?_ fun _ _ _ => trivial
  rintro _ s' ⟨hrecorded, -, certMsg, hverified⟩
  have hchecked : verifyServerCertificate hooks { s with stage := .expectCertificateVerify }
      message = verifyServerCertificate hooks (start.extended config ee) message :=
    verifyServerCertificate_congr hcontext message
  exact hinv.of_recorded hrecorded
    (.certificate hpsk hopening ⟨htyp, certMsg, hchecked.symm.trans hverified⟩)

/-- One message keeps the invariant, whatever the stage. -/
theorem FlightInv.step (hmessage : message.body.length < 2 ^ 24)
    (hinv : FlightInv config hooks start seen s) :
    wp (clientMessage config hooks message)
      (fun _ => FlightInv config hooks start (seen ++ [message])) (fun _ _ => True) s := by
  simp only [clientMessage, wp_bind, wp_get, wp_ofExcept, wp_modify, implies_true, and_true]
  intro stage haccept
  have hadvance := ServerHandshakeStage.advances_of_accept haccept
  have hreceived := hinv.received
  generalize hcurrent : s.stage = current at hadvance hreceived
  generalize hcontext : s.certificateContext = context at hreceived
  generalize htyp : message.typ = typ at hadvance ⊢
  cases hadvance with
  | encryptedExtensions =>
    rw [if_pos rfl]
    refine wp_mono (wp_clientEncryptedExtensions hmessage) ?_ fun _ _ _ => trivial
    rintro _ s' ⟨hrecorded, ee, hee, happlied⟩
    refine hinv.of_recorded hrecorded ?_
    cases hreceived
    have hextended : s'.certificateContext = (start.extended config ee).certificateContext := by
      rw [happlied, extended, certificateContext_applyEncryptedExtensions,
        certificateContext_applyEncryptedExtensions, ← hcontext,
        ← (CertificateContext.mk.inj hcontext).1]
      rfl
    rw [hinv.usingPSK]
    cases hpsk : start.usingPSK with
    | false =>
      rw [hextended]
      exact .extensions hpsk ⟨message, none, rfl, htyp, hee, by simp⟩
    | true => exact .resumed hpsk htyp
  | certificateRequest =>
    rw [if_neg (by decide), if_neg (by decide), if_pos rfl]
    refine wp_mono (wp_clientCertificateRequest hmessage) ?_ fun _ _ _ => trivial
    rintro _ s' ⟨hrecorded, hsame⟩
    refine hinv.of_recorded hrecorded ?_
    cases hreceived with
    | extensions hpsk hopening =>
      rw [hsame.trans hcontext]
      obtain ⟨extensions, request, hmessages, hextensions, hee, -⟩ := hopening
      obtain rfl := (List.cons.inj hmessages).1
      refine .request hpsk ⟨_, some message, rfl, hextensions, hee, ?_⟩
      intro request hrequest
      obtain rfl := Option.mem_some_iff.mp hrequest
      exact htyp
  | firstCertificate hcertificate =>
    rw [if_neg (isCertificateType_ne hcertificate), if_pos hcertificate]
    cases hreceived with
    | extensions hpsk hopening =>
      exact hinv.certificate hmessage (htyp ▸ hcertificate) hpsk hopening hcontext
  | certificate hcertificate =>
    rw [if_neg (isCertificateType_ne hcertificate), if_pos hcertificate]
    cases hreceived with
    | request hpsk hopening =>
      exact hinv.certificate hmessage (htyp ▸ hcertificate) hpsk hopening hcontext
  | certificateVerify =>
    rw [if_neg (by decide), if_neg (by decide), if_neg (by decide), if_pos rfl]
    simp only [wp_bind, wp_modify]
    refine wp_mono (wp_clientServerCertificateVerify hmessage htyp) ?_ fun _ _ _ => trivial
    rintro _ s' ⟨hrecorded, hverified⟩
    have htranscript := hinv.transcript
    cases hreceived with
    | @certificate _ _ opening certificate hpsk hopening hcertificate =>
      have hnext : FlightInv config hooks start (opening ++ [certificate] ++ [message]) s' := by
        refine hinv.of_recorded hrecorded ?_
        rw [append_assoc]
        subst hcontext
        exact .verify hpsk hopening hcertificate (htranscript ▸ hverified)
      exact ⟨hnext.selectedIdentity, hnext.transcript, hnext.received⟩
  | finished =>
    rw [if_neg (by decide), if_neg (by decide), if_neg (by decide), if_neg (by decide), if_pos rfl]
    simp only [wp_ite, wp_throw, implies_true, true_and]
    intro _
    refine wp_mono (wp_clientServerFinished hmessage htyp) ?_ fun _ _ _ => trivial
    rintro _ s' ⟨hrecorded, hverified⟩
    have htranscript := hinv.transcript
    refine hinv.of_recorded hrecorded (.accepted ?_)
    cases hreceived with
    | resumed hpsk hextensions => exact .psk hpsk hextensions (htranscript ▸ hverified)
    | verify hpsk hopening hcertificate hsigned =>
      rw [append_assoc]
      exact .certificate hpsk hopening hcertificate hsigned (htranscript ▸ hverified)

/-- A client goes on only after a flight of the grammar, and takes nothing after it. -/
theorem serverFlightAccepted_of_finished {received rest : List (Except Err CompletedHandshakeBatch)}
    {last : ClientHandshakeState}
    (hrun : clientProcessServerFlight config hooks received start = .finished last rest) :
    ∃ taken : List CompletedHandshakeBatch, received = taken.map .ok ++ rest ∧
      ServerFlightAccepted config hooks start (taken.flatMap (·.messages)) := by
  have hstart : FlightInv config hooks start [] start.beginServerFlight :=
    ⟨rfl, (append_nil _).symm, .nothing⟩
  have hbatch : ∀ seen (batch : CompletedHandshakeBatch) state,
      FlightInv config hooks start seen state →
      wp (forEach (clientMessage config hooks) batch.messages)
        (fun _ => FlightInv config hooks start (seen ++ batch.messages)) (fun _ _ => True) state :=
    fun seen batch state hinv =>
      wp_forEach (fun _ _ _ hmessage hseen => hseen.step hmessage) batch.encodable hinv
  unfold clientProcessServerFlight at hrun
  split at hrun
  next state rest' hfinished =>
    split_ifs at hrun
    cases hrun
    obtain ⟨taken, htaken, hinv, hcomplete⟩ := loop_invariant hbatch hfinished hstart
    refine ⟨taken, htaken, ?_⟩
    have hreceived := hinv.received
    rw [eq_of_beq hcomplete] at hreceived
    cases hreceived with
    | accepted haccepted => exact haccepted
  next hother => exact absurd hrun (hother last rest)

end Loop

end ClientHandshakeState

/-! ## The server's gate -/

namespace ServerHandshakeState

/-- A handler added its message to the transcript, and kept what a server decided
before the flight. -/
structure Recorded (message : CompletedHandshake) (s s' : ServerHandshakeState) : Prop where
  usingPSK : s'.usingPSK = s.usingPSK
  clientAuth : s'.clientAuth = s.clientAuth
  clientCertificateType : s'.clientCertificateType = s.clientCertificateType
  verifiedClientSignature : s'.verifiedClientSignature = s.verifiedClientSignature
  transcript : s'.transcript = s.transcript ++ entries [message]

/-- A Certificate that parses to `certMessage`. -/
def CertificateParsed (hooks : ServerHooks) (certificate : CompletedHandshake)
    (certMessage : CertificateMessage) : Prop :=
  isCertificateType certificate.typ = true ∧
    hooks.parseCertificateHandshakeMessage certificate.typ certificate.body = .ok certMessage

/-- A Certificate without certificates. -/
def CertificateEmpty (hooks : ServerHooks) (certificate : CompletedHandshake) : Prop :=
  ∃ certMessage, CertificateParsed hooks certificate certMessage ∧ certMessage.certificates = []

/-- A Certificate with certificates, from which the server took an identity in the
given state. -/
def CertificateAccepted (hooks : ServerHooks) (s : ServerHandshakeState)
    (certificate : CompletedHandshake) (identity : PeerIdentity) : Prop :=
  ∃ certMessage, CertificateParsed hooks certificate certMessage ∧
    hooks.validateCertificateMessage s.clientCertificateType certMessage = .ok () ∧
    certMessage.certificates ≠ [] ∧ verifyClientIdentity hooks s certMessage = .ok identity

/-- Of the state, the check depends on the type of certificates and the identity held. -/
theorem CertificateAccepted.congr {hooks : ServerHooks} {s s' : ServerHandshakeState}
    {certificate : CompletedHandshake} {identity : PeerIdentity}
    (htype : s.clientCertificateType = s'.clientCertificateType) (hclient : s.client = s'.client)
    (haccepted : CertificateAccepted hooks s certificate identity) :
    CertificateAccepted hooks s' certificate identity := by
  obtain ⟨certMessage, hparsed, hvalid, hcertificates, hidentity⟩ := haccepted
  unfold verifyClientIdentity at hidentity
  rw [htype, hclient] at hidentity
  exact ⟨certMessage, hparsed, htype ▸ hvalid, hcertificates, hidentity⟩

section Handlers

variable {hooks : ServerHooks} {message : CompletedHandshake} {s : ServerHandshakeState}
  (hmessage : message.body.length < 2 ^ 24)

include hmessage

theorem wp_serverClientCertificate (htyp : isCertificateType message.typ = true) :
    wp (serverClientCertificate hooks message)
      (fun hasCertificates s' => Recorded message s s' ∧
        if hasCertificates then CertificateAccepted hooks s message s'.client
        else CertificateEmpty hooks message)
      (fun _ _ => True) s := by
  simp only [serverClientCertificate, wp_bind, wp_ofExcept, wp_get, implies_true, and_true]
  intro certMessage hparsed _ hvalid
  have hcertificate : CertificateParsed hooks message certMessage :=
    ⟨htyp, HookResult.run_eq_ok.mp hparsed⟩
  cases hcerts : certMessage.certificates with
  | nil =>
    simp only [recordMessage, wp_bind, wp_modify, wp_pure]
    exact ⟨⟨rfl, rfl, rfl, rfl, record_eq _ _ hmessage⟩, certMessage, hcertificate, hcerts⟩
  | cons first rest =>
    simp only [recordMessage, wp_bind, wp_ofExcept, wp_modify, wp_pure, implies_true, and_true]
    intro identity hidentity
    refine ⟨⟨rfl, rfl, rfl, rfl, record_eq _ _ hmessage⟩, certMessage, hcertificate,
      HookResult.run_eq_ok.mp hvalid, ?_, hidentity⟩
    rw [hcerts]
    exact cons_ne_nil _ _

theorem wp_serverClientCertificateVerify (htyp : message.typ = handshakeTypeCertificateVerify) :
    wp (serverClientCertificateVerify hooks message)
      (fun _ s' => Recorded message s s' ∧
        SignatureVerified hooks.toPeerHooks s.client s.transcript message)
      (fun _ _ => True) s := by
  simp only [serverClientCertificateVerify, recordMessage, wp_bind, wp_ofExcept, wp_get, wp_ite,
    wp_throw, wp_modify, implies_true, and_true, true_and]
  intro hpresent cv hcv _ hverified
  exact ⟨⟨rfl, rfl, rfl, rfl, record_eq _ _ hmessage⟩, htyp, by simpa using hpresent,
    cv, hcv, HookResult.run_eq_ok.mp hverified⟩

theorem wp_serverClientFinished (htyp : message.typ = handshakeTypeFinished) :
    wp (serverClientFinished hooks message)
      (fun _ s' => Recorded message s s' ∧ FinishedVerified hooks.toPeerHooks s.transcript message)
      (fun _ _ => True) s := by
  simp only [serverClientFinished, recordMessage, wp_bind, wp_ofExcept, wp_get, wp_ite,
    wp_throw, wp_modify, implies_true, and_true, true_and]
  intro verify hparse hverified
  obtain ⟨hlength, rfl⟩ := parseFinished_eq_ok.mp hparse
  exact ⟨⟨rfl, rfl, rfl, rfl, record_eq _ _ hmessage⟩, htyp, hlength, by simpa using hverified⟩

end Handlers

/-! ### The grammar of the flight -/

section Grammar

variable (hooks : ServerHooks) (start : ServerHandshakeState)

/-- The flights after which a server goes on. The transcript at the start ends with the
server's Finished. -/
inductive ClientFlightAccepted : List CompletedHandshake → Prop
  | finished {finished : CompletedHandshake} (hrequested : start.requestsClientCertificate = false)
      (hfinished : FinishedVerified hooks.toPeerHooks start.transcript finished) :
      ClientFlightAccepted [finished]
  | anonymous {certificate finished : CompletedHandshake}
      (hrequested : start.requestsClientCertificate = true)
      (hrequired : start.requiresClientCertificate = false)
      (hcertificate : CertificateEmpty hooks certificate)
      (hfinished : FinishedVerified hooks.toPeerHooks (start.transcript ++ entries [certificate])
        finished) :
      ClientFlightAccepted [certificate, finished]
  | authenticated {certificate verify finished : CompletedHandshake} {identity : PeerIdentity}
      (hrequested : start.requestsClientCertificate = true)
      (hcertificate : CertificateAccepted hooks start.beginClientFlight certificate identity)
      (hverify : SignatureVerified hooks.toPeerHooks identity
        (start.transcript ++ entries [certificate]) verify)
      (hfinished : FinishedVerified hooks.toPeerHooks
        (start.transcript ++ entries [certificate, verify]) finished) :
      ClientFlightAccepted [certificate, verify, finished]

/-- What has been received when a stage is reached. The identity held and whether
its signature was verified decide what Finished still needs. -/
inductive Received :
    ClientHandshakeStage → PeerIdentity → Bool → List CompletedHandshake → Prop
  | expecting (hrequested : start.requestsClientCertificate = true) :
      Received .expectCertificate start.beginClientFlight.client false []
  | nothing {client : PeerIdentity} {verified : Bool}
      (hrequested : start.requestsClientCertificate = false) :
      Received .expectFinished client verified []
  | anonymous {client : PeerIdentity} {certificate : CompletedHandshake}
      (hrequested : start.requestsClientCertificate = true)
      (hcertificate : CertificateEmpty hooks certificate) :
      Received .expectFinished client false [certificate]
  | certificate {verified : Bool} {certificate : CompletedHandshake} {identity : PeerIdentity}
      (hrequested : start.requestsClientCertificate = true)
      (hcertificate : CertificateAccepted hooks start.beginClientFlight certificate identity) :
      Received .expectCertificateVerify identity verified [certificate]
  | verify {client identity : PeerIdentity} {verified : Bool}
      {certificate verify : CompletedHandshake}
      (hrequested : start.requestsClientCertificate = true)
      (hcertificate : CertificateAccepted hooks start.beginClientFlight certificate identity)
      (hverify : SignatureVerified hooks.toPeerHooks identity
        (start.transcript ++ entries [certificate]) verify) :
      Received .expectFinished client verified [certificate, verify]
  | accepted {client : PeerIdentity} {verified : Bool} {messages : List CompletedHandshake}
      (haccepted : ClientFlightAccepted hooks start messages) :
      Received .complete client verified messages

end Grammar

structure FlightInv (hooks : ServerHooks) (start : ServerHandshakeState)
    (seen : List CompletedHandshake) (s : ServerHandshakeState) : Prop where
  usingPSK : s.usingPSK = start.usingPSK
  clientAuth : s.clientAuth = start.clientAuth
  clientCertificateType : s.clientCertificateType = start.clientCertificateType
  transcript : s.transcript = start.transcript ++ entries seen
  received : Received hooks start s.stage s.client s.verifiedClientSignature seen

section Loop

variable {hooks : ServerHooks} {start s : ServerHandshakeState} {seen : List CompletedHandshake}
  {message : CompletedHandshake}

theorem stage_of_accept {stage : ClientHandshakeStage} {typ : UInt8}
    (haccept : stage.accept typ = .ok ()) :
    (isCertificateType typ = true → stage = .expectCertificate) ∧
      (typ = handshakeTypeCertificateVerify → stage = .expectCertificateVerify) ∧
        (typ = handshakeTypeFinished → stage = .expectFinished) := by
  refine ⟨fun htyp => ?_, ?_, ?_⟩
  · rw [accept, if_pos htyp] at haccept
    by_contra hstage
    rw [if_pos hstage] at haccept
    cases haccept
  · rintro rfl
    by_contra hstage
    rw [accept, if_neg (by decide), if_pos rfl, if_pos hstage] at haccept
    cases haccept
  · rintro rfl
    by_contra hstage
    rw [accept, if_neg (by decide), if_neg (by decide), if_pos rfl, if_pos hstage] at haccept
    cases haccept

/-- Without a verified signature no certificate was required: an identity would
have to be verified, and its absence would be refused. -/
theorem not_required_of_checked (hchecked : s.checkAuthenticated = .ok ())
    (hverified : s.verifiedClientSignature = false) : s.requiresClientCertificate = false := by
  unfold checkAuthenticated at hchecked
  split_ifs at hchecked with _ hrequired hsigned
  simp only [hverified, Bool.not_false, Bool.and_true, Bool.not_eq_true, Bool.and_eq_false_iff,
    Bool.not_eq_eq_eq_not] at hrequired hsigned
  rcases hrequired with hrequired | hpresent
  · exact hrequired
  · rcases hsigned with hpsk | habsent
    · simp [requiresClientCertificate, hpsk]
    · rw [habsent] at hpresent
      cases hpresent

theorem FlightInv.requires (hinv : FlightInv hooks start seen s) :
    s.requiresClientCertificate = start.requiresClientCertificate := by
  unfold requiresClientCertificate
  rw [hinv.usingPSK, hinv.clientAuth]

theorem FlightInv.of_recorded {s' : ServerHandshakeState} {stage : ClientHandshakeStage}
    {saw verified : Bool} {sequence : Nat} (hinv : FlightInv hooks start seen s)
    (hrecorded : Recorded message
      { s with sawClientCertificate := saw, clientFinishedSeq := sequence } s')
    (hreceived : Received hooks start stage s'.client verified (seen ++ [message])) :
    FlightInv hooks start (seen ++ [message])
      { s' with stage := stage, verifiedClientSignature := verified } where
  usingPSK := hrecorded.usingPSK.trans hinv.usingPSK
  clientAuth := hrecorded.clientAuth.trans hinv.clientAuth
  clientCertificateType := hrecorded.clientCertificateType.trans hinv.clientCertificateType
  transcript := by
    rw [hrecorded.transcript, hinv.transcript, entries_append, append_assoc]
  received := hreceived

/-- One message keeps the invariant, whatever the stage. -/
theorem FlightInv.step (hmessage : message.body.length < 2 ^ 24)
    (hinv : FlightInv hooks start seen s) :
    wp (serverMessage hooks message) (fun _ => FlightInv hooks start (seen ++ [message]))
      (fun _ _ => True) s := by
  simp only [serverMessage, wp_bind, wp_get, wp_ofExcept, wp_ite, wp_throw, wp_modify,
    implies_true, and_true]
  intro _ haccept
  obtain ⟨hcertificateStage, hverifyStage, hfinishedStage⟩ := stage_of_accept haccept
  have hreceived := hinv.received
  have htranscript := hinv.transcript
  refine ⟨fun htyp => ?_, fun _ => ⟨fun htyp => ?_, fun _ htyp => ?_⟩⟩
  · refine wp_mono (wp_serverClientCertificate hmessage htyp) ?_ fun _ _ _ => trivial
    rintro hasCertificates s' ⟨hrecorded, hcertificate⟩
    rw [hcertificateStage htyp] at hreceived
    generalize hverified : s.verifiedClientSignature = verified at hreceived
    generalize hclient : s.client = client at hreceived
    cases hreceived with
    | expecting hrequested =>
      refine hinv.of_recorded hrecorded ?_
      cases hasCertificates with
      | true =>
        exact .certificate hrequested
          (CertificateAccepted.congr hinv.clientCertificateType hclient hcertificate)
      | false =>
        have hunverified : s'.verifiedClientSignature = false :=
          hrecorded.verifiedClientSignature.trans hverified
        rw [hunverified]
        exact .anonymous hrequested hcertificate
  · refine wp_mono (wp_serverClientCertificateVerify hmessage htyp) ?_ fun _ _ _ => trivial
    rintro _ s' ⟨hrecorded, hverified⟩
    rw [hverifyStage htyp] at hreceived
    cases hreceived with
    | certificate hrequested hcertificate =>
      exact hinv.of_recorded hrecorded
        (.verify hrequested hcertificate (htranscript ▸ hverified))
  · intro _ hchecked
    refine wp_mono (wp_serverClientFinished hmessage htyp) ?_ fun _ _ _ => trivial
    rintro _ s' ⟨hrecorded, hverified⟩
    refine hinv.of_recorded hrecorded (.accepted ?_)
    rw [hfinishedStage htyp] at hreceived
    generalize hsigned : s.verifiedClientSignature = signed at hreceived
    cases hreceived with
    | nothing hrequested =>
      have hempty : start.transcript = s.transcript := by simp [htranscript]
      exact .finished hrequested (hempty ▸ hverified)
    | anonymous hrequested hcertificate =>
      have hrequired := hinv.requires.symm.trans (not_required_of_checked hchecked hsigned)
      exact .anonymous hrequested hrequired hcertificate (htranscript ▸ hverified)
    | verify hrequested hcertificate hsignature =>
      exact .authenticated hrequested hcertificate hsignature (htranscript ▸ hverified)

/-- A server goes on only after a flight of the grammar, and takes nothing after it. -/
theorem clientFlightAccepted_of_finished {received rest : List (Except Err CompletedHandshakeBatch)}
    {last : ServerHandshakeState}
    (hrun : serverProcessClientFlight hooks received start = .finished last rest) :
    ∃ taken : List CompletedHandshakeBatch, received = taken.map .ok ++ rest ∧
      ClientFlightAccepted hooks start (taken.flatMap (·.messages)) := by
  have hstart : FlightInv hooks start [] start.beginClientFlight := by
    refine ⟨rfl, rfl, rfl, (append_nil _).symm, ?_⟩
    unfold beginClientFlight
    dsimp only
    split_ifs with hrequested
    · exact .expecting hrequested
    · exact .nothing (Bool.eq_false_iff.mpr hrequested)
  have hbatch : ∀ seen (batch : CompletedHandshakeBatch) state, FlightInv hooks start seen state →
      wp (serverBatch hooks batch.messages batch.lastOpened)
        (fun _ => FlightInv hooks start (seen ++ batch.messages)) (fun _ _ => True) state := by
    intro seen batch state hinv
    simp only [serverBatch, wp_bind, wp_modify]
    exact wp_forEach (fun _ _ _ hmessage hseen => hseen.step hmessage) batch.encodable
      ⟨hinv.usingPSK, hinv.clientAuth, hinv.clientCertificateType, hinv.transcript, hinv.received⟩
  obtain ⟨taken, htaken, hinv, hcomplete⟩ := loop_invariant hbatch hrun hstart
  refine ⟨taken, htaken, ?_⟩
  have hreceived := hinv.received
  rw [eq_of_beq hcomplete] at hreceived
  cases hreceived with
  | accepted haccepted => exact haccepted

end Loop

end ServerHandshakeState

/-! ## Both roles -/

/-- **Authentication gate.** A client leaves its loop only after EncryptedExtensions, an
optional CertificateRequest, Certificate, CertificateVerify and Finished, or after
EncryptedExtensions and Finished when a PSK was selected; a server only after the
messages it asked for. A Certificate was accepted in the state the messages before it
lead to, signature and Finished were checked against the transcript of exactly the
messages before them, and no message was consumed after Finished. -/
theorem authentication_gate : (∀ (config : ClientFlightConfig) (hooks : ClientHooks)
        (received rest : List (Except Err CompletedHandshakeBatch)) (s last : ClientHandshakeState),
      s.clientProcessServerFlight config hooks received = .finished last rest →
        ∃ taken : List CompletedHandshakeBatch, received = taken.map .ok ++ rest ∧
          ClientHandshakeState.ServerFlightAccepted config hooks s (taken.flatMap (·.messages))) ∧
      ∀ (hooks : ServerHooks) (received rest : List (Except Err CompletedHandshakeBatch))
        (s last : ServerHandshakeState),
      s.serverProcessClientFlight hooks received = .finished last rest →
        ∃ taken : List CompletedHandshakeBatch, received = taken.map .ok ++ rest ∧
          ServerHandshakeState.ClientFlightAccepted hooks s (taken.flatMap (·.messages)) :=
  ⟨fun _ _ _ _ _ _ => ClientHandshakeState.serverFlightAccepted_of_finished,
    fun _ _ _ _ _ => ServerHandshakeState.clientFlightAccepted_of_finished⟩

/-- A verification in which a signature and a Finished name the length of the
transcript they are made over. -/
def countingPeer : PeerHooks where
  hashSize := 1
  verifyRawPublicKeyMessage _ := .ok [1]
  verifyCertificateChain certMsg := .ok (certMsg.certificates.map (·.data))
  peerDelegatedCredential _ _ := .ok []
  verifyPeerAuthenticationSignature _ cv t :=
    if cv.signature = [UInt8.ofNat t.length] then .ok () else .error (none, "bad signature")
  verifyFinished t body := body == [UInt8.ofNat t.length]

def countingClient : ClientHooks where
  toPeerHooks := countingPeer
  parseEncryptedExtensions _ := .ok ⟨"", false, none, none, 0, .x509, none, none, none⟩
  parseCachedServerCertificate _ _ body := .ok ⟨[⟨body, [], none⟩]⟩
  validateCertificateMessage _ _ := .ok ()
  verifyCertificateChainForECHRejection _ := .ok []
  encryptedClientHelloRejectionVerify _ := .ok ()
  parseCertificateRequest _ _ := .ok ⟨[]⟩

def countingServer : ServerHooks where
  toPeerHooks := countingPeer
  parseCertificateHandshakeMessage _ body :=
    .ok ⟨if body.isEmpty then [] else [⟨body, [], none⟩]⟩
  validateCertificateMessage _ _ := .ok ()
  matchCertificateOIDFilters _ := .ok ()

/-- A client after the hellos, and a server that requires a certificate. -/
def certificateClient : ClientHandshakeState :=
  ⟨none, none, false, none, none, .expectEncryptedExtensions, [(1, []), (2, [])], .none, [], false,
    none, "", none, .x509, .x509, false, none, none, false, false, 0⟩

def certificateServer : ServerHandshakeState :=
  ⟨false, .requireAndVerifyClientCert, none, .x509, .expectCertificate, [(1, []), (2, [])], .none,
    [], false, false, 0, 0, []⟩

def serverFlightBatches : List (Except Err CompletedHandshakeBatch) :=
  [.ok ⟨[⟨8, 1, []⟩, ⟨13, 2, []⟩], 0, by decide⟩,
    .ok ⟨[⟨11, 3, [7]⟩, ⟨15, 4, [4, 3, 0, 1, 5]⟩, ⟨20, 5, [6]⟩], 1, by decide⟩]

def clientFlightBatches : List (Except Err CompletedHandshakeBatch) :=
  [.ok ⟨[⟨25, 1, [7]⟩], 0, by decide⟩, .ok ⟨[⟨15, 2, [4, 3, 0, 1, 3]⟩, ⟨20, 3, [4]⟩], 1, by decide⟩]

theorem authentication_gate_certificates :
    (∃ taken : List CompletedHandshakeBatch, serverFlightBatches = taken.map .ok ++ [] ∧
      ClientHandshakeState.ServerFlightAccepted ⟨false, [], 0, 0, 0, false, false⟩ countingClient
        certificateClient (taken.flatMap (·.messages))) ∧
      ∃ taken : List CompletedHandshakeBatch, clientFlightBatches = taken.map .ok ++ [] ∧
        ServerHandshakeState.ClientFlightAccepted countingServer certificateServer
          (taken.flatMap (·.messages)) :=
  ⟨authentication_gate.1 ⟨false, [], 0, 0, 0, false, false⟩ _ _ _ certificateClient _ rfl,
    authentication_gate.2 _ _ _ certificateServer _ rfl⟩

end Dtls13
