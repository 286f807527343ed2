import Dtls13.Driver.ServerLoop

/-! # The exchange of hellos

The plaintext part of a handshake, for both roles. A client sends its ClientHello, and
a second one when it is asked to; a server asks for a second ClientHello or answers the
first, and then reads the client's flight. Plaintext records take their numbers from
the flights and from a counter of the connection. What the hellos say is left to hooks.

A receive call that returns, the work on what it returned and the alert that reports
an error are steps of their own.
-/

namespace Dtls13

open ByteCodec StateLogic HandshakeChannel

def helloRetryRequestRandom : Bytes :=
  [0xcf, 0x21, 0xad, 0x74, 0xe5, 0x9a, 0x61, 0x11, 0xbe, 0x1d, 0x8c, 0x02, 0x1e, 0x65, 0xb8, 0x91,
    0xc2, 0xa2, 0x11, 0x16, 0x7a, 0xbb, 0x8c, 0x5e, 0x07, 0x9e, 0x09, 0xe2, 0xc8, 0xa8, 0x33, 0x9c]

def isHelloRetryRequestBody (body : Bytes) : Bool :=
  34 ≤ body.length && (body.drop 2).take 32 == helloRetryRequestRandom

/-- What a server has decided to send: ServerHello, and the messages under the new
handshake keys, whose making can fail. -/
structure ServerReply where
  serverHello : Bytes
  messages : Except Err (List HandshakeMessage)
  sendCipher : RecordCipher
  receiveCipher : RecordCipher
  early : Option RecordCipher
  flight : ServerHandshakeState
  sendCipher_epoch : sendCipher.epoch = 2

/-- The answer to a first ClientHello. -/
inductive ServerAnswer where
  | helloRetryRequest (body : Bytes)
  | reply (reply : ServerReply)

/-- The work on the content of the hellos. `secondClientHello` makes the ClientHello
for a HelloRetryRequest; `acceptServerHello` ends with the handshake keys in place. -/
structure HelloHooks where
  secondClientHello : Bytes → Except Err Bytes
  acceptServerHello : Bytes → Except Err Unit
  answerClientHello : Bytes → Except Err ServerAnswer
  answerSecondClientHello : Bytes → Except Err ServerReply
  server : ServerHooks

/-- The message an endpoint waits for. -/
inductive AwaitedHello where
  | serverHello
  | secondServerHello
  | clientHello
  | secondClientHello
  deriving DecidableEq, Repr

/-- What follows the work on a message. -/
inductive HelloStage where
  | awaiting (message : AwaitedHello)
  | accepted
  | answered (flight : ServerHandshakeState)

inductive HelloPhase where
  | start (helloBody : Bytes)
  | awaiting (message : AwaitedHello)
  | received (message : AwaitedHello) (messages : List CompletedHandshake)
  | failing (err : Err)
  | accepted
  | returned

/-- The only message, if it is of the right type. -/
def expectSingle (typ : UInt8) (text : String) :
    List CompletedHandshake → Except Err CompletedHandshake
  | [message] =>
    if message.typ = typ then .ok message
    else .error (alertError alertUnexpectedMessage (.protocolError text))
  | _ => .error (alertError alertUnexpectedMessage (.protocolError text))

namespace HandshakeChannel

variable (P : Primitives) (hooks : HelloHooks)

def flightRecords (io : HandshakeChannel) : List FlightRecord :=
  (io.outgoing.map SentFlight.records).getD []

/-- The number after those of the outstanding flight. -/
def nextPlain (io : HandshakeChannel) : Nat := nextRecordSequence io.flightRecords

/-! ## Sending hellos -/

/-- Builds a plaintext flight of one message, numbered from `first` on, and sends it.
A client sets the counter of the connection behind it. -/
def sendHello (setsCounter : Bool) (message : HandshakeMessage) (first : Nat) :
    HandshakeM Unit := do
  let io ← get
  let out ← ofExcept (buildPlainFlight [message] io.outbox.transport.pathMTU first)
  if setsCounter then
    modify fun io => { io with plainSendSequence := nextRecordSequence out.records }
  let sent ← onOutbox (Outbox.writeFlight P ⟨.plain out, false⟩)
  setOutgoing sent
  beginCall

def clientSendHello (helloBody : Bytes) : HandshakeM Unit :=
  sendHello P true ⟨handshakeTypeClientHello, 0, helloBody⟩ 0

def clientSendSecondHello (helloBody : Bytes) : HandshakeM Unit := do
  let io ← get
  sendHello P true ⟨handshakeTypeClientHello, 1, helloBody⟩ io.nextPlain

def serverSendHelloRetryRequest (hrrBody : Bytes) : HandshakeM Unit :=
  sendHello P false ⟨handshakeTypeServerHello, 0, hrrBody⟩ 0

/-- ServerHello follows the HelloRetryRequest, if there was one. From the moment the
send cipher is in place alerts are protected. -/
def serverSendFlight (serverHelloSequence : Nat) (reply : ServerReply) : HandshakeM Unit := do
  let io ← get
  let mtu := io.outbox.transport.pathMTU
  let plain ← ofExcept (buildPlainFlight
    [⟨handshakeTypeServerHello, serverHelloSequence, reply.serverHello⟩] mtu io.nextPlain)
  let messages ← ofExcept reply.messages
  let (ref, store) := io.outbox.store.allocate reply.sendCipher
  modify fun io => { io with outbox := { io.outbox with store := store } }
  let second ← onOutbox (Outbox.onStore (buildProtectedFlight P messages mtu ref))
  modify fun io => { io with ackCipher := some ref }
  let sent ← onOutbox (Outbox.writeFlight P ⟨.combineFlights plain second, false⟩)
  modify fun io => { io with
    cipher := some reply.receiveCipher
    early := reply.early
    outgoing := some sent }
  beginCall

/-! ## Working on a hello -/

def handleServerHello (message : CompletedHandshake) : HandshakeM HelloStage := do
  if isHelloRetryRequestBody message.body then do
    let helloBody ← ofExcept (hooks.secondClientHello message.body)
    clientSendSecondHello P helloBody
    pure (.awaiting .secondServerHello)
  else do
    ofExcept (hooks.acceptServerHello message.body)
    pure .accepted

def handleSecondServerHello (message : CompletedHandshake) : HandshakeM HelloStage := do
  if isHelloRetryRequestBody message.body then
    throw (alertError alertUnexpectedMessage
      (.protocolError "received a second HelloRetryRequest"))
  else do
    ofExcept (hooks.acceptServerHello message.body)
    pure .accepted

def handleClientHello (message : CompletedHandshake) : HandshakeM HelloStage := do
  match ← ofExcept (hooks.answerClientHello message.body) with
  | .helloRetryRequest body => do
    serverSendHelloRetryRequest P body
    pure (.awaiting .secondClientHello)
  | .reply reply => do
    serverSendFlight P 0 reply
    pure (.answered reply.flight)

def handleSecondClientHello (message : CompletedHandshake) : HandshakeM HelloStage := do
  let reply ← ofExcept (hooks.answerSecondClientHello message.body)
  serverSendFlight P 1 reply
  pure (.answered reply.flight)

def handleHello : AwaitedHello → List CompletedHandshake → HandshakeM HelloStage
  | .serverHello, messages => do
    let message ← ofExcept (expectSingle handshakeTypeServerHello "expected ServerHello" messages)
    handleServerHello P hooks message
  | .secondServerHello, messages => do
    let message ← ofExcept (expectSingle handshakeTypeServerHello
      "expected ServerHello after HelloRetryRequest" messages)
    handleSecondServerHello hooks message
  | .clientHello, messages => do
    let message ← ofExcept (expectSingle handshakeTypeClientHello "expected ClientHello" messages)
    handleClientHello P hooks message
  | .secondClientHello, messages => do
    let message ← ofExcept (expectSingle handshakeTypeClientHello
      "expected second ClientHello" messages)
    handleSecondClientHello P hooks message

/-! ## Waiting for the second ClientHello -/

/-- The fragments of a record; those of the first ClientHello only ask for the
HelloRetryRequest again. -/
def addSecondFragments : List HandshakeFragment → HandshakeM (List CompletedHandshake × Bool)
  | [] => pure ([], false)
  | fragment :: rest => do
    let io ← get
    if fragment.typ = handshakeTypeClientHello ∧ fragment.messageSequence < io.inbox.expected then
      do
        let (others, _) ← addSecondFragments rest
        pure (others, true)
    else do
      let delivered ← onInbox (HandshakeInbox.addAtEpoch fragment 0 false)
      let (others, older) ← addSecondFragments rest
      pure (delivered ++ others, older)

def resendHelloRetryRequest : HandshakeM Unit := do
  let io ← get
  match io.outgoing with
  | none => pure ()
  | some f => do
    let sent ← onOutbox (Outbox.refreshAndRetransmit P f)
    setOutgoing sent

/-- Reads one record; returns what is left of the datagram and the messages delivered. -/
def receiveSecondClientHello (datagram : Bytes) :
    HandshakeM (Bytes × List CompletedHandshake) := do
  match parsePlainRecordView datagram with
  | .error _ => pure ([], [])
  | .ok (r, consumed) =>
    if r.typ ≠ recordTypeHandshake then pure (datagram.drop consumed, [])
    else do
      let fragments ← ofExcept (HandshakeFragment.parseHandshakeFragments r.payload)
      let (delivered, retransmitHRR) ← addSecondFragments fragments
      if retransmitHRR then resendHelloRetryRequest P
      pure (datagram.drop consumed, delivered)

/-- Reads one record while waiting for a hello. -/
def receiveHello (message : AwaitedHello) (datagram : Bytes) :
    HandshakeM (Bytes × List CompletedHandshake) :=
  if message = .secondClientHello then receiveSecondClientHello P datagram
  else do
    let (rest, delivered) ← receiveRecord P datagram
    pure (rest, (delivered.map Prod.snd).getD [])

/-! ## Alerts -/

/-- The alert takes a number of the counter; what becomes of the write is ignored. -/
def sendPlainFatalAlert (description : UInt8) : HandshakeM Unit := do
  let sequence ← nextPlainSequence
  let alert : PlainRecord := ⟨recordTypeAlert, 0, sequence, [alertLevelFatal, description]⟩
  match marshalPlainRecord alert with
  | .error _ => pure ()
  | .ok packet => recover (writeRecords [alert.image packet]) fun _ => pure ()

/-- Before there are keys, only an error that carries an alert is reported. -/
def reportFailure (err : Err) : HandshakeM Unit := do
  let io ← get
  match err.asLocalAlert with
  | none => pure ()
  | some description =>
    if io.ackCipher.isSome then pure () else sendPlainFatalAlert description

end HandshakeChannel

/-- One endpoint in the exchange of hellos. -/
structure HelloExchange where
  io : HandshakeChannel
  phase : HelloPhase
  unread : Bytes
  timeoutCount : Nat

/-- A handshake: the hellos, and for a server that answered the loop after them. -/
inductive HandshakeRun where
  | hello (s : HelloExchange)
  | loop (s : ServerLoop)

namespace HandshakeRun

inductive Event where
  | arrive (datagram : Bytes)
  | read
  | timeout
  | expire
  | proceed
  deriving DecidableEq, Repr

def io : HandshakeRun → HandshakeChannel
  | .hello s => s.io
  | .loop s => s.io

def written (s : HandshakeRun) : List SealedRecord := s.io.outbox.transport.written

end HandshakeRun

namespace HelloExchange

variable (P : Primitives) (hooks : HelloHooks)

def fail (s : HelloExchange) (err : Err) : HelloExchange := { s with phase := .failing err }

def enter (s : HelloExchange) : HelloStage → HandshakeRun
  | .awaiting message => .hello { s with phase := .awaiting message, timeoutCount := 0 }
  | .accepted => .hello { s with phase := .accepted }
  | .answered flight => .loop ⟨s.io, flight, s.unread, 0, none⟩

/-- The step after a message was received, or after an error. -/
def proceed (s : HelloExchange) : HandshakeRun :=
  match s.phase with
  | .start helloBody =>
    handle (clientSendHello P helloBody) s.io
      (fun _ io => { s with io := io }.enter (.awaiting .serverHello))
      fun err io => .hello ({ s with io := io }.fail err)
  | .received message messages =>
    handle (handleHello P hooks message messages) s.io
      (fun stage io => { s with io := io }.enter stage)
      fun err io => .hello ({ s with io := io }.fail err)
  | .failing err =>
    .hello { s with io := exec (reportFailure err) s.io, phase := .returned }
  | _ => .hello s

def readNext (s : HelloExchange) (message : AwaitedHello) : HelloExchange :=
  handle (receiveHello P message s.unread) s.io
    (fun (rest, delivered) io =>
      let next := { s with io := io, unread := rest }
      if delivered.isEmpty then next else { next with phase := .received message delivered })
    fun err io => { s with io := io }.fail err

/-- Only a client has a retransmission timer here. -/
def timedOut (s : HelloExchange) : HelloExchange :=
  let count := s.timeoutCount + 1
  handle (HandshakeChannel.timedOut P count) s.io
    (fun _ io => { s with io := io, timeoutCount := count })
    fun err io => { s with io := io }.fail err

def hasTimer : AwaitedHello → Bool
  | .serverHello | .secondServerHello => true
  | .clientHello | .secondClientHello => false

def wait (s : HelloExchange) (message : AwaitedHello) :
    HandshakeRun.Event → HelloExchange
  | .arrive datagram => if s.unread.isEmpty then { s with unread := datagram } else s
  | .read => if s.unread.isEmpty then s else s.readNext P message
  | .timeout => if s.unread.isEmpty && hasTimer message then s.timedOut P else s
  | .expire => if s.unread.isEmpty then s.fail .transport else s
  | .proceed => s

def step (s : HelloExchange) (event : HandshakeRun.Event) : HandshakeRun :=
  match s.phase, event with
  | .awaiting message, event => .hello (s.wait P message event)
  | _, .proceed => s.proceed P hooks
  | _, _ => .hello s

end HelloExchange

namespace HandshakeRun

variable (P : Primitives) (hooks : HelloHooks)

def step : HandshakeRun → Event → HandshakeRun
  | .hello s, event => s.step P hooks event
  | .loop s, .arrive datagram => .loop (s.step P hooks.server (.arrive datagram))
  | .loop s, .read => .loop (s.step P hooks.server .read)
  | .loop s, .timeout => .loop (s.step P hooks.server .timeout)
  | .loop s, .expire => .loop (s.step P hooks.server .expire)
  | .loop s, .proceed => .loop s

end HandshakeRun

end Dtls13
