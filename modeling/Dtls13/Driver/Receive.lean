import Dtls13.Conn.Inbound
import Dtls13.Driver.Transport
import Dtls13.Handshake.Inbox
import Dtls13.Handshake.Messages

/-! # Receiving during the handshake

One loop reads records of every kind: plaintext before there are keys, then records
of the handshake keys, of the early-data keys, and plaintext ACKs. A datagram is read
record by record; a record that cannot be used drops the rest of its datagram.
`contributions` lists what the records read so far were used for; nothing the code
does depends on it.
-/

namespace Dtls13

open ByteCodec StateLogic

/-- What a record was used for. `source` is the number of the record, in the epoch of
the key that opened it. -/
inductive Contribution where
  | application (source : RecordNumber) (content : Bytes)
  | fragment (source : RecordNumber) (fragment : HandshakeFragment)
  | ack (source : RecordNumber) (numbers : List RecordNumber)
  | alert (source : RecordNumber)
  | acknowledged (source number : RecordNumber)
  deriving DecidableEq, Repr

/-- Application data of epoch 1; `earlyIo` hands it on during the handshake. -/
structure EarlyInput where
  accepted : Bool
  limit : Nat
  readBytes : Nat
  datagrams : List Bytes
  earlyIo : Bool
  inbound : Inbound

/-- What the receive loop works on. `mtu` is the path MTU when the call began. -/
structure HandshakeChannel where
  config : Config
  cipher : Option RecordCipher
  early : Option RecordCipher
  earlyInput : EarlyInput
  inbox : HandshakeInbox
  outgoing : Option SentFlight
  ackCipher : Option CipherRef
  outbox : Outbox
  mtu : Nat
  plainSendSequence : Nat
  contributions : List Contribution

abbrev HandshakeM (α : Type) := EStateM Err HandshakeChannel α

/-- A record that was read: the key's epoch and its number, and the bytes it takes. -/
structure ReceivedRecord where
  source : RecordNumber
  typ : UInt8
  payload : Bytes
  consumed : Nat
  deriving DecidableEq, Repr

/-- What the front of a datagram is: a record to process, a record that is done with,
or the reason to drop the rest. -/
inductive ReadResult where
  | record (r : ReceivedRecord)
  | skipped (consumed : Nat)
  | dropped
  deriving DecidableEq, Repr

def isUnifiedRecord (datagram : Bytes) : Bool :=
  !datagram.isEmpty && datagram.headD 0 &&& 0xe0 == 0x20

namespace HandshakeChannel

variable (P : Primitives)

def onOutbox {α : Type} (m : EStateM Err Outbox α) : HandshakeM α :=
  zoom HandshakeChannel.outbox (fun o io => { io with outbox := o }) m

def onInbox {α : Type} (m : EStateM Err HandshakeInbox α) : HandshakeM α :=
  zoom HandshakeChannel.inbox (fun i io => { io with inbox := i }) m

def contribute (contribution : Contribution) : HandshakeM Unit :=
  modify fun io => { io with contributions := io.contributions ++ [contribution] }

def setOutgoing (f : SentFlight) : HandshakeM Unit :=
  modify fun io => { io with outgoing := some f }

/-- Writes records of its own; an error of the transport is returned as it is. -/
def writeRecords (wires : List SealedRecord) : HandshakeM Unit :=
  onOutbox (Outbox.onTransport (Transport.writeAll wires))

/-! ## Reading a record -/

/-- The length of the body; the vector of an ACK counts at most 4095 numbers. -/
def canonicalACKPayloadLen (numbers : List RecordNumber) : Except Err Nat :=
  if 4095 < numbers.length then .error (.protocolError "too many record numbers in ACK")
  else .ok (2 + 16 * numbers.length)

def marshalPlainACKRecord (numbers : List RecordNumber) (sequence : Nat) :
    Except Err SealedRecord := do
  let payloadLen ← canonicalACKPayloadLen numbers
  let header ← allocatePlainRecordWire recordTypeACK 0 sequence payloadLen
  let body := marshalCanonicalACKInto numbers
  pure (PlainRecord.image ⟨recordTypeACK, 0, sequence, body⟩ (header ++ body))

/-- The empty ACK a plaintext phase answers a protected record with. -/
def buildEmptyPlainACK (mtu sequence : Nat) : Except Err SealedRecord :=
  if min ((mtu - (plainRecordHeaderLen + 2)) / 16) ((maxRecordContent - 2) / 16) < 1 then
    .error (.configError "MTU is too small for an ACK record")
  else marshalPlainACKRecord [] sequence

/-- Takes the next number of the connection's plaintext counter. -/
def nextPlainSequence : HandshakeM Nat := do
  let io ← get
  modify fun io => { io with plainSendSequence := io.plainSendSequence + 1 }
  pure io.plainSendSequence

def readPlain (datagram : Bytes) : HandshakeM ReadResult := do
  if isUnifiedRecord datagram then do
    let sequence ← nextPlainSequence
    let io ← get
    let ack ← ofExcept (buildEmptyPlainACK io.mtu sequence)
    writeRecords [ack]
    pure .dropped
  else match parsePlainRecordView datagram with
    | .error _ => pure .dropped
    | .ok (r, consumed) => pure (.record ⟨⟨0, r.sequence⟩, r.typ, r.payload, consumed⟩)

/-- An empty plaintext ACK asks for the flight again. -/
def readPlainACK (r : PlainRecord) (consumed : Nat) : HandshakeM ReadResult := do
  let numbers ← ofExcept (parseACK r.payload)
  let io ← get
  match numbers, io.outgoing with
  | [], some f => do
    let sent ← onOutbox (Outbox.refreshAndRetransmit P f)
    setOutgoing sent
    pure (.skipped consumed)
  | _, _ => pure (.skipped consumed)

/-- Whether the epoch bits are those of the early-data cipher. -/
def selectsEarly (early : RecordCipher) (datagram : Bytes) : Bool :=
  (datagram.headD 0 &&& 0x03).toNat == early.epoch % 4

/-- Epoch-1 data is buffered, or handed on at once. -/
def queueEarlyApplicationData (content : Bytes) : HandshakeM Unit := do
  let io ← get
  let input := io.earlyInput
  if !input.accepted || input.limit == 0 then pure ()
  else if io.config.maxBufferedApplicationDatagrams ≤ input.datagrams.length then
    throw (alertError alertUnexpectedMessage
      (.protocolError "too many early application datagrams"))
  else if input.limit - input.readBytes < content.length then
    throw (alertError alertUnexpectedMessage
      (.protocolError "early data exceeds the advertised limit"))
  else do
    let readBytes := input.readBytes + content.length
    modify fun io => { io with earlyInput := { io.earlyInput with readBytes := readBytes } }
    if input.earlyIo then
      zoom (fun io => io.earlyInput.inbound)
        (fun i io => { io with earlyInput := { io.earlyInput with inbound := i } })
        (Inbound.queueApplicationData io.config content)
    else if io.config.maxBufferedApplicationData < readBytes then
      throw (.protocolError "buffered early application data limit exceeded")
    else modify fun io => { io with
      earlyInput := { io.earlyInput with datagrams := io.earlyInput.datagrams ++ [content] } }

/-- Early application data goes to its queue while it is read. -/
def takeEarlyData (early : Bool) (source : RecordNumber) (opened : OpenedRecord) :
    HandshakeM Unit :=
  if early && opened.contentType == recordTypeApplicationData then do
    contribute (.application source opened.content)
    queueEarlyApplicationData opened.content
  else pure ()

/-- Opens a record with the cipher that was selected, which `put` puts back. -/
def openWith (early : Bool) (selected : RecordCipher)
    (put : RecordCipher → HandshakeChannel → HandshakeChannel) (datagram : Bytes) :
    HandshakeM ReadResult := do
  let (result, next) := selected.openRecord P datagram
  modify (put next)
  match result with
  | .error err =>
    match protectedRecordReceiveError err with
    | some fatal => throw fatal
    | none => pure .dropped
  | .ok opened => do
    let source : RecordNumber := ⟨next.epoch, next.lastOpened⟩
    takeEarlyData early source opened
    pure (.record ⟨source, opened.contentType, opened.content, opened.consumed⟩)

/-- The epoch bits choose between early-data and handshake keys. -/
def readProtected (cipher : RecordCipher) (datagram : Bytes) : HandshakeM ReadResult := do
  let io ← get
  match io.early.filter (selectsEarly · datagram) with
  | some early => openWith P true early (fun c io => { io with early := some c }) datagram
  | none => openWith P false cipher (fun c io => { io with cipher := some c }) datagram

/-- Reads the front of a datagram. -/
def readRecord (datagram : Bytes) : HandshakeM ReadResult := do
  let io ← get
  match io.cipher with
  | none => readPlain datagram
  | some cipher =>
    if datagram.headD 0 = recordTypeACK then
      match parsePlainRecordView datagram with
      | .ok (r, consumed) => readPlainACK P r consumed
      | .error _ => readProtected P cipher datagram
    else readProtected P cipher datagram

/-! ## Processing a record -/

def processAlert (r : ReceivedRecord) : HandshakeM Unit := do
  contribute (.alert r.source)
  let alert ← ofExcept (AlertMessage.parseAlert r.payload)
  if alert.isUserCanceled then pure ()
  else if alert.isCloseNotify then throw .endOfFile
  else throw (.peerAlert alert.description)

/-- An ACK of the outstanding flight; what it leaves open is sent again. -/
def processACK (r : ReceivedRecord) (f : SentFlight) : HandshakeM Unit := do
  let numbers ← ofExcept (parseACK r.payload)
  ofExcept (validateACKEpoch numbers r.source.epoch)
  contribute (.ack r.source numbers)
  let acked := f.ack numbers
  setOutgoing acked
  if acked.complete then pure ()
  else do
    let sent ← onOutbox (Outbox.retransmitPartialFlight P acked)
    setOutgoing sent

/-- Adds the fragments of a record to the inbox, in order. Returns the messages
delivered, and whether a fragment was of a message delivered before. -/
def addFragments (source : RecordNumber) :
    List HandshakeFragment → HandshakeM (List CompletedHandshake × Bool)
  | [] => pure ([], false)
  | fragment :: rest => do
    let io ← get
    contribute (.fragment source fragment)
    let delivered ← onInbox (HandshakeInbox.addProtected fragment source.epoch)
    let (others, older) ← addFragments source rest
    pure (delivered ++ others, fragment.messageSequence < io.inbox.expected || older)

def retransmitOutgoing : HandshakeM Unit := do
  let io ← get
  match io.outgoing with
  | none => pure ()
  | some f =>
    if f.hasAcknowledgedRecord then pure ()
    else do
      let sent ← onOutbox (Outbox.refreshAndRetransmit P f)
      setOutgoing sent

/-- Acknowledges the record last opened under the handshake keys. -/
def acknowledge (source : RecordNumber) : HandshakeM Unit := do
  let io ← get
  match io.cipher, io.ackCipher with
  | some cipher, some ref => do
    let number : RecordNumber := ⟨cipher.epoch, cipher.lastOpened⟩
    contribute (.acknowledged source number)
    let acks ← onOutbox (Outbox.onStore (buildACKRecords P [number] io.mtu ref))
    writeRecords acks
  | _, _ => pure ()

/-- A record with fragments; returns the messages whose turn has come. Only a record
without old fragments is acknowledged. -/
def processFragments (r : ReceivedRecord) : HandshakeM (List CompletedHandshake) := do
  let fragments ← ofExcept (HandshakeFragment.parseHandshakeFragments r.payload)
  let (delivered, peerRetransmitted) ← addFragments r.source fragments
  if peerRetransmitted then retransmitOutgoing P else acknowledge P r.source
  pure delivered

def processRecord (r : ReceivedRecord) : HandshakeM (List CompletedHandshake) := do
  let io ← get
  if r.typ = recordTypeAlert then do
    processAlert r
    pure []
  else if r.typ = recordTypeACK then
    match io.outgoing with
    | none => pure []
    | some f => do
      processACK P r f
      pure []
  else if r.typ = recordTypeHandshake then processFragments P r
  else pure []

/-- Reads and processes one record. Returns what is left of the datagram and, when
messages were delivered, these messages and the record they were completed by. -/
def receiveRecord (datagram : Bytes) :
    HandshakeM (Bytes × Option (RecordNumber × List CompletedHandshake)) := do
  match ← readRecord P datagram with
  | .dropped => pure ([], none)
  | .skipped consumed => pure (datagram.drop consumed, none)
  | .record r => do
    let delivered ← processRecord P r
    pure (datagram.drop r.consumed, if delivered.isEmpty then none else some (r.source, delivered))

/-! ## Calls -/

/-- A receive call begins with the path MTU of now. -/
def beginCall : HandshakeM Unit :=
  modify fun io => { io with mtu := io.outbox.transport.pathMTU }

/-- A timeout sends the outstanding flight again, and the next call begins. -/
def timedOut (timeoutCount : Nat) : HandshakeM Unit := do
  let io ← get
  match io.outgoing with
  | none => beginCall
  | some f => do
    let sent ← onOutbox (Outbox.retransmitAfterTimeout P f timeoutCount)
    setOutgoing sent
    beginCall

/-! ## What is received -/

/-- A relation of states that knows neither the inbox nor the queue of early data. -/
structure IgnoresInput (R : HandshakeChannel → HandshakeChannel → Prop) : Prop where
  inbox : ∀ io inbox, R io { io with inbox := inbox }
  earlyInput : ∀ io input, R io { io with earlyInput := input }

section IgnoresInput

variable {R : HandshakeChannel → HandshakeChannel → Prop} [Std.Refl R]
  [IsTrans HandshakeChannel R] {source : RecordNumber}

theorem keeps_processAlert {r : ReceivedRecord}
    (hcontribute : Keeps R (contribute (.alert r.source))) : Keeps R (processAlert r) := by
  refine keeps_bind hcontribute fun _ => ?_
  refine keeps_bind (keeps_ofExcept _) fun alert => ?_
  refine keeps_ite (fun _ => keeps_pure _) fun _ => ?_
  exact keeps_ite (fun _ => keeps_throw _) fun _ => keeps_throw _

variable (hR : IgnoresInput R)

include hR

theorem keeps_addFragments
    (hcontribute : ∀ fragment, Keeps R (contribute (.fragment source fragment)))
    (fragments : List HandshakeFragment) : Keeps R (addFragments source fragments) := by
  induction fragments with
  | nil => exact keeps_pure _
  | cons fragment rest ih =>
    refine keeps_bind keeps_get fun _ => ?_
    refine keeps_bind (hcontribute fragment) fun _ => ?_
    refine keeps_bind (keeps_zoom hR.inbox _) fun _ => ?_
    exact keeps_bind ih fun _ => keeps_pure _

theorem keeps_queueEarlyApplicationData (content : Bytes) :
    Keeps R (queueEarlyApplicationData content) := by
  refine keeps_bind keeps_get fun io => ?_
  refine keeps_ite (fun _ => keeps_pure _) fun _ => ?_
  refine keeps_ite (fun _ => keeps_throw _) fun _ => ?_
  refine keeps_ite (fun _ => keeps_throw _) fun _ => ?_
  refine keeps_bind (keeps_modify fun io => hR.earlyInput io _) fun _ => ?_
  refine keeps_ite (fun _ => keeps_zoom (fun io _ => hR.earlyInput io _) _) fun _ => ?_
  exact keeps_ite (fun _ => keeps_throw _) fun _ => keeps_modify fun io => hR.earlyInput io _

theorem keeps_takeEarlyData {early : Bool} (opened : OpenedRecord)
    (hcontribute : early = true → Keeps R (contribute (.application source opened.content))) :
    Keeps R (takeEarlyData early source opened) :=
  keeps_ite (fun hearly => keeps_bind (hcontribute (Bool.and_eq_true_iff.mp hearly).1)
    fun _ => keeps_queueEarlyApplicationData hR _) fun _ => keeps_pure _

end IgnoresInput

end HandshakeChannel

end Dtls13
