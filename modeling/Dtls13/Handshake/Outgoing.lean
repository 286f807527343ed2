import Dtls13.Handshake.Flight
import Dtls13.Record.Plain

/-! # Flights of the handshake

A handshake flight is plaintext, protected, or a plaintext flight combined with a
protected one. The combined flight keeps records of its own; a rebuild carries them
into the parts and back. A call that fails keeps what it changed before.
-/

namespace Dtls13

open ByteCodec StateLogic

/-! ## Plaintext flights -/

/-- A plaintext record in the form a flight keeps: without key and nonce. -/
def PlainRecord.image (r : PlainRecord) (packet : Bytes) : SealedRecord :=
  ⟨r.epoch, r.sequence, [], [], r.typ, r.payload, packet⟩

/-- `nextSequence` is the counter its rebuilds number records with. -/
structure PlainFlight where
  records : List FlightRecord
  messages : List HandshakeMessage
  nextSequence : Nat
  deriving DecidableEq, Repr

def plainFragmentRecord (sequence : Nat) (fragment : HandshakeFragment) :
    Except Err SealedRecord := do
  let header ← allocatePlainRecordWire recordTypeHandshake 0 sequence
    (handshakeHeaderLen + fragment.body.length)
  let content ← fragment.marshalHandshakeFragment
  pure (PlainRecord.image ⟨recordTypeHandshake, 0, sequence, content⟩ (header ++ content))

/-- Records for the fragments, numbered from `sequence` on. -/
def plainFragmentRecords (sequence : Nat) :
    List HandshakeFragment → Except Err (List SealedRecord)
  | [] => .ok []
  | fragment :: rest => do
    let record ← plainFragmentRecord sequence fragment
    let others ← plainFragmentRecords (sequence + 1) rest
    pure (record :: others)

/-- The room a plaintext record has for the bytes of one fragment. -/
def plainMaxFragment (mtu : Nat) : Nat :=
  min (mtu - (plainRecordHeaderLen + handshakeHeaderLen)) (maxRecordContent - handshakeHeaderLen)

def buildPlainFlight (messages : List HandshakeMessage) (mtu firstRecordSequence : Nat) :
    Except Err PlainFlight :=
  let maxFragment := plainMaxFragment mtu
  if maxFragment < 1 then .error (.configError "MTU is too small for a handshake fragment")
  else if messages.any fun message => 2 ^ 24 ≤ message.body.length then
    .error (.protocolError "handshake message exceeds 24-bit length")
  else do
    let records ← plainFragmentRecords firstRecordSequence
      (messages.flatMap fun message => fragmentHandshakeMessage message maxFragment)
    pure ⟨records.map FlightRecord.fresh, messages, firstRecordSequence + records.length⟩

/-- The number after the largest of epoch 0. -/
def nextRecordSequence (records : List FlightRecord) : Nat :=
  records.foldl (fun next record =>
    if record.number.epoch = 0 ∧ next ≤ record.number.sequence then record.number.sequence + 1
    else next) 0

/-! ## Rebuilding -/

/-- A plaintext record is rebuilt from the payload of its wire image. -/
def renewPlain (_ : Nat) (record : FlightRecord) : EStateM Err Nat SealedRecord := do
  let sequence ← get
  match ← ofExcept (parsePlainRecordsView record.wire.packet) with
  | [] => throw indexOutOfRange
  | parsed :: _ => do
    let renewed : PlainRecord := ⟨recordTypeHandshake, 0, sequence, parsed.payload⟩
    let packet ← ofExcept (marshalPlainRecord renewed)
    set (sequence + 1)
    pure (renewed.image packet)

namespace PlainFlight

def refreshPending (f : PlainFlight) : PlainFlight × Option Err :=
  let (records, next, failure) := renewPending renewPlain 0 f.records f.nextSequence
  ({ f with records := records, nextSequence := next }, failure)

def resize (f : PlainFlight) (mtu : Nat) : Except Err PlainFlight :=
  buildPlainFlight f.messages mtu (nextRecordSequence f.records)

end PlainFlight

/-! ## Flights of every kind -/

inductive OutgoingFlight where
  | plain (flight : PlainFlight)
  | sealed (flight : Flight)
  | combined (records : List FlightRecord) (first : PlainFlight) (second : Flight)
  deriving DecidableEq, Repr

/-- Overwrites the front of a slice. -/
def copyInto (dst src : List FlightRecord) : List FlightRecord :=
  src.take dst.length ++ dst.drop src.length

namespace OutgoingFlight

variable (P : Primitives)

def combineFlights (first : PlainFlight) (second : Flight) : OutgoingFlight :=
  .combined (first.records ++ second.records) first second

def records : OutgoingFlight → List FlightRecord
  | .plain flight => flight.records
  | .sealed flight => flight.records
  | .combined records _ _ => records

def withRecords (records : List FlightRecord) : OutgoingFlight → OutgoingFlight
  | .plain flight => .plain { flight with records := records }
  | .sealed flight => .sealed { flight with records := records }
  | .combined _ first second => .combined records first second

/-- The combined rebuild: the parts get the records they are to renew, and give them
back when both succeed. -/
def rebuildCombined (records : List FlightRecord) (first : PlainFlight) (second : Flight)
    (store : CipherStore) : OutgoingFlight × CipherStore × Option Err :=
  if records.length < first.records.length then
    (.combined records first second, store, some indexOutOfRange)
  else
    let count := first.records.length
    let first := { first with records := copyInto first.records (records.take count) }
    let second := { second with records := copyInto second.records (records.drop count) }
    match first.refreshPending with
    | (first, some err) => (.combined records first second, store, some err)
    | (first, none) =>
      match second.rebuild P store with
      | (second, store, some err) => (.combined records first second, store, some err)
      | (second, store, none) => (combineFlights first second, store, none)

def refreshPending (f : OutgoingFlight) (store : CipherStore) :
    OutgoingFlight × CipherStore × Option Err :=
  match f with
  | .plain flight =>
    let (flight, failure) := flight.refreshPending
    (.plain flight, store, failure)
  | .sealed flight =>
    let (flight, store, failure) := flight.rebuild P store
    (.sealed flight, store, failure)
  | .combined records first second =>
    if records.all (·.acked) then (f, store, none)
    else rebuildCombined P records first second store

/-- The combined resize: a failure of the second part leaves the first one resized. -/
def resizeCombined (mtu : Nat) (records : List FlightRecord) (first : PlainFlight)
    (second : Flight) (store : CipherStore) : OutgoingFlight × CipherStore × Option Err :=
  match first.resize mtu with
  | .error err => (.combined records first second, store, some err)
  | .ok first =>
    match second.resize P mtu store with
    | .error err store => (.combined records first second, store, some err)
    | .ok second store => (combineFlights first second, store, none)

def resize (f : OutgoingFlight) (mtu : Nat) (store : CipherStore) :
    OutgoingFlight × CipherStore × Option Err :=
  match f with
  | .plain flight =>
    match flight.resize mtu with
    | .error err => (f, store, some err)
    | .ok flight => (.plain flight, store, none)
  | .sealed flight =>
    match flight.resize P mtu store with
    | .error err store => (f, store, some err)
    | .ok flight store => (.sealed flight, store, none)
  | .combined records first second => resizeCombined P mtu records first second store

end OutgoingFlight

/-! ## Runs -/

/-- A flight and the ciphers of its endpoint. `generation` counts the resizes. -/
structure FlightSession where
  flight : OutgoingFlight
  store : CipherStore
  generation : Nat

/-- What can happen to a flight. Other records may be sealed in between. -/
inductive FlightOp where
  | nextUnsentWire
  | ack (numbers : List RecordNumber)
  | refreshPending
  | resize (mtu : Nat)
  | retransmitWire (maxRecords : Nat)
  | sealElsewhere (ref : CipherRef) (contentType : UInt8) (content : Bytes)
  deriving DecidableEq, Repr

namespace FlightSession

variable (P : Primitives)

def records (s : FlightSession) : List FlightRecord := s.flight.records

/-- The wire images a call returns. -/
def returned (s : FlightSession) : FlightOp → List SealedRecord
  | .nextUnsentWire => (nextUnsentRecords s.records).2
  | .retransmitWire maxRecords => retransmitRecords s.records maxRecords
  | _ => []

def step (s : FlightSession) : FlightOp → FlightSession
  | .nextUnsentWire =>
    { s with flight := s.flight.withRecords (nextUnsentRecords s.records).1 }
  | .ack numbers => { s with flight := s.flight.withRecords (ackRecords s.records numbers) }
  | .refreshPending =>
    let (flight, store, _) := s.flight.refreshPending P s.store
    { s with flight := flight, store := store }
  | .resize mtu =>
    match s.flight.resize P mtu s.store with
    | (flight, store, none) => ⟨flight, store, s.generation + 1⟩
    | (flight, store, some _) => { s with flight := flight, store := store }
  | .retransmitWire _ => s
  | .sealElsewhere ref contentType content =>
    { s with store := StateLogic.exec (CipherStore.sealRecord P ref contentType content) s.store }

/-- A flight as it is built. -/
inductive Built : FlightSession → Prop where
  | plain {messages mtu first flight} (store : CipherStore)
      (hflight : buildPlainFlight messages mtu first = .ok flight) :
      Built ⟨.plain flight, store, 0⟩
  | sealed {messages mtu ref before flight store} (hsound : before.Sound)
      (href : ref < before.ciphers.length) (hepoch : 0 < (before.read ref).epoch)
      (hflight : buildProtectedFlight P messages mtu ref before = .ok flight store) :
      Built ⟨.sealed flight, store, 0⟩
  | combined {messages mtu first plain messages' mtu' ref before second store}
      (hplain : buildPlainFlight messages mtu first = .ok plain) (hsound : before.Sound)
      (href : ref < before.ciphers.length) (hepoch : 0 < (before.read ref).epoch)
      (hsecond : buildProtectedFlight P messages' mtu' ref before = .ok second store) :
      Built ⟨.combineFlights plain second, store, 0⟩

end FlightSession

end Dtls13
