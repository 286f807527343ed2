import Mathlib.Logic.Function.Iterate
import Dtls13.Lib.RunSystem
import Dtls13.Handshake.Flight
import Dtls13.Traffic.Sound

/-! # One direction of a connection

A sender and the receiving side of its peer, with a network in between that
loses, duplicates and reorders. The sender updates its keys, sends flights and
rebuilds them; KeyUpdate records reach the receiver any number of times, and the
receiver's acknowledgements reach the sender any number of times.
-/

namespace Dtls13

open ByteCodec StateLogic

/-- `latest` is the message sequence number of the last update begun, and `sent`
lists the KeyUpdate records put on the wire, each with the number of its update.
`processed` lists the numbers of the KeyUpdate records the receiver took. -/
structure Link where
  sender : Sender
  flights : List Flight
  receiver : ReceivingTraffic
  latest : Nat
  sent : List (Nat × SealedRecord)
  processed : List RecordNumber

inductive LinkEvent where
  | beginKeyUpdate (requestUpdate : Bool)
  | retransmitKeyUpdate
  | deliver (index : Nat)
  | ack (numbers : List RecordNumber)
  | sealContent (contentType : UInt8) (content : Bytes)
  | sendFlight (bodies : List (UInt8 × Bytes)) (mtu : Nat)
  | refreshPending (index : Nat)
  | resize (index mtu : Nat)
  | ackFlight (index : Nat) (numbers : List RecordNumber)
  deriving DecidableEq, Repr

namespace Link

variable (P : Primitives)

/-- Both sides are made from one secret. -/
def start (suite : CipherSuite) (secret : Bytes) (epoch : Nat) (messageSequence : UInt16)
    (replaySize : Nat) : Link where
  sender := Sender.newSendingTraffic P ⟨[], []⟩ suite secret epoch messageSequence.toNat replaySize
  flights := []
  receiver := ReceivingTraffic.newReceivingTraffic P suite secret epoch replaySize
  latest := 0
  sent := []
  processed := []

/-- After the handshake: the application epoch, and the receive cipher of the
handshake epoch if it is kept for retransmissions of the final flight. -/
def established (suite : CipherSuite) (secret : Bytes) (messageSequence : UInt16)
    (replaySize : Nat) (handshakeSecret : Option Bytes) : Link :=
  let l := start P suite secret 3 messageSequence replaySize
  match handshakeSecret with
  | none => l
  | some handshake =>
    match l.receiver.epochs.install (newRecordCipher P suite handshake 2 replaySize) with
    | .ok epochs => { l with receiver := { l.receiver with epochs := epochs } }
    | .error _ => l

def beginKeyUpdate (l : Link) (requestUpdate : Bool) : Link :=
  handle (Sender.beginKeyUpdate P requestUpdate) l.sender
    (fun record sender =>
      { l with
        sender := sender
        latest := l.sender.traffic.messageSequence
        sent := l.sent ++ [(l.sender.traffic.messageSequence, record)] })
    fun _ sender => { l with sender := sender }

def retransmitKeyUpdate (l : Link) : Link :=
  handle (Sender.retransmitKeyUpdate P) l.sender
    (fun record sender => { l with sender := sender, sent := l.sent ++ [(l.latest, record)] })
    fun _ sender => { l with sender := sender }

/-- A KeyUpdate record arrives; the receiver acknowledges what it processed. -/
def deliver (l : Link) (index : Nat) : Link :=
  match l.sent[index]? with
  | none => l
  | some (_, record) =>
    match HandshakeFragment.parseHandshakeFragments record.content with
    | .ok [fragment] =>
      handle (ReceivingTraffic.processKeyUpdate P fragment.messageSequence fragment.body)
        l.receiver
        (fun _ receiver =>
          { l with receiver := receiver, processed := l.processed ++ [record.number] })
        fun _ receiver => { l with receiver := receiver }
    | _ => l

/-- An acknowledgement lists records the receiver has processed. -/
def ack (l : Link) (numbers : List RecordNumber) : Link :=
  if ∀ number ∈ numbers, number ∈ l.processed then
    { l with sender := (l.sender.processACK numbers).2 }
  else l

def onStore {α : Type} (l : Link) (m : EStateM Err CipherStore α) : Link :=
  { l with sender := { l.sender with store := exec m l.sender.store } }

/-- Runs an operation on one flight, which keeps what a failed operation has done. -/
def onFlight (l : Link) (index : Nat) (m : Flight → CipherStore → Flight × CipherStore) : Link :=
  match l.flights[index]? with
  | none => l
  | some flight =>
    let (next, store) := m flight l.sender.store
    { l with sender := { l.sender with store := store }, flights := l.flights.set index next }

/-- A post-handshake flight takes its message sequence numbers when it is built. -/
def sendFlight (l : Link) (bodies : List (UInt8 × Bytes)) (mtu : Nat) : Link :=
  match l.sender.traffic.canAllocateMessageSequences bodies.length with
  | .error _ => l
  | .ok () =>
    handle (buildProtectedFlight P (numberMessages l.sender.traffic.messageSequence bodies) mtu
        l.sender.traffic.cipher) l.sender.store
      (fun flight store => { l with
        sender := ⟨store, l.sender.traffic.commitMessageSequences bodies.length⟩
        flights := l.flights ++ [flight] })
      fun _ store => { l with sender := { l.sender with store := store } }

def step (l : Link) : LinkEvent → Link
  | .beginKeyUpdate requestUpdate => l.beginKeyUpdate P requestUpdate
  | .retransmitKeyUpdate => l.retransmitKeyUpdate P
  | .deliver index => l.deliver P index
  | .ack numbers => l.ack numbers
  | .sealContent contentType content =>
    l.onStore (CipherStore.sealRecord P l.sender.traffic.cipher contentType content)
  | .sendFlight bodies mtu => l.sendFlight P bodies mtu
  | .refreshPending index => l.onFlight index (·.tryRebuild P)
  | .resize index mtu => l.onFlight index (·.tryResize P mtu)
  | .ackFlight index numbers => { l with flights := l.flights.modify index (·.ack numbers) }

end Link

end Dtls13
