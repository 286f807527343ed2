import Dtls13.Handshake.Reassembly

/-! # Handshake messages in order

The inbox puts the order of message sequence numbers on top of reassembly. A
complete message from the future waits until every message before it arrived.
-/

namespace Dtls13

open ByteCodec StateLogic

structure CompletedHandshake where
  typ : UInt8
  sequence : Nat
  body : Bytes
  deriving DecidableEq, Repr

structure HandshakeInbox where
  expected : Nat
  reassembler : Reassembler
  ready : AList fun _ : Nat => CompletedHandshake
  maxReady : Nat
  maxBytes : Nat
  readyBytes : Nat
  deriving DecidableEq

namespace HandshakeInbox

def newHandshakeInbox (expected maxMessage maxMessages maxBytes : Nat) : HandshakeInbox where
  expected := expected
  reassembler := .newReassemblerWithLimits maxMessage maxMessages maxBytes
  ready := ∅
  maxReady := maxMessages
  maxBytes := maxBytes
  readyBytes := 0

/-- The next expected number, a 16-bit counter. -/
def advance (i : HandshakeInbox) : HandshakeInbox :=
  { i with expected := (i.expected + 1) % 2 ^ 16 }

/-- Takes the waiting messages whose turn has come. -/
def drain : Nat → HandshakeInbox → List CompletedHandshake × HandshakeInbox
  | 0, i => ([], i)
  | fuel + 1, i =>
    match i.ready.lookup i.expected with
    | none => ([], i)
    | some message =>
      let (rest, drained) := drain fuel { i.advance with
        ready := i.ready.erase i.expected
        readyBytes := i.readyBytes - message.body.length }
      (message :: rest, drained)

/-- A message that completed waits for its turn or is delivered, with those that
waited for it. -/
def complete (message : CompletedHandshake) :
    EStateM Err HandshakeInbox (List CompletedHandshake) := do
  let i ← get
  if i.maxReady ≤ i.ready.keys.length then
    throw (.protocolError "too many completed out-of-order handshake messages")
  else if i.maxBytes < i.readyBytes + message.body.length then
    throw (.protocolError "completed handshake message memory limit exceeded")
  else if message.sequence ≠ i.expected then do
    set { i with
      ready := i.ready.insert message.sequence message
      readyBytes := i.readyBytes + message.body.length }
    pure []
  else do
    let (waiting, drained) := drain i.ready.keys.length i.advance
    set drained
    pure (message :: waiting)

def addAtEpoch (f : HandshakeFragment) (epoch : Nat) (isProtected : Bool) :
    EStateM Err HandshakeInbox (List CompletedHandshake) := do
  let i ← get
  if f.messageSequence < i.expected then pure []
  else if (i.ready.lookup f.messageSequence).isSome then pure []
  else do
    let completed ← zoom HandshakeInbox.reassembler (fun r i => { i with reassembler := r })
      (Reassembler.addAtEpochAndRecord f epoch isProtected none)
    match completed with
    | none => pure []
    | some message => complete ⟨f.typ, f.messageSequence, message.body⟩

def addProtected (f : HandshakeFragment) (epoch : Nat) :
    EStateM Err HandshakeInbox (List CompletedHandshake) :=
  addAtEpoch f epoch true

def hasIncompleteProtected (i : HandshakeInbox) : Bool := i.reassembler.hasIncompleteProtected

end HandshakeInbox

end Dtls13
