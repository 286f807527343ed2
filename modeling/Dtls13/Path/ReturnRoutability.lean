import Dtls13.Driver.Frames
import Dtls13.Listener.State

/-! # Return routability

A record from an unknown address starts a check: the old path is asked first, then the
new one, and the answer of the new one moves the connection there. A record is observed
in one critical section and handled in another one, so that timers and calls can come in
between. Timers carry the generation they were armed with; one that was stopped too late
fires all the same.

The lists `arrivals`, `departures`, `draws`, `rebinds` and `applied` are histories, on
which nothing depends.
-/

namespace Dtls13

open ByteCodec StateLogic SendingSide

/-! ## Messages -/

inductive ReturnRoutabilityType where
  | pathChallenge
  | pathResponse
  | pathDrop
  deriving DecidableEq, Repr

namespace ReturnRoutabilityType

def code : ReturnRoutabilityType → UInt8
  | pathChallenge => 0
  | pathResponse => 1
  | pathDrop => 2

def ofCode (code : UInt8) : Option ReturnRoutabilityType :=
  if code = 0 then some pathChallenge
  else if code = 1 then some pathResponse
  else if code = 2 then some pathDrop
  else none

end ReturnRoutabilityType

/-- The random bytes that tie an answer to its challenge. -/
structure PathCookie where
  bytes : Bytes
  length_eq : bytes.length = 8
  deriving DecidableEq, Repr

def PathCookie.zero : PathCookie := ⟨List.replicate 8 0, rfl⟩

structure ReturnRoutabilityMessage where
  typ : ReturnRoutabilityType
  cookie : PathCookie
  deriving DecidableEq, Repr

namespace ReturnRoutabilityMessage

def marshal (m : ReturnRoutabilityMessage) : Bytes := m.typ.code :: m.cookie.bytes

/-- An unknown type gives no message. -/
def parseReturnRoutabilityMessage (wire : Bytes) :
    Except Err (Option ReturnRoutabilityMessage) :=
  match wire with
  | [] => .error (alertError alertDecodeError
      (.protocolError "truncated return routability message"))
  | code :: rest =>
    match ReturnRoutabilityType.ofCode code with
    | none => .ok none
    | some typ =>
      if hlength : rest.length = 8 then .ok (some ⟨typ, rest, hlength⟩)
      else .error (alertError alertDecodeError
        (.protocolError "invalid return routability message length"))

@[simp] theorem marshal_length (m : ReturnRoutabilityMessage) : m.marshal.length = 9 := by
  simp [marshal, m.cookie.length_eq]

end ReturnRoutabilityMessage

/-! ## The state of a check -/

inductive ReturnRoutabilityPhase where
  | idle
  | checkingOldPath
  | checkingNewPath
  deriving DecidableEq, Repr

def addSaturated (left right : Nat) : Nat := min (left + right) (2 ^ 64 - 1)

structure ReturnRoutabilityState where
  phase : ReturnRoutabilityPhase
  generation : UInt64
  oldAddress : Option Address
  newAddress : Option Address
  cookie : PathCookie
  probeConnectionID : Bytes
  received : Nat
  sent : Nat
  deriving DecidableEq, Repr

namespace ReturnRoutabilityState

def initial : ReturnRoutabilityState := ⟨.idle, 0, none, none, .zero, [], 0, 0⟩

def clear (state : ReturnRoutabilityState) : ReturnRoutabilityState :=
  { initial with generation := state.generation + 1 }

/-- A check of two addresses, which asks the old one first. -/
def beginCheck (state : ReturnRoutabilityState) (cookie : PathCookie)
    (oldAddress newAddress : Address) (received : Nat) : ReturnRoutabilityState :=
  { state with
    phase := .checkingOldPath
    oldAddress := some oldAddress
    newAddress := some newAddress
    cookie := cookie
    received := received
    sent := 0 }

/-- The check is active, and the address is the one it is about. -/
def Candidate (state : ReturnRoutabilityState) (address : Address) : Prop :=
  state.phase ≠ .idle ∧ state.newAddress = some address

instance (state : ReturnRoutabilityState) (address : Address) :
    Decidable (state.Candidate address) :=
  inferInstanceAs (Decidable (_ ∧ _))

def budget (state : ReturnRoutabilityState) : Nat := min (3 * state.received) (2 ^ 64 - 1)

end ReturnRoutabilityState

/-! ## A connection that can move -/

/-- What a cookie was drawn for: the check, and the address that is challenged. -/
structure PathDraw where
  check : Nat
  phase : ReturnRoutabilityPhase
  address : Address
  cookie : PathCookie
  deriving DecidableEq, Repr

/-- A record between its two critical sections; `content` is that of a path message. -/
structure ArrivedRecord where
  source : Address
  length : Nat
  content : Option Bytes
  deriving DecidableEq, Repr

/-- A connection with the state of its path. `routable` says that the transport can
write to every address and be bound to another one; `random` is what the next reads of
the random source give, and a read beyond it fails. -/
structure PathConn where
  side : SendingSide
  negotiated : Bool
  routable : Bool
  remote : Address
  returnRoutability : Option ReturnRoutabilityState
  random : List (Option PathCookie)
  processing : Option ArrivedRecord
  checks : Nat
  arrivals : List (Address × Nat)
  departures : List (Address × Nat)
  draws : List PathDraw
  rebinds : List (Nat × Address)
  applied : List (Nat × NewConnectionIDMessage)

abbrev PathM (α : Type) := EStateM Err PathConn α

/-! ## Connection IDs of the peer -/

/-- What a connection-ID message comes to; `active` is the ID to use from now on. -/
structure ReceivedConnectionIDs where
  message : NewConnectionIDMessage
  cids : ConnectionIDs
  active : Option Bytes
  deriving DecidableEq, Repr

/-- A message that was seen before has no effect. -/
def ConnectionIDs.receiveNewConnectionID (cids : ConnectionIDs) (maxConnectionIDs sequence : Nat)
    (body : Bytes) : Except Err (Option ReceivedConnectionIDs) := do
  let message ← NewConnectionIDMessage.parseNewConnectionID body
  if !cids.negotiated || !cids.peerUpdatesAllowed then
    throw (alertError alertUnexpectedMessage (.protocolError "unexpected NewConnectionId"))
  else if cids.lastNewCIDSequence.any (sequence ≤ ·) then pure none
  else
    match mergeConnectionIDs (cids.sendConnectionID :: cids.peerSpareConnectionIDs)
        message.connectionIDs with
    | .error err => throw (alertError alertIllegalParameter err)
    | .ok _ =>
      let spares := Conn.addSpareConnectionIDs maxConnectionIDs cids.sendConnectionID
        cids.peerSpareConnectionIDs message.connectionIDs
      let received := { cids with lastNewCIDSequence := some sequence, requestOpen := false }
      match message.usage, message.connectionIDs with
      | .immediate, cid :: _ =>
        pure (some ⟨message, { received with peerSpareConnectionIDs := spares.erase cid },
          some cid⟩)
      | _, _ => pure (some ⟨message, { received with peerSpareConnectionIDs := spares }, none⟩)

/-- A connection processes a message as the value says. -/
theorem Conn.processNewConnectionID_eq (sequence : Nat) (body : Bytes) (c : Conn) :
    c.processNewConnectionID sequence body = (do
      match ← ofExcept (c.cids.receiveNewConnectionID c.config.maxConnectionIDs sequence
          body) with
      | none => pure ()
      | some outcome => do
        modify fun c => { c with cids := outcome.cids }
        match outcome.active with
        | none => pure ()
        | some cid => Conn.activatePeerConnectionID cid : ConnM Unit) c := by
  unfold Conn.processNewConnectionID ConnectionIDs.receiveNewConnectionID
  cases NewConnectionIDMessage.parseNewConnectionID body with
  | error err => rfl
  | ok message =>
    -- Both sides make the same checks, and write what they come to in their own way.
    have hget : (get : ConnM Conn) c = .ok c c := rfl
    simp only [ofExcept, bind, Except.bind, EStateM.bind, pure, EStateM.pure, hget]
    by_cases hallowed : (!c.cids.negotiated || !c.cids.peerUpdatesAllowed) = true
    · simp only [hallowed, if_true]
      rfl
    by_cases hseen : c.cids.lastNewCIDSequence.any (sequence ≤ ·) = true
    · simp only [hallowed, hseen, if_true]
      rfl
    simp only [hallowed, hseen]
    cases mergeConnectionIDs (c.cids.sendConnectionID :: c.cids.peerSpareConnectionIDs)
        message.connectionIDs with
    | error err => rfl
    | ok merged =>
      obtain ⟨connectionIDs, usage⟩ := message
      cases usage <;> cases connectionIDs <;> rfl

namespace SendingSide

variable (P : Primitives)

/-- Seals a path message, with the ID of the probed path if there is one. -/
def sealReturnRoutability (probeConnectionID : Option Bytes) (content : Bytes) :
    SendingM SealedRecord := do
  let s ← get
  let ref := s.sender.traffic.cipher
  onOutbox (Outbox.onStore (match probeConnectionID with
    | none => CipherStore.sealRecord P ref recordTypeReturnRoutability content
    | some cid => Outbound.sealProbe P ref cid content))

/-- The event of the sending side is the sealing and writing of a path message. -/
theorem sendReturnRoutability_eq (probeConnectionID : Option Bytes) (content : Bytes) :
    sendReturnRoutability P probeConnectionID content = (do
      let wire ← sealReturnRoutability P probeConnectionID content
      writeRecord wire
      updateAfterSend P) := rfl

end SendingSide

namespace PathConn

variable (P : Primitives) (hooks : AuthHooks)

/-- A connection after its handshake, with no check begun. -/
def start (side : SendingSide) (negotiated routable : Bool) (remote : Address)
    (random : List (Option PathCookie)) : PathConn :=
  ⟨side, negotiated, routable, remote, none, random, none, 0, [], [], [], [], []⟩

def onSide {α : Type} (m : SendingM α) : PathM α :=
  zoom PathConn.side (fun side p => { p with side := side }) m

/-! ## Sending -/

/-- The challenge of a new path goes out under the first spare connection ID. -/
def probeConnectionID (p : PathConn) (address : Address) (typ : ReturnRoutabilityType) :
    Option Bytes :=
  match p.returnRoutability with
  | none => none
  | some state =>
    if typ = .pathChallenge ∧ state.phase = .checkingNewPath ∧ state.newAddress = some address
    then p.side.cids.peerSpareConnectionIDs.head?
    else none

def noteProbe (probe : Option Bytes) (p : PathConn) : PathConn :=
  match probe with
  | none => p
  | some cid =>
    { p with returnRoutability :=
        p.returnRoutability.map fun state => { state with probeConnectionID := cid } }

/-- The length of a record with a path message. -/
def pathRecordLen (p : PathConn) (probe : Option Bytes) : Nat :=
  let cipher := p.side.sender.cipher
  { cipher with connectionID := probe.getD cipher.connectionID }.headerLen16 +
    cipher.suite.overhead + 1 + 9

/-- Only what goes to the candidate of the active check is limited. -/
def allowReturnRoutabilitySend (p : PathConn) (address : Address) (size : Nat) : Bool :=
  match p.returnRoutability with
  | none => true
  | some state =>
    if state.Candidate address then
      state.sent ≤ state.budget && size ≤ state.budget - state.sent
    else true

def recordReturnRoutabilitySend (address : Address) (size : Nat) (p : PathConn) : PathConn :=
  { p with
    returnRoutability := p.returnRoutability.map fun state =>
      if state.Candidate address then { state with sent := addSaturated state.sent size }
      else state
    departures := if address = p.remote then p.departures
      else p.departures ++ [(address, size)] }

def writeRecordTo (wire : SealedRecord) (address : Address) : PathM Unit := do
  let p ← get
  if address = p.remote || p.routable then onSide (writeRecord wire)
  else throw (.protocolError "transport cannot write to the return routability address")

def sendReturnRoutability (address : Address) (typ : ReturnRoutabilityType)
    (cookie : PathCookie) : PathM Unit := do
  let p ← get
  let probe := p.probeConnectionID address typ
  if p.side.cleared then
    throw (.protocolError "return routability traffic keys are not installed")
  else do
    modify (noteProbe probe)
    if !p.allowReturnRoutabilitySend address (p.pathRecordLen probe) then pure ()
    else do
      let wire ← onSide (sealReturnRoutability P probe
        (ReturnRoutabilityMessage.marshal ⟨typ, cookie⟩))
      writeRecordTo wire address
      modify (recordReturnRoutabilitySend address wire.packet.length)
      onSide (updateAfterSend P)

/-! ## Checks -/

def clearReturnRoutability (p : PathConn) : PathConn :=
  { p with returnRoutability := p.returnRoutability.map ReturnRoutabilityState.clear }

def armReturnRoutabilityTimer (p : PathConn) : PathConn :=
  { p with returnRoutability :=
      p.returnRoutability.map fun state => { state with generation := state.generation + 1 } }

/-- A failure ends the check. -/
def orClear {α : Type} (m : PathM α) : PathM α :=
  recover m fun err => do
    modify clearReturnRoutability
    throw err

def drawCookie : PathM PathCookie := do
  let p ← get
  modify fun p => { p with random := p.random.tail }
  match p.random.head? with
  | some (some cookie) => pure cookie
  | _ => throw (.plain "random source failed")

def withState (state : ReturnRoutabilityState) (p : PathConn) : PathConn :=
  { p with returnRoutability := some state }

/-- The check as it stands once a cookie was drawn. -/
def withCheck (check : Nat) (state : ReturnRoutabilityState) (address : Address)
    (p : PathConn) : PathConn :=
  { p with
    returnRoutability := some state
    checks := check
    draws := p.draws ++ [⟨check, state.phase, address, state.cookie⟩] }

/-- Challenges the new path. -/
def startBasicReturnRoutability : PathM Unit := do
  let p ← get
  match p.returnRoutability with
  | none => pure ()
  | some state =>
    match state.newAddress with
    | none => pure ()
    | some address =>
      if state.phase = .idle then pure ()
      else do
        let cookie ← orClear drawCookie
        modify (withCheck p.checks
          { state with cookie := cookie, phase := .checkingNewPath } address)
        orClear (sendReturnRoutability P address .pathChallenge cookie)
        modify armReturnRoutabilityTimer

/-- An authenticated record from another address starts a check, or adds to the budget
of the check about its address. -/
def observeReturnRoutabilityRecord (source : Address) (received : Nat) : PathM Unit := do
  let p ← get
  if !p.negotiated || received = 0 || source = p.remote || !p.routable then pure ()
  else do
    let state := p.returnRoutability.getD .initial
    modify (withState state)
    if state.phase ≠ .idle then
      if state.newAddress = some source then
        modify (withState { state with received := addSaturated state.received received })
      else pure ()
    else do
      let cookie ← drawCookie
      modify (withCheck (p.checks + 1) (state.beginCheck cookie p.remote source received) p.remote)
      orClear (sendReturnRoutability P p.remote .pathChallenge cookie)
      modify armReturnRoutabilityTimer

/-- The connection ID a validated path uses: the one it was probed with, if it is still a
spare one, or the first spare one if it was probed with none. -/
def rebindConnectionID (cids : ConnectionIDs) (probe : Bytes) : Option Bytes :=
  if probe.isEmpty then cids.peerSpareConnectionIDs.head?
  else if probe = cids.sendConnectionID then none
  else cids.peerSpareConnectionIDs.find? (· == probe)

/-- Uses a spare ID, which is not a spare one any more. -/
def activateSpare (cid : Bytes) : SendingM Unit := do
  requireTraffic
  activatePeerConnectionID cid
  modify fun s => { s with cids := { s.cids with
    peerSpareConnectionIDs := s.cids.peerSpareConnectionIDs.erase cid } }

def rebindValidatedPath (address : Address) (probe : Bytes) : PathM Unit := do
  let p ← get
  match rebindConnectionID p.side.cids probe with
  | none => pure ()
  | some cid => onSide (activateSpare cid)
  modify fun p => { p with remote := address, rebinds := p.rebinds ++ [(p.checks, address)] }

def handlePathAnswer (message : ReturnRoutabilityMessage) (source : Address)
    (state : ReturnRoutabilityState) : PathM Unit :=
  match state.phase with
  | .idle => pure ()
  | .checkingOldPath =>
    if state.oldAddress = some source ∧ message.cookie = state.cookie then
      match message.typ with
      | .pathResponse => modify clearReturnRoutability
      | .pathDrop => startBasicReturnRoutability P
      | .pathChallenge => pure ()
    else pure ()
  | .checkingNewPath =>
    if message.typ = .pathResponse ∧ state.newAddress = some source ∧
        message.cookie = state.cookie then do
      modify clearReturnRoutability
      rebindValidatedPath source state.probeConnectionID
    else pure ()

def handleReturnRoutability (content : Bytes) (source : Address) : PathM Unit := do
  let p ← get
  if !p.negotiated then pure ()
  else match ReturnRoutabilityMessage.parseReturnRoutabilityMessage content with
    | .error _ | .ok none => pure ()
    | .ok (some message) =>
      if message.typ = .pathChallenge then
        sendReturnRoutability P source
          (if source = p.remote then .pathResponse else .pathDrop) message.cookie
      else match p.returnRoutability with
        | none => pure ()
        | some state => handlePathAnswer P message source state

def returnRoutabilityTimerExpired (generation : UInt64) : PathM Unit := do
  let p ← get
  match p.returnRoutability with
  | none => pure ()
  | some state =>
    if state.generation ≠ generation then pure ()
    else match state.phase with
      | .idle => pure ()
      | .checkingOldPath => startBasicReturnRoutability P
      | .checkingNewPath => modify clearReturnRoutability

/-! ## Runs -/

def processNewConnectionID (sequence : Nat) (body : Bytes) : PathM Unit := do
  let p ← get
  match ← ofExcept (p.side.cids.receiveNewConnectionID p.side.config.maxConnectionIDs sequence
      body) with
  | none => pure ()
  | some outcome => do
    modify fun p => { p with applied := p.applied ++ [(sequence, outcome.message)] }
    onSide (receiveConnectionIDs outcome.cids outcome.active)

/-- What can happen. A record comes from an address, with its length; `named` says that
it was opened by a cipher with connection IDs. `side` is any other event of the sending
side. -/
inductive Event where
  | arrive (source : Address) (length : Nat) (named : Bool) (content : Option Bytes)
  | finish
  | timer (generation : UInt64)
  | clear
  | newConnectionID (sequence : Nat) (body : Bytes)
  | side (event : SendingSide.Event)

def failConnection (p : PathConn) (err : Err) : PathConn :=
  { p with side := p.side.failConnection err }

def orFail {α : Type} (m : PathM α) (p : PathConn) : PathConn :=
  handle m p (fun _ next => next) fun err next => next.failConnection err

/-- A record is dispatched only while there are keys. -/
def dispatch {α : Type} (m : PathM α) (p : PathConn) : PathConn :=
  if p.side.cleared then p else orFail m p

/-- A record counts, and is to be handled. -/
def countArrival (p : PathConn) (source : Address) (length : Nat) (content : Option Bytes) :
    PathConn :=
  { p with
    arrivals := if source = p.remote then p.arrivals else p.arrivals ++ [(source, length)]
    processing := some ⟨source, length, content⟩ }

/-- The first critical section: the record counts, and is handled unless it fails. -/
def arrive (p : PathConn) (source : Address) (length : Nat) (named : Bool)
    (content : Option Bytes) : PathConn :=
  let counted := p.countArrival source length content
  if named then
    handle (observeReturnRoutabilityRecord P source length) counted (fun _ next => next)
      fun err next => { next.failConnection err with processing := none }
  else counted

/-- The second critical section. -/
def finish (p : PathConn) : PathConn :=
  match p.processing with
  | none => p
  | some record =>
    match record.content with
    | none => { p with processing := none }
    | some content =>
      dispatch (handleReturnRoutability P content record.source)
        { p with processing := none }

/-- Path messages and connection-ID messages are events of their own. -/
def isOwnEvent : SendingSide.Event → Bool
  | .sendReturnRoutability .. | .receiveConnectionIDs .. => true
  | _ => false

/-- The check ends with the keys. -/
def sideStep (p : PathConn) (event : SendingSide.Event) : PathConn :=
  if isOwnEvent event then p
  else
    let next := { p with side := p.side.step P hooks event }
    if next.side.cleared then next.clearReturnRoutability else next

def step (p : PathConn) : Event → PathConn
  | .arrive source length named content =>
    if p.processing.isSome || p.side.cleared then p
    else p.arrive P source length named content
  | .finish => p.finish P
  | .timer generation => orFail (returnRoutabilityTimerExpired P generation) p
  | .clear => p.clearReturnRoutability
  | .newConnectionID sequence body => dispatch (processNewConnectionID sequence body) p
  | .side event => p.sideStep P hooks event

/-- A server whose client has a connection ID of 100 bytes. -/
def sampleSide : SendingSide :=
  let client := smallEndpoint [1] (List.replicate 100 3) (by decide)
  let server := smallSetup.server
  let setup := { smallSetup with client := client, server := server }
  .start (.start Primitives.checksum setup false server client) []

def sampleRandom : List (Option PathCookie) :=
  [some ⟨[1, 2, 3, 4, 5, 6, 7, 8], rfl⟩, some ⟨[8, 7, 6, 5, 4, 3, 2, 1], rfl⟩]

/-- The server, with its peer at `"old"`. -/
def sample : PathConn := start sampleSide true true "old" sampleRandom

/-- A record from a new address, and no answer on the old path. -/
def sampleCheck : List Event := [.arrive "new" 100 true none, .finish, .timer 1]

end PathConn

end Dtls13
