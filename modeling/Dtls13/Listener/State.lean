import Dtls13.Driver.Hello
import Dtls13.Listener.Registry

/-! # The listener and its packet sessions

A listener demultiplexes the datagrams of one packet transport to sessions, by
source address or by connection ID. Its methods run on different goroutines and
take the listener's lock once or several times; what happens under the lock is one
step. A method that has released the lock and goes on later has left a task, which
any later step may resume. A call to `Accept` that returns because the listener was
closed is a task that is never resumed.
-/

namespace Dtls13

open ByteCodec OwnerMap

/-- An address, by the key under which the maps hold it. -/
abbrev Address := String

structure PacketSession where
  remote : Address
  validated : Bool
  closed : Bool
  connectionIDNegotiated : Bool
  localCID : Bytes
  deriving DecidableEq, Repr

def newPacketSession (remote : Address) : PacketSession := ⟨remote, false, false, false, []⟩

def PacketSession.acceptsEmptyConnectionID (session : PacketSession) : Bool :=
  session.connectionIDNegotiated && session.localCID.length == 0

/-- The normalized configuration; `generatesConnectionID` says that there is a
callback for the IDs of accepted sessions. -/
structure ListenerConfig where
  maxPendingConnections : Nat
  maxPendingConnections_pos : 0 < maxPendingConnections
  maxHandshakeMessage : Nat
  connectionID : Option Bytes
  connectionID_le : ∀ cid ∈ connectionID, cid.length ≤ 255
  generatesConnectionID : Bool

/-- What a method goes on with once it has released the lock. -/
inductive ListenerTask where
  | waiting
  | received (session : SessionId)
  | configure (session : SessionId)
  | register (session : SessionId) (cid : Bytes)
  | promote (session : SessionId) (key : Address)
  | close (session : SessionId)
  | closeWithoutCallback (session : SessionId)
  | remove (session : SessionId)
  deriving DecidableEq, Repr

def ListenerTask.session : ListenerTask → Option SessionId
  | .waiting => none
  | .received session | .configure session | .register session _ | .promote session _
  | .close session | .closeWithoutCallback session | .remove session => some session

structure Listener where
  config : ListenerConfig
  closed : Bool
  accept : List SessionId
  table : List PacketSession
  sessions : AList fun _ : Address => SessionId
  pending : AList fun _ : Address => SessionId
  registry : Registry
  tasks : List ListenerTask

def newListener (config : ListenerConfig) : Listener :=
  ⟨config, false, [], [], ∅, ∅, .empty, []⟩

def isUnifiedCIDRecord (datagram : Bytes) : Bool :=
  isUnifiedRecord datagram && datagram.headD 0 &&& Registry.unifiedHeaderCID != 0

def isInitialClientHelloDatagram (datagram : Bytes) (maxMessage : Nat) : Bool :=
  if datagram.length < plainRecordHeaderLen || datagram.headD 0 != recordTypeHandshake ||
      beNat ((datagram.drop 3).take 2) != 0 then false
  else
    let recordLength := beNat ((datagram.drop 11).take 2)
    if recordLength < 12 || 2 ^ 14 < recordLength ||
        datagram.length < plainRecordHeaderLen + recordLength then false
    else
      let fragment := (datagram.drop plainRecordHeaderLen).take recordLength
      let messageLength := beNat ((fragment.drop 1).take 3)
      let messageSequence := beNat ((fragment.drop 4).take 2)
      let fragmentOffset := beNat ((fragment.drop 6).take 3)
      let fragmentLength := beNat ((fragment.drop 9).take 3)
      fragment.headD 0 == handshakeTypeClientHello && messageSequence == 0 &&
        0 < messageLength && messageLength ≤ maxMessage && 0 < fragmentLength &&
        fragmentOffset + fragmentLength ≤ messageLength && 12 + fragmentLength ≤ fragment.length

namespace Listener

variable (l : Listener)

def schedule (task : ListenerTask) : Listener := { l with tasks := l.tasks ++ [task] }

def modifySession (session : SessionId) (f : PacketSession → PacketSession) : Listener :=
  { l with table := l.table.modify session f }

/-- `closeWithoutCallback`: the session is closed once. -/
def closeWithoutCallback (session : SessionId) : Listener :=
  l.modifySession session fun p => { p with closed := true }

def isClosed (session : SessionId) : Bool := l.table[session]?.any PacketSession.closed

/-- `Close`: only the call that closes the session goes on to remove it. -/
def closeSession (session : SessionId) : Listener :=
  if l.isClosed session then l
  else (l.closeWithoutCallback session).schedule (.remove session)

/-! ## Arrival of a datagram -/

def hasRoom : Bool :=
  !l.closed && l.sessions.keys.length + l.pending.keys.length < l.config.maxPendingConnections

/-- A new session in one of the two maps. If nobody can be told about it, because
`Accept` is too far behind, it is closed and taken out again. -/
def admitSession (key : Address) : Listener × Option SessionId :=
  if l.accept.length < l.config.maxPendingConnections then
    ({ l with
      table := l.table ++ [newPacketSession key], accept := l.accept ++ [l.table.length],
      sessions := l.sessions.insert key l.table.length }, some l.table.length)
  else ({ l with table := l.table ++ [{ newPacketSession key with closed := true }] }, none)

def admitCandidate (key : Address) : Listener × Option SessionId :=
  if l.accept.length < l.config.maxPendingConnections then
    ({ l with
      table := l.table ++ [newPacketSession key], accept := l.accept ++ [l.table.length],
      pending := l.pending.insert key l.table.length }, some l.table.length)
  else ({ l with table := l.table ++ [{ newPacketSession key with closed := true }] }, none)

/-- The session that an address leads to, which a first ClientHello creates. -/
def activeSession (key : Address) (initial : Bool) : Listener × Option SessionId :=
  match l.sessions.lookup key with
  | some active => (l, some active)
  | none =>
    if (l.pending.lookup key).isNone && l.hasRoom && initial then l.admitSession key
    else (l, none)

/-- The session that may replace a validated one at its address. -/
def candidateSession (key : Address) (active : Option SessionId) (initial : Bool) :
    Listener × Option SessionId :=
  match l.pending.lookup key with
  | some candidate => (l, some candidate)
  | none =>
    if active.any (fun s => l.table[s]?.any PacketSession.validated) && l.hasRoom && initial
    then l.admitCandidate key else (l, none)

/-- One pass of `readLoop`: the next state, and the sessions that get the datagram. -/
def arrive (key : Address) (datagram : Bytes) : Listener × List SessionId :=
  if datagram.length = 0 then (l, [])
  else if isUnifiedCIDRecord datagram then
    (l, match l.registry.sessionForCID l.registry.cidSessions.entries datagram with
      | some session => [session]
      | none => [l.sessions.lookup key, l.pending.lookup key].reduceOption.filter fun session =>
        l.table[session]?.any PacketSession.acceptsEmptyConnectionID)
  else
    let initial := isInitialClientHelloDatagram datagram l.config.maxHandshakeMessage
    let (opened, active) := l.activeSession key initial
    let (admitted, candidate) := opened.candidateSession key active initial
    (admitted, [active, candidate].reduceOption)

/-! ## The methods of a session -/

def registerSessionCIDs (session : SessionId) (cids : List Bytes) : Listener :=
  match l.registry.registerSessionCIDs session cids with
  | .ok registry => { l with registry := registry }
  | .error _ => l

def unregisterSessionCIDs (session : SessionId) (cids : List Bytes) : Listener :=
  { l with registry := l.registry.unregisterSessionCIDs session cids }

def removeSession (session : SessionId) : Listener :=
  { l with
    sessions := dropOwner l.sessions session, pending := dropOwner l.pending session,
    registry := l.registry.removeSession session }

/-- The part of `connectionValidated` that holds the lock. The session that is
replaced is closed afterwards. -/
def promote (session : SessionId) (key : Address) : Listener :=
  let validated := l.modifySession session fun p => { p with validated := true }
  if l.pending.lookup key = some session then
    let promoted : Listener := { validated with
      sessions := l.sessions.insert key session, pending := l.pending.erase key }
    match l.sessions.lookup key with
    | some old => if old ≠ session then promoted.schedule (.close old) else promoted
    | none => promoted
  else validated

/-- Takes the session at the new address out, together with its IDs. -/
def displace (session : SessionId) (newKey : Address) : Listener :=
  match l.sessions.lookup newKey with
  | some displaced =>
    if displaced ≠ session then
      closeWithoutCallback { l with
        sessions := l.sessions.erase newKey
        registry := l.registry.removeSession displaced } displaced
    else l
  | none => l

def rebindSession (session : SessionId) (newKey : Address) : Listener :=
  match l.table[session]? with
  | none => l
  | some p =>
    if p.remote = newKey then l
    else
      let left : Listener := if l.sessions.lookup p.remote = some session
        then { l with sessions := l.sessions.erase p.remote } else l
      let cleared := left.displace session newKey
      modifySession { cleared with sessions := cleared.sessions.insert newKey session } session
        fun p => { p with remote := newKey }

/-! ## Accept and shutdown -/

/-- The connection ID for an accepted session; `generated` is what the callback returns. -/
def connectionIDFor (generated : Except Err (Option Bytes)) : Except Err (Option Bytes) :=
  if l.config.generatesConnectionID then
    match generated with
    | .ok (some cid) =>
      if 255 < cid.length then
        .error (.configError "GetConnectionID returned more than 255 bytes")
      else .ok (some cid)
    | other => other
  else .ok l.config.connectionID

def configure (session : SessionId) (generated : Except Err (Option Bytes)) : Listener :=
  match l.connectionIDFor generated with
  | .error _ => l.schedule (.close session)
  | .ok none => l
  | .ok (some cid) =>
    let named := l.modifySession session fun p =>
      { p with connectionIDNegotiated := true, localCID := cid }
    if cid.length = 0 then named else named.schedule (.register session cid)

def registerSessionCID (session : SessionId) (cid : Bytes) : Listener :=
  match l.registry.registerSessionCID session cid with
  | .ok registry => { l with registry := registry }
  | .error _ => l.schedule (.close session)

def shutdown : Listener :=
  if l.closed then l
  else { l with
    closed := true, sessions := ∅, pending := ∅, registry := .empty
    tasks := l.tasks ++ (l.sessions.entries.map Sigma.snd ++ l.pending.entries.map Sigma.snd).map
      ListenerTask.closeWithoutCallback }

/-! ## Steps -/

/-- What a method does when it goes on. -/
def proceed (generated : Except Err (Option Bytes)) : ListenerTask → Listener
  | .waiting =>
    match l.accept with
    | [] => l.schedule .waiting
    | session :: rest => { l with accept := rest, tasks := l.tasks ++ [.received session] }
  | .received session => l.schedule (if l.closed then .close session else .configure session)
  | .configure session => l.configure session generated
  | .register session cid => l.registerSessionCID session cid
  | .promote session key => l.promote session key
  | .close session => l.closeSession session
  | .closeWithoutCallback session => l.closeWithoutCallback session
  | .remove session => l.removeSession session

end Listener

inductive ListenerEvent where
  | datagram (key : Address) (datagram : Bytes)
  | accept
  | registerSessionCIDs (session : SessionId) (cids : List Bytes)
  | unregisterSessionCIDs (session : SessionId) (cids : List Bytes)
  | validated (session : SessionId)
  | rebind (session : SessionId) (newKey : Address)
  | close (session : SessionId)
  | shutdown
  | resume (task : Nat) (generated : Except Err (Option Bytes))

namespace Listener

/-- One atomic step. Methods are called on sessions that exist. -/
def step (l : Listener) : ListenerEvent → Listener
  | .datagram key datagram => (l.arrive key datagram).1
  | .accept => if l.closed then l else l.schedule .waiting
  | .registerSessionCIDs session cids =>
    if session < l.table.length then l.registerSessionCIDs session cids else l
  | .unregisterSessionCIDs session cids => l.unregisterSessionCIDs session cids
  | .validated session =>
    match l.table[session]? with
    | some p => l.schedule (.promote session p.remote)
    | none => l
  | .rebind session newKey => l.rebindSession session newKey
  | .close session => if session < l.table.length then l.closeSession session else l
  | .shutdown => l.shutdown
  | .resume task generated =>
    match l.tasks[task]? with
    | some resumed => proceed { l with tasks := l.tasks.eraseIdx task } generated resumed
    | none => l

/-! ## A small listener -/

def sampleConfig : ListenerConfig where
  maxPendingConnections := 4
  maxPendingConnections_pos := by decide
  maxHandshakeMessage := 100
  connectionID := none
  connectionID_le := nofun
  generatesConnectionID := true

/-- The first and only fragment of a ClientHello of one byte. -/
def sampleClientHello : Bytes :=
  [22, 254, 253, 0, 0, 0, 0, 0, 0, 0, 0, 0, 13] ++ [1, 0, 0, 1, 0, 0, 0, 0, 0, 0, 0, 1, 7]

/-- All of a call to `Accept` that finds a session and gives it an ID. -/
def acceptSession (cid : Bytes) : List ListenerEvent :=
  .accept :: List.replicate 4 (.resume 0 (.ok (some cid)))

end Listener

end Dtls13
