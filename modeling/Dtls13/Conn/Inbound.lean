import Dtls13.Handshake.Reassembly

/-! # What a connection has received

Post-handshake messages are reassembled while application data goes on. The
numbers of the records tell whether application data was interleaved with a
message, and application data that arrives while a message is incomplete is held
back until no message is.
-/

namespace Dtls13

open ByteCodec StateLogic

/-- The limits a normalized configuration sets, with its defaults. -/
structure Config where
  mtu : Nat := 1200
  ignorePathMTU : Bool := false
  replayWindow : Nat := 64
  maxHandshakeMessage : Nat := 2 ^ 20
  maxBufferedHandshakeMessages : Nat := 8
  maxBufferedHandshakeBytes : Nat := 2 ^ 22
  maxBufferedApplicationData : Nat := 2 ^ 20
  maxBufferedApplicationDatagrams : Nat := 1024
  maxConnectionIDs : Nat := 8
  mtu_ge : 256 ≤ mtu := by decide
  replayWindow_bounds : 1 ≤ replayWindow ∧ replayWindow ≤ 64 := by decide
  maxHandshakeMessage_bounds : 1 ≤ maxHandshakeMessage ∧ maxHandshakeMessage < 2 ^ 24 := by decide
  messages_pos : 1 ≤ maxBufferedHandshakeMessages := by decide
  bytes_ge : maxHandshakeMessage ≤ maxBufferedHandshakeBytes := by decide
  data_pos : 1 ≤ maxBufferedApplicationData := by decide
  datagrams_pos : 1 ≤ maxBufferedApplicationDatagrams := by decide
  connectionIDs_bounds : 1 ≤ maxConnectionIDs ∧ maxConnectionIDs ≤ 255 := by decide
  deriving DecidableEq, Repr

def Config.standard : Config := {}

def Config.maxPendingOrderingRecords (config : Config) : Nat :=
  max (config.replayWindow * config.maxBufferedHandshakeMessages) 8

/-- The newest elements of a history. -/
def keepLast {α : Type} (limit : Nat) (xs : List α) : List α := xs.drop (xs.length - limit)

structure PendingApplication where
  number : RecordNumber
  content : Bytes
  deriving DecidableEq, Repr

structure Inbound where
  postHandshakeReassembly : Option Reassembler
  protectedHandshakeRanges : List (RecordNumber × RecordNumber)
  recentApplicationRecords : List RecordNumber
  pendingHandshakeApplications : List PendingApplication
  pendingHandshakeApplicationBytes : Nat
  applicationDatagrams : List Bytes
  bufferedApplicationBytes : Nat
  deriving DecidableEq

namespace Inbound

def empty : Inbound := ⟨none, [], [], [], 0, [], 0⟩

variable (config : Config)

def trimRecordOrderingHistory (i : Inbound) : Inbound :=
  let limit := max (2 * config.replayWindow) 2
  { i with
    recentApplicationRecords := keepLast limit i.recentApplicationRecords
    protectedHandshakeRanges := keepLast limit i.protectedHandshakeRanges }

/-- The record lies strictly between two records. -/
def interleaves (first last number : RecordNumber) : Bool :=
  recordNumberLess first number && recordNumberLess number last

def interleavedError : Err := alertError alertUnexpectedMessage
  (.protocolError "application data interleaved with a protected handshake message")

def rememberApplicationRecord (number : RecordNumber) : EStateM Err Inbound Unit := do
  let i ← get
  if i.protectedHandshakeRanges.any fun range => interleaves range.1 range.2 number then
    throw interleavedError
  else
    modify fun i => trimRecordOrderingHistory config
      { i with recentApplicationRecords := i.recentApplicationRecords ++ [number] }

def rememberProtectedHandshakeRangeLocked (first last : RecordNumber) :
    EStateM Err Inbound Unit := do
  let i ← get
  if i.recentApplicationRecords.any (interleaves first last) then throw interleavedError
  else if i.protectedHandshakeRanges.contains (first, last) then pure ()
  else
    modify fun i => trimRecordOrderingHistory config
      { i with protectedHandshakeRanges := i.protectedHandshakeRanges ++ [(first, last)] }

def queueApplicationData (content : Bytes) : EStateM Err Inbound Unit := do
  let i ← get
  if config.maxBufferedApplicationDatagrams ≤ i.applicationDatagrams.length then
    throw (.protocolError "buffered application datagram limit exceeded")
  else if config.maxBufferedApplicationData < i.bufferedApplicationBytes + content.length then
    throw (.protocolError "buffered application data limit exceeded")
  else
    modify fun i => { i with
      applicationDatagrams := i.applicationDatagrams ++ [content]
      bufferedApplicationBytes := i.bufferedApplicationBytes + content.length }

def queueAll : List PendingApplication → EStateM Err Inbound Unit
  | [] => pure ()
  | application :: rest => do
    queueApplicationData config application.content
    queueAll rest

/-- A message of the post-handshake reassembly is incomplete. -/
def hasIncompleteProtected (i : Inbound) : Bool :=
  match i.postHandshakeReassembly with
  | none => false
  | some r => r.hasIncompleteProtected

/-- Records the range of a message; application data held back is released once
no message is incomplete. -/
def rememberProtectedHandshakeRange (first last : RecordNumber) : EStateM Err Inbound Unit := do
  rememberProtectedHandshakeRangeLocked config first last
  let i ← get
  if i.hasIncompleteProtected then pure ()
  else do
    queueAll config i.pendingHandshakeApplications
    modify fun i =>
      { i with pendingHandshakeApplications := [], pendingHandshakeApplicationBytes := 0 }

/-- Holds application data back while a message is incomplete. -/
def bufferIncompleteHandshakeApplication (content : Bytes) (number : RecordNumber) :
    EStateM Err Inbound Bool := do
  let i ← get
  if i.hasIncompleteProtected = false then pure false
  else if config.maxPendingOrderingRecords ≤ i.pendingHandshakeApplications.length then
    throw (.protocolError
      "too many application records buffered during protected-handshake reassembly")
  else if config.maxBufferedApplicationData <
      i.pendingHandshakeApplicationBytes + content.length then
    throw (.protocolError "buffered protected-handshake application data limit exceeded")
  else do
    modify fun i => { i with
      pendingHandshakeApplications := i.pendingHandshakeApplications ++ [⟨number, content⟩]
      pendingHandshakeApplicationBytes := i.pendingHandshakeApplicationBytes + content.length }
    pure true

/-- The reassembler is made on first use. -/
def reassembler (i : Inbound) : Reassembler :=
  i.postHandshakeReassembly.getD (.newReassemblerWithLimits config.maxHandshakeMessage
    config.maxBufferedHandshakeMessages config.maxBufferedHandshakeBytes)

/-- Adds a fragment; a message that completes is handed out once its range of
records is known to hold no application data. -/
def reassembleProtectedHandshake (f : HandshakeFragment) (number : RecordNumber) :
    EStateM Err Inbound (Option Bytes) := do
  let completed ← zoom (reassembler config)
    (fun r i => { i with postHandshakeReassembly := some r })
    (Reassembler.addProtectedRecord f number)
  match completed with
  | none => pure none
  | some message => do
    rememberProtectedHandshakeRange config message.firstRecord message.lastRecord
    pure (some message.body)

/-! ## What the ordering checks change -/

def SameReassembly (i next : Inbound) : Prop :=
  next.postHandshakeReassembly = i.postHandshakeReassembly

instance : Std.Refl SameReassembly := ⟨fun _ => rfl⟩

instance : IsTrans Inbound SameReassembly := ⟨fun _ _ _ hfirst hsecond => hsecond.trans hfirst⟩

/-- Only application data moved. -/
structure SameOrder (i next : Inbound) : Prop where
  reassembly : SameReassembly i next
  recent : next.recentApplicationRecords = i.recentApplicationRecords
  ranges : next.protectedHandshakeRanges = i.protectedHandshakeRanges

instance : Std.Refl SameOrder := ⟨fun _ => ⟨rfl, rfl, rfl⟩⟩

instance : IsTrans Inbound SameOrder := ⟨fun _ _ _ hfirst hsecond =>
  ⟨hsecond.1.trans hfirst.1, hsecond.2.trans hfirst.2, hsecond.3.trans hfirst.3⟩⟩

/-- A range was recorded, unless it was known, and the histories are trimmed. -/
structure Recorded (config : Config) (first last : RecordNumber) (i next : Inbound) : Prop where
  reassembly : SameReassembly i next
  recent : next.recentApplicationRecords = i.recentApplicationRecords ∨
    next.recentApplicationRecords =
      keepLast (max (2 * config.replayWindow) 2) i.recentApplicationRecords
  ranges : (first, last) ∈ i.protectedHandshakeRanges ∧
      next.protectedHandshakeRanges = i.protectedHandshakeRanges ∨
    next.protectedHandshakeRanges = keepLast (max (2 * config.replayWindow) 2)
      (i.protectedHandshakeRanges ++ [(first, last)])

variable {config}

theorem keeps_order_queueApplicationData (content : Bytes) :
    Keeps SameOrder (queueApplicationData config content) :=
  keeps_bind keeps_get fun _ => keeps_ite (fun _ => keeps_throw _) fun _ =>
    keeps_ite (fun _ => keeps_throw _) fun _ => keeps_modify fun _ => ⟨rfl, rfl, rfl⟩

theorem keeps_order_queueAll (applications : List PendingApplication) :
    Keeps SameOrder (queueAll config applications) := by
  induction applications with
  | nil => exact keeps_pure _
  | cons application rest ih =>
    exact keeps_bind (keeps_order_queueApplicationData _) fun _ => ih

theorem keeps_order_bufferIncompleteHandshakeApplication (content : Bytes) (number : RecordNumber) :
    Keeps SameOrder (bufferIncompleteHandshakeApplication config content number) :=
  keeps_bind keeps_get fun _ => keeps_ite (fun _ => keeps_pure _) fun _ =>
    keeps_ite (fun _ => keeps_throw _) fun _ => keeps_ite (fun _ => keeps_throw _) fun _ =>
      keeps_bind (keeps_modify fun _ => ⟨rfl, rfl, rfl⟩) fun _ => keeps_pure _

variable {i : Inbound} {first last : RecordNumber}

theorem wp_rememberProtectedHandshakeRangeLocked :
    wp (rememberProtectedHandshakeRangeLocked config first last)
      (fun _ => Recorded config first last i) (fun _ => SameReassembly i) i := by
  unfold rememberProtectedHandshakeRangeLocked
  rw [wp_bind, wp_get, wp_ite, wp_ite]
  exact ⟨fun _ => rfl, fun _ => ⟨fun hknown => ⟨rfl, .inl rfl, .inl ⟨by simpa using hknown, rfl⟩⟩,
    fun _ => ⟨rfl, .inr rfl, .inr rfl⟩⟩⟩

theorem wp_rememberProtectedHandshakeRange : wp (rememberProtectedHandshakeRange config first last)
      (fun _ => Recorded config first last i) (fun _ => SameReassembly i) i := by
  refine wp_seq wp_rememberProtectedHandshakeRangeLocked fun _ locked hlocked => ?_
  rw [wp_bind, wp_get]
  refine wp_guard hlocked fun _ => ?_
  rw [wp_bind]
  refine wp_mono (keeps_order_queueAll _ locked) (fun _ next hsame => ?_)
    fun _ next hsame => hsame.reassembly.trans hlocked.reassembly
  exact ⟨hsame.reassembly.trans hlocked.reassembly, hsame.recent ▸ hlocked.recent,
    hsame.ranges ▸ hlocked.ranges⟩

/-- Adding a fragment: what it does to the reassembler, in every outcome. -/
theorem wp_reassembleProtectedHandshake {f : HandshakeFragment}
    {number : RecordNumber} (hwithin : f.offset + f.body.length ≤ f.length) :
    wp (reassembleProtectedHandshake config f number)
      (fun body next => ∃ r, next.postHandshakeReassembly = some r ∧
        (i.reassembler config).Filed f body.isSome r)
      (fun _ next => ∃ r, next.postHandshakeReassembly = some r ∧
        ((i.reassembler config).Refused f r ∨ (i.reassembler config).Filed f true r)) i := by
  unfold reassembleProtectedHandshake
  rw [wp_bind, wp_zoom]
  refine wp_mono (Reassembler.wp_addProtectedRecord hwithin) (fun completed r hfiled => ?_)
    fun _ r hrefused => ⟨r, rfl, .inl hrefused⟩
  cases completed with
  | none => exact ⟨r, rfl, hfiled⟩
  | some message =>
    dsimp only
    rw [wp_bind]
    exact wp_mono wp_rememberProtectedHandshakeRange
      (fun _ next hrecorded => ⟨r, hrecorded.reassembly, hfiled⟩)
      fun _ next hsame => ⟨r, hsame, .inr hfiled⟩

end Inbound

end Dtls13
