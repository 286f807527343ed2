import Dtls13.Handshake.Fragment
import Dtls13.Record.Store
import Dtls13.Traffic.Epoch

/-! # Traffic keys and their updates

The sending side changes to the next epoch only when its KeyUpdate message was
acknowledged; the receiving side installs the next epoch when the message
arrives and keeps the previous one for records still under way.
-/

namespace Dtls13

open ByteCodec StateLogic RecordCipher EpochSet CipherStore

def scheduleTrafficUpdate (P : Primitives) (suite : CipherSuite) (secret : Bytes) : Bytes :=
  expandLabelHashInto P suite secret labelTrafficUpdate []

def marshalKeyUpdate (requestUpdate : Bool) : Bytes := [if requestUpdate then 1 else 0]

def parseKeyUpdate (b : Bytes) : Except Err Bool :=
  match b with
  | [value] =>
    if 1 < value then .error (.protocolError "invalid KeyUpdate") else .ok (value == 1)
  | _ => .error (alertError alertDecodeError (.protocolError "invalid KeyUpdate length"))

@[simp] theorem parseKeyUpdate_marshalKeyUpdate (requestUpdate : Bool) :
    parseKeyUpdate (marshalKeyUpdate requestUpdate) = .ok requestUpdate := by
  cases requestUpdate <;> rfl

/-- The one fragment a KeyUpdate message is sent as. -/
def keyUpdateFragment (sequence : Nat) (requestUpdate : Bool) : HandshakeFragment :=
  ⟨handshakeTypeKeyUpdate, sequence, 1, 0, marshalKeyUpdate requestUpdate⟩

@[simp] theorem marshal_keyUpdateFragment (sequence : Nat) (requestUpdate : Bool) :
    (keyUpdateFragment sequence requestUpdate).marshalHandshakeFragment =
      .ok (keyUpdateFragment sequence requestUpdate).putHandshakeFragment := rfl

theorem valid_keyUpdateFragment {sequence : Nat} (requestUpdate : Bool)
    (hsequence : sequence < 2 ^ 16) : (keyUpdateFragment sequence requestUpdate).Valid :=
  ⟨hsequence, (by decide : (1 : Nat) < 2 ^ 24), (by decide : (0 : Nat) < 2 ^ 24), le_rfl⟩

structure KeyUpdateState where
  pending : Bool
  records : List RecordNumber
  deriving DecidableEq, Repr

namespace KeyUpdateState

variable (s : KeyUpdateState)

def canUseNewKeys : Bool := !s.pending

def begin (record : RecordNumber) : Except Err KeyUpdateState :=
  if s.pending then .error (.plain "dtls13: KeyUpdate is already awaiting acknowledgement")
  else .ok ⟨true, [record]⟩

def addRetransmission (record : RecordNumber) : Except Err KeyUpdateState :=
  if !s.pending then .error (.plain "dtls13: KeyUpdate is not awaiting acknowledgement")
  else .ok { s with records := s.records ++ [record] }

def ack (numbers : List RecordNumber) : Bool × KeyUpdateState :=
  if s.pending && numbers.any s.records.contains then (true, ⟨false, []⟩) else (false, s)

end KeyUpdateState

/-! ## The sending side -/

structure SendingTraffic where
  suite : CipherSuite
  secret : Bytes
  cipher : CipherRef
  nextSecret : Bytes
  pendingCipher : Option CipherRef
  update : KeyUpdateState
  messageSequence : Nat
  sequenceExhausted : Bool
  replaySize : Nat
  pendingFragment : Bytes
  connectionID : Bytes
  hasConnectionID : Bool
  deriving DecidableEq, Repr

namespace SendingTraffic

variable (s : SendingTraffic)

def canAllocateMessageSequences (count : Nat) : Except Err Unit :=
  if count = 0 then .ok ()
  else if s.sequenceExhausted || 2 ^ 16 < s.messageSequence + count then
    .error (.plain "dtls13: handshake message sequence exhausted")
  else .ok ()

/-- The last number is used once, and then the sequence is exhausted. -/
def commitMessageSequences (count : Nat) : SendingTraffic :=
  let next := s.messageSequence + count
  { s with
    messageSequence := if next = 2 ^ 16 then s.messageSequence else next
    sequenceExhausted := s.sequenceExhausted || next == 2 ^ 16 }

/-- The first message sequence number that was not used. -/
def unusedSequence : Nat := if s.sequenceExhausted then 2 ^ 16 else s.messageSequence

/-- Numbers can be taken only where none was used. -/
theorem unusedSequence_eq {s : SendingTraffic} {count : Nat} (hcount : count ≠ 0)
    (hcan : s.canAllocateMessageSequences count = .ok ()) :
    s.unusedSequence = s.messageSequence := by
  unfold canAllocateMessageSequences at hcan
  rw [if_neg hcount] at hcan
  split_ifs at hcan with hfull
  simp only [Bool.or_eq_true, not_or] at hfull
  rw [unusedSequence, if_neg hfull.1]

theorem unusedSequence_le {s : SendingTraffic} (hlt : s.messageSequence < 2 ^ 16) :
    s.unusedSequence ≤ 2 ^ 16 := by
  unfold unusedSequence
  split_ifs
  · exact le_rfl
  · exact hlt.le

theorem commitMessageSequences_unused {s : SendingTraffic} {count : Nat}
    (hlt : s.messageSequence < 2 ^ 16) (hcan : s.canAllocateMessageSequences count = .ok ()) :
    (s.commitMessageSequences count).messageSequence < 2 ^ 16 ∧
      (s.commitMessageSequences count).unusedSequence = s.unusedSequence + count := by
  unfold canAllocateMessageSequences at hcan
  unfold commitMessageSequences unusedSequence
  cases hexhausted : s.sequenceExhausted with
  | true =>
    have hzero : count = 0 := by
      by_contra hne
      simp [hne, hexhausted] at hcan
    subst hzero
    exact ⟨by dsimp only; split_ifs <;> omega, rfl⟩
  | false =>
    have hroom : s.messageSequence + count ≤ 2 ^ 16 := by
      by_contra hfull
      have hne : count ≠ 0 := by omega
      rw [if_neg hne, if_pos (by simp; omega)] at hcan
      cases hcan
    dsimp only
    simp only [Bool.false_or, beq_iff_eq, Bool.false_eq_true, if_false]
    constructor <;> split_ifs <;> omega

/-- An acknowledged update switches to the next secret and cipher; the old secret
is erased in place. -/
def processACK (numbers : List RecordNumber) : Bool × SendingTraffic :=
  match s.update.ack numbers with
  | (false, _) => (false, s)
  | (true, update) =>
    (true, { s with
      update := update
      secret := s.nextSecret
      nextSecret := List.replicate s.secret.length 0
      cipher := s.pendingCipher.getD s.cipher
      pendingCipher := none
      pendingFragment := [] })

end SendingTraffic

/-- The sending side of an endpoint: its traffic state and the shared ciphers. -/
structure Sender where
  store : CipherStore
  traffic : SendingTraffic

namespace Sender

variable (P : Primitives)

def onStore {α : Type} : EStateM Err CipherStore α → EStateM Err Sender α :=
  zoom Sender.store fun store s => { s with store := store }

/-- The cipher new records are sealed with. -/
def cipher (s : Sender) : RecordCipher := s.store.read s.traffic.cipher

/-- Allocates the first cipher of the traffic keys, which no record used yet. -/
def newSendingTraffic (store : CipherStore) (suite : CipherSuite) (secret : Bytes)
    (epoch messageSequence replaySize : Nat) : Sender :=
  let allocated := store.allocate (newRecordCipher P suite secret epoch replaySize)
  ⟨allocated.2, ⟨suite, secret, allocated.1, [], none, ⟨false, []⟩, messageSequence, false,
    replaySize, [], [], false⟩⟩

def setConnectionID (connectionID : Bytes) : EStateM Err Sender Unit := do
  let s ← get
  onStore (updateCipher s.traffic.cipher (·.setConnectionID connectionID))
  modify fun s => { s with traffic :=
    { s.traffic with connectionID := connectionID, hasConnectionID := true } }
  match s.traffic.pendingCipher with
  | none => pure ()
  | some ref => onStore (updateCipher ref (·.setConnectionID connectionID))

/-- The cipher of the next epoch, made when an update begins. Its connection ID
was checked when it was set. -/
def nextCipher (s : Sender) : RecordCipher :=
  let cipher := (newRecordCipher P s.traffic.suite
    (scheduleTrafficUpdate P s.traffic.suite s.traffic.secret) (s.cipher.epoch + 1)
    s.traffic.replaySize).setPlaintextLimit s.cipher.plaintextLimit
  if s.traffic.hasConnectionID then
    match cipher.setConnectionID s.traffic.connectionID with
    | .ok named => named
    | .error _ => cipher
  else cipher

/-- The state after the KeyUpdate record was sealed. -/
def startUpdate (s : Sender) (update : KeyUpdateState) : Sender :=
  let allocated := s.store.allocate (s.nextCipher P)
  ⟨allocated.2, { s.traffic with
    update := update
    nextSecret := scheduleTrafficUpdate P s.traffic.suite s.traffic.secret
    pendingCipher := some allocated.1 }⟩

def beginKeyUpdate (requestUpdate : Bool) : EStateM Err Sender SealedRecord := do
  let s ← get
  if s.traffic.update.pending then throw (.plain "dtls13: KeyUpdate is already pending")
  else if maxSendingEpoch ≤ s.cipher.epoch then
    throw (.plain "dtls13: sending epoch limit reached")
  else do
    ofExcept (s.traffic.canAllocateMessageSequences 1)
    let fragment ← ofExcept
      (keyUpdateFragment s.traffic.messageSequence requestUpdate).marshalHandshakeFragment
    modify fun s => { s with traffic := { s.traffic with pendingFragment := fragment } }
    let wire ← onStore (sealRecord P s.traffic.cipher recordTypeHandshake fragment)
    let update ← ofExcept (s.traffic.update.begin wire.number)
    modify fun s => s.startUpdate P update
    if s.traffic.hasConnectionID && 255 < s.traffic.connectionID.length then
      throw (.configError "connection ID exceeds 255 bytes")
    else do
      modify fun s => { s with traffic := s.traffic.commitMessageSequences 1 }
      pure wire

def retransmitKeyUpdate : EStateM Err Sender SealedRecord := do
  let s ← get
  if !s.traffic.update.pending || s.traffic.pendingFragment.isEmpty then
    throw (.plain "dtls13: no KeyUpdate is pending")
  else do
    let wire ← onStore
      (sealRecord P s.traffic.cipher recordTypeHandshake s.traffic.pendingFragment)
    let update ← ofExcept (s.traffic.update.addRetransmission wire.number)
    modify fun s => { s with traffic := { s.traffic with update := update } }
    pure wire

def processACK (s : Sender) (numbers : List RecordNumber) : Bool × Sender :=
  let (switched, traffic) := s.traffic.processACK numbers
  (switched, { s with traffic := traffic })

/-! ### What the operations do -/

/-- The record an update of `s` starts with. -/
def keyUpdateRecord (s : Sender) (requestUpdate : Bool) : SealedRecord :=
  s.cipher.protect P recordTypeHandshake
    (keyUpdateFragment s.traffic.messageSequence requestUpdate).putHandshakeFragment true true

/-- The store after the current cipher sealed a record. -/
def loggedStore (s : Sender) (record : SealedRecord) : CipherStore :=
  s.store.logRecord s.traffic.cipher record
    { s.cipher with nextSequence := s.cipher.nextSequence + 1 }

def withPendingFragment (s : Sender) (fragment : Bytes) : Sender :=
  { s with traffic := { s.traffic with pendingFragment := fragment } }

/-- The state after an update began. -/
def updateBegun (s : Sender) (requestUpdate : Bool) : Sender :=
  let record := s.keyUpdateRecord P requestUpdate
  let sealed : Sender := ⟨s.loggedStore record, { s.traffic with pendingFragment :=
        (keyUpdateFragment s.traffic.messageSequence requestUpdate).putHandshakeFragment }⟩
  let started := sealed.startUpdate P ⟨true, [record.number]⟩
  { started with traffic := started.traffic.commitMessageSequences 1 }

/-- The guards of `beginKeyUpdate`. -/
structure CanBegin (s : Sender) : Prop where
  idle : s.traffic.update.pending = false
  epoch_lt : s.cipher.epoch < maxSendingEpoch
  unexhausted : s.traffic.sequenceExhausted = false
  sequence_lt : s.traffic.messageSequence < 2 ^ 16
  cipher_lt : s.traffic.cipher < s.store.ciphers.length

theorem putHandshakeFragment_keyUpdateFragment_length (sequence : Nat) (requestUpdate : Bool) :
    (keyUpdateFragment sequence requestUpdate).putHandshakeFragment.length = 13 := by
  simp [HandshakeFragment.putHandshakeFragment, keyUpdateFragment, marshalKeyUpdate]

variable {numbers : List RecordNumber} {s : Sender}

theorem wp_beginKeyUpdate {requestUpdate : Bool}
    {post : SealedRecord → Sender → Prop} {fail : Err → Sender → Prop}
    (hnamed : s.traffic.hasConnectionID = true → s.traffic.connectionID.length ≤ 255)
    (hok : s.CanBegin → s.cipher.Sealable recordTypeHandshake 13 →
      post (s.keyUpdateRecord P requestUpdate) (s.updateBegun P requestUpdate))
    (hsame : ∀ err, s.traffic.update.pending = true ∨ maxSendingEpoch ≤ s.cipher.epoch ∨
      s.traffic.canAllocateMessageSequences 1 = .error err → fail err s)
    (hfail : ∀ err, s.traffic.update.pending = false → (s.traffic.cipher < s.store.ciphers.length →
      s.cipher.sealCheck recordTypeHandshake 13 = .error err) → fail err (s.withPendingFragment
        (keyUpdateFragment s.traffic.messageSequence requestUpdate).putHandshakeFragment)) :
    wp (beginKeyUpdate P requestUpdate) post fail s := by
  unfold beginKeyUpdate
  rw [wp_bind, wp_get, wp_ite]
  refine ⟨fun hpending => hsame _ (.inl hpending), fun hidle => ?_⟩
  rw [Bool.not_eq_true] at hidle
  rw [wp_ite]
  refine ⟨fun hlast => hsame _ (.inr (.inl hlast)), fun hepoch => ?_⟩
  rw [wp_bind, wp_ofExcept]
  refine ⟨fun _ hallocate => ?_, fun err hrefused => hsame err (.inr (.inr hrefused))⟩
  unfold SendingTraffic.canAllocateMessageSequences at hallocate
  simp only [Nat.one_ne_zero, if_false] at hallocate
  split_ifs at hallocate with hexhausted
  rw [marshal_keyUpdateFragment, wp_bind, wp_ofExcept]
  refine ⟨fun _ hfragment => ?_, fun _ habsurd => nomatch habsurd⟩
  obtain rfl := Except.ok.inj hfragment
  rw [wp_bind, wp_modify, wp_bind, onStore, wp_zoom]
  refine wp_sealRecord P (fun href hsealable => ?_) fun err hcheck => ?_
  swap
  · rw [putHandshakeFragment_keyUpdateFragment_length] at hcheck
    exact hfail err hidle hcheck
  rw [putHandshakeFragment_keyUpdateFragment_length] at hsealable
  rw [wp_bind, wp_ofExcept]
  refine ⟨fun update hbegin => ?_, fun err hbegin => ?_⟩
  · simp only [KeyUpdateState.begin, hidle, Bool.false_eq_true, if_false, Except.ok.injEq]
      at hbegin
    subst hbegin
    rw [wp_bind, wp_modify, wp_ite]
    refine ⟨fun hlong => ?_, fun _ => ?_⟩
    · simp only [Bool.and_eq_true, decide_eq_true_eq] at hlong
      have := hnamed hlong.1
      omega
    · simp only [Bool.or_eq_true, decide_eq_true_eq, not_or, not_lt, Bool.not_eq_true] at hexhausted
      exact hok ⟨hidle, by omega, hexhausted.1, by omega, href⟩ hsealable
  · simp [KeyUpdateState.begin, hidle] at hbegin

/-- A retransmission seals the pending message again, under a new number. -/
theorem wp_retransmitKeyUpdate {post : SealedRecord → Sender → Prop} {fail : Err → Sender → Prop}
    (hok : ∀ record, s.traffic.update.pending = true → s.traffic.cipher < s.store.ciphers.length →
      s.cipher.Sealable recordTypeHandshake s.traffic.pendingFragment.length →
      record = s.cipher.protect P recordTypeHandshake s.traffic.pendingFragment true true →
      post record ⟨s.loggedStore record, { s.traffic with
        update := ⟨true, s.traffic.update.records ++ [record.number]⟩ }⟩)
    (hfail : ∀ err, fail err s) : wp (retransmitKeyUpdate P) post fail s := by
  unfold retransmitKeyUpdate
  rw [wp_bind, wp_get]
  refine wp_guard (hfail _) fun hpending => ?_
  simp only [Bool.or_eq_true, Bool.not_eq_true', not_or, Bool.not_eq_false] at hpending
  rw [wp_bind, onStore, wp_zoom]
  refine wp_sealRecord P (fun href hsealable => ?_) fun err _ => hfail err
  rw [wp_bind, wp_ofExcept]
  refine ⟨fun update hupdate => ?_, fun err hupdate => ?_⟩
  · simp only [KeyUpdateState.addRetransmission, hpending.1, Bool.not_true, Bool.false_eq_true,
      if_false, Except.ok.injEq] at hupdate
    subst hupdate
    exact hok _ hpending.1 href hsealable rfl
  · simp [KeyUpdateState.addRetransmission, hpending.1] at hupdate

/-- An acknowledgement switches exactly when it lists a transmission of the
pending update. -/
theorem processACK_fst_iff : (s.processACK numbers).1 = true ↔
      s.traffic.update.pending = true ∧ ∃ number ∈ numbers, number ∈ s.traffic.update.records := by
  unfold processACK SendingTraffic.processACK KeyUpdateState.ack
  cases hpending : s.traffic.update.pending with
  | false => simp
  | true =>
    by_cases hany : numbers.any s.traffic.update.records.contains = true
    · simp only [hany, Bool.and_self, if_true, true_and, true_iff]
      simpa using hany
    · simp only [hany, Bool.and_false, Bool.false_eq_true, if_false, false_iff, true_and]
      simpa using hany

theorem processACK_of_not_switched
    (hstays : (s.processACK numbers).1 = false) : (s.processACK numbers).2 = s := by
  unfold processACK SendingTraffic.processACK KeyUpdateState.ack at hstays ⊢
  split_ifs at hstays ⊢
  rfl

/-- The state after the switch. -/
theorem processACK_of_switched (hswitched : (s.processACK numbers).1 = true) :
    (s.processACK numbers).2 = ⟨s.store, { s.traffic with
      update := ⟨false, []⟩
      secret := s.traffic.nextSecret
      nextSecret := List.replicate s.traffic.secret.length 0
      cipher := s.traffic.pendingCipher.getD s.traffic.cipher
      pendingCipher := none
      pendingFragment := [] }⟩ := by
  unfold processACK SendingTraffic.processACK KeyUpdateState.ack at hswitched ⊢
  split_ifs at hswitched ⊢
  rfl

end Sender

/-! ## The receiving side -/

structure ReceivingTraffic where
  suite : CipherSuite
  secret : Bytes
  epochs : EpochSet
  current : Nat
  replaySize : Nat
  lastUpdateSequence : Nat
  hasUpdateSequence : Bool
  connectionID : Bytes
  hasConnectionID : Bool
  plaintextLimit : Nat
  acceptedCIDs : List Bytes
  secrets : List (Nat × Bytes)
  deriving DecidableEq, Repr

namespace ReceivingTraffic

variable (P : Primitives)

def newReceivingTraffic (suite : CipherSuite) (secret : Bytes) (epoch replaySize : Nat) :
    ReceivingTraffic where
  suite := suite
  secret := secret
  epochs := ⟨epoch, [newRecordCipher P suite secret epoch replaySize], List.nodup_singleton _⟩
  current := epoch
  replaySize := replaySize
  lastUpdateSequence := 0
  hasUpdateSequence := false
  connectionID := []
  hasConnectionID := false
  plaintextLimit := 0
  acceptedCIDs := []
  secrets := [(epoch, secret)]

/-- The cipher of the next epoch, with the limits and connection IDs in force. -/
def nextCipher (r : ReceivingTraffic) : Except Err RecordCipher :=
  let cipher := (newRecordCipher P r.suite (scheduleTrafficUpdate P r.suite r.secret)
    (r.current + 1) r.replaySize).setPlaintextLimit r.plaintextLimit
  if r.hasConnectionID then
    match cipher.setConnectionID r.connectionID with
    | .error err => .error err
    | .ok named => named.addAcceptedConnectionIDs r.acceptedCIDs.tail
  else .ok cipher

/-- Epoch 2 is kept for Finished retransmissions until its wire bits are reused. -/
def retainedEpoch (current : Nat) : Nat := if current < 6 then 2 else 0

/-- The state once the next epoch is installed and current. -/
def advance (r : ReceivingTraffic) (sequence : Nat) (epochs : EpochSet) : ReceivingTraffic :=
  let secret := scheduleTrafficUpdate P r.suite r.secret
  let current := r.current + 1
  { r with
    secret := secret
    current := current
    epochs := if 1 < current then epochs.discardBefore (current - 1) (retainedEpoch current)
      else epochs
    secrets :=
      let secrets := r.secrets.filter (fun entry => entry.1 != current) ++ [(current, secret)]
      if 1 < current then secrets.filter fun entry => current - 1 ≤ entry.1 else secrets
    lastUpdateSequence := sequence
    hasUpdateSequence := true }

/-- Returns whether the peer asks for an update, and whether the message was new. -/
def processKeyUpdate (sequence : Nat) (body : Bytes) :
    EStateM Err ReceivingTraffic (Bool × Bool) := do
  let requestUpdate ← ofExcept (parseKeyUpdate body)
  let r ← get
  if r.hasUpdateSequence && sequence ≤ r.lastUpdateSequence then pure (requestUpdate, false)
  else do
    let cipher ← ofExcept (r.nextCipher P)
    let installed ← ofExcept (r.epochs.install cipher)
    modify fun r => { r with epochs := installed }
    let epochs ← ofExcept (installed.setCurrent (r.current + 1))
    modify fun r => r.advance P sequence epochs
    pure (requestUpdate, true)

/-! ### What the operations do -/

/-- Updates with a sequence number below this one are duplicates. -/
def updateFloor (r : ReceivingTraffic) : Nat :=
  if r.hasUpdateSequence then r.lastUpdateSequence + 1 else 0

/-- A receiving side that can take the next update: the current epoch is the
newest, and its connection IDs can be given to another cipher. -/
structure Ready (r : ReceivingTraffic) : Prop where
  current_eq : r.epochs.current = r.current
  installed_le : ∀ c ∈ r.epochs.ciphers, c.epoch ≤ r.current
  named : r.hasConnectionID = true → r.connectionID.length ≤ 255 ∧
    ∃ merged, mergeConnectionIDs [r.connectionID] r.acceptedCIDs.tail = .ok merged

end ReceivingTraffic

/-- The cipher's keys are those of a traffic secret. -/
structure HasKeys (P : Primitives) (c : RecordCipher) (suite : CipherSuite) (secret : Bytes) :
    Prop where
  suite_eq : c.suite = suite
  key_eq : c.key = (deriveTrafficKeys P suite secret).key
  iv_eq : c.iv = (deriveTrafficKeys P suite secret).iv
  sn_eq : c.sn = (deriveTrafficKeys P suite secret).sn

namespace ReceivingTraffic

variable {P : Primitives} {r : ReceivingTraffic}

theorem Ready.nextCipher (hready : r.Ready) : ∃ cipher, r.nextCipher P = .ok cipher ∧
    cipher.epoch = r.current + 1 ∧
    HasKeys P cipher r.suite (scheduleTrafficUpdate P r.suite r.secret) := by
  unfold ReceivingTraffic.nextCipher
  dsimp only
  split_ifs with hcid
  · obtain ⟨hlength, merged, hmerged⟩ := hready.named hcid
    simp only [setConnectionID, if_neg hlength.not_gt,
      addAcceptedConnectionIDs, Bool.not_true, Bool.false_eq_true, if_false, hmerged]
    exact ⟨_, rfl, rfl, rfl, rfl, rfl, rfl⟩
  · exact ⟨_, rfl, rfl, rfl, rfl, rfl, rfl⟩

theorem nextCipher_epoch {cipher : RecordCipher} (hcipher : r.nextCipher P = .ok cipher) :
    cipher.epoch = r.current + 1 := by
  unfold nextCipher setConnectionID addAcceptedConnectionIDs at hcipher
  grind [setPlaintextLimit, newRecordCipher]

/-- What an update does when the current epoch is the newest one: it is refused or old and
changes nothing, or it installs the next epoch. -/
theorem wp_processKeyUpdate_cases {sequence : Nat} {body : Bytes}
    {post : Bool × Bool → ReceivingTraffic → Prop} {fail : Err → ReceivingTraffic → Prop}
    (hcurrent_eq : r.epochs.current = r.current)
    (hinstalled : ∀ c ∈ r.epochs.ciphers, c.epoch ≤ r.current)
    (hfail : ∀ err, parseKeyUpdate body = .error err ∨ r.nextCipher P = .error err → fail err r)
    (hold : ∀ requestUpdate, parseKeyUpdate body = .ok requestUpdate →
      sequence < r.updateFloor → post (requestUpdate, false) r)
    (hnew : ∀ requestUpdate cipher epochs, parseKeyUpdate body = .ok requestUpdate →
      r.updateFloor ≤ sequence → r.nextCipher P = .ok cipher →
      epochs.ciphers = r.epochs.ciphers ++ [cipher] → epochs.current = r.current + 1 →
      post (requestUpdate, true) (r.advance P sequence epochs)) :
    wp (processKeyUpdate P sequence body) post fail r := by
  unfold processKeyUpdate
  rw [wp_bind, wp_ofExcept]
  refine ⟨fun requestUpdate hparsed => ?_, fun err herr => hfail err (.inl herr)⟩
  rw [wp_bind, wp_get, wp_ite]
  refine ⟨fun hduplicate => ?_, fun hfirst => ?_⟩
  · simp only [Bool.and_eq_true, decide_eq_true_eq] at hduplicate
    exact hold _ hparsed (by rw [updateFloor, if_pos hduplicate.1]; omega)
  have hfloor : r.updateFloor ≤ sequence := by
    simp only [Bool.and_eq_true, decide_eq_true_eq, not_and, not_le] at hfirst
    unfold updateFloor
    split_ifs with hhas
    · exact hfirst hhas
    · exact Nat.zero_le _
  rw [wp_bind, wp_ofExcept]
  refine ⟨fun cipher hcipher => ?_, fun err herr => hfail err (.inr herr)⟩
  have hepoch := nextCipher_epoch hcipher
  have hfresh : r.epochs.lookup cipher.epoch = none := by
    refine lookup_eq_none_iff.mpr fun other hother heq => ?_
    have := hinstalled other hother
    omega
  have hcurrent : setCurrent ⟨r.epochs.current, r.epochs.ciphers ++ [cipher],
      r.epochs.nodup_append hfresh⟩ (r.current + 1) = .ok ⟨r.current + 1,
        r.epochs.ciphers ++ [cipher], r.epochs.nodup_append hfresh⟩ := by
    have hheld : lookup ⟨r.epochs.current, r.epochs.ciphers ++ [cipher],
        r.epochs.nodup_append hfresh⟩ (r.current + 1) = some cipher :=
      lookup_eq_some_iff.mpr ⟨by simp, hepoch⟩
    have hforward : ¬r.current + 1 < r.epochs.current := by omega
    rw [setCurrent, if_neg hforward, hheld, if_neg (by simp)]
  rw [install, dif_pos hfresh, wp_bind, wp_ofExcept]
  refine ⟨fun _ hvalue => ?_, fun _ habsurd => nomatch habsurd⟩
  obtain rfl := Except.ok.inj hvalue
  rw [wp_bind, wp_modify, wp_bind, hcurrent, wp_ofExcept]
  refine ⟨fun _ hvalue => ?_, fun _ habsurd => nomatch habsurd⟩
  obtain rfl := Except.ok.inj hvalue
  exact hnew requestUpdate cipher _ hparsed hfloor hcipher rfl rfl

/-- A ready receiving side ignores an old update and installs the next epoch for
a new one; it never fails. -/
theorem wp_processKeyUpdate {sequence : Nat} {requestUpdate : Bool}
    {post : Bool × Bool → ReceivingTraffic → Prop} {fail : Err → ReceivingTraffic → Prop}
    (hready : r.Ready) (hold : sequence < r.updateFloor → post (requestUpdate, false) r)
    (hnew : ∀ cipher epochs, r.updateFloor ≤ sequence → cipher.epoch = r.current + 1 →
      HasKeys P cipher r.suite (scheduleTrafficUpdate P r.suite r.secret) →
      epochs.ciphers = r.epochs.ciphers ++ [cipher] → epochs.current = r.current + 1 →
      post (requestUpdate, true) (r.advance P sequence epochs)) :
    wp (processKeyUpdate P sequence (marshalKeyUpdate requestUpdate)) post fail r := by
  obtain ⟨cipher, hcipher, hepoch, hkeys⟩ := hready.nextCipher (P := P)
  apply wp_processKeyUpdate_cases hready.current_eq hready.installed_le
  · rintro err (herr | herr)
    · rw [parseKeyUpdate_marshalKeyUpdate] at herr
      cases herr
    · rw [hcipher] at herr
      cases herr
  · intro _ hparsed hfloor
    rw [parseKeyUpdate_marshalKeyUpdate] at hparsed
    cases hparsed
    exact hold hfloor
  · intro _ next epochs hparsed hfloor hnext
    rw [parseKeyUpdate_marshalKeyUpdate] at hparsed
    rw [hcipher] at hnext
    cases hparsed
    cases hnext
    exact hnew cipher epochs hfloor hepoch hkeys

/-- What survives an update: the last two epochs and the retained one. -/
theorem mem_advance_ciphers {sequence : Nat} {epochs : EpochSet} {c : RecordCipher} :
    c ∈ (r.advance P sequence epochs).epochs.ciphers ↔ c ∈ epochs.ciphers ∧
        (1 < r.current + 1 → r.current ≤ c.epoch ∨ c.epoch = retainedEpoch (r.current + 1)) := by
  unfold advance
  dsimp only
  split_ifs with hcurrent
  · simp [discardBefore, hcurrent]
  · simp [hcurrent]

end ReceivingTraffic

end Dtls13
