import Dtls13.Errors
import Dtls13.Crypto.Suite
import Dtls13.Record.Replay

/-! # Protected records

One epoch's record protection: the unified header with masked sequence number,
sealing, and opening with connection-ID matching, sequence reconstruction and
replay protection. A cipher is a value; the functions return the cipher that
the call leaves behind, also when the call fails.
-/

namespace Dtls13

open ByteCodec

def recordTypeAlert : UInt8 := 21
def recordTypeHandshake : UInt8 := 22
def recordTypeApplicationData : UInt8 := 23
def recordTypeHeartbeat : UInt8 := 24
def recordTypeACK : UInt8 := 26
def recordTypeReturnRoutability : UInt8 := 27

def maxRecordContent : Nat := 2 ^ 14
def minRecordSizeLimit : Nat := 64
def defaultRecordSizeLimit : Nat := maxRecordContent + 1
def maxCiphertextLen : Nat := 2 ^ 14 + 256
def sequenceProtectionSampleSize : Nat := 16
def maxSendingEpoch : Nat := 2 ^ 48 - 1

def validInnerContentType (contentType : UInt8) : Bool :=
  contentType == recordTypeAlert || contentType == recordTypeHandshake ||
    contentType == recordTypeApplicationData || contentType == recordTypeHeartbeat ||
    contentType == recordTypeACK || contentType == recordTypeReturnRoutability

def effectiveRecordSizeLimit (limit : Nat) : Nat :=
  if limit < minRecordSizeLimit || defaultRecordSizeLimit < limit then defaultRecordSizeLimit
  else limit

structure RecordNumber where
  epoch : Nat
  sequence : Nat
  deriving DecidableEq, Repr

/-- A record cipher for one epoch. Record and authentication-failure limits are
those of the suite; nothing changes them after construction. -/
structure RecordCipher where
  suite : CipherSuite
  epoch : Nat
  key : Bytes
  iv : Bytes
  sn : Bytes
  nextSequence : Nat
  lastOpened : Nat
  replay : ReplayWindow
  authFailures : Nat
  connectionID : Bytes
  hasConnectionID : Bool
  plaintextLimit : Nat
  acceptedCIDs : List Bytes
  lastConnectionID : Bytes
  iv_length : iv.length = suite.ivLen
  deriving DecidableEq, Repr

/-- A record returned by sealing: its bytes, and what the AEAD was called with. -/
structure SealedRecord where
  epoch : Nat
  sequence : Nat
  key : Bytes
  nonce : Bytes
  contentType : UInt8
  content : Bytes
  packet : Bytes
  deriving DecidableEq, Repr

def SealedRecord.number (record : SealedRecord) : RecordNumber := ⟨record.epoch, record.sequence⟩

structure OpenedRecord where
  content : Bytes
  contentType : UInt8
  consumed : Nat
  deriving DecidableEq, Repr

def reconstructSequence (expected truncated bits : Nat) : Nat :=
  let window := 2 ^ bits
  let half := window / 2
  -- Clearing the low `bits` bits and writing the truncated number in their place.
  let candidate := expected / window * window + truncated
  if candidate + half ≤ expected ∧ candidate + window < 2 ^ 48 then candidate + window
  else if expected + half < candidate ∧ window ≤ candidate then candidate - window
  else candidate

/-- XOR of the masked part of a header, `count` bytes from `offset` on. -/
def maskHeader (mask : UInt8 × UInt8) (offset count : Nat) (header : Bytes) : Bytes :=
  header.take offset ++ xorBytes ((header.drop offset).take count) [mask.1, mask.2] ++
    header.drop (offset + count)

/-- The IV with the sequence number XORed into its last eight bytes. -/
def nonceInto (iv : Bytes) (sequence : Nat) : Bytes :=
  iv.take (iv.length - 8) ++ xorBytes (iv.drop (iv.length - 8)) (beBytes 8 sequence)

/-- For one IV the nonce determines the sequence number. -/
theorem nonceInto_inj {iv : Bytes} {left right : Nat} (hiv : 8 ≤ iv.length)
    (hleft : left < 2 ^ 64) (hright : right < 2 ^ 64)
    (heq : nonceInto iv left = nonceInto iv right) : left = right := by
  have hxor := List.append_cancel_left heq
  have hlength : (iv.drop (iv.length - 8)).length = 8 := by simp; omega
  exact beBytes_inj hleft hright (xorBytes_inj (by simp [hlength]) (by simp [hlength]) hxor)

def newRecordCipher (P : Primitives) (suite : CipherSuite) (trafficSecret : Bytes) (epoch : Nat)
    (replaySize : Nat) : RecordCipher where
  suite := suite
  epoch := epoch
  key := (deriveTrafficKeys P suite trafficSecret).key
  iv := (deriveTrafficKeys P suite trafficSecret).iv
  sn := (deriveTrafficKeys P suite trafficSecret).sn
  nextSequence := 0
  lastOpened := 0
  replay := newReplayWindow replaySize
  authFailures := 0
  connectionID := []
  hasConnectionID := false
  plaintextLimit := 0
  acceptedCIDs := []
  lastConnectionID := []
  iv_length := deriveTrafficKeys_iv_length P suite trafficSecret

/-- One is a prefix of the other: the comparison of the common length. -/
def prefixRelated (left right : Bytes) : Bool := left.isPrefixOf right || right.isPrefixOf left

/-- Adds connection IDs to an accepted set. The first member that is equal to or
prefix-related with an addition decides whether it is a duplicate or an error. -/
def mergeConnectionIDs (existing : List Bytes) : List Bytes → Except Err (List Bytes)
  | [] => .ok existing
  | cid :: additions =>
    if 255 < cid.length then .error (.configError "connection ID exceeds 255 bytes")
    else match existing.find? (prefixRelated cid) with
      | none => mergeConnectionIDs (existing ++ [cid]) additions
      | some current =>
        if current = cid then mergeConnectionIDs existing additions
        else .error (.configError "connection IDs must be prefix-free")

namespace RecordCipher

variable (P : Primitives) (c : RecordCipher)

def setConnectionID (connectionID : Bytes) : Except Err RecordCipher :=
  if 255 < connectionID.length then .error (.configError "connection ID exceeds 255 bytes")
  else .ok { c with
    connectionID := connectionID, hasConnectionID := true, acceptedCIDs := [connectionID] }

def addAcceptedConnectionIDs (connectionIDs : List Bytes) : Except Err RecordCipher :=
  if !c.hasConnectionID then .error (.protocolError "connection ID was not negotiated")
  else match mergeConnectionIDs c.acceptedCIDs connectionIDs with
    | .error err => .error err
    | .ok merged => .ok { c with acceptedCIDs := merged }

def matchConnectionID (datagram : Bytes) : Option Bytes :=
  c.acceptedCIDs.find? fun cid => cid.isPrefixOf datagram

def setPlaintextLimit (limit : Nat) : RecordCipher :=
  let limit := effectiveRecordSizeLimit limit
  { c with plaintextLimit := if limit = defaultRecordSizeLimit then 0 else limit }

def maxContent : Nat :=
  if c.plaintextLimit = 0 then maxRecordContent else c.plaintextLimit - 1

def shouldRequestKeyUpdateForAuthFailures : Bool :=
  if c.suite.authFailureLimit = 0 then false
  else
    let margin := max (min (c.suite.authFailureLimit / 4) 1024) 1
    c.suite.authFailureLimit - margin ≤ c.authFailures

def nonce (sequence : Nat) : Bytes := nonceInto c.iv sequence

/-- The header length of records with 16-bit sequence number and length. -/
def headerLen16 : Nat := 5 + c.connectionID.length

/-! ## Sealing -/

def sealCheck (contentType : UInt8) (contentLen : Nat) : Except Err Unit :=
  if maxSendingEpoch < c.epoch then
    .error (.protocolError "sending epoch exceeds 2^48-1")
  else if 2 ^ 48 ≤ c.nextSequence then
    .error (.protocolError "record sequence number exhausted")
  else if c.suite.recordLimit ≤ c.nextSequence then
    .error (.protocolError "AEAD record usage limit reached; KeyUpdate required")
  else if !validInnerContentType contentType then
    .error (.protocolError "invalid protected content type")
  else if contentLen == 0 &&
      (contentType == recordTypeHandshake || contentType == recordTypeAlert) then
    .error (.protocolError "zero-length protected Handshake or Alert content")
  else if maxRecordContent < contentLen ||
      (c.plaintextLimit != 0 && c.plaintextLimit ≤ contentLen) then
    .error (.protocolError "protected record content exceeds record_size_limit")
  else if maxCiphertextLen < contentLen + 1 + c.suite.overhead then
    .error (.protocolError "protected record is too large")
  else .ok ()

def headerFirst (sequence16 lengthPresent : Bool) : UInt8 :=
  0x20 ||| UInt8.ofNat (c.epoch % 4) ||| (if c.hasConnectionID then 0x10 else 0) |||
    (if sequence16 then 0x08 else 0) ||| (if lengthPresent then 0x04 else 0)

/-- The connection-ID part of the header. Its room is reserved by the length of
the ID alone; the ID is written only when one was negotiated. -/
def headerCID : Bytes :=
  if c.hasConnectionID then c.connectionID else List.replicate c.connectionID.length 0

/-- Bytes of the truncated sequence number. -/
def sequenceWidth (sequence16 : Bool) : Nat := if sequence16 then 2 else 1

def lengthField (lengthPresent : Bool) (ciphertextLen : Nat) : Bytes :=
  if lengthPresent then beBytes 2 ciphertextLen else []

def unifiedHeader (sequence ciphertextLen : Nat) (sequence16 lengthPresent : Bool) : Bytes :=
  c.headerFirst sequence16 lengthPresent :: c.headerCID ++
    beBytes (sequenceWidth sequence16) sequence ++ lengthField lengthPresent ciphertextLen

/-- The AEAD call of sealing, with the unmasked header as additional data. -/
def sealedText (contentType : UInt8) (content : Bytes) (sequence16 lengthPresent : Bool) : Bytes :=
  P.aeadSeal c.suite c.key (c.nonce c.nextSequence) (content ++ [contentType])
    (c.unifiedHeader c.nextSequence (content.length + 1 + c.suite.overhead)
      sequence16 lengthPresent)

/-- The sequence-number mask, taken from the ciphertext. -/
def sealedMask (contentType : UInt8) (content : Bytes) (sequence16 lengthPresent : Bool) :
    UInt8 × UInt8 :=
  sequenceMask P c.suite c.sn
    ((c.sealedText P contentType content sequence16 lengthPresent).take
      sequenceProtectionSampleSize)

/-- The record for a content that passed `sealCheck`. -/
def protect (contentType : UInt8) (content : Bytes) (sequence16 lengthPresent : Bool) :
    SealedRecord where
  epoch := c.epoch
  sequence := c.nextSequence
  key := c.key
  nonce := c.nonce c.nextSequence
  contentType := contentType
  content := content
  packet :=
    maskHeader (c.sealedMask P contentType content sequence16 lengthPresent)
      (1 + c.connectionID.length) (sequenceWidth sequence16)
      (c.unifiedHeader c.nextSequence (content.length + 1 + c.suite.overhead)
        sequence16 lengthPresent) ++
    c.sealedText P contentType content sequence16 lengthPresent

def sealWithHeader (contentType : UInt8) (content : Bytes) (sequence16 lengthPresent : Bool) :
    Except Err SealedRecord × RecordCipher :=
  match c.sealCheck contentType content.length with
  | .error err => (.error err, c)
  | .ok () =>
    (.ok (c.protect P contentType content sequence16 lengthPresent),
      { c with nextSequence := c.nextSequence + 1 })

/-! ## Opening -/

/-- Where the parts of a received record are. -/
structure RecordLayout where
  matchedCID : Bytes
  sequenceBytes : Nat
  headerLen : Nat
  length : Nat
  deriving DecidableEq, Repr

def RecordLayout.sequenceOffset (layout : RecordLayout) : Nat := 1 + layout.matchedCID.length

def matchesUnifiedEpoch (first : UInt8) : Bool :=
  first &&& 0xe0 == 0x20 && (first &&& 0x03).toNat == c.epoch % 4

/-- The length checks, once the connection ID is known. A record without length
field extends to the end of the datagram. -/
def measureRecord (datagram matchedCID : Bytes) : Except Err RecordLayout :=
  let first := datagram.headD 0
  let sequenceBytes := sequenceWidth (first &&& 0x08 != 0)
  let lengthOffset := 1 + matchedCID.length + sequenceBytes
  let headerLen := lengthOffset + (if first &&& 0x04 != 0 then 2 else 0)
  let n := if first &&& 0x04 != 0 then beNat ((datagram.drop lengthOffset).take 2)
    else datagram.length - headerLen
  if datagram.length < headerLen then
    .error (alertError alertDecodeError (.protocolError "truncated unified record header"))
  else if n < c.suite.overhead + 1 || maxCiphertextLen < n || datagram.length < headerLen + n then
    .error (.protocolError "invalid protected record length")
  else if n < sequenceProtectionSampleSize then
    .error (.protocolError "ciphertext too short for sequence protection")
  else .ok ⟨matchedCID, sequenceBytes, headerLen, n⟩

/-- The checks made on a datagram before any cryptography. -/
def locateRecord (datagram : Bytes) : Except Err RecordLayout :=
  if datagram.length < 2 then
    .error (alertError alertDecodeError (.protocolError "truncated unified record header"))
  else
    let first := datagram.headD 0
    if first &&& 0xe0 != 0x20 then .error (.protocolError "unsupported unified record header")
    else if !c.matchesUnifiedEpoch first then
      .error (.protocolError "record epoch does not match cipher epoch")
    else if (first &&& 0x10 != 0) != c.hasConnectionID then
      .error (.protocolError "record connection ID presence does not match epoch")
    else if first &&& 0x10 != 0 then
      match c.matchConnectionID datagram.tail with
      | none => .error (.protocolError "record connection ID does not match")
      | some matchedCID => c.measureRecord datagram matchedCID
    else c.measureRecord datagram []

/-- Splits an authenticated inner plaintext into content and type, dropping the
zero padding after the type. -/
def innerPlaintext (plain : Bytes) : Except Err (Bytes × UInt8) :=
  if maxRecordContent + 1 < plain.length ||
      (c.plaintextLimit != 0 && c.plaintextLimit < plain.length) then
    .error (authenticatedRecordAlert alertRecordOverflow
      (.protocolError "DTLSInnerPlaintext exceeds record_size_limit"))
  else match plain.reverse.dropWhile (· == 0) with
    | [] => .error (authenticatedRecordAlert 0
        (.protocolError "protected record has no inner content type"))
    | contentType :: reversed =>
      if !validInnerContentType contentType then
        .error (authenticatedRecordAlert 0 (.protocolError "invalid inner content type"))
      else if reversed.isEmpty &&
          (contentType == recordTypeHandshake || contentType == recordTypeAlert) then
        .error (authenticatedRecordAlert alertUnexpectedMessage
          (.protocolError "zero-length protected Handshake or Alert content"))
      else .ok (reversed.reverse, contentType)

/-- A record that authenticated and decoded, before replay protection. -/
structure DecodedRecord where
  sequence : Nat
  matchedCID : Bytes
  opened : OpenedRecord
  deriving DecidableEq, Repr

/-- The outcome of the part of opening that reads the cipher and changes nothing. -/
inductive Decoding where
  | rejected (err : Err)
  | unauthentic
  | decoded (record : DecodedRecord)
  deriving DecidableEq, Repr

def decodeRecord (datagram : Bytes) : Decoding :=
  match c.locateRecord datagram with
  | .error err => .rejected err
  | .ok layout =>
    let ciphertext := (datagram.drop layout.headerLen).take layout.length
    let mask := sequenceMask P c.suite c.sn (ciphertext.take sequenceProtectionSampleSize)
    let header := maskHeader mask layout.sequenceOffset layout.sequenceBytes
      (datagram.take layout.headerLen)
    let truncated := beNat ((header.drop layout.sequenceOffset).take layout.sequenceBytes)
    let sequence := reconstructSequence c.replay.nextExpected truncated
      (8 * layout.sequenceBytes)
    if 2 ^ 48 ≤ sequence then
      .rejected (.protocolError "invalid protected record sequence number")
    else match P.aeadOpen c.suite c.key (c.nonce sequence) ciphertext header with
      | none => .unauthentic
      | some plain =>
        match c.innerPlaintext plain with
        | .error err => .rejected err
        | .ok (content, contentType) =>
          .decoded ⟨sequence, layout.matchedCID,
            ⟨content, contentType, layout.headerLen + layout.length⟩⟩

/-- The failure counter saturates. -/
def countAuthFailure : RecordCipher :=
  { c with authFailures :=
      if c.authFailures < 2 ^ 64 - 1 then c.authFailures + 1 else c.authFailures }

/-- The state after a record was accepted. -/
def commit (record : DecodedRecord) : RecordCipher :=
  { c with
    replay := c.replay.accept record.sequence
    lastOpened := record.sequence
    lastConnectionID := if c.hasConnectionID then record.matchedCID else c.lastConnectionID }

/-- Opens the first record of a datagram. Only a failed authentication counts,
and only an accepted record moves the replay window. -/
def openRecord (datagram : Bytes) : Except Err OpenedRecord × RecordCipher :=
  match c.decodeRecord P datagram with
  | .rejected err => (.error err, c)
  | .unauthentic =>
    if c.suite.authFailureLimit ≤ c.countAuthFailure.authFailures then
      (.error .aeadAuthenticationFailureLimit, c.countAuthFailure)
    else
      (.error (.protocolError "protected record authentication failed"), c.countAuthFailure)
  | .decoded record =>
    if !c.replay.check record.sequence then
      (.error (.protocolError "duplicate or stale protected record"), c)
    else (.ok record.opened, c.commit record)

/-! ## What sealing and opening can do -/

variable {P c}

theorem headerFirst_bits (sequence16 lengthPresent : Bool) :
    let first := c.headerFirst sequence16 lengthPresent
    first &&& 0xe0 = 0x20 ∧ (first &&& 0x03).toNat = c.epoch % 4 ∧
      (first &&& 0x10 != 0) = c.hasConnectionID ∧ (first &&& 0x08 != 0) = sequence16 ∧
      (first &&& 0x04 != 0) = lengthPresent := by
  have hall : ∀ (bits : Fin 4) (cid seq len : Bool),
      let first := 0x20 ||| UInt8.ofNat bits.val ||| (if cid then 0x10 else 0) |||
        (if seq then 0x08 else 0) ||| (if len then 0x04 else 0)
      first &&& 0xe0 = 0x20 ∧ (first &&& 0x03).toNat = bits.val ∧
        (first &&& 0x10 != 0) = cid ∧ (first &&& 0x08 != 0) = seq ∧
        (first &&& 0x04 != 0) = len := by
    decide
  exact hall ⟨c.epoch % 4, Nat.mod_lt _ (by decide)⟩ c.hasConnectionID sequence16 lengthPresent

/-- The first byte of a record is outside the mask. -/
theorem protect_packet_head (contentType : UInt8) (content : Bytes)
    (sequence16 lengthPresent : Bool) :
    (c.protect P contentType content sequence16 lengthPresent).packet.headD 0 =
      c.headerFirst sequence16 lengthPresent := by
  simp [protect, maskHeader, unifiedHeader, Nat.add_comm 1]

/-- The contents a cipher seals. -/
structure Sealable (c : RecordCipher) (contentType : UInt8) (contentLen : Nat) : Prop where
  epoch_le : c.epoch ≤ maxSendingEpoch
  sequence_lt : c.nextSequence < 2 ^ 48
  below_limit : c.nextSequence < c.suite.recordLimit
  valid_type : validInnerContentType contentType = true
  nonempty : contentLen = 0 → contentType ≠ recordTypeHandshake ∧ contentType ≠ recordTypeAlert
  content_le : contentLen ≤ maxRecordContent
  within_limit : c.plaintextLimit ≠ 0 → contentLen < c.plaintextLimit

theorem sealCheck_eq_ok_iff {contentType : UInt8} {contentLen : Nat} :
    c.sealCheck contentType contentLen = .ok () ↔ c.Sealable contentType contentLen := by
  unfold sealCheck
  constructor
  · intro hcheck
    split_ifs at hcheck with hepoch hsequence hlimit htype hzero hlength hlarge
    simp only [Bool.or_eq_true, Bool.and_eq_true, decide_eq_true_eq, not_or, not_lt, not_and,
      bne_iff_ne, ne_eq, beq_iff_eq, Bool.not_eq_true', Bool.not_eq_false, not_le] at *
    exact ⟨hepoch, hsequence, hlimit, htype, hzero, hlength.1, hlength.2⟩
  · intro hsealable
    have hzero : ¬(contentLen == 0 &&
        (contentType == recordTypeHandshake || contentType == recordTypeAlert)) = true := by
      simpa using hsealable.nonempty
    have hlength : ¬(decide (maxRecordContent < contentLen) ||
        (c.plaintextLimit != 0 && decide (c.plaintextLimit ≤ contentLen))) = true := by
      simpa using ⟨hsealable.content_le, hsealable.within_limit⟩
    have hlarge : ¬maxCiphertextLen < contentLen + 1 + c.suite.overhead := by
      have hle := hsealable.content_le
      simp only [maxRecordContent, maxCiphertextLen, CipherSuite.overhead] at hle ⊢
      omega
    rw [if_neg hsealable.epoch_le.not_gt, if_neg hsealable.sequence_lt.not_ge,
      if_neg hsealable.below_limit.not_ge, if_neg (by simp [hsealable.valid_type]), if_neg hzero,
      if_neg hlength, if_neg hlarge]

variable {next : RecordCipher}

theorem sealWithHeader_ok {contentType : UInt8} {content : Bytes} {sequence16 lengthPresent : Bool}
    {record : SealedRecord}
    (hseal : c.sealWithHeader P contentType content sequence16 lengthPresent = (.ok record, next)) :
    c.sealCheck contentType content.length = .ok () ∧
      record = c.protect P contentType content sequence16 lengthPresent ∧
      next = { c with nextSequence := c.nextSequence + 1 } := by
  unfold sealWithHeader at hseal
  cases hcheck : c.sealCheck contentType content.length with
  | error err => simp [hcheck] at hseal
  | ok checked =>
    simp only [hcheck, Prod.mk.injEq, Except.ok.injEq] at hseal
    exact ⟨rfl, hseal.1.symm, hseal.2.symm⟩

theorem openRecord_of_decoded {datagram : Bytes} {record : DecodedRecord}
    (hdecode : c.decodeRecord P datagram = .decoded record)
    (hcheck : c.replay.check record.sequence = true) :
    c.openRecord P datagram = (.ok record.opened, c.commit record) := by
  simp [openRecord, hdecode, hcheck]

/-- Opening succeeds only by accepting a decoded record. -/
theorem openRecord_ok {datagram : Bytes} {opened : OpenedRecord}
    (hopen : c.openRecord P datagram = (.ok opened, next)) :
    ∃ record, c.decodeRecord P datagram = .decoded record ∧
      c.replay.check record.sequence = true ∧ opened = record.opened ∧
      next = c.commit record := by
  unfold openRecord at hopen
  cases hdecode : c.decodeRecord P datagram with
  | rejected err => simp [hdecode] at hopen
  | unauthentic =>
    simp only [hdecode] at hopen
    split at hopen <;> simp at hopen
  | decoded record =>
    simp only [hdecode] at hopen
    cases hcheck : c.replay.check record.sequence with
    | false => simp [hcheck] at hopen
    | true =>
      simp only [hcheck, Bool.not_true, Bool.false_eq_true, if_false, Prod.mk.injEq,
        Except.ok.injEq] at hopen
      exact ⟨record, rfl, hcheck, hopen.1.symm, hopen.2.symm⟩

/-- A failing call changes at most the failure counter, and that only when the
AEAD rejected the record. -/
theorem openRecord_error {datagram : Bytes} {err : Err}
    (hopen : c.openRecord P datagram = (.error err, next)) :
    next = c ∨ (c.decodeRecord P datagram = .unauthentic ∧ next = c.countAuthFailure) := by
  unfold openRecord at hopen
  cases hdecode : c.decodeRecord P datagram with
  | rejected cause =>
    simp only [hdecode, Prod.mk.injEq] at hopen
    exact .inl hopen.2.symm
  | unauthentic =>
    simp only [hdecode] at hopen
    split at hopen <;> exact .inr ⟨rfl, (Prod.mk.inj hopen).2.symm⟩
  | decoded record =>
    simp only [hdecode] at hopen
    split at hopen
    · exact .inl (Prod.mk.inj hopen).2.symm
    · simp at hopen

end RecordCipher

/-- A cipher to evaluate the model with. -/
def sampleCipher : RecordCipher := newRecordCipher .checksum .aes128GcmSha256 [1] 3 64

end Dtls13
