import Dtls13.Lib.Framing
import Dtls13.Record.Cipher

/-! # Plaintext records

Records of epoch 0 with their thirteen-byte header. A datagram may hold several of
them; what follows the first is parsed on its own.
-/

namespace Dtls13

open ByteCodec Framing StateLogic List

def dtlsLegacyVersion : Nat := 0xfefd
def plainRecordHeaderLen : Nat := 13

def validPlainContentType (contentType : UInt8) : Bool :=
  contentType == recordTypeAlert || contentType == recordTypeHandshake ||
    contentType == recordTypeACK

structure PlainRecord where
  typ : UInt8
  epoch : Nat
  sequence : Nat
  payload : Bytes
  deriving DecidableEq, Repr

/-- The header of a record, if the record can be written. -/
def allocatePlainRecordWire (typ : UInt8) (epoch sequence payloadLen : Nat) : Except Err Bytes :=
  if !validPlainContentType typ then
    .error (.protocolError "invalid DTLS 1.3 plaintext content type")
  else if epoch ≠ 0 then .error (.protocolError "DTLSPlaintext epoch must be zero")
  else if 2 ^ 48 ≤ sequence then .error (.protocolError "record sequence number exhausted")
  else if maxRecordContent < payloadLen then
    .error (.protocolError "record payload exceeds 2^14 bytes")
  else .ok ([typ] ++ beBytes 2 dtlsLegacyVersion ++ beBytes 2 epoch ++ beBytes 6 sequence ++
    beBytes 2 payloadLen)

def marshalPlainRecord (r : PlainRecord) : Except Err Bytes :=
  match allocatePlainRecordWire r.typ r.epoch r.sequence r.payload.length with
  | .error err => .error err
  | .ok header => .ok (header ++ r.payload)

/-- The record at the front of a datagram, and the bytes it takes. -/
def parsePlainRecordView (datagram : Bytes) : Except Err (PlainRecord × Nat) :=
  if datagram.length < plainRecordHeaderLen then
    .error (alertError alertDecodeError (.protocolError "truncated record header"))
  else if !validPlainContentType (datagram.headD 0) then
    .error (.protocolError "invalid DTLS 1.3 plaintext content type")
  else
    let n := beNat ((datagram.drop 11).take 2)
    if maxRecordContent < n || datagram.length < plainRecordHeaderLen + n then
      .error (alertError alertDecodeError (.protocolError "invalid record length"))
    else if beNat ((datagram.drop 3).take 2) ≠ 0 then
      .error (.protocolError "DTLSPlaintext epoch must be zero")
    else .ok (⟨datagram.headD 0, 0, beNat ((datagram.drop 5).take 6),
      (datagram.drop plainRecordHeaderLen).take n⟩, plainRecordHeaderLen + n)

/-- The loop over a datagram; each record takes at least a header. -/
def parsePlainRecordsLoop : Nat → Bytes → Except Err (List PlainRecord)
  | 0, _ => .ok []
  | fuel + 1, datagram =>
    if datagram = [] then .ok []
    else match parsePlainRecordView datagram with
      | .error err => .error err
      | .ok (r, consumed) =>
        match parsePlainRecordsLoop fuel (datagram.drop consumed) with
        | .error err => .error err
        | .ok others => .ok (r :: others)

def parsePlainRecordsView (datagram : Bytes) : Except Err (List PlainRecord) :=
  parsePlainRecordsLoop datagram.length datagram

/-- One round of the loop of `parsePlainRecordsMode`: a record, and what follows it. -/
def takePlainRecord (copyPayload : Bool) (datagram : Bytes) :
    Except Err (PlainRecord × Bytes) := do
  let (r, consumed) ← parsePlainRecordView datagram
  let payload := copyBytes (copyPayload && 0 < r.payload.length) r.payload
  pure ({ r with payload }, datagram.drop consumed)

/-- All records of a datagram, in the storage of `dst`. -/
def parsePlainRecordsMode (datagram : Bytes) (copyPayload : Bool) (dst : Slice PlainRecord) :
    Except Err (Slice PlainRecord) :=
  if datagram = [] then .ok Slice.nil
  else parseInto (takePlainRecord copyPayload) datagram.length datagram dst.truncate

/-! ## Round trip -/

/-- The bounds a record that can be written meets. -/
structure PlainRecord.Writable (r : PlainRecord) : Prop where
  typ : validPlainContentType r.typ = true
  epoch : r.epoch = 0
  sequence_lt : r.sequence < 2 ^ 48
  payload_le : r.payload.length ≤ maxRecordContent

/-- The bytes of a record. -/
def PlainRecord.put (r : PlainRecord) : Bytes :=
  [r.typ] ++ beBytes 2 dtlsLegacyVersion ++ beBytes 2 r.epoch ++ beBytes 6 r.sequence ++
    beBytes 2 r.payload.length ++ r.payload

theorem marshalPlainRecord_eq_ok_iff {r : PlainRecord} {packet : Bytes} :
    marshalPlainRecord r = .ok packet ↔ r.Writable ∧ packet = r.put := by
  unfold marshalPlainRecord allocatePlainRecordWire
  constructor
  · intro hpacket
    split_ifs at hpacket with htyp hepoch hsequence hpayload
    exact ⟨⟨by simpa using htyp, not_not.mp hepoch, by omega, by omega⟩,
      (Except.ok.inj hpacket).symm⟩
  · rintro ⟨hwritable, rfl⟩
    rw [if_neg (by simp [hwritable.typ]), if_neg (not_not.mpr hwritable.epoch),
      if_neg (Nat.not_le.mpr hwritable.sequence_lt), if_neg (Nat.not_lt.mpr hwritable.payload_le)]
    rfl

theorem PlainRecord.put_length (r : PlainRecord) :
    r.put.length = plainRecordHeaderLen + r.payload.length := by
  simp [put, plainRecordHeaderLen]
  omega

/-! ## What is accepted -/

/-- An encoding of a record. The two version bytes may be any, since the parser does not
look at them. -/
def PlainRecord.Encodes (r : PlainRecord) (e : Bytes) : Prop :=
  ∃ packet version, marshalPlainRecord r = .ok packet ∧ version.length = 2 ∧
    e = packet.take 1 ++ version ++ packet.drop 3

theorem PlainRecord.Encodes.length {r : PlainRecord} {e : Bytes} (he : r.Encodes e) :
    e.length = plainRecordHeaderLen + r.payload.length := by
  obtain ⟨packet, version, hpacket, hversion, rfl⟩ := he
  obtain ⟨-, rfl⟩ := marshalPlainRecord_eq_ok_iff.mp hpacket
  simp only [length_append, length_take, length_drop, r.put_length, hversion, plainRecordHeaderLen]
  omega

theorem encodes_of_marshalPlainRecord {r : PlainRecord} {packet : Bytes}
    (hpacket : marshalPlainRecord r = .ok packet) : r.Encodes packet := by
  obtain ⟨-, rfl⟩ := marshalPlainRecord_eq_ok_iff.mp hpacket
  exact ⟨r.put, beBytes 2 dtlsLegacyVersion, hpacket, rfl, rfl⟩

/-- The checks on a header, and what is then read. -/
theorem parsePlainRecordView_eq_ok_iff {datagram : Bytes} {r : PlainRecord} {consumed : Nat} :
    parsePlainRecordView datagram = .ok (r, consumed) ↔
      (13 ≤ datagram.length ∧ validPlainContentType (datagram.headD 0) = true) ∧
      (beNat ((datagram.drop 11).take 2) ≤ maxRecordContent ∧
        13 + beNat ((datagram.drop 11).take 2) ≤ datagram.length) ∧
      beNat ((datagram.drop 3).take 2) = 0 ∧
      r = ⟨datagram.headD 0, 0, beNat ((datagram.drop 5).take 6),
        (datagram.drop 13).take (beNat ((datagram.drop 11).take 2))⟩ ∧
      consumed = 13 + beNat ((datagram.drop 11).take 2) := by
  unfold parsePlainRecordView plainRecordHeaderLen
  dsimp only
  split_ifs with hshort htyp hbounds hepoch
  · simp
    omega
  · simp_all
  · simp at hbounds ⊢
    omega
  · simp_all
  · simp only [Bool.or_eq_true, decide_eq_true_eq, not_or, not_lt, not_not, Bool.not_eq_true,
      Bool.not_eq_false'] at hshort htyp hbounds hepoch
    constructor
    · intro hok
      cases hok
      exact ⟨⟨hshort, htyp⟩, hbounds, hepoch, rfl, rfl⟩
    · rintro ⟨-, -, -, rfl, rfl⟩
      rfl

theorem parsePlainRecordView_append {r : PlainRecord} {e : Bytes} (he : r.Encodes e)
    (rest : Bytes) : parsePlainRecordView (e ++ rest) = .ok (r, e.length) := by
  have hlength := he.length
  obtain ⟨packet, version, hpacket, hversion, rfl⟩ := he
  obtain ⟨hwritable, rfl⟩ := marshalPlainRecord_eq_ok_iff.mp hpacket
  obtain ⟨high, low, rfl⟩ := length_eq_two.mp hversion
  have hpayload : r.payload.length ≤ 2 ^ 14 := hwritable.payload_le
  rw [hlength]
  generalize hdatagram : r.put.take 1 ++ [high, low] ++ r.put.drop 3 ++ rest = datagram
  have hn : beNat ((datagram.drop 11).take 2) = r.payload.length := by
    rw [← hdatagram]
    exact beNat_beBytes 2 (by omega)
  have hsequence : beNat ((datagram.drop 5).take 6) = r.sequence := by
    rw [← hdatagram]
    exact beNat_beBytes 6 hwritable.sequence_lt
  have hepoch : beNat ((datagram.drop 3).take 2) = r.epoch := by
    rw [← hdatagram]
    exact beNat_beBytes 2 (by rw [hwritable.epoch]; decide)
  have hrest : datagram.drop 13 = r.payload ++ rest := by
    rw [← hdatagram]
    rfl
  have hhead : datagram.headD 0 = r.typ := by
    rw [← hdatagram]
    rfl
  have hlong : 13 + r.payload.length ≤ datagram.length := by
    rw [← hdatagram, length_append, hlength, plainRecordHeaderLen]
    omega
  rw [parsePlainRecordView_eq_ok_iff, hn, hsequence, hepoch, hrest, hhead, take_left]
  refine ⟨⟨by omega, hwritable.typ⟩, ⟨hwritable.payload_le, hlong⟩, hwritable.epoch, ?_, rfl⟩
  rw [← hwritable.epoch]

theorem encodes_of_parsePlainRecordView {datagram : Bytes} {r : PlainRecord} {consumed : Nat}
    (hok : parsePlainRecordView datagram = .ok (r, consumed)) :
    ∃ e, r.Encodes e ∧ datagram = e ++ datagram.drop consumed := by
  obtain ⟨⟨hshort, htyp⟩, ⟨hn, hlong⟩, hepoch, rfl, rfl⟩ := parsePlainRecordView_eq_ok_iff.mp hok
  generalize hlength : beNat ((datagram.drop 11).take 2) = n at hn hlong ⊢
  have hpayload : ((datagram.drop 13).take n).length = n := by
    rw [length_take, length_drop]
    omega
  -- the fields of the header, one after the other
  have htype : datagram = [datagram.headD 0] ++ datagram.drop 1 := by
    cases datagram with
    | nil => simp at hshort
    | cons first rest => rfl
  have hversion := (take_append_drop 2 (datagram.drop 1)).symm
  have hzero := drop_eq_beBytes datagram 3 2 (by omega)
  have hsequence := drop_eq_beBytes datagram 5 6 (by omega)
  have hcount := drop_eq_beBytes datagram 11 2 (by omega)
  have hbody := (take_append_drop n (datagram.drop 13)).symm
  rw [drop_drop] at hversion hbody
  rw [hepoch] at hzero
  rw [hlength] at hcount
  refine ⟨[datagram.headD 0] ++ (datagram.drop 1).take 2 ++ (beBytes 2 0 ++
    beBytes 6 (beNat ((datagram.drop 5).take 6)) ++ beBytes 2 n ++ (datagram.drop 13).take n),
    ⟨_, (datagram.drop 1).take 2, marshalPlainRecord_eq_ok_iff.mpr ⟨⟨htyp, rfl, ?_,
      by rwa [hpayload]⟩, rfl⟩, ?_, ?_⟩, ?_⟩
  · exact lt_of_lt_of_le (beNat_lt _)
      (Nat.pow_le_pow_right (n := 256) (by decide) (length_take_le 6 _))
  · simp
    omega
  · simp [PlainRecord.put, hpayload]
  · conv_lhs => rw [htype, hversion, hzero, hsequence, hcount, hbody]
    simp

theorem exact_takePlainRecord (copyPayload : Bool) :
    Exact (takePlainRecord copyPayload) PlainRecord.Encodes where
  eq_ok_iff {datagram r rest} := by
    simp only [takePlainRecord, bind_eq_ok, Prod.exists, copyBytes_eq]
    constructor
    · rintro ⟨first, consumed, hok, hend⟩
      cases hend
      exact encodes_of_parsePlainRecordView hok
    · rintro ⟨e, he, rfl⟩
      refine ⟨r, e.length, parsePlainRecordView_append he rest, ?_⟩
      rw [drop_left]
      rfl
  ne_nil he hnil := by
    have hlength := he.length
    rw [hnil, plainRecordHeaderLen, length_nil] at hlength
    omega

theorem parsePlainRecordsLoop_eq (fuel : Nat) (datagram : Bytes) :
    parsePlainRecordsLoop fuel datagram = parseAll (takePlainRecord false) fuel datagram := by
  induction fuel generalizing datagram with
  | zero => rfl
  | succ fuel ih =>
    rw [parsePlainRecordsLoop, parseAll, takePlainRecord]
    cases parsePlainRecordView datagram with
    | error err => rfl
    | ok pair =>
      simp only [ih, ok_bind, copyBytes_eq, pure_bind]
      cases parseAll (takePlainRecord false) fuel (datagram.drop pair.2) <;> rfl

theorem parsePlainRecordsView_eq_ok_iff {datagram : Bytes} {records : List PlainRecord} :
    parsePlainRecordsView datagram = .ok records ↔
      Encoded PlainRecord.Encodes records datagram := by
  rw [parsePlainRecordsView, parsePlainRecordsLoop_eq]
  exact (exact_takePlainRecord false).parseAll_eq_ok_iff (Nat.le_refl _)

/-- A datagram that holds one record. -/
theorem parsePlainRecordsView_marshal {r : PlainRecord} {packet : Bytes}
    (hpacket : marshalPlainRecord r = .ok packet) : parsePlainRecordsView packet = .ok [r] :=
  parsePlainRecordsView_eq_ok_iff.mpr
    ⟨packet, [], encodes_of_marshalPlainRecord hpacket, (append_nil packet).symm, rfl⟩

end Dtls13
