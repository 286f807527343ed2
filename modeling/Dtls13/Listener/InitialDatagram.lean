import Dtls13.Handshake.Codecs
import Dtls13.Listener.State

/-! # The filter for initial datagrams

The listener looks at a datagram from an unknown peer before it spends a session on
it. The filter reads the headers itself, and accepts what the parsers of records and
fragments would read as the start of a ClientHello.
-/

namespace Dtls13

open ByteCodec HandshakeFragment List

/-- A part of a byte string, `none` if it is not within the string. -/
def readBytes (b : Bytes) (start count : Nat) : Option Bytes :=
  if start + count ≤ b.length then some ((b.drop start).take count) else none

def readNat (b : Bytes) (start width : Nat) : Option Nat := (readBytes b start width).map beNat

/-- `isInitialClientHelloDatagram` with checked reads and signed lengths; `none` is a read
out of range. -/
def checkInitialClientHello (datagram : Bytes) (maxMessage : Int) : Option Bool := do
  if datagram.length < plainRecordHeaderLen then return false
  let typ ← datagram[0]?
  let epoch ← readNat datagram 3 2
  if typ != recordTypeHandshake || epoch != 0 then return false
  let recordLength ← readNat datagram 11 2
  if recordLength < 12 || 2 ^ 14 < recordLength ||
      datagram.length < plainRecordHeaderLen + recordLength then return false
  let fragment ← readBytes datagram plainRecordHeaderLen recordLength
  let fragmentType ← fragment[0]?
  let messageLength ← readNat fragment 1 3
  let messageSequence ← readNat fragment 4 2
  let fragmentOffset ← readNat fragment 6 3
  let fragmentLength ← readNat fragment 9 3
  return fragmentType == handshakeTypeClientHello && messageSequence == 0 && 0 < messageLength &&
    messageLength ≤ maxMessage && 0 < fragmentLength &&
    (fragmentOffset : Int) ≤ messageLength - fragmentLength && 12 + fragmentLength ≤ fragment.length

theorem readNat_eq {b : Bytes} {start width : Nat} (hfits : start + width ≤ b.length) :
    readNat b start width = some (beNat ((b.drop start).take width)) := by
  rw [readNat, readBytes, if_pos hfits]
  rfl

theorem getElem?_zero_eq {b : Bytes} (hb : 0 < b.length) : b[0]? = some (b.headD 0) := by
  cases b with
  | nil => simp at hb
  | cons first rest => rfl

/-- Every read is in range, and the signed comparisons are the ones of the filter. -/
theorem checkInitialClientHello_eq (datagram : Bytes) (maxMessage : Int) :
    checkInitialClientHello datagram maxMessage =
      some (isInitialClientHelloDatagram datagram maxMessage.toNat) := by
  unfold checkInitialClientHello isInitialClientHelloDatagram
  by_cases hshort : datagram.length < plainRecordHeaderLen
  · simp [hshort]
  have hlong : 13 ≤ datagram.length := Nat.not_lt.mp hshort
  rw [if_neg hshort, getElem?_zero_eq (by omega), readNat_eq (by omega), readNat_eq (by omega)]
  simp only [Option.bind_eq_bind, Option.bind_some, decide_eq_false hshort, Bool.false_or]
  generalize beNat ((datagram.drop 11).take 2) = recordLength
  split_ifs with hhead hbounds
  · rfl
  · rfl
  simp only [Bool.or_eq_true, decide_eq_true_eq, not_or, not_lt] at hbounds
  have hlength :
      ((datagram.drop plainRecordHeaderLen).take recordLength).length = recordLength := by
    rw [length_take, length_drop]
    omega
  rw [readBytes, if_pos hbounds.2]
  generalize (datagram.drop plainRecordHeaderLen).take recordLength = fragment at hlength ⊢
  simp only [Option.bind_some]
  rw [getElem?_zero_eq (by omega), readNat_eq (by omega), readNat_eq (by omega),
    readNat_eq (by omega), readNat_eq (by omega)]
  refine congrArg some (Bool.eq_iff_iff.mpr ?_)
  simp only [Bool.and_eq_true, decide_eq_true_eq]
  constructor
  · rintro ⟨⟨⟨⟨hfirst, hlimit⟩, hsome⟩, hwithin⟩, hend⟩
    exact ⟨⟨⟨⟨hfirst, by omega⟩, hsome⟩, by omega⟩, hend⟩
  · rintro ⟨⟨⟨⟨hfirst, hlimit⟩, hsome⟩, hwithin⟩, hend⟩
    exact ⟨⟨⟨⟨hfirst, by omega⟩, hsome⟩, by omega⟩, hend⟩

/-- The header and the body at the front of a record's content are a fragment on their own. -/
theorem parseHandshakeFragments_take {payload : Bytes} {f : HandshakeFragment} :
    parseHandshakeFragments (payload.take (12 + beNat ((payload.drop 9).take 3))) = .ok [f] ↔
      ∃ rest, parseHandshakeFragment payload = .ok (f, rest) := by
  rw [parseHandshakeFragments_eq_ok_iff]
  constructor
  · rintro ⟨e, _, he, htake, rfl⟩
    obtain ⟨hvalid, rfl⟩ := encodes_iff.mp he
    rw [append_nil] at htake
    rw [← take_append_drop (12 + beNat ((payload.drop 9).take 3)) payload, htake]
    exact ⟨_, parseHandshakeFragment_append hvalid _⟩
  · rintro ⟨rest, hok⟩
    obtain ⟨hvalid, rfl⟩ := eq_append_of_parseHandshakeFragment hok
    have hwithin := hvalid.within
    have hlengthLt := hvalid.length_lt
    have hcount : beNat (((f.putHandshakeFragment ++ rest).drop 9).take 3) = f.body.length :=
      beNat_beBytes 3 (by omega)
    have hput := f.putHandshakeFragment_length
    rw [handshakeHeaderLen] at hput
    rw [hcount, ← hput, take_left]
    exact ⟨_, [], encodes_iff.mpr ⟨hvalid, rfl⟩, (append_nil _).symm, rfl⟩

/-- What a record and the fragment at its front are, for the filter to accept them. -/
structure StartsClientHello (maxMessage : Int) (r : PlainRecord) (f : HandshakeFragment) :
    Prop where
  handshake : r.typ = recordTypeHandshake
  epoch : r.epoch = 0
  clientHello : f.typ = handshakeTypeClientHello
  first : f.messageSequence = 0
  positive : 1 ≤ f.length
  within : f.length ≤ maxMessage
  body : f.body ≠ []

theorem isInitialClientHelloDatagram_iff {datagram : Bytes} {maxMessage : Int} :
    isInitialClientHelloDatagram datagram maxMessage.toNat = true ↔
      ∃ r consumed f rest, parsePlainRecordView datagram = .ok (r, consumed) ∧
        parseHandshakeFragment r.payload = .ok (f, rest) ∧ StartsClientHello maxMessage r f := by
  simp only [isInitialClientHelloDatagram, Bool.if_false_left, Bool.and_eq_true, Bool.or_eq_true,
    Bool.not_eq_true', decide_eq_true_eq, decide_eq_false_iff_not, bne_iff_ne, beq_iff_eq, not_or,
    not_lt, not_not]
  simp only [plainRecordHeaderLen, length_take, length_drop]
  constructor
  · rintro ⟨⟨⟨hlong, htyp⟩, hepoch⟩, ⟨⟨hheader, hmax⟩, hrecord⟩,
      ⟨⟨⟨⟨⟨hclient, hfirst⟩, hpositive⟩, hlimit⟩, hsome⟩, hwithin⟩, hend⟩
    refine ⟨_, _, _, _, parsePlainRecordView_eq_ok_iff.mpr ⟨⟨hlong, by rw [htyp]; rfl⟩,
      ⟨hmax, hrecord⟩, hepoch, rfl, rfl⟩, parseHandshakeFragment_eq_ok_iff.mpr
        ⟨?_, hwithin, ?_, rfl, rfl⟩, htyp, rfl, hclient, hfirst, hpositive, ?_, fun hnil => ?_⟩
    · simp only [length_take, length_drop]
      omega
    · simp only [length_take, length_drop]
      omega
    · simp only
      omega
    · have hempty := congrArg List.length hnil
      simp only [length_take, length_drop, length_nil] at hempty
      omega
  · rintro ⟨r, consumed, f, rest, hview, hfragment, hstarts⟩
    obtain ⟨⟨hlong, -⟩, ⟨hmax, hrecord⟩, hepoch, rfl, rfl⟩ :=
      parsePlainRecordView_eq_ok_iff.mp hview
    obtain ⟨hheader, hwithin, hend, rfl, rfl⟩ := parseHandshakeFragment_eq_ok_iff.mp hfragment
    obtain ⟨htyp, -, hclient, hfirst, hpositive, hlimit, hbody⟩ := hstarts
    simp only [length_take, length_drop] at hpositive hlimit hheader hend
    refine ⟨⟨⟨hlong, htyp⟩, hepoch⟩, ⟨⟨by omega, hmax⟩, hrecord⟩,
      ⟨⟨⟨⟨⟨hclient, hfirst⟩, hpositive⟩, by omega⟩, ?_⟩, hwithin⟩, by omega⟩
    refine Nat.pos_of_ne_zero fun hzero => hbody ?_
    simp only [hzero, take_zero]

/-- No datagram makes the filter read out of range, and it accepts exactly those whose
first record starts with a fragment of a ClientHello, as the parsers see it. -/
theorem initialDatagram_filter_exact (datagram : Bytes) (maxMessage : Int) :
    ∃ accepted, checkInitialClientHello datagram maxMessage = some accepted ∧
      accepted = isInitialClientHelloDatagram datagram maxMessage.toNat ∧
      (accepted = true ↔ ∃ r consumed f, parsePlainRecordView datagram = .ok (r, consumed) ∧
        parseHandshakeFragments (r.payload.take (12 + beNat ((r.payload.drop 9).take 3))) =
          .ok [f] ∧ StartsClientHello maxMessage r f) := by
  refine ⟨_, checkInitialClientHello_eq datagram maxMessage, rfl, ?_⟩
  rw [isInitialClientHelloDatagram_iff]
  simp only [parseHandshakeFragments_take, exists_and_left, exists_and_right]

end Dtls13
