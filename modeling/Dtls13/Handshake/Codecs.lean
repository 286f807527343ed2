import Dtls13.Handshake.Fragment
import Dtls13.Record.Plain

/-! # The plaintext codecs are exact

Records and handshake fragments are accepted if and only if they are encodings put
one after the other, however the results are stored.
-/

namespace Dtls13

open ByteCodec Framing HandshakeFragment

theorem parsePlainRecordsMode_eq (datagram : Bytes) (copyPayload : Bool) (dst : Slice PlainRecord) :
    (parsePlainRecordsMode datagram copyPayload dst).map Slice.value =
      parsePlainRecordsView datagram := by
  have hcopied : takePlainRecord copyPayload = takePlainRecord false := by
    funext b
    simp [takePlainRecord]
  rw [parsePlainRecordsView, parsePlainRecordsLoop_eq, parsePlainRecordsMode, hcopied]
  split
  next hnil =>
    rw [hnil]
    rfl
  next =>
    rw [map_value_parseInto]
    cases parseAll (takePlainRecord false) datagram.length datagram <;> rfl

theorem parseHandshakeFragmentsMode_eq (b : Bytes) (copyBody : Bool)
    (dst : Slice HandshakeFragment) : (parseHandshakeFragmentsMode b copyBody dst).map Slice.value =
      parseHandshakeFragments b := by
  have hcopied : takeHandshakeFragment copyBody = takeHandshakeFragment false := by
    funext b
    simp [takeHandshakeFragment]
  rw [parseHandshakeFragments, parseLoop_eq, parseHandshakeFragmentsMode, hcopied]
  split
  next hnil =>
    rw [hnil]
    rfl
  next =>
    rw [map_value_parseInto]
    cases parseAll (takeHandshakeFragment false) b.length b <;> rfl

/-- The records of a datagram are the first one and those of the rest. -/
theorem parsePlainRecordsView_cons {datagram : Bytes} {r : PlainRecord}
    {records : List PlainRecord} : parsePlainRecordsView datagram = .ok (r :: records) ↔
      ∃ consumed, parsePlainRecordView datagram = .ok (r, consumed) ∧
        parsePlainRecordsView (datagram.drop consumed) = .ok records := by
  rw [parsePlainRecordsView_eq_ok_iff]
  constructor
  · rintro ⟨e, rest, he, rfl, hrest⟩
    refine ⟨e.length, parsePlainRecordView_append he rest, ?_⟩
    rwa [List.drop_left, parsePlainRecordsView_eq_ok_iff]
  · rintro ⟨consumed, hfirst, hrest⟩
    obtain ⟨e, he, hdatagram⟩ := encodes_of_parsePlainRecordView hfirst
    exact ⟨e, _, he, hdatagram, parsePlainRecordsView_eq_ok_iff.mp hrest⟩

/-- Both parsers accept exactly the encodings, give back what was marshalled, and do so
in each of their forms. -/
theorem plaintext_codecs_exact : (∀ datagram records, parsePlainRecordsView datagram = .ok records ↔
      Encoded PlainRecord.Encodes records datagram) ∧
    (∀ b fragments, parseHandshakeFragments b = .ok fragments ↔
      Encoded HandshakeFragment.Encodes fragments b) ∧
    (∀ records packets,
      List.Forall₂ (fun r packet => marshalPlainRecord r = .ok packet) records packets →
        parsePlainRecordsView packets.flatten = .ok records) ∧
    (∀ fragments packets, List.Forall₂ HandshakeFragment.Encodes fragments packets →
      parseHandshakeFragments packets.flatten = .ok fragments) ∧
    (∀ datagram copyPayload dst, (parsePlainRecordsMode datagram copyPayload dst).map Slice.value =
        parsePlainRecordsView datagram) ∧
    (∀ b copyBody dst, (parseHandshakeFragmentsMode b copyBody dst).map Slice.value =
        parseHandshakeFragments b) ∧
    ∀ datagram r records, parsePlainRecordsView datagram = .ok (r :: records) ↔
      ∃ consumed, parsePlainRecordView datagram = .ok (r, consumed) ∧
        parsePlainRecordsView (datagram.drop consumed) = .ok records := by
  refine ⟨fun _ _ => parsePlainRecordsView_eq_ok_iff,
    fun _ _ => parseHandshakeFragments_eq_ok_iff, ?_, ?_,
    parsePlainRecordsMode_eq, parseHandshakeFragmentsMode_eq,
    fun _ _ _ => parsePlainRecordsView_cons⟩
  · intro records packets hall
    rw [parsePlainRecordsView_eq_ok_iff]
    exact encoded_flatten encodes_of_marshalPlainRecord hall
  · intro fragments packets hall
    rw [parseHandshakeFragments_eq_ok_iff]
    exact encoded_flatten id hall

end Dtls13
