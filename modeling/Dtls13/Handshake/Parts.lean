import Dtls13.Handshake.Flight

/-! # Parts of messages

What a flight puts on the wire, in terms of its messages: every record carries a
part of one message, however the messages are cut up and however often the flight
is rebuilt. Sending and acknowledging only change flags.
-/

namespace Dtls13

open ByteCodec List

/-! ## Numbered messages -/

theorem mem_numberMessages {first : Nat} {bodies : List (UInt8 × Bytes)} {m : HandshakeMessage}
    (hm : m ∈ numberMessages first bodies) :
    first ≤ m.sequence ∧ m.sequence < first + bodies.length ∧ (m.typ, m.body) ∈ bodies := by
  induction bodies generalizing first with
  | nil => simp [numberMessages] at hm
  | cons body rest ih =>
    rw [numberMessages, mem_cons] at hm
    rcases hm with rfl | hrest
    · exact ⟨le_rfl, by simp, mem_cons_self⟩
    · obtain ⟨hfirst, hlast, hbody⟩ := ih hrest
      rw [length_cons]
      exact ⟨by omega, by omega, mem_cons_of_mem _ hbody⟩

theorem pairwise_numberMessages (first : Nat) (bodies : List (UInt8 × Bytes)) :
    (numberMessages first bodies).Pairwise (·.sequence < ·.sequence) := by
  induction bodies generalizing first with
  | nil => exact .nil
  | cons body rest ih =>
    refine pairwise_cons.mpr ⟨fun m hm => ?_, ih (first + 1)⟩
    exact (mem_numberMessages hm).1

/-! ## Parts -/

/-- The fragment is a stretch of the message. -/
structure HandshakeMessage.IsPart (m : HandshakeMessage) (f : HandshakeFragment) : Prop where
  typ : f.typ = m.typ
  sequence : f.messageSequence = m.sequence
  length : f.length = m.body.length
  within : f.offset + f.body.length ≤ f.length
  body : f.body = (m.body.drop f.offset).take f.body.length

theorem isPart_of_mem_fragments {m : HandshakeMessage} {f : HandshakeFragment} {maxFragment : Nat}
    (hf : f ∈ fragmentHandshakeMessage m maxFragment) : m.IsPart f := by
  unfold fragmentHandshakeMessage at hf
  dsimp only at hf
  split_ifs at hf with hempty
  · obtain rfl := mem_singleton.mp hf
    exact ⟨rfl, rfl, hempty.symm, le_rfl, by simp⟩
  · obtain ⟨index, hindex, rfl⟩ := mem_map.mp hf
    have hcount := mem_range.mp hindex
    have hstart : index * maxFragment ≤ m.body.length := by
      have hpos : 0 < maxFragment := by
        by_contra hzero
        simp [Nat.eq_zero_of_not_pos hzero] at hcount
      have hmul := Nat.mul_le_of_le_div _ _ _ hcount
      rw [Nat.succ_mul] at hmul
      omega
    refine ⟨rfl, rfl, rfl, ?_, ?_⟩
    · simp only [length_take, length_drop]
      omega
    · simp

/-- The record carries a part of one of the messages. -/
def CarriesPartOf (messages : List HandshakeMessage) (record : SealedRecord) : Prop :=
  record.contentType = recordTypeHandshake ∧ ∃ m ∈ messages, ∃ f, m.IsPart f ∧
    record.content = f.putHandshakeFragment

namespace CipherStore

variable {P : Primitives} {store : CipherStore}

theorem admitsMessages_carriesPartOf (messages : List HandshakeMessage) :
    AdmitsMessages (CarriesPartOf messages) messages := by
  intro maxFragment record htype fragment hfragment hcontent
  obtain ⟨m, hm, hf⟩ := mem_flatMap.mp hfragment
  exact ⟨htype, m, hm, fragment, isPart_of_mem_fragments hf, hcontent⟩

/-- Every record of a flight was logged by its cipher and carries a part. -/
theorem Holds.carries {f : Flight} (hholds : Holds store f) {record : FlightRecord}
    (hrecord : record ∈ f.records) :
    record.wire ∈ store.log ∧ record.wire.epoch = (store.read f.cipher).epoch ∧
      CarriesPartOf f.messages record.wire := by
  obtain ⟨maxFragment, hcut⟩ := hholds.cut
  obtain ⟨fragment, hfragment, hcarries⟩ := exists_of_forall₂ hholds.carried.flip hrecord
  exact ⟨hcarries.mem, hcarries.epoch, admitsMessages_carriesPartOf f.messages maxFragment _
    hcarries.contentType_eq _ (hcut ▸ hfragment) hcarries.content_eq⟩

end CipherStore

/-! ## Flags -/

namespace Flight

def wires (f : Flight) : List SealedRecord := f.records.map (·.wire)

/-- The flight with other flags. -/
structure Reflagged (f g : Flight) : Prop where
  wires : g.wires = f.wires
  fragments : g.fragments = f.fragments
  messages : g.messages = f.messages
  cipher : g.cipher = f.cipher

theorem Reflagged.holds {f g : Flight} {store : CipherStore} (hflags : Reflagged f g)
    (hholds : CipherStore.Holds store f) : CipherStore.Holds store g := by
  refine ⟨hflags.cipher ▸ hholds.cipher_lt, ?_, ?_, hflags.fragments ▸ hholds.valid⟩
  · have hcarried : List.Forall₂ (CipherStore.Carries store f.cipher) f.wires f.fragments :=
      forall₂_map_left_iff.mpr hholds.carried
    rw [← hflags.wires, ← hflags.fragments, ← hflags.cipher] at hcarried
    exact forall₂_map_left_iff.mp hcarried
  · rw [hflags.fragments, hflags.messages]
    exact hholds.cut

theorem takeUnsent_wires (capacity : Nat) (records : List FlightRecord) :
    (takeUnsent capacity records).1.map (·.wire) = records.map (·.wire) ∧
      ∀ w ∈ (takeUnsent capacity records).2, w ∈ records.map (·.wire) := by
  constructor
  · have hmarked := forall₂_takeUnsent capacity records
    generalize (takeUnsent capacity records).1 = marked at hmarked ⊢
    induction hmarked with
    | nil => rfl
    | cons hfirst _ ih =>
      rw [map_cons, map_cons, ih]
      rcases hfirst with rfl | rfl <;> rfl
  · rw [takeUnsent_returned]
    intro w hw
    obtain ⟨r, hr, rfl⟩ := mem_map.mp hw
    exact mem_map_of_mem (mem_of_mem_filter (mem_of_mem_take hr))

theorem reflagged_nextUnsentWire (f : Flight) : Reflagged f f.nextUnsentWire.1 :=
  ⟨(takeUnsent_wires _ f.records).1, rfl, rfl, rfl⟩

theorem nextUnsentWire_subset (f : Flight) : ∀ w ∈ f.nextUnsentWire.2, w ∈ f.wires :=
  (takeUnsent_wires _ f.records).2

theorem retransmitWire_subset (f : Flight) (maxRecords : Nat) :
    ∀ w ∈ f.retransmitWire maxRecords, w ∈ f.wires := by
  intro w hw
  obtain ⟨record, hrecord, rfl⟩ := mem_map.mp hw
  exact mem_map_of_mem (mem_of_mem_filter (mem_of_mem_take hrecord))

end Flight

end Dtls13
