import Dtls13.Handshake.Outgoing
import Dtls13.Lib.Renumbering

/-! # Selective retransmission

Whatever is sent, acknowledged, rebuilt and resized, a record number stands for one
transmission of one fragment, and an acknowledgement reaches the record that was
transmitted under it.
-/

namespace Dtls13

open ByteCodec StateLogic Renumbering FlightRecord RecordNumber OutgoingFlight List

namespace FlightRecord

def numbers (r : FlightRecord) : List RecordNumber := r.number :: r.earlierNumbers

/-- A flight's record as a numbered item; the fragment is its content. -/
def item (r : FlightRecord) : Item RecordNumber SealedRecord Bytes :=
  ⟨r.number, r.earlierNumbers, r.wire, r.wire.content, r.acked⟩

theorem acknowledgedBy_iff {r : FlightRecord} {numbers : List RecordNumber} :
    r.acknowledgedBy numbers = true ↔ ∃ n ∈ r.numbers, n ∈ numbers := by
  simp only [acknowledgedBy, hasNumber, any_eq_true, Bool.or_eq_true, beq_iff_eq,
    contains_iff_mem, FlightRecord.numbers, mem_cons]
  constructor
  · rintro ⟨n, hn, rfl | hearlier⟩
    · exact ⟨_, .inl rfl, hn⟩
    · exact ⟨n, .inr hearlier, hn⟩
  · rintro ⟨n, rfl | hearlier, hn⟩
    · exact ⟨_, hn, .inl rfl⟩
    · exact ⟨n, hn, .inr hearlier⟩

/-- What a rebuild does to a record: nothing, or it takes a number outside `spent`. -/
inductive Renewal (spent : Set RecordNumber) (r : FlightRecord) : FlightRecord → Prop where
  | same : Renewal spent r r
  | renewed {wire} (hacked : r.acked = false) (hfresh : wire.number ∉ spent)
      (hcontent : wire.content = r.wire.content) (hepoch : wire.epoch = r.wire.epoch) :
      Renewal spent r (r.replaceNumber wire)

variable {spent : Set RecordNumber} {r r' : FlightRecord}

theorem Renewal.mono {less : Set RecordNumber} (hrenewal : Renewal spent r r')
    (hless : less ⊆ spent) : Renewal less r r' := by
  cases hrenewal with
  | same => exact .same
  | renewed hacked hfresh hcontent hepoch =>
    exact .renewed hacked (fun hmem => hfresh (hless hmem)) hcontent hepoch

theorem Renewal.step (hrenewal : Renewal spent r r') : Item.Step spent r.item r'.item := by
  cases hrenewal with
  | same => exact .kept rfl rfl rfl id
  | renewed hacked hfresh hcontent _ => exact .renewed hacked rfl hcontent hfresh

end FlightRecord

/-- All numbers that stand for a record of the list. -/
abbrev allNumbers (records : List FlightRecord) : List RecordNumber :=
  records.flatMap FlightRecord.numbers

theorem allNumbers_cons (r : FlightRecord) (records : List FlightRecord) :
    allNumbers (r :: records) = r.numbers ++ allNumbers records := flatMap_cons

theorem allNumbers_append (left right : List FlightRecord) :
    allNumbers (left ++ right) = allNumbers left ++ allNumbers right := flatMap_append

/-! ## The records after a rebuild -/

/-- A new wire image of a record, under a number that was not spent. -/
structure Renews (spent : Set RecordNumber) (wire : SealedRecord) (r : FlightRecord) : Prop where
  unspent : wire.number ∉ spent
  content : wire.content = r.wire.content
  epoch : wire.epoch = r.wire.epoch

/-- The records that a rebuild gives new wire images, as long as there are some. -/
abbrev openRecords (records : List FlightRecord) : List FlightRecord := records.filter (!·.acked)

section Refill

variable {spent : Set RecordNumber} {records : List FlightRecord} {wires : List SealedRecord}

theorem forall₂_renewed {R : SealedRecord → FlightRecord → Prop}
    (hwires : List.Forall₂ R wires ((openRecords records).take wires.length)) :
    List.Forall₂ (fun r r' => r' = r ∨ r.acked = false ∧ ∃ wire, R wire r ∧
      r' = r.replaceNumber wire) records (Flight.refill records wires) := by
  induction records generalizing wires with
  | nil => cases wires <;> exact .nil
  | cons r records ih =>
    cases hacked : r.acked with
    | true =>
      rw [openRecords, filter_cons_of_neg (by simp [hacked])] at hwires
      rw [CipherStore.refill_of_acked hacked]
      exact .cons (.inl rfl) (ih hwires)
    | false =>
      cases wires with
      | nil => exact forall₂_same.mpr fun _ _ => .inl rfl
      | cons wire wires =>
        rw [openRecords, filter_cons_of_pos (by simp [hacked]), length_cons, take_succ_cons,
          forall₂_cons] at hwires
        rw [Flight.refill, if_neg (by simp [hacked])]
        exact .cons (.inr ⟨hacked, wire, hwires.1, rfl⟩) (ih hwires.2)

theorem renewals_refill
    (hwires : List.Forall₂ (Renews spent) wires ((openRecords records).take wires.length)) :
    List.Forall₂ (Renewal spent) records (Flight.refill records wires) := by
  refine (forall₂_renewed hwires).imp ?_
  rintro r _ (rfl | ⟨hacked, wire, hrenews, rfl⟩)
  · exact .same
  · exact .renewed hacked hrenews.unspent hrenews.content hrenews.epoch

/-- The numbers of the records are the old ones and the new ones. -/
theorem allNumbers_refill (hlength : wires.length ≤ (openRecords records).length) :
    allNumbers (Flight.refill records wires) ~
      wires.map SealedRecord.number ++ allNumbers records := by
  induction records generalizing wires with
  | nil =>
    obtain rfl := length_eq_zero_iff.mp (Nat.le_zero.mp hlength)
    exact .refl _
  | cons r records ih =>
    cases hacked : r.acked with
    | true =>
      rw [openRecords, filter_cons_of_neg (by simp [hacked])] at hlength
      rw [CipherStore.refill_of_acked hacked, allNumbers_cons, allNumbers_cons]
      exact ((ih hlength).append_left _).trans (perm_append_comm_assoc ..)
    | false =>
      cases wires with
      | nil => exact .refl _
      | cons wire wires =>
        rw [openRecords, filter_cons_of_pos (by simp [hacked])] at hlength
        rw [Flight.refill, if_neg (by simp [hacked]), allNumbers_cons, allNumbers_cons]
        have hrest := (ih (Nat.le_of_succ_le_succ hlength)).append_left r.numbers
        exact (hrest.trans (perm_append_comm_assoc ..)).cons wire.number

theorem nodup_refill
    (hwires : List.Forall₂ (Renews spent) wires ((openRecords records).take wires.length))
    (hnumbers : (wires.map SealedRecord.number).Nodup)
    (hspent : ∀ n ∈ allNumbers records, n ∈ spent) (hnodup : (allNumbers records).Nodup) :
    (allNumbers (Flight.refill records wires)).Nodup := by
  have hlength := hwires.length_eq.le.trans (length_take_le' _ _)
  rw [(allNumbers_refill hlength).nodup_iff, nodup_append']
  refine ⟨hnumbers, hnodup, fun n hn hold => ?_⟩
  obtain ⟨wire, hwire, rfl⟩ := mem_map.mp hn
  obtain ⟨r, -, hrenews⟩ := exists_of_forall₂ hwires.flip hwire
  exact hrenews.unspent (hspent _ hold)

end Refill

/-! ## The two sources of numbers -/

/-- The numbers in use: those of epoch 0 below a bound, and those of the protected
records that were sealed. -/
def Spent (bound : Nat) (store : CipherStore) : Set RecordNumber :=
  {n | n.epoch = 0 ∧ n.sequence < bound ∨ 0 < n.epoch ∧ n ∈ store.log.map SealedRecord.number}

theorem Spent.mono {bound bound' : Nat} {store store' : CipherStore} (hbound : bound ≤ bound')
    (hlog : store.log <+: store'.log) : Spent bound store ⊆ Spent bound' store' := by
  rintro n (⟨hepoch, hlt⟩ | ⟨hepoch, hmem⟩)
  · exact .inl ⟨hepoch, hlt.trans_le hbound⟩
  · exact .inr ⟨hepoch, map_subset _ hlog.subset hmem⟩

theorem not_spent_next (next : Nat) (store : CipherStore) :
    (⟨0, next⟩ : RecordNumber) ∉ Spent next store := by
  rintro (⟨-, hlt⟩ | ⟨hpos, -⟩)
  · exact lt_irrefl _ hlt
  · exact lt_irrefl _ hpos

/-- The wire image of a plaintext record. -/
def IsPlain (wire : SealedRecord) : Prop :=
  ∃ r packet, marshalPlainRecord r = .ok packet ∧ wire = r.image packet

theorem IsPlain.epoch {wire : SealedRecord} (hplain : IsPlain wire) : wire.epoch = 0 := by
  obtain ⟨r, packet, hpacket, rfl⟩ := hplain
  exact (marshalPlainRecord_eq_ok_iff.mp hpacket).1.epoch

theorem wp_renewPlain {r : FlightRecord} (hplain : IsPlain r.wire) (i next : Nat) :
    wp (renewPlain i r) (fun wire last => last = next + 1 ∧ wire.number = ⟨0, next⟩ ∧
        IsPlain wire ∧ wire.content = r.wire.content) (fun _ last => last = next) next := by
  obtain ⟨old, packet, hpacket, hwire⟩ := hplain
  have hparsed : parsePlainRecordsView r.wire.packet = .ok [old] := by
    rw [hwire]
    exact parsePlainRecordsView_marshal hpacket
  unfold renewPlain
  rw [wp_bind, wp_get, hparsed]
  refine wp_ofExcept_bind (fun parsed hok => ?_) fun _ => rfl
  cases hok
  refine wp_ofExcept_bind (fun renewed hrenewed => ?_) fun _ => rfl
  rw [wp_bind, wp_set, hwire]
  exact ⟨rfl, rfl, ⟨_, _, hrenewed, rfl⟩, rfl⟩

/-- The rebuild of plaintext records numbers them one after the other. -/
theorem renewPending_renewPlain {records others : List FlightRecord} {index next last : Nat}
    {failure : Option Err} (hplain : ∀ r ∈ records, IsPlain r.wire) (store : CipherStore)
    (hrun : renewPending renewPlain index records next = (others, last, failure)) :
    ∃ wires, others = Flight.refill records wires ∧ next + wires.length = last ∧
      wires.map SealedRecord.number = (List.range' next wires.length).map (mk 0) ∧
      List.Forall₂ (fun wire r => Renews (Spent next store) wire r ∧ IsPlain wire ∧
        wire.sequence < last) wires ((openRecords records).take wires.length) := by
  fun_induction renewPending generalizing others last failure with
  | case1 =>
    cases hrun
    exact ⟨[], rfl, rfl, rfl, .nil⟩
  | case2 index r records next hacked rest final failed hloop ih =>
    cases hrun
    obtain ⟨wires, rfl, hlast, hnumbers, hwires⟩ := ih (forall_mem_cons.mp hplain).2 hloop
    refine ⟨wires, (CipherStore.refill_of_acked hacked _ _).symm, hlast, hnumbers, ?_⟩
    rwa [openRecords, filter_cons_of_neg (by simp [hacked])]
  | case3 index r records next hopen err middle hrenew =>
    cases hrun
    have hfails := wp_renewPlain (forall_mem_cons.mp hplain).1 index next
    unfold wp at hfails
    rw [hrenew] at hfails
    exact ⟨[], rfl, hfails.symm, rfl, .nil⟩
  | case4 index r records next hopen wire middle hrenew rest final failed hloop ih =>
    cases hrun
    obtain ⟨hfirst, hrest⟩ := forall_mem_cons.mp hplain
    obtain ⟨rfl, hnumber, hwire⟩ := post_of_wp (wp_renewPlain hfirst index next) hrenew
    obtain ⟨wires, rfl, hlast, hnumbers, hwires⟩ := ih hrest hloop
    have hsequence : wire.sequence = next := congrArg sequence hnumber
    refine ⟨wire :: wires, ?_, ?_, ?_, ?_⟩
    · rw [Flight.refill, if_neg hopen]
    · exact (Nat.succ_add_eq_add_succ next wires.length).symm.trans hlast
    · rw [map_cons, hnumber, hnumbers, length_cons, List.range'_succ, map_cons]
    · rw [openRecords, filter_cons_of_pos (by simp [hopen]), length_cons, take_succ_cons]
      refine .cons ⟨⟨?_, hwire.2, hwire.1.epoch.trans hfirst.epoch.symm⟩, hwire.1, ?_⟩
        (hwires.imp fun _ _ hlater => ⟨⟨fun hold => hlater.1.unspent
          (Spent.mono (Nat.le_succ next) prefix_rfl hold), hlater.1.content, hlater.1.epoch⟩,
          hlater.2⟩)
      · rw [hnumber]
        exact not_spent_next next store
      · refine hsequence.trans_lt (Nat.lt_of_lt_of_eq ?_ hlast)
        omega

/-- The source of a protected flight's numbers: its cipher, of an epoch above 0. -/
structure Sealing (f : Flight) (store : CipherStore) : Prop where
  sound : store.Sound
  cipher_lt : f.cipher < store.ciphers.length
  epoch_pos : 0 < (store.read f.cipher).epoch

theorem Sealing.grows {f : Flight} {p : SealedRecord → Prop} {store next : CipherStore}
    (hsealing : Sealing f store) (hgrows : CipherStore.Grows p store next) : Sealing f next :=
  ⟨hgrows.sound hsealing.sound, hsealing.cipher_lt.trans_eq hgrows.length_eq.symm,
    (hgrows.older f.cipher).epoch.symm ▸ hsealing.epoch_pos⟩

/-- A record that is new to the log has a number that was not spent. -/
theorem not_spent_of_appended {p : SealedRecord → Prop} {store next : CipherStore} {bound : Nat}
    {new : List SealedRecord} (hsound : store.Sound) (hgrows : CipherStore.Grows p store next)
    (hlog : next.log = store.log ++ new) {wire : SealedRecord} (hmem : wire ∈ new)
    (hepoch : 0 < wire.epoch) : wire.number ∉ Spent bound store := by
  rintro (⟨hzero, -⟩ | ⟨-, hold⟩)
  · exact absurd hzero hepoch.ne'
  · obtain ⟨old, hold, heq⟩ := mem_map.mp hold
    have hlt := (hgrows.extends.appended hsound hlog hmem).2 old hold
      (congrArg epoch heq)
    exact absurd (congrArg sequence heq) hlt.ne

/-! ## The records of the two kinds of flights -/

theorem nextRecordSequence_le_iff {records : List FlightRecord} {k : Nat} :
    nextRecordSequence records ≤ k ↔ ∀ r ∈ records, r.number.epoch = 0 → r.number.sequence < k := by
  have hfold : ∀ next, records.foldl (fun next record =>
      if record.number.epoch = 0 ∧ next ≤ record.number.sequence then record.number.sequence + 1
      else next) next ≤ k ↔
        next ≤ k ∧ ∀ r ∈ records, r.number.epoch = 0 → r.number.sequence < k := by
    induction records with
    | nil => simp
    | cons r records ih =>
      intro next
      rw [foldl_cons, ih, forall_mem_cons]
      split_ifs with hlarger
      · constructor
        · rintro ⟨hle, hrest⟩
          exact ⟨by omega, fun _ => by omega, hrest⟩
        · rintro ⟨-, hfirst, hrest⟩
          exact ⟨hfirst hlarger.1, hrest⟩
      · constructor
        · rintro ⟨hle, hrest⟩
          exact ⟨hle, fun hepoch => by omega, hrest⟩
        · rintro ⟨hle, -, hrest⟩
          exact ⟨hle, hrest⟩
  exact (hfold 0).trans (and_iff_right (Nat.zero_le k))

variable {P : Primitives} {r : FlightRecord} {wires : List SealedRecord}

theorem lt_nextRecordSequence {records : List FlightRecord} (hr : r ∈ records)
    (hepoch : r.number.epoch = 0) : r.number.sequence < nextRecordSequence records :=
  nextRecordSequence_le_iff.mp le_rfl r hr hepoch

/-- Protected records do not count. -/
theorem nextRecordSequence_append {left right : List FlightRecord}
    (hright : ∀ r ∈ right, 0 < r.number.epoch) :
    nextRecordSequence (left ++ right) = nextRecordSequence left := by
  apply le_antisymm
  · rw [nextRecordSequence_le_iff]
    intro r hr hepoch
    rcases mem_append.mp hr with hleft | hr
    · exact lt_nextRecordSequence hleft hepoch
    · exact absurd hepoch (hright r hr).ne'
  · rw [nextRecordSequence_le_iff]
    intro r hr hepoch
    exact lt_nextRecordSequence (mem_append_left _ hr) hepoch

/-- Plaintext records, numbered below the counter of their flight. -/
structure PlainRecords (messages : List HandshakeMessage) (next : Nat)
    (records : List FlightRecord) : Prop where
  plain : ∀ r ∈ records, IsPlain r.wire
  bound : nextRecordSequence records ≤ next
  known : ∀ n ∈ allNumbers records, n.epoch = 0 ∧ n.sequence < nextRecordSequence records
  empty : messages = [] → records = []

/-- Protected records that carry the fragments of their flight. -/
structure SealedRecords (f : Flight) (store : CipherStore) (records : List FlightRecord) :
    Prop where
  sealing : Sealing f store
  holds : store.Holds { f with records := records }
  known : ∀ n ∈ allNumbers records, 0 < n.epoch ∧ n ∈ store.log.map SealedRecord.number

variable {used : Set RecordNumber} {records others : List FlightRecord}
  {messages : List HandshakeMessage} {next last bound : Nat} {store store' : CipherStore}
  {failure : Option Err} {f : Flight} {p : SealedRecord → Prop}

theorem number_mem_numbers (hr : r ∈ records) : r.number ∈ allNumbers records :=
  mem_flatMap.mpr ⟨r, hr, mem_cons_self⟩

theorem PlainRecords.epoch (hplain : PlainRecords messages next records)
    (hr : r ∈ records) : r.number.epoch = 0 := (hplain.known _ (number_mem_numbers hr)).1

theorem SealedRecords.epoch (hsealed : SealedRecords f store records)
    (hr : r ∈ records) : 0 < r.number.epoch := (hsealed.known _ (number_mem_numbers hr)).1

theorem PlainRecords.spent (hplain : PlainRecords messages next records)
    (hbound : nextRecordSequence records ≤ bound) (store : CipherStore) :
    ∀ n ∈ allNumbers records, n ∈ Spent bound store := fun n hn =>
  .inl ⟨(hplain.known n hn).1, (hplain.known n hn).2.trans_le hbound⟩

theorem SealedRecords.spent (hsealed : SealedRecords f store records) (bound : Nat) :
    ∀ n ∈ allNumbers records, n ∈ Spent bound store := fun n hn =>
  .inr (hsealed.known n hn)

theorem SealedRecords.grows (hsealed : SealedRecords f store records)
    (hgrows : CipherStore.Grows p store store') : SealedRecords f store' records where
  sealing := hsealed.sealing.grows hgrows
  holds := hsealed.holds.extend hgrows.extends
  known n hn := (hsealed.known n hn).imp_right fun hmem => map_subset _ hgrows.log.subset hmem

/-- The rebuild of a plaintext flight, complete or not. -/
theorem PlainRecords.renew (hplain : PlainRecords messages next records) (store : CipherStore)
    (hrun : renewPending renewPlain 0 records next = (others, last, failure)) :
    PlainRecords messages last others ∧ nextRecordSequence records ≤ nextRecordSequence others ∧
      List.Forall₂ (Renewal (Spent (nextRecordSequence records) store)) records others ∧
      ((allNumbers records).Nodup → (allNumbers others).Nodup) := by
  obtain ⟨wires, rfl, hlast, hnumbers, hwires⟩ :=
    renewPending_renewPlain hplain.plain store hrun
  have hrenews := hwires.imp fun _ _ hwire => hwire.1
  have heach := renewals_refill hrenews
  have hothers : ∀ r ∈ Flight.refill records wires, IsPlain r.wire ∧ r.wire.sequence < last := by
    intro r' hr'
    obtain ⟨r, hr, rfl | ⟨-, wire, hwire, rfl⟩⟩ := exists_of_forall₂ (forall₂_renewed hwires) hr'
    · refine ⟨hplain.plain r' hr, ?_⟩
      have hlt := lt_nextRecordSequence hr (hplain.epoch hr)
      exact hlt.trans_le (hplain.bound.trans (hlast ▸ Nat.le_add_right _ _))
    · exact hwire.2
  have hepoch : ∀ r ∈ Flight.refill records wires, r.number.epoch = 0 := fun r hr =>
    (hothers r hr).1.epoch
  have hmono : nextRecordSequence records ≤ nextRecordSequence (Flight.refill records wires) := by
    rw [nextRecordSequence_le_iff]
    intro r hr hzero
    obtain ⟨r', hr', hrenewal⟩ := exists_of_forall₂ heach.flip hr
    have hlt := lt_nextRecordSequence hr' (hepoch r' hr')
    cases hrenewal with
    | same => exact hlt
    | @renewed wire _ hfresh _ _ =>
      have hge : next ≤ wire.number.sequence := by
        by_contra hlt
        exact hfresh (.inl ⟨hepoch _ hr', Nat.not_le.mp hlt⟩)
      have hold := lt_nextRecordSequence hr hzero
      have hbound := hplain.bound
      change wire.number.sequence < _ at hlt
      omega
  refine ⟨⟨fun r hr => (hothers r hr).1, ?_, fun n hn => ?_, fun hmessages => ?_⟩, hmono,
    heach.imp fun _ _ hrenewal => hrenewal.mono (Spent.mono hplain.bound prefix_rfl),
    nodup_refill hrenews ?_ (hplain.spent hplain.bound store)⟩
  · rw [nextRecordSequence_le_iff]
    exact fun r hr _ => (hothers r hr).2
  · obtain ⟨r', hr', hn⟩ := mem_flatMap.mp hn
    obtain ⟨r, hr, hrenewal⟩ := exists_of_forall₂ heach hr'
    rcases mem_cons.mp hn with rfl | hearlier
    · exact ⟨hepoch r' hr', lt_nextRecordSequence hr' (hepoch r' hr')⟩
    · have hold : n ∈ r.numbers := by
        cases hrenewal with
        | same => exact mem_cons_of_mem _ hearlier
        | renewed _ _ _ _ => exact hearlier
      obtain ⟨hzero, hlt⟩ := hplain.known n (mem_flatMap.mpr ⟨r, hr, hold⟩)
      exact ⟨hzero, hlt.trans_le hmono⟩
  · have hlength := heach.length_eq
    rw [hplain.empty hmessages] at hlength ⊢
    exact length_eq_zero_iff.mp hlength.symm
  · rw [hnumbers]
    exact (nodup_range').map fun _ _ heq => congrArg sequence heq

/-! ## New flights -/

/-- A record as it is when its flight is built. -/
def FlightRecord.IsFresh (r : FlightRecord) : Prop :=
  r.earlierNumbers = [] ∧ r.acked = false ∧ r.sent = false

theorem plainFragmentRecord_eq_ok {sequence : Nat} {fragment : HandshakeFragment}
    {wire : SealedRecord} (hwire : plainFragmentRecord sequence fragment = .ok wire) :
    IsPlain wire ∧ wire.number = ⟨0, sequence⟩ := by
  unfold plainFragmentRecord at hwire
  obtain ⟨header, hheader, hwire⟩ := bind_eq_ok.mp hwire
  obtain ⟨content, hcontent, hwire⟩ := bind_eq_ok.mp hwire
  cases hwire
  have hlength : content.length = handshakeHeaderLen + fragment.body.length := by
    unfold HandshakeFragment.marshalHandshakeFragment at hcontent
    split at hcontent
    · cases hcontent
    · cases hcontent
      exact fragment.putHandshakeFragment_length
  refine ⟨⟨_, _, ?_, rfl⟩, rfl⟩
  unfold marshalPlainRecord
  dsimp only
  rw [hlength, hheader]

theorem plainFragmentRecords_eq_ok {sequence : Nat} {fragments : List HandshakeFragment}
    (hwires : plainFragmentRecords sequence fragments = .ok wires) :
    (∀ wire ∈ wires, IsPlain wire) ∧ wires.map SealedRecord.number =
      (List.range' sequence fragments.length).map (mk 0) := by
  induction fragments generalizing sequence wires with
  | nil =>
    cases hwires
    exact ⟨nofun, rfl⟩
  | cons fragment rest ih =>
    unfold plainFragmentRecords at hwires
    obtain ⟨wire, hwire, hwires⟩ := bind_eq_ok.mp hwires
    obtain ⟨others, hothers, hwires⟩ := bind_eq_ok.mp hwires
    cases hwires
    obtain ⟨hplain, hnumber⟩ := plainFragmentRecord_eq_ok hwire
    obtain ⟨hplains, hnumbers⟩ := ih hothers
    refine ⟨forall_mem_cons.mpr ⟨hplain, hplains⟩, ?_⟩
    rw [map_cons, hnumber, hnumbers, length_cons, List.range'_succ, map_cons]

/-- Every message has a fragment. -/
theorem fragmentHandshakeMessage_ne_nil (message : HandshakeMessage) {maxFragment : Nat}
    (hpos : 0 < maxFragment) : fragmentHandshakeMessage message maxFragment ≠ [] := by
  unfold fragmentHandshakeMessage
  dsimp only
  split_ifs with hempty
  · exact cons_ne_nil _ _
  · have hcount : 0 < (message.body.length + maxFragment - 1) / maxFragment :=
      Nat.div_pos (by omega) hpos
    simpa using hcount.ne'

/-- Records that are new have one number each. -/
theorem flatMap_numbers_of_fresh (hfresh : ∀ r ∈ records, r.IsFresh) :
    allNumbers records = records.map number := by
  induction records with
  | nil => rfl
  | cons r records ih =>
    obtain ⟨hfirst, hrest⟩ := forall_mem_cons.mp hfresh
    rw [allNumbers_cons, ih hrest, numbers, hfirst.1]
    rfl

/-- What a flight is like that was built with numbers that were not spent. -/
structure FreshRecords (used : Set RecordNumber) (records : List FlightRecord) : Prop where
  fresh : ∀ r ∈ records, r.IsFresh
  unused : ∀ r ∈ records, r.number ∉ used
  nodup : (allNumbers records).Nodup

theorem buildPlainFlight_eq_ok {mtu first : Nat} {flight : PlainFlight}
    (hflight : buildPlainFlight messages mtu first = .ok flight) :
    ∃ wires, plainFragmentRecords first (messages.flatMap fun message =>
        fragmentHandshakeMessage message (plainMaxFragment mtu)) = .ok wires ∧
      0 < plainMaxFragment mtu ∧ flight = ⟨wires.map fresh, messages, first + wires.length⟩ := by
  unfold buildPlainFlight at hflight
  dsimp only at hflight
  split_ifs at hflight with hsmall _
  obtain ⟨wires, hwires, hflight⟩ := bind_eq_ok.mp hflight
  exact ⟨wires, hwires, Nat.not_lt.mp hsmall, (Except.ok.inj hflight).symm⟩

/-- The numbers of new plaintext records are consecutive. -/
theorem fresh_numbers {first count : Nat} (hnumbers : wires.map SealedRecord.number =
      (List.range' first count).map (mk 0)) :
    (wires.map fresh).map number = (List.range' first count).map (mk 0) ∧
      ∀ r ∈ wires.map fresh, r.number.epoch = 0 ∧ first ≤ r.number.sequence ∧
        r.number.sequence < first + count := by
  have hmap : (wires.map fresh).map number = (List.range' first count).map (mk 0) := by
    rw [map_map, ← hnumbers]
    rfl
  refine ⟨hmap, fun r hr => ?_⟩
  have hmem : r.number ∈ (List.range' first count).map (mk 0) := by
    rw [← hmap]
    exact mem_map_of_mem hr
  obtain ⟨n, hn, hnumber⟩ := mem_map.mp hmem
  rw [mem_range'_1] at hn
  rw [← hnumber]
  exact ⟨rfl, hn⟩

theorem isFresh_of_mem_map (hr : r ∈ wires.map fresh) : r.IsFresh := by
  obtain ⟨wire, -, rfl⟩ := mem_map.mp hr
  exact ⟨rfl, rfl, rfl⟩

/-- A plaintext flight that was built with the numbers from `first` on. -/
theorem freshRecords_plain {mtu first : Nat} {flight : PlainFlight}
    (hflight : buildPlainFlight messages mtu first = .ok flight) (store : CipherStore) :
    flight.messages = messages ∧ PlainRecords messages flight.nextSequence flight.records ∧
      FreshRecords (Spent first store) flight.records ∧
      (messages ≠ [] → first ≤ nextRecordSequence flight.records) := by
  obtain ⟨wires, hwires, hpos, rfl⟩ := buildPlainFlight_eq_ok hflight
  generalize hfragments : (messages.flatMap fun message =>
    fragmentHandshakeMessage message (plainMaxFragment mtu)) = fragments at hwires
  obtain ⟨hplain, hnumbers⟩ := plainFragmentRecords_eq_ok hwires
  have hlength : wires.length = fragments.length := by
    simpa using congrArg List.length hnumbers
  obtain ⟨hmap, hrange⟩ := fresh_numbers hnumbers
  have hfresh : ∀ r ∈ wires.map fresh, r.IsFresh := fun r hr => isFresh_of_mem_map hr
  have hflat := flatMap_numbers_of_fresh hfresh
  refine ⟨rfl, ⟨fun r hr => ?_, ?_, fun n hn => ?_, ?_⟩, ⟨hfresh, fun r hr => ?_, ?_⟩,
    fun hmessages => ?_⟩
  · obtain ⟨wire, hwire, rfl⟩ := mem_map.mp hr
    exact hplain wire hwire
  · rw [nextRecordSequence_le_iff]
    intro r hr _
    rw [hlength]
    exact (hrange r hr).2.2
  · dsimp only at hn ⊢
    rw [hflat] at hn
    obtain ⟨r, hr, rfl⟩ := mem_map.mp hn
    exact ⟨(hrange r hr).1, lt_nextRecordSequence hr (hrange r hr).1⟩
  · rintro rfl
    rw [← hfragments] at hlength
    simpa using hlength
  · rintro (⟨-, hlt⟩ | ⟨hepoch, -⟩)
    · exact absurd hlt (Nat.not_lt.mpr (hrange r hr).2.1)
    · exact absurd (hrange r hr).1 hepoch.ne'
  · dsimp only
    rw [hflat, hmap]
    exact (nodup_range').map fun _ _ heq => congrArg sequence heq
  · -- The first record has the first number.
    obtain ⟨message, hmessage⟩ := exists_mem_of_ne_nil _ hmessages
    obtain ⟨fragment, hfragment⟩ :=
      exists_mem_of_ne_nil _ (fragmentHandshakeMessage_ne_nil message hpos)
    have hmem : fragment ∈ fragments := by
      rw [← hfragments]
      exact mem_flatMap.mpr ⟨message, hmessage, hfragment⟩
    have hcount : 0 < wires.length := hlength ▸ length_pos_of_mem hmem
    have hr : fresh wires[0] ∈ wires.map fresh :=
      mem_map_of_mem (getElem_mem hcount)
    have hlt := lt_nextRecordSequence hr (hrange _ hr).1
    have hge := (hrange _ hr).2.1
    dsimp only
    omega

/-- A protected flight that was built. -/
theorem freshRecords_sealed {mtu : Nat} {ref : CipherRef}
    {before : CipherStore} {flight : Flight} (hsound : before.Sound)
    (href : ref < before.ciphers.length) (hepoch : 0 < (before.read ref).epoch)
    (hbuilt : CipherStore.FlightBuilt P messages mtu ref before flight store) (bound : Nat) :
    CipherStore.Grows (fun _ => True) before store ∧ SealedRecords flight store flight.records ∧
      FreshRecords (Spent bound before) flight.records := by
  have hgrows := hbuilt.seals.growsAny
  have hholds := hbuilt.holds href
  have hlog := hbuilt.log
  have hfresh : ∀ r ∈ flight.records, r.IsFresh :=
    fun r hr => isFresh_of_mem_map (hbuilt.fresh ▸ hr)
  have hsealing : Sealing flight store := by
    refine ⟨hgrows.sound hsound, hholds.cipher_lt, ?_⟩
    rw [hbuilt.cipher, (hgrows.older ref).epoch]
    exact hepoch
  have hpositive : ∀ r ∈ flight.records, 0 < r.wire.epoch := by
    intro r hr
    obtain ⟨fragment, -, hcarries⟩ := exists_of_forall₂ hholds.carried.flip hr
    exact hsealing.epoch_pos.trans_eq hcarries.epoch.symm
  have hflat := flatMap_numbers_of_fresh hfresh
  have hmap : flight.records.map number =
      (flight.records.map (·.wire)).map SealedRecord.number := by
    rw [map_map]
    rfl
  refine ⟨hgrows, ⟨hsealing, hholds, fun n hn => ?_⟩, hfresh, fun r hr => ?_, ?_⟩
  · rw [hflat] at hn
    obtain ⟨r, hr, rfl⟩ := mem_map.mp hn
    refine ⟨hpositive r hr, mem_map_of_mem (f := SealedRecord.number) ?_⟩
    rw [hlog]
    exact mem_append_right _ (mem_map_of_mem hr)
  · exact not_spent_of_appended hsound hgrows hlog (mem_map_of_mem hr) (hpositive r hr)
  · have hnodup := hsealing.sound.numbers_nodup
    rw [hlog, map_append] at hnodup
    rw [hflat, hmap]
    exact (nodup_append.mp hnodup).2.1

/-! ## The window -/

/-- A flight with a protected record has at most ten outstanding. -/
def WithinWindow (records : List FlightRecord) : Prop :=
  (∃ r ∈ records, 0 < r.number.epoch) → outstandingRecords records ≤ 10

theorem outstandingRecords_takeUnsent (capacity : Nat) (records : List FlightRecord) :
    outstandingRecords (takeUnsent capacity records).1 ≤ outstandingRecords records + capacity := by
  fun_induction takeUnsent capacity records with
  | case1 records => simp
  | case2 => simp
  | case3 capacity r records hdone others wires hrest ih =>
    simp only [outstandingRecords, countP_cons, hrest] at ih ⊢
    omega
  | case4 capacity r records hnot others wires hrest ih =>
    simp only [outstandingRecords, countP_cons, hrest] at ih ⊢
    split_ifs <;> omega

/-! ## Every kind of flight -/

/-- The flight may hold other records, and be marked as sent twice. -/
theorem SealedRecords.withRecords (hsealed : SealedRecords f store records)
    (others : List FlightRecord) (retransmitted : Bool) :
    SealedRecords { f with records := others, retransmitted := retransmitted } store records :=
  ⟨⟨hsealed.sealing.sound, hsealed.sealing.cipher_lt, hsealed.sealing.epoch_pos⟩,
    ⟨hsealed.holds.cipher_lt, hsealed.holds.carried, hsealed.holds.cut, hsealed.holds.valid⟩,
    hsealed.known⟩

/-- The flight and its store fit together. The records of a combined flight are
those of its parts, and the plaintext part is not behind them. -/
inductive Consistent : OutgoingFlight → CipherStore → Prop where
  | plain {flight store} (hplain : PlainRecords flight.messages flight.nextSequence
      flight.records) : Consistent (.plain flight) store
  | sealed {flight store} (hsealed : SealedRecords flight store flight.records) :
      Consistent (.sealed flight) store
  | combined {left right first second store} (hleft : left.length = first.records.length)
      (hright : right.length = second.records.length)
      (hplain : PlainRecords first.messages first.nextSequence left)
      (hnext : nextRecordSequence left ≤ nextRecordSequence first.records)
      (hsealed : SealedRecords second store right) :
      Consistent (.combined (left ++ right) first second) store

/-- Sealing something else does not touch the flight. -/
theorem Consistent.grows {flight : OutgoingFlight} (hconsistent : Consistent flight store)
    (hgrows : CipherStore.Grows p store store') : Consistent flight store' := by
  cases hconsistent with
  | plain hplain => exact .plain hplain
  | sealed hsealed => exact .sealed (hsealed.grows hgrows)
  | combined hleft hright hplain hnext hsealed =>
    exact .combined hleft hright hplain hnext (hsealed.grows hgrows)

/-- The cipher of the protected part, if there is one. -/
def OutgoingFlight.cipher : OutgoingFlight → Option CipherRef
  | .plain _ => none
  | .sealed flight => some flight.cipher
  | .combined _ _ second => some second.cipher

/-- What a rebuild does to a flight, complete or not. -/
structure Rebuilt (flight : OutgoingFlight) (store : CipherStore) (flight' : OutgoingFlight)
    (store' : CipherStore) : Prop where
  consistent : Consistent flight' store'
  log : store.log <+: store'.log
  bound : nextRecordSequence flight.records ≤ nextRecordSequence flight'.records
  each : List.Forall₂ (Renewal (Spent (nextRecordSequence flight.records) store)) flight.records
    flight'.records
  nodup : (allNumbers flight.records).Nodup → (allNumbers flight'.records).Nodup
  cipher : flight'.cipher = flight.cipher

variable {flight flight' : OutgoingFlight} {left right left' right' : List FlightRecord}
  {first first' : PlainFlight} {second second' : Flight}

theorem Rebuilt.unchanged (hconsistent : Consistent flight' store')
    (hrecords : flight'.records = flight.records) (hlog : store.log <+: store'.log)
    (hcipher : flight'.cipher = flight.cipher) : Rebuilt flight store flight' store' := by
  refine ⟨hconsistent, hlog, ?_, ?_, ?_, hcipher⟩
  · rw [hrecords]
  · rw [hrecords]
    exact forall₂_same.mpr fun _ _ => .same
  · rw [hrecords]
    exact id

/-- The numbers of a plaintext part and of a protected one differ by their epoch. -/
theorem nodup_append_parts (hplain : PlainRecords messages next left)
    (hsealed : SealedRecords f store right) (hleft : (allNumbers left).Nodup)
    (hright : (allNumbers right).Nodup) : (allNumbers (left ++ right)).Nodup := by
  rw [allNumbers_append]
  refine nodup_append.mpr ⟨hleft, hright, fun n hn n' hn' heq => ?_⟩
  have hzero := (hplain.known n hn).1
  have hpos := (hsealed.known n' hn').1
  rw [heq] at hzero
  omega

theorem copyInto_eq {dst src : List FlightRecord} (hlength : src.length = dst.length) :
    copyInto dst src = src := by
  rw [copyInto, ← hlength, take_length, hlength, drop_length, append_nil]

theorem PlainRecords.refreshPending (hplain : PlainRecords messages next left)
    (store : CipherStore) {failure : Option Err}
    (hrun : (PlainFlight.mk left messages next).refreshPending = (first', failure)) :
    first'.messages = messages ∧ PlainRecords messages first'.nextSequence first'.records ∧
      nextRecordSequence left ≤ nextRecordSequence first'.records ∧
      List.Forall₂ (Renewal (Spent (nextRecordSequence left) store)) left first'.records ∧
      ((allNumbers left).Nodup → (allNumbers first'.records).Nodup) := by
  unfold PlainFlight.refreshPending at hrun
  cases hloop : renewPending renewPlain 0 left next with
  | mk others result =>
    rw [hloop] at hrun
    cases hrun
    exact ⟨rfl, hplain.renew store hloop⟩

/-- What a rebuild seals again. -/
theorem renews_of_seals {lost : List SealedRecord} (hsealed : SealedRecords f store f.records)
    (hseals : CipherStore.Seals P f.cipher recordTypeHandshake store
      (CipherStore.contents (f.pending.take (wires ++ lost).length)) (wires ++ lost) store')
    (bound : Nat) : List.Forall₂ (Renews (Spent bound store)) wires
      ((openRecords f.records).take wires.length) := by
  have hgrows := hseals.growsAny
  have hnew := hseals.carries_left
  have hold := forall₂_take wires.length (CipherStore.forall₂_pending hsealed.holds.carried)
  refine forall₂_iff_get.mpr ⟨hnew.length_eq.trans hold.length_eq.symm, fun i hi hi' => ?_⟩
  have hwire := hnew.get hi (hnew.length_eq ▸ hi)
  have hrecord := hold.get hi' (hold.length_eq ▸ hi')
  have hepoch := (hsealed.sealing.grows hgrows).epoch_pos
  rw [← hwire.epoch] at hepoch
  refine ⟨not_spent_of_appended hsealed.sealing.sound hgrows hseals.log
    (mem_append_left lost (get_mem wires ⟨i, hi⟩)) hepoch, ?_, ?_⟩
  · exact hwire.content_eq.trans hrecord.content_eq.symm
  · rw [hwire.epoch, hrecord.epoch, (hgrows.older f.cipher).epoch]

/-- The rebuild of a protected flight, complete or not. -/
theorem SealedRecords.rebuild (hsealed : SealedRecords f store f.records)
    (bound : Nat) {failure : Option Err} (hrun : f.rebuild P store = (second', store', failure)) :
    SealedRecords second' store' second'.records ∧ CipherStore.Grows (fun _ => True) store store' ∧
      second' = { f with records := second'.records } ∧
      List.Forall₂ (Renewal (Spent bound store)) f.records second'.records ∧
      ((allNumbers f.records).Nodup → (allNumbers second'.records).Nodup) := by
  have hlength := hsealed.holds.carried.length_eq
  obtain ⟨wires, lost, hseals, hrecords, -, -⟩ := CipherStore.rebuild_seals (P := P) hlength store
  obtain ⟨hgrows, hholds⟩ := hsealed.holds.rebuild (P := P) (p := fun _ => True)
    fun _ _ _ _ _ _ => trivial
  have hsame : (f.rebuild P store).1 = { f with records := (f.rebuild P store).1.records } := rfl
  rw [hrun] at hseals hrecords hgrows hholds hsame
  dsimp only at hseals hrecords hgrows hholds hsame
  have hrenews := renews_of_seals hsealed hseals bound
  have hnumbers := (hgrows.sound hsealed.sealing.sound).numbers_nodup
  rw [hseals.log, map_append, map_append] at hnumbers
  have hsealing := hsealed.sealing.grows hgrows
  rw [hsame]
  refine ⟨⟨⟨hsealing.sound, hsealing.cipher_lt, hsealing.epoch_pos⟩, hsame ▸ hholds, ?_⟩, hgrows,
    rfl, hrecords ▸ renewals_refill hrenews, fun hnodup => ?_⟩
  · intro n hn
    have hmem := (allNumbers_refill (hrenews.length_eq.le.trans (length_take_le' _ _))).mem_iff.mp
      (hrecords ▸ hn)
    rcases mem_append.mp hmem with hnew | hold
    · obtain ⟨wire, hwire, rfl⟩ := mem_map.mp hnew
      obtain ⟨fragment, -, hcarries⟩ := exists_of_forall₂ hseals.carries_left.flip hwire
      exact ⟨hsealing.epoch_pos.trans_eq hcarries.epoch.symm, mem_map_of_mem hcarries.mem⟩
    · exact (hsealed.grows hgrows).known n hold
  · rw [hrecords]
    exact nodup_refill hrenews (nodup_append.mp (nodup_append.mp hnumbers).2.1).1
      (hsealed.spent bound) hnodup

/-- The rebuild of a combined flight is the rebuild of its parts. -/
theorem rebuilt_rebuildCombined (hleft : left.length = first.records.length)
    (hright : right.length = second.records.length)
    (hplain : PlainRecords first.messages first.nextSequence left)
    (hsealed : SealedRecords second store right)
    (hrun : rebuildCombined P (left ++ right) first second store = (flight', store', failure)) :
    Rebuilt (.combined (left ++ right) first second) store flight' store' := by
  have hpositive : ∀ r ∈ right, 0 < r.number.epoch := fun r hr => hsealed.epoch hr
  have hbound : nextRecordSequence (left ++ right) = nextRecordSequence left :=
    nextRecordSequence_append hpositive
  unfold rebuildCombined at hrun
  rw [if_neg (by rw [length_append]; omega)] at hrun
  dsimp only at hrun
  rw [← hleft, take_left' rfl, drop_left' rfl, copyInto_eq hleft, copyInto_eq hright] at hrun
  cases hfirst : (PlainFlight.mk left first.messages first.nextSequence).refreshPending with
  | mk plain failed =>
    rw [hfirst] at hrun
    obtain ⟨hmessages, hplain', hmono, heach, hnodup⟩ := hplain.refreshPending store hfirst
    have hsealed' := hsealed.withRecords right second.retransmitted
    have hlength := heach.length_eq
    rw [← hmessages] at hplain'
    have hkept : PlainRecords plain.messages plain.nextSequence left :=
      ⟨hplain.plain, hmono.trans hplain'.bound, hplain.known, hmessages ▸ hplain.empty⟩
    cases failed with
    | some err =>
      cases hrun
      exact .unchanged (.combined hlength rfl hkept hmono hsealed') rfl prefix_rfl rfl
    | none =>
      dsimp only at hrun
      cases hsecond : Flight.rebuild P { second with records := right } store with
      | mk flight result =>
        obtain ⟨grown, failed⟩ := result
        rw [hsecond] at hrun
        obtain ⟨hflight, hgrows, hsame, heach', hnodup'⟩ :=
          hsealed'.rebuild (nextRecordSequence left) hsecond
        have hcipher : flight.cipher = second.cipher := by rw [hsame]
        cases failed with
        | some err =>
          cases hrun
          refine .unchanged (.combined hlength heach'.length_eq hkept hmono ?_) rfl hgrows.log
            (congrArg some hcipher)
          rw [hsame]
          exact (hsealed'.grows hgrows).withRecords _ _
        | none =>
          cases hrun
          refine ⟨.combined rfl rfl hplain' le_rfl hflight, hgrows.log, ?_, ?_, ?_,
            congrArg some hcipher⟩
          · change nextRecordSequence (left ++ right) ≤
              nextRecordSequence (plain.records ++ flight.records)
            rw [hbound, nextRecordSequence_append fun r hr => hflight.epoch hr]
            exact hmono
          · change List.Forall₂ (Renewal (Spent (nextRecordSequence (left ++ right)) store))
              (left ++ right) (plain.records ++ flight.records)
            rw [hbound]
            exact rel_append heach heach'
          · intro hall
            change (allNumbers (left ++ right)).Nodup at hall
            rw [allNumbers_append, nodup_append] at hall
            exact nodup_append_parts hplain' hflight (hnodup hall.1) (hnodup' hall.2.1)

theorem Consistent.refreshPending (hconsistent : Consistent flight store)
    (hrun : flight.refreshPending P store = (flight', store', failure)) :
    Rebuilt flight store flight' store' := by
  cases hconsistent with
  | @plain plain _ hplain =>
    unfold refreshPending at hrun
    dsimp only at hrun
    cases hplainRun : plain.refreshPending with
    | mk plain' failed =>
      rw [hplainRun] at hrun
      cases hrun
      obtain ⟨hmessages, hplain', hmono, heach, hnodup⟩ :=
        hplain.refreshPending store hplainRun
      rw [← hmessages] at hplain'
      exact ⟨.plain hplain', prefix_rfl, hmono, heach, hnodup, rfl⟩
  | @sealed sealed _ hsealed =>
    unfold refreshPending at hrun
    dsimp only at hrun
    cases hsealedRun : sealed.rebuild P store with
    | mk sealed' result =>
      rw [hsealedRun] at hrun
      cases hrun
      obtain ⟨hsealed', hgrows, hsame, heach, hnodup⟩ := hsealed.rebuild _ hsealedRun
      refine ⟨.sealed hsealed', hgrows.log, ?_, heach, hnodup,
        by rw [hsame]; rfl⟩
      rw [nextRecordSequence_le_iff]
      intro r hr hzero
      exact absurd hzero (hsealed.epoch hr).ne'
  | @combined left right first second _ hleft hright hplain hnext hsealed =>
    unfold refreshPending at hrun
    dsimp only at hrun
    split_ifs at hrun
    · cases hrun
      exact .unchanged (.combined hleft hright hplain hnext hsealed) rfl prefix_rfl rfl
    · exact rebuilt_rebuildCombined hleft hright hplain hsealed hrun

/-- What a resize does: all records are new, or the flight keeps its records. -/
structure Resized (flight : OutgoingFlight) (store : CipherStore) (flight' : OutgoingFlight)
    (store' : CipherStore) : Prop where
  consistent : Consistent flight' store'
  log : store.log <+: store'.log
  bound : nextRecordSequence flight.records ≤ nextRecordSequence flight'.records
  fresh : FreshRecords (Spent (nextRecordSequence flight.records) store) flight'.records
  cipher : flight'.cipher = flight.cipher

theorem FreshRecords.mono {less : Set RecordNumber} (hfresh : FreshRecords used records)
    (hless : less ⊆ used) : FreshRecords less records :=
  ⟨hfresh.fresh, fun r hr hmem => hfresh.unused r hr (hless hmem), hfresh.nodup⟩

/-- The resize of a plaintext flight starts after its numbers. -/
theorem PlainRecords.resize (hplain : PlainRecords first.messages next left)
    (hnext : nextRecordSequence left ≤ nextRecordSequence first.records) {mtu : Nat}
    (hrun : first.resize mtu = .ok first') (store : CipherStore) :
    first'.messages = first.messages ∧
      PlainRecords first'.messages first'.nextSequence first'.records ∧
      FreshRecords (Spent (nextRecordSequence left) store) first'.records ∧
      nextRecordSequence left ≤ nextRecordSequence first'.records := by
  obtain ⟨hmessages, hplain', hfresh, hbound⟩ := freshRecords_plain hrun store
  refine ⟨hmessages, hmessages ▸ hplain', hfresh.mono (Spent.mono hnext prefix_rfl), ?_⟩
  by_cases hempty : first.messages = []
  · rw [hplain.empty hempty]
    exact Nat.zero_le _
  · exact hnext.trans (hbound hempty)

/-- A resize that fails changes the ciphers only. -/
theorem SealedRecords.wp_resize (hsealed : SealedRecords f store records) (mtu bound : Nat) :
    wp (f.resize P mtu) (fun resized next => CipherStore.Grows (fun _ => True) store next ∧
        SealedRecords resized next resized.records ∧
        FreshRecords (Spent bound store) resized.records ∧ resized.cipher = f.cipher)
      (fun _ => CipherStore.Grows (fun _ => True) store) store := by
  unfold Flight.resize
  rw [wp_bind]
  refine wp_mono (CipherStore.wp_buildProtectedFlight f.messages mtu f.cipher store) ?_
    fun _ _ hpart => hpart.grows fun _ _ _ _ _ _ => trivial
  intro rebuilt next hbuilt
  obtain ⟨hgrows, hrecords, hfresh⟩ := freshRecords_sealed hsealed.sealing.sound
    hsealed.sealing.cipher_lt hsealed.sealing.epoch_pos hbuilt bound
  exact ⟨hgrows, hrecords.withRecords _ _, hfresh, hbuilt.cipher⟩

end Dtls13
