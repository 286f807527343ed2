import Dtls13.Driver.SideInvariant

/-! # The connection IDs of the records sent

A record carries the connection ID its cipher had when it was sealed. Everything an
endpoint writes carries an ID of a set, as long as the ciphers it seals with have one of
the set, and no flight holds an unsent record under another one.
-/

namespace Dtls13

open ByteCodec StateLogic CipherStore Sender List

/-- The connection ID in the header of a record; the header has five other bytes. -/
def SealedRecord.connectionID (overhead : Nat) (record : SealedRecord) : Bytes :=
  (record.packet.drop 1).take
    (record.packet.length - (5 + overhead + 1 + record.content.length))

theorem RecordCipher.connectionID_protect {P : Primitives} {c : RecordCipher}
    (hnamed : c.hasConnectionID = true) (contentType : UInt8) (content : Bytes) :
    (c.protect P contentType content true true).connectionID c.suite.overhead = c.connectionID := by
  have hlength := protect_packet_length (P := P) (c := c) contentType content
  have hheader : c.headerCID = c.connectionID := by rw [headerCID, if_pos hnamed]
  have hcount : (c.protect P contentType content true true).packet.length -
      (5 + c.suite.overhead + 1 + content.length) = c.connectionID.length := by
    rw [hlength, headerLen16]
    omega
  unfold SealedRecord.connectionID
  rw [show (c.protect P contentType content true true).content = content from rfl, hcount,
    protect_packet, hheader]
  simp

/-- The IDs records may carry, and the suite they are sealed with. -/
structure Naming where
  suite : CipherSuite
  ids : List Bytes

namespace Naming

variable {P : Primitives} {n : Naming} {store next : CipherStore} {ref : CipherRef}

def Bears (n : Naming) (record : SealedRecord) : Prop :=
  record.connectionID n.suite.overhead ∈ n.ids

/-- The cipher seals records under one of the IDs. -/
structure Covers (n : Naming) (c : RecordCipher) : Prop where
  suite : c.suite = n.suite
  named : c.hasConnectionID = true
  mem : c.connectionID ∈ n.ids

theorem Covers.protect {c : RecordCipher} (hcovers : n.Covers c) (contentType : UInt8)
    (content : Bytes) : n.Bears (c.protect P contentType content true true) := by
  rw [Bears, ← hcovers.suite, RecordCipher.connectionID_protect hcovers.named]
  exact hcovers.mem

/-! ## Sealing -/

/-- No cipher has left the set of IDs. -/
structure Kept (n : Naming) (store next : CipherStore) : Prop where
  length_le : store.ciphers.length ≤ next.ciphers.length
  covers : ∀ ref < store.ciphers.length, n.Covers (store.read ref) → n.Covers (next.read ref)

instance : Std.Refl n.Kept := ⟨fun _ => ⟨le_rfl, fun _ _ hcovers => hcovers⟩⟩

instance : IsTrans CipherStore n.Kept where
  trans _ _ _ h₁ h₂ := ⟨h₁.length_le.trans h₂.length_le, fun ref href hcovers =>
    h₂.covers ref (href.trans_le h₁.length_le) (h₁.covers ref href hcovers)⟩

theorem kept_write {c : RecordCipher} (hc : n.Covers (store.read ref) → n.Covers c) :
    n.Kept store (store.write ref c) := by
  refine ⟨(write_length ..).ge, fun other hother hcovers => ?_⟩
  by_cases heq : ref = other
  · subst heq
    rw [read_write hother]
    exact hc hcovers
  · rwa [read_write_of_ne heq]

/-- The reference is that of a cipher under one of the IDs. -/
structure Names (n : Naming) (store : CipherStore) (ref : CipherRef) : Prop where
  ref_lt : ref < store.ciphers.length
  covers : n.Covers (store.read ref)

section

variable (hnames : n.Names store ref)

include hnames

theorem Names.kept (hkept : n.Kept store next) : n.Names next ref :=
  ⟨hnames.ref_lt.trans_le hkept.length_le, hkept.covers ref hnames.ref_lt hnames.covers⟩

theorem Names.seals {contentType : UInt8} {contents : List Bytes} {records : List SealedRecord}
    (hseals : CipherStore.Seals P ref contentType store contents records next) :
    n.Kept store next ∧ ∀ record ∈ records, n.Bears record := by
  induction hseals with
  | nil => exact ⟨Std.Refl.refl _, by simp⟩
  | @cons store next content contents records _ _ _ ih =>
    have hcounted : n.Kept store (store.write ref
        { store.read ref with nextSequence := (store.read ref).nextSequence + 1 }) :=
      kept_write fun hcovers => ⟨hcovers.suite, hcovers.named, hcovers.mem⟩
    have hfirst : n.Kept store (store.logRecord ref
        ((store.read ref).protect P contentType content true true)
        { store.read ref with nextSequence := (store.read ref).nextSequence + 1 }) :=
      ⟨hcounted.length_le, hcounted.covers⟩
    obtain ⟨hkept, hothers⟩ := ih (hnames.kept hfirst)
    exact ⟨Trans.trans hfirst hkept,
      forall_mem_cons.mpr ⟨hnames.covers.protect contentType content, hothers⟩⟩

theorem Names.sealsSome {contentType : UInt8} {contents : List Bytes}
    (hsome : CipherStore.SealsSome P ref contentType contents store next) : n.Kept store next := by
  obtain ⟨_, _, -, hseals⟩ := hsome
  exact (hnames.seals hseals).1

theorem wp_sealRecord (contentType : UInt8) (content : Bytes) :
    wp (sealRecord P ref contentType content)
      (fun record next => n.Kept store next ∧ n.Bears record) (fun _ => n.Kept store) store := by
  refine wp_mono (wp_sealRecord_seals P ref contentType content store) ?_ ?_
  · intro record next hseals
    exact (hnames.seals hseals).imp_right forall_mem_singleton.mp
  · rintro _ _ rfl
    exact Std.Refl.refl _

/-- A probe goes out under its own ID, and the cipher gets its ID back. -/
theorem wp_sealProbe {cid : Bytes} (hcid : cid ∈ n.ids) (content : Bytes) :
    wp (Outbound.sealProbe P ref cid content)
      (fun record next => n.Kept store next ∧ n.Bears record) (fun _ => n.Kept store) store := by
  have hrename : ∀ (store : CipherStore) {id}, id ∈ n.ids → n.Kept store (store.rename ref id) :=
    fun _ _ hid => kept_write fun hcovers => ⟨hcovers.suite, hcovers.named, hid⟩
  have hset := hrename store hcid
  have hrestore : ∀ next, n.Kept (store.rename ref cid) next →
      n.Kept store (next.rename ref (store.read ref).connectionID) := fun next hnext =>
    Trans.trans (Trans.trans hset hnext) (hrename next hnames.covers.mem)
  refine Outbound.wp_sealProbe (wp_mono (wp_sealRecord (hnames.kept hset) _ content) ?_ ?_)
  · rintro record next ⟨hnext, hbears⟩
    exact ⟨hrestore next hnext, hbears⟩
  · exact fun _ next hnext => hrestore next hnext

end

/-! ## Flights -/

/-- A flight whose cipher has one of the IDs, and whose records of the given kind do. -/
structure Flies (n : Naming) (kind : FlightRecord → Bool) (store : CipherStore) (g : Flight) :
    Prop where
  cipher : n.Names store g.cipher
  length_eq : g.records.length = g.fragments.length
  bears : ∀ record ∈ g.records, kind record = true → n.Bears record.wire

/-- Not acknowledged, and not sent so far. -/
def unsent (record : FlightRecord) : Bool := !record.acked && !record.sent

/-- Not acknowledged. -/
def pending (record : FlightRecord) : Bool := !record.acked

variable {kind : FlightRecord → Bool}

theorem Flies.kept {g : Flight} (hflies : n.Flies kind store g)
    (hkept : n.Kept store next) : n.Flies kind next g :=
  ⟨hflies.cipher.kept hkept, hflies.length_eq, hflies.bears⟩

theorem Names.built {messages : List HandshakeMessage} {mtu : Nat} {g : Flight}
    (hnames : n.Names store ref) (hbuilt : FlightBuilt P messages mtu ref store g next) :
    n.Flies pending next g := by
  obtain ⟨hkept, hbears⟩ := hnames.seals hbuilt.seals
  refine ⟨hbuilt.cipher ▸ hnames.kept hkept, ?_, fun record hrecord _ => ?_⟩
  · simpa [CipherStore.contents] using hbuilt.seals.logged.length_eq
  · exact hbears record.wire (mem_map_of_mem hrecord)

theorem Flies.rebuild {g : Flight} (hflies : n.Flies kind store g) :
    n.Kept store (g.rebuild P store).2.1 ∧ ((g.rebuild P store).2.2 = none →
      n.Flies pending (g.rebuild P store).2.1 (g.rebuild P store).1) := by
  obtain ⟨wires, lost, hseals, hrecords, -, hall⟩ := rebuild_seals (P := P) hflies.length_eq store
  obtain ⟨hkept, hbears⟩ := hflies.cipher.seals hseals
  refine ⟨hkept, fun hnone => ?_⟩
  have hlength := hall hnone
  -- A record that is pending afterwards was sealed again.
  have hrebuilt : List.Forall₂ (fun record _ => pending record = true → n.Bears record.wire)
      (Flight.refill g.records wires) g.fragments := by
    refine forall₂_refill (W := fun wire _ => n.Bears wire)
      (forall₂_iff_get.mpr ⟨hflies.length_eq, fun i _ _ hacked hpending => ?_⟩)
      (fun _ _ _ hwire _ => hwire) (forall₂_iff_get.mpr ⟨by rw [length_take, ← hlength, min_self],
        fun i hi _ => hbears _ (mem_append_left _ (get_mem wires ⟨i, hi⟩))⟩)
      fun hmissing => absurd hlength hmissing
    rw [pending, hacked] at hpending
    cases hpending
  rw [← hrecords] at hrebuilt
  refine ⟨hflies.cipher.kept hkept, hrebuilt.length_eq, fun record hrecord => ?_⟩
  obtain ⟨i, hi, rfl⟩ := getElem_of_mem hrecord
  exact hrebuilt.get hi (hrebuilt.length_eq ▸ hi)

theorem Flies.wp_resize {g : Flight} (hflies : n.Flies kind store g) (mtu : Nat) :
    wp (g.resize P mtu) (fun resized next => n.Kept store next ∧ n.Flies pending next resized)
      (fun _ => n.Kept store) store := by
  unfold Flight.resize
  rw [wp_bind]
  refine wp_mono (CipherStore.wp_buildProtectedFlight _ mtu _ store) ?_
    fun _ _ ⟨_, hsome⟩ => hflies.cipher.sealsSome hsome
  intro resized next hbuilt
  have hresized := hflies.cipher.built hbuilt
  exact ⟨(hflies.cipher.seals hbuilt.seals).1, hresized.cipher, hresized.length_eq, hresized.bears⟩

/-- Only unsent records are taken from a flight, and no record becomes unsent. -/
theorem takeUnsent_unsent (capacity : Nat) (records : List FlightRecord) :
    (∀ wire ∈ (takeUnsent capacity records).2, ∃ record ∈ records, unsent record = true ∧
        record.wire = wire) ∧
      ∀ record ∈ (takeUnsent capacity records).1, unsent record = true → record ∈ records := by
  constructor
  · intro wire hwire
    rw [takeUnsent_returned] at hwire
    obtain ⟨record, hrecord, rfl⟩ := mem_map.mp hwire
    obtain ⟨hmem, hunsent⟩ := mem_filter.mp (mem_of_mem_take hrecord)
    exact ⟨record, hmem, by rwa [Bool.not_or] at hunsent, rfl⟩
  · intro record hrecord hunsent
    obtain ⟨before, hbefore, rfl | rfl⟩ := exists_of_forall₂ (forall₂_takeUnsent _ _) hrecord
    · exact hbefore
    · simp [unsent] at hunsent

/-- Records of the set were written. -/
abbrev Wrote (n : Naming) : Outbox → Outbox → Prop := Outbox.Writes n.Kept n.Bears

/-- A protected flight with records of the given kind under one of the IDs. -/
abbrev Sent (n : Naming) (kind : FlightRecord → Bool) (store : CipherStore) (f : SentFlight) :
    Prop := f.IsSealed (n.Flies kind store)

theorem Sent.kept {f : SentFlight} (hsent : n.Sent kind store f) (hkept : n.Kept store next) :
    n.Sent kind next f := hsent.imp fun _ hflies => hflies.kept hkept

theorem Flies.of_pending {g : Flight} (hflies : n.Flies pending store g) :
    n.Flies unsent store g :=
  ⟨hflies.cipher, hflies.length_eq, fun record hrecord hunsent =>
    hflies.bears record hrecord (Bool.and_eq_true_iff.mp hunsent).1⟩

theorem Sent.ack {f : SentFlight} (hsent : n.Sent unsent store f) (numbers : List RecordNumber) :
    n.Sent unsent store (f.ack numbers) := by
  refine hsent.withRecords (ackRecords · numbers) fun g hflies =>
    ⟨hflies.cipher, (length_map ..).trans hflies.length_eq, fun record hrecord hunsent => ?_⟩
  obtain ⟨before, hbefore, rfl⟩ := mem_map.mp hrecord
  refine hflies.bears before hbefore ?_
  simp only [unsent, Bool.not_or, Bool.and_eq_true] at hunsent ⊢
  exact ⟨hunsent.1.1, hunsent.2⟩

/-- Everything written of a flight carries one of the IDs. -/
theorem sealedRule (P : Primitives) (n : Naming) :
    Outbox.SealedRule P n.Kept n.Bears (n.Flies unsent) (n.Flies pending) where
  unsent {store g} hflies := by
    obtain ⟨hwires, hrest⟩ := takeUnsent_unsent (windowCapacity g.records) g.records
    refine ⟨fun wire hwire => ?_, hflies.cipher, ?_, fun record hrecord hunsent => ?_⟩
    · obtain ⟨record, hrecord, hunsent, rfl⟩ := hwires wire hwire
      exact hflies.bears record hrecord hunsent
    · have hmap := (Flight.takeUnsent_wires (windowCapacity g.records) g.records).1
      rw [nextUnsentRecords, ← length_map, hmap, length_map]
      exact hflies.length_eq
    · exact hflies.bears record (hrest record hrecord hunsent) hunsent
  resize mtu hflies := wp_mono (hflies.wp_resize mtu)
    (fun _ _ hresized => ⟨hresized.1, hresized.2.of_pending⟩) fun _ _ hkept => hkept
  rebuild hflies := hflies.rebuild
  resend {store g} hflies := by
    refine ⟨fun wire hwire => ?_, hflies.of_pending⟩
    obtain ⟨record, hrecord, rfl⟩ := mem_map.mp hwire
    obtain ⟨hmem, hopen⟩ := mem_filter.mp (mem_of_mem_take hrecord)
    exact hflies.bears record hmem (Bool.and_eq_true_iff.mp hopen).1

/-! ## Key updates and switches -/

/-- The keys in use and those of a pending update have one of the IDs. -/
structure Sends (n : Naming) (s : Sender) : Prop where
  suite : s.traffic.suite = n.suite
  named : s.traffic.hasConnectionID = true
  short : s.traffic.connectionID.length ≤ 255
  mem : s.traffic.connectionID ∈ n.ids
  cipher : n.Names s.store s.traffic.cipher
  pending : ∀ ref, s.traffic.pendingCipher = some ref → n.Names s.store ref

variable {s : Sender}

theorem Sends.grow (hs : n.Sends s) {store : CipherStore} (hkept : n.Kept s.store store) :
    n.Sends { s with store := store } :=
  ⟨hs.suite, hs.named, hs.short, hs.mem, hs.cipher.kept hkept,
    fun ref href => (hs.pending ref href).kept hkept⟩

theorem Sends.nextCipher (hs : n.Sends s) : n.Covers (s.nextCipher P) := by
  have hshort : ¬255 < s.traffic.connectionID.length := Nat.not_lt.mpr hs.short
  unfold Sender.nextCipher RecordCipher.setConnectionID
  rw [if_pos hs.named, if_neg hshort]
  exact ⟨hs.suite, rfl, hs.mem⟩

/-- Sealing a record with the current keys. -/
theorem kept_loggedStore (s : Sender) (record : SealedRecord) :
    n.Kept s.store (s.loggedStore record) := by
  have hwrite : n.Kept s.store (s.store.write s.traffic.cipher
      { s.cipher with nextSequence := s.cipher.nextSequence + 1 }) :=
    kept_write fun hcovers => ⟨hcovers.suite, hcovers.named, hcovers.mem⟩
  exact ⟨hwrite.length_le, hwrite.covers⟩

theorem kept_allocate (store : CipherStore) (c : RecordCipher) :
    n.Kept store (store.allocate c).2 := by
  refine ⟨(allocate_length ..).ge.trans' (Nat.le_succ _), fun ref href hcovers => ?_⟩
  rwa [read_allocate_of_lt href]

theorem names_allocate (store : CipherStore) {c : RecordCipher} (hc : n.Covers c) :
    n.Names (store.allocate c).2 (store.allocate c).1 := by
  refine ⟨(allocate_length ..).ge, ?_⟩
  rw [show (store.allocate c).1 = store.ciphers.length from rfl, read_allocate_new]
  exact hc

/-- The record of a key update, and the cipher it makes. -/
theorem Sends.updateBegun (hs : n.Sends s) (requestUpdate : Bool) :
    n.Sends (s.updateBegun P requestUpdate) ∧ n.Kept s.store (s.updateBegun P requestUpdate).store ∧
      n.Bears (s.keyUpdateRecord P requestUpdate) := by
  have hcounted := kept_loggedStore (n := n) s (s.keyUpdateRecord P requestUpdate)
  have hgrown := hs.grow hcounted
  have hsealed : n.Sends ⟨s.loggedStore (s.keyUpdateRecord P requestUpdate),
      { s.traffic with pendingFragment :=
        (keyUpdateFragment s.traffic.messageSequence requestUpdate).putHandshakeFragment }⟩ :=
    ⟨hs.suite, hs.named, hs.short, hs.mem, hgrown.cipher, hgrown.pending⟩
  have hkept := kept_allocate (n := n) (s.loggedStore (s.keyUpdateRecord P requestUpdate))
    (Sender.nextCipher P ⟨s.loggedStore (s.keyUpdateRecord P requestUpdate),
      { s.traffic with pendingFragment :=
        (keyUpdateFragment s.traffic.messageSequence requestUpdate).putHandshakeFragment }⟩)
  refine ⟨⟨hs.suite, hs.named, hs.short, hs.mem, hsealed.cipher.kept hkept, ?_⟩,
    Trans.trans hcounted hkept, hs.cipher.covers.protect _ _⟩
  rintro ref ⟨⟩
  exact names_allocate _ hsealed.nextCipher

theorem Sends.wp_retransmitKeyUpdate (hs : n.Sends s) : wp (Sender.retransmitKeyUpdate P)
      (fun wire next => n.Sends next ∧ n.Kept s.store next.store ∧ n.Bears wire)
      (fun _ next => next = s) s := by
  apply Sender.wp_retransmitKeyUpdate P
  · rintro record - - - rfl
    have hcounted := kept_loggedStore (n := n) s
      (s.cipher.protect P recordTypeHandshake s.traffic.pendingFragment true true)
    have hgrown := hs.grow hcounted
    exact ⟨⟨hs.suite, hs.named, hs.short, hs.mem, hgrown.cipher, hgrown.pending⟩, hcounted,
      hs.cipher.covers.protect _ _⟩
  · exact fun _ => rfl

theorem Sends.processACK (hs : n.Sends s) (numbers : List RecordNumber) :
    n.Sends (s.processACK numbers).2 ∧ (s.processACK numbers).2.store = s.store := by
  cases hswitched : (s.processACK numbers).1 with
  | false =>
    rw [processACK_of_not_switched hswitched]
    exact ⟨hs, rfl⟩
  | true =>
    rw [processACK_of_switched hswitched]
    refine ⟨⟨hs.suite, hs.named, hs.short, hs.mem, ?_, nofun⟩, rfl⟩
    cases hpending : s.traffic.pendingCipher with
    | none => exact hs.cipher
    | some ref => exact hs.pending ref hpending

/-- A cipher that is given another ID, which is one of the set. -/
theorem wp_setConnectionID (href : ref < store.ciphers.length)
    (hsuite : (store.read ref).suite = n.suite) {cid : Bytes} (hcid : cid ∈ n.ids) :
    wp (updateCipher ref (·.setConnectionID cid))
      (fun _ next => cid.length ≤ 255 ∧ n.Names next ref ∧ n.Kept store next ∧
        next.ciphers.length = store.ciphers.length ∧
        ∀ other, (next.read other).suite = (store.read other).suite)
      (fun _ next => 255 < cid.length ∧ next = store) store := by
  apply wp_updateCipher
  · intro named hnamed
    obtain ⟨hshort, rfl⟩ := RecordCipher.setConnectionID_ok hnamed
    refine ⟨hshort, ⟨href.trans_eq (write_length ..).symm, ?_⟩,
      kept_write fun _ => ⟨hsuite, rfl, hcid⟩, write_length .., fun other => ?_⟩
    · rw [read_write href]
      exact ⟨hsuite, rfl, hcid⟩
    · by_cases heq : ref = other
      · subst heq
        rw [read_write href]
      · rw [read_write_of_ne heq]
  · intro err herr
    refine ⟨?_, rfl⟩
    unfold RecordCipher.setConnectionID at herr
    split at herr
    · assumption
    · cases herr

/-- The references of the keys in use and of a pending update. -/
def Current (s : Sender) (ref : CipherRef) : Prop :=
  ref = s.traffic.cipher ∨ s.traffic.pendingCipher = some ref

/-- The suite and the places of the current ciphers. -/
structure Seated (n : Naming) (s : Sender) : Prop where
  suite : s.traffic.suite = n.suite
  seats : ∀ ref, Current s ref → ref < s.store.ciphers.length ∧ (s.store.read ref).suite = n.suite

theorem Sends.seated {other : Naming} (hs : n.Sends s) (hsuite : other.suite = n.suite) :
    other.Seated s := by
  refine ⟨hs.suite.trans hsuite.symm, ?_⟩
  rintro ref (rfl | hpending)
  · exact ⟨hs.cipher.ref_lt, hs.cipher.covers.suite.trans hsuite.symm⟩
  · exact ⟨(hs.pending ref hpending).ref_lt,
      (hs.pending ref hpending).covers.suite.trans hsuite.symm⟩

/-- A switch to an ID of the set brings every current cipher under it. -/
theorem Seated.wp_switch (hs : n.Seated s) {cid : Bytes} (hcid : cid ∈ n.ids) :
    wp (setConnectionID cid)
      (fun _ next => n.Sends next ∧ n.Kept s.store next.store ∧
        ∀ ref, Current s ref → n.Names next.store ref)
      (fun _ next => 255 < cid.length ∧ next = s) s := by
  obtain ⟨hlt, hsuite⟩ := hs.seats s.traffic.cipher (.inl rfl)
  unfold setConnectionID
  rw [wp_bind, wp_get, wp_bind, onStore, wp_zoom]
  refine wp_mono (wp_setConnectionID hlt hsuite hcid) ?_ ?_
  · rintro _ store ⟨hshort, hnames, hkept, hlength, hsuites⟩
    rw [wp_bind, wp_modify]
    cases hpending : s.traffic.pendingCipher with
    | none =>
      refine ⟨⟨hs.suite, rfl, hshort, hcid, hnames, ?_⟩, hkept, ?_⟩
      · intro ref href
        rw [show s.traffic.pendingCipher = some ref from href] at hpending
        cases hpending
      · rintro ref (rfl | href)
        · exact hnames
        · rw [href] at hpending
          cases hpending
    | some ref =>
      obtain ⟨hlt', hsuite'⟩ := hs.seats ref (.inr hpending)
      dsimp only
      rw [wp_zoom]
      refine wp_mono (wp_setConnectionID (hlt'.trans_eq hlength.symm)
        ((hsuites ref).trans hsuite') hcid) ?_ ?_
      · rintro _ last ⟨-, hnames', hkept', -, -⟩
        have hboth : ∀ other, Current s other → n.Names last other := by
          rintro other (rfl | hother)
          · exact hnames.kept hkept'
          · rw [hpending] at hother
            cases hother
            exact hnames'
        exact ⟨⟨hs.suite, rfl, hshort, hcid, hnames.kept hkept', fun other hother =>
          hboth other (.inr hother)⟩, Trans.trans hkept hkept', hboth⟩
      · rintro _ last ⟨hlong, -⟩
        exact absurd hshort (Nat.not_le.mpr hlong)
  · rintro _ store ⟨hlong, rfl⟩
    exact ⟨hlong, rfl⟩

end Naming

namespace SendingSide

open Naming

/-- The side seals under the IDs of the set, and so were the records sealed that it has
written besides `written`. -/
structure Addressed (n : Naming) (written : List SealedRecord) (s : SendingSide) : Prop where
  sender : n.Sends s.sender
  flights : ∀ slot f, s.flights slot = some f → n.Sent unsent s.sender.store f
  written_eq : ∃ new, s.transport.written = written ++ new ∧ ∀ record ∈ new, n.Bears record

variable {P : Primitives} {n : Naming} {written : List SealedRecord} {s next : SendingSide}

section

variable (hs : s.Addressed n written)

include hs

theorem Addressed.of_updates (hsender : next.sender = s.sender)
    (htransport : next.transport = s.transport) (hflights : next.flights = s.flights) :
    next.Addressed n written := by
  refine ⟨hsender ▸ hs.sender, ?_, htransport ▸ hs.written_eq⟩
  rw [hflights, hsender]
  exact hs.flights

theorem Addressed.withSender {sender : Sender} (hsender : n.Sends sender)
    (hkept : n.Kept s.sender.store sender.store) :
    Addressed n written { s with sender := sender } :=
  ⟨hsender, fun slot f hf => (hs.flights slot f hf).kept hkept, hs.written_eq⟩

theorem Addressed.withOutbox {o : Outbox} (hwrote : n.Wrote s.outbox o) :
    (s.withOutbox o).Addressed n written := by
  obtain ⟨new, hnew, hbears⟩ := hs.written_eq
  obtain ⟨more, hmore, hbears'⟩ := hwrote.written
  refine ⟨hs.sender.grow hwrote.store,
    fun slot f hf => (hs.flights slot f hf).kept hwrote.store, new ++ more, ?_, ?_⟩
  · rw [← append_assoc, ← hnew]
    exact hmore
  · exact fun record hrecord => (mem_append.mp hrecord).elim (hbears record) (hbears' record)

theorem Addressed.setFlight (slot : FlightSlot) {flight : Option SentFlight}
    (hflight : ∀ f, flight = some f → n.Sent unsent s.sender.store f) :
    Addressed n written { s with flights := Function.update s.flights slot flight } :=
  ⟨hs.sender, forall_setFlight hs.flights hflight, hs.written_eq⟩

theorem Addressed.wp_onOutbox {α : Type} {m : EStateM Err Outbox α} {p : α → Outbox → Prop}
    (hm : wp m (fun value o => n.Wrote s.outbox o ∧ p value o) (fun _ => n.Wrote s.outbox)
      s.outbox) :
    wp (onOutbox m) (fun value next => next.Addressed n written ∧ p value next.outbox)
      (fun _ => Addressed n written) s := by
  unfold onOutbox
  rw [wp_zoom]
  exact wp_mono hm (fun _ _ hboth => ⟨hs.withOutbox hboth.1, hboth.2⟩)
    fun _ _ hwrote => hs.withOutbox hwrote

theorem Addressed.wp_beginKeyUpdate (requestUpdate : Bool) :
    Holds (Addressed n written) (beginKeyUpdate P requestUpdate) s := by
  apply SendingSide.wp_beginKeyUpdate (fun _ => hs) fun _ => hs.sender.short
  · intro _ _
    obtain ⟨hsender, hkept, hbears⟩ := hs.sender.updateBegun (P := P) requestUpdate
    have hbegun : (s.updateBegun P requestUpdate).Addressed n written :=
      (hs.withSender hsender hkept).of_updates rfl rfl rfl
    exact holds_writeRecord (Outbox.Writes.refl _) (fun hwrote => hbegun.withOutbox hwrote) hbears
  · intro _ fragment _
    have hsender : n.Sends (s.sender.withPendingFragment fragment) :=
      ⟨hs.sender.suite, hs.sender.named, hs.sender.short, hs.sender.mem, hs.sender.cipher,
        hs.sender.pending⟩
    exact hs.withSender hsender (Std.Refl.refl _)

theorem Addressed.wp_retransmitPendingUpdate :
    Holds (Addressed n written) (retransmitPendingUpdate P) s := by
  unfold retransmitPendingUpdate
  rw [Holds, wp_bind, wp_get]
  refine wp_guard hs fun _ => ?_
  rw [wp_bind, onSender, wp_zoom]
  refine wp_mono hs.sender.wp_retransmitKeyUpdate ?_ ?_
  · rintro wire sender ⟨hsender, hkept, hbears⟩
    have hsealed := hs.withSender hsender hkept
    exact wp_seq (holds_writeRecord (Outbox.Writes.refl _)
      (fun hwrote => hsealed.withOutbox hwrote) hbears) fun _ _ hwritten => hwritten
  · rintro err sender rfl
    exact hs

/-! ## Flights of the side -/

/-- The numbers a flight takes have nothing to do with IDs. -/
theorem Addressed.commit (count : Nat) : Addressed n written { s with sender :=
      { s.sender with traffic := s.sender.traffic.commitMessageSequences count } } :=
  hs.withSender ⟨hs.sender.suite, hs.sender.named, hs.sender.short, hs.sender.mem,
    hs.sender.cipher, hs.sender.pending⟩ (Std.Refl.refl _)

theorem Addressed.wp_commitFlight {f : SentFlight} (hf : n.Sent unsent s.sender.store f)
    (slot : FlightSlot) (messages : List HandshakeMessage) :
    Holds (Addressed n written) (commitFlight P slot messages f) s := by
  have hwrite : wp (beginning messages (onOutbox (Outbox.writeFlight P f)))
      (fun sent next => next.Addressed n written ∧ n.Sent unsent next.sender.store sent)
      (fun _ => Addressed n written) s := by
    refine wp_beginning (wp_mono (hs.wp_onOutbox (((sealedRule P n).flightRule
      s.outbox).wp_writeFlight ⟨Outbox.Writes.refl s.outbox, hf⟩)) ?_ ?_)
    · exact fun _ _ hsent => ⟨hsent.1.of_updates rfl rfl rfl, hsent.2⟩
    · intro _ next hnext
      split
      · exact hnext
      · exact hnext.of_updates rfl rfl rfl
  unfold commitFlight
  rw [Holds, wp_bind]
  refine wp_imp hwrite ?_
  rintro sent next ⟨hnext, hsent⟩
  rw [wp_bind, wp_modify]
  apply (hnext.commit messages.length).setFlight slot
  rintro f' ⟨⟩
  exact hsent

/-- A flight that is sent again is put back. -/
theorem Addressed.wp_resendFlight (slot : FlightSlot) {m : EStateM Err Outbox SentFlight}
    (hm : wp m (fun f o => n.Wrote s.outbox o ∧ n.Sent unsent o.store f)
      (fun _ => n.Wrote s.outbox) s.outbox) :
    Holds (Addressed n written) (do let next ← onOutbox m; SendingSide.setFlight slot (some next))
      s := by
  rw [Holds, wp_bind]
  refine wp_imp (hs.wp_onOutbox hm) ?_
  rintro f next ⟨hnext, hf⟩
  apply hnext.setFlight slot
  rintro f' ⟨⟩
  exact hf

end

theorem addressed_invariant (P : Primitives) (n : Naming) (written : List SealedRecord) :
    Invariant P (Addressed n written) (fun _ _ => True)
      (fun s _ f => n.Sent unsent s.sender.store f) n.Kept (fun _ => n.Bears) where
  same hs hsame := hs.of_updates hsame.sender hsame.transport hsame.flights
  received _ _ hs := hs.of_updates rfl rfl rfl
  readyReceived _ hf := hf
  reduceMTU _ hs := ⟨hs.sender, hs.flights, hs.written_eq⟩
  forget hs hfewer := ⟨hs.sender, fun slot f hf => hs.flights slot f (hfewer slot f hf),
    hs.written_eq⟩
  outbox hs hwrote := hs.withOutbox hwrote
  seals hs hseals := (hs.sender.cipher.seals hseals).imp_right fun hbears _ => hbears
  beginUpdate requestUpdate hs := hs.wp_beginKeyUpdate requestUpdate
  repeatUpdate hs := hs.wp_retransmitPendingUpdate
  finishUpdate numbers hs := by
    obtain ⟨hsender, hstore⟩ := hs.sender.processACK numbers
    refine hs.withSender hsender ?_
    rw [hstore]
    exact Std.Refl.refl _
  built {_ _ g _} hs _ hbuilt _ := ⟨g, rfl, (hs.sender.cipher.built hbuilt).of_pending⟩
  commit slot hs hf := hs.wp_commitFlight hf slot _
  resend {s slot f} hs hslot := by
    have hrule := (sealedRule P n).flightRule s.outbox
    have hf := hs.flights slot f hslot
    exact ⟨fun numbers => hs.wp_resendFlight slot (hrule.wp_retransmitPartialFlight
        ⟨Outbox.Writes.refl s.outbox, hf.ack numbers⟩),
      fun timeoutCount => hs.wp_resendFlight slot (hrule.wp_retransmitAfterTimeout
        ⟨Outbox.Writes.refl s.outbox, hf⟩ timeoutCount)⟩

end SendingSide

end Dtls13
