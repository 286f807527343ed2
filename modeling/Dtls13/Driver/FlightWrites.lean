import Dtls13.Driver.FlightNumbers

/-! # What a flight writes

However a protected flight is cut up, rebuilt and sent again, what it writes carries
parts of its messages. A flight that is sent for the first time has written nothing
when it fails, provided no write fails after another one of the same window succeeded.
-/

namespace Dtls13

open StateLogic SentFlight List

/-! ## Windows that fail as a whole -/

/-- How many records the first window of the messages has when they are cut up for an MTU. -/
def RecordCipher.firstWindow (c : RecordCipher) (messages : List HandshakeMessage) (mtu : Nat) :
    Nat :=
  min 10 (messages.flatMap fun m => fragmentHandshakeMessage m (maxFragmentFor c mtu)).length

/-- In front of a window of as many records as `window` says for the MTU: once a record is
written, so are the others of the window. A record that is too long begins the window
anew, for the next smaller MTU. -/
def wholeWindow (window : Nat → Nat) (floor : Nat) : Nat → List WriteOutcome → Bool
  | _, [] => true
  | _, .failed :: _ => true
  | mtu, .tooLong :: rest =>
    mtu ≤ floor || wholeWindow window floor (max (mtu * 3 / 4) floor) rest
  | mtu, .written :: rest => (rest.take (window mtu - 1)).all (· == .written)

def Transport.startsWhole (t : Transport) (window : Nat → Nat) : Bool :=
  wholeWindow window t.pathMTUFloor t.pathMTU t.outcomes

theorem takeUnsent_length (capacity : Nat) (records : List FlightRecord) :
    (takeUnsent capacity records).2.length ≤ min capacity records.length := by
  rw [takeUnsent_returned, length_map, length_take]
  exact min_le_min_left capacity (length_filter_le _ _)

/-- A window of protected records. -/
theorem nextUnsentRecords_length {records : List FlightRecord}
    (hepoch : ∀ record ∈ records, 0 < record.number.epoch) :
    (nextUnsentRecords records).2.length ≤ min 10 records.length := by
  cases records with
  | nil => simp [nextUnsentRecords, windowCapacity, takeUnsent]
  | cons record records =>
    have hprotected : (record :: records).any (fun r => 0 < r.number.epoch) = true :=
      any_eq_true.mpr ⟨record, mem_cons_self, decide_eq_true (hepoch record mem_cons_self)⟩
    refine (takeUnsent_length _ _).trans (min_le_min_right _ ?_)
    rw [windowCapacity, if_pos hprotected]
    exact Nat.sub_le _ _

namespace Transport

/-- Writes that all succeed. -/
theorem wp_writeAll_of_written {records : List SealedRecord} {t : Transport}
    (hwritten : (t.outcomes.take records.length).all (· == .written) = true) :
    wp (writeAll records) (fun _ _ => True) (fun _ _ => False) t := by
  induction records generalizing t with
  | nil => trivial
  | cons record rest ih =>
    rw [writeAll, wp_bind]
    simp only [write, wp_bind, wp_get]
    cases houtcomes : t.outcomes with
    | nil => exact ih (by simp)
    | cons outcome others =>
      rw [houtcomes, length_cons, take_succ_cons, all_cons,
        Bool.and_eq_true, beq_iff_eq] at hwritten
      obtain ⟨rfl, hothers⟩ := hwritten
      exact ih hothers

/-- A window that fails has written nothing. -/
theorem wp_writeAll_of_startsWhole {records : List SealedRecord} {t : Transport}
    {window : Nat → Nat} (hlength : records.length ≤ window t.pathMTU)
    (hwhole : t.startsWhole window = true) :
    wp (writeAll records) (fun _ _ => True)
      (fun err next => next.written = t.written ∧ (err = .datagramTooLarge →
        ∀ mtu, next.reducePathMTU = some mtu →
          { next with pathMTU := mtu }.startsWhole window = true)) t := by
  cases records with
  | nil => trivial
  | cons record rest =>
    rw [writeAll, wp_bind]
    simp only [write, wp_bind, wp_get]
    cases houtcomes : t.outcomes with
    | nil =>
      change wp (writeAll rest) _ _ _
      refine wp_mono (wp_writeAll_of_written ?_) (fun _ _ _ => trivial)
        fun _ _ habsurd => habsurd.elim
      simp
    | cons outcome others =>
      unfold startsWhole at hwhole
      rw [houtcomes] at hwhole
      cases outcome with
      | tooLong =>
        refine ⟨rfl, fun _ mtu hmtu => ?_⟩
        unfold reducePathMTU at hmtu
        rw [wholeWindow, Bool.or_eq_true, decide_eq_true_eq] at hwhole
        split_ifs at hmtu with hfloor
        rw [← Option.some.inj hmtu]
        exact hwhole.resolve_left hfloor
      | failed => exact ⟨rfl, by rintro ⟨⟩⟩
      | written =>
        change wp (writeAll rest) _ _ _
        refine wp_mono (wp_writeAll_of_written ?_) (fun _ _ _ => trivial)
          fun _ _ habsurd => habsurd.elim
        rw [wholeWindow, all_eq_true] at hwhole
        refine all_eq_true.mpr fun x hx => hwhole x ?_
        exact (take_subset_take_left others (Nat.le_sub_one_of_lt hlength)) hx

end Transport

/-! ## Protected flights -/

namespace SentFlight

/-- A protected flight with a property. -/
def IsSealed (f : SentFlight) (A : Flight → Prop) : Prop := ∃ g, f.flight = .sealed g ∧ A g

variable {f : SentFlight} {A B : Flight → Prop}

theorem IsSealed.imp (hf : f.IsSealed A) (himp : ∀ g, A g → B g) : f.IsSealed B := by
  obtain ⟨g, hflight, hg⟩ := hf
  exact ⟨g, hflight, himp g hg⟩

theorem IsSealed.withRecords (hf : f.IsSealed A) (mark : List FlightRecord → List FlightRecord)
    (hmark : ∀ g : Flight, A g → B { g with records := mark g.records }) :
    (f.withRecords (mark f.records)).IsSealed B := by
  obtain ⟨g, hflight, hg⟩ := hf
  unfold SentFlight.withRecords SentFlight.records
  rw [hflight]
  exact ⟨_, rfl, hmark g hg⟩

theorem IsSealed.forall_records (hf : f.IsSealed A) {Q : List FlightRecord → Prop}
    (hrecords : ∀ g, A g → Q g.records) : Q f.records := by
  obtain ⟨g, hflight, hg⟩ := hf
  unfold SentFlight.records
  rw [hflight]
  exact hrecords g hg

end SentFlight

namespace Outbox

/-- Records of kind `p` were written, and the ciphers changed in the way `S`. -/
structure Writes (S : CipherStore → CipherStore → Prop) (p : SealedRecord → Prop)
    (o next : Outbox) : Prop where
  store : S o.store next.store
  written : ∃ new, next.transport.written = o.transport.written ++ new ∧ ∀ r ∈ new, p r

variable {P : Primitives} {S : CipherStore → CipherStore → Prop} {p : SealedRecord → Prop}
  {A B : CipherStore → Flight → Prop} {o middle next : Outbox} {f : SentFlight}

theorem Writes.refl [Std.Refl S] (o : Outbox) : Writes S p o o :=
  ⟨Std.Refl.refl _, [], (append_nil _).symm, by simp⟩

theorem writes_store {store : CipherStore} (hstore : S o.store store) :
    Writes S p o { o with store := store } := ⟨hstore, [], (append_nil _).symm, by simp⟩

theorem Writes.grow [IsTrans CipherStore S] (hwrites : Writes S p o next) {store : CipherStore}
    (hstore : S next.store store) : Writes S p o { next with store := store } :=
  ⟨IsTrans.trans _ _ _ hwrites.store hstore, hwrites.written⟩

theorem Writes.wp_writeAll (hwrites : Writes S p o middle) {wires : List SealedRecord}
    (hwires : ∀ w ∈ wires, p w) :
    wp (onTransport (Transport.writeAll wires))
      (fun _ next => Writes S p o next ∧ next.store = middle.store)
      (fun _ next => Writes S p o next ∧ next.store = middle.store) middle := by
  obtain ⟨new, hnew, hp⟩ := hwrites.written
  have hwrote : ∀ {done : List SealedRecord} {t : Transport}, done ⊆ wires →
      Transport.Wrote done middle.transport t → Writes S p o { middle with transport := t } := by
    intro done t hdone hwritten
    refine ⟨hwrites.store, new ++ done, ?_, fun w hw => ?_⟩
    · exact hwritten.written.trans (by rw [hnew, append_assoc])
    · exact (mem_append.mp hw).elim (hp w) fun hmem => hwires w (hdone hmem)
  rw [onTransport, wp_zoom]
  refine wp_mono (Transport.wp_writeAll wires middle.transport) ?_ ?_
  · exact fun _ _ hall => ⟨hwrote (List.Subset.refl _) hall, rfl⟩
  · rintro err t ⟨done, rest, rfl, -, hdone⟩
    exact ⟨hwrote (subset_append_left _ _) hdone, rfl⟩

/-- What is known of a protected flight while it is sent: `A` of the flight and `B` of one
that was rebuilt just now. -/
structure SealedRule (P : Primitives) (S : CipherStore → CipherStore → Prop)
    (p : SealedRecord → Prop) (A B : CipherStore → Flight → Prop) : Prop where
  unsent : ∀ {store g}, A store g → (∀ w ∈ (nextUnsentRecords g.records).2, p w) ∧
    A store { g with records := (nextUnsentRecords g.records).1 }
  resize : ∀ {store g} (mtu : Nat), A store g →
    wp (g.resize P mtu) (fun resized next => S store next ∧ A next resized) (fun _ => S store)
      store
  rebuild : ∀ {store g}, A store g → S store (g.rebuild P store).2.1 ∧
    ((g.rebuild P store).2.2 = none → B (g.rebuild P store).2.1 (g.rebuild P store).1)
  resend : ∀ {store g}, B store g → (∀ w ∈ retransmitRecords g.records 10, p w) ∧ A store g

/-- What sending a protected flight has come to since `o`. -/
def Sends (S : CipherStore → CipherStore → Prop) (p : SealedRecord → Prop)
    (A : CipherStore → Flight → Prop) (o : Outbox) (f : SentFlight) (next : Outbox) : Prop :=
  Writes S p o next ∧ f.IsSealed (A next.store)

theorem SealedRule.flightRule [IsTrans CipherStore S] (hrule : SealedRule P S p A B)
    (o : Outbox) : FlightRule P (Sends S p A o) (Sends S p B o) fun _ => Writes S p o where
  stops hsends := hsends.1
  unsent {f middle} hsends := by
    have hmarked : (f.withRecords (nextUnsentRecords f.records).1).IsSealed (A middle.store) :=
      hsends.2.withRecords (fun records => (nextUnsentRecords records).1)
        fun g hg => (hrule.unsent hg).2
    have hwires : ∀ w ∈ (nextUnsentRecords f.records).2, p w :=
      hsends.2.forall_records (Q := fun records => ∀ w ∈ (nextUnsentRecords records).2, p w)
        fun g hg => (hrule.unsent hg).1
    refine wp_mono (hsends.1.wp_writeAll hwires) ?_ ?_
    · rintro _ next ⟨hwrites, hstore⟩
      exact ⟨hwrites, hstore ▸ hmarked⟩
    · rintro _ next ⟨hwrites, hstore⟩
      exact ⟨⟨hwrites, hstore ▸ hmarked⟩, hwrites⟩
  atMTU mtu hsends := ⟨⟨hsends.1.store, hsends.1.written⟩, hsends.2⟩
  resize {f middle} mtu hsends := by
    obtain ⟨hwrites, g, hflight, hg⟩ := hsends
    have hrun := hrule.resize mtu hg
    unfold wp at hrun
    unfold wp Outbox.resize OutgoingFlight.resize
    rw [hflight]
    dsimp only
    cases hresize : g.resize P mtu middle.store with
    | ok resized grown =>
      rw [hresize] at hrun
      exact ⟨hwrites.grow hrun.1, resized, rfl, hrun.2⟩
    | error err grown =>
      rw [hresize] at hrun
      exact hwrites.grow hrun
  refresh {f middle} hsends := by
    obtain ⟨hwrites, g, hflight, hg⟩ := hsends
    obtain ⟨hstore, hrebuilt⟩ := hrule.rebuild hg
    unfold wp refreshPending OutgoingFlight.refreshPending
    rw [hflight]
    dsimp only
    rcases hrun : g.rebuild P middle.store with ⟨rebuilt, grown, _ | err⟩ <;>
      rw [hrun] at hstore hrebuilt
    · exact ⟨hwrites.grow hstore, rebuilt, rfl, hrebuilt rfl⟩
    · exact hwrites.grow hstore
  resend {f middle} hsends := by
    have hwires : ∀ w ∈ retransmitRecords f.records 10, p w :=
      hsends.2.forall_records (Q := fun records => ∀ w ∈ retransmitRecords records 10, p w)
        fun g hg => (hrule.resend hg).1
    unfold retransmitFlight
    rw [wp_bind]
    refine wp_mono (hsends.1.wp_writeAll hwires) ?_ fun _ _ hfailed => hfailed.1
    rintro _ next ⟨hwrites, hstore⟩
    exact ⟨hwrites, hstore ▸ hsends.2.imp fun g hg => (hrule.resend hg).2⟩
  flagged _ hsends := hsends

/-! ## Parts of messages on the wire -/

variable {messages : List HandshakeMessage} {store : CipherStore}

/-- The ciphers may have sealed other records. -/
abbrev GrowsAny : CipherStore → CipherStore → Prop := CipherStore.Grows fun _ => True

instance : Std.Refl GrowsAny := ⟨CipherStore.Grows.refl⟩

instance : IsTrans CipherStore GrowsAny := ⟨fun _ _ _ => CipherStore.Grows.trans⟩

/-- A protected flight that carries the messages. -/
def Carries (messages : List HandshakeMessage) (store : CipherStore) (g : Flight) : Prop :=
  store.Holds g ∧ g.messages = messages

theorem Carries.parts {g : Flight} (hg : Carries messages store g) :
    ∀ record ∈ g.records, CarriesPartOf messages record.wire := by
  intro record hrecord
  rw [← hg.2]
  exact (hg.1.carries hrecord).2.2

theorem Carries.reflag {g : Flight} (hg : Carries messages store g) {records : List FlightRecord}
    (hwires : records.map (·.wire) = g.records.map (·.wire)) :
    Carries messages store { g with records := records } :=
  ⟨Flight.Reflagged.holds ⟨hwires, rfl, rfl, rfl⟩ hg.1, hg.2⟩

abbrev Carried (messages : List HandshakeMessage) (store : CipherStore) (f : SentFlight) : Prop :=
  f.IsSealed (Carries messages store)

theorem Carried.extend (hcarried : Carried messages store f) {store' : CipherStore}
    (hextends : CipherStore.Extends p store store') : Carried messages store' f :=
  hcarried.imp fun _ hg => ⟨hg.1.extend hextends, hg.2⟩

theorem Carried.ack (hcarried : Carried messages store f) (numbers : List RecordNumber) :
    Carried messages store (f.ack numbers) :=
  hcarried.withRecords (ackRecords · numbers) fun _ hg => hg.reflag (by simp [ackRecords])

/-- Whatever is sent of a flight carries parts of its messages. -/
theorem carriedRule (P : Primitives) (messages : List HandshakeMessage) :
    SealedRule P GrowsAny (CarriesPartOf messages) (Carries messages) (Carries messages) where
  unsent {store g} hg := by
    obtain ⟨hwires, hsubset⟩ := Flight.takeUnsent_wires (windowCapacity g.records) g.records
    refine ⟨fun w hw => ?_, hg.reflag hwires⟩
    obtain ⟨record, hrecord, rfl⟩ := mem_map.mp (hsubset w hw)
    exact hg.parts record hrecord
  resize {store g} mtu hg :=
    wp_mono (CipherStore.wp_resize mtu (fun _ _ _ _ _ _ => trivial) hg.1)
      (fun _ _ hresized => ⟨hresized.1, hresized.2.1, hresized.2.2.2.trans hg.2⟩)
      fun _ _ hgrows => hgrows
  rebuild {store g} hg := by
    obtain ⟨hgrows, hrebuilt⟩ := hg.1.rebuild (P := P) (p := fun _ => True)
      fun _ _ _ _ _ _ => trivial
    exact ⟨hgrows, fun _ => ⟨hrebuilt, hg.2⟩⟩
  resend {store g} hg := by
    refine ⟨fun w hw => ?_, hg⟩
    obtain ⟨record, hrecord, rfl⟩ := mem_map.mp hw
    exact hg.parts record (mem_of_mem_filter (mem_of_mem_take hrecord))

/-! ## First transmissions -/

/-- A flight about to be sent for the first time: a write that fails is the first one
of its window. -/
structure StartsWhole (o : Outbox) (g : Flight) : Prop where
  cipher_lt : g.cipher < o.store.ciphers.length
  epoch : 0 < (o.store.read g.cipher).epoch
  window : (nextUnsentRecords g.records).2.length ≤
    (o.store.read g.cipher).firstWindow g.messages o.transport.pathMTU
  whole : o.transport.startsWhole ((o.store.read g.cipher).firstWindow g.messages) = true

/-- A flight was built under a cipher; sealing does not change how its messages are cut. -/
theorem startsWhole_of_built {ref : CipherRef} {t : Transport} {g : Flight} {grown : CipherStore}
    (hbuilt : CipherStore.FlightBuilt P messages t.pathMTU ref store g grown)
    (href : ref < store.ciphers.length) (hepoch : 0 < (store.read ref).epoch)
    (hwhole : t.startsWhole ((store.read ref).firstWindow messages) = true) :
    StartsWhole ⟨grown, t⟩ g := by
  have hholds := hbuilt.holds href
  have hread : grown.read g.cipher = (store.read ref).spent g.fragments.length := by
    rw [hbuilt.cipher, hbuilt.seals.read, CipherStore.spend, Function.update_self,
      CipherStore.contents, length_map]
  have hepoch' : 0 < (grown.read g.cipher).epoch := by
    rw [hread]
    exact hepoch
  constructor
  · exact hholds.cipher_lt
  · exact hepoch'
  · have hwindow := nextUnsentRecords_length fun record hrecord =>
      hepoch'.trans_eq (hholds.carries hrecord).2.1.symm
    rw [hholds.carried.length_eq, hbuilt.cut] at hwindow
    rw [hread, hbuilt.messages]
    exact hwindow
  · rw [hread, hbuilt.messages]
    exact hwhole

/-- The failure of a first transmission has nothing on the wire. -/
theorem wp_writeFlightLoop_of_startsWhole {fuel : Nat} {g : Flight}
    (hflight : f.flight = .sealed g) (hstarts : StartsWhole o g) :
    wp (writeFlightLoop P fuel f) (fun _ _ => True)
      (fun _ next => next.transport.written = o.transport.written) o := by
  induction fuel generalizing f g o with
  | zero => rfl
  | succ fuel ih =>
    have hrecords : f.records = g.records := by
      unfold SentFlight.records
      rw [hflight]
      rfl
    unfold writeFlightLoop
    dsimp only
    rw [wp_recover, wp_bind, onTransport, wp_zoom, hrecords]
    refine wp_mono (Transport.wp_writeAll_of_startsWhole hstarts.window hstarts.whole)
      (fun _ _ _ => trivial) ?_
    rintro err failed ⟨hwritten, hrest⟩
    refine wp_guard hwritten fun hlong => ?_
    rw [wp_bind, wp_get]
    dsimp only
    cases hreduced : failed.reducePathMTU with
    | none => exact hwritten
    | some mtu =>
      dsimp only
      rw [wp_bind, wp_modify, wp_bind]
      -- The flight is cut up anew, and its window is in front of the remaining outcomes.
      have hresize : wp (Flight.resize P { g with records := (nextUnsentRecords g.records).1 } mtu)
          (fun resized grown => StartsWhole ⟨grown, { failed with pathMTU := mtu }⟩ resized)
          (fun _ _ => True) o.store := by
        unfold Flight.resize
        rw [wp_bind]
        refine wp_mono (CipherStore.wp_buildProtectedFlight _ _ _ _) (fun built grown hbuilt => ?_)
          fun _ _ _ => trivial
        have hstart := startsWhole_of_built (t := { failed with pathMTU := mtu }) hbuilt
          hstarts.cipher_lt hstarts.epoch (hrest (not_not.mp hlong) mtu hreduced)
        exact ⟨hstart.cipher_lt, hstart.epoch, hstart.window, hstart.whole⟩
      unfold withRecords
      rw [hflight]
      unfold wp resize OutgoingFlight.resize OutgoingFlight.withRecords
      dsimp only
      rcases wp_cases hresize with ⟨resized, grown, hok, hstart⟩ | ⟨err, grown, herror, -⟩
      · rw [hok]
        refine wp_mono (ih (f := { f with flight := .sealed resized }) rfl hstart)
          (fun _ _ _ => trivial) ?_
        exact fun _ _ hnone => hnone.trans hwritten
      · rw [herror]
        exact hwritten

theorem wp_writeFlight_of_startsWhole {g : Flight} (hflight : f.flight = .sealed g)
    (hstarts : StartsWhole o g) : wp (writeFlight P f) (fun _ _ => True)
      (fun _ next => next.transport.written = o.transport.written) o := by
  unfold writeFlight
  rw [wp_bind, wp_get]
  exact wp_writeFlightLoop_of_startsWhole hflight hstarts

end Outbox

end Dtls13
