import Dtls13.Driver.SideInvariant

/-! # Message numbers after the handshake

The numbers of a flight are taken when its first transmission succeeds, and those of
an update before its record is written. In a run in which no first transmission fails
half way, every handshake record on the wire carries a part of one message, and the
messages have increasing numbers.
-/

namespace Dtls13

open ByteCodec StateLogic RunSystem SendingTraffic Outbox CipherStore List

theorem CarriesPartOf.mono {messages others : List HandshakeMessage} {record : SealedRecord}
    (hcarries : CarriesPartOf messages record) (hsubset : messages ⊆ others) :
    CarriesPartOf others record := by
  obtain ⟨htype, m, hm, hpart⟩ := hcarries
  exact ⟨htype, m, hsubset hm, hpart⟩

/-- The KeyUpdate message with the given number. -/
def keyUpdateMessage (sequence : Nat) (requestUpdate : Bool) : HandshakeMessage :=
  ⟨handshakeTypeKeyUpdate, sequence, marshalKeyUpdate requestUpdate⟩

/-- A KeyUpdate is sent in one piece. -/
theorem isPart_keyUpdateFragment (sequence : Nat) (requestUpdate : Bool) :
    (keyUpdateMessage sequence requestUpdate).IsPart (keyUpdateFragment sequence requestUpdate) :=
  ⟨rfl, rfl, rfl, le_rfl, rfl⟩

/-- A handshake record that was written carries a part of a message that was begun. -/
def Accounted (begun : List HandshakeMessage) (record : SealedRecord) : Prop :=
  record.contentType = recordTypeHandshake → CarriesPartOf begun record

theorem Accounted.mono {begun others : List HandshakeMessage} {record : SealedRecord}
    (haccounted : Accounted begun record) (hsubset : begun ⊆ others) : Accounted others record :=
  fun htype => (haccounted htype).mono hsubset

/-! ## Numbers in a row -/

theorem numberMessages_length (first : Nat) (bodies : List (UInt8 × Bytes)) :
    (numberMessages first bodies).length = bodies.length := by
  induction bodies generalizing first with
  | nil => rfl
  | cons body rest ih => exact congrArg Nat.succ (ih (first + 1))

namespace SendingSide

variable {P : Primitives} {hooks : AuthHooks} {s next : SendingSide}

/-! ## The invariant -/

/-- What was begun is numbered in order, and everything on the wire and everything
that may be sent again is part of it. -/
structure Ordered (s : SendingSide) : Prop where
  numbered : s.sender.Numbered
  epoch : 0 < s.sender.cipher.epoch
  flights : ∀ slot f, s.flights slot = some f → ∃ messages, messages ⊆ s.begun ∧
    Outbox.Carried messages s.sender.store f
  update : s.updatePending = true → ∃ q requestUpdate, keyUpdateMessage q requestUpdate ∈ s.begun ∧
    s.sender.traffic.pendingFragment = (keyUpdateFragment q requestUpdate).putHandshakeFragment
  written : ∀ record ∈ s.transport.written, Accounted s.begun record
  increasing : s.begun.Pairwise (·.sequence < ·.sequence)
  below : ∀ m ∈ s.begun, m.sequence < s.sender.traffic.unusedSequence

section

variable (hs : s.Ordered)

include hs

/-- Messages are begun, under numbers that were free. -/
theorem Ordered.begin {sender : Sender} {new : List HandshakeMessage}
    (hadvances : Sender.Advances s.sender sender)
    (hincreasing : new.Pairwise (·.sequence < ·.sequence))
    (hnew : ∀ m ∈ new, s.sender.traffic.unusedSequence ≤ m.sequence ∧
      m.sequence < sender.traffic.unusedSequence)
    (hupdate : sender.traffic.update.pending = true → ∃ q requestUpdate,
      keyUpdateMessage q requestUpdate ∈ s.begun ++ new ∧
        sender.traffic.pendingFragment = (keyUpdateFragment q requestUpdate).putHandshakeFragment) :
    Ordered { s with sender := sender, begun := s.begun ++ new } where
  numbered := hadvances.numbered
  epoch := hs.epoch.trans_le hadvances.epoch_le
  flights slot f hf := by
    obtain ⟨messages, hsubset, hcarried⟩ := hs.flights slot f hf
    exact ⟨messages, subset_append_of_subset_left _ hsubset, hcarried.extend hadvances.store⟩
  update := hupdate
  written record hrecord := (hs.written record hrecord).mono (subset_append_left _ _)
  increasing := pairwise_append.mpr ⟨hs.increasing, hincreasing,
    fun m hm m' hm' => (hs.below m hm).trans_le (hnew m' hm').1⟩
  below m hm := (mem_append.mp hm).elim
    (fun hold => (hs.below m hold).trans_le hadvances.unused_le) fun hadded => (hnew m hadded).2

/-- A change of the sender that begins no message. -/
theorem Ordered.withSender {sender : Sender} (hadvances : Sender.Advances s.sender sender)
    (hpending : sender.traffic.update.pending = true → s.updatePending = true ∧
      sender.traffic.pendingFragment = s.sender.traffic.pendingFragment) :
    Ordered { s with sender := sender } := by
  have hnext := hs.begin hadvances .nil nofun fun hnext => by
    obtain ⟨hbefore, hfragment⟩ := hpending hnext
    obtain ⟨q, requestUpdate, hmem, heq⟩ := hs.update hbefore
    exact ⟨q, requestUpdate, mem_append_left _ hmem, hfragment.trans heq⟩
  rwa [append_nil] at hnext

/-- Writing what belongs to messages that were begun. -/
theorem Ordered.withOutbox {o : Outbox}
    (hwrites : Outbox.Writes GrowsAny (Accounted s.begun) s.outbox o) :
    (s.withOutbox o).Ordered := by
  have hsender := hs.withSender (hs.numbered.grow hwrites.store) fun hpending => ⟨hpending, rfl⟩
  obtain ⟨new, hwritten, hnew⟩ := hwrites.written
  refine ⟨hsender.numbered, hsender.epoch, hsender.flights, hsender.update, ?_,
    hsender.increasing, hsender.below⟩
  intro record hrecord
  rw [show (s.withOutbox o).transport.written = _ from hwritten] at hrecord
  exact (mem_append.mp hrecord).elim (hs.written record) (hnew record)

/-- Flights may be forgotten. -/
theorem Ordered.withFlights {flights : FlightSlot → Option SentFlight}
    (hflights : ∀ slot f, flights slot = some f → ∃ messages, messages ⊆ s.begun ∧
      Outbox.Carried messages s.sender.store f) : Ordered { s with flights := flights } :=
  ⟨hs.numbered, hs.epoch, hflights, hs.update, hs.written, hs.increasing, hs.below⟩

theorem Ordered.setFlight (slot : FlightSlot) {flight : Option SentFlight}
    (hflight : ∀ f, flight = some f → ∃ messages, messages ⊆ s.begun ∧
      Outbox.Carried messages s.sender.store f) :
    Ordered { s with flights := Function.update s.flights slot flight } := by
  apply hs.withFlights
  exact forall_setFlight hs.flights hflight

theorem Ordered.of_same (hsame : SameMessages s next) : next.Ordered := by
  obtain ⟨hsender, htransport, hflights, hbegun⟩ := hsame
  refine ⟨hsender ▸ hs.numbered, hsender ▸ hs.epoch, ?_, ?_, ?_, hbegun ▸ hs.increasing, ?_⟩
  · rw [hflights, hsender, hbegun]
    exact hs.flights
  · rw [updatePending, hsender, hbegun]
    exact hs.update
  · rw [htransport, hbegun]
    exact hs.written
  · rw [hbegun, hsender]
    exact hs.below

/-! ## Records of other kinds -/

omit hs in
theorem accounted_of_ne {begun : List HandshakeMessage} {record : SealedRecord}
    (hne : record.contentType ≠ recordTypeHandshake) : Accounted begun record :=
  fun htype => absurd htype hne

omit hs in
theorem wp_sealRecord_type (ref : CipherRef) {contentType : UInt8} (content : Bytes)
    (hother : contentType ≠ recordTypeHandshake) (store : CipherStore) :
    wp (CipherStore.sealRecord P ref contentType content)
      (fun record next => CipherStore.Grows (fun _ => True) store next ∧
        record.contentType ≠ recordTypeHandshake)
      (fun _ => CipherStore.Grows (fun _ => True) store) store := by
  refine wp_imp (CipherStore.wp_sealRecord_grows P store fun _ _ _ => trivial) ?_
  rintro record next ⟨hgrows, hlogged⟩
  exact ⟨hgrows, hlogged.contentType_eq ▸ hother⟩

omit hs in
theorem wp_sealProbe_type (ref : CipherRef) (probeConnectionID content : Bytes)
    (store : CipherStore) : wp (Outbound.sealProbe P ref probeConnectionID content)
      (fun record next => CipherStore.Grows (fun _ => True) store next ∧
        record.contentType ≠ recordTypeHandshake)
      (fun _ => CipherStore.Grows (fun _ => True) store) store := by
  refine Outbound.wp_sealProbe (wp_mono (wp_sealRecord_type ref content (by decide) _) ?_ ?_)
  · rintro record next ⟨hnext, htype⟩
    exact ⟨Outbound.grows_restore hnext, htype⟩
  · exact fun _ _ => Outbound.grows_restore

/-! ## Key updates -/

theorem Ordered.updateBegun (hcan : s.sender.CanBegin) (requestUpdate : Bool)
    (hadvances : Sender.Advances s.sender (s.sender.updateBegun P requestUpdate)) :
    (s.updateBegun P requestUpdate).Ordered := by
  have hunused := unusedSequence_eq (by decide) hcan.canAllocate
  have hcommit := commitMessageSequences_unused hs.numbered.sequence_lt hcan.canAllocate
  refine hs.begin hadvances (pairwise_singleton _ _) ?_ fun _ => ?_
  · refine forall_mem_singleton.mpr ⟨hunused.le, ?_⟩
    rw [show (s.sender.updateBegun P requestUpdate).traffic.unusedSequence = _ from hcommit.2,
      hunused]
    exact Nat.lt_succ_self _
  · exact ⟨s.sender.traffic.messageSequence, requestUpdate,
      mem_append_right _ (mem_singleton_self _), rfl⟩

theorem Ordered.wp_beginKeyUpdate (requestUpdate : Bool) :
    Holds Ordered (beginKeyUpdate P requestUpdate) s := by
  apply SendingSide.wp_beginKeyUpdate (fun _ => hs) hs.numbered.named
  · intro hcan hsealable
    have hbegun := hs.updateBegun hcan requestUpdate
      (hs.numbered.updateBegun (P := P) hcan hsealable requestUpdate)
    refine holds_writeRecord (Writes.refl _) (fun hwrites => hbegun.withOutbox hwrites) fun htype =>
      ⟨htype, _, ?_, _, isPart_keyUpdateFragment _ _, rfl⟩
    exact mem_append_right _ (mem_singleton_self _)
  · intro err fragment hidle
    refine hs.withSender (hs.numbered.withPendingFragment fragment) fun hpending => ?_
    rw [updatePending, show s.sender.traffic.update.pending = true from hpending] at hidle
    cases hidle

/-- A loop sends the message of the update again. -/
theorem Ordered.wp_retransmitPendingUpdate : Holds Ordered (retransmitPendingUpdate P) s := by
  unfold retransmitPendingUpdate
  rw [Holds, wp_bind, wp_get]
  refine wp_guard hs fun _ => ?_
  rw [wp_bind, onSender, wp_zoom]
  have hsame : wp (Sender.retransmitKeyUpdate P)
      (fun wire sender => sender.traffic.pendingFragment = s.sender.traffic.pendingFragment ∧
        s.updatePending = true ∧ wire.content = s.sender.traffic.pendingFragment)
      (fun _ sender => sender = s.sender) s.sender := by
    apply Sender.wp_retransmitKeyUpdate P
    · rintro record hpending - - rfl
      exact ⟨rfl, hpending, rfl⟩
    · exact fun _ => rfl
  refine wp_mono (wp_and (hs.numbered.wp_retransmitKeyUpdate (P := P)) hsame) ?_ ?_
  · rintro wire sender ⟨⟨hadvances, -, -⟩, hfragment, hpending, hcontent⟩
    have hnext := hs.withSender hadvances fun _ => ⟨hpending, hfragment⟩
    obtain ⟨q, requestUpdate, hmem, heq⟩ := hs.update hpending
    refine wp_seq (holds_writeRecord (Writes.refl _) (fun hwrites => hnext.withOutbox hwrites) ?_)
      fun _ _ hwritten => hwritten
    exact fun htype => ⟨htype, _, hmem, _, isPart_keyUpdateFragment q requestUpdate,
      hcontent.trans heq⟩
  · rintro err sender ⟨-, rfl⟩
    exact hs

/-! ## Flights -/

/-- A new flight, under numbers that are free. -/
structure Starts (s : SendingSide) (messages : List HandshakeMessage) (f : SentFlight) :
    Prop where
  free : ∃ bodies, messages = s.nextMessages bodies ∧
    s.sender.traffic.canAllocateMessageSequences bodies.length = .ok ()
  carried : ∃ g, f.flight = .sealed g ∧ s.sender.store.Holds g ∧ g.messages = messages ∧
    s.outbox.StartsWhole g

/-- A failing first transmission of these messages has nothing on the wire. -/
def writesWhole (s : SendingSide) (messages : List HandshakeMessage) : Bool :=
  s.transport.startsWhole (s.sender.cipher.firstWindow messages)

/-- The numbers of the messages are taken. -/
theorem Ordered.committed {bodies : List (UInt8 × Bytes)}
    (hfree : s.sender.traffic.canAllocateMessageSequences bodies.length = .ok ()) {o : Outbox}
    (hwrites : Outbox.Writes GrowsAny (CarriesPartOf (s.nextMessages bodies)) s.outbox o) :
    Ordered { s with
      sender := ⟨o.store, s.sender.traffic.commitMessageSequences (s.nextMessages bodies).length⟩
      transport := o.transport
      begun := s.begun ++ s.nextMessages bodies } := by
  have hlength : (s.nextMessages bodies).length = bodies.length := numberMessages_length _ _
  have hgrown := hs.numbered.grow hwrites.store
  have hcommitted := hgrown.numbered.commit hfree
  have hadvances := hgrown.trans hcommitted
  have hcommit := commitMessageSequences_unused hs.numbered.sequence_lt hfree
  obtain ⟨new, hwritten, hparts⟩ := hwrites.written
  rw [hlength]
  have hincreasing : (s.nextMessages bodies).Pairwise (·.sequence < ·.sequence) :=
    pairwise_numberMessages _ _
  refine (hs.begin hadvances hincreasing (fun m hm => ?_) fun hpending => ?_).withOutbox (o := o)
    ⟨CipherStore.Grows.refl _, new, hwritten,
      fun record hrecord _ => (hparts record hrecord).mono (subset_append_right _ _)⟩
  · obtain ⟨hfirst, hlast, hbody⟩ := mem_numberMessages hm
    have hunused := unusedSequence_eq (length_pos_of_mem hbody).ne' hfree
    rw [show unusedSequence _ = _ from hcommit.2, hunused]
    exact ⟨hunused ▸ hfirst, hlast⟩
  · obtain ⟨q, requestUpdate, hmem, heq⟩ := hs.update hpending
    exact ⟨q, requestUpdate, mem_append_left _ hmem, heq⟩

theorem Ordered.wp_commitFlight {messages : List HandshakeMessage} {f : SentFlight}
    (hstarts : s.Starts messages f) (slot : FlightSlot) :
    Holds Ordered (commitFlight P slot messages f) s := by
  obtain ⟨bodies, rfl, hfree⟩ := hstarts.free
  obtain ⟨g, hflight, hholds, hmessages, hwhole⟩ := hstarts.carried
  have hcarried : Outbox.Carried (s.nextMessages bodies) s.outbox.store f :=
    ⟨g, hflight, hholds, hmessages⟩
  unfold commitFlight
  rw [Holds, wp_bind]
  apply wp_beginning
  rw [onOutbox, wp_zoom]
  refine wp_mono (wp_and
    (((carriedRule P _).flightRule s.outbox).wp_writeFlight ⟨Writes.refl s.outbox, hcarried⟩)
    (wp_writeFlight_of_startsWhole hflight hwhole)) ?_ ?_
  · rintro written o ⟨hsends, -⟩
    rw [wp_bind, wp_modify]
    apply (hs.committed hfree hsends.1).setFlight slot
    intro f' hf'
    obtain rfl := Option.some.inj hf'
    exact ⟨s.nextMessages bodies, subset_append_right _ _, hsends.2⟩
  · rintro err o ⟨hwrites, hnone⟩
    have hlength : (s.withOutbox o).transport.written.length = s.transport.written.length :=
      congrArg List.length hnone
    rw [if_pos hlength]
    refine hs.withOutbox ⟨hwrites.store, [], ?_, by simp⟩
    exact hnone.trans (append_nil _).symm

/-- A flight that is sent again is put back. -/
theorem Ordered.wp_resendFlight {messages : List HandshakeMessage} (hmessages : messages ⊆ s.begun)
    (slot : FlightSlot) {m : EStateM Err Outbox SentFlight}
    (hm : wp m (Outbox.Sends GrowsAny (CarriesPartOf messages) (Outbox.Carries messages) s.outbox)
      (fun _ => Writes GrowsAny (CarriesPartOf messages) s.outbox) s.outbox) :
    Holds Ordered (do let next ← onOutbox m; SendingSide.setFlight slot (some next)) s := by
  have hwrites : ∀ {o : Outbox}, Writes GrowsAny (CarriesPartOf messages) s.outbox o →
      (s.withOutbox o).Ordered := by
    intro o hwrites
    obtain ⟨new, hwritten, hparts⟩ := hwrites.written
    exact hs.withOutbox ⟨hwrites.store, new, hwritten,
      fun record hrecord _ => (hparts record hrecord).mono hmessages⟩
  rw [Holds, wp_bind, onOutbox, wp_zoom]
  refine wp_mono hm ?_ fun _ _ hfailed => hwrites hfailed
  intro f o hsends
  apply (hwrites hsends.1).setFlight slot
  intro f' hf'
  obtain rfl := Option.some.inj hf'
  exact ⟨messages, hmessages, hsends.2⟩

theorem Ordered.wp_resend {slot : FlightSlot} {f : SentFlight} (hslot : s.flights slot = some f) :
    (∀ numbers, Holds Ordered (do
      let next ← onOutbox (Outbox.retransmitPartialFlight P (f.ack numbers))
      SendingSide.setFlight slot (some next)) s) ∧
    ∀ timeoutCount, Holds Ordered (do
      let next ← onOutbox (Outbox.retransmitAfterTimeout P f timeoutCount)
      SendingSide.setFlight slot (some next)) s := by
  obtain ⟨messages, hmessages, hcarried⟩ := hs.flights slot f hslot
  have hrule := (carriedRule P messages).flightRule s.outbox
  exact ⟨fun numbers => hs.wp_resendFlight hmessages slot (hrule.wp_retransmitPartialFlight
      ⟨Writes.refl s.outbox, hcarried.ack numbers⟩),
    fun timeoutCount => hs.wp_resendFlight hmessages slot (hrule.wp_retransmitAfterTimeout
      ⟨Writes.refl s.outbox, hcarried⟩ timeoutCount)⟩

/-! ## Every part of a step -/

theorem Ordered.processACK (numbers : List RecordNumber) :
    Ordered { s with sender := (s.sender.processACK numbers).2 } := by
  refine hs.withSender (hs.numbered.processACK numbers) fun hpending => ?_
  cases hswitched : (s.sender.processACK numbers).1 with
  | false =>
    rw [Sender.processACK_of_not_switched hswitched] at hpending ⊢
    exact ⟨hpending, rfl⟩
  | true =>
    rw [Sender.processACK_of_switched hswitched] at hpending
    cases hpending

end

theorem ordered_invariant : Invariant P Ordered (fun s messages => s.writesWhole messages = true)
    Starts GrowsAny Accounted where
  same hs hsame := hs.of_same hsame.toSameMessages
  received _ _ hs := hs.of_same ⟨rfl, rfl, rfl, rfl⟩
  readyReceived _ hstarts := ⟨hstarts.free, hstarts.carried⟩
  reduceMTU _ hs := ⟨hs.numbered, hs.epoch, hs.flights, hs.update, hs.written, hs.increasing,
    hs.below⟩
  forget hs hfewer := hs.withFlights fun slot f hf => hs.flights slot f (hfewer slot f hf)
  outbox hs hwrites := hs.withOutbox hwrites
  seals _ hseals := by
    refine ⟨hseals.growsAny, fun hother record hrecord => accounted_of_ne ?_⟩
    obtain ⟨content, -, hlogged⟩ := exists_of_forall₂ hseals.logged.flip hrecord
    exact hlogged.contentType_eq ▸ hother
  beginUpdate requestUpdate hs := hs.wp_beginKeyUpdate requestUpdate
  repeatUpdate hs := hs.wp_retransmitPendingUpdate
  finishUpdate numbers hs := hs.processACK numbers
  built {s bodies g _} hs hfree hbuilt hwhole :=
    ⟨⟨bodies, rfl, hfree⟩, g, rfl, hbuilt.holds hs.numbered.cipher_lt, hbuilt.messages,
      startsWhole_of_built hbuilt hs.numbered.cipher_lt hs.epoch hwhole⟩
  commit slot hs hstarts := hs.wp_commitFlight hstarts slot
  resend hs hslot := hs.wp_resend hslot

/-! ## Connection IDs -/

section

variable (hs : s.Ordered)

include hs

theorem Ordered.wp_sendReturnRoutability (probeConnectionID : Option Bytes) (content : Bytes) :
    Holds Ordered (sendReturnRoutability P probeConnectionID content) s := by
  unfold sendReturnRoutability
  rw [Holds, wp_bind, wp_get, wp_bind]
  refine wp_imp (ordered_invariant.wp_onStore (P := P)
    (fun record => record.contentType ≠ recordTypeHandshake) hs ?_) ?_
  · cases probeConnectionID with
    | none => exact wp_sealRecord_type _ content (by decide) _
    | some cid => exact wp_sealProbe_type _ cid content _
  · rintro wire sealed ⟨hsealed, -, hother⟩
    refine wp_seq (ordered_invariant.wp_writeRecord (P := P) hsealed (accounted_of_ne hother)) ?_
    exact fun _ _ hnext => ordered_invariant.updates.wp_updateAfterSend hnext

theorem Ordered.wp_activatePeerConnectionID (cid : Bytes) :
    Holds Ordered (activatePeerConnectionID cid) s := by
  unfold activatePeerConnectionID
  rw [Holds, wp_bind, onSender, wp_zoom]
  have hset : ∀ sender, Sender.Advances s.sender sender ∧ Sender.SameMessages s.sender sender →
      Ordered { s with sender := sender } := fun sender hboth =>
    hs.withSender hboth.1 fun hpending => ⟨hboth.2.pending.symm.trans hpending, hboth.2.fragment⟩
  refine wp_mono (wp_and (hs.numbered.wp_setConnectionID cid)
    (Sender.keeps_messages_setConnectionID cid s.sender)) ?_ ?_
  · exact fun _ sender hboth => (hset sender hboth).of_same ⟨rfl, rfl, rfl, rfl⟩
  · exact fun _ sender hboth => hset sender hboth

theorem Ordered.wp_useNextConnectionID : Holds Ordered useNextConnectionID s := by
  unfold useNextConnectionID
  rw [Holds, wp_bind, wp_get]
  cases s.cids.peerSpareConnectionIDs with
  | nil => exact hs
  | cons cid spares =>
    dsimp only
    rw [wp_bind, wp_modify, wp_bind]
    have htaken : Ordered { s with cids := { s.cids with peerSpareConnectionIDs := spares } } :=
      hs.of_same ⟨rfl, rfl, rfl, rfl⟩
    exact wp_requireTraffic (fun _ => htaken) fun _ => htaken.wp_activatePeerConnectionID cid

theorem Ordered.wp_receiveConnectionIDs (cids : ConnectionIDs) (active : Option Bytes) :
    Holds Ordered (receiveConnectionIDs cids active) s := by
  have hset : Ordered { s with cids := cids } := hs.of_same ⟨rfl, rfl, rfl, rfl⟩
  unfold receiveConnectionIDs
  rw [Holds, wp_bind, wp_modify]
  cases active with
  | none => exact hset
  | some cid => exact hset.wp_activatePeerConnectionID cid

/-! ## Runs -/

/-- A first transmission that fails has nothing on the wire: among the outcomes of the
writes of its first window, a failure is the first one. -/
def startsWhole (P : Primitives) (hooks : AuthHooks) (s : SendingSide) (event : Event) : Bool :=
  s.writesWhole (s.firstFlight P hooks event)

theorem Ordered.step {event : Event} (hwhole : s.startsWhole P hooks event = true) :
    (s.step P hooks event).Ordered := by
  cases event with
  | useNextConnectionID => exact exec_of_wp hs.wp_useNextConnectionID
  | sendReturnRoutability probe content =>
    exact (ordered_invariant (P := P)).dispatch hs (hs.wp_sendReturnRoutability probe content)
  | receiveConnectionIDs cids active =>
    exact (ordered_invariant (P := P)).dispatch hs (hs.wp_receiveConnectionIDs cids active)
  | _ => exact ordered_invariant.step hs rfl hwhole

end

theorem ordered_start (setup : Setup) (side : Side) (outcomes : List WriteOutcome) :
    (start ((System.start P setup).endpoint side) outcomes).Ordered := by
  obtain ⟨hnumbered, hepoch, hidle⟩ := System.start_numbered P setup side
  have hnone : (start ((System.start P setup).endpoint side) outcomes).updatePending = false :=
    hidle
  constructor
  · exact hnumbered
  · exact Nat.lt_of_lt_of_le (by decide) hepoch
  · exact fun _ _ habsurd => nomatch habsurd
  · intro hpending
    rw [hnone] at hpending
    cases hpending
  · exact fun _ habsurd => nomatch habsurd
  · exact List.Pairwise.nil
  · exact fun _ habsurd => nomatch habsurd

/-- Behind the last number every allocation is refused. -/
theorem Ordered.exhausted (hs : s.Ordered) {m : HandshakeMessage} (hm : m ∈ s.begun)
    (hlast : m.sequence = 2 ^ 16 - 1) {count : Nat} (hcount : count ≠ 0) :
    s.sender.traffic.canAllocateMessageSequences count =
      .error (.plain "dtls13: handshake message sequence exhausted") := by
  have hbelow := hs.below m hm
  have hrange := hs.numbered.sequence_lt
  unfold unusedSequence at hbelow
  unfold canAllocateMessageSequences
  rw [if_neg hcount]
  split_ifs at hbelow with hexhausted
  · rw [hexhausted, Bool.true_or, if_pos rfl]
  · omega

theorem Ordered.sequence_lt (hs : s.Ordered) {m : HandshakeMessage} (hm : m ∈ s.begun) :
    m.sequence < 2 ^ 16 := (hs.below m hm).trans_le (unusedSequence_le hs.numbered.sequence_lt)

/-- In every run in which a first transmission that fails has nothing on the wire, each
handshake record that was written carries a part of one message that was begun, these
messages have increasing numbers, and once the last number was taken every allocation
is refused. -/
theorem messageNumbers_unique (setup : Setup) (side : Side) (outcomes : List WriteOutcome)
    {events : List Event} (hwhole : Along (step P hooks) (fun s event =>
      s.startsWhole P hooks event = true)
      (start ((System.start P setup).endpoint side) outcomes) events) :
    let s := run (step P hooks) (start ((System.start P setup).endpoint side) outcomes) events
    (∀ record ∈ s.transport.written, record.contentType = recordTypeHandshake →
      ∃ m ∈ s.begun, CarriesPartOf [m] record) ∧
    s.begun.Pairwise (·.sequence < ·.sequence) ∧ (∀ m ∈ s.begun, m.sequence < 2 ^ 16) ∧
    ((∃ m ∈ s.begun, m.sequence = 2 ^ 16 - 1) → ∀ count ≠ 0,
      s.sender.traffic.canAllocateMessageSequences count =
        .error (.plain "dtls13: handshake message sequence exhausted")) := by
  intro s
  have hs : s.Ordered := run_invariant (fun (t : SendingSide) event (ht : t.Ordered) hcond =>
    ht.step hcond) (ordered_start setup side outcomes) hwhole
  refine ⟨fun record hrecord htype => ?_, hs.increasing, fun m hm => hs.sequence_lt hm, ?_⟩
  · obtain ⟨_, m, hm, f, hpart, hcontent⟩ := hs.written record hrecord htype
    exact ⟨m, hm, htype, m, List.mem_singleton_self m, f, hpart, hcontent⟩
  · rintro ⟨m, hm, hlast⟩ count hcount
    exact hs.exhausted hm hlast hcount

/-- A NewConnectionId of two records fails after the first one; the next message goes
out under the same number, which is bytes 4 and 5 of a fragment. -/
theorem messageNumbers_unique_halfWritten :
    let s := run (step .checksum anonymousAuth)
      (start ((System.start .checksum smallSetup).endpoint .client) [.written, .failed])
      [.sendNewConnectionIDs [List.replicate 250 7] false none, .requestConnectionIDs 1]
    s.begun.map (fun m => (m.typ, m.sequence)) = [(handshakeTypeNewConnectionID, 0),
      (handshakeTypeRequestConnectionID, 0)] ∧
    s.transport.written.map (fun record => (record.contentType, record.content.head?,
      (record.content.drop 4).take 2)) =
      [(recordTypeHandshake, some handshakeTypeNewConnectionID, [0, 0]),
        (recordTypeHandshake, some handshakeTypeRequestConnectionID, [0, 0])] := by
  decide +kernel

/-- The first record of an announcement fails. The request after it is one record long, so
the write of the KeyUpdate that follows may fail as well. -/
theorem messageNumbers_unique_unwritten :
    let s := run (step .checksum anonymousAuth)
      (start ((System.start .checksum smallSetup).endpoint .client) [.failed, .written, .failed])
      [.sendNewConnectionIDs [List.replicate 250 7] false none, .requestConnectionIDs 1,
        .sendKeyUpdate false]
    s.begun.map (·.sequence) = [0, 1] ∧ s.begun.Pairwise (·.sequence < ·.sequence) :=
  ⟨by decide +kernel, (messageNumbers_unique smallSetup .client [.failed, .written, .failed]
    (by decide +kernel)).2.1⟩

end SendingSide

end Dtls13
