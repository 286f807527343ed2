import Dtls13.Conn.Api
import Dtls13.Handshake.Parts

/-! # What an endpoint puts on the wire

The ciphers of an endpoint have sealed what it has sent and what its outstanding flights
can still send. Every operation keeps this, and what it sends is an ACK of the present
epoch or later, or no ACK.
-/

namespace Dtls13

open ByteCodec StateLogic CipherStore List

namespace Conn

/-- The record was sent, or an outstanding flight can still send it. -/
def OnWire (c : Conn) (w : SealedRecord) : Prop :=
  w ∈ c.sent ∨ ∃ slot f, c.flights slot = some f ∧ w ∈ f.wires

/-- The invariant of the sending half. -/
structure Sound (c : Conn) : Prop where
  sender : c.sender.Numbered
  logged : ∀ w ∈ c.sent, w ∈ c.sender.store.log
  holds : ∀ slot f, c.flights slot = some f → Holds c.sender.store f

/-- The records of a flight are logged handshake records. -/
theorem logged_of_holds {store : CipherStore} {f : Flight} (hholds : Holds store f)
    {w : SealedRecord} (hw : w ∈ f.wires) :
    w ∈ store.log ∧ w.contentType = recordTypeHandshake := by
  obtain ⟨record, hrecord, rfl⟩ := mem_map.mp hw
  obtain ⟨hmem, -, hcarries⟩ := hholds.carries hrecord
  exact ⟨hmem, hcarries.1⟩

theorem Sound.onWire_logged {c : Conn} (hsound : c.Sound) {w : SealedRecord}
    (hwire : c.OnWire w) : w ∈ c.sender.store.log := by
  rcases hwire with hsent | ⟨slot, f, hflight, hw⟩
  · exact hsound.logged w hsent
  · exact (logged_of_holds (hsound.holds slot f hflight) hw).1

/-! ## New records -/

/-- A record that may be sent from an epoch on: an ACK of a record of `acks`, or no ACK. -/
inductive Fresh (acks : RecordNumber → Prop) (epoch : Nat) (w : SealedRecord) : Prop
  | ack {number : RecordNumber} {chunk : List RecordNumber} (hacks : acks number)
      (hchunk : chunk.Sublist [number]) (hcontent : w.content = marshalCanonicalACKInto chunk)
      (hepoch : epoch ≤ w.epoch)
  | other (htype : w.contentType ≠ recordTypeACK)

variable {acks : RecordNumber → Prop} {c middle next : Conn}

theorem Fresh.mono {epoch later : Nat} {w : SealedRecord} (hfresh : Fresh acks later w)
    (hle : epoch ≤ later) : Fresh acks epoch w := by
  cases hfresh with
  | ack hacks hchunk hcontent hepoch => exact .ack hacks hchunk hcontent (hle.trans hepoch)
  | other htype => exact .other htype

theorem Fresh.handshake {epoch : Nat} {w : SealedRecord}
    (htype : w.contentType = recordTypeHandshake) : Fresh acks epoch w := by
  refine .other ?_
  rw [htype]
  decide

/-- What a step does to the sending half that may acknowledge the records of `acks`. -/
structure Sends (acks : RecordNumber → Prop) (c next : Conn) : Prop where
  sound : next.Sound
  epoch_le : c.sendingEpoch ≤ next.sendingEpoch
  sent : ∃ new, next.sent = c.sent ++ new ∧ ∀ w ∈ new, Fresh acks c.sendingEpoch w

theorem Sends.trans (h₁ : Sends acks c middle) (h₂ : Sends acks middle next) :
    Sends acks c next := by
  obtain ⟨first, hfirst, hfresh⟩ := h₁.sent
  obtain ⟨second, hsecond, hfresh'⟩ := h₂.sent
  refine ⟨h₂.sound, h₁.epoch_le.trans h₂.epoch_le, first ++ second, ?_, fun w hw => ?_⟩
  · rw [hsecond, hfirst, append_assoc]
  · exact (mem_append.mp hw).elim (hfresh w) fun hlate => (hfresh' w hlate).mono h₁.epoch_le

/-! ## Operations of the sending half -/

section Sound

variable {P : Primitives} (hsound : c.Sound)

include hsound

/-- The general step: some sealing, some writing, and other flights. -/
theorem Sound.emit {ws : List SealedRecord} (hsender : c.sender.Advances next.sender)
    (hsent : next.sent = c.sent ++ ws)
    (hws : ∀ w ∈ ws, w ∈ next.sender.store.log ∧ Fresh acks c.sendingEpoch w)
    (hflights : ∀ slot f, next.flights slot = some f → Holds next.sender.store f) :
    Sends acks c next := by
  refine ⟨⟨hsender.numbered, fun w hw => ?_, hflights⟩, hsender.epoch_le, ws, hsent,
    fun w hw => (hws w hw).2⟩
  rw [hsent] at hw
  rcases mem_append.mp hw with hold | hnew
  · exact hsender.store.log.subset (hsound.logged w hold)
  · exact (hws w hnew).1

/-- Sealing does not touch the flights. -/
theorem Sound.extend {sender : Sender} (hsender : c.sender.Advances sender) {slot : FlightSlot}
    {f : Flight} (hf : c.flights slot = some f) : Holds sender.store f :=
  (hsound.holds slot f hf).extend hsender.store

/-- Sealing without writing, as a step that failed leaves it behind. -/
theorem Sound.grow {sender : Sender} (hsender : c.sender.Advances sender) :
    Sends acks c { c with sender := sender } :=
  hsound.emit hsender (append_nil _).symm (by simp) fun _ _ => hsound.extend hsender

theorem Sound.refl : Sends acks c c := hsound.grow hsound.sender.refl

omit hsound in
@[simp] theorem wp_onStore {α : Type} {m : EStateM Err CipherStore α} {post : α → Conn → Prop}
    {fail : Err → Conn → Prop} : wp (onStore m) post fail c ↔
      wp m (fun value store => post value { c with sender := { c.sender with store := store } })
        (fun err store => fail err { c with sender := { c.sender with store := store } })
        c.sender.store := by
  rw [onStore, onSender, wp_zoom, Sender.onStore, wp_zoom]

/-- Sealing with the store of a sound connection, without writing. -/
theorem Sound.growStore {store : CipherStore}
    (hgrows : Grows (fun _ => True) c.sender.store store) :
    Sends acks c { c with sender := { c.sender with store := store } } :=
  hsound.grow (hsound.sender.grow hgrows)

/-- Sealing records and writing them at once. -/
theorem Sound.write {sender : Sender} {ws : List SealedRecord}
    (hsender : c.sender.Advances sender) (hlog : sender.store.log = c.sender.store.log ++ ws)
    (hws : ∀ w ∈ ws, Fresh acks c.sendingEpoch w) :
    Sends acks c { c with sender := sender, sent := c.sent ++ ws } := by
  refine hsound.emit hsender rfl (fun w hw => ⟨?_, hws w hw⟩) fun _ _ => hsound.extend hsender
  rw [hlog]
  exact mem_append_right _ hw

theorem Sound.wp_writeACK {number : RecordNumber} (hacks : acks number) :
    wp (writeACK P number) (fun _ => Sends acks c) (fun _ => Sends acks c) c := by
  unfold writeACK
  rw [wp_bind, wp_get, wp_bind, wp_onStore]
  refine wp_mono (wp_buildACKRecords [number] c.pathMTU c.sendCipher c.sender.store) ?_ ?_
  · rintro records store ⟨-, chunks, hsealed⟩
    have hgrows := hsealed.seals.growsAny
    refine hsound.write (hsound.sender.grow hgrows) hsealed.seals.log fun w hw => ?_
    obtain ⟨chunk, hchunk, hlogged⟩ := hsealed.exists_logged hw
    refine .ack hacks hchunk hlogged.content_eq ?_
    rw [hlogged.epoch, (hgrows.older c.sendCipher).epoch]
    exact le_rfl
  · rintro _ store ⟨_, _, hseals⟩
    exact hsound.growStore hseals.growsAny

/-- A handshake record that the sender has just sealed. -/
theorem Sound.wp_writeKeyUpdate {m : EStateM Err Sender SealedRecord}
    (hm : wp m (fun wire sender => c.sender.Advances sender ∧
      sender.store.log = c.sender.store.log ++ [wire] ∧ wire.contentType = recordTypeHandshake)
      (fun _ sender => c.sender.Advances sender) c.sender) :
    wp (do let wire ← onSender m; writeRecord wire) (fun _ => Sends acks c)
      (fun _ => Sends acks c) c := by
  rw [wp_bind, onSender, wp_zoom]
  refine wp_mono hm ?_ fun _ _ => hsound.grow
  rintro wire sender ⟨hsender, hlog, htype⟩
  exact hsound.write hsender hlog (forall_mem_singleton.mpr (.handshake htype))

theorem Sound.wp_beginKeyUpdate (requestUpdate : Bool) :
    wp (beginKeyUpdate P requestUpdate) (fun _ => Sends acks c) (fun _ => Sends acks c) c :=
  hsound.wp_writeKeyUpdate (hsound.sender.wp_beginKeyUpdate requestUpdate)

theorem Sound.wp_retransmitKeyUpdate :
    wp (do let wire ← onSender (Sender.retransmitKeyUpdate P); writeRecord wire)
      (fun _ => Sends acks c) (fun _ => Sends acks c) c :=
  hsound.wp_writeKeyUpdate hsound.sender.wp_retransmitKeyUpdate

theorem Sound.processACK (numbers : List RecordNumber) :
    Sends acks c { c with sender := (c.sender.processACK numbers).2 } :=
  hsound.grow (hsound.sender.processACK numbers)

theorem Sound.wp_setConnectionID (connectionID : Bytes) :
    wp (onSender (Sender.setConnectionID connectionID)) (fun _ => Sends acks c)
      (fun _ => Sends acks c) c := by
  rw [onSender, wp_zoom]
  exact wp_both (hsound.sender.wp_setConnectionID connectionID) fun _ => hsound.grow

/-- One record of a kind that belongs to no flight. -/
theorem Sound.wp_sealRecord {contentType : UInt8} (htype : contentType ≠ recordTypeACK)
    (content : Bytes) : wp (do
        let wire ← onStore (CipherStore.sealRecord P c.sendCipher contentType content)
        writeRecord wire)
      (fun _ => Sends acks c) (fun _ => Sends acks c) c := by
  rw [wp_bind, wp_onStore]
  refine wp_mono (wp_sealRecord_seals P c.sendCipher contentType content c.sender.store) ?_ ?_
  · intro wire store hseals
    refine hsound.write (hsound.sender.grow hseals.growsAny) hseals.log fun w hw => .other ?_
    obtain ⟨_, -, hlogged⟩ := hseals.exists_logged hw
    rwa [hlogged.contentType_eq]
  · rintro _ _ rfl
    exact hsound.refl

/-! ## Flights -/

variable {f : Flight}

/-- What a flight sends of its records. -/
theorem Sound.sendWires (hf : Holds c.sender.store f) {ws : List SealedRecord}
    (hws : ∀ w ∈ ws, w ∈ f.wires) : Sends acks c { c with sent := c.sent ++ ws } := by
  refine hsound.emit hsound.sender.refl rfl (fun w hw => ?_) hsound.holds
  exact (logged_of_holds hf (hws w hw)).imp_right .handshake

/-- A flight is kept in a slot, or dropped. -/
theorem Sound.setFlight (slot : FlightSlot) {flight : Option Flight}
    (hflight : ∀ f, flight = some f → Holds c.sender.store f) :
    Sends acks c { c with flights := Function.update c.flights slot flight } := by
  refine hsound.emit hsound.sender.refl (append_nil _).symm (by simp) fun other g hg => ?_
  dsimp only at hg
  by_cases heq : other = slot
  · rw [heq, Function.update_self] at hg
    exact hflight g hg
  · rw [Function.update_of_ne heq] at hg
    exact hsound.holds other g hg

omit hsound in
/-- The operation sends, and leaves a flight that the store of the connection holds. -/
def SendsFlight (acks : RecordNumber → Prop) (c : Conn) (m : ConnM Flight) : Prop :=
  wp m (fun f next => Sends acks c next ∧ Holds next.sender.store f) (fun _ => Sends acks c) c

omit hsound in
theorem SendsFlight.bind {m : ConnM Flight} {rest : Flight → ConnM Flight}
    (hm : SendsFlight acks c m) (hrest : ∀ f middle, middle.Sound → Holds middle.sender.store f →
      SendsFlight acks middle (rest f)) : SendsFlight acks c (m >>= rest) := by
  refine wp_seq hm fun f middle ⟨hsends, hf⟩ => ?_
  exact wp_mono (hrest f middle hsends.sound hf) (fun _ _ hnext => ⟨hsends.trans hnext.1, hnext.2⟩)
    fun _ _ => hsends.trans

omit hsound in
theorem SendsFlight.keep {m : ConnM Flight} (hm : SendsFlight acks c m) (slot : FlightSlot) :
    wp (do let f ← m; setFlight slot (some f)) (fun _ => Sends acks c) (fun _ => Sends acks c)
      c := by
  refine wp_seq hm fun f middle ⟨hsends, hf⟩ => hsends.trans (hsends.sound.setFlight slot ?_)
  rintro _ ⟨⟩
  exact hf

theorem Sound.writeFlight (hf : Holds c.sender.store f) : SendsFlight acks c (writeFlight f) :=
  ⟨hsound.sendWires hf f.nextUnsentWire_subset, f.reflagged_nextUnsentWire.holds hf⟩

theorem Sound.retransmitFlight (hf : Holds c.sender.store f) :
    SendsFlight acks c (retransmitFlight f) :=
  ⟨hsound.sendWires hf (f.retransmitWire_subset 10), hf.cipher_lt, hf.carried, hf.cut, hf.valid⟩

/-- A flight is built, or built anew. -/
theorem Sound.onStore {m : EStateM Err CipherStore Flight}
    (hm : wp m (fun g store => Grows (fun _ => True) c.sender.store store ∧ Holds store g)
      (fun _ => Grows (fun _ => True) c.sender.store) c.sender.store) :
    SendsFlight acks c (onStore m) := by
  rw [SendsFlight, wp_onStore]
  exact wp_mono hm (fun _ _ hbuilt => ⟨hsound.growStore hbuilt.1, hbuilt.2⟩)
    fun _ _ => hsound.growStore

theorem Sound.refreshPending (hf : Holds c.sender.store f) :
    SendsFlight acks c (Conn.onStore (f.refreshPending P)) := by
  obtain ⟨hgrows, hrebuilt⟩ := hf.rebuild (P := P) (p := fun _ => True) fun _ _ _ _ _ _ => trivial
  apply hsound.onStore
  rw [CipherStore.wp_refreshPending]
  exact ⟨fun _ => ⟨hgrows, hrebuilt⟩, fun _ _ => hgrows⟩

theorem Sound.resize (hf : Holds c.sender.store f) (mtu : Nat) :
    SendsFlight acks c (Conn.onStore (f.resize P mtu)) := by
  apply hsound.onStore
  exact wp_imp (CipherStore.wp_resize mtu (fun _ _ _ _ _ _ => trivial) hf)
    fun _ _ hresized => ⟨hresized.1, hresized.2.1⟩

theorem Sound.retransmitPartialFlight (hf : Holds c.sender.store f) :
    SendsFlight acks c (retransmitPartialFlight P f) := by
  unfold Conn.retransmitPartialFlight
  refine wp_ite.mpr ⟨fun _ => hsound.writeFlight hf, fun _ => ?_⟩
  refine SendsFlight.bind (hsound.refreshPending ?_) fun _ _ hmiddle hheld =>
    (hmiddle.retransmitFlight hheld).bind fun _ _ hlast => hlast.writeFlight
  exact ⟨hf.cipher_lt, hf.carried, hf.cut, hf.valid⟩

theorem Sound.wp_ackPostHandshakeFlight (numbers : List RecordNumber) (slot : FlightSlot) :
    wp (ackPostHandshakeFlight P numbers slot) (fun _ => Sends acks c) (fun _ => Sends acks c)
      c := by
  unfold ackPostHandshakeFlight
  rw [wp_bind, wp_get]
  cases hf : c.flights slot with
  | none => exact hsound.refl
  | some f =>
    refine wp_guard (hsound.setFlight slot nofun) fun _ => ?_
    exact (hsound.retransmitPartialFlight ((hsound.holds slot f hf).ack numbers)).keep slot

/-- A flight timer: the flight is built anew, for a smaller MTU from time to time. -/
theorem Sound.wp_flightTimeout (slot : FlightSlot) (timeoutCount : Nat) :
    wp (flightTimeout P slot timeoutCount) (fun _ => Sends acks c) (fun _ => Sends acks c) c := by
  unfold flightTimeout
  rw [wp_bind, wp_get]
  cases hf : c.flights slot with
  | none => exact hsound.refl
  | some f =>
    have hholds := hsound.holds slot f hf
    simp only [wp_ite]
    refine ⟨fun _ => ⟨fun _ => hsound.setFlight slot nofun, fun _ => hsound.refl⟩, fun _ => ?_⟩
    unfold prepareFlightRetransmission
    rw [wp_bind, wp_bind, wp_get]
    cases (if 0 < timeoutCount ∧ timeoutCount % 3 = 0 then c.reducePathMTU else none) with
    | none =>
      refine wp_seq (hsound.refreshPending hholds) fun rebuilt middle ⟨hsends, hheld⟩ => ?_
      exact wp_both ((hsends.sound.retransmitFlight hheld).keep slot) fun _ => hsends.trans
    | some mtu =>
      -- The smaller MTU stays also when the flight does not fit it.
      have hframe : Sends acks c { c with pathMTU := mtu } :=
        hsound.emit hsound.sender.refl (append_nil _).symm (by simp) hsound.holds
      rw [wp_bind, wp_modify, wp_bind]
      refine wp_mono (hframe.sound.resize hholds mtu) (fun resized middle ⟨hsends, hheld⟩ => ?_)
        fun _ _ => hframe.trans
      exact wp_both ((hsends.sound.writeFlight hheld).keep slot)
        fun _ => (hframe.trans hsends).trans

/-- A flight that was built is sent and kept, and takes its message sequence numbers. -/
theorem Sound.wp_commitFlight {store : CipherStore} {count : Nat}
    (hcan : c.sender.traffic.canAllocateMessageSequences count = .ok ())
    (hgrows : Grows (fun _ => True) c.sender.store store) (hf : Holds store f)
    (slot : FlightSlot) (r : ReceivingTraffic) :
    wp (commitFlight slot count f) (fun _ => Sends acks c) (fun _ => Sends acks c)
      { c with sender := { c.sender with store := store }, receiver := r } := by
  have hgrown := hsound.sender.grow hgrows
  have hsender := hgrown.trans (hgrown.numbered.commit hcan)
  have hwritten : Sends acks c { c with
      sender := ⟨store, c.sender.traffic.commitMessageSequences count⟩
      receiver := r
      sent := c.sent ++ f.nextUnsentWire.2 } := by
    refine hsound.emit hsender rfl (fun w hw => ?_) fun _ _ => hsound.extend hsender
    exact (logged_of_holds hf (f.nextUnsentWire_subset w hw)).imp_right .handshake
  refine hwritten.trans (hwritten.sound.setFlight slot ?_)
  rintro _ ⟨⟩
  exact f.reflagged_nextUnsentWire.holds hf

theorem Sound.wp_sendFlight {bodies : List (UInt8 × Bytes)}
    (hcan : c.sender.traffic.canAllocateMessageSequences bodies.length = .ok ())
    (slot : FlightSlot) :
    wp (sendFlight P slot bodies) (fun _ => Sends acks c) (fun _ => Sends acks c) c := by
  unfold sendFlight
  rw [wp_bind, wp_get, wp_bind, wp_onStore]
  refine wp_mono (CipherStore.wp_buildProtectedFlight _ c.pathMTU c.sendCipher _)
    (fun f store hbuilt => ?_) fun _ _ hpart => hsound.growStore (hpart.grows ?_)
  · exact hsound.wp_commitFlight hcan hbuilt.seals.growsAny
      (hbuilt.holds hsound.sender.cipher_lt) slot c.receiver
  · exact fun _ _ _ _ _ _ => trivial

end Sound

end Conn

end Dtls13
