import Dtls13.Driver.FlightNumbers
import Dtls13.Driver.Hello

/-! # Plaintext record numbers of an endpoint

Flights and the counter of the connection both number plaintext records. In a run in
which the source that is used is never behind the other one, no two different records
of epoch 0 have the same number.
-/

namespace Dtls13

open ByteCodec StateLogic RunSystem HelloExchange HandshakeFragment CipherStore List

namespace HandshakeChannel

open Outbox

variable {P : Primitives} {ref : Option CipherRef} {busy : Bool} {io next : HandshakeChannel}

/-- The flight has used every number of the counter. -/
abbrev Ahead (io : HandshakeChannel) : Prop := io.plainSendSequence ≤ io.nextPlain

/-- The numbers in use are in order. `ref` is the cipher of the protected records;
before there is one everything is plaintext, and with one the counter is not used
any more. `busy` says whether there is a flight. -/
structure Steady (ref : Option CipherRef) (busy : Bool) (io : HandshakeChannel) : Prop where
  numbered : Numbered io.plainSendSequence io.flightRecords io.outbox
  flight : ∀ f, io.outgoing = some f → Consistent f.flight io.outbox.store ∧
    (allNumbers f.records).Nodup ∧ f.flight.cipher = ref
  outgoing : io.outgoing.isSome = busy
  ackCipher : io.ackCipher = ref
  cipher : io.cipher.isSome = ref.isSome
  unkeyed : ref = none → io.outbox.store = ⟨[], []⟩
  ahead : ref ≠ none → busy = true ∧ io.Ahead

/-- No two different plaintext records have the same number. -/
def Unambiguous (io : HandshakeChannel) : Prop := io.outbox.Unambiguous

/-- An error ended the exchange. One that carries an alert came before anything was
renumbered. -/
structure Stopped (err : Err) (io : HandshakeChannel) : Prop where
  unambiguous : io.Unambiguous
  numbered : ¬err.Silent → io.ackCipher = none →
    Numbered io.plainSendSequence io.flightRecords io.outbox

theorem Steady.stopped (hsteady : Steady ref busy io) (err : Err) : Stopped err io :=
  ⟨hsteady.numbered.unambiguous, fun _ _ => hsteady.numbered⟩

variable {message : CompletedHandshake} {f : SentFlight} {hooks : HelloHooks}
  {fragments : List HandshakeFragment} {datagram : Bytes}

theorem flightRecords_some (hf : io.outgoing = some f) : io.flightRecords = f.records := by
  rw [flightRecords, hf]
  rfl

/-! ## What does not matter -/

/-- Nothing that numbers depend on has changed. -/
structure Unmoved (io next : HandshakeChannel) : Prop where
  outgoing : next.outgoing = io.outgoing
  outbox : next.outbox = io.outbox
  ackCipher : next.ackCipher = io.ackCipher
  plainSendSequence : next.plainSendSequence = io.plainSendSequence
  cipher : next.cipher.isSome = io.cipher.isSome

instance : Std.Refl Unmoved where
  refl _ := ⟨rfl, rfl, rfl, rfl, rfl⟩

instance : IsTrans HandshakeChannel Unmoved where
  trans _ _ _ hfirst hsecond :=
    ⟨hsecond.outgoing.trans hfirst.outgoing, hsecond.outbox.trans hfirst.outbox,
      hsecond.ackCipher.trans hfirst.ackCipher,
      hsecond.plainSendSequence.trans hfirst.plainSendSequence, hsecond.cipher.trans hfirst.cipher⟩

theorem Unmoved.flightRecords (hunmoved : Unmoved io next) :
    next.flightRecords = io.flightRecords := by
  rw [HandshakeChannel.flightRecords, HandshakeChannel.flightRecords, hunmoved.outgoing]

theorem Unmoved.ahead (hunmoved : Unmoved io next) (hahead : io.Ahead) : next.Ahead := by
  rwa [Ahead, nextPlain, hunmoved.plainSendSequence, hunmoved.flightRecords]

theorem Steady.unmoved (hsteady : Steady ref busy io) (hunmoved : Unmoved io next) :
    Steady ref busy next where
  numbered := by
    rw [hunmoved.plainSendSequence, hunmoved.flightRecords, hunmoved.outbox]
    exact hsteady.numbered
  flight f hf := by
    rw [hunmoved.outbox]
    exact hsteady.flight f (hunmoved.outgoing ▸ hf)
  outgoing := by
    rw [hunmoved.outgoing]
    exact hsteady.outgoing
  ackCipher := hunmoved.ackCipher.trans hsteady.ackCipher
  cipher := hunmoved.cipher.trans hsteady.cipher
  unkeyed hnone := hunmoved.outbox ▸ hsteady.unkeyed hnone
  ahead hsome := (hsteady.ahead hsome).imp_right hunmoved.ahead

/-- A program that changes nothing of this leaves the numbers in order. -/
theorem Steady.keeps {α : Type} (hsteady : Steady ref busy io) {m : HandshakeM α}
    (hm : Keeps Unmoved m) :
    wp m (fun _ next => Steady ref busy next ∧ Unmoved io next) Stopped io :=
  wp_mono (hm io) (fun _ _ hunmoved => ⟨hsteady.unmoved hunmoved, hunmoved⟩)
    fun err _ hunmoved => (hsteady.unmoved hunmoved).stopped err

theorem keeps_contribute_unmoved (contribution : Contribution) :
    Keeps Unmoved (contribute contribution) := keeps_modify fun _ => ⟨rfl, rfl, rfl, rfl, rfl⟩

theorem ignoresInput_unmoved : IgnoresInput Unmoved :=
  ⟨fun _ _ => ⟨rfl, rfl, rfl, rfl, rfl⟩, fun _ _ => ⟨rfl, rfl, rfl, rfl, rfl⟩⟩

theorem keeps_beginCall_unmoved : Keeps Unmoved beginCall :=
  keeps_modify fun _ => ⟨rfl, rfl, rfl, rfl, rfl⟩

/-! ## Flights -/

/-- A channel whose flight was just sent. -/
theorem steady_of_sending (hf : io.outgoing = some f)
    (hsent : Sending io.plainSendSequence ref f io.outbox) (hack : io.ackCipher = ref)
    (hcipher : io.cipher.isSome = ref.isSome) : Steady ref true io where
  numbered := flightRecords_some hf ▸ hsent.numbered
  flight f' hf' := by
    obtain rfl := Option.some.inj (hf.symm.trans hf')
    exact ⟨hsent.consistent, hsent.nodup, hsent.cipher⟩
  outgoing := congrArg Option.isSome hf
  ackCipher := hack
  cipher := hcipher
  unkeyed := hsent.unkeyed
  ahead _ := ⟨rfl, by simpa only [Ahead, nextPlain, flightRecords_some hf] using hsent.ahead⟩

section

variable (hsteady : Steady ref busy io)

include hsteady

theorem Steady.sending (hf : io.outgoing = some f) (hahead : io.Ahead) :
    Sending io.plainSendSequence ref f io.outbox := by
  obtain ⟨hconsistent, hnodup, hcipher⟩ := hsteady.flight f hf
  have hrecords := flightRecords_some hf
  exact ⟨hconsistent, hnodup, hrecords ▸ hsteady.numbered,
    by rwa [Ahead, nextPlain, hrecords] at hahead, hcipher, hsteady.unkeyed⟩

/-- The flight and the outbox after a call that sent something. -/
theorem Steady.sent {o : Outbox} (hbusy : busy = true)
    (hsent : Sending io.plainSendSequence ref f o) :
    Steady ref busy { io with outbox := o, outgoing := some f } :=
  hbusy ▸ steady_of_sending rfl hsent hsteady.ackCipher hsteady.cipher

/-- A call that sends, and keeps the flight it returns. -/
theorem Steady.resend {m : EStateM Err Outbox SentFlight} (hbusy : busy = true)
    (hm : wp m (Sending io.plainSendSequence ref) (Abandoned ref) io.outbox) : wp (do
      let sent ← onOutbox m
      setOutgoing sent) (fun _ => Steady ref busy) Stopped io := by
  rw [wp_bind, onOutbox, wp_zoom]
  refine wp_mono hm ?_ ?_
  · intro f o hsent
    exact hsteady.sent hbusy hsent
  · intro err o habandoned
    refine ⟨habandoned.unambiguous, fun hloud hnone => ?_⟩
    exact absurd (habandoned.silent (hsteady.ackCipher.symm.trans hnone)) hloud

theorem Steady.isBusy (hf : io.outgoing = some f) : busy = true := by
  rw [← hsteady.outgoing, hf]
  rfl

theorem Steady.retransmitOutgoing (hahead : io.Ahead) :
    wp (retransmitOutgoing P) (fun _ => Steady ref busy) Stopped io := by
  rw [HandshakeChannel.retransmitOutgoing, wp_bind, wp_get]
  cases hf : io.outgoing with
  | none => exact hsteady
  | some f =>
    dsimp only
    refine wp_guard hsteady fun _ => ?_
    exact hsteady.resend (hsteady.isBusy hf)
      ((sendingRule P _ _).wp_refreshAndRetransmit (hsteady.sending hf hahead))

theorem Steady.timedOut (hahead : io.Ahead) (timeoutCount : Nat) :
    wp (timedOut P timeoutCount) (fun _ => Steady ref busy) Stopped io := by
  have hcall : ∀ {io : HandshakeChannel}, Steady ref busy io →
      wp beginCall (fun _ => Steady ref busy) Stopped io := fun hbefore =>
    wp_imp (hbefore.keeps keeps_beginCall_unmoved) fun _ _ hafter => hafter.1
  rw [HandshakeChannel.timedOut, wp_bind, wp_get]
  cases hf : io.outgoing with
  | none => exact hcall hsteady
  | some f =>
    have hresend := hsteady.resend (hsteady.isBusy hf)
      ((sendingRule P _ _).wp_retransmitAfterTimeout (hsteady.sending hf hahead) timeoutCount)
    rw [wp_bind] at hresend ⊢
    refine wp_imp hresend ?_
    intro sent middle hsent
    exact wp_seq hsent fun _ _ hafter => hcall hafter

theorem Steady.processACK {r : ReceivedRecord} (hf : io.outgoing = some f) (hahead : io.Ahead) :
    wp (processACK P r f) (fun _ => Steady ref busy) Stopped io := by
  have hsent := (hsteady.sending hf hahead)
  refine wp_ofExcept_bind (fun numbers _ => ?_) hsteady.stopped
  refine wp_ofExcept_bind (fun _ _ => ?_) hsteady.stopped
  refine wp_seq (hsteady.keeps (keeps_contribute_unmoved _)) ?_
  rintro _ middle ⟨hmiddle, hunmoved⟩
  have hacked : Sending middle.plainSendSequence ref (f.ack numbers) middle.outbox := by
    rw [hunmoved.plainSendSequence, hunmoved.outbox]
    exact hsent.reflag (reflag_ackRecords f.records numbers)
  rw [wp_bind, setOutgoing, wp_modify]
  have hafter := hmiddle.sent (hsteady.isBusy hf) hacked
  refine wp_guard hafter fun _ => ?_
  exact hafter.resend (hsteady.isBusy hf)
    ((sendingRule P _ _).wp_retransmitPartialFlight hacked)

end

/-! ## Acknowledging -/

/-- Sealing under the cipher of the flight. -/
theorem Steady.sealing {cipher : CipherRef} (hsteady : Steady (some cipher) busy io) :
    cipher < io.outbox.store.ciphers.length ∧ 0 < (io.outbox.store.read cipher).epoch := by
  have hbusy := (hsteady.ahead (Option.some_ne_none _)).1
  rw [← hsteady.outgoing, Option.isSome_iff_exists] at hbusy
  obtain ⟨f, hf⟩ := hbusy
  obtain ⟨hconsistent, -, hcipher⟩ := hsteady.flight f hf
  generalize f.flight = flight at hconsistent hcipher
  cases hconsistent with
  | plain hplain => cases hcipher
  | sealed hsealed =>
    cases hcipher
    exact ⟨hsealed.sealing.cipher_lt, hsealed.sealing.epoch_pos⟩
  | combined hleft hright hplain hnext hsealed =>
    cases hcipher
    exact ⟨hsealed.sealing.cipher_lt, hsealed.sealing.epoch_pos⟩

/-- The ciphers have sealed something else. -/
theorem Steady.grows {store : CipherStore} (hsteady : Steady ref busy io) (hkeyed : ref ≠ none)
    (hgrows : CipherStore.Grows (fun _ => True) io.outbox.store store) :
    Steady ref busy { io with outbox := { io.outbox with store := store } } where
  numbered := hsteady.numbered.of_known (fun _ hr => ⟨hr.epoch, hr.origin⟩) rfl
  flight f hf := (hsteady.flight f hf).imp_left fun hconsistent => hconsistent.grows hgrows
  outgoing := hsteady.outgoing
  ackCipher := hsteady.ackCipher
  cipher := hsteady.cipher
  unkeyed hnone := absurd hnone hkeyed
  ahead := hsteady.ahead

/-- Protected records have no number of epoch 0. -/
theorem Steady.writeProtected {wires : List SealedRecord} (hsteady : Steady ref busy io)
    (hwires : ∀ wire ∈ wires, 0 < wire.epoch) :
    wp (writeRecords wires) (fun _ => Steady ref busy) Stopped io := by
  have hwrote : ∀ {done : List SealedRecord} {t : Transport}, done ⊆ wires →
      Transport.Wrote done io.outbox.transport t →
      Steady ref busy { io with outbox := { io.outbox with transport := t } } := by
    intro done t hdone hwritten
    refine ⟨hsteady.numbered.wrote ?_ hwritten.written, hsteady.flight, hsteady.outgoing,
      hsteady.ackCipher, hsteady.cipher, hsteady.unkeyed, hsteady.ahead⟩
    intro wire hwire hepoch
    exact absurd hepoch (hwires wire (hdone hwire)).ne'
  rw [writeRecords, onOutbox, wp_zoom, onTransport, wp_zoom]
  refine wp_mono (Transport.wp_writeAll wires io.outbox.transport) ?_ ?_
  · intro _ t hall
    exact hwrote (List.Subset.refl _) hall
  · rintro err t ⟨done, rest, rfl, -, hdone⟩
    exact (hwrote (subset_append_left _ _) hdone).stopped err

theorem Steady.acknowledge (hsteady : Steady ref busy io) (source : RecordNumber) :
    wp (acknowledge P source) (fun _ => Steady ref busy) Stopped io := by
  rw [HandshakeChannel.acknowledge, wp_bind, wp_get]
  split
  next cipher ackCipher _ hack =>
    obtain rfl : ref = some ackCipher := hsteady.ackCipher.symm.trans hack
    refine wp_seq (hsteady.keeps (keeps_contribute_unmoved _)) ?_
    rintro _ middle ⟨hmiddle, -⟩
    rw [wp_bind, onOutbox, wp_zoom, onStore, wp_zoom]
    refine wp_mono (wp_buildACKRecords _ io.mtu ackCipher middle.outbox.store) ?_ ?_
    · rintro acks store ⟨-, chunks, hacks⟩
      have hafter := hmiddle.grows (Option.some_ne_none _) hacks.seals.growsAny
      refine hafter.writeProtected fun ack hack => ?_
      obtain ⟨chunk, -, hlogged⟩ := hacks.exists_logged hack
      rw [hlogged.epoch]
      exact hafter.sealing.2
    · rintro err store ⟨_, _, hseals⟩
      exact (hmiddle.grows (Option.some_ne_none _) hseals.growsAny).stopped err
  next => exact hsteady

/-! ## Processing a record -/

/-- Whether a record of handshake fragments can be a retransmission of the peer. One
with several fragments counts, because the first can complete a message that the
second belongs to. -/
def peerMayRetransmit (io : HandshakeChannel) (fragments : List HandshakeFragment) : Bool :=
  1 < fragments.length || fragments.any (·.messageSequence < io.inbox.expected)

theorem single_of_new (hnew : io.peerMayRetransmit fragments = false) :
    fragments = [] ∨ ∃ fragment, fragments = [fragment] ∧
      ¬fragment.messageSequence < io.inbox.expected := by
  rw [peerMayRetransmit, Bool.or_eq_false_iff] at hnew
  match fragments, hnew with
  | [], _ => exact .inl rfl
  | [fragment], hnew => exact .inr ⟨fragment, rfl, by simpa using hnew.2⟩
  | _ :: _ :: _, hnew => simp at hnew

theorem wp_addFragments_older (source : RecordNumber)
    (hnew : io.peerMayRetransmit fragments = false) :
    wp (addFragments source fragments) (fun result _ => result.2 = false) (fun _ _ => True) io := by
  obtain rfl | ⟨fragment, rfl, hfirst⟩ := single_of_new hnew
  · rfl
  · simp only [addFragments, contribute, wp_bind, wp_get, wp_modify, wp_pure]
    exact wp_of_forall (fun _ _ => by simpa using hfirst) fun _ _ => trivial

/-- Adding fragments; the flight is sent again only if it may take new numbers. -/
theorem Steady.addsFragments
    {m : HandshakeM (List CompletedHandshake × Bool)} (hsteady : Steady ref busy io)
    (hkeeps : Keeps Unmoved m) (holder : io.peerMayRetransmit fragments = false →
      wp m (fun result _ => result.2 = false) (fun _ _ => True) io)
    (hready : io.peerMayRetransmit fragments = true → io.Ahead) :
    wp m (fun result next => Steady ref busy next ∧ (result.2 = true → next.Ahead))
      Stopped io := by
  cases hmay : io.peerMayRetransmit fragments with
  | true =>
    refine wp_imp (hsteady.keeps hkeeps) ?_
    rintro _ next ⟨hafter, hunmoved⟩
    exact ⟨hafter, fun _ => hunmoved.ahead (hready hmay)⟩
  | false =>
    refine wp_mono (wp_and (hsteady.keeps hkeeps) (holder hmay)) ?_ fun _ _ hfail => hfail.1
    rintro result next ⟨⟨hafter, -⟩, hresult⟩
    exact ⟨hafter, fun htrue => absurd (hresult.symm.trans htrue) Bool.false_ne_true⟩

theorem Steady.processFragments {r : ReceivedRecord} (hsteady : Steady ref busy io)
    (hready : ∀ fragments, parseHandshakeFragments r.payload = .ok fragments →
      io.peerMayRetransmit fragments = true → io.Ahead) :
    wp (processFragments P r) (fun _ => Steady ref busy) Stopped io := by
  refine wp_ofExcept_bind (fun fragments hfragments => ?_) hsteady.stopped
  refine wp_seq (hsteady.addsFragments (keeps_addFragments ignoresInput_unmoved
    (fun _ => keeps_contribute_unmoved _) fragments)
    (wp_addFragments_older r.source) (hready fragments hfragments)) ?_
  rintro ⟨delivered, peerRetransmitted⟩ middle ⟨hmiddle, hahead⟩
  dsimp only at hahead ⊢
  rw [wp_ite]
  constructor
  · intro hretransmitted
    exact wp_seq (hmiddle.retransmitOutgoing (hahead hretransmitted)) fun _ _ hafter => hafter
  · intro _
    exact wp_seq (hmiddle.acknowledge r.source) fun _ _ hafter => hafter

/-- Whether processing the record can renumber the flight. -/
def renumbersFor (io : HandshakeChannel) (typ : UInt8) (payload : Bytes) : Bool :=
  if typ = recordTypeACK then io.outgoing.isSome
  else if typ = recordTypeHandshake then
    match parseHandshakeFragments payload with
    | .ok fragments => io.peerMayRetransmit fragments
    | .error _ => false
  else false

theorem Steady.processRecord {r : ReceivedRecord} (hsteady : Steady ref busy io)
    (hready : io.renumbersFor r.typ r.payload = true → io.Ahead) :
    wp (processRecord P r) (fun _ => Steady ref busy) Stopped io := by
  simp only [HandshakeChannel.processRecord, wp_bind, wp_get, wp_ite, wp_pure]
  refine ⟨fun _ => ?_, fun _ => ⟨fun hack => ?_, fun hack => ⟨fun hhandshake => ?_,
    fun _ => hsteady⟩⟩⟩
  · exact wp_imp (hsteady.keeps (keeps_processAlert (keeps_contribute_unmoved _)))
      fun _ _ hafter => hafter.1
  · cases hf : io.outgoing with
    | none => exact hsteady
    | some f =>
      have hahead := hready (by simp [renumbersFor, hack, hf])
      simp only [wp_bind, wp_pure]
      exact hsteady.processACK hf hahead
  · refine hsteady.processFragments fun fragments hfragments hmay => hready ?_
    simp only [renumbersFor, if_neg hack, if_pos hhandshake, hfragments, hmay]

/-! ## Reading a record -/

/-- A number of the counter was taken. -/
theorem Steady.counted {t : Transport} (hsteady : Steady none busy io)
    (hnumbered : Numbered (io.plainSendSequence + 1) io.flightRecords
      { io.outbox with transport := t }) :
    Steady none busy { io with
      plainSendSequence := io.plainSendSequence + 1
      outbox := { io.outbox with transport := t } } :=
  ⟨hnumbered, hsteady.flight, hsteady.outgoing, hsteady.ackCipher, hsteady.cipher, hsteady.unkeyed,
    fun hkeyed => absurd rfl hkeyed⟩

theorem sequence_of_buildEmptyPlainACK {mtu sequence : Nat} {ack : SealedRecord}
    (hack : buildEmptyPlainACK mtu sequence = .ok ack) : ack.sequence = sequence := by
  unfold buildEmptyPlainACK marshalPlainACKRecord at hack
  split_ifs at hack
  obtain ⟨payloadLen, -, hack⟩ := bind_eq_ok.mp hack
  obtain ⟨header, -, hack⟩ := bind_eq_ok.mp hack
  cases hack
  rfl

theorem Steady.readPlain (hsteady : Steady none busy io)
    (hcount : isUnifiedRecord datagram = true → io.nextPlain ≤ io.plainSendSequence) :
    wp (readPlain datagram)
      (fun result next => Steady none busy next ∧ ∀ r, result = .record r → next = io ∧
        ∃ plain consumed, parsePlainRecordView datagram = .ok (plain, consumed) ∧
          r.typ = plain.typ ∧ r.payload = plain.payload)
      Stopped io := by
  rw [HandshakeChannel.readPlain, wp_ite]
  constructor
  · intro hunified
    simp only [nextPlainSequence, wp_bind, wp_get, wp_modify, wp_pure, wp_ofExcept]
    constructor
    · intro ack hack
      rw [writeRecords, onOutbox, wp_zoom, onTransport, wp_zoom]
      refine wp_mono (hsteady.numbered.writeCounted (hcount hunified)
        (sequence_of_buildEmptyPlainACK hack)) ?_ ?_
      · intro _ t hnumbered
        exact ⟨hsteady.counted hnumbered, by rintro _ ⟨⟩⟩
      · intro err t hnumbered
        exact (hsteady.counted hnumbered).stopped err
    · intro err _
      exact (hsteady.counted (hsteady.numbered.weaken (Nat.le_succ _))).stopped err
  · intro _
    cases hparse : parsePlainRecordView datagram with
    | error err => exact ⟨hsteady, by rintro _ ⟨⟩⟩
    | ok parsed =>
      refine ⟨hsteady, ?_⟩
      rintro _ ⟨⟩
      exact ⟨rfl, parsed.1, parsed.2, rfl, rfl, rfl⟩

/-- Whether reading the front of the datagram can renumber the flight. -/
def renumbers (io : HandshakeChannel) (datagram : Bytes) : Bool :=
  match parsePlainRecordView datagram with
  | .error _ => false
  | .ok (r, _) => io.renumbersFor r.typ r.payload

/-- Reading a record before there are keys. -/
theorem Steady.receivePlain (hsteady : Steady none busy io)
    (hcount : isUnifiedRecord datagram = true → io.nextPlain ≤ io.plainSendSequence)
    (hready : io.renumbers datagram = true → io.Ahead) :
    wp (receiveRecord P datagram) (fun _ => Steady none busy) Stopped io := by
  have hcipher : io.cipher = none := by simpa using hsteady.cipher
  rw [receiveRecord, wp_bind, readRecord, wp_bind, wp_get, hcipher]
  refine wp_imp (hsteady.readPlain hcount) ?_
  rintro result middle ⟨hmiddle, hrecord⟩
  cases result with
  | dropped => exact hmiddle
  | skipped consumed => exact hmiddle
  | record r =>
    obtain ⟨rfl, plain, consumed, hparse, htyp, hpayload⟩ := hrecord r rfl
    simp only [wp_bind, wp_pure]
    refine wp_imp (hmiddle.processRecord fun hrenumbers => hready ?_) fun _ _ hafter => hafter
    rw [htyp, hpayload] at hrenumbers
    simp only [renumbers, hparse, hrenumbers]

/-! ## Reading with keys -/

section Keyed

variable {key : CipherRef} {datagram : Bytes} (hsteady : Steady (some key) busy io)

include hsteady

theorem Steady.keyedAhead : busy = true ∧ io.Ahead := hsteady.ahead (Option.some_ne_none key)

theorem Steady.readPlainACK {r : PlainRecord} {consumed : Nat} :
    wp (readPlainACK P r consumed) (fun _ => Steady (some key) busy) Stopped io := by
  refine wp_ofExcept_bind (fun numbers _ => ?_) hsteady.stopped
  rw [wp_bind, wp_get]
  split
  next f hf _ =>
    have hresend := hsteady.resend hsteady.keyedAhead.1
      ((sendingRule P _ _).wp_refreshAndRetransmit (hsteady.sending hf hsteady.keyedAhead.2))
    simp only [wp_bind, wp_pure] at hresend ⊢
    exact hresend
  next => exact hsteady

theorem Steady.openWith {early : Bool} {selected : RecordCipher}
    {put : RecordCipher → HandshakeChannel → HandshakeChannel}
    (hput : ∀ c, Unmoved io (put c io)) :
    wp (openWith P early selected put datagram) (fun _ => Steady (some key) busy) Stopped io := by
  rw [HandshakeChannel.openWith]
  rcases selected.openRecord P datagram with ⟨result, opened⟩
  have hafter := hsteady.unmoved (hput opened)
  simp only [wp_bind, wp_modify]
  cases result with
  | error err =>
    dsimp only
    cases protectedRecordReceiveError err with
    | some fatal => exact hafter.stopped fatal
    | none => exact hafter
  | ok record =>
    simp only [wp_bind, wp_pure]
    exact wp_imp (hafter.keeps (keeps_takeEarlyData ignoresInput_unmoved record
      fun _ => keeps_contribute_unmoved _)) fun _ _ hnext => hnext.1

theorem Steady.readProtected {cipher : RecordCipher} (hcipher : io.cipher = some cipher) :
    wp (readProtected P cipher datagram) (fun _ => Steady (some key) busy) Stopped io := by
  rw [HandshakeChannel.readProtected, wp_bind, wp_get]
  split
  · exact hsteady.openWith fun c => ⟨rfl, rfl, rfl, rfl, rfl⟩
  · refine hsteady.openWith fun c => ⟨rfl, rfl, rfl, rfl, ?_⟩
    rw [hcipher]
    rfl

theorem Steady.readKeyed :
    wp (readRecord P datagram) (fun _ => Steady (some key) busy) Stopped io := by
  have hsome : io.cipher.isSome = true := hsteady.cipher
  obtain ⟨cipher, hcipher⟩ := Option.isSome_iff_exists.mp hsome
  rw [readRecord, wp_bind, wp_get, hcipher]
  dsimp only
  rw [wp_ite]
  refine ⟨fun _ => ?_, fun _ => hsteady.readProtected hcipher⟩
  split
  · exact hsteady.readPlainACK
  · exact hsteady.readProtected hcipher

theorem Steady.receiveKeyed :
    wp (receiveRecord P datagram) (fun _ => Steady (some key) busy) Stopped io := by
  rw [receiveRecord, wp_bind]
  refine wp_imp hsteady.readKeyed ?_
  intro result middle hmiddle
  cases result with
  | dropped => exact hmiddle
  | skipped consumed => exact hmiddle
  | record r =>
    simp only [wp_bind, wp_pure]
    exact hmiddle.processRecord fun _ => hmiddle.keyedAhead.2

end Keyed

/-! ## Waiting for the second ClientHello -/

theorem keeps_addSecondFragments_unmoved (fragments : List HandshakeFragment) :
    Keeps Unmoved (addSecondFragments fragments) := by
  induction fragments with
  | nil => exact keeps_pure _
  | cons fragment rest ih =>
    refine keeps_bind keeps_get fun _ => ?_
    refine keeps_ite (fun _ => keeps_bind ih fun _ => keeps_pure _) fun _ => ?_
    refine keeps_bind (keeps_zoom ignoresInput_unmoved.inbox _) fun _ => ?_
    exact keeps_bind ih fun _ => keeps_pure _

theorem wp_addSecondFragments_older (hnew : io.peerMayRetransmit fragments = false) :
    wp (addSecondFragments fragments) (fun result _ => result.2 = false) (fun _ _ => True) io := by
  obtain rfl | ⟨fragment, rfl, hfirst⟩ := single_of_new hnew
  · rfl
  · simp only [addSecondFragments, wp_bind, wp_get, wp_pure, wp_ite]
    refine ⟨fun hold => absurd hold.2 hfirst, fun _ => ?_⟩
    exact wp_of_forall (fun _ _ => trivial) fun _ _ => trivial

theorem Steady.resendHelloRetryRequest (hsteady : Steady none busy io) (hahead : io.Ahead) :
    wp (resendHelloRetryRequest P) (fun _ => Steady none busy) Stopped io := by
  rw [HandshakeChannel.resendHelloRetryRequest, wp_bind, wp_get]
  cases hf : io.outgoing with
  | none => exact hsteady
  | some f =>
    exact hsteady.resend (hsteady.isBusy hf)
      ((sendingRule P _ _).wp_refreshAndRetransmit (hsteady.sending hf hahead))

theorem Steady.receiveSecondClientHello (hsteady : Steady none busy io)
    (hready : io.renumbers datagram = true → io.Ahead) :
    wp (receiveSecondClientHello P datagram) (fun _ => Steady none busy) Stopped
      io := by
  rw [HandshakeChannel.receiveSecondClientHello]
  cases hparse : parsePlainRecordView datagram with
  | error err => exact hsteady
  | ok parsed =>
    obtain ⟨r, consumed⟩ := parsed
    dsimp only
    refine wp_guard hsteady fun htyp => ?_
    have htyp : r.typ = recordTypeHandshake := not_not.mp htyp
    have hnotACK : ¬r.typ = recordTypeACK := by
      rw [htyp]
      decide
    refine wp_ofExcept_bind (fun fragments hfragments => ?_) hsteady.stopped
    refine wp_seq (hsteady.addsFragments (keeps_addSecondFragments_unmoved fragments)
      wp_addSecondFragments_older fun hmay => hready ?_) ?_
    · simp only [renumbers, hparse, renumbersFor, if_neg hnotACK, if_pos htyp, hfragments, hmay]
    · rintro ⟨delivered, retransmitHRR⟩ middle ⟨hmiddle, hahead⟩
      dsimp only at hahead ⊢
      rw [wp_ite]
      refine ⟨fun hretransmit => ?_, fun _ => hmiddle⟩
      exact wp_seq (hmiddle.resendHelloRetryRequest (hahead hretransmit))
        fun _ _ hafter => hafter

/-! ## Sending hellos -/

theorem flightRecords_none (hnone : io.outgoing = none) : io.flightRecords = [] := by
  rw [flightRecords, hnone]
  rfl

/-- A new plaintext flight follows the numbers in use. -/
theorem Steady.build {message : HandshakeMessage} {mtu counter : Nat} {out : PlainFlight}
    (hsteady : Steady none busy io) (hahead : io.Ahead)
    (hout : buildPlainFlight [message] mtu io.nextPlain = .ok out)
    (hcounter : io.plainSendSequence ≤ counter)
    (hlimit : counter ≤ nextRecordSequence out.records) :
    Sending counter none ⟨.plain out, false⟩ io.outbox := by
  obtain ⟨hmessages, hplain, hfresh, hbound⟩ := freshRecords_plain hout io.outbox.store
  have hnext : io.nextPlain ≤ nextRecordSequence out.records := hbound (cons_ne_nil _ _)
  have hnumbered : Numbered io.plainSendSequence out.records io.outbox := by
    refine hsteady.numbered.renumber hahead hnext hfresh.nodup (fun x hx hepoch => .inr ?_) rfl
    by_contra hlt
    exact hfresh.unused x hx (.inl ⟨hepoch, Nat.lt_of_not_le hlt⟩)
  exact ⟨.plain (hmessages ▸ hplain), hfresh.nodup, hnumbered.weaken hcounter, hlimit, rfl,
    hsteady.unkeyed⟩

/-- Sending a new flight, with the counter as it is or behind the flight. -/
theorem Steady.write {counter : Nat} (hsteady : Steady none busy io)
    (hsending : Sending counter none f io.outbox) : wp (do
      let sent ← onOutbox (Outbox.writeFlight P f)
      setOutgoing sent
      beginCall) (fun _ => Steady none true) Stopped
      { io with plainSendSequence := counter } := by
  simp only [wp_bind, onOutbox, wp_zoom, setOutgoing, beginCall, wp_modify]
  refine wp_mono ((sendingRule P _ _).wp_writeFlight hsending) ?_ ?_
  · intro sent o hsent
    exact steady_of_sending rfl hsent hsteady.ackCipher hsteady.cipher
  · intro err o habandoned
    exact ⟨habandoned.unambiguous, fun hloud _ => absurd (habandoned.silent rfl) hloud⟩

theorem Steady.sendHello {setsCounter : Bool} {message : HandshakeMessage}
    (hsteady : Steady none busy io) (hahead : io.Ahead) :
    wp (sendHello P setsCounter message io.nextPlain) (fun _ => Steady none true)
      Stopped io := by
  rw [HandshakeChannel.sendHello, wp_bind, wp_get]
  refine wp_ofExcept_bind (fun out hout => ?_) hsteady.stopped
  have hbound : io.nextPlain ≤ nextRecordSequence out.records :=
    (freshRecords_plain hout io.outbox.store).2.2.2 (cons_ne_nil _ _)
  cases setsCounter with
  | true =>
    simp only [if_true]
    rw [wp_bind, wp_modify]
    exact hsteady.write (hsteady.build hahead hout (hahead.trans hbound) le_rfl)
  | false =>
    simp only [Bool.false_eq_true, if_false]
    exact hsteady.write (hsteady.build hahead hout le_rfl (hahead.trans hbound))

theorem sound_empty : CipherStore.Sound ⟨[], []⟩ where
  epoch_inj ref href := absurd href (Nat.not_lt_zero ref)
  sealed _ hmem := absurd hmem not_mem_nil
  numbers_nodup := nodup_nil

/-- ServerHello with the protected messages after it. -/
theorem Steady.buildCombined {message : HandshakeMessage} {messages : List HandshakeMessage}
    {mtu : Nat} {cipher : RecordCipher} {plain : PlainFlight} {second : Flight}
    {store : CipherStore} (hsteady : Steady none busy io)
    (hahead : io.Ahead) (hepoch : cipher.epoch = 2)
    (hplain : buildPlainFlight [message] mtu io.nextPlain = .ok plain)
    (hsecond : buildProtectedFlight P messages mtu (io.outbox.store.allocate cipher).1
      (io.outbox.store.allocate cipher).2 = .ok second store) :
    Sending io.plainSendSequence (some (io.outbox.store.allocate cipher).1)
      ⟨.combineFlights plain second, false⟩ { io.outbox with store := store } := by
  have hsound : (io.outbox.store.allocate cipher).2.Sound := by
    rw [hsteady.unkeyed rfl]
    exact sound_empty.allocate fun ref href => absurd href (Nat.not_lt_zero ref)
  have hlt : (io.outbox.store.allocate cipher).1 <
      (io.outbox.store.allocate cipher).2.ciphers.length := by
    rw [allocate_length]
    exact Nat.lt_succ_self _
  have hpositive : 0 < ((io.outbox.store.allocate cipher).2.read
      (io.outbox.store.allocate cipher).1).epoch := by
    change 0 < ((io.outbox.store.allocate cipher).2.read io.outbox.store.ciphers.length).epoch
    rw [read_allocate_new, hepoch]
    exact Nat.two_pos
  have hbuilt := post_of_wp (wp_buildProtectedFlight messages mtu _ _) hsecond
  obtain ⟨-, -, hfresh, hbound⟩ := freshRecords_plain hplain io.outbox.store
  obtain ⟨-, hsealed, -⟩ := freshRecords_sealed hsound hlt hpositive hbuilt 0
  have hhealthy := (FlightSession.healthy_of_built
    (.combined hplain hsound hlt hpositive hsecond)).1
  have hnext : nextRecordSequence (plain.records ++ second.records) =
      nextRecordSequence plain.records :=
    nextRecordSequence_append fun r hr => hsealed.epoch hr
  have hbound : io.nextPlain ≤ nextRecordSequence (plain.records ++ second.records) :=
    hnext ▸ hbound (cons_ne_nil _ _)
  refine ⟨hhealthy.consistent, hhealthy.nodup, ?_, hahead.trans hbound, congrArg some hbuilt.cipher,
    nofun⟩
  refine hsteady.numbered.renumber hahead hbound hhealthy.nodup (fun x hx hzero => .inr ?_) rfl
  rcases mem_append.mp hx with hleft | hright
  · by_contra hlt
    exact hfresh.unused x hleft (.inl ⟨hzero, Nat.lt_of_not_le hlt⟩)
  · exact absurd hzero (hsealed.epoch hright).ne'

theorem Steady.serverSendFlight {serverHelloSequence : Nat} {reply : ServerReply}
    (hsteady : Steady none busy io) (hahead : io.Ahead) :
    wp (serverSendFlight P serverHelloSequence reply)
      (fun _ next => ∃ key, Steady (some key) true next) Stopped io := by
  simp only [HandshakeChannel.serverSendFlight, wp_bind, wp_get, wp_ofExcept, wp_modify, onOutbox,
    wp_zoom, onStore, beginCall]
  refine ⟨fun plain hplain => ⟨fun messages _ => ?_, fun err _ => hsteady.stopped err⟩,
    fun err _ => hsteady.stopped err⟩
  unfold wp
  split
  next second store hsecond =>
    have hsending := hsteady.buildCombined hahead reply.sendCipher_epoch hplain hsecond
    refine wp_mono ((sendingRule P _ _).wp_writeFlight hsending) ?_ ?_
    · intro sent o hsent
      exact ⟨_, steady_of_sending rfl hsent rfl rfl⟩
    · intro err o habandoned
      exact ⟨habandoned.unambiguous, by rintro _ ⟨⟩⟩
  next =>
    exact ⟨hsteady.numbered.unambiguous, fun _ _ =>
      hsteady.numbered.of_known (fun _ hr => ⟨hr.epoch, hr.origin⟩) rfl⟩

/-! ## Working on a hello -/

/-- A server that has not answered yet has no flight. -/
def hasFlight : AwaitedHello → Bool
  | .clientHello => false
  | .serverHello | .secondServerHello | .secondClientHello => true

/-- Whether the work on the messages can build a new flight. -/
def startsFlight (messages : List CompletedHandshake) : AwaitedHello → Bool
  | .serverHello => messages.any fun message => isHelloRetryRequestBody message.body
  | .secondServerHello => false
  | .clientHello | .secondClientHello => true

/-- The state a stage of the exchange begins in. -/
def Reached : HelloStage → HandshakeChannel → Prop
  | .awaiting message, io => Steady none (hasFlight message) io
  | .accepted, io => io.Unambiguous
  | .answered _, io => ∃ key, Steady (some key) true io

theorem mem_of_expectSingle {typ : UInt8} {text : String} {messages : List CompletedHandshake}
    (hsingle : expectSingle typ text messages = .ok message) : message ∈ messages := by
  unfold expectSingle at hsingle
  split at hsingle
  · split_ifs at hsingle
    cases hsingle
    exact mem_singleton_self _
  · cases hsingle

/-- The first flight is numbered from 0 on. -/
theorem Steady.sendFirst {setsCounter : Bool} {message : HandshakeMessage}
    (hsteady : Steady none false io) (hahead : io.Ahead) :
    wp (HandshakeChannel.sendHello P setsCounter message 0) (fun _ => Steady none true) Stopped
      io := by
  have hnone : io.outgoing = none := by simpa using hsteady.outgoing
  have hzero : io.nextPlain = 0 := by
    rw [nextPlain, flightRecords_none hnone]
    rfl
  have hsend : wp (HandshakeChannel.sendHello P setsCounter message io.nextPlain)
      (fun _ => Steady none true) Stopped io := hsteady.sendHello hahead
  rwa [hzero] at hsend

theorem Steady.handleServerHello (hsteady : Steady none busy io)
    (hready : isHelloRetryRequestBody message.body = true → io.Ahead) :
    wp (handleServerHello P hooks message) Reached Stopped io := by
  rw [HandshakeChannel.handleServerHello, wp_ite]
  constructor
  · intro hretry
    refine wp_ofExcept_bind (fun _ _ => ?_) hsteady.stopped
    exact wp_seq (hsteady.sendHello (hready hretry)) fun _ _ hsent => hsent
  · intro _
    exact wp_ofExcept_bind (fun _ _ => hsteady.numbered.unambiguous) hsteady.stopped

theorem Steady.handleSecondServerHello (hsteady : Steady none busy io) :
    wp (handleSecondServerHello hooks message) Reached Stopped io := by
  rw [HandshakeChannel.handleSecondServerHello]
  refine wp_guard (hsteady.stopped _) fun _ => ?_
  exact wp_ofExcept_bind (fun _ _ => hsteady.numbered.unambiguous) hsteady.stopped

theorem Steady.handleClientHello
    (hsteady : Steady none false io) (hahead : io.Ahead) :
    wp (handleClientHello P hooks message) Reached Stopped io := by
  refine wp_ofExcept_bind (fun answer _ => ?_) hsteady.stopped
  cases answer with
  | helloRetryRequest body =>
    simp only [wp_bind, wp_pure]
    exact hsteady.sendFirst hahead
  | reply reply =>
    simp only [wp_bind, wp_pure]
    exact hsteady.serverSendFlight hahead

theorem Steady.handleSecondClientHello
    (hsteady : Steady none busy io) (hahead : io.Ahead) :
    wp (handleSecondClientHello P hooks message) Reached Stopped io := by
  refine wp_ofExcept_bind (fun _ _ => ?_) hsteady.stopped
  exact wp_seq (hsteady.serverSendFlight hahead) fun _ _ hsent => hsent

theorem Steady.handleHello {message : AwaitedHello}
    {messages : List CompletedHandshake} (hsteady : Steady none (hasFlight message) io)
    (hready : startsFlight messages message = true → io.Ahead) :
    wp (handleHello P hooks message messages) Reached Stopped io := by
  cases message with
  | serverHello =>
    refine wp_ofExcept_bind (fun single hsingle => ?_) hsteady.stopped
    refine hsteady.handleServerHello fun hretry => hready ?_
    exact any_eq_true.mpr ⟨single, mem_of_expectSingle hsingle, hretry⟩
  | secondServerHello =>
    exact wp_ofExcept_bind (fun _ _ => hsteady.handleSecondServerHello) hsteady.stopped
  | clientHello =>
    exact wp_ofExcept_bind (fun _ _ => hsteady.handleClientHello (hready rfl)) hsteady.stopped
  | secondClientHello =>
    exact wp_ofExcept_bind (fun _ _ => hsteady.handleSecondClientHello (hready rfl))
      hsteady.stopped

theorem Steady.receiveHello (hsteady : Steady none busy io) (message : AwaitedHello)
    (hcount : message ≠ .secondClientHello → isUnifiedRecord datagram = true →
      io.nextPlain ≤ io.plainSendSequence)
    (hready : io.renumbers datagram = true → io.Ahead) :
    wp (receiveHello P message datagram) (fun _ => Steady none busy) Stopped io := by
  rw [HandshakeChannel.receiveHello]
  refine wp_guard (hsteady.receiveSecondClientHello hready) fun hother => ?_
  simp only [wp_bind, wp_pure]
  exact hsteady.receivePlain (hcount hother) hready

/-- The alert takes a number that no record has. -/
theorem Stopped.reportFailure {err : Err} (hstopped : Stopped err io)
    (hahead : err.asLocalAlert.isSome = true → io.ackCipher = none →
      io.nextPlain ≤ io.plainSendSequence) :
    (exec (reportFailure err) io).Unambiguous := by
  apply exec_of_wp
  rw [HandshakeChannel.reportFailure, wp_bind, wp_get]
  cases halert : err.asLocalAlert with
  | none => exact hstopped.unambiguous
  | some description =>
    dsimp only
    refine wp_guard hstopped.unambiguous fun hunkeyed => ?_
    have hnone : io.ackCipher = none := by simpa using hunkeyed
    have hnumbered := hstopped.numbered (by simp [Err.Silent, halert]) hnone
    have hcounter := hahead (by rw [halert]; rfl) hnone
    simp only [sendPlainFatalAlert, nextPlainSequence, wp_bind, wp_get, wp_modify, wp_pure]
    split
    · exact hstopped.unambiguous
    · rw [wp_recover, writeRecords, onOutbox, wp_zoom, onTransport, wp_zoom]
      exact wp_both (hnumbered.writeCounted hcounter rfl) fun _ hafter => hafter.unambiguous

end HandshakeChannel

/-! ## Whole handshakes -/

namespace HelloExchange

open HandshakeChannel

/-- Whether the step can send a record with a number of the counter. -/
def takesCounter (s : HelloExchange) : HandshakeRun.Event → Bool
  | .proceed =>
    match s.phase with
    | .failing err => err.asLocalAlert.isSome && s.io.ackCipher.isNone
    | _ => false
  | .read =>
    match s.phase with
    | .awaiting message => message != .secondClientHello && isUnifiedRecord s.unread
    | _ => false
  | _ => false

/-- Whether the step can give records of a flight new numbers. -/
def takesFlightNumbers (s : HelloExchange) : HandshakeRun.Event → Bool
  | .proceed =>
    match s.phase with
    | .start _ => true
    | .received message messages => startsFlight messages message
    | _ => false
  | .read =>
    match s.phase with
    | .awaiting _ => s.io.renumbers s.unread
    | _ => false
  | .timeout =>
    match s.phase with
    | .awaiting message => hasTimer message
    | _ => false
  | _ => false

/-- The source of numbers that a step can use is not behind the other one. -/
def inOrder (s : HelloExchange) (event : HandshakeRun.Event) : Bool :=
  (!s.takesCounter event || s.io.nextPlain ≤ s.io.plainSendSequence) &&
    (!s.takesFlightNumbers event || s.io.plainSendSequence ≤ s.io.nextPlain)

theorem of_inOrder {s : HelloExchange} {event : HandshakeRun.Event}
    (hpermitted : s.inOrder event = true) :
    (s.takesCounter event = true → s.io.nextPlain ≤ s.io.plainSendSequence) ∧
      (s.takesFlightNumbers event = true → s.io.Ahead) := by
  simpa [inOrder, imp_iff_not_or] using hpermitted

/-- An endpoint that has sent nothing: a client with its ClientHello, or a server. -/
structure Fresh (s : HelloExchange) : Prop where
  phase : (∃ helloBody, s.phase = .start helloBody) ∨ s.phase = .awaiting .clientHello
  written : s.io.outbox.transport.written = []
  store : s.io.outbox.store = ⟨[], []⟩
  outgoing : s.io.outgoing = none
  ackCipher : s.io.ackCipher = none
  cipher : s.io.cipher = none

end HelloExchange

namespace HandshakeRun

open HandshakeChannel

variable {P : Primitives} {hooks : HelloHooks}

/-- The condition on a step; once there are keys the counter is not used. -/
def inOrder : HandshakeRun → Event → Bool
  | .hello s, event => s.inOrder event
  | .loop _, _ => true

def OrderedHello (s : HelloExchange) : Prop :=
  match s.phase with
  | .start _ => Steady none false s.io
  | .awaiting message => Steady none (hasFlight message) s.io
  | .received message _ => Steady none (hasFlight message) s.io
  | .failing err => Stopped err s.io
  | .accepted => s.io.Unambiguous
  | .returned => s.io.Unambiguous

def OrderedLoop (s : ServerLoop) : Prop :=
  s.io.Unambiguous ∧ (s.result = none → ∃ key, Steady (some key) true s.io)

/-- The invariant of a handshake. -/
def Ordered : HandshakeRun → Prop
  | .hello s => OrderedHello s
  | .loop s => OrderedLoop s

variable {s : HelloExchange}

theorem OrderedHello.unambiguous (hordered : OrderedHello s) : s.io.Unambiguous := by
  unfold OrderedHello at hordered
  split at hordered
  · exact hordered.numbered.unambiguous
  · exact hordered.numbered.unambiguous
  · exact hordered.numbered.unambiguous
  · exact hordered.unambiguous
  · exact hordered
  · exact hordered

theorem Ordered.unambiguous {s : HandshakeRun} (hordered : s.Ordered) : s.io.Unambiguous := by
  cases s with
  | hello s => exact OrderedHello.unambiguous hordered
  | loop s => exact hordered.1

theorem ordered_enter {stage : HelloStage} (hreached : Reached stage s.io) :
    (s.enter stage).Ordered := by
  cases stage with
  | awaiting message => exact hreached
  | accepted => exact hreached
  | answered flight =>
    obtain ⟨key, hsteady⟩ := hreached
    exact ⟨hsteady.numbered.unambiguous, fun _ => ⟨key, hsteady⟩⟩

theorem ordered_proceed (hordered : OrderedHello s)
    (hpermitted : s.inOrder .proceed = true) : (s.proceed P hooks).Ordered := by
  obtain ⟨hcount, hflight⟩ := of_inOrder hpermitted
  have hunchanged : Ordered (.hello s) := hordered
  unfold OrderedHello at hordered
  unfold proceed
  unfold takesCounter at hcount
  unfold takesFlightNumbers at hflight
  cases hphase : s.phase with
  | start helloBody =>
    rw [hphase] at hordered hflight
    apply handle_of_wp
    refine wp_mono (hordered.sendFirst (hflight rfl)) ?_ ?_
    · intro _ io hsteady
      exact ordered_enter hsteady
    · intro err io hstopped
      exact hstopped
  | received message messages =>
    rw [hphase] at hordered hflight
    apply handle_of_wp
    refine wp_mono (hordered.handleHello hflight) ?_ ?_
    · intro stage io hreached
      exact ordered_enter hreached
    · intro err io hstopped
      exact hstopped
  | failing err =>
    rw [hphase] at hordered hcount
    refine HandshakeChannel.Stopped.reportFailure hordered fun hloud hnone => hcount ?_
    simp [hloud, hnone]
  | awaiting message => exact hunchanged
  | accepted => exact hunchanged
  | returned => exact hunchanged

/-- What an endpoint that waits does. -/
theorem ordered_wait {message : AwaitedHello} {event : Event}
    (hphase : s.phase = .awaiting message) (hordered : OrderedHello s)
    (hpermitted : s.inOrder event = true) : OrderedHello (s.wait P message event) := by
  obtain ⟨hcount, hflight⟩ := of_inOrder hpermitted
  have hsteady : Steady none (hasFlight message) s.io := by
    simpa only [OrderedHello, hphase] using hordered
  have hwaiting : ∀ {next : HelloExchange}, next.phase = .awaiting message →
      Steady none (hasFlight message) next.io → OrderedHello next := by
    intro next hnext hio
    simpa only [OrderedHello, hnext] using hio
  cases event with
  | proceed => exact hordered
  | arrive datagram =>
    rw [wait]
    split_ifs
    · exact hwaiting hphase hsteady
    · exact hordered
  | expire =>
    rw [wait]
    split_ifs
    · exact hsteady.stopped .transport
    · exact hordered
  | timeout =>
    rw [wait]
    split_ifs with htimer
    · simp only [Bool.and_eq_true] at htimer
      simp only [takesFlightNumbers, hphase, htimer.2] at hflight
      unfold HelloExchange.timedOut
      apply handle_of_wp
      refine wp_mono (hsteady.timedOut (hflight trivial) _) ?_ ?_
      · intro _ io hio
        exact hwaiting hphase hio
      · intro err io hstopped
        exact hstopped
    · exact hordered
  | read =>
    rw [wait]
    split_ifs
    · exact hordered
    · simp only [takesFlightNumbers, takesCounter, hphase]
        at hflight hcount
      unfold readNext
      apply handle_of_wp
      refine wp_mono (hsteady.receiveHello message (fun hother hunified => hcount ?_) hflight) ?_ ?_
      · simp [hother, hunified]
      · rintro ⟨rest, delivered⟩ io hio
        dsimp only
        split_ifs
        · exact hwaiting hphase hio
        · exact hio
      · intro err io hstopped
        exact hstopped

theorem ordered_readNext {s : ServerLoop} {hooks : ServerHooks} {key : CipherRef}
    (hsteady : Steady (some key) true s.io) : OrderedLoop (s.readNext P hooks) := by
  unfold ServerLoop.readNext
  apply handle_of_wp
  refine wp_mono hsteady.receiveKeyed ?_ ?_
  · rintro ⟨rest, delivered⟩ io hio
    have hrest : ∀ {next : HandshakeChannel}, Unmoved io next → next.Unambiguous ∧
        ∃ key, Steady (some key) true next := fun hunmoved =>
      ⟨(hio.unmoved hunmoved).numbered.unambiguous, key, hio.unmoved hunmoved⟩
    cases delivered with
    | none => exact (hrest (Std.Refl.refl io)).imp_right fun h _ => h
    | some completed =>
      unfold ServerLoop.deliver
      apply handle_of_wp
      unfold wp
      split
      · refine (hrest ?_).imp_right fun h _ => h
        exact ⟨rfl, rfl, rfl, rfl, rfl⟩
      · refine (hrest ?_).imp_right fun h _ => h
        exact ⟨rfl, rfl, rfl, rfl, rfl⟩
  · intro err io hstopped
    exact ⟨hstopped.unambiguous, nofun⟩

theorem ordered_timedOut {s : ServerLoop} {key : CipherRef}
    (hsteady : Steady (some key) true s.io) : OrderedLoop (s.timedOut P) := by
  unfold ServerLoop.timedOut
  apply handle_of_wp
  refine wp_mono (hsteady.timedOut hsteady.keyedAhead.2 _) ?_ ?_
  · intro _ io hio
    exact ⟨hio.numbered.unambiguous, fun _ => ⟨key, hio⟩⟩
  · intro err io hstopped
    exact ⟨hstopped.unambiguous, nofun⟩

/-- The loop after the hellos uses the numbers of its flight only. -/
theorem ordered_loop {s : ServerLoop} {hooks : ServerHooks} {event : ServerLoop.Event}
    (hordered : OrderedLoop s) : OrderedLoop (s.step P hooks event) := by
  unfold ServerLoop.step
  split_ifs with hended hunread
  · exact hordered
  · obtain ⟨key, hsteady⟩ := hordered.2 (by simpa using hended)
    cases event with
    | arrive datagram => exact hordered
    | read => exact hordered
    | timeout => exact ordered_timedOut hsteady
    | expire => exact ⟨hordered.1, nofun⟩
  · obtain ⟨key, hsteady⟩ := hordered.2 (by simpa using hended)
    cases event with
    | read => exact ordered_readNext hsteady
    | arrive datagram => exact hordered
    | timeout => exact hordered
    | expire => exact hordered

theorem Ordered.step {s : HandshakeRun} {event : Event} (hordered : s.Ordered)
    (hpermitted : s.inOrder event = true) : (s.step P hooks event).Ordered := by
  cases s with
  | hello s =>
    have hhello : OrderedHello s := hordered
    change (s.step P hooks event).Ordered
    unfold HelloExchange.step
    split
    next message hphase => exact ordered_wait hphase hhello hpermitted
    next => exact ordered_proceed hhello hpermitted
    next => exact hordered
  | loop s =>
    cases event with
    | arrive datagram => exact ordered_loop hordered
    | read => exact ordered_loop hordered
    | timeout => exact ordered_loop hordered
    | expire => exact ordered_loop hordered
    | proceed => exact hordered

theorem ordered_of_fresh (hfresh : s.Fresh) : Ordered (.hello s) := by
  have hrecords : s.io.flightRecords = [] := flightRecords_none hfresh.outgoing
  have hknown : ∀ r, ¬Outbox.Known s.io.flightRecords s.io.outbox r := by
    rintro r ⟨-, hwritten | ⟨x, hx, -⟩⟩
    · rw [hfresh.written] at hwritten
      cases hwritten
    · rw [hrecords] at hx
      cases hx
  have hsteady : Steady none false s.io := by
    refine ⟨⟨fun r hr => absurd hr (hknown r), fun r _ hr => absurd hr (hknown r)⟩, ?_, ?_,
      hfresh.ackCipher, ?_, fun _ => hfresh.store, fun hkeyed => absurd rfl hkeyed⟩
    · intro f hf
      rw [hfresh.outgoing] at hf
      cases hf
    · rw [hfresh.outgoing]
      rfl
    · rw [hfresh.cipher]
      rfl
  change OrderedHello s
  unfold OrderedHello
  rcases hfresh.phase with ⟨helloBody, hphase⟩ | hphase
  · rw [hphase]
    exact hsteady
  · rw [hphase]
    exact hsteady

/-- **Plaintext record numbers are unique.** In a handshake in which no step uses a
source of numbers that is behind the other one, two records of epoch 0 with the same
number are the same record. -/
theorem plainNumbers_unique {s : HelloExchange} (hfresh : s.Fresh) {events : List Event}
    (hpermitted : Along (step P hooks) (fun s event => s.inOrder event = true) (.hello s)
      events) :
    ∀ r ∈ (run (step P hooks) (.hello s) events).written,
      ∀ r' ∈ (run (step P hooks) (.hello s) events).written,
        r.epoch = 0 → r'.epoch = 0 → r.sequence = r'.sequence → r = r' := by
  have hlast : (run (step P hooks) (.hello s) events).Ordered :=
    run_invariant (fun _ _ hordered hpermitted => hordered.step hpermitted)
      (ordered_of_fresh hfresh) hpermitted
  exact hlast.unambiguous

/-! ### A client -/

/-- Hooks that accept everything. -/
def agreeable : HelloHooks where
  secondClientHello _ := .ok [1, 2]
  acceptServerHello _ := .ok ()
  answerClientHello _ := .ok (.helloRetryRequest [])
  answerSecondClientHello _ := .error .transport
  server :=
    { hashSize := 1
      verifyRawPublicKeyMessage := fun _ => .ok []
      verifyCertificateChain := fun _ => .ok []
      peerDelegatedCredential := fun _ _ => .ok []
      verifyPeerAuthenticationSignature := fun _ _ _ => .ok ()
      verifyFinished := fun _ _ => true
      parseCertificateHandshakeMessage := fun _ _ => .ok ⟨[]⟩
      validateCertificateMessage := fun _ _ => .ok ()
      matchCertificateOIDFilters := fun _ => .ok () }

/-- A client with a ClientHello of one byte. -/
def newClient : HelloExchange where
  io :=
    { config := .standard
      cipher := none
      early := none
      earlyInput := ⟨false, 0, 0, [], false, .empty⟩
      inbox := .newHandshakeInbox 0 1000 8 4000
      outgoing := none
      ackCipher := none
      outbox := ⟨⟨[], []⟩, ⟨1200, 548, [], []⟩⟩
      mtu := 1200
      plainSendSequence := 0
      contributions := [] }
  phase := .start [1]
  unread := []
  timeoutCount := 0

theorem newClient_fresh : newClient.Fresh where
  phase := .inl ⟨[1], rfl⟩
  written := rfl
  store := rfl
  outgoing := rfl
  ackCipher := rfl
  cipher := rfl

/-- The datagram of a plaintext record with one whole handshake message. -/
def plainMessage (recordSequence : Nat) (message : HandshakeMessage) : Bytes :=
  (marshalPlainRecord ⟨recordTypeHandshake, 0, recordSequence, putHandshakeFragment
      ⟨message.typ, message.sequence, message.body.length, 0, message.body⟩⟩).toOption.getD []

/-- A record of the server's flight, which the client cannot open yet. -/
def protectedRecord : Bytes := [0x2e, 0, 0, 0, 2, 7, 7]

def sampleRetryRequest : Bytes := [3, 3] ++ helloRetryRequestRandom ++ [0]

/-- A protected record overtakes ServerHello, and the ClientHello is sent again: the
empty ACK and the second copy of ClientHello have the number 1. -/
theorem plainNumbers_unique_ackThenTimeout :
    ¬∀ r ∈ (run (step .checksum agreeable) (.hello newClient)
        [.proceed, .arrive protectedRecord, .read, .timeout]).written,
      ∀ r' ∈ (run (step .checksum agreeable) (.hello newClient)
          [.proceed, .arrive protectedRecord, .read, .timeout]).written,
        r.epoch = 0 → r'.epoch = 0 → r.sequence = r'.sequence → r = r' := by
  decide +kernel

/-- Two timeouts, a HelloRetryRequest, and a protected record before ServerHello. -/
theorem plainNumbers_unique_retry :
    let events : List Event := [.proceed, .timeout, .timeout,
      .arrive (plainMessage 0 ⟨handshakeTypeServerHello, 0, sampleRetryRequest⟩), .read, .proceed,
      .arrive protectedRecord, .read,
      .arrive (plainMessage 1 ⟨handshakeTypeServerHello, 1, [3, 3]⟩), .read, .proceed]
    ∀ r ∈ (run (step .checksum agreeable) (.hello newClient) events).written,
      ∀ r' ∈ (run (step .checksum agreeable) (.hello newClient) events).written,
        r.epoch = 0 → r'.epoch = 0 → r.sequence = r'.sequence → r = r' :=
  plainNumbers_unique newClient_fresh (by decide +kernel)

end HandshakeRun

end Dtls13
