import Dtls13.Conn.Steps
import Dtls13.Handshake.Rebuild

/-! # ACKs of an honest peer

An ACK is sealed in the epoch its sender uses for all its records, and a receiver
refuses an ACK of an epoch below that of a record it acknowledges. The epochs of the two
directions move independently. The ACKs of an endpoint pass the check of its peer as long
as no handshake record reaches the endpoint before its own sending epoch has come as far.
What an ACK makes its receiver seal, a postponed key update and flights that are partly
acknowledged, can fail for reasons of its own.
-/

namespace Dtls13

open ByteCodec StateLogic RunSystem CipherStore

/-- What an ACK of at most one record reads as. A number that does not fit its field can
only get smaller. -/
theorem parseACK_single {number : RecordNumber} {chunk : List RecordNumber}
    (hchunk : chunk.Sublist [number]) :
    ∃ numbers, parseACK (marshalCanonicalACKInto chunk) = .ok numbers ∧
      ∀ n ∈ numbers, n.epoch ≤ number.epoch := by
  rcases List.sublist_singleton.mp hchunk with rfl | rfl
  · exact ⟨[], parseACK_marshal (by simp) rfl (by simp), by simp⟩
  · refine ⟨[⟨number.epoch % 2 ^ 64, number.sequence % 2 ^ 64⟩], ?_, ?_⟩
    · have hread : parseRecordNumbers 1 ([number].flatMap marshalRecordNumber) =
          [⟨beNat (beBytes 8 number.epoch), beNat (beBytes 8 number.sequence)⟩] := rfl
      rw [parseACK_marshalCanonicalACKInto (by simp), List.length_singleton, hread,
        beNat_beBytes_mod, beNat_beBytes_mod]
      rfl
    · intro n hn
      rw [List.mem_singleton.mp hn]
      exact Nat.mod_le _ _

theorem holds_of_toOption_all {ε α : Type} {result : Except ε α} {p : α → Bool} {value : α}
    (hall : result.toOption.all p = true) (hok : result = .ok value) : p value = true := by
  subst hok
  exact hall

/-- The record is an ACK that its receiver does not refuse. -/
def SealedRecord.Acknowledges (w : SealedRecord) : Prop :=
  ∃ numbers, parseACK w.content = .ok numbers ∧ validateACKEpoch numbers w.epoch = .ok ()

namespace Conn

variable {P : Primitives} {hooks : AuthHooks} {c next : Conn}

/-- All ACKs of an endpoint pass the check. -/
def AcksPass (c : Conn) : Prop :=
  ∀ w ∈ c.sent, w.contentType = recordTypeACK → w.Acknowledges

/-- Only records up to the sending epoch are acknowledged. -/
theorem AcksPass.sends (hacks : c.AcksPass)
    (hsends : Sends (fun number => number.epoch ≤ c.sendingEpoch) c next) : next.AcksPass := by
  intro w hw htype
  obtain ⟨new, hsent, hfresh⟩ := hsends.sent
  rw [hsent, List.mem_append] at hw
  rcases hw with hold | hnew
  · exact hacks w hold htype
  · cases hfresh w hnew with
    | ack hnumber hchunk hcontent hepoch =>
      obtain ⟨numbers, hparse, hle⟩ := parseACK_single hchunk
      refine ⟨numbers, hcontent ▸ hparse, ?_⟩
      unfold validateACKEpoch
      rw [if_neg]
      simp only [List.any_eq_true, decide_eq_true_eq, not_exists, not_and, not_lt]
      exact fun n hn => ((hle n hn).trans hnumber).trans hepoch
    | other hother => exact absurd htype hother

end Conn

/-! ## What an ACK makes its receiver seal -/

/-- The cipher can seal the pending fragments of the flight again. -/
def Flight.canSealAgain (f : Flight) (cipher : RecordCipher) : Bool :=
  cipher.canCarry f.mtu f.pending && f.pending.all fun fragment =>
    handshakeHeaderLen + fragment.body.length ≤ min cipher.maxContent maxRecordContent

/-- The cipher in use can seal a KeyUpdate, and there is a message number for it. -/
def Sender.canSealUpdate (s : Sender) : Bool :=
  s.traffic.canAllocateMessageSequences 1 = .ok () &&
    s.cipher.sealCheck recordTypeHandshake 13 = .ok ()

theorem Sender.updateBegun_read {P : Primitives} {s : Sender} {requestUpdate : Bool}
    (hcipher : s.traffic.cipher < s.store.ciphers.length) {ref : CipherRef}
    (href : ref < s.store.ciphers.length) :
    (s.updateBegun P requestUpdate).store.read ref =
      spend s.store.read s.traffic.cipher 1 ref := by
  refine (read_allocate_of_lt ?_ _).trans (congrFun (read_logRecord_spent hcipher _) ref)
  exact href.trans_eq (logRecord_length ..).symm

namespace Conn

/-- A partial acknowledgement has the flight built anew, once. -/
def rebuiltBy (c : Conn) (numbers : List RecordNumber) (slot : FlightSlot) : Option Flight :=
  ((c.flights slot).map (·.ack numbers)).filter fun f => !(f.complete || f.retransmitted)

/-- The flights that are built anew can be sealed; `ciphers` counts the records of those
before them. -/
def canRebuild (c : Conn) (numbers : List RecordNumber) :
    (CipherRef → RecordCipher) → List FlightSlot → Bool
  | _, [] => true
  | ciphers, slot :: rest =>
    match c.rebuiltBy numbers slot with
    | none => c.canRebuild numbers ciphers rest
    | some f => f.canSealAgain (ciphers f.cipher) &&
      c.canRebuild numbers (spend ciphers f.cipher f.pending.length) rest

/-- What the numbers make the connection seal can be sealed. -/
def canAnswer (c : Conn) (numbers : List RecordNumber) : Bool :=
  let acked := { c with sender := (c.sender.processACK numbers).2 }
  if (c.sender.processACK numbers).1 && (c.keyUpdateResponsePending && acked.canBeginKeyUpdate) then
    acked.sender.canSealUpdate &&
      c.canRebuild numbers (spend c.sender.store.read acked.sendCipher 1) FlightSlot.inOrder
  else c.canRebuild numbers c.sender.store.read FlightSlot.inOrder

variable {P : Primitives} {c : Conn} {numbers : List RecordNumber}

/-- The fragments of a flight are such that the cipher can seal them. -/
theorem Sound.admits_pending (hsound : c.Sound) {slot : FlightSlot} {f : Flight}
    (hf : c.flights slot = some f)
    (hcan : (f.ack numbers).canSealAgain (c.sender.store.read f.cipher) = true) :
    ∀ fragment ∈ (f.ack numbers).pending, (c.sender.store.read f.cipher).Admits fragment := by
  intro fragment hfragment
  have hholds := hsound.holds slot f hf
  have hmem : fragment ∈ f.fragments := Flight.pendingFragments_subset _ _ hfragment
  obtain ⟨record, -, hcarries⟩ := exists_of_forall₂ hholds.carried hmem
  obtain ⟨owner, -, hsealed⟩ := hsound.sender.store.sealed record.wire hcarries.mem
  have hsize := List.all_eq_true.mp (Bool.and_eq_true_iff.mp hcan).2 fragment hfragment
  rw [decide_eq_true_eq, le_min_iff] at hsize
  refine ⟨hholds.valid fragment hmem, hcarries.epoch ▸ hsealed.epoch_le, hsize.2, fun hlimit => ?_⟩
  have hcontent := hsize.1
  unfold RecordCipher.maxContent at hcontent
  rw [if_neg hlimit] at hcontent
  omega

/-- The acknowledgement of one flight fails only if the flight cannot be built anew. -/
theorem Sound.wp_ackPostHandshakeFlight_exact (hsound : c.Sound) {slot : FlightSlot}
    (hcan : ∀ f, c.rebuiltBy numbers slot = some f →
      f.canSealAgain (c.sender.store.read f.cipher) = true) :
    wp (ackPostHandshakeFlight P numbers slot) (fun _ next =>
        (∀ other, other ≠ slot → next.flights other = c.flights other) ∧
        next.sender.store.read = ((c.rebuiltBy numbers slot).elim c.sender.store.read
          fun f => spend c.sender.store.read f.cipher f.pending.length))
      (fun _ _ => False) c := by
  unfold ackPostHandshakeFlight
  rw [wp_bind, wp_get]
  unfold rebuiltBy at hcan ⊢
  cases hf : c.flights slot with
  | none => exact ⟨fun _ _ => rfl, rfl⟩
  | some f =>
    rw [hf, Option.map_some] at hcan
    rw [Option.map_some]
    simp only [wp_ite]
    refine ⟨fun hcomplete => ?_, fun hopen => ?_⟩
    · rw [Option.filter_some, if_neg (by simp [hcomplete])]
      exact ⟨fun other hother => Function.update_of_ne hother _ _, rfl⟩
    · unfold Conn.retransmitPartialFlight
      dsimp only
      rw [wp_bind, wp_ite]
      refine ⟨fun hused => ?_, fun hfirst => ?_⟩
      · rw [Option.filter_some, if_neg (by simp [hused])]
        exact ⟨fun other hother => Function.update_of_ne hother _ _, rfl⟩
      · have hrebuilt : ((some (f.ack numbers)).filter fun f => !(f.complete || f.retransmitted)) =
            some (f.ack numbers) := by
          rw [Option.filter_some, if_pos (by simp [hopen, hfirst])]
        rw [hrebuilt] at hcan ⊢
        have hseal := hcan _ rfl
        have hholds := (hsound.holds slot f hf).ack numbers
        have hlength := hholds.carried.length_eq
        have hcarry := (Bool.and_eq_true_iff.mp hseal).1
        have hnone := (Flight.rebuild_iff (P := P)
          (f := { f.ack numbers with retransmitted := true })
          hlength hholds.cipher_lt (hsound.admits_pending hf hseal)).mpr hcarry
        rw [wp_bind, wp_onStore, CipherStore.wp_refreshPending]
        refine ⟨fun _ => ⟨fun other hother => Function.update_of_ne hother _ _, ?_⟩, ?_⟩
        · exact Flight.rebuild_read hlength hnone
        · intro err hfailed
          rw [hnone] at hfailed
          cases hfailed

theorem cipher_of_rebuiltBy {slot : FlightSlot} {f : Flight}
    (hf : c.rebuiltBy numbers slot = some f) :
    ∃ g, c.flights slot = some g ∧ f.cipher = g.cipher := by
  obtain ⟨hmem, -⟩ := Option.filter_eq_some_iff.mp hf
  obtain ⟨g, hg, rfl⟩ := Option.map_eq_some_iff.mp hmem
  exact ⟨g, hg, rfl⟩

/-- The flights of `c` are looked at one after the other, from a state `middle` on that has
the remaining ones and the ciphers counted so far. -/
theorem Sound.wp_ackFlights_exact {middle : Conn} (hsound : middle.Sound)
    {slots : List FlightSlot} (hnodup : slots.Nodup) {ciphers : CipherRef → RecordCipher}
    (hflights : ∀ slot ∈ slots, middle.flights slot = c.flights slot)
    (hread : ∀ slot ∈ slots, ∀ f, c.flights slot = some f →
      middle.sender.store.read f.cipher = ciphers f.cipher)
    (hcan : c.canRebuild numbers ciphers slots = true) :
    wp (ackFlights P numbers slots) (fun _ _ => True) (fun _ _ => False) middle := by
  induction slots generalizing middle ciphers with
  | nil => trivial
  | cons slot rest ih =>
    obtain ⟨hslot, hrest⟩ := List.nodup_cons.mp hnodup
    obtain ⟨hfirst, hlater⟩ := List.forall_mem_cons.mp hflights
    obtain ⟨hhead, htail⟩ := List.forall_mem_cons.mp hread
    have hsame : middle.rebuiltBy numbers slot = c.rebuiltBy numbers slot := by
      rw [rebuiltBy, rebuiltBy, hfirst]
    unfold ackFlights
    rw [wp_bind]
    have hkeeps : wp (ackPostHandshakeFlight P numbers slot)
        (fun _ => Sends (fun _ => True) middle) (fun _ => Sends (fun _ => True) middle) middle :=
      hsound.wp_ackPostHandshakeFlight numbers slot
    refine wp_mono (wp_and hkeeps (hsound.wp_ackPostHandshakeFlight_exact fun f hf => ?_)) ?_
      fun _ _ hfail => hfail.2
    · rw [hsame] at hf
      obtain ⟨g, hg, hcipher⟩ := cipher_of_rebuiltBy hf
      rw [canRebuild, hf] at hcan
      rw [hcipher, hhead g hg, ← hcipher]
      exact (Bool.and_eq_true_iff.mp hcan).1
    · rintro ⟨⟩ next ⟨hsends, hothers, hnext⟩
      rw [hsame] at hnext
      have hflights' : ∀ other ∈ rest, next.flights other = c.flights other := by
        intro other hother
        rw [hothers other fun heq => hslot (heq ▸ hother)]
        exact hlater other hother
      rw [canRebuild] at hcan
      cases hf : c.rebuiltBy numbers slot with
      | none =>
        rw [hf] at hcan hnext
        exact ih hsends.sound hrest hflights' (hnext ▸ htail) hcan
      | some f =>
        obtain ⟨g, hg, hcipher⟩ := cipher_of_rebuiltBy hf
        rw [hf] at hcan hnext
        refine ih hsends.sound hrest hflights' (fun other hother h hh => ?_)
          (Bool.and_eq_true_iff.mp hcan).2
        rw [hnext, Option.elim_some, spend, spend]
        by_cases hboth : h.cipher = f.cipher
        · rw [hboth, Function.update_self, Function.update_self, hcipher, hhead g hg]
        · rw [Function.update_of_ne hboth, Function.update_of_ne hboth]
          exact htail other hother h hh

/-- A key update that can be sealed is begun, with one record of the cipher in use. -/
theorem Sound.wp_beginKeyUpdate_exact (hsound : c.Sound) (hbegin : c.canBeginKeyUpdate = true)
    (hcan : c.sender.canSealUpdate = true) :
    wp (beginKeyUpdate P false) (fun _ next => next.Sound ∧ next.flights = c.flights ∧
        ∀ ref < c.sender.store.ciphers.length,
          next.sender.store.read ref = spend c.sender.store.read c.sendCipher 1 ref)
      (fun _ _ => False) c := by
  simp only [canBeginKeyUpdate, KeyUpdateState.canUseNewKeys, Bool.and_eq_true, Bool.not_eq_true',
    decide_eq_true_eq] at hbegin
  simp only [Sender.canSealUpdate, Bool.and_eq_true, decide_eq_true_eq] at hcan
  have hexact : wp (beginKeyUpdate P false) (fun _ next => next.flights = c.flights ∧
        ∀ ref < c.sender.store.ciphers.length,
          next.sender.store.read ref = spend c.sender.store.read c.sendCipher 1 ref)
      (fun _ _ => False) c := by
    unfold beginKeyUpdate
    rw [wp_bind, onSender, wp_zoom]
    apply Sender.wp_beginKeyUpdate P hsound.sender.named
    · exact fun _ _ => ⟨rfl, fun ref href => Sender.updateBegun_read hsound.sender.cipher_lt href⟩
    · rintro err (hpending | hlast | hrefused)
      · rw [hbegin.1] at hpending
        cases hpending
      · exact absurd hbegin.2 (Nat.not_lt.mpr hlast)
      · rw [hcan.1] at hrefused
        cases hrefused
    · intro err _ hcheck
      have herror := hcheck hsound.sender.cipher_lt
      rw [hcan.2] at herror
      cases herror
  have hkeeps : wp (beginKeyUpdate P false) (fun _ => Sends (fun _ => True) c)
      (fun _ => Sends (fun _ => True) c) c := hsound.wp_beginKeyUpdate false
  refine wp_mono (wp_and hkeeps hexact) ?_ ?_
  · exact fun _ _ hpost => ⟨hpost.1.sound, hpost.2⟩
  · exact fun _ _ hfail => hfail.2

/-- An ACK is applied without an error if what it makes the connection seal can be sealed. -/
theorem Sound.wp_applyACK_exact (hsound : c.Sound) (hcan : c.canAnswer numbers = true) :
    wp (applyACK P numbers) (fun _ _ => True) (fun _ _ => False) c := by
  have hacked : Sends (fun _ => True) c { c with sender := (c.sender.processACK numbers).2 } :=
    hsound.processACK numbers
  have hrest : ∀ {middle : Conn} {ciphers}, middle.Sound → middle.flights = c.flights →
      (∀ ref < c.sender.store.ciphers.length, middle.sender.store.read ref = ciphers ref) →
      c.canRebuild numbers ciphers FlightSlot.inOrder = true →
      wp (ackFlights P numbers FlightSlot.inOrder) (fun _ _ => True) (fun _ _ => False) middle := by
    intro middle ciphers hmiddle hflights hread hrebuild
    refine hmiddle.wp_ackFlights_exact (by decide) (fun _ _ => by rw [hflights]) ?_ hrebuild
    exact fun slot _ f hf => hread f.cipher (hsound.holds slot f hf).cipher_lt
  unfold canAnswer at hcan
  dsimp only at hcan
  unfold applyACK
  rw [wp_bind, wp_get, wp_bind, wp_modify]
  dsimp only
  rw [wp_ite]
  constructor
  · intro hswitched
    rw [hswitched, Bool.true_and] at hcan
    rw [wp_bind]
    unfold beginPendingKeyUpdate
    rw [wp_bind, wp_get, wp_ite]
    refine ⟨fun hbegins => ?_, fun hwaits => ?_⟩
    · rw [if_pos hbegins, Bool.and_eq_true] at hcan
      refine wp_seq
        (hacked.sound.wp_beginKeyUpdate_exact (Bool.and_eq_true_iff.mp hbegins).2 hcan.1) ?_
      rintro _ next ⟨hnext, hflights, hread⟩
      have hframe : Reaches (fun _ => True) next { next with keyUpdateResponsePending := false } :=
        SameSending.reaches ⟨rfl, rfl, rfl⟩
      exact hrest (hframe hnext).sound hflights hread hcan.2
    · rw [if_neg hwaits] at hcan
      have hframe : Reaches (fun _ => True)
          { c with sender := (c.sender.processACK numbers).2 }
          { c with sender := (c.sender.processACK numbers).2, keyUpdateResponsePending := false } :=
        SameSending.reaches ⟨rfl, rfl, rfl⟩
      rw [wp_ite]
      exact ⟨fun _ => hrest (hframe hacked.sound).sound rfl (fun _ _ => rfl) hcan,
        fun _ => hrest hacked.sound rfl (fun _ _ => rfl) hcan⟩
  · intro hkept
    rw [if_neg (by simp [hkept])] at hcan
    exact hrest hacked.sound rfl (fun _ _ => rfl) hcan

end Conn

namespace System

variable (P : Primitives) (hooks : AuthHooks)

/-- A handshake record arrives at an endpoint that sends in its epoch or a later one. -/
def ackedInEpoch (s : System) : SystemEvent → Bool
  | .deliver side index => (s.delivered side index).all fun w =>
    w.contentType != recordTypeHandshake || decide (w.epoch ≤ (s.endpoint side).sendingEpoch)
  | _ => true

variable {P hooks} {s : System} {event : SystemEvent}

/-- Both endpoints are sound, and their ACKs pass. -/
def AcksPass (s : System) : Prop :=
  ∀ side, (s.endpoint side).Sound ∧ (s.endpoint side).AcksPass

variable (hooks) in
theorem AcksPass.step (hs : s.AcksPass) (hgenuine : s.genuine P event = true)
    (hepoch : s.ackedInEpoch event = true) : (s.step P hooks event).AcksPass := by
  obtain ⟨hsound, hacks⟩ := hs event.side
  have hsends : Conn.Sends (fun number => number.epoch ≤ (s.endpoint event.side).sendingEpoch)
      (s.endpoint event.side) ((s.step P hooks event).endpoint event.side) := by
    refine reaches_step hooks hgenuine ?_ hsound
    rintro side index w rfl hw htype
    dsimp only [ackedInEpoch] at hepoch
    rw [hw, Option.all_some, htype] at hepoch
    have hle : w.epoch ≤ (s.endpoint side).sendingEpoch := by simpa using hepoch
    exact hle
  refine forall_side (p := fun side => ((s.step P hooks event).endpoint side).Sound ∧
      ((s.step P hooks event).endpoint side).AcksPass) event.side ?_ ?_
  · exact ⟨hsends.sound, hacks.sends hsends⟩
  · rw [step_peer]
    exact hs event.side.peer

theorem acksPass_start (P : Primitives) (setup : Setup) : (start P setup).AcksPass := by
  -- At first only records of the handshake are on the wire.
  have hlate : ∀ (own peer : EndpointSetup) isClient,
      (Conn.start P setup isClient own peer).AcksPass := by
    intro own peer isClient w hsent htype
    cases htype.symm.trans (own.late_records w hsent).contentType
  intro side
  refine ⟨sound_start P setup side, ?_⟩
  cases side
  · exact hlate _ _ _
  · exact hlate _ _ _

/-- In a run in which handshake records arrive in epochs the receiver has reached, every
ACK passes the checks of the peer, and the peer accepts it in the state it is in unless
something that the ACK makes it seal cannot be sealed. -/
theorem acks_accepted (P : Primitives) (hooks : AuthHooks) (setup : Setup)
    (events : List SystemEvent) (hrun : Along (step P hooks)
      (fun s event => s.genuine P event = true ∧ s.ackedInEpoch event = true)
      (start P setup) events)
    (side : Side) (w : SealedRecord)
    (hsent : w ∈ ((run (step P hooks) (start P setup) events).endpoint side).sent)
    (hack : w.contentType = recordTypeACK) :
    ∃ numbers, parseACK w.content = .ok numbers ∧ validateACKEpoch numbers w.epoch = .ok () ∧
      (((run (step P hooks) (start P setup) events).endpoint side.peer).canAnswer numbers = true →
        ∃ next, Conn.dispatchACK P w.content w.epoch
          ((run (step P hooks) (start P setup) events).endpoint side.peer) = .ok numbers next) := by
  have hpass := run_invariant (fun (s : System) event (hs : s.AcksPass) hcond =>
    hs.step hooks hcond.1 hcond.2) (acksPass_start P setup) hrun
  obtain ⟨numbers, hparse, hvalid⟩ := (hpass side).2 w hsent hack
  refine ⟨numbers, hparse, hvalid, fun hcan => ?_⟩
  rcases wp_cases ((hpass side.peer).1.wp_applyACK_exact (P := P) hcan) with
    ⟨_, next, hok, -⟩ | ⟨_, _, _, habsurd⟩
  · refine ⟨next, ?_⟩
    unfold Conn.dispatchACK
    rw [hparse]
    dsimp only
    rw [hvalid, bind_apply]
    change (do Conn.applyACK P numbers; pure numbers : ConnM (List RecordNumber)) _ = _
    rw [bind_apply, hok]
    rfl
  · exact habsurd.elim

/-- Both sides update their keys in turn, the client twice. -/
def alternatingUpdates : List SystemEvent :=
  [.call .client (.sendKeyUpdate true), .deliver .server 0, .deliver .client 0,
    .deliver .client 1, .deliver .server 1, .call .client (.sendKeyUpdate false),
    .deliver .server 2]

theorem acks_accepted_alternating :
    ∃ w ∈ ((run (step .checksum anonymousAuth) (start .checksum smallSetup)
        alternatingUpdates).endpoint .server).sent, w.contentType = recordTypeACK ∧ w.epoch = 4 ∧
      ∃ numbers, parseACK w.content = .ok numbers ∧ validateACKEpoch numbers w.epoch = .ok () ∧
        ∃ next, Conn.dispatchACK .checksum w.content w.epoch
          ((run (step .checksum anonymousAuth) (start .checksum smallSetup)
            alternatingUpdates).endpoint .client) = .ok numbers next := by
  have hsome : (((run (step .checksum anonymousAuth) (start .checksum smallSetup)
      alternatingUpdates).endpoint .server).sent.any fun w =>
        w.contentType == recordTypeACK && w.epoch == 4 &&
          (parseACK w.content).toOption.all ((run (step .checksum anonymousAuth)
            (start .checksum smallSetup) alternatingUpdates).endpoint .client).canAnswer) = true :=
    by decide +kernel
  obtain ⟨w, hsent, hw⟩ := List.any_eq_true.mp hsome
  rw [Bool.and_eq_true, Bool.and_eq_true, beq_iff_eq, beq_iff_eq] at hw
  obtain ⟨numbers, hparse, hvalid, haccepted⟩ := acks_accepted .checksum anonymousAuth smallSetup
    alternatingUpdates (by decide +kernel) .server w hsent hw.1.1
  exact ⟨w, hsent, hw.1.1, hw.1.2, numbers, hparse, hvalid,
    haccepted (holds_of_toOption_all hw.2 hparse)⟩

/-- The client updates its keys twice, the server never. -/
def clientUpdates : List SystemEvent :=
  [.call .client (.sendKeyUpdate false), .deliver .server 0, .deliver .client 0,
    .call .client (.sendKeyUpdate false), .deliver .server 1, .deliver .client 1]

/-- The ACK of the second update is sealed in an epoch below that of the update. The
client refuses it, and the connection has failed. -/
theorem acks_accepted_clientUpdates :
    let s := run (step .checksum anonymousAuth) (start .checksum smallSetup) clientUpdates
    Along (step .checksum anonymousAuth) (fun s event => s.genuine .checksum event = true)
        (start .checksum smallSetup) clientUpdates ∧
      (s.server.sent.any fun w => w.contentType == recordTypeACK &&
        (parseACK w.content).toOption.all fun numbers =>
          (validateACKEpoch numbers w.epoch).toOption.isNone) = true ∧
      s.client.failure.isSome = true := by
  decide +kernel

/-- Each side announces an ID of its own, the client one that needs two records, of which
the first is full and does not arrive. -/
def longAnnouncement : List SystemEvent :=
  [.call .client (.sendNewConnectionIDs [List.replicate 250 7] false),
    .call .server (.sendNewConnectionIDs [[9, 9]] true), .deliver .server 1, .deliver .client 0,
    .deliver .client 1]

/-- The ID of the server is a byte longer than the one before. The ACK of the second record
makes the client build the first one anew, which is too long now: the client has failed,
although every record arrived in an epoch its receiver had reached. -/
theorem canAnswer_longAnnouncement :
    let s := run (step .checksum anonymousAuth) (start .checksum smallSetup) longAnnouncement
    Along (step .checksum anonymousAuth)
        (fun s event => s.genuine .checksum event = true ∧ s.ackedInEpoch event = true)
        (start .checksum smallSetup) longAnnouncement ∧
      s.client.failure =
        some (.protocolError "retransmitted protected handshake record exceeds MTU") := by
  decide +kernel

/-! ## ACKs name records of the peer -/

/-- The peer has sent a handshake record under this number. -/
def Heard (s : System) (side : Side) (number : RecordNumber) : Prop :=
  ∃ w ∈ (s.endpoint side.peer).sent, w.contentType = recordTypeHandshake ∧ w.number = number

/-- The ACKs of an endpoint name only records that the peer has sent. -/
def AcksHeard (s : System) (side : Side) : Prop :=
  ∀ w ∈ (s.endpoint side).sent, w.contentType = recordTypeACK →
    ∃ chunk, w.content = marshalCanonicalACKInto chunk ∧ ∀ number ∈ chunk, s.Heard side number

/-- No record number of an endpoint stands for two records, and its ACKs name only records
that the peer has sent. -/
def Truthful (s : System) : Prop :=
  ∀ side, (∀ w w', (s.endpoint side).OnWire w → (s.endpoint side).OnWire w' →
    w.number = w'.number → w = w') ∧ s.AcksHeard side

variable (hooks) in
theorem acksHeard_step (hs : ∀ side, (s.endpoint side).Sound ∧ s.AcksHeard side)
    (hgenuine : s.genuine P event = true) (side : Side) :
    ((s.step P hooks event).endpoint side).Sound ∧ (s.step P hooks event).AcksHeard side := by
  obtain ⟨hsound, hacks⟩ := hs event.side
  have hsends : Conn.Sends (s.Heard event.side) (s.endpoint event.side)
      ((s.step P hooks event).endpoint event.side) := by
    refine reaches_step hooks hgenuine ?_ hsound
    rintro side index w rfl hw htype
    exact ⟨w, List.mem_of_getElem? hw, htype, rfl⟩
  obtain ⟨new, hnew, hfresh⟩ := hsends.sent
  have hsent : ∀ side, (s.endpoint side).sent ⊆ ((s.step P hooks event).endpoint side).sent := by
    refine forall_side event.side (hnew ▸ List.subset_append_left _ _) ?_
    rw [step_peer]
    exact List.Subset.refl _
  have hheard : ∀ {side} {chunk : List RecordNumber}, (∀ number ∈ chunk, s.Heard side number) →
      ∀ number ∈ chunk, (s.step P hooks event).Heard side number := by
    intro side chunk hchunk number hnumber
    obtain ⟨w, hw, hsame⟩ := hchunk number hnumber
    exact ⟨w, hsent _ hw, hsame⟩
  refine forall_side (p := fun side => ((s.step P hooks event).endpoint side).Sound ∧
    (s.step P hooks event).AcksHeard side) event.side ⟨hsends.sound, fun w hw htype => ?_⟩ ?_ side
  · rw [hnew, List.mem_append] at hw
    rcases hw with hold | hlast
    · exact (hacks w hold htype).imp fun _ hnamed => ⟨hnamed.1, hheard hnamed.2⟩
    · cases hfresh w hlast with
      | ack hnumber hchunk hcontent _ =>
        refine ⟨_, hcontent, hheard fun number hmem => ?_⟩
        rw [List.mem_singleton.mp (hchunk.subset hmem)]
        exact hnumber
      | other hother => exact absurd htype hother
  · unfold AcksHeard
    rw [step_peer]
    refine ⟨(hs event.side.peer).1, fun w hwire htype => ?_⟩
    exact ((hs event.side.peer).2 w hwire htype).imp fun _ hnamed => ⟨hnamed.1, hheard hnamed.2⟩

/-- Whatever the order of calls, timers and deliveries, no endpoint uses a record number
twice or acknowledges a record that its peer has not sent. -/
theorem acks_truthful (P : Primitives) (hooks : AuthHooks) (setup : Setup)
    {events : List SystemEvent} (hgenuine : Along (step P hooks)
      (fun s event => s.genuine P event = true) (start P setup) events) :
    (run (step P hooks) (start P setup) events).Truthful := by
  intro side
  have hsound := run_invariant
    (fun (s : System) event (hs : ∀ side, (s.endpoint side).Sound ∧ s.AcksHeard side) hcond =>
      acksHeard_step hooks hs hcond) (fun side => ⟨sound_start P setup side, ?_⟩) hgenuine side
  · refine ⟨fun w w' hw hw' hnumber => ?_, hsound.2⟩
    exact List.inj_on_of_nodup_map hsound.1.sender.store.numbers_nodup
      (hsound.1.onWire_logged hw) (hsound.1.onWire_logged hw') hnumber
  cases side <;> intro w hsent htype
  · cases htype.symm.trans (setup.client.late_records w hsent).contentType
  · cases htype.symm.trans (setup.server.late_records w hsent).contentType

theorem acks_truthful_clientUpdates :
    (run (step .checksum anonymousAuth) (start .checksum smallSetup) clientUpdates).Truthful :=
  acks_truthful .checksum anonymousAuth smallSetup (by decide +kernel)

end System

end Dtls13
