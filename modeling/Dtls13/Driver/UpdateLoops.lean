import Dtls13.Driver.Frames

/-! # Retransmission loops of key updates

A pending update is sent again by a loop of its own. The calls that begin an update
start the loop only after its record was written; when that write fails, the call
returns the error, and the update stays pending with nothing to send it again.
-/

namespace Dtls13

open ByteCodec StateLogic RunSystem Sender

/-! ## Writes that are to come -/

namespace Transport

/-- The write after `count` others fails. -/
def failsAfter (t : Transport) (count : Nat) : Bool :=
  match t.outcomes[count]? with
  | some .tooLong | some .failed => true
  | some .written | none => false

/-- How many writes in a row are refused as too long. -/
def refusals (t : Transport) : Nat := (t.outcomes.takeWhile (· == .tooLong)).length

/-- A write that does not fail. -/
theorem wp_write_of_not_fails {t : Transport} (hwrites : t.failsAfter 0 = false)
    (record : SealedRecord) : wp (write record) (fun _ _ => True) (fun _ _ => False) t := by
  unfold failsAfter at hwrites
  rw [← List.head?_eq_getElem?] at hwrites
  simp only [write, wp_bind, wp_get]
  split
  next hhead => rw [hhead] at hwrites; cases hwrites
  next hhead => rw [hhead] at hwrites; cases hwrites
  next => trivial

/-- A write takes the next outcome, which decides how it ends. -/
theorem wp_write_outcome (record : SealedRecord) (t : Transport) : wp (write record)
      (fun _ next => next.outcomes = t.outcomes.tail ∧ t.refusals = 0 ∧ t.failsAfter 0 = false)
      (fun err next => next.outcomes = t.outcomes.tail ∧
        (err = .datagramTooLarge → t.outcomes.head? = some .tooLong)) t := by
  unfold failsAfter refusals
  simp only [write, wp_bind, wp_get]
  split
  next hhead => exact ⟨rfl, fun _ => hhead⟩
  next => exact ⟨rfl, by rintro ⟨⟩⟩
  next houtcome hfailed =>
    refine ⟨rfl, ?_⟩
    cases houtcomes : t.outcomes with
    | nil => exact ⟨rfl, rfl⟩
    | cons outcome rest =>
      cases outcome with
      | written => exact ⟨rfl, rfl⟩
      | tooLong => exact absurd (by rw [houtcomes]; rfl) houtcome
      | failed => exact absurd (by rw [houtcomes]; rfl) hfailed

/-- After a refusal one fewer is to come. -/
theorem refusals_of_tooLong {t : Transport} (next : Transport)
    (hhead : t.outcomes.head? = some .tooLong) (htail : next.outcomes = t.outcomes.tail) :
    t.refusals = next.refusals + 1 ∧ ∀ count, t.failsAfter (count + 1) = next.failsAfter count := by
  unfold refusals failsAfter
  cases houtcomes : t.outcomes with
  | nil =>
    rw [houtcomes] at hhead
    cases hhead
  | cons outcome rest =>
    rw [houtcomes] at hhead htail
    obtain rfl := Option.some.inj hhead
    rw [htail]
    exact ⟨rfl, fun _ => rfl⟩

end Transport

namespace SendingSide

variable {P : Primitives} {hooks : AuthHooks} {s next : SendingSide}

/-! ## What leaves the updates alone -/

/-- The connection ID in use was accepted when it was set. -/
def Named (s : SendingSide) : Prop :=
  s.sender.traffic.hasConnectionID = true → s.sender.traffic.connectionID.length ≤ 255

/-- Neither an update nor a loop begins or ends. -/
structure Undisturbed (s next : SendingSide) : Prop where
  pending : next.updatePending = s.updatePending
  named : s.Named → next.Named
  starting : next.starting = s.starting
  running : next.running = s.running
  failure : next.failure = s.failure
  closed : next.closed = s.closed
  cleared : next.cleared = s.cleared

instance : Std.Refl Undisturbed := ⟨fun _ => ⟨rfl, id, rfl, rfl, rfl, rfl, rfl⟩⟩

instance : IsTrans SendingSide Undisturbed :=
  ⟨fun _ _ _ h₁ h₂ => ⟨h₂.pending.trans h₁.pending, h₂.named ∘ h₁.named,
    h₂.starting.trans h₁.starting, h₂.running.trans h₁.running, h₂.failure.trans h₁.failure,
    h₂.closed.trans h₁.closed, h₂.cleared.trans h₁.cleared⟩⟩

instance : Frame Undisturbed where
  outbox := fun _ _ => ⟨rfl, id, rfl, rfl, rfl, rfl, rfl⟩
  flights := fun _ _ => ⟨rfl, id, rfl, rfl, rfl, rfl, rfl⟩
  begun := fun _ _ => ⟨rfl, id, rfl, rfl, rfl, rfl, rfl⟩
  numbers := fun _ _ => ⟨rfl, id, rfl, rfl, rfl, rfl, rfl⟩

/-- The receiving side, the connection IDs of the peer and the authentication have nothing
to do with updates. -/
theorem Undisturbed.set (s : SendingSide) (receiver : ReceivingTraffic) (cids : ConnectionIDs)
    (auth : ClientAuth) :
    Undisturbed s { s with receiver := receiver, cids := cids, auth := auth } :=
  ⟨rfl, id, rfl, rfl, rfl, rfl, rfl⟩

variable {α : Type}

theorem keeps_onReceiver (m : EStateM Err ReceivingTraffic α) : Keeps Undisturbed (onReceiver m) :=
  keeps_zoom (fun s receiver => .set s receiver s.cids s.auth) m

/-- A connection ID that is too long is refused before it is stored. -/
theorem keeps_activatePeerConnectionID (cid : Bytes) :
    Keeps Undisturbed (activatePeerConnectionID cid) := by
  apply keeps_bind
  · intro s
    rw [onSender, wp_zoom]
    exact wp_both (keeps_messages_setConnectionID cid s.sender) fun _ hsame =>
      ⟨hsame.pending, hsame.named, rfl, rfl, rfl, rfl, rfl⟩
  · exact fun _ => keeps_modify fun _ => ⟨rfl, id, rfl, rfl, rfl, rfl, rfl⟩

/-! ## Updates that have a loop -/

/-- The connection ID is in order, and without keys the connection is not live. -/
structure Steady (s : SendingSide) : Prop where
  named : s.Named
  cleared : s.cleared = true → s.live = false

/-- Of a live connection a pending update has a loop, unless one is still promised. -/
structure Driven (promised : Bool) (s : SendingSide) : Prop extends s.Steady where
  loop : s.live = true → s.updatePending = true → promised = false → 0 < s.starting + s.running

theorem Undisturbed.live (hsame : Undisturbed s next) : next.live = s.live := by
  unfold SendingSide.live
  rw [hsame.failure, hsame.closed]

theorem Undisturbed.steady (hsame : Undisturbed s next) (hsteady : s.Steady) : next.Steady where
  named := hsame.named hsteady.named
  cleared hcleared := by
    rw [hsame.live]
    exact hsteady.cleared (hsame.cleared ▸ hcleared)

theorem Undisturbed.driven (hsame : Undisturbed s next) {promised : Bool}
    (hdriven : s.Driven promised) : next.Driven promised where
  toSteady := hsame.steady hdriven.toSteady
  loop hlive hpending hstart := by
    rw [hsame.starting, hsame.running]
    exact hdriven.loop (hsame.live ▸ hlive) (hsame.pending ▸ hpending) hstart

/-- What leaves the updates alone keeps every promise. -/
theorem Driven.wp_of_keeps {m : SendingM α} (hm : Keeps Undisturbed m)
    {promised : Bool} (hdriven : s.Driven promised) :
    wp m (fun _ => Driven promised) (fun _ => Driven promised) s :=
  wp_both (hm s) fun _ hsame => hsame.driven hdriven

theorem Driven.wp_steady {m : SendingM α} (hm : Keeps Undisturbed m) {promised : Bool}
    (hdriven : s.Driven promised) : wp m (fun _ => Driven promised) (fun _ => Steady) s :=
  wp_mono (hdriven.wp_of_keeps hm) (fun _ _ hnext => hnext) fun _ _ hnext => hnext.toSteady

/-- A connection that is not live owes nothing. -/
theorem Steady.driven (hsteady : s.Steady) (hdead : s.live = false) : s.Driven false :=
  ⟨hsteady, fun hlive => by rw [hdead] at hlive; cases hlive⟩

theorem Steady.failConnection (hsteady : s.Steady) (err : Err) :
    (s.failConnection err).Driven false := by
  have hdead : (s.failConnection err).live = false := rfl
  exact Steady.driven ⟨hsteady.named, fun _ => hdead⟩ hdead

/-- The dispatcher and the timers may leave an update without a loop when they fail. -/
theorem driven_orFail {m : SendingM α}
    (hwp : wp m (fun _ => Driven false) (fun _ => Steady) s) : (orFail m s).Driven false :=
  handle_of_wp (wp_mono hwp (fun _ _ hdriven => hdriven)
    fun err _ hsteady => hsteady.failConnection err)

theorem Driven.dispatch {m : SendingM α} (hdriven : s.Driven false)
    (hwp : wp m (fun _ => Driven false) (fun _ => Steady) s) : (dispatch m s).Driven false := by
  unfold SendingSide.dispatch
  split
  · exact hdriven
  · exact driven_orFail hwp

theorem Driven.dispatch_of_keeps {m : SendingM α} (hdriven : s.Driven false)
    (hm : Keeps Undisturbed m) : (SendingSide.dispatch m s).Driven false :=
  hdriven.dispatch (hdriven.wp_steady hm)

theorem Driven.exec_of_keeps {m : SendingM α} (hdriven : s.Driven false)
    (hm : Keeps Undisturbed m) : (exec m s).Driven false := exec_of_wp (hdriven.wp_of_keeps hm)

/-! ## Beginning an update -/

theorem Steady.updateBegun (hsteady : s.Steady) (requestUpdate : Bool) :
    (s.updateBegun P requestUpdate).Driven true :=
  ⟨⟨hsteady.named, hsteady.cleared⟩, fun _ _ hpromised => nomatch hpromised⟩

theorem Driven.wp_beginKeyUpdate (hdriven : s.Driven false) (requestUpdate : Bool) :
    wp (beginKeyUpdate P requestUpdate) (fun _ => Driven true) (fun _ => Steady) s := by
  apply SendingSide.wp_beginKeyUpdate (fun _ => hdriven.toSteady) hdriven.named
  · intro _ _
    exact (hdriven.toSteady.updateBegun requestUpdate).wp_steady (keeps_onOutbox _)
  · exact fun _ _ _ => ⟨hdriven.named, hdriven.cleared⟩

/-- The loop that was promised. -/
theorem Driven.startLoop (hdriven : s.Driven true) :
    Driven false { s with starting := s.starting + 1 } :=
  ⟨⟨hdriven.named, hdriven.cleared⟩, fun _ _ _ => by dsimp only; omega⟩

/-- An acknowledgement begins no update. -/
theorem Driven.processACK (hdriven : s.Driven false) (numbers : List RecordNumber) :
    Driven false { s with sender := (s.sender.processACK numbers).2 } := by
  cases hswitched : (s.sender.processACK numbers).1 with
  | false =>
    rw [processACK_of_not_switched hswitched]
    exact hdriven
  | true =>
    rw [processACK_of_switched hswitched]
    exact ⟨⟨hdriven.named, hdriven.cleared⟩, fun _ hpending => nomatch hpending⟩

theorem driven_updates : Updates P Driven Steady where
  fail hdriven := hdriven.toSteady
  responsePending _ hdriven := ⟨⟨hdriven.named, hdriven.cleared⟩, hdriven.loop⟩
  start hdriven := hdriven.startLoop
  beginUpdate requestUpdate hdriven := hdriven.wp_beginKeyUpdate requestUpdate
  finishUpdate numbers hdriven := hdriven.processACK numbers
  acknowledge number hdriven := hdriven.wp_steady (keeps_ackProtectedRecord number)
  ackFlight numbers slot hdriven := hdriven.wp_steady (keeps_ackPostHandshakeFlight numbers slot)

section

variable (hdriven : s.Driven false)

include hdriven

theorem Driven.wp_sendReturnRoutability (probeConnectionID : Option Bytes) (content : Bytes) :
    wp (sendReturnRoutability P probeConnectionID content) (fun _ => Driven false)
      (fun _ => Steady) s := by
  unfold sendReturnRoutability
  rw [wp_bind, wp_get]
  refine wp_seq (hdriven.wp_steady (keeps_onOutbox _)) ?_
  intro wire sealed hsealed
  refine wp_seq (hsealed.wp_steady (keeps_onOutbox _)) ?_
  exact fun _ _ hwritten => driven_updates.wp_updateAfterSend hwritten

/-! ## The loops -/

/-- A loop that ends has found no pending update, or the connection at its end. -/
theorem Driven.keyUpdateTimer : (s.keyUpdateTimer P).Driven false := by
  unfold SendingSide.keyUpdateTimer
  split
  · exact hdriven
  · apply handle_of_wp
    unfold retransmitPendingUpdate
    rw [wp_bind, wp_get, wp_ite]
    constructor
    · intro hends
      refine ⟨⟨hdriven.named, hdriven.cleared⟩, fun hlive hpending _ => ?_⟩
      simp only [Bool.or_eq_true, or_assoc] at hends
      rcases hends with hclosed | hcleared | hidle
      · simp [live, hclosed] at hlive
      · have hdead := hdriven.cleared hcleared
        rw [show s.live = true from hlive] at hdead
        cases hdead
      · rw [KeyUpdateState.canUseNewKeys, show s.sender.traffic.update.pending = true from hpending]
          at hidle
        cases hidle
    · intro _
      rw [wp_bind]
      have hretransmit : wp (onSender (retransmitKeyUpdate P)) (fun _ => Undisturbed s)
          (fun _ => Undisturbed s) s := by
        unfold onSender
        rw [wp_zoom]
        apply wp_retransmitKeyUpdate P
        · intro record hpending _ _ _
          exact ⟨hpending.symm, id, rfl, rfl, rfl, rfl, rfl⟩
        · exact fun _ => Std.Refl.refl s
      have hfails : ∀ (err : Err) (next : SendingSide), next.Steady →
          Driven false { next.failConnection err with running := next.running - 1 } :=
        fun err next hnext => Steady.driven ⟨hnext.named, fun _ => rfl⟩ rfl
      refine wp_mono hretransmit (fun wire next hnext => ?_)
        fun err next hnext => hfails err next (hnext.steady hdriven.toSteady)
      rw [wp_bind]
      exact wp_mono ((hnext.driven hdriven).wp_of_keeps (keeps_onOutbox _))
        (fun _ _ hwritten => hwritten) fun err next hnext => hfails err next hnext.toSteady

/-! ## Calls whose update is written -/

/-- An update whose record is written is promised its loop; otherwise none began. -/
theorem Driven.wp_beginKeyUpdate_written (requestUpdate : Bool)
    (hwritten : (s.sender.canBeginKeyUpdate && s.transport.failsAfter 0) = false) :
    wp (beginKeyUpdate P requestUpdate) (fun _ => Driven true) (fun _ => Driven false) s := by
  apply SendingSide.wp_beginKeyUpdate (fun _ => hdriven) hdriven.named
  · intro hcan _
    rw [hcan.canBeginKeyUpdate, Bool.true_and] at hwritten
    have hwrites : wp (writeRecord (s.sender.keyUpdateRecord P requestUpdate)) (fun _ _ => True)
        (fun _ _ => False) (s.updateBegun P requestUpdate) := by
      unfold writeRecord onOutbox Outbox.onTransport
      rw [wp_zoom, wp_zoom]
      exact Transport.wp_write_of_not_fails hwritten _
    refine wp_mono (wp_and ((hdriven.toSteady.updateBegun requestUpdate).wp_of_keeps
      (keeps_onOutbox _)) hwrites) ?_ ?_
    · exact fun _ _ hnext => hnext.1
    · exact fun _ _ habsurd => habsurd.2.elim
  · exact fun _ _ _ => ⟨⟨hdriven.named, hdriven.cleared⟩, hdriven.loop⟩

theorem Driven.wp_sendKeyUpdate (requestPeer : Bool)
    (hwritten : (s.sender.canBeginKeyUpdate && s.transport.failsAfter 0) = false) :
    wp (sendKeyUpdate P requestPeer) (fun _ => Driven false) (fun _ => Driven false) s := by
  unfold sendKeyUpdate
  rw [wp_bind]
  apply wp_requireTraffic (fun _ => hdriven)
  intro _
  exact wp_seq (hdriven.wp_beginKeyUpdate_written requestPeer hwritten)
    fun _ _ hnext => hnext.startLoop

theorem Driven.wp_updateAfterSend_written
    (hwritten : (s.sender.updateDueAfter 0 && s.transport.failsAfter 0) = false) :
    wp (updateAfterSend P) (fun _ => Driven false) (fun _ => Driven false) s := by
  unfold updateAfterSend maybeStartAutomaticKeyUpdate
  rw [wp_bind, wp_bind, wp_get, wp_ite]
  constructor
  · intro hdue
    rw [hdue, Bool.true_and] at hwritten
    refine wp_seq (hdriven.wp_beginKeyUpdate_written false ?_)
      fun _ _ hnext => hnext.startLoop
    rw [hwritten, Bool.and_false]
  · exact fun _ => hdriven

end

/-- A datagram was sealed and written anew until its write succeeded: `seals` records
were sealed and as many outcomes used up. -/
structure Resent (seals : Nat) (s next : SendingSide) : Prop where
  undisturbed : Undisturbed s next
  update : next.sender.traffic.update = s.sender.traffic.update
  epoch : next.sender.cipher.epoch = s.sender.cipher.epoch
  suite : next.sender.cipher.suite = s.sender.cipher.suite
  nextSequence : next.sender.cipher.nextSequence = s.sender.cipher.nextSequence + seals
  outcomes : next.transport.outcomes = s.transport.outcomes.drop seals

theorem Resent.trans {first second : Nat} {middle : SendingSide} (h₁ : Resent first s middle)
    (h₂ : Resent second middle next) : Resent (first + second) s next where
  undisturbed := Trans.trans h₁.undisturbed h₂.undisturbed
  update := h₂.update.trans h₁.update
  epoch := h₂.epoch.trans h₁.epoch
  suite := h₂.suite.trans h₁.suite
  nextSequence := by rw [h₂.nextSequence, h₁.nextSequence, Nat.add_assoc]
  outcomes := by rw [h₂.outcomes, h₁.outcomes, List.drop_drop]

theorem Resent.updateDue {seals : Nat} (hresent : Resent seals s next) :
    next.sender.updateDueAfter 0 = s.sender.updateDueAfter seals := by
  unfold updateDueAfter canBeginKeyUpdate
  rw [hresent.update, hresent.epoch, hresent.suite, hresent.nextSequence, Nat.add_zero]

theorem Resent.failsAfter {seals : Nat} (hresent : Resent seals s next) :
    next.transport.failsAfter 0 = s.transport.failsAfter seals := by
  unfold Transport.failsAfter
  rw [hresent.outcomes, List.getElem?_drop, Nat.add_zero]

/-- Sealing a record with the current cipher and using up one outcome. -/
theorem resent_logged (href : s.sender.traffic.cipher < s.sender.store.ciphers.length)
    (record : SealedRecord) (transport : Transport)
    (houtcomes : transport.outcomes = s.transport.outcomes.tail) :
    Resent 1 s (s.withOutbox ⟨s.sender.loggedStore record, transport⟩) := by
  have hcipher : (s.withOutbox ⟨s.sender.loggedStore record, transport⟩).sender.cipher =
      { s.sender.cipher with nextSequence := s.sender.cipher.nextSequence + 1 } :=
    CipherStore.read_write href _
  exact ⟨⟨rfl, id, rfl, rfl, rfl, rfl, rfl⟩, rfl, by rw [hcipher], by rw [hcipher], by rw [hcipher],
    houtcomes.trans List.drop_one.symm⟩

/-- A datagram is written after as many refusals as the transport has in store. -/
theorem wp_writeDatagramLoop (payload : Bytes) (fuel : Nat) (s : SendingSide) :
    wp (writeDatagramLoop P payload fuel)
      (fun _ next => Resent (s.transport.refusals + 1) s next ∧
        s.transport.failsAfter s.transport.refusals = false)
      (fun _ => Undisturbed s) s := by
  induction fuel generalizing s with
  | zero => exact Std.Refl.refl s
  | succ fuel ih =>
    unfold writeDatagramLoop
    rw [wp_bind, wp_get]
    refine wp_guard (Std.Refl.refl s) fun _ => ?_
    unfold sealRecord onOutbox Outbox.onStore
    rw [wp_bind, wp_bind, wp_get, wp_zoom, wp_zoom]
    apply CipherStore.wp_sealRecord P
    · intro href _
      unfold writeRecord onOutbox Outbox.onTransport
      rw [wp_recover, wp_zoom, wp_zoom]
      refine wp_mono (Transport.wp_write_outcome _ _) ?_ ?_
      · rintro _ transport ⟨houtcomes, hrefusals, hwritten⟩
        rw [show s.transport.refusals = 0 from hrefusals]
        exact ⟨resent_logged href _ transport houtcomes, hwritten⟩
      · rintro err transport ⟨houtcomes, hrefused⟩
        have hsealed := resent_logged href (s.sender.cipher.protect P recordTypeApplicationData
          payload true true) transport houtcomes
        rw [wp_bind, wp_get]
        refine wp_guard hsealed.undisturbed fun hlong => ?_
        simp only [Bool.or_eq_true, decide_eq_true_eq, not_or, not_not] at hlong
        cases hreduced : transport.reducePathMTU with
        | none =>
          dsimp only [outbox, withOutbox]
          rw [hreduced]
          exact hsealed.undisturbed
        | some mtu =>
          dsimp only [outbox, withOutbox]
          rw [hreduced]
          dsimp only
          rw [wp_bind, wp_modify]
          -- The state in which the next turn starts, with one refusal behind it.
          have hturn := resent_logged href (s.sender.cipher.protect P
            recordTypeApplicationData payload true true) { transport with pathMTU := mtu }
            houtcomes
          obtain ⟨hcount, hfails⟩ := Transport.refusals_of_tooLong
            { transport with pathMTU := mtu } (hrefused hlong.2) houtcomes
          refine wp_mono (ih _) ?_ ?_
          · rintro _ next ⟨hresent, hwritten⟩
            rw [show s.transport.refusals = _ from hcount]
            refine ⟨?_, (hfails _).trans hwritten⟩
            rw [Nat.add_comm]
            exact hturn.trans hresent
          · exact fun _ next hnext => Trans.trans hturn.undisturbed hnext
    · exact fun _ _ => Std.Refl.refl s

/-! ## Runs -/

/-- The record of an update that a call begins can be written. The update a datagram
brings about follows the write that succeeded. -/
def updateWritten (s : SendingSide) : Event → Bool
  | .sendKeyUpdate _ => !(s.sender.canBeginKeyUpdate && s.transport.failsAfter 0)
  | .writeDatagram _ =>
    !(s.sender.updateDueAfter (s.transport.refusals + 1) &&
      !s.transport.failsAfter s.transport.refusals &&
      s.transport.failsAfter (s.transport.refusals + 1))
  | _ => true

theorem Driven.wp_writeDatagram (hdriven : s.Driven false) (payload : Bytes)
    (hwritten : s.updateWritten (.writeDatagram payload) = true) :
    wp (writeDatagram P payload) (fun _ => Driven false) (fun _ => Driven false) s := by
  unfold writeDatagram
  rw [wp_bind, wp_get]
  cases s.failure with
  | some err => exact hdriven
  | none =>
    dsimp only
    refine wp_guard hdriven fun _ => ?_
    rw [wp_bind]
    apply wp_requireTraffic (fun _ => hdriven)
    intro _
    rw [wp_bind]
    refine wp_mono (wp_writeDatagramLoop payload _ s) ?_ fun _ _ hsame => hsame.driven hdriven
    rintro _ next ⟨hresent, hsent⟩
    apply (hresent.undisturbed.driven hdriven).wp_updateAfterSend_written
    rw [hresent.updateDue, hresent.failsAfter]
    simpa only [updateWritten, hsent, Bool.not_false, Bool.and_true, Bool.not_eq_true']
      using hwritten

theorem Driven.sendAlert (hdriven : s.Driven false) (level description : UInt8) :
    (s.sendAlert P level description).Driven false :=
  hdriven.exec_of_keeps (keeps_bind (keeps_sealRecord _ _) fun _ => keeps_onOutbox _)

theorem Driven.clearTrafficSecrets (hdriven : s.Driven false) (hdead : s.live = false) :
    s.clearTrafficSecrets.Driven false := Steady.driven ⟨hdriven.named, fun _ => hdead⟩ hdead

theorem live_sendAlert (s : SendingSide) (level description : UInt8) :
    (s.sendAlert P level description).live = s.live :=
  Undisturbed.live (keeps_sendAlert level description s)

theorem Driven.finishFailure (hdriven : s.Driven false) : (s.finishFailure P).Driven false := by
  unfold SendingSide.finishFailure
  cases hfailure : s.failure with
  | none => exact hdriven
  | some err =>
    have hdead : s.live = false := by simp [live, hfailure]
    dsimp only
    split
    · split
      · exact hdriven
      · exact (hdriven.sendAlert _ _).clearTrafficSecrets ((live_sendAlert _ _ _).trans hdead)
    · exact hdriven.clearTrafficSecrets hdead

theorem Driven.close (hdriven : s.Driven false) : (s.close P).Driven false := by
  have hdead : live { s with closed := true } = false := Bool.and_false _
  have hclosed : Driven false { s with closed := true } :=
    Steady.driven ⟨hdriven.named, fun _ => hdead⟩ hdead
  unfold SendingSide.close
  split
  · exact hdriven
  · split
    · exact hclosed
    · exact (hclosed.sendAlert _ _).clearTrafficSecrets ((live_sendAlert _ _ _).trans hdead)

theorem Driven.step (hdriven : s.Driven false) {event : Event}
    (hwritten : s.updateWritten event = true) : (s.step P hooks event).Driven false := by
  cases event with
  | sendKeyUpdate requestPeer =>
    rw [updateWritten, Bool.not_eq_true'] at hwritten
    exact exec_of_wp (hdriven.wp_sendKeyUpdate requestPeer hwritten)
  | writeDatagram payload => exact exec_of_wp (hdriven.wp_writeDatagram payload hwritten)
  | sendNewSessionTickets tickets =>
    exact driven_orFail (hdriven.wp_steady (keeps_sendNewSessionTickets tickets))
  | sendNewConnectionIDs connectionIDs immediate registration =>
    exact hdriven.exec_of_keeps (keeps_sendNewConnectionIDs
      (fun s receiver => .set s receiver s.cids s.auth) connectionIDs immediate registration)
  | requestConnectionIDs count =>
    exact hdriven.exec_of_keeps (keeps_requestConnectionIDs
      (fun s => .set s s.receiver _ s.auth) count)
  | requestClientCertificate context body =>
    exact hdriven.exec_of_keeps (keeps_requestClientCertificate
      (fun s auth => .set s s.receiver s.cids auth) context body)
  | useNextConnectionID =>
    exact hdriven.exec_of_keeps (keeps_useNextConnectionID
      (fun s _ => .set s s.receiver _ s.auth) keeps_activatePeerConnectionID)
  | sendReturnRoutability probe content =>
    exact hdriven.dispatch (hdriven.wp_sendReturnRoutability probe content)
  | authFailures =>
    exact hdriven.dispatch (driven_updates.wp_requestKeyUpdateAfterAuthFailures hdriven)
  | receiveKeyUpdate incomplete sequence body number =>
    exact hdriven.dispatch (driven_updates.wp_processKeyUpdateFragment hdriven
      (hdriven.wp_steady (keeps_onReceiver _)) incomplete number)
  | receiveACK numbers => exact hdriven.dispatch (driven_updates.wp_applyACK hdriven numbers)
  | receiveCertificateRequest sequence body =>
    exact hdriven.dispatch_of_keeps (keeps_processPostHandshakeCertificateRequest
      (fun s auth => .set s s.receiver s.cids auth) sequence body)
  | receiveConnectionIDs cids active =>
    exact hdriven.dispatch_of_keeps (keeps_receiveConnectionIDs
      (fun s cids => .set s s.receiver cids s.auth) keeps_activatePeerConnectionID cids active)
  | receiveAuthentication state =>
    change Driven false (if s.cleared then s else s.receiveAuthentication state)
    split
    · exact hdriven
    · exact ⟨⟨hdriven.named, hdriven.cleared⟩, hdriven.loop⟩
  | acknowledge number => exact hdriven.dispatch_of_keeps (keeps_ackProtectedRecord number)
  | reject err => exact hdriven.toSteady.failConnection err
  | startLoop =>
    change Driven false (if s.starting = 0 then s else _)
    split
    · exact hdriven
    · refine ⟨⟨hdriven.named, hdriven.cleared⟩, fun _ _ _ => ?_⟩
      dsimp only
      omega
  | keyUpdateTimer => exact hdriven.keyUpdateTimer
  | flightTimer slot timeoutCount =>
    exact driven_orFail (hdriven.wp_steady (keeps_flightTimeout slot timeoutCount))
  | finishFailure => exact hdriven.finishFailure
  | close => exact hdriven.close

theorem driven_start (setup : Setup) (side : Side) (outcomes : List WriteOutcome) :
    (start ((System.start P setup).endpoint side) outcomes).Driven false := by
  obtain ⟨hnumbered, -, hidle⟩ := System.start_numbered P setup side
  refine ⟨⟨hnumbered.named, fun hcleared => nomatch hcleared⟩, fun _ hpending => ?_⟩
  have hnone : (start ((System.start P setup).endpoint side) outcomes).updatePending = false :=
    hidle
  rw [hnone] at hpending
  cases hpending

/-- In every run in which the record of each update begun by a call is written, a live
connection with a pending update has a loop that sends it again, or one about to start. -/
theorem pendingUpdate_driven (setup : Setup) (side : Side) (outcomes : List WriteOutcome)
    {events : List Event}
    (hwritten : Along (step P hooks) (fun s event => s.updateWritten event = true)
      (start ((System.start P setup).endpoint side) outcomes) events) :
    let s := run (step P hooks) (start ((System.start P setup).endpoint side) outcomes) events
    s.live = true → s.updatePending = true → 0 < s.starting + s.running := by
  intro s hlive hpending
  have hdriven := run_invariant (fun (t : SendingSide) event (ht : t.Driven false) hcond =>
    ht.step hcond) (driven_start setup side outcomes) hwritten
  exact hdriven.loop hlive hpending rfl

/-- The write of an update fails once. From then on no loop sends it again, and no
further update can begin. -/
theorem pendingUpdate_driven_failedWrite :
    let s := run (step .checksum anonymousAuth)
      (start ((System.start .checksum smallSetup).endpoint .client) [.failed])
      [.sendKeyUpdate false, .startLoop, .keyUpdateTimer, .sendKeyUpdate false]
    s.live = true ∧ s.updatePending = true ∧ s.starting + s.running = 0 := by
  decide +kernel

/-- The write of a datagram fails, that of an update does not. -/
theorem pendingUpdate_driven_writtenUpdate :
    let s := run (step .checksum anonymousAuth)
      (start ((System.start .checksum smallSetup).endpoint .client) [.failed])
      [.writeDatagram [1], .sendKeyUpdate false, .startLoop, .keyUpdateTimer]
    s.live = true ∧ s.updatePending = true ∧ 0 < s.starting + s.running :=
  ⟨by decide +kernel, by decide +kernel, pendingUpdate_driven smallSetup .client [.failed]
    (by decide +kernel) (by decide +kernel) (by decide +kernel)⟩

end SendingSide

end Dtls13
