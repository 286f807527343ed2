import Dtls13.Traffic.Update

/-! # Soundness of the sending side

The invariant that the operations of the sending side keep: a cipher for every
epoch up to the newest, which a pending update has made already.
-/

namespace Dtls13

open ByteCodec StateLogic CipherStore RecordCipher SendingTraffic

namespace RecordCipher

theorem setConnectionID_ok {c named : RecordCipher} {connectionID : Bytes}
    (hset : c.setConnectionID connectionID = .ok named) :
    connectionID.length ≤ 255 ∧ named = { c with
      connectionID := connectionID, hasConnectionID := true, acceptedCIDs := [connectionID] } := by
  unfold setConnectionID at hset
  split_ifs at hset with hlong
  exact ⟨by omega, (Except.ok.inj hset).symm⟩

theorem setConnectionID_older {c named : RecordCipher} {connectionID : Bytes}
    (hset : c.setConnectionID connectionID = .ok named) : CipherStore.Older c named := by
  obtain ⟨_, rfl⟩ := setConnectionID_ok hset
  exact ⟨rfl, rfl, rfl, rfl, rfl, le_rfl⟩

end RecordCipher

namespace Sender

variable (P : Primitives)

/-- The last epoch for which a sending cipher exists. -/
def newestEpoch (s : Sender) : Nat :=
  s.cipher.epoch + if s.traffic.update.pending then 1 else 0

/-- The invariant of the sending side: a pending update has made the one cipher
that is newer than the current one. -/
structure Sound (s : Sender) : Prop where
  store : s.store.Sound
  cipher_lt : s.traffic.cipher < s.store.ciphers.length
  newest : ∀ ref < s.store.ciphers.length, (s.store.read ref).epoch ≤ s.newestEpoch
  pending : s.traffic.update.pending = true → ∃ ref, s.traffic.pendingCipher = some ref ∧
    ref < s.store.ciphers.length ∧ (s.store.read ref).epoch = s.cipher.epoch + 1
  named : s.traffic.hasConnectionID = true → s.traffic.connectionID.length ≤ 255

/-- What an operation of a sound sender does: it stays sound and its store grows
by records of kind `p`. -/
structure Steps (p : SealedRecord → Prop) (s next : Sender) : Prop where
  sound : next.Sound
  store : CipherStore.Extends p s.store next.store

variable {P} {p : SealedRecord → Prop} {s : Sender}

theorem Sound.steps (hsound : s.Sound) : Steps p s s := ⟨hsound, CipherStore.Extends.refl _⟩

theorem Steps.trans {middle next : Sender} (h₁ : Steps p s middle) (h₂ : Steps p middle next) :
    Steps p s next := ⟨h₂.sound, h₁.store.trans h₂.store⟩

/-- Sealing with any of the ciphers keeps the invariant. -/
theorem Sound.grow (hsound : s.Sound) {store : CipherStore}
    (hgrows : CipherStore.Grows p s.store store) : Sound { s with store := store } where
  store := hgrows.sound hsound.store
  cipher_lt := by
    rw [hgrows.length_eq]
    exact hsound.cipher_lt
  newest ref href := by
    rw [hgrows.length_eq] at href
    have hnewest := hsound.newest ref href
    unfold newestEpoch cipher at hnewest ⊢
    rwa [(hgrows.older ref).epoch, (hgrows.older s.traffic.cipher).epoch]
  pending hpending := by
    obtain ⟨ref, hsome, href, hepoch⟩ := hsound.pending hpending
    refine ⟨ref, hsome, by rwa [hgrows.length_eq], ?_⟩
    unfold cipher at hepoch ⊢
    rwa [(hgrows.older ref).epoch, (hgrows.older s.traffic.cipher).epoch]
  named := hsound.named

theorem Sound.wp_onStore {α : Type} (hsound : s.Sound) {m : EStateM Err CipherStore α}
    (hkeeps : Keeps (CipherStore.Grows p) m) :
    wp (onStore m) (fun _ => Steps p s) (fun _ => Steps p s) s := by
  rw [onStore, wp_zoom]
  exact wp_both (hkeeps s.store) fun _ hgrows => ⟨hsound.grow hgrows, hgrows.extends⟩

theorem Sound.withPendingFragment (hsound : s.Sound) (fragment : Bytes) :
    Steps p s (s.withPendingFragment fragment) :=
  ⟨⟨hsound.store, hsound.cipher_lt, hsound.newest, hsound.pending, hsound.named⟩,
    CipherStore.Extends.refl _⟩

/-- The cipher of the next epoch is a new one, perhaps with a connection ID. -/
theorem nextCipher_older (s : Sender) : CipherStore.Older ((newRecordCipher P s.traffic.suite
    (scheduleTrafficUpdate P s.traffic.suite s.traffic.secret) (s.cipher.epoch + 1)
    s.traffic.replaySize).setPlaintextLimit s.cipher.plaintextLimit) (s.nextCipher P) := by
  unfold nextCipher
  dsimp only
  split_ifs
  · split
    next named hset => exact setConnectionID_older hset
    next => exact CipherStore.Older.refl _
  · exact CipherStore.Older.refl _

@[simp] theorem nextCipher_epoch (s : Sender) : (s.nextCipher P).epoch = s.cipher.epoch + 1 :=
  (nextCipher_older s).epoch

/-- Sealing with the current cipher. -/
theorem Sound.logged (hsound : s.Sound) {contentType : UInt8} {content : Bytes}
    (hsealable : s.cipher.Sealable contentType content.length)
    (hp : p (s.cipher.protect P contentType content true true)) :
    Steps p s ⟨s.loggedStore (s.cipher.protect P contentType content true true), s.traffic⟩ :=
  have hgrows := grows_logRecord P hsound.cipher_lt hsealable hp
  ⟨hsound.grow hgrows, hgrows.extends⟩

/-- An idle sender can make a cipher of the next epoch. -/
theorem Sound.startUpdate (hsound : s.Sound) (hidle : s.traffic.update.pending = false)
    (records : List RecordNumber) : Steps p s (s.startUpdate P ⟨true, records⟩) := by
  have hnewest : ∀ ref < s.store.ciphers.length, (s.store.read ref).epoch ≤ s.cipher.epoch := by
    intro ref href
    simpa [newestEpoch, hidle] using hsound.newest ref href
  have hextends : CipherStore.Extends p s.store (s.startUpdate P ⟨true, records⟩).store := by
    refine CipherStore.Extends.allocate s.store fun ref href => ?_
    have := hnewest ref href
    rw [nextCipher_epoch]
    omega
  have hcipher : (s.startUpdate P ⟨true, records⟩).cipher = s.cipher :=
    read_allocate_of_lt hsound.cipher_lt _
  have hlength : (s.startUpdate P ⟨true, records⟩).store.ciphers.length =
      s.store.ciphers.length + 1 := allocate_length ..
  refine ⟨⟨hextends.sound hsound.store, hsound.cipher_lt.trans_le hextends.length_le, ?_,
    fun _ => ⟨s.store.ciphers.length, rfl, ?_, ?_⟩, hsound.named⟩, hextends⟩
  · intro ref href
    unfold newestEpoch
    rw [hcipher]
    rw [hlength] at href
    rcases Nat.lt_succ_iff_lt_or_eq.mp href with hold | rfl
    · rw [(hextends.older ref hold).epoch]
      exact (hnewest ref hold).trans (Nat.le_add_right _ _)
    · exact (congrArg epoch (read_allocate_new ..)).trans_le
        (nextCipher_epoch s).le
  · rw [hlength]
    exact Nat.lt_succ_self _
  · rw [hcipher]
    exact (congrArg epoch (read_allocate_new ..)).trans
      (nextCipher_epoch s)

theorem Sound.updateBegun (hsound : s.Sound) (hidle : s.traffic.update.pending = false)
    (hsealable : s.cipher.Sealable recordTypeHandshake 13) (requestUpdate : Bool)
    (hp : p (s.keyUpdateRecord P requestUpdate)) : Steps p s (s.updateBegun P requestUpdate) := by
  rw [← putHandshakeFragment_keyUpdateFragment_length s.traffic.messageSequence requestUpdate]
    at hsealable
  have hlogged := hsound.logged hsealable hp
  have hsealed := hlogged.trans (hlogged.sound.withPendingFragment
    (keyUpdateFragment s.traffic.messageSequence requestUpdate).putHandshakeFragment)
  obtain ⟨hstarted, hstore⟩ := hsealed.trans (hsealed.sound.startUpdate (P := P) hidle
    [(s.keyUpdateRecord P requestUpdate).number])
  exact ⟨⟨hstarted.store, hstarted.cipher_lt, hstarted.newest, hstarted.pending, hstarted.named⟩,
    hstore⟩

theorem Sound.wp_beginKeyUpdate (hsound : s.Sound) (requestUpdate : Bool)
    (hp : p (s.keyUpdateRecord P requestUpdate)) :
    wp (beginKeyUpdate P requestUpdate) (fun _ => Steps p s) (fun _ => Steps p s) s :=
  Sender.wp_beginKeyUpdate P hsound.named
    (fun hcan hsealable => hsound.updateBegun hcan.idle hsealable requestUpdate hp)
    (fun _ _ => hsound.steps) fun _ _ _ => hsound.withPendingFragment _

theorem Sound.wp_retransmitKeyUpdate (hsound : s.Sound)
    (hp : p (s.cipher.protect P recordTypeHandshake s.traffic.pendingFragment true true)) :
    wp (retransmitKeyUpdate P) (fun _ => Steps p s) (fun _ => Steps p s) s := by
  refine Sender.wp_retransmitKeyUpdate P (fun record hpending _ hsealable hrecord => ?_)
    fun _ => hsound.steps
  subst hrecord
  obtain ⟨hgrown, hstore⟩ := hsound.logged hsealable hp
  have hnewest := hgrown.newest
  unfold newestEpoch at hnewest
  rw [if_pos hpending] at hnewest
  exact ⟨⟨hgrown.store, hgrown.cipher_lt, hnewest, fun _ => hgrown.pending hpending,
    hgrown.named⟩, hstore⟩

theorem Sound.processACK (hsound : s.Sound) (numbers : List RecordNumber) :
    (s.processACK numbers).2.Sound := by
  cases hswitched : (s.processACK numbers).1 with
  | false => rwa [processACK_of_not_switched hswitched]
  | true =>
    have hpending := (processACK_fst_iff.mp hswitched).1
    obtain ⟨ref, hsome, href, hepoch⟩ := hsound.pending hpending
    have hcipher : s.traffic.pendingCipher.getD s.traffic.cipher = ref := by rw [hsome]; rfl
    rw [processACK_of_switched hswitched]
    -- The pending cipher becomes the current one, and stays the newest.
    refine ⟨hsound.store, hcipher ▸ href, fun other hother => ?_, nofun, hsound.named⟩
    have hnewest := hsound.newest other hother
    simp only [newestEpoch, hpending, if_true] at hnewest
    simp only [newestEpoch, cipher, hcipher, hepoch]
    exact hnewest

theorem Sound.wp_setConnectionID (hsound : s.Sound) (connectionID : Bytes) :
    wp (setConnectionID connectionID) (fun _ => Steps p s) (fun _ => Steps p s) s := by
  have hkeeps : ∀ ref, Keeps (CipherStore.Grows p)
      (updateCipher ref (·.setConnectionID connectionID)) := fun ref =>
    keeps_grows_updateCipher ref fun _ _ => setConnectionID_older
  unfold setConnectionID
  rw [wp_bind, wp_get, wp_bind, onStore, wp_zoom]
  refine wp_updateCipher (fun named hnamed => ?_) fun _ _ => hsound.steps
  have hgrows := grows_write (p := p) hsound.cipher_lt
    (setConnectionID_older hnamed)
  have hgrown := hsound.grow hgrows
  have hset : Steps p s ⟨s.store.write s.traffic.cipher named, { s.traffic with
      connectionID := connectionID, hasConnectionID := true }⟩ :=
    ⟨⟨hgrown.store, hgrown.cipher_lt, hgrown.newest, hgrown.pending,
      fun _ => (setConnectionID_ok hnamed).1⟩, hgrows.extends⟩
  rw [wp_bind, wp_modify]
  cases s.traffic.pendingCipher with
  | none => exact hset
  | some ref =>
    exact wp_both (hset.sound.wp_onStore (hkeeps ref)) fun _ => hset.trans

/-! ## Progress of the sending side -/

/-- The soundness of a sending side with a message counter that is in range. -/
structure Numbered (s : Sender) : Prop extends s.Sound where
  sequence_lt : s.traffic.messageSequence < 2 ^ 16

/-- A later state of a sending side: neither its epoch nor its message counter went back. -/
structure Advances (s next : Sender) : Prop where
  numbered : next.Numbered
  store : CipherStore.Extends (fun _ => True) s.store next.store
  epoch_le : s.cipher.epoch ≤ next.cipher.epoch
  unused_le : s.traffic.unusedSequence ≤ next.traffic.unusedSequence

theorem Numbered.refl (hsound : s.Numbered) : Advances s s :=
  ⟨hsound, CipherStore.Extends.refl _, le_rfl, le_rfl⟩

theorem Numbered.grow (hsound : s.Numbered) {store : CipherStore}
    (hgrows : CipherStore.Grows (fun _ => True) s.store store) :
    Advances s { s with store := store } :=
  ⟨⟨hsound.toSound.grow hgrows, hsound.sequence_lt⟩, hgrows.extends,
    (hgrows.older s.traffic.cipher).epoch.ge, le_rfl⟩

theorem CanBegin.canAllocate (hcan : s.CanBegin) :
    s.traffic.canAllocateMessageSequences 1 = .ok () := by
  have hlt := hcan.sequence_lt
  unfold canAllocateMessageSequences
  rw [if_neg (by decide), if_neg (by simp [hcan.unexhausted]; omega)]

theorem Numbered.updateBegun (hsound : s.Numbered) (hcan : s.CanBegin)
    (hsealable : s.cipher.Sealable recordTypeHandshake 13) (requestUpdate : Bool) :
    Advances s (s.updateBegun P requestUpdate) := by
  have hsteps := hsound.toSound.updateBegun (P := P) (p := fun _ => True) hcan.idle hsealable
    requestUpdate trivial
  have hcommit := commitMessageSequences_unused hsound.sequence_lt
    hcan.canAllocate
  have hepoch : (s.updateBegun P requestUpdate).cipher.epoch = s.cipher.epoch :=
    (hsteps.store.older s.traffic.cipher hsound.cipher_lt).epoch
  exact ⟨⟨hsteps.sound, hcommit.1⟩, hsteps.store, hepoch.ge,
    (Nat.le_succ _).trans_eq hcommit.2.symm⟩

/-- A failed update leaves its message behind. -/
theorem Numbered.withPendingFragment (hsound : s.Numbered) (fragment : Bytes) :
    Advances s (s.withPendingFragment fragment) :=
  have hsteps := hsound.toSound.withPendingFragment (p := fun _ => True) fragment
  ⟨⟨hsteps.sound, hsound.sequence_lt⟩, hsteps.store, le_rfl, le_rfl⟩

theorem Numbered.wp_beginKeyUpdate (hsound : s.Numbered) (requestUpdate : Bool) :
    wp (beginKeyUpdate P requestUpdate)
      (fun wire next => Advances s next ∧ next.store.log = s.store.log ++ [wire] ∧
        wire.contentType = recordTypeHandshake)
      (fun _ => Advances s) s := by
  apply Sender.wp_beginKeyUpdate P hsound.named
  · exact fun hcan hsealable => ⟨hsound.updateBegun hcan hsealable requestUpdate, rfl, rfl⟩
  · exact fun _ _ => hsound.refl
  · exact fun _ _ _ => hsound.withPendingFragment _

/-- The keys and the messages of two states are the same, up to the store. -/
structure SameMessages (s next : Sender) : Prop where
  cipher : next.traffic.cipher = s.traffic.cipher
  sequence : next.traffic.messageSequence = s.traffic.messageSequence
  unused : next.traffic.unusedSequence = s.traffic.unusedSequence
  pending : next.traffic.update.pending = s.traffic.update.pending
  fragment : next.traffic.pendingFragment = s.traffic.pendingFragment
  named : (s.traffic.hasConnectionID = true → s.traffic.connectionID.length ≤ 255) →
    next.traffic.hasConnectionID = true → next.traffic.connectionID.length ≤ 255

instance : Std.Refl SameMessages := ⟨fun _ => ⟨rfl, rfl, rfl, rfl, rfl, id⟩⟩

instance : IsTrans Sender SameMessages :=
  ⟨fun _ _ _ h₁ h₂ => ⟨h₂.cipher.trans h₁.cipher, h₂.sequence.trans h₁.sequence,
    h₂.unused.trans h₁.unused, h₂.pending.trans h₁.pending, h₂.fragment.trans h₁.fragment,
    h₂.named ∘ h₁.named⟩⟩

theorem Numbered.advances (hsound : s.Numbered) {next : Sender}
    (hsteps : Steps (fun _ => True) s next) (hsame : SameMessages s next) : Advances s next := by
  refine ⟨⟨hsteps.sound, hsame.sequence ▸ hsound.sequence_lt⟩, hsteps.store, ?_, hsame.unused.ge⟩
  unfold Sender.cipher
  rw [hsame.cipher, (hsteps.store.older s.traffic.cipher hsound.cipher_lt).epoch]

theorem Numbered.wp_retransmitKeyUpdate (hsound : s.Numbered) : wp (retransmitKeyUpdate P)
      (fun wire next => Advances s next ∧ next.store.log = s.store.log ++ [wire] ∧
        wire.contentType = recordTypeHandshake)
      (fun _ => Advances s) s := by
  have hrun : wp (retransmitKeyUpdate P) (fun wire next => SameMessages s next ∧
      next.store.log = s.store.log ++ [wire] ∧ wire.contentType = recordTypeHandshake)
      (fun _ next => next = s) s := by
    refine Sender.wp_retransmitKeyUpdate P (fun record hpending _ _ hrecord => ?_) fun _ => rfl
    subst hrecord
    exact ⟨⟨rfl, rfl, rfl, hpending.symm, rfl, id⟩, rfl, rfl⟩
  refine wp_mono (wp_and (hsound.toSound.wp_retransmitKeyUpdate (p := fun _ => True) trivial) hrun)
    ?_ ?_
  · rintro wire next ⟨hsteps, hsame, hsealed⟩
    exact ⟨hsound.advances hsteps hsame, hsealed⟩
  · rintro _ next ⟨-, rfl⟩
    exact hsound.refl

theorem Numbered.processACK (hsound : s.Numbered) (numbers : List RecordNumber) :
    Advances s (s.processACK numbers).2 := by
  have hnext := hsound.toSound.processACK numbers
  cases hswitched : (s.processACK numbers).1 with
  | false =>
    rw [processACK_of_not_switched hswitched]
    exact hsound.refl
  | true =>
    obtain ⟨ref, hsome, href, hepoch⟩ := hsound.pending (processACK_fst_iff.mp hswitched).1
    rw [processACK_of_switched hswitched] at hnext ⊢
    refine ⟨⟨hnext, hsound.sequence_lt⟩, CipherStore.Extends.refl _, ?_, le_rfl⟩
    unfold Sender.cipher at hepoch ⊢
    dsimp only
    rw [hsome, Option.getD_some, hepoch]
    exact Nat.le_succ _

/-- The ciphers take the connection ID one by one, and the traffic state after the first. -/
theorem keeps_setConnectionID {R : Sender → Sender → Prop} [Std.Refl R] [IsTrans Sender R]
    {connectionID : Bytes} (hwrite : ∀ s ref named, R s { s with store := s.store.write ref named })
    (hname : connectionID.length ≤ 255 → ∀ s : Sender, R s { s with traffic :=
      { s.traffic with connectionID := connectionID, hasConnectionID := true } }) :
    Keeps R (setConnectionID connectionID) := by
  intro s
  unfold setConnectionID
  rw [wp_bind, wp_get, wp_bind, onStore, wp_zoom]
  refine wp_updateCipher (fun named hnamed => ?_) fun _ _ => Std.Refl.refl s
  have hset := Trans.trans (hwrite s s.traffic.cipher named)
    (hname (setConnectionID_ok hnamed).1 _)
  rw [wp_bind, wp_modify]
  cases s.traffic.pendingCipher with
  | none => exact hset
  | some ref =>
    dsimp only
    rw [wp_zoom]
    exact wp_updateCipher (fun other _ => Trans.trans hset (hwrite _ ref other)) fun _ _ => hset

theorem keeps_messages_setConnectionID (connectionID : Bytes) :
    Keeps SameMessages (setConnectionID connectionID) :=
  keeps_setConnectionID (fun _ _ _ => ⟨rfl, rfl, rfl, rfl, rfl, id⟩)
    fun hshort _ => ⟨rfl, rfl, rfl, rfl, rfl, fun _ _ => hshort⟩

theorem Numbered.wp_setConnectionID (hsound : s.Numbered) (connectionID : Bytes) :
    wp (setConnectionID connectionID) (fun _ => Advances s) (fun _ => Advances s) s :=
  wp_mono (wp_and (hsound.toSound.wp_setConnectionID (p := fun _ => True) connectionID)
    (keeps_messages_setConnectionID connectionID s))
    (fun _ _ hboth => hsound.advances hboth.1 hboth.2)
    fun _ _ hboth => hsound.advances hboth.1 hboth.2

/-- Taking message sequence numbers that were still free. -/
theorem Numbered.commit (hsound : s.Numbered) {count : Nat}
    (hcan : s.traffic.canAllocateMessageSequences count = .ok ()) :
    Advances s { s with traffic := s.traffic.commitMessageSequences count } :=
  have hcommit := commitMessageSequences_unused hsound.sequence_lt hcan
  ⟨⟨⟨hsound.store, hsound.cipher_lt, hsound.newest, hsound.pending, hsound.named⟩, hcommit.1⟩,
    CipherStore.Extends.refl _, le_rfl, (Nat.le_add_right _ _).trans_eq hcommit.2.symm⟩

theorem Advances.trans {middle next : Sender} (h₁ : Advances s middle)
    (h₂ : Advances middle next) : Advances s next :=
  ⟨h₂.numbered, h₁.store.trans h₂.store, h₁.epoch_le.trans h₂.epoch_le,
    h₁.unused_le.trans h₂.unused_le⟩

end Sender

end Dtls13
