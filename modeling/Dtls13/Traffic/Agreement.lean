import Dtls13.Traffic.Link

/-! # Agreement on epochs and keys

In every run of a link the receiver is at the sender's epoch or, while an update
is pending, possibly one ahead, and it holds the sender's current keys. The keys
of both sides are those of one chain of secrets; the order of the updates is
that of their message sequence numbers.
-/

namespace Dtls13

open ByteCodec SendingTraffic CipherStore List HandshakeFragment

/-- The traffic secret of an epoch, counted from the first application epoch. -/
def epochSecret (P : Primitives) (suite : CipherSuite) (base : Nat) (secret : Bytes)
    (epoch : Nat) : Bytes :=
  (scheduleTrafficUpdate P suite)^[epoch - base] secret

theorem epochSecret_base (P : Primitives) (suite : CipherSuite) (base : Nat) (secret : Bytes) :
    epochSecret P suite base secret base = secret := by
  simp [epochSecret]

theorem epochSecret_succ (P : Primitives) (suite : CipherSuite) {base epoch : Nat}
    (secret : Bytes) (hbase : base ≤ epoch) : epochSecret P suite base secret (epoch + 1) =
      scheduleTrafficUpdate P suite (epochSecret P suite base secret epoch) := by
  rw [epochSecret, Nat.succ_sub hbase, Function.iterate_succ_apply']
  rfl

theorem HasKeys.older {P : Primitives} {before after : RecordCipher} {suite : CipherSuite}
    {secret : Bytes} (hkeys : HasKeys P before suite secret)
    (holder : CipherStore.Older before after) : HasKeys P after suite secret :=
  ⟨holder.suite.trans hkeys.suite_eq, holder.key.trans hkeys.key_eq,
    holder.iv.trans hkeys.iv_eq, holder.sn.trans hkeys.sn_eq⟩

section Keys

variable {P : Primitives} {suite : CipherSuite} {base : Nat} {secret : Bytes}

/-! ## The sender's keys -/

/-- Every cipher of an application epoch has the keys of the epoch's secret. -/
structure Sender.Keyed (P : Primitives) (suite : CipherSuite) (base : Nat) (secret : Bytes)
    (s : Sender) : Prop where
  base_le : base ≤ s.cipher.epoch
  suite_eq : s.traffic.suite = suite
  secret_eq : s.traffic.secret = epochSecret P suite base secret s.cipher.epoch
  next_secret : s.traffic.update.pending = true →
    s.traffic.nextSecret = epochSecret P suite base secret (s.cipher.epoch + 1)
  stored : ∀ ref < s.store.ciphers.length, base ≤ (s.store.read ref).epoch →
    HasKeys P (s.store.read ref) suite
      (epochSecret P suite base secret (s.store.read ref).epoch)

namespace Sender

theorem Keyed.grow {p : SealedRecord → Prop} {s : Sender} (hkeyed : s.Keyed P suite base secret)
    {store : CipherStore} (hgrows : CipherStore.Grows p s.store store) :
    Keyed P suite base secret { s with store := store } := by
  have hepoch : (store.read s.traffic.cipher).epoch = s.cipher.epoch := (hgrows.older _).epoch
  refine ⟨?_, hkeyed.suite_eq, ?_, fun hpending => ?_, fun ref href hbase => ?_⟩
  · unfold cipher
    rw [hepoch]
    exact hkeyed.base_le
  · unfold cipher
    rw [hepoch]
    exact hkeyed.secret_eq
  · unfold cipher
    rw [hepoch]
    exact hkeyed.next_secret hpending
  · rw [hgrows.length_eq] at href
    rw [(hgrows.older ref).epoch] at hbase ⊢
    exact (hkeyed.stored ref href hbase).older (hgrows.older ref)

theorem nextCipher_hasKeys (s : Sender) : HasKeys P (s.nextCipher P) s.traffic.suite
    (scheduleTrafficUpdate P s.traffic.suite s.traffic.secret) :=
  HasKeys.older ⟨rfl, rfl, rfl, rfl⟩ (nextCipher_older s)

/-- The pending cipher continues the chain of secrets. -/
theorem Keyed.startUpdate {s : Sender} (hsound : s.Sound) (hkeyed : s.Keyed P suite base secret)
    (update : KeyUpdateState) : (s.startUpdate P update).Keyed P suite base secret := by
  have hcipher : (s.startUpdate P update).cipher = s.cipher :=
    read_allocate_of_lt hsound.cipher_lt _
  have hnext : scheduleTrafficUpdate P s.traffic.suite s.traffic.secret =
      epochSecret P suite base secret (s.cipher.epoch + 1) := by
    rw [epochSecret_succ P suite secret hkeyed.base_le, hkeyed.suite_eq, ← hkeyed.secret_eq]
  refine ⟨?_, hkeyed.suite_eq, ?_, fun _ => ?_, fun ref href hbase => ?_⟩
  · rw [hcipher]
    exact hkeyed.base_le
  · rw [hcipher]
    exact hkeyed.secret_eq
  · rw [hcipher]
    exact hnext
  · change ref < (s.store.allocate (s.nextCipher P)).2.ciphers.length at href
    change base ≤ ((s.store.allocate (s.nextCipher P)).2.read ref).epoch at hbase
    change HasKeys P ((s.store.allocate (s.nextCipher P)).2.read ref) suite
      (epochSecret P suite base secret ((s.store.allocate (s.nextCipher P)).2.read ref).epoch)
    rw [allocate_length] at href
    rcases Nat.lt_succ_iff_lt_or_eq.mp href with hold | rfl
    · rw [read_allocate_of_lt hold] at hbase ⊢
      exact hkeyed.stored ref hold hbase
    · rw [read_allocate_new, nextCipher_epoch, ← hnext, ← hkeyed.suite_eq]
      exact nextCipher_hasKeys s

theorem Keyed.updateBegun {s : Sender} (hsound : s.Sound) (hkeyed : s.Keyed P suite base secret)
    (hsealable : s.cipher.Sealable recordTypeHandshake 13) (requestUpdate : Bool) :
    (s.updateBegun P requestUpdate).Keyed P suite base secret := by
  rw [← putHandshakeFragment_keyUpdateFragment_length s.traffic.messageSequence requestUpdate]
    at hsealable
  have hgrows := grows_logRecord (p := fun _ => True) P hsound.cipher_lt hsealable
    trivial
  have hsealed := ((hsound.grow hgrows).withPendingFragment (p := fun _ => True)
    (keyUpdateFragment s.traffic.messageSequence requestUpdate).putHandshakeFragment).sound
  have hlogged := hkeyed.grow hgrows
  have hstarted := Keyed.startUpdate hsealed ⟨hlogged.base_le, hlogged.suite_eq,
    hlogged.secret_eq, hlogged.next_secret, hlogged.stored⟩
    ⟨true, [(s.keyUpdateRecord P requestUpdate).number]⟩
  exact ⟨hstarted.base_le, hstarted.suite_eq, hstarted.secret_eq, hstarted.next_secret,
    hstarted.stored⟩

theorem Keyed.processACK {s : Sender} (hsound : s.Sound) (hkeyed : s.Keyed P suite base secret)
    (numbers : List RecordNumber) : (s.processACK numbers).2.Keyed P suite base secret := by
  cases hswitched : (s.processACK numbers).1 with
  | false => rwa [processACK_of_not_switched hswitched]
  | true =>
    have hpending := (processACK_fst_iff.mp hswitched).1
    obtain ⟨ref, hsome, href, hepoch⟩ := hsound.pending hpending
    have hcipher : s.traffic.pendingCipher.getD s.traffic.cipher = ref := by rw [hsome]; rfl
    have hbase := hkeyed.base_le
    rw [processACK_of_switched hswitched, hcipher]
    refine ⟨?_, hkeyed.suite_eq, ?_, nofun, hkeyed.stored⟩
    · change base ≤ (s.store.read ref).epoch
      omega
    · change s.traffic.nextSecret = epochSecret P suite base secret (s.store.read ref).epoch
      rw [hepoch]
      exact hkeyed.next_secret hpending

end Sender

/-! ## The receiver's keys -/

/-- The installed ciphers have the keys of their epochs, and the current epoch
and the one before it are installed. From epoch 3 on nothing older stays. -/
structure ReceivingTraffic.Keyed (P : Primitives) (suite : CipherSuite) (base : Nat)
    (secret : Bytes) (r : ReceivingTraffic) : Prop where
  ready : r.Ready
  base_le : base ≤ r.current
  suite_eq : r.suite = suite
  secret_eq : r.secret = epochSecret P suite base secret r.current
  installed : ∀ c ∈ r.epochs.ciphers, base ≤ c.epoch →
    HasKeys P c suite (epochSecret P suite base secret c.epoch)
  recent : ∀ epoch, base ≤ epoch → epoch ≤ r.current → r.current ≤ epoch + 1 →
    ∃ c ∈ r.epochs.ciphers, c.epoch = epoch
  stale : 3 ≤ base → ∀ c ∈ r.epochs.ciphers, base ≤ c.epoch → r.current ≤ c.epoch + 1

namespace ReceivingTraffic

theorem Keyed.advance {r : ReceivingTraffic} (hkeyed : r.Keyed P suite base secret)
    {sequence : Nat} {epochs : EpochSet} {cipher : RecordCipher}
    (hepoch : cipher.epoch = r.current + 1)
    (hkeys : HasKeys P cipher r.suite (scheduleTrafficUpdate P r.suite r.secret))
    (hciphers : epochs.ciphers = r.epochs.ciphers ++ [cipher])
    (hcurrent : epochs.current = r.current + 1) :
    (r.advance P sequence epochs).Keyed P suite base secret := by
  have hnext : scheduleTrafficUpdate P r.suite r.secret =
      epochSecret P suite base secret (r.current + 1) := by
    rw [epochSecret_succ P suite secret hkeyed.base_le, hkeyed.suite_eq, ← hkeyed.secret_eq]
  have hmem : ∀ c, c ∈ epochs.ciphers ↔ c ∈ r.epochs.ciphers ∨ c = cipher := by
    simp [hciphers]
  refine ⟨⟨?_, fun c hc => ?_, hkeyed.ready.named⟩, ?_, hkeyed.suite_eq, hnext,
    fun c hc hbase => ?_, fun epoch hbase hle hge => ?_, fun hthree c hc hbase => ?_⟩
  · unfold ReceivingTraffic.advance
    dsimp only
    split_ifs <;> exact hcurrent
  · change c.epoch ≤ r.current + 1
    rcases (hmem c).mp (mem_advance_ciphers.mp hc).1 with hold | rfl
    · exact (hkeyed.ready.installed_le c hold).trans (Nat.le_succ _)
    · exact hepoch.le
  · exact hkeyed.base_le.trans (Nat.le_succ _)
  · rcases (hmem c).mp (mem_advance_ciphers.mp hc).1 with hold | rfl
    · exact hkeyed.installed c hold hbase
    · rw [hepoch, ← hnext, ← hkeyed.suite_eq]
      exact hkeys
  · change epoch ≤ r.current + 1 at hle
    change r.current + 1 ≤ epoch + 1 at hge
    rcases Nat.le_succ_iff.mp hle with hold | rfl
    · obtain ⟨c, hc, heq⟩ := hkeyed.recent epoch hbase hold (by omega)
      exact ⟨c, mem_advance_ciphers.mpr ⟨(hmem c).mpr (.inl hc), fun _ => .inl (by omega)⟩, heq⟩
    · exact ⟨cipher, mem_advance_ciphers.mpr ⟨(hmem _).mpr (.inr rfl), fun _ => .inl (by omega)⟩,
        hepoch⟩
  · change r.current + 1 ≤ c.epoch + 1
    have hbase' := hkeyed.base_le
    rcases (mem_advance_ciphers.mp hc).2 (by omega) with hrecent | hretained
    · omega
    · unfold retainedEpoch at hretained
      split_ifs at hretained <;> omega

end ReceivingTraffic

end Keys

/-! ## The order of the updates -/

namespace Link

/-- A pending update: its number is the latest, its records are those that may be
acknowledged, and the receiver is ahead exactly when it took one of them. -/
structure Pending (l : Link) : Prop where
  latest_lt : l.latest < l.sender.traffic.unusedSequence
  fragment : ∃ requestUpdate, l.sender.traffic.pendingFragment =
    (keyUpdateFragment l.latest requestUpdate).putHandshakeFragment
  earlier : ∀ q record, (q, record) ∈ l.sent → q ≠ l.latest → q < l.receiver.updateFloor
  records : ∀ number, number ∈ l.sender.traffic.update.records ↔
    ∃ record, (l.latest, record) ∈ l.sent ∧ record.number = number
  floor_le : l.receiver.updateFloor ≤ l.latest + 1
  current : l.receiver.current =
    l.sender.cipher.epoch + if l.latest < l.receiver.updateFloor then 1 else 0

structure Paced (l : Link) : Prop where
  sequence_lt : l.sender.traffic.messageSequence < 2 ^ 16
  sent : ∀ q record, (q, record) ∈ l.sent → record ∈ l.sender.store.log ∧
    q < l.sender.traffic.unusedSequence ∧
    ∃ requestUpdate, record.content = (keyUpdateFragment q requestUpdate).putHandshakeFragment
  floor_le : l.receiver.updateFloor ≤ l.sender.traffic.unusedSequence
  processed : ∀ number ∈ l.processed, ∃ q record, (q, record) ∈ l.sent ∧
    record.number = number ∧ q < l.receiver.updateFloor
  idle : l.sender.traffic.update.pending = false → l.receiver.current = l.sender.cipher.epoch ∧
      ∀ q record, (q, record) ∈ l.sent → q < l.receiver.updateFloor
  pending : l.sender.traffic.update.pending = true → l.Pending

variable {P : Primitives} {l : Link}

theorem Paced.unused_le (hpaced : l.Paced) : l.sender.traffic.unusedSequence ≤ 2 ^ 16 :=
  unusedSequence_le hpaced.sequence_lt

/-- A record number belongs to one update only. -/
theorem Paced.update_unique (hpaced : l.Paced) (hsound : l.sender.Sound) {q q' : Nat}
    {record record' : SealedRecord} (hmem : (q, record) ∈ l.sent)
    (hmem' : (q', record') ∈ l.sent) (hnumber : record.number = record'.number) : q = q' := by
  obtain ⟨hlog, hlt, requestUpdate, hcontent⟩ := hpaced.sent q record hmem
  obtain ⟨hlog', hlt', requestUpdate', hcontent'⟩ := hpaced.sent q' record' hmem'
  obtain rfl := inj_on_of_nodup_map hsound.store.numbers_nodup hlog hlog' hnumber
  have hvalid := valid_keyUpdateFragment requestUpdate (hlt.trans_le hpaced.unused_le)
  have hvalid' := valid_keyUpdateFragment requestUpdate' (hlt'.trans_le hpaced.unused_le)
  have hparse := parseHandshakeFragments_put hvalid
  rw [← hcontent, hcontent', parseHandshakeFragments_put hvalid'] at hparse
  have hsame := (List.cons.inj (Except.ok.inj hparse)).1
  exact (congrArg HandshakeFragment.messageSequence hsame).symm

/-- Sealing other records and taking message sequence numbers. -/
theorem Paced.extend (hpaced : l.Paced) {sender : Sender} (flights : List Flight)
    (hupdate : sender.traffic.update = l.sender.traffic.update)
    (hfragment : l.sender.traffic.update.pending = true →
      sender.traffic.pendingFragment = l.sender.traffic.pendingFragment)
    (hepoch : sender.cipher.epoch = l.sender.cipher.epoch)
    (hlog : l.sender.store.log ⊆ sender.store.log) (hlt : sender.traffic.messageSequence < 2 ^ 16)
    (hunused : l.sender.traffic.unusedSequence ≤ sender.traffic.unusedSequence) :
    Paced { l with sender := sender, flights := flights } where
  sequence_lt := hlt
  sent q record hmem := by
    obtain ⟨hlogged, hq, hcontent⟩ := hpaced.sent q record hmem
    exact ⟨hlog hlogged, hq.trans_le hunused, hcontent⟩
  floor_le := hpaced.floor_le.trans hunused
  processed := hpaced.processed
  idle hidle := by
    rw [hupdate] at hidle
    obtain ⟨hcurrent, hsent⟩ := hpaced.idle hidle
    exact ⟨hcurrent.trans hepoch.symm, hsent⟩
  pending hpending := by
    rw [hupdate] at hpending
    have hold := hpaced.pending hpending
    refine ⟨hold.latest_lt.trans_le hunused, ?_, hold.earlier, ?_, hold.floor_le, ?_⟩
    · rw [hfragment hpending]
      exact hold.fragment
    · rw [hupdate]
      exact hold.records
    · rw [hepoch]
      exact hold.current

/-- An update begins: everything sent so far belongs to earlier updates. -/
theorem Paced.updateBegun (hpaced : l.Paced) (hsound : l.sender.Sound)
    (hcan : l.sender.CanBegin) (hsealable : l.sender.cipher.Sealable recordTypeHandshake 13)
    (requestUpdate : Bool) : Paced { l with
      sender := l.sender.updateBegun P requestUpdate
      latest := l.sender.traffic.messageSequence
      sent := l.sent ++ [(l.sender.traffic.messageSequence,
        l.sender.keyUpdateRecord P requestUpdate)] } := by
  obtain ⟨hcurrent, hsent⟩ := hpaced.idle hcan.idle
  have hunused : l.sender.traffic.unusedSequence = l.sender.traffic.messageSequence := by
    simp [unusedSequence, hcan.unexhausted]
  have hfloor := hpaced.floor_le
  rw [hunused] at hfloor
  have hone : l.sender.traffic.canAllocateMessageSequences 1 = .ok () := by
    have := hcan.sequence_lt
    simp [canAllocateMessageSequences, hcan.unexhausted]
    omega
  obtain ⟨hlt, hcommit⟩ :=
    commitMessageSequences_unused hpaced.sequence_lt hone
  have hnext : (l.sender.updateBegun P requestUpdate).traffic.unusedSequence =
      l.sender.traffic.messageSequence + 1 := hcommit.trans (by rw [hunused])
  have hsteps := hsound.updateBegun (P := P) (p := fun _ => True) hcan.idle hsealable
    requestUpdate trivial
  have hepoch : (l.sender.updateBegun P requestUpdate).cipher.epoch = l.sender.cipher.epoch :=
    (hsteps.store.older _ hsound.cipher_lt).epoch
  have hlogged : l.sender.keyUpdateRecord P requestUpdate ∈
      (l.sender.updateBegun P requestUpdate).store.log :=
    mem_append_right _ (mem_singleton_self _)
  refine ⟨hlt, fun q record hmem => ?_, ?_, fun number hnumber => ?_, nofun, fun _ =>
    ⟨?_, ⟨requestUpdate, rfl⟩, fun q record hmem hne => ?_, fun number => ?_, ?_, ?_⟩⟩
  · rcases mem_append.mp hmem with hold | hnew
    · obtain ⟨hlog, hq, hcontent⟩ := hpaced.sent q record hold
      refine ⟨hsteps.store.log.subset hlog, ?_, hcontent⟩
      change q < (l.sender.updateBegun P requestUpdate).traffic.unusedSequence
      omega
    · obtain ⟨rfl, rfl⟩ := Prod.mk.inj (mem_singleton.mp hnew)
      exact ⟨hlogged, hnext ▸ Nat.lt_succ_self _, requestUpdate, rfl⟩
  · change l.receiver.updateFloor ≤ (l.sender.updateBegun P requestUpdate).traffic.unusedSequence
    omega
  · obtain ⟨q, record, hmem, hrest⟩ := hpaced.processed number hnumber
    exact ⟨q, record, mem_append_left _ hmem, hrest⟩
  · exact hnext ▸ Nat.lt_succ_self _
  · rcases mem_append.mp hmem with hold | hnew
    · exact hsent q record hold
    · exact absurd (Prod.mk.inj (mem_singleton.mp hnew)).1 hne
  · -- The new update has one record, and no record of an earlier update has its number.
    constructor
    · intro hmem
      exact ⟨_, mem_append_right _ (mem_singleton_self _), (mem_singleton.mp hmem).symm⟩
    · rintro ⟨record, hmem, rfl⟩
      rcases mem_append.mp hmem with hold | hnew
      · exact absurd (hsent l.sender.traffic.messageSequence record hold) (by omega)
      · rw [(Prod.mk.inj (mem_singleton.mp hnew)).2]
        exact mem_singleton_self _
  · exact hfloor.trans (Nat.le_succ _)
  · change l.receiver.current = (l.sender.updateBegun P requestUpdate).cipher.epoch +
      if l.sender.traffic.messageSequence < l.receiver.updateFloor then 1 else 0
    rw [hepoch, if_neg (by omega)]
    exact hcurrent

variable {record : SealedRecord}

theorem Paced.retransmitted (hpaced : l.Paced) {store : CipherStore}
    (hpending : l.sender.traffic.update.pending = true)
    (hcontent : record.content = l.sender.traffic.pendingFragment)
    (hlog : store.log = l.sender.store.log ++ [record])
    (hepoch : (store.read l.sender.traffic.cipher).epoch = l.sender.cipher.epoch) : Paced { l with
      sender := ⟨store, { l.sender.traffic with
        update := ⟨true, l.sender.traffic.update.records ++ [record.number]⟩ }⟩
      sent := l.sent ++ [(l.latest, record)] } := by
  have hold := hpaced.pending hpending
  refine ⟨hpaced.sequence_lt, fun q sent hmem => ?_, hpaced.floor_le, fun number hnumber => ?_,
    nofun, fun _ => ⟨hold.latest_lt, hold.fragment, fun q sent hmem hne => ?_, fun number => ?_,
    hold.floor_le, ?_⟩⟩
  · change sent ∈ store.log ∧ _
    rw [hlog]
    rcases mem_append.mp hmem with hbefore | hnew
    · obtain ⟨hlogged, hrest⟩ := hpaced.sent q sent hbefore
      exact ⟨mem_append_left _ hlogged, hrest⟩
    · obtain ⟨rfl, rfl⟩ := Prod.mk.inj (mem_singleton.mp hnew)
      obtain ⟨requestUpdate, hfragment⟩ := hold.fragment
      exact ⟨mem_append_right _ (mem_singleton_self _), hold.latest_lt, requestUpdate,
        hcontent.trans hfragment⟩
  · obtain ⟨q, sent, hmem, hrest⟩ := hpaced.processed number hnumber
    exact ⟨q, sent, mem_append_left _ hmem, hrest⟩
  · rcases mem_append.mp hmem with hbefore | hnew
    · exact hold.earlier q sent hbefore hne
    · exact absurd (Prod.mk.inj (mem_singleton.mp hnew)).1 hne
  · have hbefore := hold.records number
    simp only [mem_append, mem_singleton, Prod.mk.injEq, true_and] at hbefore ⊢
    constructor
    · rintro (hmem | rfl)
      · obtain ⟨sent, hsent, hnumber⟩ := hbefore.mp hmem
        exact ⟨sent, .inl hsent, hnumber⟩
      · exact ⟨record, .inr rfl, rfl⟩
    · rintro ⟨sent, hsent | rfl, hnumber⟩
      · exact .inl (hbefore.mpr ⟨sent, hsent, hnumber⟩)
      · exact .inr hnumber.symm
  · change l.receiver.current = (store.read l.sender.traffic.cipher).epoch + _
    rw [hepoch]
    exact hold.current

/-- The receiver takes an update it has seen before. -/
theorem Paced.redelivered (hpaced : l.Paced) {q : Nat}
    (hmem : (q, record) ∈ l.sent) (hold : q < l.receiver.updateFloor) :
    Paced { l with processed := l.processed ++ [record.number] } where
  sequence_lt := hpaced.sequence_lt
  sent := hpaced.sent
  floor_le := hpaced.floor_le
  processed number hnumber := by
    rcases mem_append.mp hnumber with hbefore | hnew
    · exact hpaced.processed number hbefore
    · exact ⟨q, record, hmem, (mem_singleton.mp hnew).symm, hold⟩
  idle := hpaced.idle
  pending hpending :=
    have hbefore := hpaced.pending hpending
    ⟨hbefore.latest_lt, hbefore.fragment, hbefore.earlier, hbefore.records, hbefore.floor_le,
      hbefore.current⟩

/-- Only the pending update is new to the receiver. -/
theorem Paced.new_is_pending (hpaced : l.Paced) {q : Nat}
    (hmem : (q, record) ∈ l.sent) (hnew : l.receiver.updateFloor ≤ q) :
    l.sender.traffic.update.pending = true ∧ q = l.latest := by
  cases hpending : l.sender.traffic.update.pending with
  | false => exact absurd ((hpaced.idle hpending).2 q record hmem) hnew.not_gt
  | true =>
    refine ⟨rfl, ?_⟩
    by_contra hne
    exact absurd ((hpaced.pending hpending).earlier q record hmem hne) hnew.not_gt

/-- The receiver takes the pending update for the first time and goes ahead. -/
theorem Paced.delivered (hpaced : l.Paced) {q : Nat}
    {receiver : ReceivingTraffic} (hmem : (q, record) ∈ l.sent)
    (hnew : l.receiver.updateFloor ≤ q) (hfloor : receiver.updateFloor = q + 1)
    (hcurrent : receiver.current = l.receiver.current + 1) :
    Paced { l with receiver := receiver, processed := l.processed ++ [record.number] } := by
  obtain ⟨hpending, rfl⟩ := hpaced.new_is_pending hmem hnew
  have hold := hpaced.pending hpending
  have hbehind := hold.current
  rw [if_neg hnew.not_gt] at hbehind
  refine ⟨hpaced.sequence_lt, hpaced.sent, ?_, fun number hnumber => ?_, fun hidle => ?_, fun _ =>
    ⟨hold.latest_lt, hold.fragment, fun other sent hsent hne => ?_, hold.records, hfloor.le, ?_⟩⟩
  · rw [hfloor]
    exact hold.latest_lt
  · change ∃ q sent, (q, sent) ∈ l.sent ∧ sent.number = number ∧ q < receiver.updateFloor
    rw [hfloor]
    rcases mem_append.mp hnumber with hbefore | hlast
    · obtain ⟨q, sent, hsent, heq, hlt⟩ := hpaced.processed number hbefore
      exact ⟨q, sent, hsent, heq, by omega⟩
    · exact ⟨l.latest, record, hmem, (mem_singleton.mp hlast).symm, Nat.lt_succ_self _⟩
  · exact absurd (hpending.symm.trans hidle) (by decide)
  · have := hold.earlier other sent hsent hne
    change other < receiver.updateFloor
    omega
  · change receiver.current =
      l.sender.cipher.epoch + if l.latest < receiver.updateFloor then 1 else 0
    rw [hfloor, if_pos (Nat.lt_succ_self _), hcurrent, hbehind]

/-- An acknowledgement of processed records switches the sender only when the
receiver is ahead. -/
theorem Paced.acknowledged (hpaced : l.Paced) (hsound : l.sender.Sound)
    {numbers : List RecordNumber} (hprocessed : ∀ number ∈ numbers, number ∈ l.processed) :
    Paced { l with sender := (l.sender.processACK numbers).2 } := by
  cases hswitched : (l.sender.processACK numbers).1 with
  | false => rwa [Sender.processACK_of_not_switched hswitched]
  | true =>
    obtain ⟨hpending, number, hnumber, hrecord⟩ := Sender.processACK_fst_iff.mp hswitched
    have hold := hpaced.pending hpending
    obtain ⟨record, hmem, heq⟩ := (hold.records number).mp hrecord
    obtain ⟨q, other, hother, heq', hq⟩ := hpaced.processed number (hprocessed number hnumber)
    obtain rfl := hpaced.update_unique hsound hother hmem (heq'.trans heq.symm)
    have hahead := hold.current
    rw [if_pos hq] at hahead
    obtain ⟨ref, hsome, _, hepoch⟩ := hsound.pending hpending
    have hcipher : l.sender.traffic.pendingCipher.getD l.sender.traffic.cipher = ref := by
      rw [hsome]
      rfl
    rw [Sender.processACK_of_switched hswitched, hcipher]
    refine ⟨hpaced.sequence_lt, hpaced.sent, hpaced.floor_le, hpaced.processed,
      fun _ => ⟨hahead.trans hepoch.symm, fun q sent hsent => ?_⟩, nofun⟩
    by_cases hne : q = l.latest
    · exact hne ▸ hq
    · exact hold.earlier q sent hsent hne

end Link

end Dtls13
