import Dtls13.Traffic.Agreement

/-! # Runs of a link

The invariants of the two sides and of the order of updates hold together in
every run. They give the agreement on epochs, and they tell which records of an
old flight the receiver can still open.
-/

namespace Dtls13

open ByteCodec StateLogic RunSystem CipherStore List

namespace Link

/-- The flight holds its records, and was built in an application epoch. -/
structure Flying (base : Nat) (s : Sender) (f : Flight) : Prop where
  holds : s.store.Holds f
  base_le : base ≤ (s.store.read f.cipher).epoch
  le_current : (s.store.read f.cipher).epoch ≤ s.cipher.epoch

structure Agrees (P : Primitives) (suite : CipherSuite) (base : Nat) (secret : Bytes)
    (l : Link) : Prop where
  sound : l.sender.Sound
  senderKeys : l.sender.Keyed P suite base secret
  receiverKeys : l.receiver.Keyed P suite base secret
  paced : l.Paced
  flights : ∀ f ∈ l.flights, Flying base l.sender f

variable {P : Primitives} {suite : CipherSuite} {base : Nat} {secret : Bytes} {l : Link}

/-- A flight stays in the air when ciphers are used or made. -/
theorem Flying.extend {p : SealedRecord → Prop} {s next : Sender} {f : Flight}
    (hflying : Flying base s f) (hextends : CipherStore.Extends p s.store next.store)
    (hepoch : s.cipher.epoch ≤ next.cipher.epoch) : Flying base next f := by
  have hsame := (hextends.older f.cipher hflying.holds.cipher_lt).epoch
  exact ⟨hflying.holds.extend hextends, hsame.symm ▸ hflying.base_le,
    hsame.symm ▸ hflying.le_current.trans hepoch⟩

section

variable (hagrees : l.Agrees P suite base secret)

include hagrees

/-- Sealing records other than updates. -/
theorem Agrees.grow {store : CipherStore} {messageSequence : Nat} {exhausted : Bool}
    {flights : List Flight} (hgrows : CipherStore.Grows (fun _ => True) l.sender.store store)
    (hlt : messageSequence < 2 ^ 16)
    (hunused : l.sender.traffic.unusedSequence ≤ if exhausted then 2 ^ 16 else messageSequence)
    (hflights : ∀ f ∈ flights, f ∈ l.flights ∨ store.Holds f ∧ base ≤ (store.read f.cipher).epoch ∧
      (store.read f.cipher).epoch ≤ (store.read l.sender.traffic.cipher).epoch) :
    Agrees P suite base secret { l with
      sender := ⟨store, { l.sender.traffic with
        messageSequence := messageSequence, sequenceExhausted := exhausted }⟩
      flights := flights } := by
  have hsound := hagrees.sound.grow hgrows
  have hkeyed := hagrees.senderKeys.grow hgrows
  have hepoch : (store.read l.sender.traffic.cipher).epoch = l.sender.cipher.epoch :=
    (hgrows.older _).epoch
  refine ⟨⟨hsound.store, hsound.cipher_lt, hsound.newest, hsound.pending, hsound.named⟩,
    ⟨hkeyed.base_le, hkeyed.suite_eq, hkeyed.secret_eq, hkeyed.next_secret, hkeyed.stored⟩,
    hagrees.receiverKeys, ?_, fun f hf => ?_⟩
  · exact hagrees.paced.extend flights rfl (fun _ => rfl) hepoch hgrows.log.subset hlt hunused
  · rcases hflights f hf with hold | ⟨hholds, hbase, hle⟩
    · exact (hagrees.flights f hold).extend hgrows.extends hepoch.ge
    · exact ⟨hholds, hbase, hle⟩

/-- The common case: no message sequence number is taken. -/
theorem Agrees.growStore {store : CipherStore}
    (hgrows : CipherStore.Grows (fun _ => True) l.sender.store store) :
    Agrees P suite base secret { l with sender := ⟨store, l.sender.traffic⟩ } :=
  hagrees.grow hgrows hagrees.paced.sequence_lt le_rfl fun _ hf => .inl hf

theorem Agrees.beginKeyUpdate (requestUpdate : Bool) :
    (l.beginKeyUpdate P requestUpdate).Agrees P suite base secret := by
  refine handle_of_wp (Sender.wp_beginKeyUpdate P hagrees.sound.named ?_ (fun _ _ => hagrees) ?_)
  · intro hcan hsealable
    have hsteps := hagrees.sound.updateBegun (P := P) (p := fun _ => True) hcan.idle hsealable
      requestUpdate trivial
    exact ⟨hsteps.sound, hagrees.senderKeys.updateBegun hagrees.sound hsealable requestUpdate,
      hagrees.receiverKeys, hagrees.paced.updateBegun hagrees.sound hcan hsealable requestUpdate,
      fun f hf => (hagrees.flights f hf).extend hsteps.store
        (hsteps.store.older _ hagrees.sound.cipher_lt).epoch.ge⟩
  · intro _ hidle _
    have hkeyed := hagrees.senderKeys
    exact ⟨(hagrees.sound.withPendingFragment (p := fun _ => True) _).sound,
      ⟨hkeyed.base_le, hkeyed.suite_eq, hkeyed.secret_eq, hkeyed.next_secret, hkeyed.stored⟩,
      hagrees.receiverKeys,
      hagrees.paced.extend l.flights rfl (fun hpending => absurd (hidle.symm.trans hpending)
        (by decide)) rfl (List.Subset.refl _) hagrees.paced.sequence_lt le_rfl,
      fun f hf => ⟨(hagrees.flights f hf).holds, (hagrees.flights f hf).base_le,
        (hagrees.flights f hf).le_current⟩⟩

theorem Agrees.retransmitKeyUpdate : (l.retransmitKeyUpdate P).Agrees P suite base secret := by
  refine handle_of_wp (Sender.wp_retransmitKeyUpdate P ?_ fun _ => hagrees)
  rintro record hpending hcipher hsealable rfl
  have hgrows := grows_logRecord (p := fun _ => True) P hcipher hsealable trivial
  have hsound := hagrees.sound.grow hgrows
  have hkeyed := hagrees.senderKeys.grow hgrows
  have hnewest := hsound.newest
  unfold Sender.newestEpoch at hnewest
  rw [if_pos hpending] at hnewest
  refine ⟨⟨hsound.store, hsound.cipher_lt, hnewest, fun _ => hsound.pending hpending, hsound.named⟩,
    ⟨hkeyed.base_le, hkeyed.suite_eq, hkeyed.secret_eq, fun _ => hkeyed.next_secret hpending,
      hkeyed.stored⟩,
    hagrees.receiverKeys, ?_, fun f hf => ?_⟩
  · exact hagrees.paced.retransmitted hpending rfl rfl (hgrows.older _).epoch
  · exact (hagrees.flights f hf).extend hgrows.extends (hgrows.older _).epoch.ge

theorem Agrees.deliver (index : Nat) : (l.deliver P index).Agrees P suite base secret := by
  unfold Link.deliver
  cases hindex : l.sent[index]? with
  | none => exact hagrees
  | some entry =>
    obtain ⟨q, record⟩ := entry
    have hmem : (q, record) ∈ l.sent := mem_of_getElem? hindex
    obtain ⟨_, hq, requestUpdate, hcontent⟩ := hagrees.paced.sent q record hmem
    have hvalid := valid_keyUpdateFragment requestUpdate (hq.trans_le hagrees.paced.unused_le)
    dsimp only
    rw [hcontent, HandshakeFragment.parseHandshakeFragments_put hvalid]
    refine handle_of_wp (ReceivingTraffic.wp_processKeyUpdate hagrees.receiverKeys.ready
      (fun hold => ?_) fun cipher epochs hnew hepoch hkeys hciphers hcurrent => ?_)
    · exact ⟨hagrees.sound, hagrees.senderKeys, hagrees.receiverKeys,
        hagrees.paced.redelivered hmem hold, hagrees.flights⟩
    · exact ⟨hagrees.sound, hagrees.senderKeys,
        hagrees.receiverKeys.advance hepoch hkeys hciphers hcurrent,
        hagrees.paced.delivered hmem hnew rfl rfl, hagrees.flights⟩

theorem Agrees.ack (numbers : List RecordNumber) : (l.ack numbers).Agrees P suite base secret := by
  unfold Link.ack
  split_ifs with hprocessed
  · have hstore : (l.sender.processACK numbers).2.store = l.sender.store := rfl
    have hepoch : l.sender.cipher.epoch ≤ (l.sender.processACK numbers).2.cipher.epoch := by
      cases hswitched : (l.sender.processACK numbers).1 with
      | false => rw [Sender.processACK_of_not_switched hswitched]
      | true =>
        obtain ⟨ref, hsome, _, hnext⟩ :=
          hagrees.sound.pending (Sender.processACK_fst_iff.mp hswitched).1
        rw [Sender.processACK_of_switched hswitched, hsome]
        exact (Nat.le_succ _).trans_eq hnext.symm
    refine ⟨hagrees.sound.processACK numbers,
      hagrees.senderKeys.processACK hagrees.sound numbers, hagrees.receiverKeys,
      hagrees.paced.acknowledged hagrees.sound hprocessed, fun f hf => ?_⟩
    exact (hagrees.flights f hf).extend (p := fun _ => True)
      (hstore ▸ CipherStore.Extends.refl _) hepoch
  · exact hagrees

theorem Agrees.onFlight (index : Nat) {m : Flight → CipherStore → Flight × CipherStore}
    (hm : ∀ flight, l.sender.store.Holds flight →
      CipherStore.Grows (fun _ => True) l.sender.store (m flight l.sender.store).2 ∧
        (m flight l.sender.store).2.Holds (m flight l.sender.store).1 ∧
        (m flight l.sender.store).1.cipher = flight.cipher) :
    (l.onFlight index m).Agrees P suite base secret := by
  unfold Link.onFlight
  cases hindex : l.flights[index]? with
  | none => exact hagrees
  | some flight =>
    have hflying := hagrees.flights flight (mem_of_getElem? hindex)
    obtain ⟨hgrows, hholds, hcipher⟩ := hm flight hflying.holds
    refine hagrees.grow hgrows hagrees.paced.sequence_lt le_rfl fun f hf => ?_
    rcases mem_or_eq_of_mem_set hf with hold | rfl
    · exact .inl hold
    · refine .inr ⟨hholds, ?_⟩
      rw [hcipher, (hgrows.older _).epoch, (hgrows.older _).epoch]
      exact ⟨hflying.base_le, hflying.le_current⟩

theorem Agrees.sendFlight (bodies : List (UInt8 × Bytes)) (mtu : Nat) :
    (l.sendFlight P bodies mtu).Agrees P suite base secret := by
  unfold Link.sendFlight
  cases hcan : l.sender.traffic.canAllocateMessageSequences bodies.length with
  | error err => exact hagrees
  | ok checked =>
    refine handle_of_wp (wp_mono (wp_buildProtectedFlight _ mtu _ _) ?_
      fun _ _ hpart => hagrees.growStore (hpart.grows fun _ _ _ _ _ _ => trivial))
    intro flight store hbuilt
    have hgrows := hbuilt.seals.growsAny
    have hcipher := hbuilt.cipher
    obtain ⟨hlt, hunused⟩ := SendingTraffic.commitMessageSequences_unused
      hagrees.paced.sequence_lt hcan
    refine hagrees.grow hgrows hlt (hunused.ge.trans' (Nat.le_add_right _ _)) fun f hf => ?_
    rcases mem_append.mp hf with hold | hnew
    · exact .inl hold
    · obtain rfl := mem_singleton.mp hnew
      refine .inr ⟨hbuilt.holds hagrees.sound.cipher_lt, ?_, hcipher ▸ le_rfl⟩
      rw [hcipher, (hgrows.older _).epoch]
      exact hagrees.senderKeys.base_le

theorem Agrees.step (event : LinkEvent) : (l.step P event).Agrees P suite base secret := by
  cases event with
  | beginKeyUpdate requestUpdate => exact hagrees.beginKeyUpdate requestUpdate
  | retransmitKeyUpdate => exact hagrees.retransmitKeyUpdate
  | deliver index => exact hagrees.deliver index
  | ack numbers => exact hagrees.ack numbers
  | sealContent contentType content =>
    exact hagrees.growStore (exec_of_wp (keeps_grows_sealRecord P _ contentType
      content (fun _ _ _ => trivial) l.sender.store))
  | sendFlight bodies mtu => exact hagrees.sendFlight bodies mtu
  | refreshPending index =>
    refine hagrees.onFlight index (m := (·.tryRebuild P)) fun flight hholds => ?_
    obtain ⟨hgrows, hrebuilt⟩ := hholds.rebuild (P := P) fun _ _ _ _ _ _ => trivial
    exact ⟨hgrows, hrebuilt, rfl⟩
  | resize index mtu =>
    exact hagrees.onFlight index (m := (·.tryResize P mtu)) fun flight hholds =>
      hholds.tryResize mtu fun _ _ _ _ _ _ => trivial
  | ackFlight index numbers =>
    refine ⟨hagrees.sound, hagrees.senderKeys, hagrees.receiverKeys,
      hagrees.paced.extend _ rfl (fun _ => rfl) rfl (List.Subset.refl _)
        hagrees.paced.sequence_lt le_rfl, fun f hf => ?_⟩
    obtain ⟨position, hposition⟩ := mem_iff_getElem?.mp hf
    change (l.flights.modify index (·.ack numbers))[position]? = some f at hposition
    rw [List.getElem?_modify] at hposition
    obtain ⟨old, hold, rfl⟩ := Option.map_eq_some_iff.mp hposition
    have hflying := hagrees.flights old (mem_of_getElem? hold)
    split
    · exact ⟨hflying.holds.ack numbers, hflying.base_le, hflying.le_current⟩
    · exact hflying

theorem Agrees.run (events : List LinkEvent) :
    (run (Link.step P) l events).Agrees P suite base secret :=
  run_invariant_all (fun (next : Link) event (hnext : next.Agrees P suite base secret) =>
    hnext.step event) hagrees events

end

/-! ## The start of a link -/

theorem agrees_start (P : Primitives) (suite : CipherSuite) (secret : Bytes) (epoch : Nat)
    (messageSequence : UInt16) (replaySize : Nat) :
    (start P suite secret epoch messageSequence replaySize).Agrees P suite epoch secret := by
  have hsecret := epochSecret_base P suite epoch secret
  refine ⟨⟨⟨fun ref href other hother _ => ?_, nofun, nodup_nil⟩, Nat.zero_lt_one,
      fun ref href => ?_, nofun, nofun⟩,
    ⟨le_rfl, rfl, hsecret.symm, nofun, fun ref href _ => ?_⟩,
    ⟨⟨rfl, fun c hc => ?_, nofun⟩, le_rfl, rfl, hsecret.symm, fun c hc _ => ?_,
      fun other hbase hle _ => ⟨_, mem_singleton_self _, hbase.antisymm hle⟩, fun _ c hc _ => ?_⟩,
    ⟨messageSequence.toNat_lt, nofun, Nat.zero_le _, nofun, fun _ => ⟨rfl, nofun⟩, nofun⟩, nofun⟩
  · exact (Nat.lt_one_iff.mp href).trans (Nat.lt_one_iff.mp hother).symm
  · obtain rfl := Nat.lt_one_iff.mp href
    exact le_rfl
  · obtain rfl := Nat.lt_one_iff.mp href
    change HasKeys P (newRecordCipher P suite secret epoch replaySize) suite
      (epochSecret P suite epoch secret epoch)
    rw [hsecret]
    exact ⟨rfl, rfl, rfl, rfl⟩
  · exact (mem_singleton.mp hc) ▸ le_rfl
  · obtain rfl := mem_singleton.mp hc
    change HasKeys P _ suite (epochSecret P suite epoch secret epoch)
    rw [hsecret]
    exact ⟨rfl, rfl, rfl, rfl⟩
  · exact (mem_singleton.mp hc) ▸ Nat.le_succ _

/-- The cipher of the handshake epoch lies below the application epochs. -/
theorem agrees_established (P : Primitives) (suite : CipherSuite) (secret : Bytes)
    (messageSequence : UInt16) (replaySize : Nat) (handshakeSecret : Option Bytes) :
    (established P suite secret messageSequence replaySize handshakeSecret).Agrees P suite 3
      secret := by
  have hstart := agrees_start P suite secret 3 messageSequence replaySize
  cases handshakeSecret with
  | none => exact hstart
  | some handshake =>
    have hkeyed := hstart.receiverKeys
    refine ⟨hstart.sound, hstart.senderKeys, ⟨⟨rfl, fun c hc => ?_, nofun⟩, le_rfl, rfl,
      hkeyed.secret_eq, fun c hc hbase => ?_, fun epoch hbase hle hge => ?_,
      fun hthree c hc hbase => ?_⟩,
      ⟨hstart.paced.sequence_lt, nofun, Nat.zero_le _, nofun, fun _ => ⟨rfl, nofun⟩, nofun⟩, nofun⟩
    · rcases mem_append.mp hc with hold | hnew
      · exact hkeyed.ready.installed_le c hold
      · exact (mem_singleton.mp hnew) ▸ Nat.le_succ 2
    · rcases mem_append.mp hc with hold | hnew
      · exact hkeyed.installed c hold hbase
      · exact absurd hbase ((mem_singleton.mp hnew) ▸ Nat.not_succ_le_self 2)
    · obtain ⟨c, hc, heq⟩ := hkeyed.recent epoch hbase hle hge
      exact ⟨c, mem_append_left _ hc, heq⟩
    · rcases mem_append.mp hc with hold | hnew
      · exact hkeyed.stale hthree c hold hbase
      · exact absurd hbase ((mem_singleton.mp hnew) ▸ Nat.not_succ_le_self 2)

/-! ## What the receiver can open -/

/-- The receiver finds the cipher of an epoch by its two low bits as long as it is
at most one epoch ahead. -/
theorem Agrees.selects (hagrees : l.Agrees P suite base secret) {epoch : Nat} {first : UInt8}
    (hbase : base ≤ epoch) (hle : epoch ≤ l.receiver.current)
    (hrecent : l.receiver.current ≤ epoch + 1) (hbits : (first &&& 0x03).toNat = epoch % 4) :
    ∃ c, l.receiver.epochs.lookup epoch = some c ∧
      HasKeys P c suite (epochSecret P suite base secret epoch) ∧
      l.receiver.epochs.selectCipher first = .ok c := by
  obtain ⟨c, hmem, rfl⟩ := hagrees.receiverKeys.recent epoch hbase hle hrecent
  have hcurrent := hagrees.receiverKeys.ready.current_eq
  refine ⟨c, EpochSet.lookup_eq_some_iff.mpr ⟨hmem, rfl⟩,
    hagrees.receiverKeys.installed c hmem hbase,
    EpochSet.selectCipher_eq_ok hmem (hle.trans_eq hcurrent.symm) hbits.symm ?_⟩
  intro other _ hother hmatch
  omega

/-- The sender's epoch is the receiver's, or the one before it during an update. -/
theorem Agrees.epochs (hagrees : l.Agrees P suite base secret) :
    (l.sender.traffic.update.pending = false → l.receiver.current = l.sender.cipher.epoch) ∧
      (l.sender.traffic.update.pending = true → l.receiver.current = l.sender.cipher.epoch ∨
        l.receiver.current = l.sender.cipher.epoch + 1) := by
  refine ⟨fun hidle => (hagrees.paced.idle hidle).1, fun hpending => ?_⟩
  have hcurrent := (hagrees.paced.pending hpending).current
  split_ifs at hcurrent
  · exact .inr hcurrent
  · exact .inl hcurrent

theorem Agrees.epoch_bounds (hagrees : l.Agrees P suite base secret) :
    l.sender.cipher.epoch ≤ l.receiver.current ∧
      l.receiver.current ≤ l.sender.cipher.epoch + 1 := by
  obtain ⟨hidle, hpending⟩ := hagrees.epochs
  cases hupdate : l.sender.traffic.update.pending with
  | false => have := hidle hupdate; omega
  | true => have := hpending hupdate; omega

/-- Both directions of a key update agree in every run: on the epoch, on the keys
of the sender's epoch, on the cipher a record of the sender selects, and on which
acknowledgement completes the pending update. -/
theorem keyUpdate_agreement (P : Primitives) (suite : CipherSuite) (secret : Bytes) (epoch : Nat)
    (messageSequence : UInt16) (replaySize : Nat) (events : List LinkEvent) :
    let l := run (step P) (start P suite secret epoch messageSequence replaySize) events
    let current := l.sender.cipher.epoch
    (l.sender.traffic.update.pending = false → l.receiver.current = current) ∧
      (l.sender.traffic.update.pending = true →
        l.receiver.current = current ∨ l.receiver.current = current + 1) ∧
      (∃ c, l.receiver.epochs.lookup current = some c ∧ HasKeys P c suite l.sender.traffic.secret ∧
        HasKeys P l.sender.cipher suite l.sender.traffic.secret ∧
        ∀ contentType content sequence16 lengthPresent,
          l.receiver.epochs.selectCipher ((l.sender.cipher.protect P contentType content
            sequence16 lengthPresent).packet.headD 0) = .ok c) ∧
      (∀ numbers, (l.sender.processACK numbers).1 = true → l.sender.traffic.update.pending = true ∧
          (l.sender.processACK numbers).2.cipher.epoch = current + 1 ∧
          ∃ record, (l.latest, record) ∈ l.sent ∧ record.number ∈ numbers) ∧
      ∀ numbers, (∀ number ∈ numbers, ∃ q record, (q, record) ∈ l.sent ∧ q ≠ l.latest ∧
        record.number = number) → (l.sender.processACK numbers) = (false, l.sender) := by
  intro l current
  have hagrees : l.Agrees P suite epoch secret :=
    (agrees_start P suite secret epoch messageSequence replaySize).run events
  obtain ⟨hidle, hpending⟩ := hagrees.epochs
  obtain ⟨hle, hrecent⟩ := hagrees.epoch_bounds
  have hbase := hagrees.senderKeys.base_le
  have hsecret := hagrees.senderKeys.secret_eq
  -- A switch needs a record of the pending update, which has the latest number.
  have hswitch : ∀ numbers, (l.sender.processACK numbers).1 = true →
      l.sender.traffic.update.pending = true ∧
        ∃ record, (l.latest, record) ∈ l.sent ∧ record.number ∈ numbers := by
    intro numbers hswitched
    obtain ⟨hupdate, number, hnumber, hrecord⟩ := Sender.processACK_fst_iff.mp hswitched
    obtain ⟨record, hmem, rfl⟩ := ((hagrees.paced.pending hupdate).records number).mp hrecord
    exact ⟨hupdate, record, hmem, hnumber⟩
  refine ⟨hidle, hpending, ?_, fun numbers hswitched => ?_, fun numbers hearlier => ?_⟩
  · have hkeys := hagrees.senderKeys.stored _ hagrees.sound.cipher_lt hbase
    have hbits : ∀ sequence16 lengthPresent,
        (l.sender.cipher.headerFirst sequence16 lengthPresent &&& 0x03).toNat = current % 4 :=
      fun sequence16 lengthPresent =>
        (RecordCipher.headerFirst_bits sequence16 lengthPresent).2.1
    obtain ⟨c, hlookup, hc, _⟩ := hagrees.selects hbase hle hrecent (hbits true true)
    rw [hsecret]
    refine ⟨c, hlookup, hc, hkeys, fun contentType content sequence16 lengthPresent => ?_⟩
    rw [RecordCipher.protect_packet_head]
    obtain ⟨other, hother, _, hselect⟩ :=
      hagrees.selects hbase hle hrecent (hbits sequence16 lengthPresent)
    rw [hselect, Option.some.inj (hother.symm.trans hlookup)]
  · obtain ⟨hupdate, hlisted⟩ := hswitch numbers hswitched
    obtain ⟨ref, hsome, _, hnext⟩ := hagrees.sound.pending hupdate
    refine ⟨hupdate, ?_, hlisted⟩
    rw [Sender.processACK_of_switched hswitched, hsome]
    exact hnext
  · have hnot : (l.sender.processACK numbers).1 = false := by
      by_contra hswitched
      obtain ⟨_, record, hmem, hnumber⟩ := hswitch numbers (Bool.not_eq_false _ ▸ hswitched)
      obtain ⟨q, other, hother, hne, heq⟩ := hearlier _ hnumber
      exact hne (hagrees.paced.update_unique hagrees.sound hother hmem heq)
    exact Prod.ext hnot (Sender.processACK_of_not_switched hnot)

/-- Two updates; the first is sent twice, and its acknowledgements come late. -/
def twoUpdates : List LinkEvent :=
  [.beginKeyUpdate false, .retransmitKeyUpdate, .deliver 1, .deliver 0, .ack [⟨3, 0⟩],
    .beginKeyUpdate true, .ack [⟨3, 1⟩], .deliver 2]

theorem keyUpdate_agreement_twoUpdates :
    let l := run (step .checksum) (start .checksum .aes128GcmSha256 [9] 3 5 64) twoUpdates
    l.sender.cipher.epoch = 4 ∧ l.receiver.current = 5 ∧
      l.sender.processACK [⟨3, 1⟩] = (false, l.sender) :=
  ⟨by decide +kernel, by decide +kernel,
    (keyUpdate_agreement .checksum .aes128GcmSha256 [9] 3 5 64 twoUpdates).2.2.2.2 _ (by
      intro number hnumber
      obtain rfl := List.mem_singleton.mp hnumber
      have hlate : ∃ entry ∈ (run (step .checksum) (start .checksum .aes128GcmSha256 [9] 3 5 64)
          twoUpdates).sent, entry.1 ≠ 6 ∧ entry.2.number = ⟨3, 1⟩ := by decide +kernel
      obtain ⟨entry, hmem, hrest⟩ := hlate
      exact ⟨entry.1, entry.2, hmem, hrest⟩)⟩

/-! ## Flights that outlive key updates -/

/-- The receiver holds a cipher that opens the record, and its first byte selects it. -/
def Opens (r : ReceivingTraffic) (record : SealedRecord) : Prop :=
  ∃ c, r.epochs.lookup record.epoch = some c ∧ record.key = c.key ∧
    record.nonce = nonceInto c.iv record.sequence ∧
    r.epochs.selectCipher (record.packet.headD 0) = .ok c

theorem Flying.record_epoch {s : Sender} {f : Flight} (hflying : Flying base s f)
    {record : FlightRecord} (hmem : record ∈ f.records) :
    record.wire ∈ s.store.log ∧ record.wire.epoch = (s.store.read f.cipher).epoch := by
  obtain ⟨_, -, hcarried⟩ := exists_of_forall₂ hflying.holds.carried.flip hmem
  exact ⟨hcarried.mem, hcarried.epoch⟩

/-- A record of a flight can be opened exactly as long as the receiver is at most
one epoch past the cipher the flight was built with. -/
theorem flightRecord_opens_iff (P : Primitives) (suite : CipherSuite) (secret : Bytes)
    (messageSequence : UInt16) (replaySize : Nat) (handshakeSecret : Option Bytes)
    (events : List LinkEvent) :
    let l := run (step P)
      (established P suite secret messageSequence replaySize handshakeSecret) events
    ∀ f ∈ l.flights, ∀ record ∈ f.records, Opens l.receiver record.wire ↔
        l.receiver.current ≤ (l.sender.store.read f.cipher).epoch + 1 := by
  intro l f hf record hrecord
  have hagrees : l.Agrees P suite 3 secret :=
    (agrees_established P suite secret messageSequence replaySize handshakeSecret).run events
  have hflying := hagrees.flights f hf
  obtain ⟨hlogged, hepoch⟩ := hflying.record_epoch hrecord
  obtain ⟨owner, howner, hsealed⟩ := hagrees.sound.store.sealed _ hlogged
  have hbase : 3 ≤ record.wire.epoch := hepoch ▸ hflying.base_le
  rw [← hepoch]
  constructor
  · rintro ⟨c, hlookup, _⟩
    obtain ⟨hmem, hc⟩ := EpochSet.lookup_eq_some_iff.mp hlookup
    have := hagrees.receiverKeys.stale le_rfl c hmem (hc ▸ hbase)
    omega
  · intro hrecent
    have hle : record.wire.epoch ≤ l.receiver.current :=
      hepoch ▸ hflying.le_current.trans hagrees.epoch_bounds.1
    obtain ⟨c, hlookup, hkeys, hselect⟩ :=
      hagrees.selects hbase hle hrecent hsealed.epoch_bits
    have hown := hagrees.senderKeys.stored owner howner (hsealed.epoch ▸ hbase)
    rw [← hsealed.epoch] at hown
    refine ⟨c, hlookup, ?_, ?_, hselect⟩
    · rw [hsealed.key, hown.key_eq, hkeys.key_eq]
    · rw [hsealed.nonce, hown.iv_eq, hkeys.iv_eq]

/-- A ticket stays unacknowledged over one update and is sent again. -/
def ticketOverUpdate : Link :=
  run (step .checksum) (established .checksum .aes128GcmSha256 [9] 5 64 (some [7]))
    [.sendFlight [(handshakeTypeNewSessionTicket, [1, 2, 3, 4])] 512, .beginKeyUpdate false,
      .deliver 0, .ack [⟨3, 1⟩], .refreshPending 0]

theorem flightRecord_opens_ticketOverUpdate :
    ticketOverUpdate.flights.map (·.records.map (·.wire.number)) = [[⟨3, 2⟩]] ∧
      ticketOverUpdate.receiver.current = 4 ∧ ∀ f ∈ ticketOverUpdate.flights, ∀ record ∈ f.records,
        Opens ticketOverUpdate.receiver record.wire := by
  refine ⟨by decide +kernel, by decide +kernel, fun f hf record hrecord => ?_⟩
  have hrecent : ∀ f ∈ ticketOverUpdate.flights, ticketOverUpdate.receiver.current ≤
      (ticketOverUpdate.sender.store.read f.cipher).epoch + 1 := by decide +kernel
  exact (flightRecord_opens_iff .checksum .aes128GcmSha256 [9] 5 64 (some [7]) _ f hf record
    hrecord).mpr (hrecent f hf)

/-- Two updates complete while a ticket is unacknowledged; then it is sent again. -/
def ticketOverTwoUpdates : Link :=
  run (step .checksum) (established .checksum .aes128GcmSha256 [9] 5 64 (some [7]))
    [.sendFlight [(handshakeTypeNewSessionTicket, [1, 2, 3, 4])] 512,
      .beginKeyUpdate false, .deliver 0, .ack [⟨3, 1⟩],
      .beginKeyUpdate false, .deliver 1, .ack [⟨4, 0⟩], .refreshPending 0]

theorem flightRecord_lost_ticketOverTwoUpdates : ticketOverTwoUpdates.flights.map
        (·.records.map fun record => (record.acked, record.wire.number)) = [[(false, ⟨3, 2⟩)]] ∧
      ticketOverTwoUpdates.sender.cipher.epoch = 5 ∧ ticketOverTwoUpdates.receiver.current = 5 ∧
      ticketOverTwoUpdates.receiver.epochs.lookup 3 = none ∧
      ∀ f ∈ ticketOverTwoUpdates.flights, ∀ record ∈ f.records,
        ticketOverTwoUpdates.receiver.epochs.selectCipher (record.wire.packet.headD 0) =
          .error (.protocolError "no receive keys for record epoch") := by
  decide +kernel

end Link

end Dtls13
