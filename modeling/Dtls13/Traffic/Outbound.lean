import Dtls13.Lib.RunSystem
import Dtls13.Handshake.Ack
import Dtls13.Handshake.Flight
import Dtls13.Traffic.Sound

/-! # Sending histories

Everything one endpoint can do that seals records: application data, ACKs,
alerts and return-routability messages, flights and their rebuilds, key updates
and changes of the connection ID. No record number, and so no nonce under one
key, is used twice in any order of these operations.
-/

namespace Dtls13

open ByteCodec StateLogic RunSystem CipherStore Sender List

/-! ## The machine -/

/-- The sending state of an endpoint from its handshake on. -/
structure Outbound where
  store : CipherStore
  traffic : Option SendingTraffic
  flights : List Flight

inductive OutboundEvent where
  | installApplicationKeys (suite : CipherSuite) (secret : Bytes) (messageSequence : Nat)
      (replaySize peerRecordSizeLimit : Nat) (connectionID : Option Bytes)
  | sealContent (ref : CipherRef) (contentType : UInt8) (content : Bytes)
  | sealProbe (ref : CipherRef) (probeConnectionID content : Bytes)
  | sendACK (numbers : List RecordNumber) (mtu : Nat) (ref : CipherRef)
  | buildFlight (messages : List HandshakeMessage) (mtu : Nat) (ref : CipherRef)
  | refreshPending (index : Nat)
  | resize (index mtu : Nat)
  | ackFlight (index : Nat) (numbers : List RecordNumber)
  | beginKeyUpdate (requestUpdate : Bool)
  | retransmitKeyUpdate
  | processACK (numbers : List RecordNumber)
  | setConnectionID (connectionID : Bytes)
  | setCipherConnectionID (ref : CipherRef) (connectionID : Bytes)
  | setPlaintextLimit (ref : CipherRef) (limit : Nat)
  deriving DecidableEq, Repr

/-- The cipher gets another connection ID. -/
def CipherStore.rename (store : CipherStore) (ref : CipherRef) (connectionID : Bytes) :
    CipherStore := store.write ref { store.read ref with connectionID := connectionID }

namespace Outbound

variable (P : Primitives)

/-- The sending ciphers of the handshake: early data and handshake traffic. -/
def start (earlySuite : CipherSuite) (earlySecret : Bytes) (suite : CipherSuite)
    (handshakeSecret : Bytes) (replaySize : Nat) : Outbound where
  store := ⟨[newRecordCipher P earlySuite earlySecret 1 replaySize,
    newRecordCipher P suite handshakeSecret 2 replaySize], []⟩
  traffic := none
  flights := []

/-- A path challenge is sealed with the connection ID of the probed path, which
is put back whether or not sealing succeeds. -/
def sealProbe (ref : CipherRef) (probeConnectionID content : Bytes) :
    EStateM Err CipherStore SealedRecord := fun store =>
  let active := (store.read ref).connectionID
  let restore (next : CipherStore) :=
    next.write ref { next.read ref with connectionID := active }
  match sealRecord P ref recordTypeReturnRoutability content
      (store.write ref { store.read ref with connectionID := probeConnectionID }) with
  | .ok record next => .ok record (restore next)
  | .error err next => .error err (restore next)

def onStore {α : Type} (o : Outbound) (m : EStateM Err CipherStore α) : Outbound :=
  { o with store := exec m o.store }

def onTraffic {α : Type} (o : Outbound) (m : EStateM Err Sender α) : Outbound :=
  match o.traffic with
  | none => o
  | some traffic =>
    let sender := exec m ⟨o.store, traffic⟩
    { o with store := sender.store, traffic := some sender.traffic }

/-- Runs an operation on one flight, which keeps what a failed operation has done. -/
def onFlight (o : Outbound) (index : Nat) (m : Flight → CipherStore → Flight × CipherStore) :
    Outbound :=
  match o.flights[index]? with
  | none => o
  | some flight =>
    let (next, store) := m flight o.store
    { o with store := store, flights := o.flights.set index next }

/-- Keys are installed once. A connection ID that is too long fails before
anything is stored. -/
def installApplicationKeys (o : Outbound) (suite : CipherSuite) (secret : Bytes)
    (messageSequence replaySize peerRecordSizeLimit : Nat) (connectionID : Option Bytes) :
    Outbound :=
  if o.traffic.isSome then o
  else
    let sender := newSendingTraffic P o.store suite secret 3 messageSequence replaySize
    let limited : Sender := ⟨sender.store.write sender.traffic.cipher
      (sender.cipher.setPlaintextLimit peerRecordSizeLimit), sender.traffic⟩
    match connectionID with
    | none => { o with store := limited.store, traffic := some limited.traffic }
    | some cid =>
      match setConnectionID cid limited with
      | .ok _ named => { o with store := named.store, traffic := some named.traffic }
      | .error _ _ => o

def step (o : Outbound) : OutboundEvent → Outbound
  | .installApplicationKeys suite secret messageSequence replaySize limit connectionID =>
    o.installApplicationKeys P suite secret messageSequence replaySize limit connectionID
  | .sealContent ref contentType content =>
    o.onStore (sealRecord P ref contentType content)
  | .sealProbe ref probeConnectionID content =>
    o.onStore (sealProbe P ref probeConnectionID content)
  | .sendACK numbers mtu ref => o.onStore (buildACKRecords P numbers mtu ref)
  | .buildFlight messages mtu ref =>
    -- A reference that names no cipher is a nil pointer, which no caller passes.
    if o.store.ciphers.length ≤ ref then o
    else match buildProtectedFlight P messages mtu ref o.store with
    | .ok flight store => { o with store := store, flights := o.flights ++ [flight] }
    | .error _ store => { o with store := store }
  | .refreshPending index => o.onFlight index (·.tryRebuild P)
  | .resize index mtu => o.onFlight index (·.tryResize P mtu)
  | .ackFlight index numbers => { o with flights := o.flights.modify index (·.ack numbers) }
  | .beginKeyUpdate requestUpdate => o.onTraffic (beginKeyUpdate P requestUpdate)
  | .retransmitKeyUpdate => o.onTraffic (retransmitKeyUpdate P)
  | .processACK numbers => { o with traffic := o.traffic.map fun t => (t.processACK numbers).2 }
  | .setConnectionID connectionID => o.onTraffic (setConnectionID connectionID)
  | .setCipherConnectionID ref connectionID =>
    o.onStore (updateCipher ref (·.setConnectionID connectionID))
  | .setPlaintextLimit ref limit =>
    o.onStore (updateCipher ref fun c => .ok (c.setPlaintextLimit limit))

/-- Before the application keys only the handshake epochs exist. -/
def SoundKeys (o : Outbound) : Prop :=
  match o.traffic with
  | none => o.store.Sound ∧ ∀ ref < o.store.ciphers.length, (o.store.read ref).epoch ≤ 2
  | some traffic => Sender.Sound ⟨o.store, traffic⟩

structure Sound (o : Outbound) : Prop where
  keys : o.SoundKeys
  flights : ∀ f ∈ o.flights, o.store.Holds f

variable {P} {o : Outbound}

/-- A store that only grows; the kind of the new records does not matter here. -/
abbrev GrowsAny : CipherStore → CipherStore → Prop := CipherStore.Grows fun _ => True

variable {store : CipherStore}

theorem SoundKeys.grow (hsound : o.SoundKeys)
    (hgrows : GrowsAny o.store store) (flights : List Flight) :
    SoundKeys { o with store := store, flights := flights } := by
  unfold SoundKeys at hsound ⊢
  cases htraffic : o.traffic with
  | none =>
    simp only [htraffic] at hsound ⊢
    refine ⟨hgrows.sound hsound.1, fun ref href => ?_⟩
    rw [hgrows.length_eq] at href
    rw [(hgrows.older ref).epoch]
    exact hsound.2 ref href
  | some traffic =>
    simp only [htraffic] at hsound ⊢
    exact hsound.grow hgrows

theorem Sound.grow (hsound : o.Sound) (hgrows : GrowsAny o.store store) :
    Sound { o with store := store } :=
  ⟨hsound.keys.grow hgrows o.flights, fun f hf => (hsound.flights f hf).extend hgrows.extends⟩

theorem Sound.onStore {α : Type} (hsound : o.Sound) {m : EStateM Err CipherStore α}
    (hkeeps : Keeps GrowsAny m) : (o.onStore m).Sound := hsound.grow (exec_of_wp (hkeeps o.store))

theorem Sound.onTraffic {α : Type} (hsound : o.Sound) {m : EStateM Err Sender α}
    (hsteps : ∀ s : Sender, s.Sound →
      wp m (fun _ => s.Steps fun _ => True) (fun _ => s.Steps fun _ => True) s) :
    (o.onTraffic m).Sound := by
  unfold Outbound.onTraffic
  cases htraffic : o.traffic with
  | none => exact hsound
  | some traffic =>
    have hkeys : Sender.Sound ⟨o.store, traffic⟩ := by
      simpa only [SoundKeys, htraffic] using hsound.keys
    obtain ⟨hnext, hstore⟩ := exec_of_wp (hsteps _ hkeys)
    exact ⟨hnext, fun f hf => (hsound.flights f hf).extend hstore⟩

/-- Replacing a flight, or adding one. -/
theorem Sound.withFlights (hsound : o.Sound) {flights : List Flight}
    {next : Flight} (hgrows : GrowsAny o.store store) (hnext : store.Holds next)
    (hsubset : ∀ f ∈ flights, f ∈ o.flights ∨ f = next) :
    Sound { o with store := store, flights := flights } := by
  refine ⟨hsound.keys.grow hgrows flights, fun f hf => ?_⟩
  rcases hsubset f hf with hold | rfl
  · exact (hsound.flights f hold).extend hgrows.extends
  · exact hnext

theorem Sound.onFlight (hsound : o.Sound) (index : Nat)
    {m : Flight → CipherStore → Flight × CipherStore}
    (hm : ∀ flight, o.store.Holds flight → GrowsAny o.store (m flight o.store).2 ∧
      (m flight o.store).2.Holds (m flight o.store).1) : (o.onFlight index m).Sound := by
  unfold Outbound.onFlight
  cases hindex : o.flights[index]? with
  | none => exact hsound
  | some flight =>
    obtain ⟨hgrows, hholds⟩ := hm flight (hsound.flights flight (mem_of_getElem? hindex))
    exact hsound.withFlights hgrows hholds fun f hf => mem_or_eq_of_mem_set hf

theorem wp_sealProbe {ref : CipherRef} {cid content : Bytes}
    {post : SealedRecord → CipherStore → Prop} {fail : Err → CipherStore → Prop}
    (hseal : wp (sealRecord P ref recordTypeReturnRoutability content)
      (fun record next => post record (next.rename ref (store.read ref).connectionID))
      (fun err next => fail err (next.rename ref (store.read ref).connectionID))
      (store.rename ref cid)) :
    wp (sealProbe P ref cid content) post fail store := by
  unfold CipherStore.rename at hseal
  unfold wp sealProbe
  rcases wp_cases hseal with ⟨record, next, hrun, hpost⟩ | ⟨err, next, hrun, hfail⟩
  · rw [hrun]
    exact hpost
  · rw [hrun]
    exact hfail

theorem grows_rename (store : CipherStore) (ref : CipherRef) (cid : Bytes) :
    GrowsAny store (store.rename ref cid) := by
  rcases Nat.lt_or_ge ref store.ciphers.length with href | href
  · exact grows_write href ⟨rfl, rfl, rfl, rfl, rfl, le_rfl⟩
  · rw [CipherStore.rename, write, set_eq_of_length_le href]
    exact CipherStore.Grows.refl store

theorem grows_restore {ref : CipherRef} {cid active : Bytes} {next : CipherStore}
    (hnext : GrowsAny (store.rename ref cid) next) : GrowsAny store (next.rename ref active) :=
  (grows_rename store ref cid).trans (hnext.trans (grows_rename next ref active))

theorem keeps_grows_sealProbe (ref : CipherRef) (probeConnectionID content : Bytes) :
    Keeps GrowsAny (sealProbe P ref probeConnectionID content) := fun _ =>
  wp_sealProbe (wp_both (keeps_grows_sealRecord P ref recordTypeReturnRoutability content
    (fun _ _ _ => trivial) _) fun _ => grows_restore)

/-- The first application cipher is the newest one. -/
theorem sound_newSendingTraffic (hsound : store.Sound)
    (hepochs : ∀ ref < store.ciphers.length, (store.read ref).epoch ≤ 2) (suite : CipherSuite)
    (secret : Bytes) (messageSequence replaySize : Nat) :
    (newSendingTraffic P store suite secret 3 messageSequence replaySize).Sound := by
  have hcipher : (newSendingTraffic P store suite secret 3 messageSequence
      replaySize).cipher.epoch = 3 :=
    congrArg RecordCipher.epoch (read_allocate_new ..)
  have hlength := allocate_length store (newRecordCipher P suite secret 3 replaySize)
  refine ⟨hsound.allocate fun ref href => ?_, ?_, fun ref href => ?_, nofun, nofun⟩
  · have := hepochs ref href
    change _ ≠ 3
    omega
  · exact (Nat.lt_succ_self _).trans_eq hlength.symm
  · unfold newestEpoch
    rw [hcipher]
    rcases Nat.lt_succ_iff_lt_or_eq.mp (href.trans_eq hlength) with hold | rfl
    · have hread := read_allocate_of_lt hold
        (newRecordCipher P suite secret 3 replaySize)
      have := hepochs ref hold
      change ((store.allocate _).2.read ref).epoch ≤ _
      rw [hread]
      omega
    · exact hcipher.le.trans (Nat.le_add_right _ _)

theorem Sound.installApplicationKeys (hsound : o.Sound) (suite : CipherSuite) (secret : Bytes)
    (messageSequence replaySize peerRecordSizeLimit : Nat) (connectionID : Option Bytes) :
    (o.installApplicationKeys P suite secret messageSequence replaySize peerRecordSizeLimit
      connectionID).Sound := by
  unfold Outbound.installApplicationKeys
  cases htraffic : o.traffic with
  | some traffic => exact hsound
  | none =>
    have hnone : o.store.Sound ∧ ∀ ref < o.store.ciphers.length, (o.store.read ref).epoch ≤ 2 := by
      simpa only [SoundKeys, htraffic] using hsound.keys
    have hnew := sound_newSendingTraffic (P := P) hnone.1 hnone.2 suite secret messageSequence
      replaySize
    have hallocated : CipherStore.Extends (fun _ => True) o.store
        (newSendingTraffic P o.store suite secret 3 messageSequence replaySize).store :=
      CipherStore.Extends.allocate o.store fun ref href => by
        have := hnone.2 ref href
        change _ ≠ 3
        omega
    rw [if_neg (by simp)]
    generalize newSendingTraffic P o.store suite secret 3 messageSequence replaySize =
      sender at hnew hallocated ⊢
    have hgrows : GrowsAny sender.store (sender.store.write sender.traffic.cipher
        (sender.cipher.setPlaintextLimit peerRecordSizeLimit)) :=
      grows_write hnew.cipher_lt ⟨rfl, rfl, rfl, rfl, rfl, le_rfl⟩
    have hlimited := hnew.grow hgrows
    have hextends := hallocated.trans hgrows.extends
    dsimp only
    cases connectionID with
    | none => exact ⟨hlimited, fun f hf => (hsound.flights f hf).extend hextends⟩
    | some cid =>
      have hnamed := hlimited.wp_setConnectionID (p := fun _ => True) cid
      unfold wp at hnamed
      dsimp only
      split
      next named hrun =>
          rw [hrun] at hnamed
          exact ⟨hnamed.sound, fun f hf =>
            (hsound.flights f hf).extend (hextends.trans hnamed.store)⟩
      next => exact hsound

theorem Sound.step (hsound : o.Sound) (event : OutboundEvent) : (o.step P event).Sound := by
  cases event with
  | installApplicationKeys suite secret messageSequence replaySize limit connectionID =>
    exact hsound.installApplicationKeys suite secret messageSequence replaySize limit connectionID
  | sealContent ref contentType content =>
    exact hsound.onStore (keeps_grows_sealRecord P ref contentType content
      fun _ _ _ => trivial)
  | sealProbe ref probeConnectionID content =>
    exact hsound.onStore (keeps_grows_sealProbe ref probeConnectionID content)
  | sendACK numbers mtu ref =>
    exact hsound.onStore fun store => wp_mono (wp_buildACKRecords numbers mtu ref store)
      (fun _ _ ⟨_, _, hacks⟩ => hacks.seals.growsAny) fun _ _ ⟨_, _, hseals⟩ => hseals.growsAny
  | buildFlight messages mtu ref =>
    unfold Outbound.step
    dsimp only
    split_ifs with href
    · exact hsound
    · have hadmits : CipherStore.AdmitsMessages (fun _ => True) messages :=
        fun _ _ _ _ _ _ => trivial
      have hrun := wp_buildProtectedFlight (P := P) messages mtu ref o.store
      unfold wp at hrun
      split
      next flight store hresult =>
          rw [hresult] at hrun
          refine hsound.withFlights (hrun.grows hadmits) (hrun.holds (Nat.lt_of_not_le href))
            fun f hf => ?_
          simpa using hf
      next hresult =>
          rw [hresult] at hrun
          exact hsound.grow (CipherStore.SealsPart.grows hrun hadmits)
  | refreshPending index =>
    exact hsound.onFlight index (m := (·.tryRebuild P)) fun flight hholds =>
      hholds.rebuild fun _ _ _ _ _ _ => trivial
  | resize index mtu =>
    refine hsound.onFlight index (m := (·.tryResize P mtu)) fun flight hholds => ?_
    obtain ⟨hgrows, hresized, -⟩ := hholds.tryResize (P := P) mtu fun _ _ _ _ _ _ => trivial
    exact ⟨hgrows, hresized⟩
  | ackFlight index numbers =>
    refine ⟨hsound.keys.grow (CipherStore.Grows.refl _) _, fun f hf => ?_⟩
    obtain ⟨position, hposition⟩ := mem_iff_getElem?.mp hf
    change (o.flights.modify index (·.ack numbers))[position]? = some f at hposition
    rw [List.getElem?_modify] at hposition
    obtain ⟨old, hold, rfl⟩ := Option.map_eq_some_iff.mp hposition
    have hheld := hsound.flights old (mem_of_getElem? hold)
    split
    · exact hheld.ack numbers
    · exact hheld
  | beginKeyUpdate requestUpdate =>
    exact hsound.onTraffic fun s hs => hs.wp_beginKeyUpdate requestUpdate trivial
  | retransmitKeyUpdate => exact hsound.onTraffic fun s hs => hs.wp_retransmitKeyUpdate trivial
  | processACK numbers =>
    refine ⟨?_, hsound.flights⟩
    have hkeys := hsound.keys
    unfold SoundKeys at hkeys
    unfold Outbound.step SoundKeys
    cases htraffic : o.traffic with
    | none => simpa [htraffic] using hkeys
    | some traffic =>
      simp only [htraffic] at hkeys
      exact hkeys.processACK numbers
  | setConnectionID connectionID =>
    exact hsound.onTraffic fun s hs => hs.wp_setConnectionID connectionID
  | setCipherConnectionID ref connectionID =>
    exact hsound.onStore (keeps_grows_updateCipher ref
      fun _ _ => RecordCipher.setConnectionID_older)
  | setPlaintextLimit ref limit =>
    refine hsound.onStore (keeps_grows_updateCipher ref fun before after hset => ?_)
    obtain rfl := Except.ok.inj hset
    exact ⟨rfl, rfl, rfl, rfl, rfl, le_rfl⟩

theorem sound_start (earlySuite : CipherSuite) (earlySecret : Bytes) (suite : CipherSuite)
    (handshakeSecret : Bytes) (replaySize : Nat) :
    (start P earlySuite earlySecret suite handshakeSecret replaySize).Sound := by
  -- The cipher behind a reference has the epoch one above it.
  have hepoch : ∀ ref < 2, ((start P earlySuite earlySecret suite handshakeSecret
      replaySize).store.read ref).epoch = ref + 1
    | 0, _ => rfl
    | 1, _ => rfl
  refine ⟨⟨⟨fun first hfirst second hsecond heq => ?_, nofun, nodup_nil⟩,
    fun ref href => ?_⟩, nofun⟩
  · rw [hepoch first hfirst, hepoch second hsecond] at heq
    exact Nat.succ_injective heq
  · rw [hepoch ref href]
    exact href

/-- No sending history uses a record number twice, every number is within the
limits, and under distinct keys no pair of key and nonce is used twice. -/
theorem nonces_unique (P : Primitives) (earlySuite : CipherSuite) (earlySecret : Bytes)
    (suite : CipherSuite) (handshakeSecret : Bytes) (replaySize : Nat)
    (events : List OutboundEvent) :
    let store := (run (step P) (start P earlySuite earlySecret suite handshakeSecret replaySize)
      events).store
    (store.log.map SealedRecord.number).Nodup ∧
      (∀ record ∈ store.log, record.epoch ≤ 2 ^ 48 - 1 ∧ record.sequence < 2 ^ 48 ∧
        ∃ cipher ∈ store.ciphers, record.epoch = cipher.epoch ∧ record.key = cipher.key ∧
          record.nonce = nonceInto cipher.iv record.sequence ∧
          record.sequence < cipher.suite.recordLimit) ∧
      (∀ cipher ∈ store.ciphers, ∀ left < 2 ^ 48, ∀ right < 2 ^ 48,
        nonceInto cipher.iv left = nonceInto cipher.iv right → left = right) ∧
      (store.DistinctKeys → (store.log.map fun record => (record.key, record.nonce)).Nodup) := by
  intro store
  have hsound : store.Sound := by
    have hrun := run_invariant_all (fun o event ho => Sound.step (P := P) (o := o) ho event)
      (sound_start (P := P) earlySuite earlySecret suite handshakeSecret replaySize) events
    have hkeys := hrun.keys
    unfold SoundKeys at hkeys
    split at hkeys
    · exact hkeys.1
    · exact hkeys.store
  refine ⟨hsound.numbers_nodup, fun record hmem => ?_, ?_, hsound.key_nonce_nodup⟩
  · obtain ⟨owner, howner, hby⟩ := hsound.sealed record hmem
    exact ⟨hby.epoch_le, hby.below_2_48, store.read owner, CipherStore.read_mem howner, hby.epoch,
      hby.key, hby.nonce, hby.below_limit⟩
  · intro cipher _ left hleft right hright heq
    refine nonceInto_inj ?_ (hleft.trans (by decide)) (hright.trans (by decide)) heq
    rw [cipher.iv_length]
    cases cipher.suite <;> decide

/-- A flight outlives a key update and is rebuilt under the old epoch. -/
def updateHistory : List OutboundEvent :=
  [.installApplicationKeys .aes128GcmSha256 [20] 5 64 0 (some [7]),
    .sealContent 2 recordTypeApplicationData [1, 2],
    .buildFlight [⟨handshakeTypeNewSessionTicket, 5, [3, 3, 3, 3]⟩] 512 2,
    .beginKeyUpdate false, .retransmitKeyUpdate, .processACK [⟨3, 3⟩],
    .sealContent 3 recordTypeApplicationData [4], .refreshPending 0]

theorem nonces_unique_updateHistory :
    let store := (run (step .checksum)
      (start .checksum .aes128GcmSha256 [1] .aes128GcmSha256 [9] 64) updateHistory).store
    store.log.map SealedRecord.number = [⟨3, 0⟩, ⟨3, 1⟩, ⟨3, 2⟩, ⟨3, 3⟩, ⟨4, 0⟩, ⟨3, 4⟩] ∧
      (store.log.map fun record => (record.key, record.nonce)).Nodup :=
  ⟨by decide +kernel, (nonces_unique .checksum .aes128GcmSha256 [1] .aes128GcmSha256 [9] 64
    updateHistory).2.2.2 (by decide +kernel)⟩

end Outbound

end Dtls13
