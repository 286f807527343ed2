import Dtls13.Driver.Frames
import Dtls13.Listener.Registry

/-! # Announcing connection IDs

The IDs under which an endpoint receives are kept by the receiving side, by the cipher
of every installed epoch and, on a server, by the listener's registry. An announcement
changes them one after the other and takes the changes back when a later part fails.
-/

namespace Dtls13

open ByteCodec StateLogic RunSystem RecordCipher Registry ReceivingTraffic EpochSet SendingSide List

/-- Opening a record does not change which IDs are accepted. -/
theorem RecordCipher.openRecord_accepted (P : Primitives) (c : RecordCipher) (datagram : Bytes) :
    (c.openRecord P datagram).2.acceptedCIDs = c.acceptedCIDs ∧
      (c.openRecord P datagram).2.hasConnectionID = c.hasConnectionID := by
  rcases hopen : c.openRecord P datagram with ⟨result, next⟩
  cases result with
  | ok opened =>
    obtain ⟨record, _, _, _, rfl⟩ := openRecord_ok hopen
    exact ⟨rfl, rfl⟩
  | error err => rcases openRecord_error hopen with rfl | ⟨_, rfl⟩ <;> exact ⟨rfl, rfl⟩

/-! ## The receiving side -/

namespace ReceivingTraffic

/-- All ciphers accept the IDs of the receiving side, of which the first one is that of
the handshake. -/
structure Uniform (limit : Nat) (r : ReceivingTraffic) : Prop where
  accepted : ∀ c ∈ r.epochs.ciphers, c.acceptedCIDs = r.acceptedCIDs
  negotiated : ∀ c ∈ r.epochs.ciphers, c.hasConnectionID = r.hasConnectionID
  prefixFree : PrefixFree r.acceptedCIDs
  nodup : r.acceptedCIDs.Nodup
  bounded : ∀ cid ∈ r.acceptedCIDs, cid.length ≤ 255
  size : r.acceptedCIDs.length ≤ limit
  first : r.hasConnectionID = true → ∃ others, r.acceptedCIDs = r.connectionID :: others
  absent : r.hasConnectionID = false → r.acceptedCIDs = []

variable {P : Primitives} {limit : Nat} {r : ReceivingTraffic} {connectionIDs merged : List Bytes}

theorem epoch_withCIDs (connectionIDs : List Bytes) (c : RecordCipher) :
    { c with acceptedCIDs := connectionIDs }.epoch = c.epoch := rfl

/-- The receiving side when it accepts exactly these IDs. -/
def accepting (r : ReceivingTraffic) (connectionIDs : List Bytes) : ReceivingTraffic :=
  { r with
    acceptedCIDs := connectionIDs
    epochs := r.epochs.mapCiphers (fun c => { c with acceptedCIDs := connectionIDs })
      (epoch_withCIDs connectionIDs) }

theorem restore_accepting (first second : List Bytes) :
    (r.accepting first).restoreConnectionIDs second = r.accepting second := by
  unfold restoreConnectionIDs accepting mapCiphers
  simp [Function.comp_def]

section

variable (hr : r.Uniform limit)

include hr

theorem Uniform.accepting_self : r.accepting r.acceptedCIDs = r := by
  have hciphers : r.epochs.ciphers.map (fun c => { c with acceptedCIDs := r.acceptedCIDs }) =
      r.epochs.ciphers := by
    conv_rhs => rw [← map_id r.epochs.ciphers]
    apply map_congr_left
    intro c hc
    rw [← hr.accepted c hc]
    rfl
  unfold accepting mapCiphers
  simp only [hciphers]

theorem Uniform.accepting (hhas : r.hasConnectionID = true)
    (hmerge : mergeConnectionIDs r.acceptedCIDs connectionIDs = .ok merged)
    (hsize : merged.length ≤ limit) : (r.accepting merged).Uniform limit := by
  obtain ⟨hfront, hmem, hle, hfree, hnodup⟩ := mergedIDs_of_merge hmerge
  have hciphers : ∀ c ∈ (r.accepting merged).epochs.ciphers,
      c.acceptedCIDs = merged ∧ c.hasConnectionID = r.hasConnectionID := by
    intro c hc
    obtain ⟨old, hold, rfl⟩ := mem_map.mp hc
    exact ⟨rfl, hr.negotiated old hold⟩
  refine ⟨fun c hc => (hciphers c hc).1, fun c hc => (hciphers c hc).2, hfree hr.prefixFree,
    hnodup hr.nodup, fun cid hcid => ?_, hsize, fun _ => ?_, fun habsent => ?_⟩
  · rcases (hmem cid).mp hcid with hold | hnew
    · exact hr.bounded cid hold
    · exact hle cid hnew
  · obtain ⟨others, hothers⟩ := hr.first hhas
    obtain ⟨added, rfl⟩ := hfront
    exact ⟨others ++ added, by rw [hothers]; rfl⟩
  · exact absurd (hhas.symm.trans habsent) (by decide)

/-- What the receiving side accepts is accepted by every cipher, so none of them refuses
more IDs when the receiving side does not. -/
theorem Uniform.wp_addConnectionIDs
    (hmerge : mergeConnectionIDs r.acceptedCIDs connectionIDs = .ok merged) :
    wp (addConnectionIDs connectionIDs)
      (fun _ next => r.hasConnectionID = true ∧ next = r.accepting merged)
      (fun _ next => next = r) r := by
  unfold addConnectionIDs
  rw [wp_bind, wp_get]
  refine wp_guard rfl fun hhas => ?_
  have hhas : r.hasConnectionID = true := by simpa using hhas
  have hadd : ∀ c ∈ r.epochs.ciphers, c.addAcceptedConnectionIDs connectionIDs =
      .ok { c with acceptedCIDs := merged } := by
    intro c hc
    rw [addAcceptedConnectionIDs, hr.negotiated c hc, hhas, hr.accepted c hc, hmerge]
    rfl
  have hnone : r.epochs.ciphers.findSome? (·.acceptedConnectionIDsError connectionIDs) = none := by
    rw [List.findSome?_eq_none_iff]
    intro c hc
    rw [acceptedConnectionIDsError, hadd c hc]
  rw [hnone]
  have hciphers : r.epochs.ciphers.map (·.withAcceptedConnectionIDs connectionIDs) =
      r.epochs.ciphers.map fun c => { c with acceptedCIDs := merged } := by
    apply map_congr_left
    intro c hc
    rw [withAcceptedConnectionIDs, hadd c hc]
  refine ⟨hhas, ?_⟩
  show ({ r with epochs := _, acceptedCIDs := _ } : ReceivingTraffic) = r.accepting merged
  rw [foldl_of_merge hmerge]
  unfold ReceivingTraffic.accepting mapCiphers
  simp only [hciphers]

/-- The cipher of the next epoch accepts what the receiving side accepts. -/
theorem Uniform.nextCipher {cipher : RecordCipher} (hcipher : r.nextCipher P = .ok cipher) :
    cipher.acceptedCIDs = r.acceptedCIDs ∧ cipher.hasConnectionID = r.hasConnectionID := by
  unfold ReceivingTraffic.nextCipher at hcipher
  dsimp only at hcipher
  split at hcipher
  next hhas =>
    obtain ⟨others, hothers⟩ := hr.first hhas
    have hall : [r.connectionID] ++ others = r.acceptedCIDs := hothers.symm
    have hmerge : mergeConnectionIDs [r.connectionID] r.acceptedCIDs.tail = .ok r.acceptedCIDs := by
      rw [hothers, tail_cons, ← hothers, ← hall]
      apply merge_of_prefixFree
      · rw [hall]
        exact hr.prefixFree
      · rw [hall]
        exact hr.nodup
      · intro cid hcid
        exact hr.bounded cid (hothers ▸ mem_cons_of_mem _ hcid)
    split at hcipher
    · exact nomatch hcipher
    next named hnamed =>
      obtain ⟨_, rfl⟩ := setConnectionID_ok hnamed
      rw [addAcceptedConnectionIDs] at hcipher
      dsimp only at hcipher
      rw [hmerge] at hcipher
      obtain rfl := Except.ok.inj hcipher
      exact ⟨rfl, hhas.symm⟩
  next hhas =>
    obtain rfl := Except.ok.inj hcipher
    have hnone : r.hasConnectionID = false := by simpa using hhas
    rw [hr.absent hnone, hnone]
    exact ⟨rfl, rfl⟩

/-- Nothing but the set of ciphers was changed. -/
theorem Uniform.withEpochs {epochs : EpochSet} (hepochs : ∀ c ∈ epochs.ciphers,
      c.acceptedCIDs = r.acceptedCIDs ∧ c.hasConnectionID = r.hasConnectionID) :
    Uniform limit { r with epochs := epochs } :=
  ⟨fun c hc => (hepochs c hc).1, fun c hc => (hepochs c hc).2, hr.prefixFree, hr.nodup,
    hr.bounded, hr.size, hr.first, hr.absent⟩

theorem Uniform.ciphers : ∀ c ∈ r.epochs.ciphers,
    c.acceptedCIDs = r.acceptedCIDs ∧ c.hasConnectionID = r.hasConnectionID :=
  fun c hc => ⟨hr.accepted c hc, hr.negotiated c hc⟩

theorem Uniform.advance (sequence : Nat) {epochs : EpochSet} (hepochs : ∀ c ∈ epochs.ciphers,
      c.acceptedCIDs = r.acceptedCIDs ∧ c.hasConnectionID = r.hasConnectionID) :
    (r.advance P sequence epochs).Uniform limit := by
  have hkept : ∀ c ∈ (r.advance P sequence epochs).epochs.ciphers, c ∈ epochs.ciphers :=
    fun c hc => (mem_advance_ciphers.mp hc).1
  exact ⟨fun c hc => (hepochs c (hkept c hc)).1, fun c hc => (hepochs c (hkept c hc)).2,
    hr.prefixFree, hr.nodup, hr.bounded, hr.size, hr.first, hr.absent⟩

/-- Later epochs accept the stored IDs, and a message that is refused half-way leaves
ciphers that do. -/
theorem Uniform.wp_processKeyUpdate (sequence : Nat) (body : Bytes) :
    wp (processKeyUpdate P sequence body)
      (fun _ next => next.Uniform limit ∧ next.acceptedCIDs = r.acceptedCIDs)
      (fun _ next => next.Uniform limit ∧ next.acceptedCIDs = r.acceptedCIDs) r := by
  unfold processKeyUpdate
  refine wp_ofExcept_bind (fun requestUpdate _ => ?_) fun _ => ⟨hr, rfl⟩
  rw [wp_bind, wp_get]
  refine wp_guard ⟨hr, rfl⟩ fun _ => ?_
  refine wp_ofExcept_bind (fun cipher hcipher => ?_) fun _ => ⟨hr, rfl⟩
  refine wp_ofExcept_bind (fun installed hinstalled => ?_) fun _ => ⟨hr, rfl⟩
  have hepochs : ∀ c ∈ installed.ciphers,
      c.acceptedCIDs = r.acceptedCIDs ∧ c.hasConnectionID = r.hasConnectionID := by
    intro c hc
    unfold install at hinstalled
    split at hinstalled
    · obtain rfl := Except.ok.inj hinstalled
      rcases mem_append.mp hc with hold | hnew
      · exact hr.ciphers c hold
      · rw [mem_singleton.mp hnew]
        exact hr.nextCipher hcipher
    · cases hinstalled
  rw [wp_bind, wp_modify, wp_bind, wp_ofExcept]
  refine ⟨fun epochs hcurrent => ?_, fun _ _ => ⟨hr.withEpochs hepochs, rfl⟩⟩
  have hsame : epochs.ciphers = installed.ciphers := by
    unfold setCurrent at hcurrent
    split at hcurrent
    · cases hcurrent
    split at hcurrent
    · cases hcurrent
    · exact (Except.ok.inj hcurrent) ▸ rfl
  rw [wp_bind, wp_modify]
  exact ⟨(hr.withEpochs hepochs).advance sequence (hsame ▸ hepochs), rfl⟩

/-- Opening a record moves the replay window of one cipher. -/
theorem Uniform.openRecord (datagram : Bytes) :
    Uniform limit { r with epochs := (r.epochs.openRecord P datagram).2 } := by
  apply hr.withEpochs
  have hput : ∀ cipher ∈ r.epochs.ciphers, ∀ next, (cipher.openRecord P datagram).2 = next →
      ∀ c ∈ (r.epochs.putCipher next).ciphers,
        c.acceptedCIDs = r.acceptedCIDs ∧ c.hasConnectionID = r.hasConnectionID := by
    rintro cipher hcipher _ rfl c hc
    obtain ⟨old, hold, rfl⟩ := mem_map.mp hc
    split
    · obtain ⟨haccepted, hhas⟩ := openRecord_accepted P cipher datagram
      rw [haccepted, hhas]
      exact hr.ciphers cipher hcipher
    · exact hr.ciphers old hold
  unfold EpochSet.openRecord
  split
  · exact hr.ciphers
  · split
    · exact hr.ciphers
    next cipher hselect =>
      have hmem := (selectCipher_ok hselect).1
      split
      next hopen => exact hput cipher hmem _ (congrArg Prod.snd hopen)
      next hopen => exact hput cipher hmem _ (congrArg Prod.snd hopen)

end

end ReceivingTraffic

/-! ## The connection and the listener's registry -/

def connectionIDDifference (connectionIDs existing : List Bytes) : List Bytes :=
  connectionIDs.filter fun cid => !existing.contains cid

/-- A connection over a session of a listener, whose registry it shares with other
sessions, or over another transport. -/
structure Advertiser where
  side : SendingSide
  session : SessionId
  registry : Option Registry

/-- What happens to the registry by other sessions and by the listener. -/
inductive RegistryOp where
  | registerSessionCID (session : SessionId) (cid : Bytes)
  | registerSessionCIDs (session : SessionId) (cids : List Bytes)
  | unregisterSessionCIDs (session : SessionId) (cids : List Bytes)
  | removeSession (session : SessionId)
  | shutdown

namespace Registry

/-- IDs that are registered one at a time come from `Accept`, which checks their length. -/
def apply (r : Registry) : RegistryOp → Registry
  | .registerSessionCID session cid =>
    if 255 < cid.length then r else ((r.registerSessionCID session cid).toOption).getD r
  | .registerSessionCIDs session cids => ((r.registerSessionCIDs session cids).toOption).getD r
  | .unregisterSessionCIDs session cids => r.unregisterSessionCIDs session cids
  | .removeSession session => r.removeSession session
  | .shutdown => .empty

end Registry

/-- The operation registers nothing for the session. -/
def RegistryOp.spares (session : SessionId) : RegistryOp → Bool
  | .registerSessionCID other _ | .registerSessionCIDs other _ => other != session
  | _ => true

inductive AdvertiserEvent where
  | side (event : SendingSide.Event)
  | openRecord (datagram : Bytes)
  | registry (op : RegistryOp)

namespace Advertiser

variable (P : Primitives) (hooks : AuthHooks)

def onSide {α : Type} (m : SendingM α) : EStateM Err Advertiser α :=
  zoom Advertiser.side (fun side a => { a with side := side }) m

def registerConnectionIDs (cids : List Bytes) : EStateM Err Advertiser Unit := do
  let a ← get
  match a.registry with
  | none => pure ()
  | some r => do
    let registered ← ofExcept (r.registerSessionCIDs a.session cids)
    modify fun a => { a with registry := some registered }

def unregisterConnectionIDs (cids : List Bytes) : EStateM Err Advertiser Unit :=
  modify fun a => { a with registry := a.registry.map (·.unregisterSessionCIDs a.session cids) }

/-- `SendNewConnectionIDs` with the listener. -/
def sendNewConnectionIDs (connectionIDs : List Bytes) (immediate : Bool) :
    EStateM Err Advertiser Unit := do
  let a ← get
  let previousCIDs := a.side.receiver.acceptedCIDs
  let (messages, flight, merged) ← onSide
    (announceConnectionIDs P connectionIDs immediate)
  let newCIDs := connectionIDDifference merged previousCIDs
  recover (registerConnectionIDs newCIDs) fun err => do
    onSide (restoreConnectionIDs previousCIDs)
    throw err
  recover (onSide (commitFlight P .newConnectionID messages flight)) fun err => do
    unregisterConnectionIDs newCIDs
    onSide (restoreConnectionIDs previousCIDs)
    throw err

/-- A record that arrives moves a replay window of the receiving side. -/
def openRecord (datagram : Bytes) (a : Advertiser) : Advertiser :=
  { a with side := { a.side with receiver :=
    { a.side.receiver with epochs := (a.side.receiver.epochs.openRecord P datagram).2 } } }

def step (a : Advertiser) : AdvertiserEvent → Advertiser
  | .side (.sendNewConnectionIDs connectionIDs immediate _) =>
    exec (sendNewConnectionIDs P connectionIDs immediate) a
  | .side event => { a with side := a.side.step P hooks event }
  | .openRecord datagram => a.openRecord P datagram
  | .registry op =>
    if op.spares a.session then { a with registry := a.registry.map (·.apply op) } else a

/-! ### What an announcement changes -/

/-- The three stores agree: the ciphers accept what the receiving side accepts, and the
registry holds no other ID for the session, if connection IDs were negotiated at all. -/
structure Consistent (a : Advertiser) : Prop where
  uniform : a.side.receiver.Uniform a.side.config.maxConnectionIDs
  valid : ∀ r ∈ a.registry, r.Valid
  owned : a.side.receiver.hasConnectionID = true → ∀ r ∈ a.registry, ∀ cid,
    r.cidSessions.lookup cid = some a.session → cid ∈ a.side.receiver.acceptedCIDs

/-- What a failed announcement must not have changed. -/
structure Unannounced (a next : Advertiser) : Prop where
  receiver : next.side.receiver = a.side.receiver
  registry : next.registry = a.registry
  sequence : next.side.sender.traffic.messageSequence = a.side.sender.traffic.messageSequence
  flights : next.side.flights = a.side.flights
  config : next.side.config = a.side.config
  session : next.session = a.session

end Advertiser

namespace SendingSide

/-- Records may have been sealed and written, and nothing else. -/
structure Quiet (s next : SendingSide) : Prop where
  receiver : next.receiver = s.receiver
  flights : next.flights = s.flights
  config : next.config = s.config
  traffic : next.sender.traffic = s.sender.traffic

instance : OutboxFrame Quiet where
  refl := fun _ => ⟨rfl, rfl, rfl, rfl⟩
  trans := fun _ _ _ h₁ h₂ => ⟨h₂.receiver.trans h₁.receiver, h₂.flights.trans h₁.flights,
    h₂.config.trans h₁.config, h₂.traffic.trans h₁.traffic⟩
  outbox := fun _ _ => ⟨rfl, rfl, rfl, rfl⟩
  begun := fun _ _ => ⟨rfl, rfl, rfl, rfl⟩

/-- A flight that cannot be written is not kept, and takes no message number. -/
theorem wp_commitFlight_quiet {P : Primitives} (slot : FlightSlot)
    (messages : List HandshakeMessage) (f : SentFlight) (s : SendingSide) :
    wp (commitFlight P slot messages f)
      (fun _ next => next.receiver = s.receiver ∧ next.config = s.config)
      (fun _ next => Quiet s next) s := by
  have hwrite : Keeps Quiet (beginning messages (onOutbox (Outbox.writeFlight P f))) :=
    keeps_beginning messages (keeps_onOutbox _)
  unfold commitFlight
  refine wp_seq (hwrite s) fun written next hnext => ?_
  rw [wp_bind, wp_modify, setFlight, wp_modify]
  exact ⟨hnext.receiver, hnext.config⟩

/-- The receiving side still accepts the same IDs with all of its ciphers. -/
structure Carries (s next : SendingSide) : Prop where
  config : next.config = s.config
  uniform : ∀ limit, s.receiver.Uniform limit →
    next.receiver.Uniform limit ∧ next.receiver.acceptedCIDs = s.receiver.acceptedCIDs

theorem Carries.of_same {s next : SendingSide} (hconfig : next.config = s.config)
    (hreceiver : next.receiver = s.receiver) : Carries s next :=
  ⟨hconfig, fun _ huniform => by rw [hreceiver]; exact ⟨huniform, rfl⟩⟩

instance : CallFrame Carries where
  refl := fun _ => .of_same rfl rfl
  trans := fun _ _ _ h₁ h₂ => ⟨h₂.config.trans h₁.config, fun limit huniform =>
    have hmiddle := h₁.uniform limit huniform
    have hlast := h₂.uniform limit hmiddle.1
    ⟨hlast.1, hlast.2.trans hmiddle.2⟩⟩
  unreceived hsame := .of_same hsame.config hsame.receiver

theorem Carries.cids (s : SendingSide) (cids : ConnectionIDs) : Carries s { s with cids := cids } :=
  .of_same rfl rfl

theorem keeps_carries_processKeyUpdate {P : Primitives} (sequence : Nat) (body : Bytes) :
    Keeps Carries (onReceiver (processKeyUpdate P sequence body)) := by
  intro s
  rw [onReceiver, wp_zoom]
  have hkeeps : ∀ limit, s.receiver.Uniform limit → _ := fun limit huniform =>
    huniform.wp_processKeyUpdate (P := P) sequence body
  unfold wp at hkeeps ⊢
  split
  next hrun =>
    refine ⟨rfl, fun limit huniform => ?_⟩
    have hnext := hkeeps limit huniform
    rw [hrun] at hnext
    exact hnext
  next hrun =>
    refine ⟨rfl, fun limit huniform => ?_⟩
    have hnext := hkeeps limit huniform
    rw [hrun] at hnext
    exact hnext

theorem keeps_carries_activatePeerConnectionID (cid : Bytes) :
    Keeps Carries (activatePeerConnectionID cid) :=
  keeps_bind (keeps_onSender _) fun _ => keeps_modify fun s => .cids s _

/-- Only an announcement changes the IDs that are accepted. -/
theorem carries_step {P : Primitives} {hooks : AuthHooks} {s : SendingSide} {event : Event}
    (hevent : ∀ connectionIDs immediate registration,
      event ≠ .sendNewConnectionIDs connectionIDs immediate registration) :
    Carries s (s.step P hooks event) := by
  cases event with
  | sendNewConnectionIDs connectionIDs immediate registration =>
    exact absurd rfl (hevent connectionIDs immediate registration)
  | requestConnectionIDs count =>
    exact exec_of_wp (keeps_requestConnectionIDs (fun s => .cids s _) count s)
  | useNextConnectionID =>
    exact exec_of_wp (keeps_useNextConnectionID (fun s _ => .cids s _)
      keeps_carries_activatePeerConnectionID s)
  | receiveConnectionIDs cids active =>
    exact rel_dispatch (keeps_receiveConnectionIDs Carries.cids
      keeps_carries_activatePeerConnectionID cids active)
  | receiveKeyUpdate incomplete sequence body number =>
    exact rel_receiveKeyUpdate keeps_carries_processKeyUpdate incomplete sequence body number
  | _ => exact rel_step rfl

end SendingSide

namespace Advertiser

variable {P : Primitives} {hooks : AuthHooks} {a : Advertiser}

theorem connectionIDDifference_nodup {connectionIDs existing : List Bytes}
    (hnodup : connectionIDs.Nodup) : (connectionIDDifference connectionIDs existing).Nodup :=
  hnodup.filter _

theorem mem_connectionIDDifference {connectionIDs existing : List Bytes} {cid : Bytes} :
    cid ∈ connectionIDDifference connectionIDs existing ↔ cid ∈ connectionIDs ∧ cid ∉ existing := by
  simp [connectionIDDifference]

/-- A registration that fails changes nothing; one that succeeds is undone exactly. -/
theorem Consistent.wp_registerConnectionIDs (ha : a.Consistent)
    (hhas : a.side.receiver.hasConnectionID = true) {merged : List Bytes} (hnodup : merged.Nodup)
    (side : SendingSide) :
    wp (registerConnectionIDs (connectionIDDifference merged a.side.receiver.acceptedCIDs))
      (fun _ next => next.side = side ∧ next.session = a.session ∧ (∀ r ∈ next.registry, r.Valid) ∧
        (∀ r ∈ next.registry, ∀ cid, r.cidSessions.lookup cid = some a.session →
          cid ∈ a.side.receiver.acceptedCIDs ∨ cid ∈ merged) ∧
        next.registry.map (·.unregisterSessionCIDs a.session
          (connectionIDDifference merged a.side.receiver.acceptedCIDs)) = a.registry)
      (fun _ next => next = { a with side := side }) { a with side := side } := by
  unfold registerConnectionIDs
  rw [wp_bind, wp_get]
  dsimp only
  split
  next hnone =>
    refine ⟨rfl, rfl, ha.valid, fun r hr cid hcid => .inl (ha.owned hhas r hr cid hcid), ?_⟩
    rw [hnone]
    rfl
  next r hr =>
    have hvalid := ha.valid r hr
    refine wp_ofExcept_bind (fun registered hregistered => ?_) fun _ => rfl
    rw [wp_modify]
    refine ⟨rfl, rfl, ?_, ?_, ?_⟩
    · rintro _ ⟨rfl⟩
      exact hvalid.registerSessionCIDs hregistered
    · rintro _ ⟨rfl⟩ cid hcid
      obtain ⟨_, rfl, _⟩ := registerSessionCIDs_eq_ok hregistered
      rw [addCIDs_cidSessions, OwnerMap.lookup_insertAll] at hcid
      split at hcid
      next hmem =>
        exact .inr (mem_connectionIDDifference.mp (mem_indexed.mp hmem).1).1
      · exact .inl (ha.owned hhas r hr cid hcid)
    · rw [Option.map_some, hvalid.unregister_registered hregistered
        (connectionIDDifference_nodup hnodup), hr]
      intro cid hcid howned
      exact (mem_connectionIDDifference.mp hcid).2 (ha.owned hhas r hr cid howned)

/-- An announcement that fails has changed nothing, and one that succeeds has changed
all stores alike. -/
theorem Consistent.wp_sendNewConnectionIDs (ha : a.Consistent) (connectionIDs : List Bytes)
    (immediate : Bool) :
    wp (sendNewConnectionIDs P connectionIDs immediate) (fun _ next => next.Consistent)
      (fun _ next => Unannounced a next) a := by
  have hbuilt : ∀ messages, Keeps SendingSide.Quiet (buildFlight P messages) :=
    fun messages => keeps_buildFlight messages
  unfold sendNewConnectionIDs onSide
  rw [wp_bind, wp_get]
  dsimp only
  rw [wp_bind, wp_zoom]
  apply wp_announceConnectionIDs
  · exact fun _ => ⟨rfl, rfl, rfl, rfl, rfl, rfl⟩
  intro body merged _ _ hmerge hsize
  have hmerged := mergedIDs_of_merge hmerge
  refine wp_mono (hbuilt _ _) ?_ fun _ next hnext =>
    ⟨hnext.receiver, rfl, by rw [hnext.traffic], hnext.flights, hnext.config, rfl⟩
  intro flight built hquiet
  rw [hquiet.receiver]
  refine wp_mono (ha.uniform.wp_addConnectionIDs hmerge) ?_ ?_
  · rintro _ receiver ⟨hhas, rfl⟩
    -- from here on a failure restores what was accepted
    have hrestored : (a.side.receiver.accepting merged).restoreConnectionIDs
        a.side.receiver.acceptedCIDs = a.side.receiver := by
      rw [restore_accepting, ha.uniform.accepting_self]
    rw [wp_bind, wp_recover]
    refine wp_mono (ha.wp_registerConnectionIDs hhas (hmerged.nodup ha.uniform.nodup) _) ?_ ?_
    · rintro _ registered ⟨hside, hsession, hvalid, howned, hundo⟩
      rw [wp_recover, wp_zoom, hside]
      refine wp_mono (wp_commitFlight_quiet _ _ _ _) ?_ ?_
      · rintro _ sent ⟨hreceiver, hconfig⟩
        have hreceiver : sent.receiver = a.side.receiver.accepting merged := hreceiver
        have hconfig : sent.config = a.side.config := hconfig.trans hquiet.config
        refine ⟨?_, hvalid, fun _ r hr cid hcid => ?_⟩
        · show sent.receiver.Uniform sent.config.maxConnectionIDs
          rw [hreceiver, hconfig]
          exact ha.uniform.accepting hhas hmerge hsize
        · show cid ∈ sent.receiver.acceptedCIDs
          rw [hreceiver]
          rcases howned r hr cid (hsession ▸ hcid) with hold | hnew
          · exact hmerged.extends_existing.subset hold
          · exact hnew
      · intro err unsent hunsent
        refine ⟨?_, ?_, ?_, ?_, ?_, hsession⟩
        · show unsent.receiver.restoreConnectionIDs a.side.receiver.acceptedCIDs = a.side.receiver
          rw [hunsent.receiver]
          exact hrestored
        · dsimp only
          rw [hsession]
          exact hundo
        · show unsent.sender.traffic.messageSequence = _
          rw [hunsent.traffic]
          exact congrArg _ hquiet.traffic
        · exact hunsent.flights.trans hquiet.flights
        · exact hunsent.config.trans hquiet.config
    · rintro _ _ rfl
      exact ⟨hrestored, rfl, congrArg _ hquiet.traffic, hquiet.flights, hquiet.config, rfl⟩
  · rintro _ receiver rfl
    exact ⟨rfl, rfl, by rw [← hquiet.traffic], hquiet.flights, hquiet.config, rfl⟩

/-! ### Runs -/

theorem Unannounced.consistent {next : Advertiser} (hsame : Unannounced a next)
    (ha : a.Consistent) : next.Consistent := by
  refine ⟨?_, ?_, ?_⟩
  · rw [hsame.receiver, hsame.config]
    exact ha.uniform
  · rw [hsame.registry]
    exact ha.valid
  · rw [hsame.registry, hsame.session, hsame.receiver]
    exact ha.owned

theorem Consistent.withSide (ha : a.Consistent) {side : SendingSide}
    (hside : SendingSide.Carries a.side side) : Consistent { a with side := side } := by
  obtain ⟨huniform, haccepted⟩ := hside.uniform _ ha.uniform
  refine ⟨?_, ha.valid, fun hnegotiated r hr cid hcid => ?_⟩
  · rw [hside.config]
    exact huniform
  · have hhas : a.side.receiver.hasConnectionID = true := by
      by_contra hnone
      obtain ⟨others, hfirst⟩ := huniform.first hnegotiated
      rw [haccepted, ha.uniform.absent (Bool.eq_false_iff.mpr hnone)] at hfirst
      cases hfirst
    rw [haccepted]
    exact ha.owned hhas r hr cid hcid

/-- Other sessions keep the registry valid and take no ID for this one. -/
theorem registry_apply {r : Registry} (hr : r.Valid) {op : RegistryOp} {session : SessionId}
    (hop : op.spares session = true) :
    (r.apply op).Valid ∧ ∀ cid, (r.apply op).cidSessions.lookup cid = some session →
      r.cidSessions.lookup cid = some session := by
  cases op with
  | registerSessionCID other cid =>
    have hne : other ≠ session := by simpa [RegistryOp.spares] using hop
    unfold apply
    dsimp only
    split
    · exact ⟨hr, fun _ => id⟩
    next hle =>
      cases hnext : r.registerSessionCID other cid with
      | error err => exact ⟨hr, fun _ => id⟩
      | ok next =>
        refine ⟨hr.registerSessionCID (Nat.not_lt.mp hle) hnext, fun registered hlookup => ?_⟩
        rcases lookup_register hnext hlookup with hold | hown
        · exact hold
        · exact absurd hown.symm hne
  | registerSessionCIDs other cids =>
    have hne : other ≠ session := by simpa [RegistryOp.spares] using hop
    unfold apply
    dsimp only
    cases hnext : r.registerSessionCIDs other cids with
    | error err => exact ⟨hr, fun _ => id⟩
    | ok next =>
      refine ⟨hr.registerSessionCIDs hnext, fun registered hlookup => ?_⟩
      obtain ⟨_, rfl, _⟩ := registerSessionCIDs_eq_ok hnext
      rw [Except.toOption, Option.getD_some, addCIDs_cidSessions,
        OwnerMap.lookup_insertAll] at hlookup
      split at hlookup
      · exact absurd (Option.some.inj hlookup) hne
      · exact hlookup
  | unregisterSessionCIDs other cids =>
    exact ⟨hr.unregisterSessionCIDs other cids, fun cid hlookup => (lookup_unregister.mp hlookup).1⟩
  | removeSession other =>
    exact ⟨hr.removeSession other, fun cid hlookup => (lookup_removeSession.mp hlookup).1⟩
  | shutdown =>
    refine ⟨valid_empty, fun cid hlookup => ?_⟩
    simp [apply, empty] at hlookup

theorem Consistent.step (ha : a.Consistent) (event : AdvertiserEvent) :
    (a.step P hooks event).Consistent := by
  cases event with
  | openRecord datagram =>
    exact ⟨ha.uniform.openRecord datagram, ha.valid, ha.owned⟩
  | registry op =>
    dsimp only [Advertiser.step]
    split
    next hop =>
      refine ⟨ha.uniform, fun r hr => ?_, fun hhas r hr cid hcid => ?_⟩
      · obtain ⟨old, hold, rfl⟩ := Option.mem_map.mp hr
        exact (registry_apply (ha.valid old hold) hop).1
      · obtain ⟨old, hold, rfl⟩ := Option.mem_map.mp hr
        exact ha.owned hhas old hold cid ((registry_apply (ha.valid old hold) hop).2 cid hcid)
    · exact ha
  | side event =>
    by_cases hevent : ∀ connectionIDs immediate registration,
        event ≠ .sendNewConnectionIDs connectionIDs immediate registration
    · have hstep : a.step P hooks (.side event) = { a with side := a.side.step P hooks event } := by
        cases event with
        | sendNewConnectionIDs connectionIDs immediate registration =>
          exact absurd rfl (hevent connectionIDs immediate registration)
        | _ => rfl
      rw [hstep]
      exact ha.withSide (carries_step hevent)
    · push Not at hevent
      obtain ⟨connectionIDs, immediate, registration, rfl⟩ := hevent
      exact exec_of_wp (wp_mono (ha.wp_sendNewConnectionIDs connectionIDs immediate)
        (fun _ _ hnext => hnext) fun _ _ hsame => hsame.consistent ha)

/-- A connection after its handshake, with the registry of the listener that accepted it. -/
def start (P : Primitives) (setup : Setup) (side : Side) (outcomes : List WriteOutcome)
    (session : SessionId) (registry : Option Registry) : Advertiser :=
  ⟨.start ((System.start P setup).endpoint side) outcomes, session, registry⟩

/-- At the end of a handshake every cipher accepts the ID of the handshake, if there is
one. -/
theorem uniform_installReceiving (suite : CipherSuite) (negotiated : Bool)
    (own peer : EndpointSetup) :
    (Conn.installReceiving P suite negotiated own peer).Uniform own.config.maxConnectionIDs := by
  have hciphers : ∀ c ∈ (Conn.installReceiving P suite negotiated own peer).epochs.ciphers,
      c.acceptedCIDs = (Conn.installReceiving P suite negotiated own peer).acceptedCIDs ∧
        c.hasConnectionID = negotiated := by
    intro c hc
    simp only [Conn.installReceiving, mem_cons, not_mem_nil, or_false] at hc
    cases negotiated <;> rcases hc with rfl | rfl <;> exact ⟨rfl, rfl⟩
  have haccepted := fun c hc => (hciphers c hc).1
  have hnegotiated := fun c hc => (hciphers c hc).2
  cases negotiated with
  | false =>
    refine ⟨haccepted, hnegotiated, ?_, ?_, ?_, ?_, ?_, ?_⟩ <;>
      simp [Conn.installReceiving, PrefixFree]
  | true =>
    refine ⟨haccepted, hnegotiated, prefixFree_singleton _, nodup_singleton _, ?_,
      own.config.connectionIDs_bounds.1, fun _ => ⟨[], rfl⟩, by rintro ⟨⟩⟩
    intro cid hcid
    rw [mem_singleton.mp hcid]
    exact own.connectionID_le

/-- In every state of a connection, an announcement that returns an error leaves the IDs
that are accepted, by the receiving side and by each cipher, the registry, the message
number and the outstanding announcement as they were; and all ciphers accept the IDs of
the receiving side, which are prefix-free and within the limit. If connection IDs were
negotiated, the listener has registered no other ID for the connection at the start. -/
theorem announcement_allOrNothing (setup : Setup) (side : Side) (outcomes : List WriteOutcome)
    (session : SessionId) {registry : Option Registry} (hvalid : ∀ r ∈ registry, r.Valid)
    (howned : ((System.start P setup).endpoint side).receiver.hasConnectionID = true →
      ∀ r ∈ registry, ∀ cid, r.cidSessions.lookup cid = some session →
        cid ∈ ((System.start P setup).endpoint side).receiver.acceptedCIDs)
    (events : List AdvertiserEvent) :
    let a := run (step P hooks) (start P setup side outcomes session registry) events
    (∀ connectionIDs immediate err next,
      sendNewConnectionIDs P connectionIDs immediate a = .error err next →
      next.side.receiver.acceptedCIDs = a.side.receiver.acceptedCIDs ∧
      next.side.receiver.epochs = a.side.receiver.epochs ∧ next.registry = a.registry ∧
      next.side.sender.traffic.messageSequence = a.side.sender.traffic.messageSequence ∧
      next.side.flights .newConnectionID = a.side.flights .newConnectionID) ∧
    (∀ c ∈ a.side.receiver.epochs.ciphers, c.acceptedCIDs = a.side.receiver.acceptedCIDs) ∧
    PrefixFree a.side.receiver.acceptedCIDs ∧
    a.side.receiver.acceptedCIDs.length ≤ a.side.config.maxConnectionIDs := by
  intro a
  have hstart : (start P setup side outcomes session registry).Consistent := by
    refine ⟨?_, hvalid, howned⟩
    cases side with
    | client => exact uniform_installReceiving _ _ setup.client setup.server
    | server => exact uniform_installReceiving _ _ setup.server setup.client
  have ha : a.Consistent := run_invariant_all
    (fun (t : Advertiser) event (ht : t.Consistent) => ht.step event) hstart events
  refine ⟨fun connectionIDs immediate err next hrun => ?_, ha.uniform.accepted,
    ha.uniform.prefixFree, ha.uniform.size⟩
  have hwp := ha.wp_sendNewConnectionIDs (P := P) connectionIDs immediate
  unfold wp at hwp
  rw [hrun] at hwp
  have hsame : Unannounced a next := hwp
  exact ⟨by rw [hsame.receiver], by rw [hsame.receiver], hsame.registry, hsame.sequence,
    by rw [hsame.flights]⟩

/-- After a key update of the client the server announces two IDs, and the write fails. -/
theorem announcement_allOrNothing_unwritten :
    let a := run (step .checksum anonymousAuth)
      (start .checksum smallSetup .server [.written, .failed] 0
        (some (Registry.empty.addCID [4] 0)))
      [.side (.receiveKeyUpdate none 0 (marshalKeyUpdate false) ⟨3, 0⟩)]
    a.side.receiver.current = 4 ∧ ∃ err next,
      sendNewConnectionIDs .checksum [[5], [6, 6]] false a = .error err next ∧
      next.registry = a.registry ∧ next.side.receiver.acceptedCIDs = [[4]] := by
  intro a
  obtain ⟨err, next, hrun⟩ := exists_of_not_succeeds (show succeeds
    (sendNewConnectionIDs .checksum [[5], [6, 6]] false) a = false by decide +kernel)
  have hvalid : ∀ r ∈ some (Registry.empty.addCID [4] 0), r.Valid := by
    rintro _ ⟨rfl⟩
    exact Registry.valid_empty.addCID 0 (by decide) (by decide) (prefixFree_singleton _)
  have howned : ∀ r ∈ some (Registry.empty.addCID [4] 0), ∀ cid, r.cidSessions.lookup cid = some 0 →
      cid ∈ ((System.start .checksum smallSetup).endpoint .server).receiver.acceptedCIDs := by
    rintro _ ⟨rfl⟩ cid hcid
    rcases OwnerMap.lookup_insert_iff.mp hcid with ⟨rfl, _⟩ | ⟨_, hnone⟩
    · decide
    · simp [Registry.empty] at hnone
  obtain ⟨haccepted, _, hregistry, _⟩ := (announcement_allOrNothing smallSetup .server
    [.written, .failed] 0 hvalid (fun _ => howned) _).1 [[5], [6, 6]] false err next hrun
  exact ⟨by decide +kernel, err, next, hrun, hregistry, haccepted.trans (by decide +kernel)⟩

end Advertiser

end Dtls13
