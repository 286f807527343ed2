import Dtls13.Driver.NamedRecords
import Dtls13.Path.PeerIDs

/-! # Superseded connection IDs

An immediate message supersedes the IDs the peer gave before. Records that are sealed
after it carry one of its IDs when no older ID can be found any more: among the spare IDs,
in an unsent record, or in a cipher that only a flight still has.
-/

namespace Dtls13

open ByteCodec StateLogic RunSystem Naming SendingSide List CipherStore

/-- The IDs in force: those of the last immediate message and of the spare ones after it.
The handshake gave the first. -/
def currentIDs (handshake : Bytes) (applied : List (Nat × NewConnectionIDMessage)) :
    List Bytes :=
  applied.foldl (fun ids entry => match entry.2.usage with
    | .immediate => entry.2.connectionIDs
    | .spare => ids ++ entry.2.connectionIDs) [handshake]

theorem currentIDs_append (handshake : Bytes) (applied : List (Nat × NewConnectionIDMessage))
    (sequence : Nat) (message : NewConnectionIDMessage) :
    currentIDs handshake (applied ++ [(sequence, message)]) = match message.usage with
      | .immediate => message.connectionIDs
      | .spare => currentIDs handshake applied ++ message.connectionIDs := by
  rw [currentIDs, foldl_append]
  rfl

namespace SendingSide

/-- The flight is sealed with current keys, and all of it was sent once. -/
def followsSwitch (s : SendingSide) (f : SentFlight) : Bool :=
  match f.flight with
  | .sealed g =>
    (g.cipher == s.sender.traffic.cipher || s.sender.traffic.pendingCipher == some g.cipher) &&
      g.records.all fun record => record.acked || record.sent
  | _ => false

/-- No older ID is left when the given ones take over. -/
def leavesOthers (s : SendingSide) (connectionIDs : List Bytes) : Bool :=
  s.cids.peerSpareConnectionIDs.all connectionIDs.contains &&
    [FlightSlot.ticket, .clientAuthRequest, .clientAuthResponse, .newConnectionID,
      .requestCID].all fun slot => (s.flights slot).all s.followsSwitch

end SendingSide

namespace PathConn

variable {P : Primitives} {hooks : AuthHooks} {n : Naming} {written : List SealedRecord}
  {s : SendingSide} {p : PathConn}

/-- An immediate message that is to be applied finds no older ID in use. -/
def switchesCleanly (p : PathConn) : Event → Bool
  | .newConnectionID sequence body =>
    match NewConnectionIDMessage.parseNewConnectionID body with
    | .error _ => true
    | .ok message => message.usage ≠ .immediate ||
        p.side.cids.lastNewCIDSequence.any (sequence ≤ ·) ||
        p.side.leavesOthers message.connectionIDs
  | _ => true

/-- The message does not parse, is not allowed, or has an ID related to another one. -/
def refuses (p : PathConn) (body : Bytes) : Bool :=
  match NewConnectionIDMessage.parseNewConnectionID body with
  | .error _ => true
  | .ok message => !p.side.cids.negotiated || !p.side.cids.peerUpdatesAllowed ||
      !(mergeConnectionIDs p.side.cids.peerIDs message.connectionIDs).isOk

/-! ## Between two immediate messages -/

/-- The side seals under IDs of the set, and has no other spare ones. -/
structure Named (n : Naming) (written : List SealedRecord) (s : SendingSide) : Prop where
  addressed : s.Addressed n written
  spares : s.cids.peerSpareConnectionIDs ⊆ n.ids

theorem Named.keeps {α : Type} {m : SendingM α} (hs : Named n written s)
    (hm : SendingSide.Holds (SendingSide.Addressed n written) m s)
    (hkeeps : Keeps SamePeerIDs m) : SendingSide.Holds (Named n written) m s := by
  have hspares : ∀ {next : SendingSide}, SamePeerIDs s next →
      next.cids.peerSpareConnectionIDs ⊆ n.ids := fun hsame => hsame.spares ▸ hs.spares
  exact wp_mono (wp_and hm (hkeeps s)) (fun _ _ hboth => ⟨hboth.1, hspares hboth.2⟩)
    fun _ _ hboth => ⟨hboth.1, hspares hboth.2⟩

theorem Named.wp_activate (hs : Named n written s) {cid : Bytes} (hcid : cid ∈ n.ids) :
    SendingSide.Holds (Named n written) (activatePeerConnectionID cid) s := by
  unfold activatePeerConnectionID onSender
  rw [SendingSide.Holds, wp_bind, wp_zoom]
  refine wp_mono ((hs.addressed.sender.seated rfl).wp_switch hcid) ?_ ?_
  · rintro _ sender ⟨hsender, hkept, -⟩
    rw [wp_modify]
    exact ⟨(hs.addressed.withSender hsender hkept).of_updates rfl rfl rfl, hs.spares⟩
  · rintro _ sender ⟨-, rfl⟩
    exact hs

theorem Named.withSpares (hs : Named n written s) {spares : List Bytes} (hspares : spares ⊆ n.ids) :
    Named n written { s with cids := { s.cids with peerSpareConnectionIDs := spares } } :=
  ⟨hs.addressed.of_updates rfl rfl rfl, hspares⟩

theorem Named.wp_useNextConnectionID (hs : Named n written s) :
    SendingSide.Holds (Named n written) useNextConnectionID s := by
  unfold useNextConnectionID
  rw [SendingSide.Holds, wp_bind, wp_get]
  cases hspares : s.cids.peerSpareConnectionIDs with
  | nil => exact hs
  | cons cid spares =>
    have hmem := hs.spares
    rw [hspares] at hmem
    obtain ⟨hcid, hrest⟩ := cons_subset.mp hmem
    dsimp only
    rw [wp_bind, wp_modify, wp_bind]
    exact wp_requireTraffic (fun _ => hs.withSpares hrest)
      fun _ => (hs.withSpares hrest).wp_activate hcid

theorem Named.wp_activateSpare (hs : Named n written s) {cid : Bytes}
    (hcid : cid ∈ s.cids.peerSpareConnectionIDs) :
    SendingSide.Holds (Named n written) (activateSpare cid) s := by
  unfold activateSpare
  rw [SendingSide.Holds, wp_bind]
  apply wp_requireTraffic (fun _ => hs)
  intro _
  refine wp_seq (hs.wp_activate (hs.spares hcid)) ?_
  intro _ next hnext
  exact hnext.withSpares fun other hother => hnext.spares (mem_of_mem_erase hother)

theorem Named.wp_sealReturnRoutability (hs : Named n written s) {probe : Option Bytes}
    (content : Bytes) (hprobe : ∀ cid, probe = some cid → cid ∈ s.cids.peerSpareConnectionIDs) :
    wp (sealReturnRoutability P probe content)
      (fun wire next => next.Addressed n written ∧ n.Bears wire)
      (fun _ => SendingSide.Addressed n written) s := by
  unfold sealReturnRoutability
  rw [wp_bind, wp_get]
  refine wp_imp ((addressed_invariant P n written).wp_onStore n.Bears hs.addressed ?_)
    fun _ _ hsealed => ⟨hsealed.1, hsealed.2.2⟩
  cases probe with
  | none => exact wp_sealRecord hs.addressed.sender.cipher _ content
  | some cid =>
    exact wp_sealProbe hs.addressed.sender.cipher (hs.spares (hprobe cid rfl)) content

variable (P hooks n written) in
theorem named_invariant : Invariant P hooks (Named n written) where
  sealPath {s probe} content hs hprobe := by
    refine wp_mono (wp_and (hs.wp_sealReturnRoutability content hprobe)
      (keeps_sealReturnRoutability probe content s)) ?_ ?_
    · rintro wire next ⟨⟨hnext, hbears⟩, hsame⟩
      have hnamed : Named n written next := ⟨hnext, hsame.spares ▸ hs.spares⟩
      exact ⟨hnamed, hnamed.keeps ((addressed_invariant P n written).wp_writeRecord hnext hbears)
        (keeps_onOutbox _)⟩
    · rintro _ next ⟨hnext, hsame⟩
      exact ⟨hnext, hsame.spares ▸ hs.spares⟩
  update hs := hs.keeps ((addressed_invariant P n written).updates.wp_updateAfterSend
    hs.addressed) keeps_updateAfterSend
  activate hs hcid := hs.wp_activateSpare hcid
  fail err hs := ⟨hs.addressed.of_updates rfl rfl rfl, hs.spares⟩
  step {s event} hs hother := by
    by_cases hswitch : event = .useNextConnectionID
    · subst hswitch
      exact exec_of_wp hs.wp_useNextConnectionID
    · have hsame : SamePeerIDs s (s.step P hooks event) := samePeerIDs_step hother hswitch
      refine ⟨?_, hsame.spares ▸ hs.spares⟩
      apply (addressed_invariant P n written).step hs.addressed _ trivial
      cases event with
      | useNextConnectionID => exact absurd rfl hswitch
      | receiveConnectionIDs cids active => cases hother
      | sendReturnRoutability probe content => cases hother
      | _ => rfl

/-! ## Connection-ID messages -/

/-- More IDs in force. -/
theorem Named.more (hs : Named n written s) {ids : List Bytes} (hids : n.ids ⊆ ids) :
    Named ⟨n.suite, ids⟩ written s := by
  have hcovers : ∀ {c : RecordCipher}, n.Covers c → Covers ⟨n.suite, ids⟩ c :=
    fun hc => ⟨hc.suite, hc.named, hids hc.mem⟩
  have hnames : ∀ {ref}, n.Names s.sender.store ref → Names ⟨n.suite, ids⟩ s.sender.store ref :=
    fun href => ⟨href.ref_lt, hcovers href.covers⟩
  obtain ⟨hsender, hflights, new, hnew, hbears⟩ := hs.addressed
  refine ⟨⟨?_, fun slot f hf => ?_, new, hnew, fun record hrecord => hids (hbears record hrecord)⟩,
    List.Subset.trans hs.spares hids⟩
  · exact ⟨hsender.suite, hsender.named, hsender.short, hids hsender.mem, hnames hsender.cipher,
      fun ref href => hnames (hsender.pending ref href)⟩
  · obtain ⟨g, hflight, hflies⟩ := hflights slot f hf
    exact ⟨g, hflight, hnames hflies.cipher, hflies.length_eq,
      fun record hrecord hunsent => hids (hflies.bears record hrecord hunsent)⟩

/-- The records written so far need not be looked at again. -/
theorem Named.restart (hs : Named n written s) : Named n s.transport.written s :=
  ⟨⟨hs.addressed.sender, hs.addressed.flights, [], (append_nil _).symm, by simp⟩, hs.spares⟩

theorem followsSwitch_of_leavesOthers {connectionIDs : List Bytes}
    (hleaves : s.leavesOthers connectionIDs = true) {slot : FlightSlot} {f : SentFlight}
    (hf : s.flights slot = some f) : s.followsSwitch f = true := by
  have hslots := (Bool.and_eq_true_iff.mp hleaves).2
  rw [all_eq_true] at hslots
  have hslot := hslots slot (by cases slot <;> simp)
  rwa [hf] at hslot

/-- A flight that follows the switch is under the new IDs after it. -/
theorem sent_of_followsSwitch {sender : Sender} {f : SentFlight} {kind : FlightRecord → Bool}
    {other : Naming} (hf : other.Sent kind s.sender.store f) (hfollows : s.followsSwitch f = true)
    (hcurrent : ∀ ref, Current s.sender ref → n.Names sender.store ref) :
    n.Sent unsent sender.store f := by
  obtain ⟨g, hflight, hflies⟩ := hf
  unfold followsSwitch at hfollows
  rw [hflight] at hfollows
  simp only [Bool.and_eq_true, Bool.or_eq_true, beq_iff_eq, all_eq_true] at hfollows
  refine ⟨g, hflight, hcurrent g.cipher hfollows.1, hflies.length_eq, ?_⟩
  intro record hrecord hunsent
  have hsent := hfollows.2 record hrecord
  simp only [unsent, Bool.and_eq_true, Bool.not_eq_true'] at hunsent
  rw [hunsent.1, hunsent.2] at hsent
  simp at hsent

/-- The IDs of an immediate message take over. -/
theorem Named.wp_takeOver (hs : Named n written s) {cids : ConnectionIDs} {cid : Bytes}
    {ids : List Bytes} (hcid : cid ∈ ids) (hshort : cid.length ≤ 255)
    (hleaves : s.leavesOthers ids = true) (hspares : cids.peerSpareConnectionIDs ⊆ ids) :
    wp (receiveConnectionIDs cids (some cid))
      (fun _ next => Named ⟨n.suite, ids⟩ s.transport.written next ∧
        next.transport = s.transport) (fun _ _ => False) s := by
  have hseated : Seated ⟨n.suite, ids⟩ s.sender := hs.addressed.sender.seated rfl
  unfold receiveConnectionIDs activatePeerConnectionID
    onSender
  rw [wp_bind, wp_modify]
  dsimp only
  rw [wp_bind, wp_zoom]
  refine wp_mono (hseated.wp_switch hcid) ?_ ?_
  · rintro _ sender ⟨hsender, -, hcurrent⟩
    refine ⟨⟨⟨hsender, fun slot f hf => ?_, [], (append_nil _).symm, by simp⟩, hspares⟩, rfl⟩
    exact sent_of_followsSwitch (hs.addressed.flights slot f hf)
      (followsSwitch_of_leavesOthers hleaves hf) hcurrent
  · rintro _ sender ⟨hlong, -⟩
    exact absurd hshort (Nat.not_le.mpr hlong)

/-- A spare message adds its IDs. -/
theorem Named.wp_addSpares (hs : Named n written s) {cids : ConnectionIDs} {ids : List Bytes}
    (hspares : cids.peerSpareConnectionIDs ⊆ s.cids.peerSpareConnectionIDs ++ ids) :
    wp (receiveConnectionIDs cids none)
      (fun _ next => Named ⟨n.suite, n.ids ++ ids⟩ written next ∧ next.transport = s.transport)
      (fun _ _ => False) s := by
  have hmore := hs.more (subset_append_left n.ids ids)
  refine ⟨⟨hmore.addressed.of_updates rfl rfl rfl, fun cid hcid => ?_⟩, rfl⟩
  rcases mem_append.mp (hspares hcid) with hold | hnew
  · exact hmore.spares hold
  · exact mem_append_right _ hnew

/-- The side seals under the IDs in force. -/
def Current (suite : CipherSuite) (handshake : Bytes) (p : PathConn) : Prop :=
  Named ⟨suite, currentIDs handshake p.applied⟩ p.side.transport.written p.side

variable {suite : CipherSuite} {handshake : Bytes}

/-- A message that is applied writes nothing, and a clean switch leaves no older ID. -/
theorem Current.wp_receive (hp : Current suite handshake p) {sequence : Nat}
    {outcome : ReceivedConnectionIDs}
    (happlies : p.side.cids.Applies p.side.config.maxConnectionIDs sequence outcome)
    (hclean : outcome.message.usage = .immediate →
      p.side.leavesOthers outcome.message.connectionIDs = true) :
    wp (onSide (receiveConnectionIDs outcome.cids outcome.active))
      (fun _ => Current suite handshake) (fun _ _ => False)
      { p with applied := p.applied ++ [(sequence, outcome.message)] } := by
  have happended := currentIDs_append handshake p.applied sequence outcome.message
  rw [onSide, wp_zoom]
  cases hactive : outcome.active with
  | none =>
    have husage : outcome.message.usage = .spare := by
      cases husage : outcome.message.usage with
      | spare => rfl
      | immediate =>
        have hsome := happlies.active_isSome.mpr husage
        rw [hactive] at hsome
        cases hsome
    rw [husage] at happended
    refine wp_imp (hp.wp_addSpares happlies.spares) ?_
    rintro _ next ⟨hnext, -⟩
    rw [Current, happended]
    exact hnext.restart
  | some cid =>
    have husage : outcome.message.usage = .immediate :=
      happlies.active_isSome.mp (by rw [hactive]; rfl)
    have hcid := happlies.active_mem cid hactive
    have hleaves := hclean husage
    rw [husage] at happended
    have hspares : outcome.cids.peerSpareConnectionIDs ⊆ outcome.message.connectionIDs := by
      intro other hother
      rcases mem_append.mp (happlies.spares hother) with hold | hnew
      · have hall := all_eq_true.mp (Bool.and_eq_true_iff.mp hleaves).1 other hold
        simpa using hall
      · exact hnew
    refine wp_imp (hp.wp_takeOver hcid (happlies.short cid hcid) hleaves hspares) ?_
    rintro _ next ⟨hnext, -⟩
    rw [Current, happended]
    exact hnext.restart

theorem Current.step (hp : Current suite handshake p) (hlisted : Listed p.applied p.side)
    {event : Event} (hclean : p.switchesCleanly event = true) :
    Current suite handshake (p.step P hooks event) := by
  have hother : (∀ sequence body, event ≠ .newConnectionID sequence body) →
      Current suite handshake (p.step P hooks event) := by
    intro hevent
    have hkept := (named_invariant P hooks _ _).kept_step ⟨hp, rfl⟩ hevent
    rw [Current, hkept.applied_eq]
    exact hkept.side.restart
  cases event with
  | newConnectionID sequence body =>
    rcases newConnectionID_cases P hooks p sequence body with
      hstep | ⟨err, hstep⟩ | ⟨outcome, hreceived, hstep⟩
    · rwa [hstep]
    · rw [hstep]
      exact ⟨hp.addressed.of_updates rfl rfl rfl, hp.spares⟩
    · obtain ⟨hparse, happlies⟩ := hlisted.valid.applies hreceived
      rw [hstep]
      refine handle_of_wp (wp_mono (hp.wp_receive happlies fun husage => ?_)
        (fun _ _ hnext => hnext) fun _ _ habsurd => habsurd.elim)
      dsimp only [switchesCleanly] at hclean
      rw [hparse] at hclean
      simp only [husage, Bool.or_eq_true, decide_eq_true_eq, ne_eq, not_true_eq_false,
        false_or] at hclean
      refine hclean.resolve_left fun hold => ?_
      cases hlast : p.side.cids.lastNewCIDSequence with
      | none =>
        rw [hlast] at hold
        cases hold
      | some last =>
        rw [hlast] at hold
        exact absurd (happlies.fresh last hlast) (Nat.not_lt.mpr (of_decide_eq_true hold))
  | arrive | finish | timer | clear | side => exact hother nofun

theorem newConnectionID_written (sequence : Nat) (body : Bytes) :
    (p.step P hooks (.newConnectionID sequence body)).side.transport.written =
      p.side.transport.written := by
  rcases newConnectionID_cases P hooks p sequence body with
    hstep | ⟨err, hstep⟩ | ⟨outcome, -, hstep⟩ <;> rw [hstep]
  · rfl
  · -- Whatever comes of the switch, the transport is not used.
    have hkeeps : wp (receiveConnectionIDs outcome.cids outcome.active)
        (fun _ next => next.transport.written = p.side.transport.written)
        (fun _ next => next.transport.written = p.side.transport.written) p.side := by
      unfold receiveConnectionIDs
      rw [wp_bind, wp_modify]
      cases outcome.active with
      | none => rfl
      | some cid =>
        dsimp only [activatePeerConnectionID, onSender]
        rw [wp_bind, wp_zoom]
        unfold wp
        split <;> rfl
    refine @handle_of_wp _ _ _ _ _ _ _ _
      (fun q : PathConn => q.side.transport.written = p.side.transport.written) ?_
    rw [onSide, wp_zoom]
    exact hkeeps

/-- What a step writes carries the IDs that were in force before it. -/
theorem Current.written_carries (hp : Current suite handshake p) (event : Event) :
    ∃ new, (p.step P hooks event).side.transport.written = p.side.transport.written ++ new ∧
      ∀ record ∈ new, record.connectionID suite.overhead ∈ currentIDs handshake p.applied := by
  have hother : (∀ sequence body, event ≠ .newConnectionID sequence body) →
      ∃ new, (p.step P hooks event).side.transport.written = p.side.transport.written ++ new ∧
        ∀ record ∈ new, record.connectionID suite.overhead ∈ currentIDs handshake p.applied :=
    fun hevent =>
      ((named_invariant P hooks _ _).kept_step ⟨hp, rfl⟩ hevent).side.addressed.written_eq
  cases event with
  | newConnectionID sequence body => exact ⟨[], by rw [newConnectionID_written]; simp⟩
  | arrive | finish | timer | clear | side => exact hother nofun

/-! ## Runs -/

/-- New keys are under the ID of the handshake. -/
theorem sends_installSending (P : Primitives) (suite : CipherSuite) (own peer : EndpointSetup) :
    Sends ⟨suite, [peer.connectionID]⟩ (Conn.installSending P suite true own peer) := by
  unfold Conn.installSending
  generalize hnew : Sender.newSendingTraffic P own.store suite own.applicationSecret 3
    own.messageSequence.toNat own.config.replayWindow = sender
  have hsuite : sender.traffic.suite = suite := hnew ▸ rfl
  have hcipher : sender.cipher.suite = suite :=
    hnew ▸ congrArg RecordCipher.suite (read_allocate_new ..)
  have hlt : sender.traffic.cipher < sender.store.ciphers.length :=
    hnew ▸ (allocate_length ..).ge
  have hidle : sender.traffic.pendingCipher = none := hnew ▸ rfl
  have hlimited : Seated ⟨suite, [peer.connectionID]⟩ ⟨sender.store.write sender.traffic.cipher
      (sender.cipher.setPlaintextLimit peer.recordSizeLimit), sender.traffic⟩ := by
    refine ⟨hsuite, ?_⟩
    rintro ref (rfl | hpending)
    · refine ⟨hlt.trans_eq (write_length ..).symm, ?_⟩
      rw [read_write hlt]
      exact hcipher
    · rw [show sender.traffic.pendingCipher = some ref from hpending] at hidle
      cases hidle
  dsimp only
  rw [if_pos rfl]
  refine exec_of_wp (wp_mono (hlimited.wp_switch mem_cons_self) (fun _ _ hsends => hsends.1) ?_)
  rintro _ _ ⟨hlong, -⟩
  exact absurd peer.connectionID_le (Nat.not_le.mpr hlong)

variable (P) in
theorem current_start (setup : Setup) (endpoint : Side) (outcomes : List WriteOutcome)
    (negotiated routable : Bool) (remote : Address) (random : List (Option PathCookie))
    (hnegotiated : setup.connectionIDNegotiated = true) :
    let start := start (.start ((System.start P setup).endpoint endpoint) outcomes) negotiated
      routable remote random
    Current setup.suite start.side.cids.sendConnectionID start := by
  intro start
  have hsends : Sends ⟨setup.suite, [start.side.cids.sendConnectionID]⟩ start.side.sender := by
    cases endpoint with
    | client =>
      have hsends := sends_installSending P setup.suite setup.client setup.server
      simpa only [start, PathConn.start, SendingSide.start, System.endpoint, System.start,
        Conn.start, hnegotiated, if_true] using hsends
    | server =>
      have hsends := sends_installSending P setup.suite setup.server setup.client
      simpa only [start, PathConn.start, SendingSide.start, System.endpoint, System.start,
        Conn.start, hnegotiated, if_true] using hsends
  have hspares : start.side.cids.peerSpareConnectionIDs = [] := by cases endpoint <;> rfl
  refine ⟨⟨hsends, nofun, [], (append_nil _).symm, by simp⟩, ?_⟩
  rw [hspares]
  exact nil_subset _

variable (P) in
theorem listed_start (setup : Setup) (endpoint : Side) (outcomes : List WriteOutcome) :
    Listed [] (.start ((System.start P setup).endpoint endpoint) outcomes) := by
  have hspares : (SendingSide.start ((System.start P setup).endpoint endpoint)
      outcomes).cids.peerSpareConnectionIDs = [] := by cases endpoint <;> rfl
  refine ⟨⟨?_, ?_, ?_⟩, .nil, by simp⟩
  · rw [ConnectionIDs.peerIDs, hspares]
    exact nodup_singleton _
  · rw [ConnectionIDs.peerIDs, hspares]
    exact RecordCipher.prefixFree_singleton _
  · rw [ConnectionIDs.peerIDs, hspares]
    exact (Config.connectionIDs_bounds _).1

/-- A message that is refused, or whose number was applied, is not applied. -/
theorem step_of_rejected (hp : Listed p.applied p.side) {sequence : Nat} {body : Bytes}
    (hrejected : p.refuses body = true ∨ sequence ∈ p.applied.map Prod.fst) :
    p.step P hooks (.newConnectionID sequence body) = p ∨
      ∃ err, p.step P hooks (.newConnectionID sequence body) = p.failConnection err := by
  rcases newConnectionID_cases P hooks p sequence body with hstep | hstep | ⟨outcome, hreceived, -⟩
  · exact .inl hstep
  · exact .inr hstep
  · exfalso
    obtain ⟨hparse, happlies⟩ := hp.valid.applies hreceived
    rcases hrejected with hrefused | hold
    · unfold refuses at hrefused
      rw [hparse] at hrefused
      dsimp only at hrefused
      rw [happlies.allowed, happlies.merged] at hrefused
      cases hrefused
    · obtain ⟨entry, hentry, rfl⟩ := mem_map.mp hold
      obtain ⟨last, hlast, hle⟩ := hp.le_last entry hentry
      exact absurd (happlies.fresh last hlast) (Nat.not_lt.mpr hle)

variable (P hooks) in
/-- In every run the IDs of the peer are distinct, none of them continues another one, and
they are not too many; no message is applied twice, and a message that is refused changes
nothing. In a run in which every immediate message finds no older ID in use, every record
carries an ID that was not superseded. -/
theorem peerIDs_valid (setup : Setup) (endpoint : Side) (outcomes : List WriteOutcome)
    (negotiated routable : Bool) (remote : Address) (random : List (Option PathCookie))
    (hnegotiated : setup.connectionIDNegotiated = true) (events : List Event) :
    let start := start (.start ((System.start P setup).endpoint endpoint) outcomes) negotiated
      routable remote random
    let p := run (step P hooks) start events
    (p.side.cids.peerIDs.Nodup ∧ RecordCipher.PrefixFree p.side.cids.peerIDs ∧
      p.side.cids.peerIDs.length ≤ p.side.config.maxConnectionIDs) ∧
    (p.applied.map Prod.fst).Nodup ∧
    (∀ sequence body, p.refuses body = true ∨ sequence ∈ p.applied.map Prod.fst →
      p.step P hooks (.newConnectionID sequence body) = p ∨
        ∃ err, p.step P hooks (.newConnectionID sequence body) = p.failConnection err) ∧
    (Along (step P hooks) (fun p event => p.switchesCleanly event = true) start events →
      ∀ event, ∃ new,
        (p.step P hooks event).side.transport.written = p.side.transport.written ++ new ∧
        ∀ record ∈ new, record.connectionID setup.suite.overhead ∈
          currentIDs start.side.cids.sendConnectionID p.applied) := by
  intro start p
  have hstart : Listed start.applied start.side := listed_start P setup endpoint outcomes
  have hlisted : Listed p.applied p.side := run_invariant_all
    (fun (q : PathConn) event (hq : Listed q.applied q.side) => listed_step hq event) hstart
    events
  refine ⟨⟨hlisted.valid.nodup, hlisted.valid.prefixFree, hlisted.valid.length_le⟩,
    hlisted.increasing.imp fun hlt => hlt.ne, fun sequence body => step_of_rejected hlisted, ?_⟩
  intro hclean event
  have hboth : Listed p.applied p.side ∧ Current setup.suite start.side.cids.sendConnectionID p :=
    run_invariant (fun (q : PathConn) event (hq : Listed q.applied q.side ∧
      Current setup.suite start.side.cids.sendConnectionID q) hcond =>
        ⟨listed_step hq.1 event, hq.2.step hq.1 hcond⟩)
      ⟨hstart, current_start P setup endpoint outcomes negotiated routable remote random
        hnegotiated⟩ hclean
  exact hboth.2.written_carries event

/-- A ticket is outstanding under the keys of epoch 3 when an immediate message arrives in
epoch 4; its next transmission carries the ID of the handshake. -/
theorem peerIDs_valid_oldKeys :
    let start := start sampleSide true true "old" []
    let p := run (step .checksum anonymousAuth) start
      [.side (.sendNewSessionTickets [(⟨100, 0, [], [5], 0⟩, none)]), .side (.sendKeyUpdate false),
        .side (.receiveACK [⟨3, 1⟩]), .newConnectionID 0 [0, 3, 2, 9, 9, 0]]
    let next := p.step .checksum anonymousAuth (.side (.flightTimer .ticket 1))
    currentIDs start.side.cids.sendConnectionID p.applied = [[9, 9]] ∧
    (next.side.transport.written.drop p.side.transport.written.length).map
      (·.connectionID next.side.sender.traffic.suite.overhead) =
        [start.side.cids.sendConnectionID] := by
  decide +kernel

/-- A spare ID is used, and then replaced by an immediate message. -/
theorem peerIDs_valid_switched :
    let setup := { smallSetup with
      client := smallEndpoint [1] (List.replicate 100 3) (by decide)
      server := smallEndpoint [2] [4] (by decide) }
    let events : List Event := [.newConnectionID 0 [0, 3, 2, 7, 7, 1], .side .useNextConnectionID,
      .newConnectionID 1 [0, 3, 2, 9, 9, 0]]
    let start := start (.start ((System.start .checksum setup).endpoint .server) []) true true
      "old" []
    let p := run (step .checksum anonymousAuth) start events
    setup.connectionIDNegotiated = true ∧ p.applied.map Prod.fst = [0, 1] ∧
    ∃ new, (p.step .checksum anonymousAuth (.side (.writeDatagram [1]))).side.transport.written =
        p.side.transport.written ++ new ∧
      ∀ record ∈ new, record.connectionID setup.suite.overhead ∈
        currentIDs start.side.cids.sendConnectionID p.applied := by
  intro setup events start p
  have hnegotiated : setup.connectionIDNegotiated = true := rfl
  have hclean : Along (step .checksum anonymousAuth)
      (fun p event => p.switchesCleanly event = true) start events := by decide +kernel
  obtain ⟨-, -, -, hcarries⟩ := peerIDs_valid .checksum anonymousAuth setup .server [] true true
    "old" [] hnegotiated events
  refine ⟨hnegotiated, by decide +kernel, ?_⟩
  dsimp only [p, start]
  exact hcarries hclean (.side (.writeDatagram [1]))

end PathConn

end Dtls13
