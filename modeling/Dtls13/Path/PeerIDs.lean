import Dtls13.Path.Rule

/-! # The connection IDs of the peer

The active ID and the spare ones are a set of distinct IDs, none of which continues
another one, and the set has at most as many members as the configuration allows. That
holds after every message, switch, probe and rebinding, and no message is applied twice.
-/

namespace Dtls13

open ByteCodec StateLogic RecordCipher SendingSide List NewConnectionIDMessage ConnectionIDs

namespace ConnectionIDs

/-- The active ID and the spare ones. -/
def peerIDs (cids : ConnectionIDs) : List Bytes :=
  cids.sendConnectionID :: cids.peerSpareConnectionIDs

/-- What the IDs of the peer must satisfy under a limit on their number. -/
structure Valid (limit : Nat) (cids : ConnectionIDs) : Prop where
  nodup : cids.peerIDs.Nodup
  prefixFree : PrefixFree cids.peerIDs
  length_le : cids.peerIDs.length ≤ limit

variable {limit : Nat} {cids next : ConnectionIDs}

/-- IDs may be dropped and change places. -/
theorem Valid.fewer (hvalid : cids.Valid limit) (hfewer : next.peerIDs.Subperm cids.peerIDs) :
    next.Valid limit := by
  obtain ⟨kept, hperm, hsublist⟩ := hfewer
  refine ⟨hperm.nodup (hvalid.nodup.sublist hsublist), ?_, ?_⟩
  · exact hvalid.prefixFree.subset fun cid hcid => hsublist.subset (hperm.mem_iff.mpr hcid)
  · exact hperm.length_eq ▸ hsublist.length_le.trans hvalid.length_le

/-- The IDs of a message that become spare ones are new, and there is room for them. -/
theorem addSpareConnectionIDs_spec {active : Bytes} {spares : List Bytes} (ids : List Bytes)
    (hnodup : (active :: spares).Nodup) (hlength : spares.length + 1 ≤ limit) :
    (active :: Conn.addSpareConnectionIDs limit active spares ids).Nodup ∧
      (Conn.addSpareConnectionIDs limit active spares ids).length + 1 ≤ limit ∧
      Conn.addSpareConnectionIDs limit active spares ids ⊆ spares ++ ids := by
  unfold Conn.addSpareConnectionIDs
  induction ids generalizing spares with
  | nil => exact ⟨hnodup, hlength, by simp⟩
  | cons cid ids ih =>
    rw [foldl_cons]
    split
    · obtain ⟨hnodup', hlength', hsubset⟩ := ih hnodup hlength
      exact ⟨hnodup', hlength', fun other hother => by
        have := hsubset hother
        simp only [mem_append, mem_cons] at this ⊢
        tauto⟩
    next hnew =>
      simp only [not_or, not_le] at hnew
      obtain ⟨hactive, hspare, hroom⟩ := hnew
      have hadded : (active :: (spares ++ [cid])).Nodup := by
        rw [← cons_append, nodup_append]
        refine ⟨hnodup, nodup_singleton _, fun old hold new hmem => ?_⟩
        rw [mem_singleton.mp hmem]
        rintro rfl
        rcases mem_cons.mp hold with rfl | hold
        · exact hactive rfl
        · exact hspare hold
      obtain ⟨hnodup', hlength', hsubset⟩ := ih hadded (by simp; omega)
      exact ⟨hnodup', hlength', fun other hother => by simpa using hsubset hother⟩

/-- What a message that is applied does. -/
structure Applies (limit sequence : Nat) (cids : ConnectionIDs)
    (outcome : ReceivedConnectionIDs) : Prop where
  allowed : (!cids.negotiated || !cids.peerUpdatesAllowed) = false
  merged : (mergeConnectionIDs cids.peerIDs outcome.message.connectionIDs).isOk = true
  fresh : ∀ last, cids.lastNewCIDSequence = some last → last < sequence
  sequence_eq : outcome.cids.lastNewCIDSequence = some sequence
  spares : outcome.cids.peerSpareConnectionIDs ⊆
    cids.peerSpareConnectionIDs ++ outcome.message.connectionIDs
  short : ∀ cid ∈ outcome.message.connectionIDs, cid.length ≤ 255
  active_mem : ∀ cid, outcome.active = some cid → cid ∈ outcome.message.connectionIDs
  active_isSome : outcome.active.isSome = true ↔ outcome.message.usage = .immediate
  valid : outcome.cids.Valid limit
  active_valid : ∀ cid, outcome.active = some cid →
    { outcome.cids with sendConnectionID := cid }.Valid limit

/-- An immediate message that was parsed names an ID. -/
theorem connectionIDs_ne_nil {body : Bytes} {message : NewConnectionIDMessage}
    (hparse : parseNewConnectionID body = .ok message)
    (himmediate : message.usage = .immediate) : message.connectionIDs ≠ [] := by
  unfold parseNewConnectionID at hparse
  obtain ⟨⟨encoded, code⟩, -, hparse⟩ := bind_eq_ok.mp hparse
  obtain ⟨usage, -, hparse⟩ := bind_eq_ok.mp hparse
  obtain ⟨ids, -, hparse⟩ := bind_eq_ok.mp hparse
  split at hparse
  · cases hparse
  next hsome =>
    cases hparse
    exact fun hnil => hsome ⟨himmediate, hnil⟩

theorem Valid.applies (hvalid : cids.Valid limit) {sequence : Nat} {body : Bytes}
    {outcome : ReceivedConnectionIDs}
    (hreceive : cids.receiveNewConnectionID limit sequence body = .ok (some outcome)) :
    parseNewConnectionID body = .ok outcome.message ∧ cids.Applies limit sequence outcome := by
  unfold receiveNewConnectionID at hreceive
  obtain ⟨message, hparse, hreceive⟩ := bind_eq_ok.mp hreceive
  split at hreceive
  · cases hreceive
  next hallowed =>
  rw [Bool.not_eq_true] at hallowed
  split at hreceive
  · cases hreceive
  next hfresh =>
  cases hmerge : mergeConnectionIDs (cids.sendConnectionID :: cids.peerSpareConnectionIDs)
      message.connectionIDs with
  | error err =>
    rw [hmerge] at hreceive
    cases hreceive
  | ok merged =>
    rw [hmerge] at hreceive
    dsimp only at hreceive
    have hmerged := mergedIDs_of_merge hmerge
    have hok : (mergeConnectionIDs cids.peerIDs message.connectionIDs).isOk = true := by
      rw [peerIDs, hmerge]
      rfl
    have hfree := hmerged.prefixFree hvalid.prefixFree
    obtain ⟨hnodup, hlength, hsubset⟩ := addSpareConnectionIDs_spec message.connectionIDs
      hvalid.nodup hvalid.length_le
    have hold : ∀ last, cids.lastNewCIDSequence = some last → last < sequence := by
      intro last hlast
      rw [hlast] at hfresh
      simpa using hfresh
    -- Everything in the new lists is in the merged one, which is prefix-free.
    have hmem : ∀ cid ∈ Conn.addSpareConnectionIDs limit cids.sendConnectionID
        cids.peerSpareConnectionIDs message.connectionIDs, cid ∈ merged := by
      intro cid hcid
      rw [hmerged.mem_iff]
      exact (mem_append.mp (hsubset hcid)).imp_left (mem_cons_of_mem _)
    have hactive : cids.sendConnectionID ∈ merged :=
      (hmerged.mem_iff _).mpr (.inl mem_cons_self)
    have hspare : ({ cids with
        lastNewCIDSequence := some sequence, requestOpen := false
        peerSpareConnectionIDs := Conn.addSpareConnectionIDs limit cids.sendConnectionID
          cids.peerSpareConnectionIDs message.connectionIDs } : ConnectionIDs).Valid limit :=
      ⟨hnodup, hfree.subset (cons_subset.mpr ⟨hactive, hmem⟩), hlength⟩
    split at hreceive
    next cid others husage hids =>
      obtain rfl := Option.some.inj (Except.ok.inj hreceive)
      refine ⟨hparse, hallowed, hok, hold, rfl, ?_, hmerged.bounded, ?_,
        ⟨fun _ => husage, fun _ => rfl⟩, ?_, ?_⟩
      · exact fun other hother => hsubset (mem_of_mem_erase hother)
      · rintro other ⟨⟩
        rw [hids]
        exact mem_cons_self
      · exact hspare.fewer ((erase_sublist.cons_cons _).subperm)
      · rintro other ⟨⟩
        have hspares := List.Nodup.of_cons hnodup
        refine ⟨nodup_cons.mpr ⟨hspares.not_mem_erase, hspares.erase _⟩, ?_, ?_⟩
        · apply hfree.subset
          refine cons_subset.mpr ⟨(hmerged.mem_iff _).mpr (.inr ?_), ?_⟩
          · rw [hids]
            exact mem_cons_self
          · exact fun other hother => hmem other (mem_of_mem_erase hother)
        · exact (Nat.succ_le_succ length_erase_le).trans hlength
    next hother =>
      obtain rfl := Option.some.inj (Except.ok.inj hreceive)
      refine ⟨hparse, hallowed, hok, hold, rfl, hsubset, hmerged.bounded, nofun,
        ⟨nofun, fun husage => ?_⟩, hspare, nofun⟩
      obtain ⟨cid, others, hids⟩ := exists_cons_of_ne_nil
        (connectionIDs_ne_nil hparse husage)
      exact absurd hids (hother cid others husage)

end ConnectionIDs

namespace PathConn

/-! ## Invariants of the sending side -/

variable {P : Primitives} {hooks : AuthHooks} {J : SendingSide → Prop}
  {applied : List (Nat × NewConnectionIDMessage)} {p next : PathConn}

/-- A property of the sending side that everything but a connection-ID message keeps. A
challenge goes out under the active ID or a spare one, and a rebinding uses a spare one. -/
structure Invariant (P : Primitives) (hooks : AuthHooks) (J : SendingSide → Prop) : Prop where
  sealPath : ∀ {s : SendingSide} {probe : Option Bytes} (content : Bytes), J s →
    (∀ cid, probe = some cid → cid ∈ s.cids.peerSpareConnectionIDs) →
    wp (SendingSide.sealReturnRoutability P probe content)
      (fun wire next => J next ∧ SendingSide.Holds J (SendingSide.writeRecord wire) next)
      (fun _ => J) s
  update : ∀ {s}, J s → SendingSide.Holds J (SendingSide.updateAfterSend P) s
  activate : ∀ {s : SendingSide} {cid : Bytes}, J s → cid ∈ s.cids.peerSpareConnectionIDs →
    SendingSide.Holds J (activateSpare cid) s
  fail : ∀ {s} (err : Err), J s → J (s.failConnection err)
  step : ∀ {s : SendingSide} {event : SendingSide.Event}, J s → isOwnEvent event = false →
    J (s.step P hooks event)

/-- The property holds, and the messages applied are these. -/
structure Kept (J : SendingSide → Prop) (applied : List (Nat × NewConnectionIDMessage))
    (p : PathConn) : Prop where
  side : J p.side
  applied_eq : p.applied = applied

theorem Kept.same (hp : Kept J applied p) (hside : next.side = p.side)
    (happlied : next.applied = p.applied) : Kept J applied next :=
  ⟨hside ▸ hp.side, happlied.trans hp.applied_eq⟩

theorem mem_spares_of_rebind {cids : ConnectionIDs} {probe cid : Bytes}
    (hrebind : rebindConnectionID cids probe = some cid) : cid ∈ cids.peerSpareConnectionIDs := by
  unfold rebindConnectionID at hrebind
  split at hrebind
  · exact mem_of_mem_head? hrebind
  · split at hrebind
    · cases hrebind
    · exact mem_of_find?_eq_some hrebind

theorem Invariant.rule (hJ : Invariant P hooks J) :
    Rule P hooks (Kept J applied) (fun _ _ => True) fun _ _ _ => True where
  random _ hp := hp.same rfl rfl
  processing _ hp := hp.same rfl rfl
  clear hp := hp.same rfl rfl
  arm hp := hp.same rfl rfl
  noteProbe probe hp := by cases probe <;> exact hp.same rfl rfl
  sealPath {p probe} content hp hspare := by
    refine wp_mono (hJ.sealPath content hp.side hspare) ?_ fun _ _ hnext => ⟨hnext, hp.applied_eq⟩
    rintro wire side ⟨hside, hwrite⟩
    exact ⟨⟨hside, hp.applied_eq⟩, wp_both hwrite fun _ hnext => ⟨hnext, hp.applied_eq⟩⟩
  update hp := wp_both (hJ.update hp.side) fun _ hnext => ⟨hnext, hp.applied_eq⟩
  fail err hp := ⟨hJ.fail err hp.side, hp.applied_eq⟩
  sideStep hp hother := ⟨hJ.step hp.side hother, hp.applied_eq⟩
  send _ _ hp _ _ := hp.same rfl rfl
  known_remote _ := trivial
  known_check _ := trivial
  arrive _ _ _ hp := ⟨hp.same rfl rfl, trivial⟩
  state hp _ := ⟨hp.same rfl rfl, trivial⟩
  credit hp _ _ _ _ := hp.same rfl rfl
  start _ _ hp _ _ _ := hp.same rfl rfl
  basic _ _ hp _ _ _ := hp.same rfl rfl

section Walk

variable (hJ : Invariant P hooks J) (hp : Kept J applied p)

include hJ hp

theorem Invariant.wp_rebind (address : Address) (probe : Bytes) :
    wp (rebindValidatedPath address probe) (fun _ => Kept J applied) (fun _ => Kept J applied)
      p := by
  unfold rebindValidatedPath
  rw [wp_bind, wp_get]
  cases hrebind : rebindConnectionID p.side.cids probe with
  | none => exact hp.same rfl rfl
  | some cid =>
    dsimp only
    rw [wp_bind, onSide, wp_zoom]
    refine wp_mono (hJ.activate hp.side (mem_spares_of_rebind hrebind)) ?_ ?_
    · exact fun _ _ hactive => ⟨hactive, hp.applied_eq⟩
    · exact fun _ _ hfailed => ⟨hfailed, hp.applied_eq⟩

omit hp in
theorem Invariant.orFail {α : Type} {m : PathM α}
    (hm : wp m (fun _ => Kept J applied) (fun _ => Kept J applied) p) :
    Kept J applied (orFail m p) :=
  handle_of_wp (wp_mono hm (fun _ _ hnext => hnext)
    fun err _ hnext => hJ.rule.fail err hnext)

theorem Invariant.finish : Kept J applied (p.finish P) := by
  unfold PathConn.finish
  split
  · exact hp
  · split
    · exact hp.same rfl rfl
    · have htaken : Kept J applied { p with processing := none } := hp.same rfl rfl
      refine hJ.rule.dispatch htaken (fun _ hnext => hnext) ?_
      exact hJ.rule.wp_handle htaken (fun _ _ _ => trivial) (fun _ hnext => hnext)
        fun _ _ _ _ _ _ _ _ => hJ.wp_rebind (hJ.rule.clear htaken) _ _

/-- Every event but a connection-ID message. -/
theorem Invariant.kept_step {event : Event}
    (hevent : ∀ sequence body, event ≠ .newConnectionID sequence body) :
    Kept J applied (p.step P hooks event) := by
  by_cases hfinish : event = .finish
  · subst hfinish
    exact hJ.finish hp
  · exact hJ.rule.step hp hfinish hevent

end Walk

/-! ## The set stays valid -/

/-- The same IDs, under the same limit. -/
structure SamePeerIDs (s next : SendingSide) : Prop where
  config : next.config = s.config
  active : next.cids.sendConnectionID = s.cids.sendConnectionID
  spares : next.cids.peerSpareConnectionIDs = s.cids.peerSpareConnectionIDs
  last : next.cids.lastNewCIDSequence = s.cids.lastNewCIDSequence

instance : SendingSide.CallFrame SamePeerIDs where
  refl _ := ⟨rfl, rfl, rfl, rfl⟩
  trans _ _ _ h₁ h₂ := ⟨h₂.config.trans h₁.config, h₂.active.trans h₁.active,
    h₂.spares.trans h₁.spares, h₂.last.trans h₁.last⟩
  unreceived hsame := ⟨hsame.config, by rw [hsame.cids], by rw [hsame.cids], by rw [hsame.cids]⟩

/-- The IDs are valid, and the messages that were applied came in the order of their
numbers. -/
structure Listed (applied : List (Nat × NewConnectionIDMessage)) (s : SendingSide) : Prop where
  valid : s.cids.Valid s.config.maxConnectionIDs
  increasing : (applied.map Prod.fst).Pairwise (· < ·)
  le_last : ∀ entry ∈ applied, ∃ last, s.cids.lastNewCIDSequence = some last ∧ entry.1 ≤ last

variable {s : SendingSide}

theorem Listed.fewer (hs : Listed applied s) {next : SendingSide} (hconfig : next.config = s.config)
    (hlast : next.cids.lastNewCIDSequence = s.cids.lastNewCIDSequence)
    (hfewer : next.cids.peerIDs.Subperm s.cids.peerIDs) : Listed applied next := by
  refine ⟨?_, hs.increasing, ?_⟩
  · rw [hconfig]
    exact hs.valid.fewer hfewer
  · rw [hlast]
    exact hs.le_last

theorem Listed.same (hs : Listed applied s) {next : SendingSide} (hsame : SamePeerIDs s next) :
    Listed applied next := by
  apply hs.fewer hsame.config hsame.last
  rw [peerIDs, hsame.active, hsame.spares]
  exact List.Subperm.refl _

theorem Listed.keeps {α : Type} {m : SendingM α} (hs : Listed applied s)
    (hm : Keeps SamePeerIDs m) : SendingSide.Holds (Listed applied) m s :=
  wp_both (hm s) fun _ hsame => hs.same hsame

/-- Another ID becomes the active one, unless the ciphers refuse it. -/
theorem Listed.wp_activate (hs : Listed applied s) {cid : Bytes}
    (hvalid : { s.cids with sendConnectionID := cid }.Valid s.config.maxConnectionIDs) :
    SendingSide.Holds (Listed applied) (activatePeerConnectionID cid) s := by
  unfold activatePeerConnectionID
  rw [SendingSide.Holds, wp_bind]
  have hset : Keeps SamePeerIDs (onSender (Sender.setConnectionID cid)) :=
    keeps_onSender _
  refine wp_mono (hset s) ?_ fun _ _ hnamed => hs.same hnamed
  intro _ named hnamed
  rw [wp_modify]
  have hlisted := hs.same hnamed
  refine ⟨?_, hlisted.increasing, hlisted.le_last⟩
  rw [hnamed.config]
  apply hvalid.fewer
  rw [peerIDs, hnamed.spares]
  exact List.Subperm.refl _

theorem Listed.wp_useNextConnectionID (hs : Listed applied s) :
    SendingSide.Holds (Listed applied) useNextConnectionID s := by
  unfold useNextConnectionID
  rw [SendingSide.Holds, wp_bind, wp_get]
  cases hspares : s.cids.peerSpareConnectionIDs with
  | nil => exact hs
  | cons cid spares =>
    have hids : s.cids.peerIDs = s.cids.sendConnectionID :: cid :: spares := by
      rw [peerIDs, hspares]
    have htaken : Listed applied
        { s with cids := { s.cids with peerSpareConnectionIDs := spares } } := by
      refine hs.fewer ?_ ?_ ?_
      · rfl
      · rfl
      rw [hids]
      exact ((sublist_cons_self cid spares).cons_cons _).subperm
    dsimp only
    rw [wp_bind, wp_modify, wp_bind]
    apply wp_requireTraffic (fun _ => htaken)
    intro _
    apply htaken.wp_activate
    apply hs.valid.fewer
    rw [hids]
    exact (sublist_cons_self _ _).subperm

theorem Listed.wp_activateSpare (hs : Listed applied s) {cid : Bytes}
    (hcid : cid ∈ s.cids.peerSpareConnectionIDs) :
    SendingSide.Holds (Listed applied) (activateSpare cid) s := by
  unfold activateSpare
  rw [SendingSide.Holds, wp_bind]
  apply wp_requireTraffic (fun _ => hs)
  intro _
  -- Between the two changes the ID is both active and spare.
  unfold activatePeerConnectionID
  rw [wp_bind, wp_bind]
  have hset : Keeps SamePeerIDs (onSender (Sender.setConnectionID cid)) :=
    keeps_onSender _
  refine wp_mono (hset s) ?_ fun _ _ hnamed => hs.same hnamed
  intro _ named hnamed
  rw [wp_modify, wp_modify]
  have hperm : (cid :: named.cids.peerSpareConnectionIDs.erase cid).Perm
      s.cids.peerSpareConnectionIDs := by
    rw [hnamed.spares]
    exact (perm_cons_erase hcid).symm
  refine hs.fewer ?_ ?_ ?_
  · exact hnamed.config
  · exact hnamed.last
  · exact hperm.subperm.trans (sublist_cons_self _ _).subperm

/-- Only a switch changes the IDs of the peer. -/
theorem samePeerIDs_step {event : SendingSide.Event} (hother : isOwnEvent event = false)
    (hswitch : event ≠ .useNextConnectionID) : SamePeerIDs s (s.step P hooks event) := by
  have hreceiver : ∀ (s : SendingSide) receiver, SamePeerIDs s { s with receiver := receiver } :=
    fun _ _ => ⟨rfl, rfl, rfl, rfl⟩
  cases event with
  | useNextConnectionID => exact absurd rfl hswitch
  | sendNewConnectionIDs connectionIDs immediate registration =>
    exact exec_of_wp (keeps_sendNewConnectionIDs hreceiver _ _ _ s)
  | requestConnectionIDs count =>
    exact exec_of_wp (keeps_requestConnectionIDs
      (fun _ => ⟨rfl, rfl, rfl, rfl⟩) count s)
  | receiveKeyUpdate incomplete sequence body number =>
    exact rel_receiveKeyUpdate
      (fun _ _ => keeps_zoom (fun s receiver => hreceiver s receiver) _) _ _ _ _
  | receiveConnectionIDs cids active => cases hother
  | sendReturnRoutability probe content => cases hother
  | _ => exact rel_step rfl

theorem keeps_sealReturnRoutability (probe : Option Bytes) (content : Bytes) :
    Keeps SamePeerIDs (sealReturnRoutability P probe content) :=
  keeps_bind keeps_get fun _ => keeps_onOutbox _

variable (P hooks) in
theorem listed_invariant : Invariant P hooks (Listed applied) where
  sealPath content hs _ := by
    refine wp_imp (hs.keeps (keeps_sealReturnRoutability _ _)) ?_
    exact fun wire next hnext => ⟨hnext, hnext.keeps (keeps_onOutbox _)⟩
  update hs := hs.keeps keeps_updateAfterSend
  activate hs hcid := hs.wp_activateSpare hcid
  fail _ hs := hs.same ⟨rfl, rfl, rfl, rfl⟩
  step {s event} hs hother := by
    by_cases hswitch : event = .useNextConnectionID
    · subst hswitch
      exact exec_of_wp hs.wp_useNextConnectionID
    · exact hs.same (samePeerIDs_step hother hswitch)

/-! ## Connection-ID messages -/

/-- What the message of an event comes to. -/
def received (p : PathConn) (sequence : Nat) (body : Bytes) :
    Except Err (Option ReceivedConnectionIDs) :=
  p.side.cids.receiveNewConnectionID p.side.config.maxConnectionIDs sequence body

theorem processNewConnectionID_run (sequence : Nat) (body : Bytes) (p : PathConn) :
    (∀ err, p.received sequence body = .error err →
        processNewConnectionID sequence body p = .error err p) ∧
      (p.received sequence body = .ok none → processNewConnectionID sequence body p = .ok () p) ∧
      ∀ outcome, p.received sequence body = .ok (some outcome) →
        processNewConnectionID sequence body p =
          onSide (receiveConnectionIDs outcome.cids outcome.active)
            { p with applied := p.applied ++ [(sequence, outcome.message)] } := by
  have hget : (get : PathM PathConn) p = .ok p p := rfl
  simp only [received, processNewConnectionID, bind, EStateM.bind, hget]
  refine ⟨fun err herr => ?_, fun hnone => ?_, fun outcome hsome => ?_⟩
  · rw [herr]
    rfl
  · rw [hnone]
    rfl
  · rw [hsome]
    rfl

variable {sequence : Nat}

variable (P hooks) in
/-- A message changes nothing, is refused or is applied. -/
theorem newConnectionID_cases (p : PathConn) (sequence : Nat) (body : Bytes) :
    p.step P hooks (.newConnectionID sequence body) = p ∨
      (∃ err, p.step P hooks (.newConnectionID sequence body) = p.failConnection err) ∨
      ∃ outcome, p.received sequence body = .ok (some outcome) ∧
        p.step P hooks (.newConnectionID sequence body) =
          orFail (onSide (receiveConnectionIDs outcome.cids outcome.active))
            { p with applied := p.applied ++ [(sequence, outcome.message)] } := by
  dsimp only [step, dispatch]
  split
  · exact .inl rfl
  · obtain ⟨hrefused, hrepeated, happlied⟩ := processNewConnectionID_run sequence body p
    rcases hreceived : p.received sequence body with err | _ | outcome
    · simp only [orFail, handle, hrefused err hreceived]
      exact .inr (.inl ⟨err, rfl⟩)
    · left
      simp only [orFail, handle, hrepeated hreceived]
    · simp only [orFail, handle, happlied outcome hreceived]
      exact .inr (.inr ⟨outcome, rfl, rfl⟩)

theorem Listed.wp_receive (hs : Listed applied s) {outcome : ReceivedConnectionIDs}
    (happlies : s.cids.Applies s.config.maxConnectionIDs sequence outcome) :
    SendingSide.Holds (Listed (applied ++ [(sequence, outcome.message)]))
      (receiveConnectionIDs outcome.cids outcome.active) s := by
  have hbelow : ∀ entry ∈ applied, entry.1 < sequence := by
    intro entry hentry
    obtain ⟨last, hlast, hle⟩ := hs.le_last entry hentry
    exact hle.trans_lt (happlies.fresh last hlast)
  have hset : Listed (applied ++ [(sequence, outcome.message)])
      { s with cids := outcome.cids } := by
    refine ⟨happlies.valid, ?_, ?_⟩
    · rw [map_append, pairwise_append]
      refine ⟨hs.increasing, pairwise_singleton _ _, fun q hq last hlast => ?_⟩
      obtain ⟨entry, hentry, rfl⟩ := mem_map.mp hq
      rw [mem_singleton.mp hlast]
      exact hbelow entry hentry
    · intro entry hentry
      refine ⟨sequence, happlies.sequence_eq, ?_⟩
      rcases mem_append.mp hentry with hold | hnew
      · exact (hbelow entry hold).le
      · rw [mem_singleton.mp hnew]
  unfold receiveConnectionIDs
  rw [SendingSide.Holds, wp_bind, wp_modify]
  cases hactive : outcome.active with
  | none => exact hset
  | some cid => exact hset.wp_activate (happlies.active_valid cid hactive)

theorem listed_step (hp : Listed p.applied p.side) (event : Event) :
    Listed (p.step P hooks event).applied (p.step P hooks event).side := by
  have hother : (∀ sequence body, event ≠ .newConnectionID sequence body) →
      Listed (p.step P hooks event).applied (p.step P hooks event).side := by
    intro hevent
    have hkept := (listed_invariant P hooks).kept_step ⟨hp, rfl⟩ hevent
    rw [hkept.applied_eq]
    exact hkept.side
  cases event with
  | newConnectionID sequence body =>
    rcases newConnectionID_cases P hooks p sequence body with
      hstep | ⟨err, hstep⟩ | ⟨outcome, hreceived, hstep⟩
    · rwa [hstep]
    · rw [hstep]
      exact hp.same ⟨rfl, rfl, rfl, rfl⟩
    · have hkept : Kept (Listed (p.applied ++ [(sequence, outcome.message)]))
          (p.applied ++ [(sequence, outcome.message)])
          (p.step P hooks (.newConnectionID sequence body)) := by
        rw [hstep]
        refine (listed_invariant P hooks).orFail ?_
        rw [onSide, wp_zoom]
        refine wp_mono (hp.wp_receive (hp.valid.applies hreceived).2) ?_ ?_
        · exact fun _ _ hnext => ⟨hnext, rfl⟩
        · exact fun _ _ hnext => ⟨hnext, rfl⟩
      rw [hkept.applied_eq]
      exact hkept.side
  | arrive | finish | timer | clear | side => exact hother (by rintro _ _ ⟨⟩)

end PathConn

end Dtls13
