import Dtls13.Listener.State

/-! # Routing by connection ID

Every step of a listener keeps its registry valid, so a datagram leads to the only
session one of whose IDs follows the first byte, whichever way it is looked up.
-/

namespace Dtls13

open ByteCodec RunSystem RecordCipher List

namespace Listener

/-- The registry is valid, and so is what `Accept` is about to add to it. -/
structure Routable (l : Listener) : Prop where
  registry : l.registry.Valid
  registering : ∀ session cid, .register session cid ∈ l.tasks → cid.length ≤ 255

variable {l next : Listener}

theorem routable_newListener (config : ListenerConfig) : (newListener config).Routable :=
  ⟨Registry.valid_empty, by simp [newListener]⟩

namespace Routable

section

variable (hl : l.Routable)

include hl

/-- Steps that only drop tasks keep the property with the registry. -/
theorem of_registry (hregistry : next.registry.Valid) (htasks : next.tasks ⊆ l.tasks) :
    next.Routable := ⟨hregistry, fun session cid htask => hl.registering session cid (htasks htask)⟩

theorem of_same (hregistry : next.registry = l.registry) (htasks : next.tasks = l.tasks) :
    next.Routable := hl.of_registry (hregistry ▸ hl.registry) (htasks ▸ List.Subset.refl _)

theorem modifySession (session : SessionId) (f : PacketSession → PacketSession) :
    (l.modifySession session f).Routable := hl.of_same rfl rfl

theorem schedule {task : ListenerTask}
    (htask : ∀ session cid, task = .register session cid → cid.length ≤ 255) :
    (l.schedule task).Routable := by
  refine ⟨hl.registry, fun session cid hmem => ?_⟩
  rcases mem_append.mp hmem with hmem | hmem
  · exact hl.registering session cid hmem
  · exact htask session cid (mem_singleton.mp hmem).symm

theorem closeSession (session : SessionId) : (l.closeSession session).Routable := by
  unfold Listener.closeSession
  split
  · exact hl
  · exact (hl.modifySession session _).schedule (by simp)

theorem arrive (key : Address) (datagram : Bytes) : (l.arrive key datagram).1.Routable := by
  -- arrival admits sessions and touches neither the registry nor the tasks
  have hactive : ∀ initial, (l.activeSession key initial).1.registry = l.registry ∧
      (l.activeSession key initial).1.tasks = l.tasks := by
    intro initial
    unfold activeSession admitSession
    repeat' split
    all_goals exact ⟨rfl, rfl⟩
  have hcandidate : ∀ (opened : Listener) active initial,
      (opened.candidateSession key active initial).1.registry = opened.registry ∧
      (opened.candidateSession key active initial).1.tasks = opened.tasks := by
    intro opened active initial
    unfold candidateSession admitCandidate
    repeat' split
    all_goals exact ⟨rfl, rfl⟩
  unfold Listener.arrive
  split
  · exact hl
  split
  · exact hl
  · exact hl.of_same ((hcandidate _ _ _).1.trans (hactive _).1)
      ((hcandidate _ _ _).2.trans (hactive _).2)

theorem promote (session : SessionId) (key : Address) : (l.promote session key).Routable := by
  have hpromoted : Routable { l.modifySession session (fun p => { p with validated := true }) with
      sessions := l.sessions.insert key session, pending := l.pending.erase key } :=
    hl.of_same rfl rfl
  unfold Listener.promote
  dsimp only
  split
  · split
    · split
      · exact hpromoted.schedule (by simp)
      · exact hpromoted
    · exact hpromoted
  · exact hl.modifySession session _

theorem displace (session : SessionId) (newKey : Address) :
    (l.displace session newKey).Routable := by
  unfold Listener.displace
  split
  · split
    · exact hl.of_registry (hl.registry.removeSession _) (List.Subset.refl _)
    · exact hl
  · exact hl

theorem rebindSession (session : SessionId) (newKey : Address) :
    (l.rebindSession session newKey).Routable := by
  unfold Listener.rebindSession
  split
  · exact hl
  split
  · exact hl
  next p _ _ =>
    dsimp only
    have hleft : Routable (if l.sessions.lookup p.remote = some session
        then { l with sessions := l.sessions.erase p.remote } else l) := by
      split
      · exact hl.of_same rfl rfl
      · exact hl
    apply modifySession
    exact (hleft.displace session newKey).of_same rfl rfl

end

/-- An ID for an accepted session has at most 255 bytes, whether it is configured or
generated. -/
theorem connectionIDFor_le {generated : Except Err (Option Bytes)} {cid : Bytes}
    (hcid : l.connectionIDFor generated = .ok (some cid)) : cid.length ≤ 255 := by
  unfold connectionIDFor at hcid
  split at hcid
  · split at hcid
    · split at hcid
      · exact nomatch hcid
      next hshort =>
        obtain rfl := Option.some.inj (Except.ok.inj hcid)
        exact Nat.not_lt.mp hshort
    next hother => exact absurd hcid (hother cid)
  · exact l.config.connectionID_le cid (Except.ok.inj hcid)

theorem configure (hl : l.Routable) (session : SessionId)
    (generated : Except Err (Option Bytes)) : (l.configure session generated).Routable := by
  unfold Listener.configure
  split
  · exact hl.schedule (by simp)
  · exact hl
  next cid hcid =>
    dsimp only
    split
    · exact hl.modifySession session _
    · apply (hl.modifySession session _).schedule
      intro other registered heq
      obtain ⟨_, rfl⟩ := ListenerTask.register.inj heq
      exact connectionIDFor_le hcid

theorem registerSessionCID (hl : l.Routable) (session : SessionId) {cid : Bytes}
    (hcid : cid.length ≤ 255) : (l.registerSessionCID session cid).Routable := by
  unfold Listener.registerSessionCID
  split
  next registry hregistry =>
    exact hl.of_registry (hl.registry.registerSessionCID hcid hregistry) (List.Subset.refl _)
  · exact hl.schedule (by simp)

theorem proceed (hl : l.Routable) (generated : Except Err (Option Bytes)) {task : ListenerTask}
    (htask : ∀ session cid, task = .register session cid → cid.length ≤ 255) :
    (l.proceed generated task).Routable := by
  cases task with
  | waiting =>
    dsimp only [Listener.proceed]
    split
    · exact hl.schedule (by simp)
    next rest _ =>
      have hrest : Routable { l with accept := rest } := hl.of_same rfl rfl
      exact hrest.schedule (by simp)
  | received session => exact hl.schedule (by intro _ _; split <;> simp)
  | configure session => exact hl.configure session generated
  | register session cid => exact hl.registerSessionCID session (htask session cid rfl)
  | promote session key => exact hl.promote session key
  | close session => exact hl.closeSession session
  | closeWithoutCallback session => exact hl.of_same rfl rfl
  | remove session =>
    exact hl.of_registry (hl.registry.removeSession session) (List.Subset.refl _)

theorem step (hl : l.Routable) (event : ListenerEvent) : (l.step event).Routable := by
  cases event with
  | datagram key datagram => exact hl.arrive key datagram
  | accept =>
    dsimp only [Listener.step]
    split
    · exact hl
    · exact hl.schedule (by simp)
  | registerSessionCIDs session cids =>
    dsimp only [Listener.step, Listener.registerSessionCIDs]
    split
    · split
      next registry hregistry =>
        exact hl.of_registry (hl.registry.registerSessionCIDs hregistry) (List.Subset.refl _)
      · exact hl
    · exact hl
  | unregisterSessionCIDs session cids =>
    exact hl.of_registry (hl.registry.unregisterSessionCIDs session cids) (List.Subset.refl _)
  | validated session =>
    dsimp only [Listener.step]
    split
    · exact hl.schedule (by simp)
    · exact hl
  | rebind session newKey => exact hl.rebindSession session newKey
  | close session =>
    dsimp only [Listener.step]
    split
    · exact hl.closeSession session
    · exact hl
  | shutdown =>
    dsimp only [Listener.step, Listener.shutdown]
    split
    · exact hl
    · refine ⟨Registry.valid_empty, fun session cid hmem => ?_⟩
      rcases mem_append.mp hmem with hmem | hmem
      · exact hl.registering session cid hmem
      · simp at hmem
  | resume index generated =>
    dsimp only [Listener.step]
    split
    next task htask =>
      have herased : Routable { l with tasks := l.tasks.eraseIdx index } :=
        hl.of_registry hl.registry eraseIdx_subset
      apply herased.proceed
      rintro session cid rfl
      exact hl.registering session cid (mem_of_getElem? htask)
    · exact hl

end Routable

/-- In every state that a listener reaches, the registered IDs are non-empty, at most 255
bytes and prefix-free, and the length table is the sorted set of their lengths. For every
datagram, probing the lengths and scanning the map in any order have one result: the only
session one of whose IDs follows the first byte, or none. -/
theorem connectionID_routing (config : ListenerConfig) (events : List ListenerEvent) :
    let r := (run step (newListener config) events).registry
    (∀ cid ∈ r.cidSessions.keys, cid ≠ [] ∧ cid.length ≤ 255) ∧ PrefixFree r.cidSessions.keys ∧
    r.cidLengths.Pairwise (· < ·) ∧
    (∀ length, length ∈ r.cidLengths ↔ ∃ cid ∈ r.cidSessions.keys, cid.length = length) ∧
    ∀ datagram order, order.Perm r.cidSessions.entries →
      r.probeSessionForCID datagram = Registry.scanSessionForCID order datagram ∧
      (∀ session, r.sessionForCID order datagram = some session ↔
        2 ≤ datagram.length ∧ datagram.headD 0 &&& Registry.unifiedHeaderCID ≠ 0 ∧
          ∃ cid, r.cidSessions.lookup cid = some session ∧ cid <+: datagram.tail) ∧
      ∀ cid ∈ r.cidSessions.keys, ∀ other ∈ r.cidSessions.keys,
        cid <+: datagram.tail → other <+: datagram.tail → cid = other := by
  intro r
  have hr : r.Valid := (run_invariant_all (fun (l : Listener) event (hl : l.Routable) =>
    hl.step event) (routable_newListener config) events).registry
  refine ⟨fun cid hcid => ⟨hr.nonempty cid hcid, hr.bounded cid hcid⟩, hr.prefixFree, hr.sorted,
    hr.lengths, fun datagram order horder => ⟨hr.probe_eq_scan horder datagram, ?_, ?_⟩⟩
  · intro session
    rw [← (hr.lookups horder datagram session).1]
    by_cases hlong : 2 ≤ datagram.length ∧ datagram.headD 0 &&& Registry.unifiedHeaderCID ≠ 0
    · rw [hr.sessionForCID_of_long horder hlong]
      exact ⟨fun hfound => ⟨hlong.1, hlong.2, hfound⟩, fun hfound => hfound.2.2⟩
    · rw [Registry.sessionForCID_of_short hlong]
      exact ⟨nofun, fun hfound => absurd ⟨hfound.1, hfound.2.1⟩ hlong⟩
  · intro cid hcid other hother hfront hotherFront
    exact (prefixFree_iff.mp hr.prefixFree).unique hcid hother hfront hotherFront

theorem connectionID_routing_accepted :
    let r := (run step (newListener sampleConfig) ([.datagram "a" sampleClientHello,
      .datagram "b" sampleClientHello] ++ acceptSession [7] ++ acceptSession [8, 9])).registry
    r.cidLengths = [1, 2] ∧ r.cidScan = true ∧ r.probeSessionForCID [0x30, 8, 9, 1] =
        Registry.scanSessionForCID r.cidSessions.entries.reverse [0x30, 8, 9, 1] := by
  intro r
  have hr := connectionID_routing sampleConfig ([.datagram "a" sampleClientHello,
    .datagram "b" sampleClientHello] ++ acceptSession [7] ++ acceptSession [8, 9])
  exact ⟨by decide +kernel, by decide +kernel,
    (hr.2.2.2.2 [0x30, 8, 9, 1] _ (List.reverse_perm _)).1⟩

end Listener

end Dtls13
