import Dtls13.Path.ReturnRoutability

/-! # Invariants of a connection that can move

A step changes the path in a few ways: a message is sealed, written and counted, a check
is begun, goes on with the new path or ends, a record is counted. A predicate that each
change keeps is kept by every step, wherever one of them fails. What a validated path
does to it is left to the predicate.
-/

namespace Dtls13

open ByteCodec StateLogic CipherStore ReturnRoutabilityMessage SendingSide

namespace PathConn

variable {P : Primitives} {hooks : AuthHooks} {p : PathConn}

/-- A sealed path message is as long as was expected. -/
theorem wp_sealReturnRoutability_length (probe : Option Bytes) (content : Bytes) (s : SendingSide) :
    wp (sealReturnRoutability P probe content)
      (fun wire _ => wire.packet.length = { s.sender.cipher with
          connectionID := probe.getD s.sender.cipher.connectionID }.headerLen16 +
          s.sender.cipher.suite.overhead + 1 + content.length)
      (fun _ _ => True) s := by
  unfold sealReturnRoutability onOutbox Outbox.onStore
  rw [wp_bind, wp_get, wp_zoom, wp_zoom]
  cases probe with
  | none =>
    apply wp_sealRecord P
    · exact fun _ _ => RecordCipher.protect_packet_length _ _
    · exact fun _ _ => trivial
  | some cid =>
    refine Outbound.wp_sealProbe ?_
    apply wp_sealRecord P
    · intro href _
      rw [CipherStore.rename, write_length] at href
      rw [CipherStore.rename, read_write href]
      exact RecordCipher.protect_packet_length _ _
    · exact fun _ _ => trivial

theorem mem_spares_of_probe {address : Address} {typ : ReturnRoutabilityType} {cid : Bytes}
    (hprobe : p.probeConnectionID address typ = some cid) :
    cid ∈ p.side.cids.peerSpareConnectionIDs := by
  unfold probeConnectionID at hprobe
  split at hprobe
  · cases hprobe
  · split at hprobe
    · exact List.mem_of_mem_head? hprobe
    · cases hprobe

/-- An announcement of the peer changes the sending side and the list of what was applied. -/
theorem wp_processNewConnectionID {I : PathConn → Prop}
    (hI : ∀ side applied, I { p with side := side, applied := applied }) (sequence : Nat)
    (body : Bytes) : wp (processNewConnectionID sequence body) (fun _ => I) (fun _ => I) p := by
  have hp : I p := hI p.side p.applied
  unfold processNewConnectionID
  rw [wp_bind, wp_get, wp_bind, wp_ofExcept]
  refine ⟨fun outcome _ => ?_, fun _ _ => hp⟩
  cases outcome with
  | none => exact hp
  | some outcome =>
    dsimp only
    rw [wp_bind, wp_modify, onSide, wp_zoom]
    exact wp_of_forall (fun _ side => hI side _) fun _ side => hI side _

/-- A predicate that each change keeps. Path messages go to the addresses that are `known`,
and a record is observed once it is `counted`. -/
structure Rule (P : Primitives) (hooks : AuthHooks) (I : PathConn → Prop)
    (known : PathConn → Address → Prop) (counted : PathConn → Address → Nat → Prop) : Prop where
  random : ∀ {p} (random : List (Option PathCookie)), I p → I { p with random := random }
  processing : ∀ {p} (record : Option ArrivedRecord), I p → I { p with processing := record }
  clear : ∀ {p}, I p → I p.clearReturnRoutability
  arm : ∀ {p}, I p → I p.armReturnRoutabilityTimer
  noteProbe : ∀ {p} (probe : Option Bytes), I p → I (noteProbe probe p)
  sealPath : ∀ {p : PathConn} {probe : Option Bytes} (content : Bytes), I p →
    (∀ cid, probe = some cid → cid ∈ p.side.cids.peerSpareConnectionIDs) →
    wp (sealReturnRoutability P probe content)
      (fun wire side => I { p with side := side } ∧
        SendingSide.Holds (fun s => I { p with side := s }) (writeRecord wire) side)
      (fun _ side => I { p with side := side }) p.side
  update : ∀ {p : PathConn}, I p →
    SendingSide.Holds (fun s => I { p with side := s }) (updateAfterSend P) p.side
  fail : ∀ {p} (err : Err), I p → I (p.failConnection err)
  sideStep : ∀ {p} {event : SendingSide.Event}, I p → isOwnEvent event = false →
    I { p with side := p.side.step P hooks event }
  send : ∀ {p : PathConn} {address : Address} {size : Nat} (probe : Option Bytes)
    (side : SendingSide), I { PathConn.noteProbe probe p with side := side } →
    p.allowReturnRoutabilitySend address size = true → known p address →
    I (recordReturnRoutabilitySend address size { PathConn.noteProbe probe p with side := side })
  known_remote : ∀ p, known p p.remote
  known_check : ∀ {p check state address}, state.Candidate address →
    known (withCheck check state address p) address
  arrive : ∀ {p : PathConn} (source : Address) (length : Nat) (content : Option Bytes), I p →
    I (p.countArrival source length content) ∧
      counted (p.countArrival source length content) source length
  state : ∀ {p source received}, I p → counted p source received →
    I (withState (p.returnRoutability.getD .initial) p) ∧
      counted (withState (p.returnRoutability.getD .initial) p) source received
  credit : ∀ {p state source received}, I p → counted p source received → source ≠ p.remote →
    p.returnRoutability = some state → state.newAddress = some source →
    I (withState { state with received := addSaturated state.received received } p)
  start : ∀ {p state source received} (random : List (Option PathCookie)) (cookie : PathCookie),
    I p → counted p source received → source ≠ p.remote → p.returnRoutability = some state →
    I (withCheck (p.checks + 1) (state.beginCheck cookie p.remote source received) p.remote
      { p with random := random })
  basic : ∀ {p state address} (random : List (Option PathCookie)) (cookie : PathCookie), I p →
    p.returnRoutability = some state → state.phase ≠ .idle → state.newAddress = some address →
    I (withCheck p.checks { state with cookie := cookie, phase := .checkingNewPath } address
      { p with random := random })

namespace Rule

variable {I T : PathConn → Prop} {known : PathConn → Address → Prop}
  {counted : PathConn → Address → Nat → Prop} (hI : Rule P hooks I known counted) (hp : I p)

include hI hp

theorem wp_send {address : Address} (hknown : known p address) (typ : ReturnRoutabilityType)
    (cookie : PathCookie) :
    wp (sendReturnRoutability P address typ cookie) (fun _ => I) (fun _ => I) p := by
  unfold sendReturnRoutability
  rw [wp_bind, wp_get]
  refine wp_guard hp fun _ => ?_
  rw [wp_bind, wp_modify, wp_ite]
  have hnoted := hI.noteProbe (p.probeConnectionID address typ) hp
  refine ⟨fun _ => hnoted, fun hallowed => ?_⟩
  rw [Bool.not_eq_true, Bool.not_eq_false'] at hallowed
  have hside : (PathConn.noteProbe (p.probeConnectionID address typ) p).side = p.side := by
    cases p.probeConnectionID address typ <;> rfl
  rw [wp_bind, onSide, wp_zoom]
  refine wp_mono (wp_and (hI.sealPath _ hnoted fun cid hprobe => ?_)
    (wp_sealReturnRoutability_length _ _ _)) ?_ fun _ _ hfailed => hfailed.1
  · rw [hside]
    exact mem_spares_of_probe hprobe
  rintro wire side ⟨⟨hsealed, hwrite⟩, hlength⟩
  rw [marshal_length, hside] at hlength
  rw [wp_bind, writeRecordTo, wp_bind, wp_get, wp_ite]
  refine ⟨fun _ => ?_, fun _ => hsealed⟩
  rw [onSide, wp_zoom]
  refine wp_imp hwrite ?_
  intro _ written hwritten
  rw [wp_bind, wp_modify, hlength, onSide, wp_zoom]
  -- The record counts before an update that is due is begun.
  exact hI.update (hI.send _ written hwritten hallowed hknown)

/-- Sends a challenge and arms the timer; a failure ends the check. -/
theorem wp_challenge {address : Address} (hknown : known p address) (cookie : PathCookie) : wp (do
        orClear (sendReturnRoutability P address .pathChallenge cookie)
        modify armReturnRoutabilityTimer)
      (fun _ => I) (fun _ => I) p := by
  rw [wp_bind, orClear, wp_recover]
  refine wp_mono (hI.wp_send hp hknown _ _) ?_ ?_
  · exact fun _ _ hsent => hI.arm hsent
  · exact fun _ _ hfailed => hI.clear hfailed

theorem wp_startBasic : wp (startBasicReturnRoutability P) (fun _ => I) (fun _ => I) p := by
  unfold startBasicReturnRoutability
  rw [wp_bind, wp_get]
  cases hstate : p.returnRoutability with
  | none => exact hp
  | some state =>
    dsimp only
    cases hnew : state.newAddress with
    | none => exact hp
    | some address =>
      dsimp only
      refine wp_guard hp fun hactive => ?_
      rw [wp_bind, orClear, wp_recover, drawCookie, wp_bind, wp_get, wp_bind, wp_modify]
      split
      next cookie _ =>
        rw [wp_pure, wp_bind, wp_modify]
        have hcheck := hI.basic p.random.tail cookie hp hstate hactive hnew
        rw [hnew] at hcheck
        exact hI.wp_challenge hcheck (hI.known_check ⟨nofun, rfl⟩) cookie
      next => exact hI.clear (hI.random _ hp)

theorem wp_observe {source : Address} {received : Nat} (hcounted : counted p source received) :
    wp (observeReturnRoutabilityRecord P source received) (fun _ => I) (fun _ => I) p := by
  unfold observeReturnRoutabilityRecord
  rw [wp_bind, wp_get]
  refine wp_guard hp fun hobserved => ?_
  have hother : source ≠ p.remote := by
    rintro rfl
    simp at hobserved
  obtain ⟨hstate, hcounted⟩ := hI.state hp hcounted
  rw [wp_bind, wp_modify, wp_ite]
  refine ⟨fun _ => ?_, fun _ => ?_⟩
  · rw [wp_ite]
    refine ⟨fun hcandidate => ?_, fun _ => hstate⟩
    exact hI.credit hstate hcounted hother rfl hcandidate
  · rw [wp_bind, drawCookie, wp_bind, wp_get, wp_bind, wp_modify]
    split
    next cookie _ =>
      rw [wp_pure, wp_bind, wp_modify]
      exact hI.wp_challenge (hI.start p.random.tail cookie hstate hcounted hother rfl)
        (hI.known_remote _) cookie
    next => exact hI.random _ hstate

theorem wp_timerExpired (generation : UInt64) :
    wp (returnRoutabilityTimerExpired P generation) (fun _ => I) (fun _ => I) p := by
  unfold returnRoutabilityTimerExpired
  rw [wp_bind, wp_get]
  split
  · exact hp
  · rw [wp_ite]
    refine ⟨fun _ => hp, fun _ => ?_⟩
    split
    · exact hp
    · exact hI.wp_startBasic hp
    · exact hI.clear hp

/-- `T` is what holds after a path that is validated, or otherwise. -/
theorem wp_handle {content : Bytes} {source : Address}
    (hknown : ∀ message, parseReturnRoutabilityMessage content =
      .ok (some message) → message.typ = .pathChallenge → known p source)
    (hIT : ∀ q, I q → T q) (hrebind : ∀ message state, parseReturnRoutabilityMessage content =
      .ok (some message) → message.typ = .pathResponse → p.returnRoutability = some state →
      state.phase = .checkingNewPath → state.newAddress = some source →
      message.cookie = state.cookie →
      wp (rebindValidatedPath source state.probeConnectionID) (fun _ => T) (fun _ => I)
        p.clearReturnRoutability) :
    wp (handleReturnRoutability P content source) (fun _ => T) (fun _ => I) p := by
  unfold handleReturnRoutability
  rw [wp_bind, wp_get]
  refine wp_guard (hIT p hp) fun _ => ?_
  split
  · exact hIT p hp
  · exact hIT p hp
  next message hparse =>
    rw [wp_ite]
    refine ⟨fun hchallenge => ?_, fun _ => ?_⟩
    · exact wp_imp (hI.wp_send hp (hknown message hparse hchallenge) _ _) fun _ => hIT
    cases hstate : p.returnRoutability with
    | none => exact hIT p hp
    | some state =>
      dsimp only
      unfold handlePathAnswer
      split
      · exact hIT p hp
      · rw [wp_ite]
        refine ⟨fun _ => ?_, fun _ => hIT p hp⟩
        split
        · exact hIT _ (hI.clear hp)
        · exact wp_imp (hI.wp_startBasic hp) fun _ => hIT
        · exact hIT p hp
      next hphase =>
        rw [wp_ite]
        refine ⟨?_, fun _ => hIT p hp⟩
        rintro ⟨htyp, hnew, hcookie⟩
        rw [wp_bind, wp_modify]
        exact hrebind message state hparse htyp hstate hphase hnew hcookie

/-! ## Whole steps -/

omit hp in
theorem dispatch {m : PathM Unit} (hp : T p) (hIT : ∀ q, I q → T q)
    (hm : wp m (fun _ => T) (fun _ => I) p) : T (dispatch m p) := by
  unfold PathConn.dispatch
  split
  · exact hp
  · exact handle_of_wp (wp_mono hm (fun _ _ hnext => hnext)
      fun err _ hnext => hIT _ (hI.fail err hnext))

/-- Every event but the handling of a path message and a connection-ID message. -/
theorem step {event : Event} (hfinish : event ≠ .finish)
    (hevent : ∀ sequence body, event ≠ .newConnectionID sequence body) :
    I (p.step P hooks event) := by
  cases event with
  | arrive source length named content =>
    dsimp only [PathConn.step]
    split
    · exact hp
    · obtain ⟨harrived, hcounted⟩ := hI.arrive source length content hp
      unfold PathConn.arrive
      dsimp only
      split
      · exact handle_of_wp (wp_mono (hI.wp_observe harrived hcounted) (fun _ _ hnext => hnext)
          fun err _ hnext => hI.processing none (hI.fail err hnext))
      · exact harrived
  | finish => exact absurd rfl hfinish
  | timer generation =>
    exact handle_of_wp (wp_mono (hI.wp_timerExpired hp generation) (fun _ _ hnext => hnext)
      fun err _ hnext => hI.fail err hnext)
  | clear => exact hI.clear hp
  | newConnectionID sequence body => exact absurd rfl (hevent sequence body)
  | side event =>
    dsimp only [PathConn.step, PathConn.sideStep]
    split
    · exact hp
    next hother =>
      have hstepped := hI.sideStep hp (Bool.eq_false_iff.mpr hother)
      split
      · exact hI.clear hstepped
      · exact hstepped

end Rule

end PathConn

end Dtls13
