import Dtls13.Path.Rule

/-! # When a connection moves

The address of the peer changes only when the new path answers the challenge it was sent
in the active check. The histories say for what each cookie was drawn, and which checks
have moved the connection.
-/

namespace Dtls13

open ByteCodec StateLogic RunSystem List

/-- What decides whether an answer counts. -/
def ReturnRoutabilityState.stage (state : ReturnRoutabilityState) :
    ReturnRoutabilityPhase × Option Address × Option Address × PathCookie :=
  (state.phase, state.oldAddress, state.newAddress, state.cookie)

namespace PathConn

variable {P : Primitives} {hooks : AuthHooks} {p next : PathConn}

/-! ## What leaves a check as it is -/

/-- The same address and the same check. -/
structure SameCheck (p next : PathConn) : Prop where
  remote : next.remote = p.remote
  checks : next.checks = p.checks
  draws : next.draws = p.draws
  rebinds : next.rebinds = p.rebinds
  stage : next.returnRoutability.map (·.stage) = p.returnRoutability.map (·.stage)

instance : Std.Refl SameCheck := ⟨fun _ => ⟨rfl, rfl, rfl, rfl, rfl⟩⟩

instance : IsTrans PathConn SameCheck where
  trans _ _ _ h₁ h₂ := ⟨h₂.remote.trans h₁.remote, h₂.checks.trans h₁.checks,
    h₂.draws.trans h₁.draws, h₂.rebinds.trans h₁.rebinds, h₂.stage.trans h₁.stage⟩

theorem sameCheck_side (p : PathConn) (side : SendingSide) : SameCheck p { p with side := side } :=
  ⟨rfl, rfl, rfl, rfl, rfl⟩

theorem sameCheck_noteProbe (probe : Option Bytes) (p : PathConn) :
    SameCheck p (noteProbe probe p) := by
  cases probe with
  | none => exact Std.Refl.refl p
  | some cid =>
    refine ⟨rfl, rfl, rfl, rfl, ?_⟩
    rw [noteProbe, Option.map_map]
    rfl

theorem sameCheck_recordSend (address : Address) (size : Nat) (p : PathConn) :
    SameCheck p (recordReturnRoutabilitySend address size p) := by
  refine ⟨rfl, rfl, rfl, rfl, ?_⟩
  rw [recordReturnRoutabilitySend, Option.map_map]
  congr 1
  ext1 state
  dsimp only [Function.comp_apply]
  split <;> rfl

theorem sameCheck_arm (p : PathConn) : SameCheck p p.armReturnRoutabilityTimer := by
  refine ⟨rfl, rfl, rfl, rfl, ?_⟩
  rw [armReturnRoutabilityTimer, Option.map_map]
  rfl

/-! ## What the histories say -/

/-- The last cookie drawn is that of the active check, which has not moved the connection
yet; no check has moved it twice. -/
structure Traced (p : PathConn) : Prop where
  drawn : ∀ state, p.returnRoutability = some state → state.phase ≠ .idle →
    ∃ address, p.draws.getLast? = some ⟨p.checks, state.phase, address, state.cookie⟩ ∧
      (state.phase = .checkingNewPath → state.newAddress = some address)
  unmoved : ∀ state, p.returnRoutability = some state → state.phase ≠ .idle →
    ∀ rebind ∈ p.rebinds, rebind.1 < p.checks
  rebinds_le : ∀ rebind ∈ p.rebinds, rebind.1 ≤ p.checks
  nodup : (p.rebinds.map Prod.fst).Nodup

theorem Traced.same (htraced : Traced p) (hsame : SameCheck p next) : Traced next := by
  have hstage : ∀ state', next.returnRoutability = some state' →
      ∃ state, p.returnRoutability = some state ∧ state'.stage = state.stage := by
    intro state' hstate'
    have hmap := hsame.stage
    rw [hstate', Option.map_some, eq_comm, Option.map_eq_some_iff] at hmap
    obtain ⟨state, hstate, heq⟩ := hmap
    exact ⟨state, hstate, heq.symm⟩
  refine ⟨?_, ?_, ?_, ?_⟩
  · intro state' hstate' hactive
    obtain ⟨state, hstate, heq⟩ := hstage state' hstate'
    obtain ⟨hphase, -, hnew, hcookie⟩ : state'.phase = state.phase ∧
        state'.oldAddress = state.oldAddress ∧ state'.newAddress = state.newAddress ∧
        state'.cookie = state.cookie := by
      simpa [ReturnRoutabilityState.stage] using heq
    rw [hphase] at hactive
    rw [hsame.draws, hsame.checks, hphase, hnew, hcookie]
    exact htraced.drawn state hstate hactive
  · intro state' hstate' hactive
    obtain ⟨state, hstate, heq⟩ := hstage state' hstate'
    have hphase : state'.phase = state.phase := congrArg Prod.fst heq
    rw [hsame.rebinds, hsame.checks]
    exact htraced.unmoved state hstate (hphase ▸ hactive)
  · rw [hsame.rebinds, hsame.checks]
    exact htraced.rebinds_le
  · rw [hsame.rebinds]
    exact htraced.nodup

theorem traced_clear (htraced : Traced p) : Traced p.clearReturnRoutability := by
  have hidle : ∀ state, p.clearReturnRoutability.returnRoutability = some state →
      state.phase = .idle := by
    intro state hstate
    obtain ⟨before, -, rfl⟩ := Option.map_eq_some_iff.mp hstate
    rfl
  exact ⟨fun state hstate hactive => absurd (hidle state hstate) hactive,
    fun state hstate hactive => absurd (hidle state hstate) hactive,
    htraced.rebinds_le, htraced.nodup⟩

/-- A cookie for the next challenge, which is that of a check that has not moved the
connection. -/
theorem traced_withCheck (htraced : Traced p) (check : Nat) (state : ReturnRoutabilityState)
    (address : Address) (hunmoved : ∀ rebind ∈ p.rebinds, rebind.1 < check)
    (haddress : state.phase = .checkingNewPath → state.newAddress = some address) :
    Traced (withCheck check state address p) where
  drawn other hother _ := by
    obtain rfl : state = other := Option.some.inj hother
    exact ⟨address, List.getLast?_concat, haddress⟩
  unmoved _ _ _ := hunmoved
  rebinds_le rebind hrebind := (hunmoved rebind hrebind).le
  nodup := htraced.nodup

/-- The histories stay right, and the connection where it is. -/
structure Stays (p next : PathConn) : Prop where
  traced : Traced next
  remote : next.remote = p.remote
  rebinds : next.rebinds = p.rebinds

theorem Stays.trans {middle : PathConn} (hfirst : Stays p middle) (hsecond : Stays middle next) :
    Stays p next :=
  ⟨hsecond.traced, hsecond.remote.trans hfirst.remote, hsecond.rebinds.trans hfirst.rebinds⟩

theorem Stays.same (htraced : Traced p) (hsame : SameCheck p next) : Stays p next :=
  ⟨htraced.same hsame, hsame.remote, hsame.rebinds⟩

theorem stays_clear (htraced : Traced p) : Stays p p.clearReturnRoutability :=
  ⟨traced_clear htraced, rfl, rfl⟩

theorem Stays.andSame {middle : PathConn} (hstays : Stays p middle)
    (hsame : SameCheck middle next) : Stays p next := hstays.trans (.same hstays.traced hsame)

variable (P hooks) in
theorem stays_rule (p : PathConn) : Rule P hooks (Stays p) (fun _ _ => True) fun _ _ _ => True where
  random _ hstays := hstays.andSame ⟨rfl, rfl, rfl, rfl, rfl⟩
  processing _ hstays := hstays.andSame ⟨rfl, rfl, rfl, rfl, rfl⟩
  clear hstays := hstays.trans (stays_clear hstays.traced)
  arm hstays := hstays.andSame (sameCheck_arm _)
  noteProbe probe hstays := hstays.andSame (sameCheck_noteProbe probe _)
  sealPath {q probe} _ hstays _ := by
    have hside : ∀ side, Stays p { q with side := side } := fun side =>
      hstays.andSame (sameCheck_side q side)
    exact wp_of_forall (fun _ side => ⟨hside side, wp_of_forall (fun _ => hside) fun _ => hside⟩)
      fun _ => hside
  update hstays := wp_of_forall (fun _ side => hstays.andSame (sameCheck_side _ side))
    fun _ side => hstays.andSame (sameCheck_side _ side)
  fail _ hstays := hstays.andSame (sameCheck_side _ _)
  sideStep hstays _ := hstays.andSame (sameCheck_side _ _)
  send _ _ hstays _ _ := hstays.andSame (sameCheck_recordSend _ _ _)
  known_remote _ := trivial
  known_check _ := trivial
  arrive _ _ _ hstays := ⟨hstays.andSame ⟨rfl, rfl, rfl, rfl, rfl⟩, trivial⟩
  state {q _ _} hstays _ := by
    refine ⟨?_, trivial⟩
    cases hcheck : q.returnRoutability with
    | some state => exact hstays.andSame ⟨rfl, rfl, rfl, rfl, by rw [hcheck]; rfl⟩
    | none =>
      -- A check that was never begun is idle, and stays so.
      have hidle : ∀ state, (withState .initial q).returnRoutability = some state →
          state.phase = .idle := fun state hstate => Option.some.inj hstate ▸ rfl
      exact ⟨⟨fun state hstate hactive => absurd (hidle state hstate) hactive,
        fun state hstate hactive => absurd (hidle state hstate) hactive,
        hstays.traced.rebinds_le, hstays.traced.nodup⟩, hstays.remote, hstays.rebinds⟩
  credit hstays _ _ hstate _ := hstays.andSame ⟨rfl, rfl, rfl, rfl, by rw [hstate]; rfl⟩
  start {q state source received} random cookie hstays _ _ _ := by
    have hdrawn : Stays p { q with random := random } := hstays.andSame ⟨rfl, rfl, rfl, rfl, rfl⟩
    refine ⟨traced_withCheck hdrawn.traced _ _ _ (fun rebind hrebind => ?_) nofun, hstays.remote,
      hstays.rebinds⟩
    exact Nat.lt_succ_of_le (hstays.traced.rebinds_le rebind hrebind)
  basic {q state address} random cookie hstays hstate hactive hnew := by
    have hdrawn : Stays p { q with random := random } := hstays.andSame ⟨rfl, rfl, rfl, rfl, rfl⟩
    exact ⟨traced_withCheck hdrawn.traced _ _ _ (hstays.traced.unmoved state hstate hactive)
      fun _ => hnew, hstays.remote, hstays.rebinds⟩

/-! ## What moves a connection -/

/-- The record is the answer of the new path to the challenge of the active check: it
carries the cookie that was drawn last, in this check and for this address. -/
structure AnswersChallenge (p : PathConn) (record : ArrivedRecord)
    (message : ReturnRoutabilityMessage) : Prop where
  content : ∃ content, record.content = some content ∧
    ReturnRoutabilityMessage.parseReturnRoutabilityMessage content = .ok (some message)
  response : message.typ = .pathResponse
  active : ∃ state, p.returnRoutability = some state ∧ state.phase = .checkingNewPath ∧
    state.newAddress = some record.source ∧ state.cookie = message.cookie
  drawn : p.draws.getLast? = some ⟨p.checks, .checkingNewPath, record.source, message.cookie⟩

/-- The connection moves to the address that sent the answer. -/
structure Moves (p next : PathConn) (address : Address) : Prop where
  traced : Traced next
  remote : next.remote = address
  rebinds : next.rebinds = p.rebinds ++ [(p.checks, address)]

theorem Traced.wp_rebind (htraced : Traced p) {state : ReturnRoutabilityState}
    (hstate : p.returnRoutability = some state) (hactive : state.phase ≠ .idle)
    (address : Address) (probe : Bytes) :
    wp (rebindValidatedPath address probe) (fun _ next => Moves p next address)
      (fun _ => Stays p) p.clearReturnRoutability := by
  have hcleared := stays_clear htraced
  have hmoves : ∀ side, Moves p { p.clearReturnRoutability with
      side := side, remote := address, rebinds := p.rebinds ++ [(p.checks, address)] } address := by
    intro side
    refine ⟨⟨hcleared.traced.drawn, fun other hother hphase => ?_, ?_, ?_⟩, rfl, rfl⟩
    · obtain ⟨before, -, rfl⟩ := Option.map_eq_some_iff.mp hother
      exact absurd rfl hphase
    · intro rebind hrebind
      rcases mem_append.mp hrebind with hold | hnew
      · exact htraced.rebinds_le rebind hold
      · rw [mem_singleton.mp hnew]
        exact le_rfl
    · rw [map_append, nodup_append]
      refine ⟨htraced.nodup, nodup_singleton _, fun check hcheck last hlast => ?_⟩
      obtain ⟨rebind, hrebind, rfl⟩ := mem_map.mp hcheck
      rw [mem_singleton.mp hlast]
      exact (htraced.unmoved state hstate hactive rebind hrebind).ne
  unfold rebindValidatedPath
  rw [wp_bind, wp_get]
  split
  · exact hmoves p.side
  · rw [wp_bind, onSide, wp_zoom]
    unfold wp
    split
    · exact hmoves _
    · exact hcleared.trans (.same hcleared.traced (sameCheck_side _ _))

theorem Traced.wp_handle (htraced : Traced p) {record : ArrivedRecord} {content : Bytes}
    (hcontent : record.content = some content) :
    wp (handleReturnRoutability P content record.source)
      (fun _ next => Stays p next ∨
        ∃ message, AnswersChallenge p record message ∧ Moves p next record.source)
      (fun _ => Stays p) p := by
  refine (stays_rule P anonymousAuth p).wp_handle (.same htraced (Std.Refl.refl p))
    (fun _ _ _ => trivial) (fun _ => .inl) ?_
  intro message state hparse htyp hstate hphase hnew hcookie
  have hactive : state.phase ≠ .idle := by simp [hphase]
  obtain ⟨address, hdrawn, haddress⟩ := htraced.drawn state hstate hactive
  obtain rfl := Option.some.inj (hnew.symm.trans (haddress hphase))
  rw [hphase, ← hcookie] at hdrawn
  refine wp_imp (htraced.wp_rebind hstate hactive _ _) ?_
  intro _ next hmoves
  exact .inr ⟨message, ⟨⟨content, hcontent, hparse⟩, htyp,
    ⟨state, hstate, hphase, hnew, hcookie.symm⟩, hdrawn⟩, hmoves⟩

/-! ## Whole steps -/

theorem Traced.finish (htraced : Traced p) :
    Stays p (p.finish P) ∨ ∃ record message, p.processing = some record ∧
      AnswersChallenge p record message ∧ Moves p (p.finish P) record.source := by
  unfold PathConn.finish
  cases hrecord : p.processing with
  | none => exact .inl (.same htraced (Std.Refl.refl p))
  | some record =>
    have htaken : Stays p { p with processing := none } :=
      .same htraced ⟨rfl, rfl, rfl, rfl, rfl⟩
    dsimp only
    cases hcontent : record.content with
    | none => exact .inl htaken
    | some content =>
      rcases (stays_rule P anonymousAuth { p with processing := none }).dispatch
        (.inl (.same htaken.traced (Std.Refl.refl _))) (fun _ => .inl)
        (htaken.traced.wp_handle hcontent) with hstays | ⟨message, hanswers, hmoves⟩
      · exact .inl (htaken.trans hstays)
      · exact .inr ⟨record, message, rfl,
          ⟨hanswers.content, hanswers.response, hanswers.active, hanswers.drawn⟩,
          ⟨hmoves.traced, hmoves.remote, hmoves.rebinds⟩⟩

/-- The connection stays where it is, or the event is the handling of an answer to the
challenge of the new path. -/
theorem Traced.step (htraced : Traced p) (event : Event) :
    Stays p (p.step P hooks event) ∨ event = .finish ∧ ∃ record message,
      p.processing = some record ∧ AnswersChallenge p record message ∧
        Moves p (p.step P hooks event) record.source := by
  have hsame : Stays p p := .same htraced (Std.Refl.refl p)
  cases event with
  | finish => exact htraced.finish.imp_right fun hmoved => ⟨rfl, hmoved⟩
  | newConnectionID sequence body =>
    exact .inl ((stays_rule P hooks p).dispatch hsame (fun _ hnext => hnext)
      (wp_processNewConnectionID (fun _ _ => .same htraced ⟨rfl, rfl, rfl, rfl, rfl⟩)
        sequence body))
  | arrive | timer | clear | side => exact .inl ((stays_rule P hooks p).step hsame nofun nofun)

theorem traced_start (side : SendingSide) (negotiated routable : Bool) (remote : Address)
    (random : List (Option PathCookie)) : Traced (start side negotiated routable remote random) :=
  ⟨nofun, nofun, nofun, nodup_nil⟩

theorem Traced.run (htraced : Traced p) (events : List Event) :
    Traced (RunSystem.run (PathConn.step P hooks) p events) := by
  refine run_invariant_all (fun (q : PathConn) event hq => ?_) htraced events
  rcases hq.step event with hstays | ⟨-, record, message, -, -, hmoves⟩
  · exact hstays.traced
  · exact hmoves.traced

/-- In a history without repetition, a cookie belongs to one draw. -/
theorem eq_of_cookie {draws : List PathDraw} (hnodup : (draws.map (·.cookie)).Nodup)
    {draw other : PathDraw} (hdraw : draw ∈ draws) (hother : other ∈ draws)
    (hcookie : draw.cookie = other.cookie) : draw = other :=
  inj_on_of_nodup_map hnodup hdraw hother hcookie

/-- Whatever happens, the address of the peer changes only when a record from the new
address is handled that answers the challenge sent there in the active check. If no
cookie was drawn twice, the cookie of the answer was drawn for nothing else. No check
moves the connection twice. -/
theorem rebinding_validated (P : Primitives) (hooks : AuthHooks) (side : SendingSide)
    (negotiated routable : Bool) (remote : Address) (random : List (Option PathCookie))
    (events : List Event) (event : Event) :
    let p := run (step P hooks) (start side negotiated routable remote random) events
    let next := p.step P hooks event
    (next.remote ≠ p.remote →
      event = .finish ∧ next.rebinds = p.rebinds ++ [(p.checks, next.remote)] ∧
      ∃ record message, p.processing = some record ∧ next.remote = record.source ∧
        AnswersChallenge p record message ∧
        ((p.draws.map (·.cookie)).Nodup → ∀ draw ∈ p.draws, draw.cookie = message.cookie →
          draw = ⟨p.checks, .checkingNewPath, record.source, message.cookie⟩)) ∧
    (next.rebinds.map Prod.fst).Nodup := by
  intro p next
  have htraced : Traced p := (traced_start side negotiated routable remote random).run events
  have hstep : Stays p next ∨ event = .finish ∧ ∃ record message, p.processing = some record ∧
      AnswersChallenge p record message ∧ Moves p next record.source := htraced.step event
  rcases hstep with hstays | ⟨hevent, record, message, hrecord, hanswers, hmoves⟩
  · exact ⟨fun hchanged => absurd hstays.remote hchanged, hstays.traced.nodup⟩
  · refine ⟨fun _ => ⟨hevent, ?_, record, message, hrecord, hmoves.remote, hanswers, ?_⟩,
      hmoves.traced.nodup⟩
    · rw [hmoves.rebinds, hmoves.remote]
    · intro hnodup draw hdraw hcookie
      exact eq_of_cookie hnodup hdraw (List.mem_of_getLast? hanswers.drawn) hcookie

/-- The new path answers its challenge, and the connection moves. -/
theorem rebinding_validated_answered :
    let p := run (step .checksum anonymousAuth) sample (sampleCheck ++
      [.arrive "new" 40 true (some [1, 8, 7, 6, 5, 4, 3, 2, 1])])
    let next := p.step .checksum anonymousAuth .finish
    p.remote = "old" ∧ next.remote = "new" ∧
      next.rebinds = p.rebinds ++ [(p.checks, next.remote)] := by
  intro p next
  have hbefore : p.remote = "old" := by decide +kernel
  have hafter : next.remote = "new" := by decide +kernel
  have hchanged : next.remote ≠ p.remote := by
    rw [hbefore, hafter]
    decide
  exact ⟨hbefore, hafter, ((rebinding_validated .checksum anonymousAuth sampleSide true true "old"
    sampleRandom _ .finish).1 hchanged).2.1⟩

end PathConn

end Dtls13
