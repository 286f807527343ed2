import Dtls13.Path.Rule

/-! # What is sent to addresses that are not validated

A check keeps a budget for its candidate: three times what was received from it since the
check began. The budget that is left is part of the account of the address, so that what
was sent and what can still be sent stays below three times what was received. A
challenge from an address that is neither the remote one nor the candidate is answered
without an account.
-/

namespace Dtls13

open ByteCodec StateLogic RunSystem ReturnRoutabilityState

/-- The bytes that an address accounts for. -/
def bytesOf (address : Address) (log : List (Address × Nat)) : Nat :=
  ((log.filter (·.1 = address)).map (·.2)).sum

@[simp] theorem bytesOf_append (address : Address) (first second : List (Address × Nat)) :
    bytesOf address (first ++ second) = bytesOf address first + bytesOf address second := by
  simp [bytesOf]

@[simp] theorem bytesOf_singleton (address other : Address) (size : Nat) :
    bytesOf address [(other, size)] = if other = address then size else 0 := by
  unfold bytesOf
  split_ifs with heq <;> simp [heq]

namespace ReturnRoutabilityState

/-- What may still be sent to an address. -/
def reserve (state : ReturnRoutabilityState) (address : Address) : Nat :=
  if state.Candidate address then state.budget - state.sent else 0

variable {state : ReturnRoutabilityState} {address : Address}

theorem reserve_of_candidate (hcandidate : state.Candidate address) :
    state.reserve address = state.budget - state.sent := if_pos hcandidate

theorem reserve_of_not_candidate (hcandidate : ¬ state.Candidate address) :
    state.reserve address = 0 := if_neg hcandidate

theorem reserve_of_idle (hidle : state.phase = .idle) (address : Address) :
    state.reserve address = 0 := reserve_of_not_candidate fun hcandidate => hcandidate.1 hidle

/-- A new check has the budget of the record that started it. -/
theorem reserve_beginCheck (state : ReturnRoutabilityState) (cookie : PathCookie)
    (oldAddress newAddress address : Address) (received : Nat) :
    (state.beginCheck cookie oldAddress newAddress received).reserve address ≤
      if newAddress = address then 3 * received else 0 := by
  unfold reserve
  split_ifs with hcandidate heq heq
  · exact (Nat.sub_le _ _).trans (min_le_left _ _)
  · exact absurd (Option.some.inj hcandidate.2) heq
  · exact Nat.zero_le _
  · exact le_rfl

theorem reserve_credit (state : ReturnRoutabilityState) (address : Address) (received : Nat) :
    { state with received := addSaturated state.received received }.reserve address ≤
      state.reserve address + if state.newAddress = some address then 3 * received else 0 := by
  by_cases hcandidate : state.Candidate address
  · have hcredited : { state with
        received := addSaturated state.received received }.Candidate address := hcandidate
    rw [reserve_of_candidate hcredited, reserve_of_candidate hcandidate, if_pos hcandidate.2]
    simp only [budget, addSaturated]
    omega
  · have hcredited : ¬ { state with
        received := addSaturated state.received received }.Candidate address := hcandidate
    rw [reserve_of_not_candidate hcredited]
    exact Nat.zero_le _

/-- What is sent within the budget is taken from the reserve. -/
theorem reserve_send {size : Nat} (hcandidate : state.Candidate address)
    (hsent : state.sent ≤ state.budget) (hsize : size ≤ state.budget - state.sent) :
    { state with sent := addSaturated state.sent size }.reserve address + size =
      state.reserve address := by
  have hbudget : state.budget ≤ 2 ^ 64 - 1 := min_le_right _ _
  have hspent : { state with sent := addSaturated state.sent size }.Candidate address := hcandidate
  rw [reserve_of_candidate hspent, reserve_of_candidate hcandidate]
  change state.budget - addSaturated state.sent size + size = _
  unfold addSaturated
  omega

end ReturnRoutabilityState

namespace PathConn

variable {P : Primitives} {hooks : AuthHooks} {p next : PathConn}

def reserve (p : PathConn) (address : Address) : Nat :=
  match p.returnRoutability with
  | none => 0
  | some state => state.reserve address

/-- What was sent to an address, and what may still be sent, is at most three times what
came from it. -/
def Funded (p : PathConn) : Prop :=
  ∀ address, bytesOf address p.departures + p.reserve address ≤ 3 * bytesOf address p.arrivals

/-- The remote address, or the candidate of the active check. -/
def knowsPath (p : PathConn) (address : Address) : Bool :=
  address = p.remote || p.returnRoutability.any fun state => state.Candidate address

/-! ## Sending -/

theorem funded_noteProbe (hfunded : Funded p) (probe : Option Bytes) :
    Funded (noteProbe probe p) := by
  cases probe with
  | none => exact hfunded
  | some cid =>
    intro address
    refine le_trans (le_of_eq ?_) (hfunded address)
    unfold noteProbe reserve
    cases p.returnRoutability <;> rfl

theorem allow_noteProbe (probe : Option Bytes) (address : Address) (size : Nat) :
    (noteProbe probe p).allowReturnRoutabilitySend address size =
      p.allowReturnRoutabilitySend address size := by
  cases probe with
  | none => rfl
  | some cid =>
    unfold allowReturnRoutabilitySend noteProbe
    cases p.returnRoutability <;> rfl

theorem knowsPath_noteProbe (probe : Option Bytes) (address : Address) :
    (noteProbe probe p).knowsPath address = p.knowsPath address := by
  cases probe with
  | none => rfl
  | some cid =>
    unfold knowsPath noteProbe
    cases p.returnRoutability <;> rfl

/-- What is sent was allowed, and goes to the remote address or to the candidate. -/
theorem funded_recordSend (hfunded : Funded p) {address : Address} {size : Nat}
    (hallowed : p.allowReturnRoutabilitySend address size = true)
    (hknown : p.knowsPath address = true) :
    Funded (recordReturnRoutabilitySend address size p) := by
  intro other
  have hbefore := hfunded other
  unfold reserve at hbefore
  unfold recordReturnRoutabilitySend reserve
  dsimp only
  cases hstate : p.returnRoutability with
  | none =>
    have hremote : address = p.remote := by simpa [knowsPath, hstate] using hknown
    rw [hstate] at hbefore
    rw [if_pos hremote]
    exact hbefore
  | some state =>
    rw [hstate] at hbefore
    dsimp only at hbefore
    rw [Option.map_some]
    dsimp only
    by_cases hcandidate : state.Candidate address
    · rw [if_pos hcandidate]
      obtain ⟨hsent, hsize⟩ : state.sent ≤ state.budget ∧ size ≤ state.budget - state.sent := by
        simpa [allowReturnRoutabilitySend, hstate, hcandidate] using hallowed
      by_cases heq : address = other
      · subst heq
        have hspent := reserve_send hcandidate hsent hsize
        split_ifs
        · omega
        · rw [bytesOf_append, bytesOf_singleton, if_pos rfl]
          omega
      · have hnot : ¬ { state with sent := addSaturated state.sent size }.Candidate other :=
          fun hother => heq (Option.some.inj (hcandidate.2.symm.trans hother.2))
        rw [reserve_of_not_candidate hnot]
        split_ifs
        · omega
        · rw [bytesOf_append, bytesOf_singleton, if_neg heq]
          omega
    · have hremote : address = p.remote := by
        simpa [knowsPath, hstate, hcandidate] using hknown
      rw [if_neg hcandidate, if_pos hremote]
      exact hbefore

/-! ## Checks -/

theorem funded_clear (hfunded : Funded p) : Funded p.clearReturnRoutability := by
  intro address
  have hnone : p.clearReturnRoutability.reserve address = 0 := by
    unfold clearReturnRoutability reserve
    cases p.returnRoutability with
    | none => rfl
    | some state => exact reserve_of_idle rfl address
  rw [hnone]
  exact (Nat.add_le_add_left (Nat.zero_le _) _).trans (hfunded address)

theorem funded_arm (hfunded : Funded p) : Funded p.armReturnRoutabilityTimer := by
  intro address
  refine le_trans (le_of_eq ?_) (hfunded address)
  unfold armReturnRoutabilityTimer reserve
  cases p.returnRoutability <;> rfl

/-- The record was counted, and is not accounted for yet. -/
def Uncredited (p : PathConn) (source : Address) (received : Nat) : Prop :=
  source ≠ p.remote → bytesOf source p.departures + p.reserve source + 3 * received ≤
    3 * bytesOf source p.arrivals

theorem funded_arrive (hfunded : Funded p) (source : Address) (length : Nat)
    (content : Option Bytes) :
    Funded (p.countArrival source length content) ∧
      Uncredited (p.countArrival source length content) source length := by
  unfold countArrival
  refine ⟨fun address => (hfunded address).trans (Nat.mul_le_mul_left 3 ?_), fun hother => ?_⟩
  · dsimp only
    split_ifs
    · exact le_rfl
    · rw [bytesOf_append]
      exact Nat.le_add_right _ _
  · have hbefore := hfunded source
    dsimp only at hother ⊢
    rw [if_neg hother, bytesOf_append, bytesOf_singleton, if_pos rfl]
    change bytesOf source p.departures + p.reserve source + 3 * length ≤ _
    omega

/-- What an observed record adds to the reserve of its address is covered by the record. -/
theorem funded_withState (hfunded : Funded p) {source : Address} {received : Nat}
    (huncredited : Uncredited p source received) (hother : source ≠ p.remote)
    {state : ReturnRoutabilityState} (hstate : ∀ address, state.reserve address ≤
      p.reserve address + if source = address then 3 * received else 0) :
    Funded (withState state p) := by
  intro address
  have hbefore := hfunded address
  have hadded := hstate address
  change bytesOf address p.departures + state.reserve address ≤ 3 * bytesOf address p.arrivals
  by_cases heq : source = address
  · subst heq
    have hcounted := huncredited hother
    rw [if_pos rfl] at hadded
    omega
  · rw [if_neg heq] at hadded
    omega

theorem reserve_getD (p : PathConn) (address : Address) :
    (p.returnRoutability.getD .initial).reserve address = p.reserve address := by
  unfold reserve
  cases p.returnRoutability with
  | none => exact reserve_of_idle rfl address
  | some state => rfl

variable (P hooks) in
theorem funded_rule :
    Rule P hooks Funded (fun p address => p.knowsPath address = true) Uncredited where
  random _ hfunded := hfunded
  processing _ hfunded := hfunded
  clear := funded_clear
  arm := funded_arm
  noteProbe probe hfunded := funded_noteProbe hfunded probe
  sealPath _ hfunded _ := wp_of_forall
    (fun _ _ => ⟨hfunded, wp_of_forall (fun _ _ => hfunded) fun _ _ => hfunded⟩) fun _ _ => hfunded
  update hfunded := wp_of_forall (fun _ _ => hfunded) fun _ _ => hfunded
  fail _ hfunded := hfunded
  sideStep hfunded _ := hfunded
  send {p address size} probe side hfunded hallowed hknown := by
    rw [← allow_noteProbe probe] at hallowed
    rw [← knowsPath_noteProbe probe] at hknown
    exact funded_recordSend hfunded hallowed hknown
  known_remote _ := by simp [knowsPath]
  known_check hcandidate := by simp [knowsPath, withCheck, hcandidate]
  arrive source length content hfunded := funded_arrive hfunded source length content
  state {p source received} hfunded huncredited := by
    refine ⟨fun address => ?_, fun hother => ?_⟩
    · exact (Nat.add_le_add_left (reserve_getD p address).le _).trans (hfunded address)
    · have hreserve := reserve_getD p source
      change bytesOf source p.departures + ReturnRoutabilityState.reserve _ source + _ ≤ _
      rw [hreserve]
      exact huncredited hother
  credit {p state source received} hfunded huncredited hother hstate hnew := by
    refine funded_withState hfunded huncredited hother fun address => ?_
    have hcredit := state.reserve_credit address received
    simp only [hnew, Option.some_inj] at hcredit
    rw [reserve, hstate]
    simpa only [hnew] using hcredit
  start {p state source received} random cookie hfunded huncredited hother _ := by
    refine funded_withState hfunded huncredited hother fun address => ?_
    exact (state.reserve_beginCheck cookie p.remote source address received).trans
      (Nat.le_add_left _ _)
  basic {p state address} random cookie hfunded hstate hactive hnew := by
    -- The account of the candidate goes on in the second phase.
    intro other
    refine le_trans (Nat.add_le_add_left (le_of_eq ?_) _) (hfunded other)
    unfold withCheck reserve
    rw [hstate]
    unfold ReturnRoutabilityState.reserve ReturnRoutabilityState.Candidate
    simp [hactive, hnew, ReturnRoutabilityState.budget]

/-- A path message that is no challenge, or comes on a known path. -/
def answersKnownPath (p : PathConn) (content : Bytes) (source : Address) : Bool :=
  match ReturnRoutabilityMessage.parseReturnRoutabilityMessage content with
  | .ok (some message) => message.typ ≠ .pathChallenge || p.knowsPath source
  | _ => true

theorem Funded.wp_handle (hfunded : Funded p) {content : Bytes} {source : Address}
    (hknown : p.answersKnownPath content source = true) :
    wp (handleReturnRoutability P content source) (fun _ => Funded) (fun _ => Funded) p := by
  refine (funded_rule P anonymousAuth).wp_handle hfunded ?_ (fun _ hnext => hnext) ?_
  · intro message hparse hchallenge
    unfold answersKnownPath at hknown
    rw [hparse] at hknown
    simpa [hchallenge] using hknown
  · intro _ state _ _ _ _ _ _
    have hcleared := funded_clear hfunded
    unfold rebindValidatedPath
    rw [wp_bind, wp_get]
    split
    · exact hcleared
    · rw [wp_bind, onSide, wp_zoom]
      exact wp_of_forall (fun _ _ => hcleared) fun _ _ => hcleared

/-! ## Whole steps -/

/-- A challenge is handled only if it comes on a known path. -/
def onKnownPath (p : PathConn) : Event → Bool
  | .finish => p.processing.all fun record =>
    record.content.all fun content => p.answersKnownPath content record.source
  | _ => true

theorem Funded.finish (hfunded : Funded p) (hknown : p.onKnownPath .finish = true) :
    Funded (p.finish P) := by
  unfold PathConn.finish
  cases hrecord : p.processing with
  | none => exact hfunded
  | some record =>
    dsimp only
    cases hcontent : record.content with
    | none => exact hfunded
    | some content =>
      have hanswers : p.answersKnownPath content record.source = true := by
        simpa [onKnownPath, hrecord, hcontent] using hknown
      have htaken : Funded { p with processing := none } := hfunded
      exact (funded_rule P anonymousAuth).dispatch htaken (fun _ hnext => hnext)
        (htaken.wp_handle hanswers)

theorem Funded.step (hfunded : Funded p) {event : Event} (hknown : p.onKnownPath event = true) :
    Funded (p.step P hooks event) := by
  cases event with
  | finish => exact hfunded.finish hknown
  | newConnectionID sequence body =>
    exact (funded_rule P hooks).dispatch hfunded (fun _ hnext => hnext)
      (wp_processNewConnectionID (fun _ _ => hfunded) sequence body)
  | arrive | timer | clear | side => exact (funded_rule P hooks).step hfunded nofun nofun

/-- As long as only challenges on known paths are answered, the path messages sent to an
address while it is not the remote one take at most three times the bytes that were
received from it meanwhile. -/
theorem pathMessages_bounded (P : Primitives) (hooks : AuthHooks) (side : SendingSide)
    (negotiated routable : Bool) (remote : Address) (random : List (Option PathCookie))
    (events : List Event) (hknown : Along (step P hooks) (fun p event => p.onKnownPath event = true)
      (start side negotiated routable remote random) events) (address : Address) :
    let p := run (step P hooks) (start side negotiated routable remote random) events
    bytesOf address p.departures ≤ 3 * bytesOf address p.arrivals := by
  intro p
  have hstart : Funded (start side negotiated routable remote random) := fun _ => le_rfl
  have hfunded : Funded p := run_invariant (fun (q : PathConn) event (hq : q.Funded) hcond =>
    hq.step hcond) hstart hknown
  exact (Nat.le_add_right _ _).trans (hfunded address)

/-- A check that challenges the new path. -/
theorem pathMessages_bounded_sample : Along (step Primitives.checksum anonymousAuth)
        (fun p event => p.onKnownPath event = true) sample sampleCheck ∧
      bytesOf "new" (run (step Primitives.checksum anonymousAuth) sample sampleCheck).departures ≤
        3 * bytesOf "new"
          (run (step Primitives.checksum anonymousAuth) sample sampleCheck).arrivals := by
  have hknown : Along (step Primitives.checksum anonymousAuth)
      (fun p event => p.onKnownPath event = true) sample sampleCheck := by
    decide +kernel
  refine ⟨hknown, ?_⟩
  unfold sample
  exact pathMessages_bounded Primitives.checksum anonymousAuth sampleSide true true "old"
    sampleRandom sampleCheck hknown "new"

/-- A third address that sends a challenge of 32 bytes while the check is active gets an
answer of 131 bytes. -/
theorem pathMessages_unbounded_third :
    let p := run (step Primitives.checksum anonymousAuth) sample (sampleCheck ++
      [.arrive "third" 32 true (some [0, 1, 1, 1, 1, 1, 1, 1, 1]), .finish])
    p.remote ≠ "third" ∧ bytesOf "third" p.arrivals = 32 ∧ bytesOf "third" p.departures = 131 := by
  decide +kernel

end PathConn

end Dtls13
