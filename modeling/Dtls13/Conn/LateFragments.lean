import Dtls13.Lib.RunSystem
import Dtls13.Conn.Inbound

/-! # Late fragments

Once a message was handed out its fragments may still arrive, retransmitted
because acknowledgements were lost. The reassembler has forgotten the message by
then: a late fragment that is only a part of it begins the message anew.
-/

namespace Dtls13

open ByteCodec StateLogic RunSystem Inbound

/-- A fragment within the bounds the parser checks. -/
structure ReceivedFragment extends HandshakeFragment where
  within : offset + body.length ≤ length
  deriving DecidableEq, Repr

/-- The receiving side with its history: `completed` lists the message sequence
numbers of the messages handed out. -/
structure Receipt where
  inbound : Inbound
  completed : List Nat
  failed : Option Err
  deriving DecidableEq

inductive Arrival where
  | fragment (f : ReceivedFragment) (number : RecordNumber)
  | applicationData (content : Bytes) (number : RecordNumber)
  | keyUpdate
  deriving DecidableEq, Repr

namespace Receipt

variable (config : Config)

def start : Receipt := ⟨.empty, [], none⟩

def fail (st : Receipt) (err : Err) (inbound : Inbound) : Receipt :=
  { st with inbound := inbound, failed := some err }

/-- Application data is checked for its place, held back or queued. -/
def receiveApplicationData (content : Bytes) (number : RecordNumber) :
    EStateM Err Inbound Unit := do
  Inbound.rememberApplicationRecord config number
  let buffered ← Inbound.bufferIncompleteHandshakeApplication config content number
  if buffered then pure () else Inbound.queueApplicationData config content

/-- The check a KeyUpdate is subject to before it is processed. -/
def checkKeyUpdate : EStateM Err Inbound Unit := do
  let i ← get
  if i.hasIncompleteProtected then
    throw (alertError alertUnexpectedMessage
      (.protocolError "KeyUpdate followed an incomplete handshake message"))
  else pure ()

def step (st : Receipt) (arrival : Arrival) : Receipt :=
  if st.failed.isSome then st
  else match arrival with
    | .fragment f number =>
      handle (Inbound.reassembleProtectedHandshake config f.toHandshakeFragment number)
        st.inbound
        (fun body inbound => { st with
          inbound := inbound
          completed := if body.isSome then st.completed ++ [f.messageSequence]
            else st.completed })
        st.fail
    | .applicationData content number =>
      handle (receiveApplicationData config content number) st.inbound
        (fun _ inbound => { st with inbound := inbound }) st.fail
    | .keyUpdate =>
      handle checkKeyUpdate st.inbound (fun _ inbound => { st with inbound := inbound }) st.fail

/-- The reassembler holds nothing of a message that was handed out. -/
def NoResidue (st : Receipt) : Prop :=
  ∀ q ∈ st.completed, (st.inbound.reassembler config).messages.lookup q = none

/-- A fragment of a message that was handed out is the whole message again, or a
limit rejects it. -/
def LateWhole (st : Receipt) : Arrival → Prop
  | .fragment f _ => st.failed = none → f.messageSequence ∈ st.completed →
      f.isWhole = true ∨ (st.inbound.reassembler config).rejects f.toHandshakeFragment = true
  | _ => True

variable {config} {st : Receipt}

/-- The step that takes a fragment keeps the invariant exactly if a late fragment
completes its message at once. -/
theorem NoResidue.filed (hnone : NoResidue config st) {f : HandshakeFragment} {completes : Bool}
    {r : Reassembler} {next : Receipt}
    (hfiled : (st.inbound.reassembler config).Filed f completes r)
    (hnext : next.inbound.reassembler config = r)
    (hold : ∀ q ∈ next.completed, q ∈ st.completed ∨ q = f.messageSequence ∧ completes = true)
    (hkept : ∀ q ∈ st.completed, q ∈ next.completed) :
    NoResidue config next ↔ (f.messageSequence ∈ st.completed → f.isWhole = true) := by
  constructor
  · intro hafter hlate
    have hgone := hafter _ (hkept _ hlate)
    rw [hnext] at hgone
    exact (hfiled.late (hnone _ hlate)).mp (hfiled.entry.mp hgone)
  · intro hwhole q hq
    rw [hnext]
    by_cases heq : q = f.messageSequence
    · subst heq
      refine hfiled.entry.mpr ?_
      rcases hold _ hq with hlate | ⟨_, hcompletes⟩
      · exact (hfiled.late (hnone _ hlate)).mpr (hwhole hlate)
      · exact hcompletes
    · rw [hfiled.others q heq]
      rcases hold q hq with hbefore | ⟨hsame, _⟩
      · exact hnone q hbefore
      · exact absurd hsame heq

theorem NoResidue.refused (hnone : NoResidue config st) {f : HandshakeFragment}
    {r : Reassembler} {next : Receipt} (hrefused : (st.inbound.reassembler config).Refused f r)
    (hnext : next.inbound.reassembler config = r) (hcompleted : next.completed = st.completed) :
    NoResidue config next := by
  intro q hq
  rw [hcompleted] at hq
  rw [hnext]
  by_cases heq : q = f.messageSequence
  · subst heq
    rw [(hrefused.late (hnone _ hq)).2]
    exact hnone _ hq
  · rw [hrefused.others q heq]
    exact hnone q hq

/-- A limit that rejects a fragment refuses it. -/
theorem lateWhole_iff_of_filed {f : ReceivedFragment} {number : RecordNumber} {completes : Bool}
    {r : Reassembler} (hlive : st.failed = none)
    (hfiled : (st.inbound.reassembler config).Filed f.toHandshakeFragment completes r) :
    LateWhole config st (.fragment f number) ↔
      (f.messageSequence ∈ st.completed → f.isWhole = true) := by
  have haccepted := hfiled.accepted
  simp [LateWhole, hlive, haccepted]

theorem NoResidue.step_fragment (hnone : NoResidue config st) (f : ReceivedFragment)
    (number : RecordNumber) : NoResidue config (step config st (.fragment f number)) ↔
      LateWhole config st (.fragment f number) := by
  cases hfailed : st.failed with
  | some err => simpa [step, LateWhole, hfailed] using hnone
  | none =>
    have hadd : wp (reassembleProtectedHandshake config f.toHandshakeFragment number)
        _ _ st.inbound := wp_reassembleProtectedHandshake f.within
    rcases wp_cases hadd with ⟨body, inbound, hrun, r, hr, hfiled⟩ |
      ⟨err, inbound, hrun, r, hr, hrefused | hfiled⟩
    · rw [lateWhole_iff_of_filed hfailed hfiled]
      refine hnone.filed hfiled (by simp [step, hfailed, handle, hrun, reassembler, hr])
        (fun q hq => ?_) fun q hq => ?_
      · cases hbody : body.isSome with
        | true => simpa [step, hfailed, handle, hrun, hbody] using hq
        | false => simpa [step, hfailed, handle, hrun, hbody] using hq
      · cases hbody : body.isSome <;> simp [step, hfailed, handle, hrun, hbody, hq]
    · refine iff_of_true (hnone.refused hrefused ?_ ?_)
        fun _ hlate => .inr (hrefused.late (hnone _ hlate)).1
      · simp [step, hfailed, handle, hrun, fail, reassembler, hr]
      · simp [step, hfailed, handle, hrun, fail]
    · rw [lateWhole_iff_of_filed hfailed hfiled]
      refine hnone.filed hfiled ?_ (fun q hq => .inl ?_) fun q hq => ?_
      · simp [step, hfailed, handle, hrun, fail, reassembler, hr]
      · simpa [step, hfailed, handle, hrun, fail] using hq
      · simpa [step, hfailed, handle, hrun, fail] using hq

/-- Application data and KeyUpdates do not touch the reassembler. -/
theorem NoResidue.sameReassembly (hnone : NoResidue config st) {inbound : Inbound}
    {failed : Option Err} (hsame : st.inbound.SameReassembly inbound) :
    NoResidue config { st with inbound := inbound, failed := failed } := by
  intro q hq
  have hreassembler : inbound.reassembler config = st.inbound.reassembler config := by
    unfold reassembler
    rw [hsame]
  change (inbound.reassembler config).messages.lookup q = none
  rw [hreassembler]
  exact hnone q hq

/-- Application data in its place is remembered. -/
theorem wp_receiveApplicationData {i : Inbound} (content : Bytes) (number : RecordNumber) :
    wp (receiveApplicationData config content number)
      (fun _ => Inbound.SameOrder (trimRecordOrderingHistory config
        { i with recentApplicationRecords := i.recentApplicationRecords ++ [number] }))
      (fun _ => Inbound.SameReassembly i) i := by
  unfold receiveApplicationData rememberApplicationRecord
  rw [wp_bind, wp_bind, wp_get]
  refine wp_guard rfl fun _ => ?_
  rw [wp_modify]
  refine wp_mono (keeps_bind (keeps_order_bufferIncompleteHandshakeApplication _ _)
    (fun _ => keeps_ite (fun _ => keeps_pure _)
      fun _ => keeps_order_queueApplicationData _) _) (fun _ _ hsame => hsame)
    fun _ _ hsame => hsame.reassembly

theorem NoResidue.step_iff (hnone : NoResidue config st) (arrival : Arrival) :
    NoResidue config (step config st arrival) ↔ LateWhole config st arrival := by
  cases arrival with
  | fragment f number => exact hnone.step_fragment f number
  | applicationData content number =>
    refine iff_of_true ?_ trivial
    unfold step
    split_ifs
    · exact hnone
    · exact handle_of_wp (wp_mono (wp_receiveApplicationData content number)
        (fun _ _ hsame => hnone.sameReassembly hsame.reassembly)
        fun _ _ => hnone.sameReassembly)
  | keyUpdate =>
    refine iff_of_true ?_ trivial
    unfold step
    split_ifs
    · exact hnone
    · have hkeeps : Keeps Inbound.SameReassembly checkKeyUpdate :=
        keeps_bind keeps_get fun _ => keeps_ite (fun _ => keeps_throw _) fun _ => keeps_pure _
      exact handle_of_wp (wp_both (hkeeps st.inbound) fun _ => hnone.sameReassembly)

/-- An incomplete message that was never handed out. -/
def Outstanding (config : Config) (st : Receipt) : Prop :=
  ∃ q, q ∉ st.completed ∧ ((st.inbound.reassembler config).messages.lookup q).isSome = true

theorem hasIncompleteProtected_eq (config : Config) (i : Inbound) :
    i.hasIncompleteProtected = (i.reassembler config).hasIncompleteProtected := by
  unfold hasIncompleteProtected reassembler
  cases i.postHandshakeReassembly with
  | none => rfl
  | some r => rfl

theorem NoResidue.outstanding (hnone : NoResidue config st)
    (hincomplete : st.inbound.hasIncompleteProtected = true) : Outstanding config st := by
  rw [hasIncompleteProtected_eq config] at hincomplete
  obtain ⟨q, p, hlookup, _⟩ := Reassembler.hasIncompleteProtected_iff.mp hincomplete
  refine ⟨q, fun hcompleted => ?_, by simp [hlookup]⟩
  rw [hnone q hcompleted] at hlookup
  exact absurd hlookup (by simp)

theorem sameEntries_hasIncompleteProtected (config : Config) {i next : Inbound}
    (hsame : ∀ q, (next.reassembler config).messages.lookup q =
      (i.reassembler config).messages.lookup q) :
    next.hasIncompleteProtected = i.hasIncompleteProtected := by
  rw [hasIncompleteProtected_eq config, hasIncompleteProtected_eq config, Bool.eq_iff_iff,
    Reassembler.hasIncompleteProtected_iff, Reassembler.hasIncompleteProtected_iff]
  simp only [hsame]

/-- A late fragment that is the whole message, or is rejected, changes no entry. -/
theorem NoResidue.late_hasIncompleteProtected (hnone : NoResidue config st)
    {f : ReceivedFragment} {number : RecordNumber}
    (hwhole : LateWhole config st (.fragment f number)) (hlate : f.messageSequence ∈ st.completed) :
    (step config st (.fragment f number)).inbound.hasIncompleteProtected =
      st.inbound.hasIncompleteProtected := by
  have hafter := (hnone.step_fragment f number).mpr hwhole
  cases hfailed : st.failed with
  | some err => simp [step, hfailed]
  | none =>
    have hadd : wp (reassembleProtectedHandshake config f.toHandshakeFragment number)
        _ _ st.inbound := wp_reassembleProtectedHandshake f.within
    have hcompleted : f.messageSequence ∈ (step config st (.fragment f number)).completed := by
      rcases wp_cases hadd with ⟨body, _, hrun, _⟩ | ⟨_, _, hrun, _⟩
      · cases hbody : body.isSome <;> simp [step, hfailed, handle, hrun, hbody, hlate]
      · simpa [step, hfailed, handle, hrun, fail] using hlate
    refine sameEntries_hasIncompleteProtected config fun q => ?_
    by_cases heq : q = f.messageSequence
    · rw [heq, hafter _ hcompleted, hnone _ hlate]
    · rcases wp_cases hadd with ⟨body, inbound, hrun, r, hr, hfiled⟩ |
        ⟨err, inbound, hrun, r, hr, hrefused | hfiled⟩
      · simpa [step, hfailed, handle, hrun, reassembler, hr] using hfiled.others q heq
      · simpa [step, hfailed, handle, hrun, fail, reassembler, hr]
          using hrefused.others q heq
      · simpa [step, hfailed, handle, hrun, fail, reassembler, hr]
          using hfiled.others q heq

/-- Late fragments leave no residue in any state of a run exactly when each of
them is the whole message again or is rejected by a limit. Then they change
nothing, and only messages still outstanding hold application data back or stand
in the way of a KeyUpdate. -/
theorem lateFragments_residue_iff (config : Config) (arrivals : List Arrival) :
    ((∀ before, before <+: arrivals → NoResidue config (run (step config) start before)) ↔
      Along (step config) (LateWhole config) start arrivals) ∧
    (Along (step config) (LateWhole config) start arrivals → ∀ before, before <+: arrivals →
      let st := run (step config) start before
      (∀ f number, LateWhole config st (.fragment f number) → f.messageSequence ∈ st.completed →
        (step config st (.fragment f number)).inbound.hasIncompleteProtected =
          st.inbound.hasIncompleteProtected) ∧
      (∀ content number inbound,
        Inbound.bufferIncompleteHandshakeApplication config content number st.inbound =
          .ok true inbound → Outstanding config st) ∧
      ∀ err inbound, checkKeyUpdate st.inbound = .error err inbound → Outstanding config st) := by
  have hiff : Along (step config) (LateWhole config) start arrivals ↔
      ∀ before, before <+: arrivals → NoResidue config (run (step config) start before) :=
    along_iff_forall_prefix
      (fun (st : Receipt) arrival (hnone : NoResidue config st) => hnone.step_iff arrival)
      fun _ hmem => absurd hmem List.not_mem_nil
  refine ⟨hiff.symm, fun halong before hbefore => ?_⟩
  have hnone := hiff.mp halong before hbefore
  refine ⟨fun f number hwhole hlate => hnone.late_hasIncompleteProtected hwhole hlate,
    fun content number inbound hbuffered => ?_, fun err inbound hrejected => ?_⟩
  · refine hnone.outstanding ?_
    by_contra hcomplete
    have hfalse := Bool.eq_false_iff.mpr hcomplete
    have hwp : wp (Inbound.bufferIncompleteHandshakeApplication config content number)
        (fun buffered _ => buffered = false) (fun _ _ => False)
        (run (step config) start before).inbound := by
      unfold Inbound.bufferIncompleteHandshakeApplication
      rw [wp_bind, wp_get, wp_ite]
      exact ⟨fun _ => rfl, fun hnot => absurd hfalse hnot⟩
    exact Bool.noConfusion (post_of_wp hwp hbuffered)
  · refine hnone.outstanding ?_
    by_contra hcomplete
    have hwp : wp checkKeyUpdate (fun _ _ => True) (fun _ _ => False)
        (run (step config) start before).inbound := by
      unfold checkKeyUpdate
      rw [wp_bind, wp_get, wp_ite]
      exact ⟨fun htrue => absurd htrue hcomplete, fun _ => trivial⟩
    unfold wp at hwp
    rw [hrejected] at hwp
    exact hwp

/-- The two halves of a message of four bytes. -/
def firstHalf : ReceivedFragment :=
  ⟨⟨handshakeTypeNewSessionTicket, 5, 4, 0, [1, 2]⟩, by decide⟩

def secondHalf : ReceivedFragment :=
  ⟨⟨handshakeTypeNewSessionTicket, 5, 4, 2, [3, 4]⟩, by decide⟩

/-- The whole message arrives again, in one fragment. -/
def wholeAgain : List Arrival :=
  [.fragment firstHalf ⟨3, 0⟩, .fragment secondHalf ⟨3, 1⟩,
    .fragment ⟨⟨handshakeTypeNewSessionTicket, 5, 4, 0, [1, 2, 3, 4]⟩, by decide⟩ ⟨3, 2⟩]

theorem lateFragments_residue_wholeAgain : (run (step {}) start wholeAgain).completed = [5, 5] ∧
      NoResidue {} (run (step {}) start wholeAgain) := by
  refine ⟨by decide +kernel, (lateFragments_residue_iff {} wholeAgain).1.mpr ?_ wholeAgain
    (List.prefix_refl _)⟩
  refine ⟨?_, ?_, ?_, trivial⟩
  all_goals
    intro _ hlate
    revert hlate
    decide +kernel

/-- The first half alone is sent again, after the message was handed out. -/
def halfAgain : List Arrival :=
  [.fragment firstHalf ⟨3, 0⟩, .fragment secondHalf ⟨3, 1⟩, .fragment firstHalf ⟨3, 2⟩]

theorem lateFragments_residue_halfAgain : (run (step {}) start (halfAgain.take 2)).completed = [5] ∧
      (run (step {}) start (halfAgain.take 2)).inbound.hasIncompleteProtected = false ∧
      (run (step {}) start halfAgain).completed = [5] ∧
      (((run (step {}) start halfAgain).inbound.reassembler {}).messages.lookup 5).isSome = true ∧
      (run (step {}) start halfAgain).inbound.hasIncompleteProtected = true ∧ (run (step {}) start
        (halfAgain ++ [.applicationData [9] ⟨3, 3⟩])).inbound.applicationDatagrams = [] ∧
      (run (step {}) start (halfAgain ++ [.keyUpdate])).failed =
        some (alertError alertUnexpectedMessage
          (.protocolError "KeyUpdate followed an incomplete handshake message")) := by
  decide +kernel

end Receipt

end Dtls13
