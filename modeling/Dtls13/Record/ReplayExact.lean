import Mathlib.Data.List.Nodup
import Dtls13.Lib.RunSystem
import Dtls13.Record.Cipher

/-! # Exactness of replay protection

A receive cipher is given any list of byte strings. The history pairs the cipher
with the numbers it accepted, in order, and the replay window is shown to track
exactly those numbers along every history.
-/

namespace Dtls13

open ByteCodec RunSystem List

/-- The replay window size a configured value stands for. -/
def normalizeReplayWindow (configured : Int) : Except Err Nat :=
  let size := if configured = 0 then 64 else configured
  if size < 1 || 64 < size then .error (.configError "ReplayWindow must be between 1 and 64")
  else .ok size.toNat

theorem normalizeReplayWindow_bounds {configured : Int} {size : Nat}
    (hsize : normalizeReplayWindow configured = .ok size) : 0 < size ∧ size ≤ 64 := by
  unfold normalizeReplayWindow at hsize
  dsimp only at hsize
  split_ifs at hsize with hzero hrange hrange
  all_goals
    simp only [Except.ok.injEq] at hsize
    simp only [Bool.or_eq_true, decide_eq_true_eq, not_or, not_lt] at hrange
    omega

/-- A receive cipher and the sequence numbers it accepted. -/
structure OpenHistory where
  cipher : RecordCipher
  accepted : List Nat

namespace OpenHistory

variable (P : Primitives)

/-- One call of open. The number of an accepted record is `lastOpened`. -/
def step (history : OpenHistory) (datagram : Bytes) : OpenHistory :=
  match history.cipher.openRecord P datagram with
  | (.ok _, next) => ⟨next, history.accepted ++ [next.lastOpened]⟩
  | (.error _, next) => ⟨next, history.accepted⟩

/-- The window tracks the accepted numbers, none of which occurs twice. -/
structure Exact (size : Nat) (history : OpenHistory) : Prop where
  tracks : history.cipher.replay.Tracks history.accepted
  size_eq : history.cipher.replay.size = size
  nodup : history.accepted.Nodup

variable {P}

theorem exact_start {cipher : RecordCipher} {size : Nat}
    (hreplay : cipher.replay = newReplayWindow size) : Exact size ⟨cipher, []⟩ where
  tracks := by
    rw [hreplay]
    exact ReplayWindow.tracks_new size
  size_eq := by
    rw [hreplay]
    rfl
  nodup := nodup_nil

theorem Exact.step {size : Nat} (hpos : 0 < size) (hsize : size ≤ 64) (history : OpenHistory)
    (datagram : Bytes) (hexact : Exact size history) : Exact size (history.step P datagram) := by
  unfold OpenHistory.step
  cases hopen : history.cipher.openRecord P datagram with
  | mk result next =>
    cases result with
    | error err =>
      -- Neither a discarded record nor a failed authentication moves the window.
      have hreplay : next.replay = history.cipher.replay := by
        obtain rfl | ⟨_, rfl⟩ := RecordCipher.openRecord_error hopen
        · rfl
        · rfl
      exact ⟨hreplay ▸ hexact.tracks, hreplay ▸ hexact.size_eq, hexact.nodup⟩
    | ok opened =>
      obtain ⟨record, _, hcheck, _, rfl⟩ := RecordCipher.openRecord_ok hopen
      have hadmits := (hexact.tracks.check_iff (hexact.size_eq ▸ hpos)
        (hexact.size_eq ▸ hsize) record.sequence).mp hcheck
      refine ⟨hexact.tracks.accept record.sequence, ?_, ?_⟩
      · exact (ReplayWindow.accept_size _ _).trans hexact.size_eq
      · exact nodup_append.mpr ⟨hexact.nodup, nodup_singleton _, by
          intro number hmem last hlast heq
          rw [mem_singleton] at hlast
          exact hadmits.1 (by rwa [heq, hlast] at hmem)⟩

/-- The floor stated for every accepted number is the floor for the largest. -/
theorem admits_iff_above_floor (size : Nat) (accepted : List Nat) (number : Nat) :
    SlidingWindow.Admits size {earlier | earlier ∈ accepted} number ↔
      number ∉ accepted ∧ ∀ largest, accepted.max? = some largest → largest < number + size := by
  refine and_congr_right fun _ => ?_
  constructor
  · intro hall largest hmax
    exact hall largest (List.max?_eq_some_iff.mp hmax).1
  · intro hfloor earlier hmem
    obtain ⟨largest, hmax⟩ := Option.isSome_iff_exists.mp
      (isSome_max?_of_mem hmem)
    have hle := (List.max?_eq_some_iff.mp hmax).2 earlier hmem
    exact lt_of_le_of_lt hle (hfloor largest hmax)

theorem step_of_decoded {history : OpenHistory} {datagram : Bytes}
    {record : RecordCipher.DecodedRecord}
    (hdecode : history.cipher.decodeRecord P datagram = .decoded record)
    (hcheck : history.cipher.replay.check record.sequence = true) :
    (history.step P datagram).accepted = history.accepted ++ [record.sequence] := by
  rw [step, RecordCipher.openRecord_of_decoded hdecode hcheck]
  rfl

/-- Replay protection is exact: over every history of a receive cipher no number
is accepted twice, a record that authenticates and decodes is accepted exactly
when its number is new and above the window's floor, and a failing call leaves
the replay state alone. -/
theorem antiReplay_exact (configured : Int) (size : Nat)
    (hconfig : normalizeReplayWindow configured = .ok size) (cipher : RecordCipher)
    (hreplay : cipher.replay = newReplayWindow size) (datagrams : List Bytes) (datagram : Bytes) :
    let history := run (step P) ⟨cipher, []⟩ datagrams
    let result := history.cipher.openRecord P datagram
    history.accepted.Nodup ∧ (∀ record, history.cipher.decodeRecord P datagram = .decoded record →
      ((∃ opened, result.1 = .ok opened) ↔ record.sequence ∉ history.accepted ∧
          ∀ largest, history.accepted.max? = some largest → largest < record.sequence + size) ∧
      ((∃ opened, result.1 = .ok opened) →
        (history.step P datagram).accepted = history.accepted ++ [record.sequence])) ∧
    (∀ err, result.1 = .error err → (history.step P datagram).accepted = history.accepted ∧
      result.2.replay = history.cipher.replay ∧ result.2.lastOpened = history.cipher.lastOpened ∧
      result.2.lastConnectionID = history.cipher.lastConnectionID) ∧
    (result.2.authFailures ≠ history.cipher.authFailures →
      history.cipher.decodeRecord P datagram = .unauthentic) := by
  obtain ⟨hpos, hsize⟩ := normalizeReplayWindow_bounds hconfig
  have hexact : Exact size (run (step P) ⟨cipher, []⟩ datagrams) :=
    run_invariant_all (Exact.step hpos hsize) (exact_start hreplay) datagrams
  generalize run (step P) ⟨cipher, []⟩ datagrams = history at hexact
  refine ⟨hexact.nodup, ?_, ?_, ?_⟩
  · intro record hdecode
    have hok : (∃ opened, (history.cipher.openRecord P datagram).1 = .ok opened) ↔
        history.cipher.replay.check record.sequence = true := by
      cases hcheck : history.cipher.replay.check record.sequence with
      | false => simp [RecordCipher.openRecord, hdecode, hcheck]
      | true => simp [RecordCipher.openRecord_of_decoded hdecode hcheck]
    refine ⟨?_, fun haccepted => step_of_decoded hdecode (hok.mp haccepted)⟩
    rw [hok, hexact.tracks.check_iff (hexact.size_eq ▸ hpos) (hexact.size_eq ▸ hsize),
      hexact.size_eq, admits_iff_above_floor]
  · intro err herr
    have hopen : history.cipher.openRecord P datagram =
        (.error err, (history.cipher.openRecord P datagram).2) := Prod.ext herr rfl
    refine ⟨by rw [step, hopen], ?_⟩
    obtain hsame | ⟨_, hcount⟩ := RecordCipher.openRecord_error hopen
    · rw [hsame]
      exact ⟨rfl, rfl, rfl⟩
    · rw [hcount]
      exact ⟨rfl, rfl, rfl⟩
  · intro hchanged
    cases hresult : (history.cipher.openRecord P datagram).1 with
    | error err =>
      obtain hsame | ⟨hdecode, _⟩ := RecordCipher.openRecord_error (Prod.ext hresult rfl)
      · exact absurd (congrArg RecordCipher.authFailures hsame) hchanged
      · exact hdecode
    | ok opened =>
      obtain ⟨record, _, _, _, hnext⟩ := RecordCipher.openRecord_ok (Prod.ext hresult rfl)
      exact absurd (congrArg RecordCipher.authFailures hnext) hchanged

/-- A record sent twice is accepted once. -/
theorem antiReplay_exact_duplicate :
    let packet := (sampleCipher.protect .checksum recordTypeApplicationData [7] true true).packet
    let history := run (step .checksum) ⟨sampleCipher, []⟩ [packet, packet]
    history.accepted = [0] ∧ history.accepted.Nodup :=
  ⟨by decide +kernel, (antiReplay_exact 0 64 rfl sampleCipher rfl _ []).1⟩

end OpenHistory

end Dtls13
