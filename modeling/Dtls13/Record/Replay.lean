import Dtls13.Lib.SlidingWindow

/-! # The anti-replay window

`ReplayWindow` is the code's sliding window of at most 64 numbers. `Tracks`
relates it to the list of all numbers accepted so far, and the two lemmas at
the end say that the code's `check` and `accept` are the abstract admission
test and the addition of one number to that list.
-/

namespace Dtls13

open List

structure ReplayWindow where
  latest : Nat
  bitmap : BitVec 64
  initialized : Bool
  size : Nat
  deriving DecidableEq, Repr

def newReplayWindow (size : Nat) : ReplayWindow where
  latest := 0
  bitmap := 0
  initialized := false
  size := size

namespace ReplayWindow

def nextExpected (w : ReplayWindow) : Nat :=
  if w.initialized then w.latest + 1 else 0

def check (w : ReplayWindow) (seq : Nat) : Bool :=
  if !w.initialized || w.latest < seq then true
  else
    let delta := w.latest - seq
    delta < w.size && w.bitmap &&& (BitVec.ofNat 64 1 <<< delta) == BitVec.ofNat 64 0

def accept (w : ReplayWindow) (seq : Nat) : ReplayWindow :=
  if !w.initialized then
    { w with initialized := true, latest := seq, bitmap := BitVec.ofNat 64 1 }
  else if w.latest < seq then
    let delta := seq - w.latest
    let shifted := if 64 ≤ delta then BitVec.ofNat 64 0 else w.bitmap <<< delta
    { w with latest := seq, bitmap := shifted ||| BitVec.ofNat 64 1 }
  else
    let delta := w.latest - seq
    if delta < 64 then { w with bitmap := w.bitmap ||| (BitVec.ofNat 64 1 <<< delta) } else w

@[simp] theorem accept_size (w : ReplayWindow) (seq : Nat) : (w.accept seq).size = w.size := by
  unfold accept
  dsimp only
  split_ifs <;> rfl

/-- The window summarizes the numbers accepted so far. -/
structure Tracks (w : ReplayWindow) (accepted : List Nat) : Prop where
  initialized_iff : w.initialized = true ↔ accepted ≠ []
  latest_mem : w.initialized = true → w.latest ∈ accepted
  le_latest : ∀ number ∈ accepted, number ≤ w.latest
  represents : w.initialized = true →
    SlidingWindow.Represents w.bitmap w.latest {number | number ∈ accepted}

theorem tracks_new (size : Nat) : (newReplayWindow size).Tracks [] where
  initialized_iff := by simp [newReplayWindow]
  latest_mem := by simp [newReplayWindow]
  le_latest := by simp
  represents := by simp [newReplayWindow]

/-- The code's test is the abstract admission test. -/
theorem Tracks.check_iff {w : ReplayWindow} {accepted : List Nat} (htracks : w.Tracks accepted)
    (hpos : 0 < w.size) (hsize : w.size ≤ 64) (seq : Nat) :
    w.check seq = true ↔ SlidingWindow.Admits w.size {number | number ∈ accepted} seq := by
  unfold check SlidingWindow.Admits
  cases hinit : w.initialized with
  | false =>
    have hempty : accepted = [] := by
      by_contra hne
      simp [htracks.initialized_iff.mpr hne] at hinit
    simp [hempty]
  | true =>
    by_cases hnewer : w.latest < seq
    · have hnew : seq ∉ accepted := fun hmem => by
        have := htracks.le_latest seq hmem
        omega
      have hfloor : ∀ earlier ∈ accepted, earlier < seq + w.size := fun earlier hmem => by
        have := htracks.le_latest earlier hmem
        omega
      simpa [hnewer, hnew] using hfloor
    · simp only [Bool.not_true, Bool.false_or, decide_eq_true_eq, hnewer, if_false,
        Bool.and_eq_true, beq_iff_eq, Set.mem_ofPred_eq]
      -- The floor for all accepted numbers is the floor for the newest one.
      have hfloor : (∀ earlier ∈ accepted, earlier < seq + w.size) ↔ w.latest - seq < w.size := by
        constructor
        · intro hall
          have := hall w.latest (htracks.latest_mem hinit)
          omega
        · intro hdelta earlier hmem
          have := htracks.le_latest earlier hmem
          omega
      rw [hfloor, and_comm]
      refine and_congr_left fun hdelta => ?_
      have hbit := htracks.represents hinit (w.latest - seq) (by omega) (by omega)
      rw [show w.latest - (w.latest - seq) = seq by omega] at hbit
      rw [SlidingWindow.and_mask_eq_zero_iff _ (by omega : w.latest - seq < 64),
        ← Bool.not_eq_true, hbit]
      rfl

/-- Accepting a number adds it to the tracked set. -/
theorem Tracks.accept {w : ReplayWindow} {accepted : List Nat} (htracks : w.Tracks accepted)
    (seq : Nat) : (w.accept seq).Tracks (accepted ++ [seq]) := by
  have hset : {number | number ∈ accepted ++ [seq]} = insert seq {number | number ∈ accepted} := by
    ext number
    simp [or_comm]
  unfold ReplayWindow.accept
  cases hinit : w.initialized with
  | false =>
    have hempty : accepted = [] := by
      by_contra hne
      simp [htracks.initialized_iff.mpr hne] at hinit
    subst hempty
    refine ⟨by simp, by simp, by simp, fun _ => ?_⟩
    simpa using SlidingWindow.represents_first (by decide : 0 < 64) seq
  | true =>
    simp only [Bool.not_true, Bool.false_eq_true, if_false]
    by_cases hnewer : w.latest < seq
    · simp only [hnewer, if_true]
      have hshift : (if 64 ≤ seq - w.latest then BitVec.ofNat 64 0
          else w.bitmap <<< (seq - w.latest)) = w.bitmap <<< (seq - w.latest) := by
        split_ifs with hgap
        · exact (BitVec.shiftLeft_eq_zero hgap).symm
        · rfl
      refine ⟨by simp, by simp, ?_, fun _ => ?_⟩
      · intro number hmem
        rcases mem_append.mp hmem with hold | hlast
        · have := htracks.le_latest number hold
          dsimp only
          omega
        · simp only [mem_singleton] at hlast
          exact hlast.le
      · rw [hset]
        dsimp only
        rw [hshift]
        exact (htracks.represents hinit).advance htracks.le_latest hnewer
    · simp only [hnewer, if_false]
      have hle : ∀ number ∈ accepted ++ [seq], number ≤ w.latest := by
        intro number hmem
        rcases mem_append.mp hmem with hold | hlast
        · exact htracks.le_latest number hold
        · simp only [mem_singleton] at hlast
          omega
      have hmem : w.latest ∈ accepted ++ [seq] :=
        mem_append_left _ (htracks.latest_mem hinit)
      have hseq : w.latest - (w.latest - seq) = seq := by omega
      have hmark := (htracks.represents hinit).mark (Nat.sub_le w.latest seq)
      rw [hseq, ← hset] at hmark
      split_ifs with hin
      · exact ⟨by simp, fun _ => hmem, hle, fun _ => hmark⟩
      · -- Outside the bitmap the mark shifts out, so the bitmap stays as it is.
        have hzero : BitVec.ofNat 64 1 <<< (w.latest - seq) = BitVec.ofNat 64 0 :=
          BitVec.shiftLeft_eq_zero (by omega)
        rw [hzero, BitVec.or_zero] at hmark
        exact ⟨by simp [hinit], fun _ => hmem, hle, fun _ => hmark⟩

end ReplayWindow

end Dtls13
