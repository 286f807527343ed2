import Dtls13.Handshake.Flight
import Dtls13.Lib.RunSystem

/-! # The slices of record histories

The code keeps the earlier numbers of a record in a slice. A rebuild reserves windows for
the slices of its records in one array, and an append writes into the window while there
is room. A combined flight holds copies of the records of its parts, whose slices share
their windows. No window is shared by two records of a flight, and an append spares what
older copies show, so that every record shows the history of `FlightRecord`.
-/

namespace Dtls13

open RunSystem List

/-- Memory; what lies from `free` on is not in use. -/
structure HistoryMemory where
  free : Nat
  cell : Nat → RecordNumber

/-- A slice: where its window starts, how much of it is in use, and its size. -/
structure HistorySlice where
  start : Nat
  length : Nat
  capacity : Nat
  length_le : length ≤ capacity

namespace HistorySlice

def read (m : HistoryMemory) (s : HistorySlice) : List RecordNumber :=
  (range s.length).map fun i => m.cell (s.start + i)

/-- A slice without room moves to a new array, with room for `slack` numbers more. -/
def append (slack : Nat) (number : RecordNumber) (m : HistoryMemory) (s : HistorySlice) :
    HistorySlice × HistoryMemory :=
  if hroom : s.length < s.capacity then
    ({ s with length := s.length + 1, length_le := hroom },
      { m with cell := Function.update m.cell (s.start + s.length) number })
  else
    (⟨m.free, s.length + 1, s.length + 1 + slack, Nat.le_add_right _ _⟩,
      ⟨m.free + (s.length + 1 + slack), fun a =>
        if a < m.free then m.cell a
        else if a < m.free + s.length then m.cell (s.start + (a - m.free)) else number⟩)

/-- The end of the window. -/
def finish (s : HistorySlice) : Nat := s.start + s.capacity

def Apart (s t : HistorySlice) : Prop := s.finish ≤ t.start ∨ t.finish ≤ s.start

/-- The window of `t` is another one, or `t` is an older copy of `s`. -/
def Spares (s t : HistorySlice) : Prop := s.Apart t ∨ t.start = s.start ∧ t.length ≤ s.length

/-- The slice `t` takes the place of `s`: it keeps the window or has a new one, and only the
room behind `s` was written to. -/
structure Extends (m next : HistoryMemory) (s t : HistorySlice) : Prop where
  free_le : m.free ≤ next.free
  placed : t.start = s.start ∧ t.finish = s.finish ∧ s.length ≤ t.length ∨
    m.free ≤ t.start ∧ t.finish ≤ next.free
  cell : ∀ a < m.free, a < s.start + s.length ∨ s.finish ≤ a → next.cell a = m.cell a

variable {m next : HistoryMemory} {s t v : HistorySlice}

theorem append_extends (slack : Nat) (number : RecordNumber) :
    Extends m (s.append slack number m).2 s (s.append slack number m).1 := by
  have hlength := s.length_le
  unfold append
  split_ifs with hroom
  · refine ⟨le_rfl, .inl ⟨rfl, rfl, Nat.le_succ _⟩, fun a _ ha => Function.update_of_ne ?_ _ _⟩
    unfold finish at ha
    omega
  · exact ⟨Nat.le_add_right _ _, .inr ⟨le_rfl, le_rfl⟩, fun a ha _ => if_pos ha⟩

theorem read_append (slack : Nat) (number : RecordNumber) :
    (s.append slack number m).1.read (s.append slack number m).2 = s.read m ++ [number] := by
  unfold append
  split_ifs with hroom
  · simp only [read, range_succ, map_append, map_cons, map_nil, Function.update_self]
    refine congrArg (· ++ [number]) (map_congr_left fun i hi => Function.update_of_ne ?_ _ _)
    have hlt := mem_range.mp hi
    omega
  · simp only [read, range_succ, map_append, map_cons, map_nil]
    refine congrArg₂ (· ++ [·]) (map_congr_left fun i hi => ?_) (by simp)
    simp [mem_range.mp hi]

theorem Extends.read_eq (hextends : Extends m next s t) (hv : v.finish ≤ m.free)
    (hspares : s.Spares v) : v.read next = v.read m := by
  refine map_congr_left fun i hi => hextends.cell _ ?_ ?_
  all_goals
    have hlt := mem_range.mp hi
    have hlength := v.length_le
    have hsize := s.length_le
    unfold Spares Apart finish at *
    omega

theorem Extends.apart (hextends : Extends m next s t) (hv : v.finish ≤ m.free)
    (hapart : s.Apart v) : t.Apart v := by
  have hplaced := hextends.placed
  unfold Apart at *
  omega

theorem Extends.spares (hextends : Extends m next s t) (hv : v.finish ≤ m.free)
    (hspares : s.Spares v) : t.Spares v := by
  have hplaced := hextends.placed
  unfold Spares Apart at *
  omega

end HistorySlice

/-- A record, with the fields in which the code keeps its history. -/
structure HistoryRecord where
  record : FlightRecord
  priorNumber : Option RecordNumber
  earlierNumbers : HistorySlice

def initialRecordHistoryCapacity : Nat := 3

namespace HistoryRecord

def replaceNumber (slack : Nat) (wire : SealedRecord) (r : HistoryRecord) (m : HistoryMemory) :
    HistoryRecord × HistoryMemory :=
  match r.priorNumber with
  | none => (⟨r.record.replaceNumber wire, some r.record.number, r.earlierNumbers⟩, m)
  | some prior =>
    let (earlier, next) := r.earlierNumbers.append slack prior m
    (⟨r.record.replaceNumber wire, some r.record.number, earlier⟩, next)

/-- The window that `reserveInitialRecordHistory` gives to a record. -/
def reserve (r : HistoryRecord) (m : HistoryMemory) : HistoryRecord × HistoryMemory :=
  if r.priorNumber.isSome && r.earlierNumbers.capacity == 0 then
    (⟨r.record, r.priorNumber, m.free, 0, initialRecordHistoryCapacity, Nat.zero_le _⟩,
      { m with free := m.free + initialRecordHistoryCapacity })
  else (r, m)

/-- The fields hold the history of the record. -/
def Shows (m : HistoryMemory) (r : HistoryRecord) : Prop :=
  r.priorNumber.toList ++ (r.earlierNumbers.read m).reverse = r.record.earlierNumbers

/-- A record that gets a window or a number. -/
structure Changes (m : HistoryMemory) (r : HistoryRecord) (next : HistoryRecord × HistoryMemory) :
    Prop where
  slice : r.earlierNumbers.Extends m next.2 next.1.earlierNumbers
  shows : next.1.Shows next.2

variable {m : HistoryMemory} {r : HistoryRecord}

theorem Shows.replaceNumber (hshows : r.Shows m) (slack : Nat) (wire : SealedRecord) :
    Changes m r (r.replaceNumber slack wire m) := by
  unfold Shows at hshows
  unfold HistoryRecord.replaceNumber
  split
  next hprior =>
    rw [hprior] at hshows
    exact ⟨⟨le_rfl, .inl ⟨rfl, rfl, le_rfl⟩, fun _ _ _ => rfl⟩,
      congrArg (r.record.number :: ·) hshows⟩
  next prior hprior =>
    rw [hprior] at hshows
    refine ⟨HistorySlice.append_extends slack prior, ?_⟩
    unfold Shows
    dsimp only
    rw [HistorySlice.read_append, reverse_concat]
    exact congrArg (r.record.number :: ·) hshows

theorem Shows.reserve (hshows : r.Shows m) : Changes m r (r.reserve m) := by
  unfold HistoryRecord.reserve
  split_ifs with hempty
  · refine ⟨⟨Nat.le_add_right _ _, .inr ⟨le_rfl, le_rfl⟩, fun _ _ _ => rfl⟩, ?_⟩
    have hnone : r.earlierNumbers.length = 0 := by
      have := r.earlierNumbers.length_le
      simp only [Bool.and_eq_true, beq_iff_eq] at hempty
      omega
    unfold Shows HistorySlice.read at hshows
    rwa [hnone] at hshows
  · exact ⟨⟨le_rfl, .inl ⟨rfl, rfl, le_rfl⟩, fun _ _ _ => rfl⟩, hshows⟩

end HistoryRecord

/-! ## A flight and its copy -/

/-- The records of a flight by their indices, and the copies that a combined flight has. -/
structure Histories where
  memory : HistoryMemory
  records : Nat → HistoryRecord
  copies : Nat → HistoryRecord

inductive HistoryStep where
  | reserve (index : Nat)
  | replaceNumber (index slack : Nat) (wire : SealedRecord)
  | copyIn
  | copyBack

/-- Every record shows its history, in a window of its own. -/
structure HistoriesShown (m : HistoryMemory) (records : Nat → HistoryRecord) : Prop where
  finish_le : ∀ i, (records i).earlierNumbers.finish ≤ m.free
  shows : ∀ i, (records i).Shows m
  apart : ∀ i j, i ≠ j → (records i).earlierNumbers.Apart (records j).earlierNumbers

namespace HistoriesShown

variable {m next : HistoryMemory} {records : Nat → HistoryRecord} {s t : HistorySlice}
  (hshown : HistoriesShown m records)

include hshown

theorem spares (i j : Nat) :
    (records i).earlierNumbers.Spares (records j).earlierNumbers := by
  by_cases hsame : i = j
  · exact .inr ⟨by rw [hsame], by rw [hsame]⟩
  · exact .inl (hshown.apart i j hsame)

theorem grow (hextends : s.Extends m next t)
    (hspares : ∀ i, s.Spares (records i).earlierNumbers) : HistoriesShown next records where
  finish_le i := (hshown.finish_le i).trans hextends.free_le
  shows i := by
    unfold HistoryRecord.Shows
    rw [hextends.read_eq (hshown.finish_le i) (hspares i)]
    exact hshown.shows i
  apart := hshown.apart

theorem change {index : Nat} {changed : HistoryRecord × HistoryMemory}
    (hchanges : (records index).Changes m changed) :
    HistoriesShown changed.2 (Function.update records index changed.1) := by
  obtain ⟨hslice, hshows⟩ := hchanges
  have hgrown := hshown.grow hslice (hshown.spares index)
  have hapart : ∀ i ≠ index, changed.1.earlierNumbers.Apart (records i).earlierNumbers :=
    fun i hi => hslice.apart (hshown.finish_le i) (hshown.apart index i hi.symm)
  constructor
  · intro i
    rw [Function.update_apply]
    split_ifs
    · have hplaced := hslice.placed
      have hfree := hslice.free_le
      have hold := hshown.finish_le index
      omega
    · exact hgrown.finish_le i
  · intro i
    rw [Function.update_apply]
    split_ifs
    exacts [hshows, hgrown.shows i]
  · intro i j hne
    rw [Function.update_apply, Function.update_apply]
    split_ifs with hi hj hj
    · exact absurd (hi.trans hj.symm) hne
    · exact hapart j hj
    · exact (hapart i hi).symm
    · exact hshown.apart i j hne

end HistoriesShown

namespace Histories

def change (h : Histories) (index : Nat)
    (f : HistoryRecord → HistoryMemory → HistoryRecord × HistoryMemory) : Histories :=
  let (renewed, memory) := f (h.records index) h.memory
  { h with memory := memory, records := Function.update h.records index renewed }

def step (h : Histories) : HistoryStep → Histories
  | .reserve index => h.change index HistoryRecord.reserve
  | .replaceNumber index slack wire => h.change index (HistoryRecord.replaceNumber slack wire)
  | .copyIn => { h with records := h.copies }
  | .copyBack => { h with copies := h.records }

/-- A flight that was just built. -/
def built (wires : Nat → SealedRecord) : Histories :=
  let records := fun index => ⟨.fresh (wires index), none, 0, 0, 0, le_rfl⟩
  ⟨⟨0, fun _ => ⟨0, 0⟩⟩, records, records⟩

/-- The records and the copies show their histories. A copy is as old as its record. -/
structure Sound (h : Histories) : Prop where
  records : HistoriesShown h.memory h.records
  copies : HistoriesShown h.memory h.copies
  older : ∀ i j, (h.records i).earlierNumbers.Spares (h.copies j).earlierNumbers

variable {h : Histories}

theorem Sound.change (hsound : h.Sound) {index : Nat}
    {f : HistoryRecord → HistoryMemory → HistoryRecord × HistoryMemory}
    (hchanges : (h.records index).Changes h.memory (f (h.records index) h.memory)) :
    (h.change index f).Sound := by
  have hslice := hchanges.slice
  refine ⟨hsound.records.change hchanges, hsound.copies.grow hslice (hsound.older index), ?_⟩
  intro i j
  unfold Histories.change
  dsimp only
  rw [Function.update_apply]
  split_ifs
  exacts [hslice.spares (hsound.copies.finish_le j) (hsound.older index j), hsound.older i j]

theorem Sound.step (hsound : h.Sound) (action : HistoryStep) : (h.step action).Sound := by
  cases action with
  | reserve index => exact hsound.change (hsound.records.shows index).reserve
  | replaceNumber index slack wire =>
    exact hsound.change ((hsound.records.shows index).replaceNumber slack wire)
  | copyIn => exact ⟨hsound.copies, hsound.copies, hsound.copies.spares⟩
  | copyBack => exact ⟨hsound.records, hsound.records, hsound.records.spares⟩

theorem sound_built (wires : Nat → SealedRecord) : (built wires).Sound := by
  have hshown : HistoriesShown (built wires).memory (built wires).records :=
    ⟨fun _ => le_rfl, fun _ => rfl, fun _ _ _ => .inl le_rfl⟩
  exact ⟨hshown, hshown, hshown.spares⟩

/-- Whatever is rebuilt and copied, the records and their copies show their histories, and
no two records share a window. -/
theorem histories_shown (wires : Nat → SealedRecord) (actions : List HistoryStep) :
    (run step (built wires) actions).Sound :=
  run_invariant_all (fun _ action hsound => hsound.step action) (sound_built wires) actions

end Histories

end Dtls13
