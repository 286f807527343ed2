import Mathlib.Data.Set.Insert

/-! # Sliding windows kept as bit vectors

A window of `width` bits summarizes a set of numbers relative to its newest
member: bit `d` says whether `newest - d` belongs to the set. The summary is
maintained by shifting when a newer number arrives and by setting one bit when
an older one does; nothing is claimed about numbers that left the window.
-/

namespace SlidingWindow

variable {width : Nat}

/-- What a window of `size` numbers is for: it admits a number that was not seen
and that the newest seen number leaves inside the window. -/
def Admits (size : Nat) (seen : Set Nat) (number : Nat) : Prop :=
  number ∉ seen ∧ ∀ earlier ∈ seen, earlier < number + size

/-- Bit `distance` of the window tells whether `newest - distance` was seen. -/
def Represents (bits : BitVec width) (newest : Nat) (seen : Set Nat) : Prop :=
  ∀ distance, distance < width → distance ≤ newest →
    (bits.getLsbD distance = true ↔ newest - distance ∈ seen)

/-- The mask test used to read one bit. -/
theorem and_mask_eq_zero_iff (bits : BitVec width) {distance : Nat} (hdistance : distance < width) :
    bits &&& (BitVec.ofNat width 1 <<< distance) = BitVec.ofNat width 0 ↔
      bits.getLsbD distance = false := by
  constructor
  · intro hzero
    have hbit := congrArg (fun value => value.getLsbD distance) hzero
    simpa [hdistance, show 0 < width by omega] using hbit
  · intro hclear
    apply BitVec.eq_of_getLsbD_eq
    intro index hindex
    by_cases heq : index = distance
    · subst heq
      simp [hclear]
    · have hmask : (BitVec.ofNat width 1 <<< distance).getLsbD index = false := by
        simp only [BitVec.getLsbD_shiftLeft, BitVec.getLsbD_one]
        simp
        omega
      simp [hmask]

theorem represents_first (hwidth : 0 < width) (newest : Nat) :
    Represents (BitVec.ofNat width 1) newest {newest} := by
  intro distance _ hle
  simp only [BitVec.getLsbD_one, hwidth, decide_true, Bool.true_and, decide_eq_true_eq,
    Set.mem_singleton_iff]
  omega

/-- A newer number shifts the window by the gap it opens. A gap of at least the
whole width clears every older bit. -/
theorem Represents.advance {bits : BitVec width} {newest next : Nat} {seen : Set Nat}
    (hrep : Represents bits newest seen) (hbound : ∀ number ∈ seen, number ≤ newest)
    (hnext : newest < next) :
    Represents ((bits <<< (next - newest)) ||| BitVec.ofNat width 1) next (insert next seen) := by
  intro distance hdistance hle
  simp only [BitVec.getLsbD_or, BitVec.getLsbD_shiftLeft, BitVec.getLsbD_one, Bool.or_eq_true,
    Bool.and_eq_true, decide_eq_true_eq, Bool.not_eq_true', decide_eq_false_iff_not,
    Set.mem_insert_iff]
  by_cases hin : distance < next - newest
  · have hnew : next - distance ∉ seen := fun hmem => by
      have := hbound _ hmem
      omega
    constructor
    · rintro (⟨⟨_, hge⟩, _⟩ | ⟨_, rfl⟩)
      · exact absurd hin hge
      · exact Or.inl rfl
    · rintro (heq | hmem)
      · exact Or.inr ⟨by omega, by omega⟩
      · exact absurd hmem hnew
  · have hold := hrep (distance - (next - newest)) (by omega) (by omega)
    rw [show newest - (distance - (next - newest)) = next - distance by omega] at hold
    constructor
    · rintro (⟨_, hbit⟩ | ⟨_, hzero⟩)
      · exact Or.inr (hold.mp hbit)
      · omega
    · rintro (heq | hmem)
      · omega
      · exact Or.inl ⟨⟨hdistance, hin⟩, hold.mpr hmem⟩

/-- An older number inside the window sets its own bit. -/
theorem Represents.mark {bits : BitVec width} {newest distance : Nat} {seen : Set Nat}
    (hrep : Represents bits newest seen) (hle : distance ≤ newest) :
    Represents (bits ||| (BitVec.ofNat width 1 <<< distance)) newest
      (insert (newest - distance) seen) := by
  intro index hindex hindexLe
  simp only [BitVec.getLsbD_or, BitVec.getLsbD_shiftLeft, BitVec.getLsbD_one, Bool.or_eq_true,
    Bool.and_eq_true, decide_eq_true_eq, Bool.not_eq_true', decide_eq_false_iff_not,
    Set.mem_insert_iff]
  rw [hrep index hindex hindexLe]
  constructor
  · rintro (hmem | ⟨⟨_, hge⟩, _, hzero⟩)
    · exact Or.inr hmem
    · exact Or.inl (by omega)
  · rintro (heq | hmem)
    · exact Or.inr ⟨⟨hindex, by omega⟩, by omega, by omega⟩
    · exact Or.inl hmem

end SlidingWindow
