import Dtls13.Lib.SlidingWindow

/-! # Bitmaps kept in words

A set of positions as a list of machine words: position `i` is bit `i % width` of
word `i / width`. Ranges of positions are tested and marked a word at a time, with
a mask that cuts the range to the word.
-/

namespace WordBitmap

variable {width : Nat}

/-- Whether a position is marked. -/
def bit (words : List (BitVec width)) (i : Nat) : Bool :=
  (words.getD (i / width) (BitVec.ofNat width 0)).getLsbD (i % width)

/-- The bits of a word from `low` on; below `high`, unless `high` is zero. -/
def mask (width low high : Nat) : BitVec width :=
  if high ≠ 0 then
    (BitVec.allOnes width <<< low) &&& ((BitVec.ofNat width 1 <<< high) - BitVec.ofNat width 1)
  else BitVec.allOnes width <<< low

/-- Where the word of `start` ends, or the range if it ends before. -/
def wordEnd (width start stop : Nat) : Nat := min ((start / width + 1) * width) stop

def rangeClearFrom (words : List (BitVec width)) (stop : Nat) : Nat → Nat → Bool
  | 0, _ => true
  | fuel + 1, start =>
    if start < stop then
      if words.getD (start / width) (BitVec.ofNat width 0) &&&
          mask width (start % width) (wordEnd width start stop % width) != BitVec.ofNat width 0
      then false
      else rangeClearFrom words stop fuel (wordEnd width start stop)
    else true

/-- No position of the range is marked. -/
def rangeClear (words : List (BitVec width)) (start stop : Nat) : Bool :=
  rangeClearFrom words stop (stop - start) start

/-- Marks the positions of the mask in one word. -/
def orWord (words : List (BitVec width)) (index : Nat) (bits : BitVec width) :
    List (BitVec width) :=
  words.set index (words.getD index (BitVec.ofNat width 0) ||| bits)

def setRangeFrom (stop : Nat) : Nat → List (BitVec width) → Nat → List (BitVec width)
  | 0, words, _ => words
  | fuel + 1, words, start =>
    if start < stop then
      setRangeFrom stop fuel (orWord words (start / width)
        (mask width (start % width) (wordEnd width start stop % width)))
        (wordEnd width start stop)
    else words

/-- Marks every position of the range. -/
def setRange (words : List (BitVec width)) (start stop : Nat) : List (BitVec width) :=
  setRangeFrom stop (stop - start) words start

/-- The mask test of one position. -/
def testBit (words : List (BitVec width)) (i : Nat) : Bool :=
  words.getD (i / width) (BitVec.ofNat width 0) &&& (BitVec.ofNat width 1 <<< (i % width)) !=
    BitVec.ofNat width 0

/-- Marks one position. -/
def setBit (words : List (BitVec width)) (i : Nat) : List (BitVec width) :=
  orWord words (i / width) (BitVec.ofNat width 1 <<< (i % width))

/-! ## Masks -/

theorem getLsbD_low_bits {high : Nat} (hhigh : high < width) (i : Nat) :
    ((BitVec.ofNat width 1 <<< high) - BitVec.ofNat width 1).getLsbD i = decide (i < high) := by
  have hwidth : 1 < 2 ^ width := Nat.one_lt_two_pow (by omega)
  have hpow : 2 ^ high < 2 ^ width := Nat.pow_lt_pow_right (by omega) hhigh
  have hpos : 0 < 2 ^ high := Nat.two_pow_pos high
  have hvalue : ((BitVec.ofNat width 1 <<< high) - BitVec.ofNat width 1).toNat = 2 ^ high - 1 := by
    rw [BitVec.toNat_sub, BitVec.toNat_shiftLeft, BitVec.toNat_ofNat, Nat.mod_eq_of_lt hwidth,
      Nat.shiftLeft_eq, Nat.one_mul, Nat.mod_eq_of_lt hpow]
    rw [show 2 ^ width - 1 + 2 ^ high = 2 ^ high - 1 + 2 ^ width by omega, Nat.add_mod_right]
    exact Nat.mod_eq_of_lt (by omega)
  rw [BitVec.getLsbD, hvalue, Nat.testBit_two_pow_sub_one]

theorem getLsbD_mask {low high i : Nat} (hi : i < width) (hhigh : high < width) :
    (mask width low high).getLsbD i = decide (low ≤ i ∧ (high = 0 ∨ i < high)) := by
  have hupward : (BitVec.allOnes width <<< low).getLsbD i = decide (low ≤ i) := by
    rw [BitVec.getLsbD_shiftLeft, BitVec.getLsbD_allOnes]
    by_cases hlow : low ≤ i
    · simp [hi, hlow, show ¬i < low by omega, show i - low < width by omega]
    · simp [hlow, show i < low by omega]
  unfold mask
  by_cases hzero : high = 0
  · rw [if_neg (not_not.mpr hzero), hupward]
    simp [hzero]
  · rw [if_pos hzero, BitVec.getLsbD_and, hupward, getLsbD_low_bits hhigh]
    simp [hzero]

/-- The mask of a loop step selects the positions of the range in the word. -/
theorem getLsbD_rangeMask {start stop i : Nat} (hstart : start < stop)
    (hword : i / width = start / width) (hwidth : 0 < width) :
    (mask width (start % width) (wordEnd width start stop % width)).getLsbD (i % width) =
      decide (start ≤ i ∧ i < wordEnd width start stop) := by
  have hi := Nat.div_add_mod i width
  have hs := Nat.div_add_mod start width
  have hilt := Nat.mod_lt i hwidth
  have hslt := Nat.mod_lt start hwidth
  rw [hword] at hi
  rw [getLsbD_mask hilt (Nat.mod_lt _ hwidth), decide_eq_decide]
  have hnext : (start / width + 1) * width = width * (start / width) + width := by
    rw [Nat.succ_mul, Nat.mul_comm]
  unfold wordEnd
  rcases le_total ((start / width + 1) * width) stop with hle | hle
  · rw [min_eq_left hle, Nat.mul_mod_left]
    omega
  · -- The range ends in this word, at its last position at the latest.
    rw [min_eq_right hle]
    rcases hle.eq_or_lt with heq | hlt
    · rw [heq, Nat.mul_mod_left]
      omega
    · have hdiv : stop / width = start / width := by
        apply Nat.div_eq_of_lt_le
        · exact le_trans (Nat.div_mul_le_self start width) hstart.le
        · exact hlt
      have hstop := Nat.div_add_mod stop width
      rw [hdiv] at hstop
      omega

/-! ## Reading and marking -/

theorem testBit_eq_bit (words : List (BitVec width)) {i : Nat} (hwidth : 0 < width) :
    testBit words i = bit words i := by
  have hzero := SlidingWindow.and_mask_eq_zero_iff
    (words.getD (i / width) (BitVec.ofNat width 0)) (Nat.mod_lt i hwidth)
  unfold testBit bit
  rw [Bool.eq_iff_iff, bne_iff_ne, Ne, hzero, Bool.not_eq_false]

theorem bit_orWord {words : List (BitVec width)} {index : Nat} (hindex : index < words.length)
    (bits : BitVec width) (i : Nat) : bit (orWord words index bits) i =
      (bit words i || (decide (i / width = index) && bits.getLsbD (i % width))) := by
  unfold bit orWord
  by_cases hsame : i / width = index
  · subst hsame
    rw [List.getD_eq_getElem?_getD, List.getElem?_set_self hindex]
    simp
  · rw [List.getD_eq_getElem?_getD, List.getElem?_set_ne (Ne.symm hsame)]
    simp [hsame]

@[simp] theorem orWord_length (words : List (BitVec width)) (index : Nat) (bits : BitVec width) :
    (orWord words index bits).length = words.length := List.length_set

theorem bit_setBit {words : List (BitVec width)} {i : Nat} (hwidth : 0 < width)
    (hi : i < width * words.length) (j : Nat) :
    bit (setBit words i) j = (bit words j || decide (j = i)) := by
  have hindex : i / width < words.length := Nat.div_lt_of_lt_mul hi
  have hjlt := Nat.mod_lt j hwidth
  have hilt := Nat.mod_lt i hwidth
  have hi' := Nat.div_add_mod i width
  have hj' := Nat.div_add_mod j width
  unfold setBit
  rw [bit_orWord hindex, BitVec.getLsbD_shiftLeft, BitVec.getLsbD_one]
  congr 1
  by_cases heq : j = i
  · subst heq
    simp [hjlt]
    omega
  · by_cases hword : j / width = i / width
    · rw [hword] at hj'
      have hne : j % width ≠ i % width := fun hmod => heq (by omega)
      simp only [heq, hword, decide_true, Bool.true_and, decide_false]
      by_cases hlt : j % width < i % width
      · simp [hlt]
      · simp [show ¬j % width - i % width = 0 by omega]
    · simp [heq, hword]

theorem setBit_length (words : List (BitVec width)) (i : Nat) :
    (setBit words i).length = words.length := orWord_length _ _ _

variable {start stop : Nat}

theorem start_lt_wordEnd (hwidth : 0 < width) (hstart : start < stop) :
    start < wordEnd width start stop := by
  have hs := Nat.div_add_mod start width
  have hslt := Nat.mod_lt start hwidth
  have hnext : (start / width + 1) * width = width * (start / width) + width := by
    rw [Nat.succ_mul, Nat.mul_comm]
  exact lt_min (by omega) hstart

theorem wordEnd_le (width start stop : Nat) : wordEnd width start stop ≤ stop := min_le_right _ _

/-- The positions before the end of the word, and from `start` on, are in its word. -/
theorem div_eq_of_lt_wordEnd {start stop i : Nat} (hle : start ≤ i)
    (hlt : i < wordEnd width start stop) : i / width = start / width := by
  have hend : i < (start / width + 1) * width := lt_of_lt_of_le hlt (min_le_left _ _)
  apply Nat.div_eq_of_lt_le
  · exact le_trans (Nat.div_mul_le_self start width) hle
  · exact hend

/-- What a step of the test finds in a word. -/
theorem and_rangeMask_eq_zero_iff (words : List (BitVec width))
    (hwidth : 0 < width) (hstart : start < stop) :
    words.getD (start / width) (BitVec.ofNat width 0) &&&
        mask width (start % width) (wordEnd width start stop % width) = BitVec.ofNat width 0 ↔
      ∀ i, start ≤ i → i < wordEnd width start stop → bit words i = false := by
  constructor
  · intro hzero i hle hlt
    have hdiv := div_eq_of_lt_wordEnd hle hlt
    have hbit := congrArg (fun value => value.getLsbD (i % width)) hzero
    rw [BitVec.getLsbD_and, getLsbD_rangeMask hstart hdiv hwidth] at hbit
    simpa [bit, hdiv, hle, hlt] using hbit
  · intro hclear
    apply BitVec.eq_of_getLsbD_eq
    intro j hj
    have hposition : (width * (start / width) + j) / width = start / width := by
      rw [Nat.mul_add_div hwidth, Nat.div_eq_of_lt hj, Nat.add_zero]
    have hoffset : (width * (start / width) + j) % width = j := by
      rw [Nat.mul_add_mod, Nat.mod_eq_of_lt hj]
    have hmask := getLsbD_rangeMask (i := width * (start / width) + j) hstart hposition hwidth
    rw [hoffset] at hmask
    rw [BitVec.getLsbD_and, hmask]
    by_cases hin : start ≤ width * (start / width) + j ∧
        width * (start / width) + j < wordEnd width start stop
    · have hbit := hclear _ hin.1 hin.2
      rw [bit, hposition, hoffset] at hbit
      simp only [hbit, Bool.false_and, BitVec.getLsbD_zero]
    · simp [hin]

theorem rangeClearFrom_iff {words : List (BitVec width)} {stop fuel start : Nat}
    (hwidth : 0 < width) (hfuel : stop ≤ start + fuel) :
    rangeClearFrom words stop fuel start = true ↔
      ∀ i, start ≤ i → i < stop → bit words i = false := by
  induction fuel generalizing start with
  | zero =>
    refine ⟨fun _ i hle hlt => ?_, fun _ => rfl⟩
    omega
  | succ fuel ih =>
    unfold rangeClearFrom
    by_cases hstart : start < stop
    · have hnext := start_lt_wordEnd hwidth hstart
      have hstop := wordEnd_le width start stop
      have hword := and_rangeMask_eq_zero_iff words hwidth hstart
      rw [if_pos hstart]
      by_cases hzero : words.getD (start / width) (BitVec.ofNat width 0) &&&
          mask width (start % width) (wordEnd width start stop % width) = BitVec.ofNat width 0
      · rw [if_neg (by simpa using hzero), ih (by omega)]
        refine ⟨fun hrest i hle hlt => ?_, fun hall i hle hlt => hall i (by omega) hlt⟩
        by_cases hin : i < wordEnd width start stop
        · exact hword.mp hzero i hle hin
        · exact hrest i (by omega) hlt
      · rw [if_pos (by simpa using hzero)]
        refine ⟨fun hfalse => absurd hfalse (by simp), fun hall => absurd ?_ hzero⟩
        exact hword.mpr fun i hle hlt => hall i hle (by omega)
    · rw [if_neg hstart]
      refine ⟨fun _ i hle hlt => ?_, fun _ => rfl⟩
      omega

/-- The word-wise test is the test of every position. -/
theorem rangeClear_iff {words : List (BitVec width)} (hwidth : 0 < width) :
    rangeClear words start stop = true ↔ ∀ i, start ≤ i → i < stop → bit words i = false :=
  rangeClearFrom_iff hwidth (by omega)

theorem setRangeFrom_spec {stop fuel : Nat} (words : List (BitVec width)) (start : Nat)
    (hwidth : 0 < width) (hfuel : stop ≤ start + fuel) (hstop : stop ≤ width * words.length) :
    (setRangeFrom stop fuel words start).length = words.length ∧
      ∀ i, bit (setRangeFrom stop fuel words start) i =
        (bit words i || decide (start ≤ i ∧ i < stop)) := by
  induction fuel generalizing words start with
  | zero =>
    refine ⟨rfl, fun i => ?_⟩
    have hnone : ¬(start ≤ i ∧ i < stop) := by omega
    simp [setRangeFrom, hnone]
  | succ fuel ih =>
    unfold setRangeFrom
    by_cases hstart : start < stop
    · have hnext := start_lt_wordEnd hwidth hstart
      have hend := wordEnd_le width start stop
      have hindex : start / width < words.length := Nat.div_lt_of_lt_mul (by omega)
      rw [if_pos hstart]
      obtain ⟨hlength, hbits⟩ := ih (orWord words (start / width)
        (mask width (start % width) (wordEnd width start stop % width)))
        (wordEnd width start stop) (by omega) (by simpa using hstop)
      refine ⟨hlength.trans (orWord_length _ _ _), fun i => ?_⟩
      rw [hbits, bit_orWord hindex, Bool.or_assoc]
      congr 1
      by_cases hword : i / width = start / width
      · rw [getLsbD_rangeMask hstart hword hwidth]
        simp only [hword, decide_true, Bool.true_and, ← Bool.decide_or, decide_eq_decide]
        omega
      · have hout : ¬(start ≤ i ∧ i < wordEnd width start stop) := fun hin =>
          hword (div_eq_of_lt_wordEnd hin.1 hin.2)
        simp only [hword, decide_false, Bool.false_and, Bool.false_or, decide_eq_decide]
        omega
    · rw [if_neg hstart]
      refine ⟨rfl, fun i => ?_⟩
      have hnone : ¬(start ≤ i ∧ i < stop) := by omega
      simp [hnone]

/-- Marking a range word by word marks the positions of the range and no others. -/
theorem bit_setRange {words : List (BitVec width)} (hwidth : 0 < width)
    (hstop : stop ≤ width * words.length) (i : Nat) :
    bit (setRange words start stop) i = (bit words i || decide (start ≤ i ∧ i < stop)) :=
  (setRangeFrom_spec words start hwidth (by omega) hstop).2 i

theorem setRange_length {words : List (BitVec width)} (hwidth : 0 < width)
    (hstop : stop ≤ width * words.length) : (setRange words start stop).length = words.length :=
  (setRangeFrom_spec words start hwidth (by omega) hstop).1

theorem bit_replicate (count i : Nat) :
    bit (List.replicate count (BitVec.ofNat width 0)) i = false := by
  unfold bit
  rw [List.getD_eq_getElem?_getD, List.getElem?_replicate]
  split_ifs <;> simp

end WordBitmap
