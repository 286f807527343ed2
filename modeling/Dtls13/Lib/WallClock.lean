import Mathlib.Data.Int.Basic
import Mathlib.Algebra.Group.Nat.Defs
import Mathlib.Algebra.Order.Group.Int

/-! # Instants and durations of a wall clock

Instants have nanosecond resolution and count their seconds in a signed 64-bit
word from an origin long before the Unix epoch; a duration is a signed 64-bit
number of nanoseconds. Differences of instants saturate. The lemmas turn each comparison of
a difference into a comparison of integers.
-/

namespace WallClock

/-- One second, in nanoseconds. -/
def second : Int := 1000000000

def minute : Int := 60 * second

def maxDuration : Int := 2 ^ 63 - 1

def minDuration : Int := -2 ^ 63

/-- A signed 64-bit number of nanoseconds. -/
abbrev Duration := {d : Int // minDuration ≤ d ∧ d ≤ maxDuration}

/-- The seconds from the clock's origin, the first day of year 1, to the Unix epoch. -/
def epochOffset : Int := 62135596800

/-- A reading of the clock, as nanoseconds since the Unix epoch. -/
structure Instant where
  ns : Int
  low : -2 ^ 63 ≤ ns / second + epochOffset
  high : ns / second + epochOffset < 2 ^ 63
  deriving DecidableEq, Repr

namespace Instant

/-- The Unix time in seconds, as an unsigned 64-bit word. -/
def unix (t : Instant) : Nat := ((t.ns / second) % 2 ^ 64).toNat

/-- The instant a 64-bit word of Unix seconds stands for. Counting from the
origin wraps around. -/
def ofUnix (word : Nat) : Instant where
  ns := (Int.bmod (word + epochOffset) (2 ^ 64) - epochOffset) * second
  low := by
    have hbmod := @Int.le_bmod (word + epochOffset) (2 ^ 64) (by decide)
    rw [Int.mul_ediv_cancel _ (by decide)]
    omega
  high := by
    have hbmod := @Int.bmod_lt (word + epochOffset) (2 ^ 64) (by decide)
    rw [Int.mul_ediv_cancel _ (by decide)]
    omega

/-- The time elapsed since `u`, cut to what a duration holds. -/
def sub (t u : Instant) : Int := max minDuration (min maxDuration (t.ns - u.ns))

/-- The seconds from the origin that a sum has, cut to what they can hold. -/
def clampSeconds (s : Int) : Int :=
  if 2 ^ 63 ≤ s then 2 ^ 63 - 1 else if s < -2 ^ 63 then -(2 ^ 63 - 1) else s

theorem clampSeconds_bounds (s : Int) : -2 ^ 63 ≤ clampSeconds s ∧ clampSeconds s < 2 ^ 63 := by
  unfold clampSeconds
  split
  · omega
  · split <;> omega

theorem seconds_add_emod (s n : Int) : (s * second + n % second) / second = s := by
  unfold second
  omega

/-- The instant a duration later. -/
def add (t : Instant) (d : Int) : Instant where
  ns := (clampSeconds ((t.ns + d) / second + epochOffset) - epochOffset) * second +
    (t.ns + d) % second
  low := by
    rw [seconds_add_emod, Int.sub_add_cancel]
    exact (clampSeconds_bounds _).1
  high := by
    rw [seconds_add_emod, Int.sub_add_cancel]
    exact (clampSeconds_bounds _).2

theorem unix_lt (t : Instant) : t.unix < 2 ^ 64 := by
  unfold unix
  omega

/-- A word up to half its range stands for its Unix time, a greater one for a
time before the epoch. -/
theorem ofUnix_ns {word : Nat} (hword : word < 2 ^ 64) : (ofUnix word).ns =
      (if word + epochOffset < 2 ^ 63 then (word : Int) else word - 2 ^ 64) * second := by
  have hmod : Int.bmod (word + epochOffset) (2 ^ 64) =
      if word + epochOffset < 2 ^ 63 then word + epochOffset
      else word + epochOffset - 2 ^ 64 := by
    rw [Int.bmod_def]
    unfold epochOffset
    split <;> split <;> omega
  change (Int.bmod (word + epochOffset) (2 ^ 64) - epochOffset) * second = _
  rw [hmod]
  split
  · rw [Int.add_sub_cancel]
  · rw [sub_right_comm, Int.add_sub_cancel]

/-- A small Unix time is the number of seconds of the instant. -/
theorem unix_eq {t : Instant} (hsmall : t.unix < 2 ^ 62) : (t.unix : Int) = t.ns / second := by
  have hlow := t.low
  have hhigh := t.high
  unfold unix epochOffset at *
  omega

/-- Going through Unix seconds drops the fraction of the second. -/
theorem ofUnix_unix (t : Instant) : (ofUnix t.unix).ns = t.ns / second * second := by
  have hlow := t.low
  have hhigh := t.high
  simp only [ofUnix, unix]
  generalize t.ns / second = seconds at hlow hhigh ⊢
  have hword : ((seconds % 2 ^ 64).toNat : Int) = seconds % 2 ^ 64 :=
    Int.toNat_of_nonneg (Int.emod_nonneg _ (by decide))
  have hwrap : Int.bmod (seconds % 2 ^ 64 + epochOffset) (2 ^ 64) = seconds + epochOffset := by
    have hcongr := Int.emod_add_bmod (y := epochOffset) seconds (2 ^ 64)
    exact hcongr.trans (Int.bmod_eq_of_le (by omega) (by omega))
  rw [hword, hwrap]
  congr 1
  omega

theorem ofUnix_unix_le (t : Instant) : (ofUnix t.unix).ns ≤ t.ns := by
  rw [ofUnix_unix]
  exact Int.ediv_mul_le _ (by decide)

theorem lt_ofUnix_unix_add (t : Instant) : t.ns < (ofUnix t.unix).ns + second := by
  have hlt := Int.lt_ediv_add_one_mul_self t.ns (by decide : 0 < second)
  rwa [ofUnix_unix, ← Int.one_mul second, ← Int.mul_assoc, Int.mul_one, ← Int.add_mul]

theorem sub_lt_iff {t u : Instant} {d : Int} (hlow : minDuration < d) (hhigh : d ≤ maxDuration) :
    t.sub u < d ↔ t.ns < u.ns + d := by
  unfold sub
  omega

theorem lt_sub_iff {t u : Instant} {d : Int} (hlow : minDuration ≤ d) (hhigh : d < maxDuration) :
    d < t.sub u ↔ u.ns + d < t.ns := by
  unfold sub
  omega

end Instant

end WallClock
