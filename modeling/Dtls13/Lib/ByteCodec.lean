import Mathlib.Data.List.Basic
import Mathlib.Tactic.Ring

/-! # Big-endian numbers in byte strings

Fixed-width big-endian encoding and its inverse, and byte-wise masking. A width
that does not hold the value keeps its low-order
bytes, as a conversion to a narrower machine integer does.
-/

namespace ByteCodec

open List

abbrev Bytes := List UInt8

/-- The `width` low-order bytes of `value`, most significant first. -/
def beBytes : Nat → Nat → Bytes
  | 0, _ => []
  | width + 1, value => UInt8.ofNat (value >>> (8 * width)) :: beBytes width value

/-- The number a byte string denotes, most significant byte first. -/
def beNat : Bytes → Nat
  | [] => 0
  | byte :: rest => byte.toNat * 256 ^ rest.length + beNat rest

@[simp] theorem beBytes_length (width value : Nat) : (beBytes width value).length = width := by
  induction width with
  | zero => rfl
  | succ width ih => simp [beBytes, ih]

theorem beNat_lt (bytes : Bytes) : beNat bytes < 256 ^ bytes.length := by
  induction bytes with
  | nil => simp [beNat]
  | cons byte rest ih =>
    have hbyte : byte.toNat + 1 ≤ 256 := byte.toNat_lt
    calc
      beNat (byte :: rest) < byte.toNat * 256 ^ rest.length + 256 ^ rest.length := by
        simpa [beNat] using ih
      _ = (byte.toNat + 1) * 256 ^ rest.length := by ring
      _ ≤ 256 * 256 ^ rest.length := Nat.mul_le_mul_right _ hbyte
      _ = 256 ^ (byte :: rest).length := by simp [pow_succ, Nat.mul_comm]

theorem two_pow_eight_mul (width : Nat) : (2 : Nat) ^ (8 * width) = 256 ^ width := by
  rw [pow_mul]
  rfl

theorem beNat_beBytes_mod (width value : Nat) :
    beNat (beBytes width value) = value % 256 ^ width := by
  induction width with
  | zero => simp [beBytes, beNat, Nat.mod_one]
  | succ width ih =>
    have hhead : (UInt8.ofNat (value >>> (8 * width))).toNat = value / 256 ^ width % 256 := by
      rw [UInt8.toNat_ofNat', Nat.shiftRight_eq_div_pow, two_pow_eight_mul]
    rw [beBytes, beNat, beBytes_length, ih, hhead, pow_succ, Nat.mod_mul, Nat.mul_comm,
      Nat.add_comm]

theorem beNat_beBytes (width : Nat) {value : Nat} (hvalue : value < 256 ^ width) :
    beNat (beBytes width value) = value := by
  rw [beNat_beBytes_mod, Nat.mod_eq_of_lt hvalue]

/-- Byte strings of one length denote different numbers. -/
theorem beNat_inj {left right : Bytes} (hlength : left.length = right.length)
    (heq : beNat left = beNat right) : left = right := by
  induction left generalizing right with
  | nil => exact (length_eq_zero_iff.mp hlength.symm).symm
  | cons byte rest ih =>
    cases right with
    | nil => simp at hlength
    | cons other tail =>
      have htail : rest.length = tail.length := by simpa using hlength
      simp only [beNat, htail] at heq
      have hrest := beNat_lt rest
      rw [htail] at hrest
      -- the parts are quotient and remainder by the same power
      have hquotient := congrArg (· / 256 ^ tail.length) heq
      have hremainder := congrArg (· % 256 ^ tail.length) heq
      have hpos : 0 < 256 ^ tail.length := Nat.pow_pos (by decide)
      simp only [Nat.mul_add_mod_self_right, Nat.mod_eq_of_lt hrest,
        Nat.mod_eq_of_lt (beNat_lt tail)] at hremainder
      simp only [Nat.mul_comm _ (256 ^ tail.length), Nat.mul_add_div hpos,
        Nat.div_eq_of_lt hrest, Nat.div_eq_of_lt (beNat_lt tail), Nat.add_zero] at hquotient
      rw [UInt8.toNat_inj.mp hquotient, ih htail hremainder]

/-- Reading a byte string and writing it back in its own width. -/
theorem beBytes_beNat (bytes : Bytes) : beBytes bytes.length (beNat bytes) = bytes := by
  apply beNat_inj (beBytes_length _ _)
  exact beNat_beBytes _ (beNat_lt bytes)

/-- A number read at a position, written back in front of what follows it. -/
theorem drop_eq_beBytes (bytes : Bytes) (start width : Nat) (hfits : start + width ≤ bytes.length) :
    bytes.drop start =
      beBytes width (beNat ((bytes.drop start).take width)) ++ bytes.drop (start + width) := by
  have hlength : ((bytes.drop start).take width).length = width := by
    rw [length_take, length_drop]
    omega
  have hfield := beBytes_beNat ((bytes.drop start).take width)
  rw [hlength] at hfield
  rw [hfield, ← drop_drop, take_append_drop]

/-- A width that holds both numbers encodes them differently. -/
theorem beBytes_inj {width left right : Nat} (hleft : left < 256 ^ width)
    (hright : right < 256 ^ width) (heq : beBytes width left = beBytes width right) :
    left = right := by
  rw [← beNat_beBytes width hleft, heq, beNat_beBytes width hright]

/-- Byte-wise exclusive or, as long as the shorter string. -/
def xorBytes (left right : Bytes) : Bytes := List.zipWith (· ^^^ ·) left right

@[simp] theorem xorBytes_length (left right : Bytes) :
    (xorBytes left right).length = min left.length right.length := length_zipWith

theorem xorBytes_comm (left right : Bytes) : xorBytes left right = xorBytes right left :=
  zipWith_comm_of_comm UInt8.xor_comm

/-- Masking twice with one mask gives the bytes back. -/
theorem xorBytes_cancel {bytes mask : Bytes} (hmask : bytes.length ≤ mask.length) :
    xorBytes (xorBytes bytes mask) mask = bytes := by
  induction bytes generalizing mask with
  | nil => rfl
  | cons byte rest ih =>
    cases mask with
    | nil => simp at hmask
    | cons first mask =>
      have hrest := ih (Nat.le_of_succ_le_succ hmask)
      simp only [xorBytes, zipWith_cons_cons] at hrest ⊢
      rw [hrest, UInt8.xor_assoc, UInt8.xor_self, UInt8.xor_zero]

/-- Under one mask, different bytes stay different. -/
theorem xorBytes_inj {mask left right : Bytes} (hleft : left.length ≤ mask.length)
    (hright : right.length ≤ mask.length) (heq : xorBytes mask left = xorBytes mask right) :
    left = right := by
  rw [xorBytes_comm mask, xorBytes_comm mask] at heq
  rw [← xorBytes_cancel hleft, heq, xorBytes_cancel hright]

end ByteCodec
