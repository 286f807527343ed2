import Dtls13.Lib.ByteCodec
import Dtls13.Lib.StateLogic

/-! # Sequences of framed elements

A parser that takes one element off the front of its input, run until nothing is
left. If it takes exactly the encodings of elements, the run accepts exactly the
encodings put one after the other. The elements may be collected in storage that
was used before.
-/

/-- A part of a longer storage, from its start. -/
structure Slice (α : Type) where
  storage : List α
  length : Nat
  within : length ≤ storage.length

namespace Slice

open List

variable {α : Type}

def value (s : Slice α) : List α := s.storage.take s.length

def nil : Slice α := ⟨[], 0, Nat.le_refl _⟩

/-- The empty slice of the same storage. -/
def truncate (s : Slice α) : Slice α := ⟨s.storage, 0, Nat.zero_le _⟩

/-- Appending writes to the storage behind the slice, or moves to a new one if it is full. -/
def append (s : Slice α) (a : α) : Slice α :=
  if hroom : s.length < s.storage.length then
    ⟨s.storage.set s.length a, s.length + 1, by rwa [List.length_set]⟩
  else ⟨s.storage ++ [a], s.length + 1, by simpa using s.within⟩

theorem value_append (s : Slice α) (a : α) : (s.append a).value = s.value ++ [a] := by
  unfold append value
  split
  next hroom =>
    rw [take_add_one, List.getElem?_set_self hroom, take_set_of_le (Nat.le_refl _)]
    rfl
  next hfull =>
    have hlength : s.length = s.storage.length := Nat.le_antisymm s.within (Nat.le_of_not_lt hfull)
    simp [hlength, take_of_length_le]

end Slice

namespace Framing

open ByteCodec StateLogic

variable {ε α : Type}

/-- The bytes themselves, or a copy of them in storage of their own. -/
def copyBytes (copied : Bool) (b : Bytes) : Bytes := if copied then [] ++ b else b

@[simp] theorem copyBytes_eq (copied : Bool) (b : Bytes) : copyBytes copied b = b := by
  simp [copyBytes]

/-- Elements up to the end of the input; each takes at least one byte. -/
def parseAll (parse : Bytes → Except ε (α × Bytes)) : Nat → Bytes → Except ε (List α)
  | 0, _ => .ok []
  | fuel + 1, b =>
    if b = [] then .ok []
    else do
      let (a, rest) ← parse b
      let others ← parseAll parse fuel rest
      pure (a :: others)

/-- The same, with the elements appended to a slice. -/
def parseInto (parse : Bytes → Except ε (α × Bytes)) :
    Nat → Bytes → Slice α → Except ε (Slice α)
  | 0, _, out => .ok out
  | fuel + 1, b, out =>
    if b = [] then .ok out
    else do
      let (a, rest) ← parse b
      parseInto parse fuel rest (out.append a)

/-- Encodings of the elements one after the other. -/
def Encoded (Encodes : α → Bytes → Prop) : List α → Bytes → Prop
  | [], b => b = []
  | a :: others, b => ∃ e rest, Encodes a e ∧ b = e ++ rest ∧ Encoded Encodes others rest

theorem encoded_flatten {R Encodes : α → Bytes → Prop} {elements : List α}
    {encodings : List Bytes} (hR : ∀ {a e}, R a e → Encodes a e)
    (hall : List.Forall₂ R elements encodings) : Encoded Encodes elements encodings.flatten := by
  induction hall with
  | nil => rfl
  | cons he hall ih => exact ⟨_, _, hR he, rfl, ih⟩

/-- The parser takes exactly the encodings off the front of its input. -/
structure Exact (parse : Bytes → Except ε (α × Bytes)) (Encodes : α → Bytes → Prop) : Prop where
  eq_ok_iff : ∀ {b a rest}, parse b = .ok (a, rest) ↔ ∃ e, Encodes a e ∧ b = e ++ rest
  ne_nil : ∀ {a e}, Encodes a e → e ≠ []

variable {parse : Bytes → Except ε (α × Bytes)} {Encodes : α → Bytes → Prop}

/-- Nothing encodes no element only. -/
theorem encoded_nil_iff (hne : ∀ {a e}, Encodes a e → e ≠ []) {elements : List α} :
    Encoded Encodes elements [] ↔ elements = [] := by
  cases elements with
  | nil => exact iff_of_true rfl rfl
  | cons a others =>
    refine iff_of_false ?_ (List.cons_ne_nil _ _)
    rintro ⟨e, rest, he, hnil, -⟩
    exact hne he (List.append_eq_nil_iff.mp hnil.symm).1

/-- After an element less is left, so that the fuel suffices. -/
theorem length_le_of_append {fuel : Nat} {e rest : Bytes} (hne : e ≠ [])
    (hfuel : (e ++ rest).length ≤ fuel + 1) : rest.length ≤ fuel := by
  have hpos := List.length_pos_iff.mpr hne
  rw [List.length_append] at hfuel
  omega

theorem Exact.parseAll_eq_ok_iff (hparse : Exact parse Encodes) {fuel : Nat} {b : Bytes}
    (hfuel : b.length ≤ fuel) {elements : List α} :
    parseAll parse fuel b = .ok elements ↔ Encoded Encodes elements b := by
  induction fuel generalizing b elements with
  | zero =>
    obtain rfl := List.length_eq_zero_iff.mp (Nat.le_zero.mp hfuel)
    simp [parseAll, encoded_nil_iff hparse.ne_nil, eq_comm]
  | succ fuel ih =>
    by_cases hnil : b = []
    · simp [hnil, parseAll, encoded_nil_iff hparse.ne_nil, eq_comm]
    · rw [parseAll, if_neg hnil, bind_eq_ok]
      constructor
      · rintro ⟨⟨a, rest⟩, hfirst, hloop⟩
        obtain ⟨others, hothers, hend⟩ := bind_eq_ok.mp hloop
        cases hend
        obtain ⟨e, he, rfl⟩ := hparse.eq_ok_iff.mp hfirst
        have hrest := length_le_of_append (hparse.ne_nil he) hfuel
        exact ⟨e, rest, he, rfl, (ih hrest).mp hothers⟩
      · intro hencoded
        cases elements with
        | nil => exact absurd hencoded hnil
        | cons a others =>
          obtain ⟨e, rest, he, rfl, hothers⟩ := hencoded
          have hrest := length_le_of_append (hparse.ne_nil he) hfuel
          exact ⟨(a, rest), hparse.eq_ok_iff.mpr ⟨e, he, rfl⟩,
            bind_eq_ok.mpr ⟨others, (ih hrest).mpr hothers, rfl⟩⟩

theorem map_value_parseInto (fuel : Nat) (b : Bytes) (out : Slice α) :
    (parseInto parse fuel b out).map Slice.value =
      (parseAll parse fuel b).map (out.value ++ ·) := by
  induction fuel generalizing b out with
  | zero => simp [parseInto, parseAll, Except.map]
  | succ fuel ih =>
    rw [parseInto, parseAll]
    split
    · simp [Except.map]
    · cases hfirst : parse b with
      | error err => rfl
      | ok pair =>
        change (parseInto parse fuel pair.2 (out.append pair.1)).map Slice.value = _
        rw [ih, Slice.value_append]
        cases hothers : parseAll parse fuel pair.2 with
        | error err => simp [hothers, Except.map, bind, Except.bind]
        | ok others => simp [hothers, Except.map, bind, Except.bind, pure, Except.pure]

end Framing
