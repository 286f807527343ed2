import Mathlib.Data.List.Perm.Basic

/-! # Binary heaps

A heap in a list: the children of position `i` are at `2 * i + 1` and `2 * i + 2`.
An element is added at the end and moved up; the root is removed by exchanging it
with the last element, which is moved down.
-/

namespace BinaryHeap

open List

variable {α : Type*} (less : α → α → Bool)

/-- The order of two positions. -/
def lessAt (xs : List α) (i j : Nat) : Bool :=
  match xs[i]?, xs[j]? with
  | some a, some b => less a b
  | _, _ => false

/-- Moves the element at `j` up while it is before its parent. -/
def up (xs : List α) (j : Nat) : List α :=
  if h : (j - 1) / 2 = j ∨ lessAt less xs j ((j - 1) / 2) = false then xs
  else up (xs.swap ((j - 1) / 2) j) ((j - 1) / 2)
termination_by j
decreasing_by omega

/-- The child of `i` that comes first, of those before position `n`. -/
def firstChild (xs : List α) (i n : Nat) : Nat :=
  if 2 * i + 2 < n ∧ lessAt less xs (2 * i + 2) (2 * i + 1) = true then 2 * i + 2 else 2 * i + 1

theorem firstChild_bounds (xs : List α) {i n : Nat} (hn : 2 * i + 1 < n) :
    i < firstChild less xs i n ∧ firstChild less xs i n < n := by
  unfold firstChild
  split <;> omega

/-- Moves the element at `i` down, within the first `n` positions, while a child is
before it. -/
def down (xs : List α) (i n : Nat) : List α :=
  if _h : n ≤ 2 * i + 1 ∨ lessAt less xs (firstChild less xs i n) i = false then xs
  else down (xs.swap i (firstChild less xs i n)) (firstChild less xs i n) n
termination_by n - i
decreasing_by
  have hbounds := firstChild_bounds less xs (i := i) (n := n) (by omega)
  omega

def push (xs : List α) (x : α) : List α := up less (xs ++ [x]) xs.length

/-- The removed element and the rest; nothing for an empty heap. -/
def pop (xs : List α) : Option (α × List α) :=
  let last := xs.length - 1
  let moved := down less (xs.swap 0 last) 0 last
  moved[last]?.map fun x => (x, moved.take last)

variable {less}

theorem up_perm (xs : List α) (j : Nat) : (up less xs j).Perm xs := by
  fun_induction up less xs j with
  | case1 xs j hstop => exact List.Perm.refl xs
  | case2 xs j hmove ih => exact ih.trans (swap_perm xs _ _)

theorem push_perm (less : α → α → Bool) (xs : List α) (x : α) : (push less xs x).Perm (x :: xs) :=
  (up_perm _ _).trans (perm_append_singleton x xs)

theorem down_perm (xs : List α) (i n : Nat) : (down less xs i n).Perm xs := by
  fun_induction down less xs i n with
  | case1 xs i hstop => exact List.Perm.refl xs
  | case2 xs i hmove ih => exact ih.trans (swap_perm xs _ _)

/-- Moving down does not touch the positions from `n` on. -/
theorem down_getElem? {xs : List α} {i n k : Nat} (hi : i ≤ n) (hk : n ≤ k) (hne : i < k) :
    (down less xs i n)[k]? = xs[k]? := by
  fun_induction down less xs i n with
  | case1 xs i hstop => rfl
  | case2 xs i hmove ih =>
    obtain ⟨hlow, hhigh⟩ := firstChild_bounds less xs (i := i) (n := n) (by omega)
    rw [ih (by omega) (by omega)]
    by_cases hlength : k < xs.length
    · rw [List.getElem?_eq_getElem (by simpa using hlength), List.getElem?_eq_getElem hlength,
        getElem_swap_of_ne (by omega) (by omega)]
    · rw [List.getElem?_eq_none (by simpa using hlength), List.getElem?_eq_none (by omega)]

theorem pop_nil : pop less ([] : List α) = none := by
  have hnil : down less ([] : List α) 0 0 = [] := perm_nil.mp (down_perm [] 0 0)
  simp [pop, List.swap, hnil]

/-- What is removed is the root, and the rest stays. -/
theorem pop_cons (less : α → α → Bool) (root : α) (rest : List α) :
    ∃ remaining, pop less (root :: rest) = some (root, remaining) ∧ remaining.Perm rest := by
  let moved := down less ((root :: rest).swap 0 rest.length) 0 rest.length
  have hperm : moved.Perm (root :: rest) :=
    (down_perm _ _ _).trans (swap_perm _ _ _)
  have hlast : moved[rest.length]? = some root := by
    cases rest with
    | nil =>
      have hsingle : moved = [root] := perm_singleton.mp hperm
      simp [hsingle]
    | cons head tail =>
      have hkept : moved[(head :: tail).length]? =
          ((root :: head :: tail).swap 0 (head :: tail).length)[(head :: tail).length]? :=
        down_getElem? (by simp) (by simp) (by simp)
      rw [hkept, List.getElem?_eq_getElem (by simp)]
      simp
  have hsplit : moved = moved.take rest.length ++ [root] := by
    have hlength : moved.length = rest.length + 1 := by simpa using hperm.length_eq
    have htake : moved.take (rest.length + 1) = moved := by rw [← hlength, take_length]
    rw [take_add_one, hlast] at htake
    exact htake.symm
  refine ⟨moved.take rest.length, ?_, ?_⟩
  · have hpop : pop less (root :: rest) =
        moved[rest.length]?.map fun x => (x, moved.take rest.length) := rfl
    rw [hpop, hlast]
    rfl
  · have happend : (root :: moved.take rest.length).Perm (root :: rest) :=
      (perm_append_singleton root _).symm.trans (hsplit ▸ hperm)
    exact happend.cons_inv

end BinaryHeap
