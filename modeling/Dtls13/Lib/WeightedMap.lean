import Mathlib.Algebra.Ring.Nat
import Mathlib.Data.List.AList

/-! # Finite maps with a total weight

A finite map whose entries have a weight, such as the bytes they hold. The total
weight, the number of entries and the other entries follow insertion and erasure.
-/

namespace WeightedMap

open List

variable {α β : Type} [DecidableEq α] (weight : β → Nat)

/-- The weight of all entries. -/
def total (m : AList fun _ : α => β) : Nat := (m.entries.map fun entry => weight entry.2).sum

variable {m : AList fun _ : α => β} {key : α} {value old : β}

omit [DecidableEq α] in
@[simp] theorem total_empty : total weight (∅ : AList fun _ : α => β) = 0 := rfl

theorem total_erase (hold : m.lookup key = some old) :
    total weight (m.erase key) + weight old = total weight m := by
  have hmem : key ∈ m.entries.keys :=
    AList.lookup_isSome.mp (Option.isSome_iff_exists.mpr ⟨_, hold⟩)
  obtain ⟨found, before, after, _, hentries, herase⟩ := exists_of_kerase hmem
  have hfound : found = old := by
    have hlookup : m.lookup key = some found :=
      AList.mem_lookup_iff.mpr (by rw [hentries]; simp)
    rw [hold] at hlookup
    exact (Option.some.inj hlookup).symm
  unfold total
  rw [show (m.erase key).entries = m.entries.kerase key from rfl, herase, hentries]
  simp [hfound]
  omega

theorem total_insert_new (hnew : m.lookup key = none) :
    total weight (m.insert key value) = weight value + total weight m := by
  unfold total
  rw [AList.entries_insert_of_notMem (AList.lookup_eq_none.mp hnew)]
  rfl

theorem total_insert_old (value : β) (hold : m.lookup key = some old) :
    total weight (m.insert key value) + weight old = weight value + total weight m := by
  rw [← total_erase weight hold, ← Nat.add_assoc]
  rfl

theorem keys_insert_new (hnew : m.lookup key = none) :
    (m.insert key value).keys.length = m.keys.length + 1 := by
  rw [AList.keys_insert, length_cons,
    erase_of_not_mem (AList.mem_keys.not.mp (AList.lookup_eq_none.mp hnew))]

theorem keys_erase_old (hold : m.lookup key = some old) :
    (m.erase key).keys.length + 1 = m.keys.length := by
  have hmem : key ∈ m.keys :=
    AList.mem_keys.mp (AList.lookup_isSome.mp (Option.isSome_iff_exists.mpr ⟨_, hold⟩))
  rw [AList.keys_erase, length_erase_of_mem hmem, Nat.sub_add_cancel (length_pos_of_mem hmem)]

theorem keys_insert_old (hold : m.lookup key = some old) :
    (m.insert key value).keys.length = m.keys.length := by
  rw [← keys_erase_old hold, AList.keys_insert, AList.keys_erase, length_cons]

theorem erase_insert_self (m : AList fun _ : α => β) (key : α) (value : β) :
    (m.insert key value).erase key = m.erase key := AList.ext (kerase_cons_eq rfl)

theorem erase_eq_self (hnone : m.lookup key = none) : m.erase key = m :=
  AList.ext (kerase_of_notMem_keys (AList.lookup_eq_none.mp hnone))

end WeightedMap
