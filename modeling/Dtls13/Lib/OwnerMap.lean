import Dtls13.Lib.WeightedMap

/-! # Finite maps from keys to their owners

A table of what belongs to whom, from which all entries of one owner are taken
out at once, and the number of its entries under insertion and erasure.
-/

namespace OwnerMap

open List

variable {α β : Type} [DecidableEq α] [DecidableEq β]

/-- The entries of everybody else. -/
def dropOwner (m : AList fun _ : α => β) (owner : β) : AList fun _ : α => β :=
  ⟨m.entries.filter fun entry => entry.2 ≠ owner, m.nodupKeys.sublist List.filter_sublist⟩

variable {m : AList fun _ : α => β} {key other : α} {owner value : β}

@[simp] theorem lookup_dropOwner :
    (dropOwner m owner).lookup key = some value ↔ m.lookup key = some value ∧ value ≠ owner := by
  rw [← Option.mem_def, ← Option.mem_def, AList.mem_lookup_iff, AList.mem_lookup_iff]
  simp [dropOwner]

omit [DecidableEq α] in
theorem keys_dropOwner : (dropOwner m owner).keys.Sublist m.keys := filter_sublist.map _

omit [DecidableEq β] in
theorem lookup_insert_iff : (m.insert other owner).lookup key = some value ↔
      key = other ∧ value = owner ∨ key ≠ other ∧ m.lookup key = some value := by
  by_cases hkey : key = other
  · rw [hkey, AList.lookup_insert]
    simp [eq_comm]
  · rw [AList.lookup_insert_ne hkey]
    simp [hkey]

omit [DecidableEq β] in
theorem lookup_erase_iff :
    (m.erase other).lookup key = some value ↔ key ≠ other ∧ m.lookup key = some value := by
  by_cases hkey : key = other
  · rw [hkey, AList.lookup_erase]
    simp
  · rw [AList.lookup_erase_ne hkey]
    simp [hkey]

omit [DecidableEq β] in
theorem mem_keys_iff : key ∈ m.keys ↔ ∃ owner, m.lookup key = some owner := by
  rw [← AList.mem_keys, ← AList.lookup_isSome, Option.isSome_iff_exists]

omit [DecidableEq β] in
theorem keys_insert_le : (m.insert key owner).keys.length ≤ m.keys.length + 1 := by
  rw [AList.keys_insert, length_cons]
  exact Nat.succ_le_succ (length_erase_le)

omit [DecidableEq β] in
theorem keys_erase_le : (m.erase key).keys.length ≤ m.keys.length := by
  rw [AList.keys_erase]
  exact length_erase_le

/-! ## Taking and releasing several keys -/

/-- Gives the keys to an owner. -/
def insertAll (m : AList fun _ : α => β) (keys : List α) (owner : β) : AList fun _ : α => β :=
  keys.foldl (fun m key => m.insert key owner) m

/-- Takes those of the keys back that belong to the owner. -/
def release (m : AList fun _ : α => β) (keys : List α) (owner : β) : AList fun _ : α => β :=
  keys.foldl (fun m key => if m.lookup key = some owner then m.erase key else m) m

omit [DecidableEq β] in
theorem insertAll_cons (keys : List α) :
    insertAll m (key :: keys) owner = insertAll (m.insert key owner) keys owner := rfl

theorem release_cons (keys : List α) : release m (key :: keys) owner =
      release (if m.lookup key = some owner then m.erase key else m) keys owner := rfl

omit [DecidableEq β] in
theorem lookup_insertAll {keys : List α} :
    (insertAll m keys owner).lookup key = if key ∈ keys then some owner else m.lookup key := by
  induction keys generalizing m with
  | nil => rfl
  | cons first rest ih =>
    rw [insertAll_cons, ih]
    by_cases hrest : key ∈ rest
    · simp [hrest]
    by_cases hfirst : key = first
    · subst hfirst
      simp
    · simp [hrest, hfirst]

theorem lookup_release {keys : List α} : (release m keys owner).lookup key = some value ↔
      m.lookup key = some value ∧ ¬(key ∈ keys ∧ value = owner) := by
  induction keys generalizing m with
  | nil => simp [release]
  | cons first rest ih =>
    rw [release_cons, ih]
    split
    next hown =>
      rw [lookup_erase_iff]
      by_cases hfirst : key = first
      · rw [hfirst, hown]
        simp [eq_comm]
      · simp [hfirst]
    next hown =>
      by_cases hfirst : key = first
      · rw [hfirst]
        constructor
        · rintro ⟨hlookup, hrest⟩
          refine ⟨hlookup, fun hboth => hown ?_⟩
          rw [hlookup, hboth.2]
        · rintro ⟨hlookup, hrest⟩
          exact ⟨hlookup, fun hboth => hrest ⟨mem_cons_self, hboth.2⟩⟩
      · simp [hfirst]

omit [DecidableEq β] in
theorem erase_insert_of_ne (hne : key ≠ other) :
    (m.insert other owner).erase key = (m.erase key).insert other owner := by
  apply AList.ext
  show List.kerase key (⟨other, owner⟩ :: m.entries.kerase other) =
    ⟨other, owner⟩ :: (m.entries.kerase key).kerase other
  rw [kerase_cons_ne hne, kerase_comm]

omit [DecidableEq β] in
theorem erase_insertAll {keys : List α} (hkey : key ∉ keys) :
    (insertAll m keys owner).erase key = insertAll (m.erase key) keys owner := by
  induction keys generalizing m with
  | nil => rfl
  | cons first rest ih =>
    rw [mem_cons, not_or] at hkey
    rw [insertAll_cons, ih hkey.2, erase_insert_of_ne hkey.1]
    rfl

/-- Releasing keys that nobody had before gives the map back. -/
theorem release_insertAll {keys : List α} (hnodup : keys.Nodup)
    (hnone : ∀ key ∈ keys, m.lookup key = none) :
    release (insertAll m keys owner) keys owner = m := by
  induction keys generalizing m with
  | nil => rfl
  | cons first rest ih =>
    obtain ⟨hfirst, hrest⟩ := nodup_cons.mp hnodup
    have hown : (insertAll m (first :: rest) owner).lookup first = some owner := by
      rw [lookup_insertAll, if_pos mem_cons_self]
    have herase : (insertAll m (first :: rest) owner).erase first = insertAll m rest owner := by
      rw [insertAll_cons, erase_insertAll hfirst, WeightedMap.erase_insert_self,
        WeightedMap.erase_eq_self (hnone first mem_cons_self)]
    rw [release_cons, if_pos hown, herase]
    exact ih hrest fun key hkey => hnone key (mem_cons_of_mem _ hkey)

end OwnerMap
