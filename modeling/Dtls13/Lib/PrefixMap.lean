import Mathlib.Data.List.Infix
import Dtls13.Lib.OwnerMap

/-! # Finite maps with prefix-free keys

A map from strings over an alphabet in which no key continues another one finds
at most one key at the front of an input. Looking the front up once for every
key length and comparing all entries one after the other therefore give the
same result, in whatever order lengths and entries are taken.
-/

namespace PrefixMap

open List

variable {α β : Type} [DecidableEq α]

/-- No member continues another one. -/
def Free (keys : List (List α)) : Prop :=
  ∀ left ∈ keys, ∀ right ∈ keys, left <+: right → left = right

/-- Looks the front of the input up once for every length. -/
def probe (m : AList fun _ : List α => β) (lengths : List Nat) (input : List α) : Option β :=
  lengths.findSome? fun length =>
    if input.length < length then none else m.lookup (input.take length)

/-- Compares the entries one after the other with the front of the input. -/
def scan (entries : List (Sigma fun _ : List α => β)) (input : List α) : Option β :=
  (entries.find? fun entry => entry.1.isPrefixOf input).map Sigma.snd

variable {m : AList fun _ : List α => β} {input : List α}

omit [DecidableEq α] in
/-- Two keys at the front of one input are the same key. -/
theorem Free.unique {keys : List (List α)} (hfree : Free keys) {left right : List α}
    (hleft : left ∈ keys) (hright : right ∈ keys) (hleftAt : left <+: input)
    (hrightAt : right <+: input) : left = right := by
  rcases prefix_or_prefix_of_prefix hleftAt hrightAt with hle | hle
  · exact hfree left hleft right hright hle
  · exact (hfree right hright left hleft hle).symm

/-- The keys at the front of the input lead to one value. -/
theorem Free.value_unique (hfree : Free m.keys) {left right : List α} {value other : β}
    (hleft : m.lookup left = some value) (hright : m.lookup right = some other)
    (hleftAt : left <+: input) (hrightAt : right <+: input) : value = other := by
  have heq := hfree.unique (OwnerMap.mem_keys_iff.mpr ⟨_, hleft⟩)
    (OwnerMap.mem_keys_iff.mpr ⟨_, hright⟩) hleftAt hrightAt
  rw [heq, hright] at hleft
  exact (Option.some.inj hleft).symm

/-- Two partial results that name the same value whenever one of them does. -/
theorem eq_of_matches {found : Option β} {matched : β → Prop}
    (hsound : ∀ value, found = some value → matched value)
    (hfound : ∀ value, matched value → found ≠ none)
    (hunique : ∀ value other, matched value → matched other → value = other) (value : β) :
    found = some value ↔ matched value := by
  refine ⟨hsound value, fun hvalue => ?_⟩
  cases hcase : found with
  | none => exact absurd hcase (hfound value hvalue)
  | some other => rw [hunique other value (hsound other hcase) hvalue]

/-- Probing finds exactly the value of the key at the front of the input, if the
lengths are those of the keys. -/
theorem probe_eq_some_iff (hfree : Free m.keys) {lengths : List Nat}
    (hlengths : ∀ key ∈ m.keys, key.length ∈ lengths) (value : β) :
    probe m lengths input = some value ↔ ∃ key, m.lookup key = some value ∧ key <+: input := by
  apply eq_of_matches
  · intro value hvalue
    obtain ⟨length, _, hlength⟩ := exists_of_findSome?_eq_some hvalue
    split at hlength
    · exact nomatch hlength
    · exact ⟨input.take length, hlength, take_prefix _ _⟩
  · rintro value ⟨key, hkey, hat⟩ hnone
    have hmiss := List.findSome?_eq_none_iff.mp hnone key.length
      (hlengths key (OwnerMap.mem_keys_iff.mpr ⟨_, hkey⟩))
    rw [if_neg (Nat.not_lt.mpr hat.length_le), ← prefix_iff_eq_take.mp hat, hkey] at hmiss
    exact nomatch hmiss
  · rintro value other ⟨left, hleft, hleftAt⟩ ⟨right, hright, hrightAt⟩
    exact hfree.value_unique hleft hright hleftAt hrightAt

/-- Scanning finds the same value in every order of the entries. -/
theorem scan_eq_some_iff (hfree : Free m.keys)
    {order : List (Sigma fun _ : List α => β)} (horder : order.Perm m.entries) (value : β) :
    scan order input = some value ↔ ∃ key, m.lookup key = some value ∧ key <+: input := by
  have hentry : ∀ key value, (⟨key, value⟩ : Sigma fun _ : List α => β) ∈ order ↔
      m.lookup key = some value := fun key value =>
    (horder.mem_iff).trans AList.mem_lookup_iff.symm
  apply eq_of_matches
  · intro value hvalue
    obtain ⟨⟨key, found⟩, hfind, rfl⟩ := Option.map_eq_some_iff.mp hvalue
    refine ⟨key, (hentry key found).mp (mem_of_find?_eq_some hfind), ?_⟩
    simpa using List.find?_some hfind
  · rintro value ⟨key, hkey, hat⟩ hnone
    have hmiss := List.find?_eq_none.mp (Option.map_eq_none_iff.mp hnone) _
      ((hentry key value).mpr hkey)
    exact hmiss ( isPrefixOf_iff_prefix.mpr hat)
  · rintro value other ⟨left, hleft, hleftAt⟩ ⟨right, hright, hrightAt⟩
    exact hfree.value_unique hleft hright hleftAt hrightAt

end PrefixMap
