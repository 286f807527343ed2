import Dtls13.Lib.PrefixMap
import Dtls13.Record.RoundTrip

/-! # Sets of connection IDs

What merging two lists of connection IDs gives: the IDs of both, none twice,
and no ID that continues another one.
-/

namespace Dtls13

open ByteCodec List

namespace RecordCipher

theorem prefixFree_iff {cids : List Bytes} : PrefixFree cids ↔ PrefixMap.Free cids := by
  constructor
  · intro hfree left hleft right hright hfront
    exact hfree left hleft right hright (by simp [prefixRelated, hfront])
  · intro hfree left hleft right hright hrelated
    rcases Bool.or_eq_true_iff.mp hrelated with hle | hle
    · exact hfree left hleft right hright ( isPrefixOf_iff_prefix.mp hle)
    · exact (hfree right hright left hleft ( isPrefixOf_iff_prefix.mp hle)).symm

theorem prefixRelated_self (cid : Bytes) : prefixRelated cid cid = true := by
  simp [prefixRelated]

theorem prefixRelated_comm (left right : Bytes) :
    prefixRelated left right = prefixRelated right left := Bool.or_comm _ _

theorem prefixFree_singleton (cid : Bytes) : PrefixFree [cid] := by
  intro left hleft right hright _
  rw [mem_singleton.mp hleft, mem_singleton.mp hright]

/-- An ID related to none of the set can join it. -/
theorem PrefixFree.append {cids : List Bytes} (hfree : PrefixFree cids) {cid : Bytes}
    (hnew : ∀ current ∈ cids, prefixRelated cid current = false) : PrefixFree (cids ++ [cid]) := by
  intro left hleft right hright hrelated
  rw [mem_append, mem_singleton] at hleft hright
  rcases hleft with hleft | rfl <;> rcases hright with hright | rfl
  · exact hfree left hleft right hright hrelated
  · rw [prefixRelated_comm, hnew left hleft] at hrelated
    exact nomatch hrelated
  · rw [hnew right hright] at hrelated
    exact nomatch hrelated
  · rfl

theorem PrefixFree.subset {cids fewer : List Bytes} (hfree : PrefixFree cids)
    (hsub : fewer ⊆ cids) : PrefixFree fewer :=
  fun left hleft right hright => hfree left (hsub hleft) right (hsub hright)

end RecordCipher

open RecordCipher

/-- The outcome of a merge that was not refused. -/
structure MergedIDs (existing additions merged : List Bytes) : Prop where
  extends_existing : existing <+: merged
  mem_iff : ∀ cid, cid ∈ merged ↔ cid ∈ existing ∨ cid ∈ additions
  bounded : ∀ cid ∈ additions, cid.length ≤ 255
  prefixFree : PrefixFree existing → PrefixFree merged
  nodup : existing.Nodup → merged.Nodup

theorem mergedIDs_of_merge {existing additions merged : List Bytes}
    (hmerge : mergeConnectionIDs existing additions = .ok merged) :
    MergedIDs existing additions merged := by
  induction additions generalizing existing with
  | nil =>
    obtain rfl : existing = merged := Except.ok.inj hmerge
    exact ⟨prefix_rfl, by simp, by simp, id, id⟩
  | cons cid additions ih =>
    unfold mergeConnectionIDs at hmerge
    split at hmerge
    · exact nomatch hmerge
    next hshort =>
    have hbounded : ∀ tail : List Bytes, (∀ other ∈ tail, other.length ≤ 255) →
        ∀ other ∈ cid :: tail, other.length ≤ 255 := by
      intro tail htail other hother
      rcases mem_cons.mp hother with rfl | hother
      · exact Nat.not_lt.mp hshort
      · exact htail other hother
    split at hmerge
    next hnone =>
      -- the addition is related to no member and joins at the end
      have hnew : ∀ current ∈ existing, prefixRelated cid current = false := fun current hmem =>
        Bool.eq_false_iff.mpr (List.find?_eq_none.mp hnone current hmem)
      obtain ⟨hfront, hmem, hle, hfree, hnodup⟩ := ih hmerge
      refine ⟨(prefix_append _ _).trans hfront, fun other => ?_, hbounded _ hle,
        fun hold => hfree (hold.append hnew), fun hold => hnodup ?_⟩
      · rw [hmem, mem_append, mem_singleton, mem_cons, or_assoc]
      · rw [nodup_append]
        refine ⟨hold, nodup_singleton _, fun current hcurrent other hother => ?_⟩
        rw [mem_singleton.mp hother]
        rintro rfl
        exact absurd (hnew _ hcurrent) (by simp [prefixRelated_self])
    next current hfind =>
      split at hmerge
      next heq =>
        -- the addition is a member already
        obtain ⟨hfront, hmem, hle, hfree, hnodup⟩ := ih hmerge
        have hold : cid ∈ existing := heq ▸ mem_of_find?_eq_some hfind
        refine ⟨hfront, fun other => ?_, hbounded _ hle, hfree, hnodup⟩
        rw [hmem, mem_cons]
        constructor
        · rintro (hother | hother)
          · exact .inl hother
          · exact .inr (.inr hother)
        · rintro (hother | rfl | hother)
          · exact .inl hother
          · exact .inl hold
          · exact .inr hother
      · exact nomatch hmerge

/-- The members come one by one, each one unless it is there already. -/
theorem foldl_of_merge {existing additions merged : List Bytes}
    (hmerge : mergeConnectionIDs existing additions = .ok merged) :
    additions.foldl (fun accepted cid => if accepted.contains cid then accepted
      else accepted ++ [cid]) existing = merged := by
  induction additions generalizing existing with
  | nil => exact Except.ok.inj hmerge
  | cons cid additions ih =>
    unfold mergeConnectionIDs at hmerge
    rw [foldl_cons]
    split at hmerge
    · exact nomatch hmerge
    split at hmerge
    next hnone =>
      have hnew : cid ∉ existing := fun hmem =>
        absurd (prefixRelated_self cid) (List.find?_eq_none.mp hnone cid hmem)
      rw [if_neg (by simpa using hnew)]
      exact ih hmerge
    next current hfind =>
      split at hmerge
      next heq =>
        have hold : cid ∈ existing := heq ▸ mem_of_find?_eq_some hfind
        rw [if_pos (by simpa using hold)]
        exact ih hmerge
      · exact nomatch hmerge

/-- Parts of one prefix-free set are merged without refusal. -/
theorem merge_of_prefixFree {existing additions : List Bytes}
    (hfree : PrefixFree (existing ++ additions)) (hnodup : (existing ++ additions).Nodup)
    (hle : ∀ cid ∈ additions, cid.length ≤ 255) :
    mergeConnectionIDs existing additions = .ok (existing ++ additions) := by
  induction additions generalizing existing with
  | nil => rw [append_nil, mergeConnectionIDs]
  | cons cid additions ih =>
    have hnone : existing.find? (prefixRelated cid) = none := by
      rw [List.find?_eq_none]
      intro current hcurrent hrelated
      have heq := hfree cid (by simp) current (by simp [hcurrent]) hrelated
      exact (nodup_append.mp hnodup).2.2 current hcurrent cid mem_cons_self heq.symm
    rw [mergeConnectionIDs, if_neg (Nat.not_lt.mpr (hle cid mem_cons_self)), hnone]
    rw [append_cons] at hfree hnodup
    rw [append_cons existing cid additions]
    exact ih hfree hnodup fun other hother => hle other (mem_cons_of_mem _ hother)

end Dtls13
