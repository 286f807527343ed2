import Mathlib.Data.List.Sort
import Dtls13.Record.ConnectionIDs

/-! # The listener's connection-ID registry

The map from registered connection IDs to the sessions they belong to, with the
table of their lengths and the flag that selects how a datagram is looked up.
-/

namespace Dtls13

open ByteCodec RecordCipher OwnerMap List

/-- A packet session, by the order of its creation. -/
abbrev SessionId := Nat

structure Registry where
  cidSessions : AList fun _ : Bytes => SessionId
  cidLengths : List Nat
  cidScan : Bool

namespace Registry

def empty : Registry := ⟨∅, [], false⟩

def conflict : Err := .configError "Listener connection IDs must be unique and prefix-free"

/-- The C bit of a unified header. -/
def unifiedHeaderCID : UInt8 := 0x10

variable (r : Registry)

/-- One lookup for each registered length. -/
def probeSessionForCID (datagram : Bytes) : Option SessionId :=
  PrefixMap.probe r.cidSessions r.cidLengths datagram.tail

/-- All entries of the map, in the order in which it is iterated. -/
def scanSessionForCID (order : List (Sigma fun _ : Bytes => SessionId)) (datagram : Bytes) :
    Option SessionId :=
  PrefixMap.scan order datagram.tail

def sessionForCID (order : List (Sigma fun _ : Bytes => SessionId)) (datagram : Bytes) :
    Option SessionId :=
  if datagram.length < 2 || datagram.headD 0 &&& unifiedHeaderCID == 0 then none
  else if r.cidScan then scanSessionForCID order datagram
  else r.probeSessionForCID datagram

/-- Scanning pays only if no two IDs share a length. -/
def withScan : Registry :=
  { r with cidScan := 1 < r.cidLengths.length && r.cidLengths.length == r.cidSessions.keys.length }

def addCID (cid : Bytes) (session : SessionId) : Registry :=
  let length := cid.length % 256
  withScan { r with
    cidLengths := if r.cidLengths.contains length then r.cidLengths
      else (r.cidLengths ++ [length]).insertionSort (· ≤ ·)
    cidSessions := r.cidSessions.insert cid session }

def rebuildCIDLengths : Registry :=
  withScan { r with
    cidLengths := (List.range' 1 255).filter fun length =>
      r.cidSessions.keys.any fun cid => cid.length == length }

/-- The part of `registerSessionCID` that holds the listener's lock. The first
entry equal to or prefix-related with the new ID decides. -/
def registerSessionCID (session : SessionId) (cid : Bytes) : Except Err Registry :=
  if cid.length = 0 then .ok r
  else match r.cidSessions.entries.find? fun entry => prefixRelated cid entry.1 with
    | none => .ok (r.addCID cid session)
    | some entry => if entry.1 = cid ∧ entry.2 = session then .ok r else .error conflict

/-- The empty ID has nothing to index. -/
def indexed (cids : List Bytes) : List Bytes := cids.filter fun cid => cid.length ≠ 0

def registerSessionCIDs (session : SessionId) (cids : List Bytes) : Except Err Registry :=
  match mergeConnectionIDs r.cidSessions.keys cids with
  | .error _ => .error conflict
  | .ok _ =>
    if (indexed cids).any fun cid =>
        (r.cidSessions.lookup cid).any fun owner => owner ≠ session then .error conflict
    else .ok ((indexed cids).foldl (fun registry cid => registry.addCID cid session) r)

def unregisterSessionCIDs (session : SessionId) (cids : List Bytes) : Registry :=
  rebuildCIDLengths { r with cidSessions := release r.cidSessions cids session }

/-- Takes out all IDs of a session that is removed or displaced. -/
def removeSession (session : SessionId) : Registry :=
  rebuildCIDLengths { r with cidSessions := dropOwner r.cidSessions session }

/-! ## What the mutators do to the map -/

variable {r} {session owner : SessionId} {cid other : Bytes} {cids : List Bytes}

@[simp] theorem addCID_cidSessions :
    (r.addCID cid session).cidSessions = r.cidSessions.insert cid session := rfl

@[simp] theorem lookup_removeSession :
    (r.removeSession session).cidSessions.lookup cid = some owner ↔
      r.cidSessions.lookup cid = some owner ∧ owner ≠ session := lookup_dropOwner

theorem mem_indexed : cid ∈ indexed cids ↔ cid ∈ cids ∧ cid ≠ [] := by
  simp [indexed]

/-- Adds the IDs one after the other. -/
def addCIDs (r : Registry) (cids : List Bytes) (session : SessionId) : Registry :=
  cids.foldl (fun registry cid => registry.addCID cid session) r

@[simp] theorem addCIDs_cidSessions :
    (r.addCIDs cids session).cidSessions = insertAll r.cidSessions cids session := by
  induction cids generalizing r with
  | nil => rfl
  | cons first rest ih => exact ih

theorem lookup_unregister :
    (r.unregisterSessionCIDs session cids).cidSessions.lookup cid = some owner ↔
      r.cidSessions.lookup cid = some owner ∧ ¬(cid ∈ cids ∧ owner = session) := lookup_release

variable {next : Registry}

/-- Whatever a successful registration adds belongs to its session, and nothing
that was registered is lost. -/
theorem lookup_register (hnext : r.registerSessionCID session cid = .ok next) :
    next.cidSessions.lookup other = some owner →
      r.cidSessions.lookup other = some owner ∨ owner = session := by
  unfold registerSessionCID at hnext
  intro hlookup
  split at hnext
  · exact .inl (Except.ok.inj hnext ▸ hlookup)
  split at hnext
  · rw [← Except.ok.inj hnext, addCID_cidSessions, lookup_insert_iff] at hlookup
    rcases hlookup with ⟨_, rfl⟩ | ⟨_, hold⟩
    · exact .inr rfl
    · exact .inl hold
  · split at hnext
    · exact .inl (Except.ok.inj hnext ▸ hlookup)
    · exact nomatch hnext

theorem registerSessionCIDs_eq_ok (hnext : r.registerSessionCIDs session cids = .ok next) :
    (∃ merged, mergeConnectionIDs r.cidSessions.keys cids = .ok merged) ∧
      next = r.addCIDs (indexed cids) session ∧
      ∀ cid ∈ indexed cids, ∀ owner, r.cidSessions.lookup cid = some owner → owner = session := by
  unfold registerSessionCIDs at hnext
  split at hnext
  · exact nomatch hnext
  next merged hmerge =>
  split at hnext
  · exact nomatch hnext
  next howners =>
    refine ⟨⟨merged, hmerge⟩, (Except.ok.inj hnext).symm, fun cid hcid owner hlookup => ?_⟩
    by_contra hne
    exact howners (any_eq_true.mpr ⟨cid, hcid, by simp [hlookup, hne]⟩)

/-! ## What holds of every registry -/

/-- The registered IDs are non-empty, at most 255 bytes and prefix-free, and the
length table is the sorted set of their lengths. -/
structure Indexed (r : Registry) : Prop where
  nonempty : ∀ cid ∈ r.cidSessions.keys, cid ≠ []
  bounded : ∀ cid ∈ r.cidSessions.keys, cid.length ≤ 255
  prefixFree : PrefixFree r.cidSessions.keys
  sorted : r.cidLengths.Pairwise (· < ·)
  lengths : ∀ length, length ∈ r.cidLengths ↔ ∃ cid ∈ r.cidSessions.keys, cid.length = length

/-- The flag that selects the way of looking up is up to date as well. -/
structure Valid (r : Registry) : Prop extends r.Indexed where
  scan : r.withScan = r

theorem valid_empty : empty.Valid where
  nonempty := by simp [empty]
  bounded := by simp [empty]
  prefixFree := by intro left hleft; simp [empty] at hleft
  sorted := List.Pairwise.nil
  lengths := by simp [empty]
  scan := rfl

theorem Indexed.withScan (hr : r.Indexed) : r.withScan.Valid :=
  ⟨⟨hr.nonempty, hr.bounded, hr.prefixFree, hr.sorted, hr.lengths⟩, rfl⟩

/-- Inserting the length keeps the table a strictly sorted list. -/
theorem sorted_insertLength {lengths : List Nat} (hsorted : lengths.Pairwise (· < ·))
    {length : Nat} (hnew : length ∉ lengths) :
    ((lengths ++ [length]).insertionSort (· ≤ ·)).Pairwise (· < ·) := by
  have hle : ((lengths ++ [length]).insertionSort (· ≤ ·)).Pairwise (· ≤ ·) :=
    pairwise_insertionSort _ _
  have hnodup : ((lengths ++ [length]).insertionSort (· ≤ ·)).Nodup := by
    rw [(perm_insertionSort _ _).nodup_iff, nodup_append]
    refine ⟨hsorted.imp Nat.ne_of_lt, nodup_singleton _, fun left hleft right hright => ?_⟩
    rw [mem_singleton.mp hright]
    rintro rfl
    exact hnew hleft
  exact (hle.and hnodup).imp fun hboth => Nat.lt_of_le_of_ne hboth.1 hboth.2

theorem keys_insert_iff {m : AList fun _ : Bytes => SessionId} :
    other ∈ (m.insert cid session).keys ↔ other = cid ∨ other ∈ m.keys := by
  rw [← AList.mem_keys, AList.mem_insert, AList.mem_keys]

/-- An ID that is a member already, or related to no member, can be added. -/
theorem Valid.addCID (hr : r.Valid) (session : SessionId) (hcid : cid ≠ [])
    (hle : cid.length ≤ 255) (hfree : PrefixFree (r.cidSessions.insert cid session).keys) :
    (r.addCID cid session).Valid := by
  have hlength : cid.length % 256 = cid.length := Nat.mod_eq_of_lt (Nat.lt_succ_of_le hle)
  refine Indexed.withScan ⟨fun other hother => ?_, fun other hother => ?_, hfree, ?_, ?_⟩
  · rcases keys_insert_iff.mp hother with rfl | hother
    · exact hcid
    · exact hr.nonempty other hother
  · rcases keys_insert_iff.mp hother with rfl | hother
    · exact hle
    · exact hr.bounded other hother
  · dsimp only
    split
    · exact hr.sorted
    next hnew => exact sorted_insertLength hr.sorted (by simpa using hnew)
  · intro length
    have hmem : length ∈ (if r.cidLengths.contains (cid.length % 256) then r.cidLengths
        else (r.cidLengths ++ [cid.length % 256]).insertionSort (· ≤ ·)) ↔
        length = cid.length ∨ length ∈ r.cidLengths := by
      rw [hlength]
      split
      next hold =>
        have hold : cid.length ∈ r.cidLengths := by simpa using hold
        exact ⟨.inr, fun h => h.elim (fun heq => heq ▸ hold) id⟩
      · rw [mem_insertionSort, mem_append, mem_singleton, or_comm]
    simp only [keys_insert_iff, exists_eq_or_imp]
    rw [hmem, hr.lengths]
    exact or_congr_left eq_comm

theorem Valid.rebuildCIDLengths {m : AList fun _ : Bytes => SessionId} (hr : r.Valid)
    (hsub : m.keys ⊆ r.cidSessions.keys) :
    (Registry.rebuildCIDLengths { r with cidSessions := m }).Valid := by
  refine Indexed.withScan ⟨fun cid hcid => hr.nonempty cid (hsub hcid),
    fun cid hcid => hr.bounded cid (hsub hcid), hr.prefixFree.subset hsub, ?_, ?_⟩
  · dsimp only
    exact (pairwise_lt_range' 1).filter _
  · intro length
    simp only [mem_filter, mem_range'_1, any_eq_true, beq_iff_eq]
    constructor
    · exact And.right
    · rintro ⟨cid, hcid, rfl⟩
      have hpos := length_pos_iff.mpr (hr.nonempty cid (hsub hcid))
      have hle := hr.bounded cid (hsub hcid)
      exact ⟨⟨hpos, by omega⟩, cid, hcid, rfl⟩

theorem Valid.unregisterSessionCIDs (hr : r.Valid) (session : SessionId) (cids : List Bytes) :
    (r.unregisterSessionCIDs session cids).Valid := by
  apply hr.rebuildCIDLengths
  intro cid hcid
  obtain ⟨owner, howner⟩ := mem_keys_iff.mp hcid
  exact mem_keys_iff.mpr ⟨owner, (lookup_unregister.mp howner).1⟩

theorem Valid.removeSession (hr : r.Valid) (session : SessionId) :
    (r.removeSession session).Valid := hr.rebuildCIDLengths keys_dropOwner.subset

theorem Valid.registerSessionCID (hr : r.Valid) (hle : cid.length ≤ 255)
    (hnext : r.registerSessionCID session cid = .ok next) : next.Valid := by
  unfold Registry.registerSessionCID at hnext
  split at hnext
  · exact Except.ok.inj hnext ▸ hr
  next hcid =>
  split at hnext
  next hnone =>
    -- no entry is related to the new ID
    rw [← Except.ok.inj hnext]
    refine hr.addCID session (fun hnil => hcid (by rw [hnil]; rfl)) hle ?_
    have hnew : ∀ current ∈ r.cidSessions.keys, prefixRelated cid current = false := by
      intro current hcurrent
      obtain ⟨entry, hentry, rfl⟩ := mem_map.mp hcurrent
      exact Bool.eq_false_iff.mpr (List.find?_eq_none.mp hnone entry hentry)
    apply (hr.prefixFree.append hnew).subset
    intro other hother
    rw [mem_append, mem_singleton, or_comm]
    exact keys_insert_iff.mp hother
  · split at hnext
    · exact Except.ok.inj hnext ▸ hr
    · exact nomatch hnext

theorem Valid.addCIDs (hr : r.Valid) {all : List Bytes} (hall : PrefixFree all)
    (hold : r.cidSessions.keys ⊆ all) (hnew : cids ⊆ all)
    (hcids : ∀ cid ∈ cids, cid ≠ [] ∧ cid.length ≤ 255) : (r.addCIDs cids session).Valid := by
  induction cids generalizing r with
  | nil => exact hr
  | cons first rest ih =>
    obtain ⟨hfirst, hrest⟩ := cons_subset.mp hnew
    have hkeys : (r.cidSessions.insert first session).keys ⊆ all := by
      intro other hother
      rcases keys_insert_iff.mp hother with rfl | hother
      · exact hfirst
      · exact hold hother
    obtain ⟨hnil, hle⟩ := hcids first mem_cons_self
    exact ih (hr.addCID session hnil hle (hall.subset hkeys)) hkeys hrest
      fun cid hcid => hcids cid (mem_cons_of_mem _ hcid)

theorem Valid.registerSessionCIDs (hr : r.Valid)
    (hnext : r.registerSessionCIDs session cids = .ok next) : next.Valid := by
  obtain ⟨⟨merged, hmerge⟩, rfl, _⟩ := registerSessionCIDs_eq_ok hnext
  obtain ⟨hfront, hmem, hle, hfree, _⟩ := mergedIDs_of_merge hmerge
  refine hr.addCIDs (hfree hr.prefixFree) hfront.subset ?_ ?_
  · intro cid hcid
    exact (hmem cid).mpr (.inr (mem_indexed.mp hcid).1)
  · intro cid hcid
    obtain ⟨hcid, hnil⟩ := mem_indexed.mp hcid
    exact ⟨hnil, hle cid hcid⟩

/-- The empty ID is not registered, so it is not taken back. -/
theorem release_indexed {m : AList fun _ : Bytes => SessionId} (hempty : m.lookup [] = none) :
    release m cids session = release m (indexed cids) session := by
  induction cids generalizing m with
  | nil => rfl
  | cons first rest ih =>
    rw [release_cons]
    by_cases hfirst : first = []
    · rw [hfirst, hempty, if_neg (by simp), ih hempty]
      rfl
    · have hindexed : indexed (first :: rest) = first :: indexed rest := by
        simp [indexed, hfirst]
      rw [hindexed, release_cons]
      apply ih
      split
      · rw [AList.lookup_erase_ne (Ne.symm hfirst)]
        exact hempty
      · exact hempty

/-- Two registries with the same map are the same. -/
theorem Valid.eq_of_cidSessions {other : Registry} (hr : r.Valid) (hother : other.Valid)
    (hsame : other.cidSessions = r.cidSessions) : other = r := by
  have hlengths : other.cidLengths = r.cidLengths := by
    have hperm : other.cidLengths.Perm r.cidLengths := by
      rw [perm_ext_iff_of_nodup (hother.sorted.imp Nat.ne_of_lt)
        (hr.sorted.imp Nat.ne_of_lt)]
      intro length
      rw [hother.lengths, hr.lengths, hsame]
    exact hperm.eq_of_pairwise (fun _ _ _ _ hlt hgt => absurd hlt (Nat.lt_asymm hgt))
      hother.sorted hr.sorted
  rw [← hother.scan, ← hr.scan, Registry.withScan, Registry.withScan, hsame, hlengths]

/-- Taking a registration back gives the registry as it was, if none of the IDs had
belonged to the session before. -/
theorem Valid.unregister_registered (hr : r.Valid)
    (hnext : r.registerSessionCIDs session cids = .ok next) (hnodup : cids.Nodup)
    (hnew : ∀ cid ∈ cids, r.cidSessions.lookup cid ≠ some session) :
    next.unregisterSessionCIDs session cids = r := by
  obtain ⟨_, rfl, howners⟩ := registerSessionCIDs_eq_ok hnext
  refine hr.eq_of_cidSessions ((hr.registerSessionCIDs hnext).unregisterSessionCIDs _ _) ?_
  show release (r.addCIDs (indexed cids) session).cidSessions cids session = r.cidSessions
  have hnone : ∀ cid ∈ indexed cids, r.cidSessions.lookup cid = none := by
    intro cid hcid
    rw [Option.eq_none_iff_forall_ne_some]
    intro owner howner
    obtain rfl := howners cid hcid owner howner
    exact hnew cid (mem_indexed.mp hcid).1 howner
  have hindexed : (indexed cids).Nodup := hnodup.filter _
  rw [addCIDs_cidSessions, release_indexed, release_insertAll hindexed hnone]
  rw [lookup_insertAll, if_neg (by simp [mem_indexed]), Option.eq_none_iff_forall_ne_some]
  intro owner hempty
  exact hr.nonempty [] (mem_keys_iff.mpr ⟨owner, hempty⟩) rfl

/-! ## Both ways to look a datagram up -/

section

variable {order : List (Sigma fun _ : Bytes => SessionId)}

/-- Probing and scanning find the session whose ID follows the first byte. -/
theorem Valid.lookups (hr : r.Valid) (horder : order.Perm r.cidSessions.entries) (datagram : Bytes)
    (session : SessionId) : (r.probeSessionForCID datagram = some session ↔
      ∃ cid, r.cidSessions.lookup cid = some session ∧ cid <+: datagram.tail) ∧
    (scanSessionForCID order datagram = some session ↔
      ∃ cid, r.cidSessions.lookup cid = some session ∧ cid <+: datagram.tail) := by
  have hfree := prefixFree_iff.mp hr.prefixFree
  exact ⟨PrefixMap.probe_eq_some_iff hfree
      (fun cid hcid => (hr.lengths _).mpr ⟨cid, hcid, rfl⟩) session,
    PrefixMap.scan_eq_some_iff hfree horder session⟩

theorem Valid.probe_eq_scan (hr : r.Valid) (horder : order.Perm r.cidSessions.entries)
    (datagram : Bytes) : r.probeSessionForCID datagram = scanSessionForCID order datagram :=
  Option.ext fun session =>
    (hr.lookups horder datagram session).1.trans (hr.lookups horder datagram session).2.symm

/-- A datagram that can carry an ID is looked up, by either way. -/
theorem Valid.sessionForCID_of_long (hr : r.Valid) (horder : order.Perm r.cidSessions.entries)
    {datagram : Bytes} (hlong : 2 ≤ datagram.length ∧ datagram.headD 0 &&& unifiedHeaderCID ≠ 0) :
    r.sessionForCID order datagram = r.probeSessionForCID datagram := by
  have hlookup : ¬(datagram.length < 2 || datagram.headD 0 &&& unifiedHeaderCID == 0) = true := by
    rw [Bool.or_eq_true, decide_eq_true_eq, beq_iff_eq, not_or]
    exact ⟨Nat.not_lt.mpr hlong.1, hlong.2⟩
  rw [sessionForCID, if_neg hlookup, ← hr.probe_eq_scan horder, ite_self]

theorem sessionForCID_of_short {datagram : Bytes}
    (hshort : ¬(2 ≤ datagram.length ∧ datagram.headD 0 &&& unifiedHeaderCID ≠ 0)) :
    r.sessionForCID order datagram = none := by
  rw [sessionForCID, if_pos]
  rw [Bool.or_eq_true, decide_eq_true_eq, beq_iff_eq]
  by_contra hnot
  rw [not_or] at hnot
  exact hshort ⟨Nat.not_lt.mp hnot.1, hnot.2⟩

end

end Registry

end Dtls13
