import Dtls13.Crypto.Suite
import Dtls13.Lib.BinaryHeap
import Dtls13.Lib.RunSystem
import Dtls13.Lib.WallClock
import Mathlib.Data.Finset.Card
import Mathlib.Data.Finset.Insert
import Mathlib.Data.List.Nodup

/-! # The replay cache for early data

The cache holds the identities of accepted early data until their tickets expire:
a set of identities, and a heap of the same identities with their expiries.
-/

namespace Dtls13

open ByteCodec WallClock BinaryHeap List

structure EarlyReplayEntry where
  identity : Bytes
  expires : Instant
  deriving DecidableEq, Repr

def EarlyReplayEntry.before (a b : EarlyReplayEntry) : Bool := a.expires.ns < b.expires.ns

structure EarlyDataReplayCache where
  entries : Finset Bytes
  expirations : List EarlyReplayEntry
  max : Nat

namespace EarlyDataReplayCache

/-- The empty cache; a capacity of zero is rejected. -/
def newLRUEarlyDataReplayCache (capacity : Nat) : Option EarlyDataReplayCache :=
  if capacity = 0 then none else some ⟨∅, [], capacity⟩

theorem length_lt_of_pop {queue remaining : List EarlyReplayEntry} {entry : EarlyReplayEntry}
    (hpop : pop EarlyReplayEntry.before queue = some (entry, remaining)) :
    remaining.length < queue.length := by
  cases queue with
  | nil => simp [pop_nil] at hpop
  | cons root rest =>
    obtain ⟨_, hroot, hperm⟩ := pop_cons EarlyReplayEntry.before root rest
    rw [hpop] at hroot
    cases hroot
    simp [hperm.length_eq]

/-- Removes roots of the heap that have expired at `now`. -/
def dropExpired (c : EarlyDataReplayCache) (now : Instant) : EarlyDataReplayCache :=
  match c.expirations.head? with
  | none => c
  | some root =>
    if now.ns < root.expires.ns then c
    else
      match _hpop : pop EarlyReplayEntry.before c.expirations with
      | none => c
      | some (entry, remaining) =>
        dropExpired
          { c with entries := c.entries.erase entry.identity, expirations := remaining } now
termination_by c.expirations.length
decreasing_by exact length_lt_of_pop _hpop

/-- Whether the identity was admitted, and the cache afterwards. -/
def checkAndStore (c : EarlyDataReplayCache) (now : Instant) (identity : Bytes)
    (expires : Instant) : Bool × EarlyDataReplayCache :=
  let c := c.dropExpired now
  if identity ∈ c.entries ∨ c.max ≤ c.entries.card then (false, c)
  else
    (true, { c with
        entries := insert identity c.entries
        expirations := push EarlyReplayEntry.before c.expirations ⟨identity, expires⟩ })

/-! ## Heap and set in step -/

/-- The heap and the set have the same identities, each once, within the capacity. -/
structure InStep (c : EarlyDataReplayCache) : Prop where
  nodup : (c.expirations.map EarlyReplayEntry.identity).Nodup
  same : ∀ identity, identity ∈ c.entries ↔ identity ∈ c.expirations.map EarlyReplayEntry.identity
  bounded : c.entries.card ≤ c.max

variable {c : EarlyDataReplayCache}

theorem inStep_new {capacity : Nat}
    (hnew : newLRUEarlyDataReplayCache capacity = some c) : c.InStep := by
  unfold newLRUEarlyDataReplayCache at hnew
  split at hnew
  next => cases hnew
  next =>
    cases hnew
    constructor
    · simp
    · simp
    · simp

/-- The cache without its root. -/
theorem InStep.erase_root (hc : c.InStep) {root : EarlyReplayEntry}
    {rest remaining : List EarlyReplayEntry} (hroot : c.expirations = root :: rest)
    (hperm : remaining.Perm rest) :
    InStep { c with entries := c.entries.erase root.identity, expirations := remaining } := by
  have hids := hperm.map EarlyReplayEntry.identity
  have hnodup := hc.nodup
  rw [hroot, map_cons, nodup_cons] at hnodup
  constructor
  · exact hids.nodup_iff.mpr hnodup.2
  · intro identity
    have hsame := hc.same identity
    rw [hroot, map_cons, mem_cons] at hsame
    rw [Finset.mem_erase, hsame, hids.mem_iff]
    constructor
    · intro hmem
      exact hmem.2.resolve_left hmem.1
    · intro hmem
      refine ⟨?_, .inr hmem⟩
      intro heq
      exact hnodup.1 (heq ▸ hmem)
  · exact le_trans Finset.card_erase_le hc.bounded

/-- What dropping does: heap and set stay in step, nothing is added, and only
expired entries go. -/
theorem dropExpired_spec (now : Instant) (hc : c.InStep) :
    (c.dropExpired now).InStep ∧ (c.dropExpired now).max = c.max ∧
      (∀ entry ∈ (c.dropExpired now).expirations, entry ∈ c.expirations) ∧
      ∀ entry ∈ c.expirations, now.ns < entry.expires.ns →
        entry ∈ (c.dropExpired now).expirations := by
  fun_induction dropExpired c now with
  | case1 c hempty => exact ⟨hc, rfl, fun _ h => h, fun _ h _ => h⟩
  | case2 c root hroot hlive => exact ⟨hc, rfl, fun _ h => h, fun _ h _ => h⟩
  | case3 c root hroot hexpired hpop => exact ⟨hc, rfl, fun _ h => h, fun _ h _ => h⟩
  | case4 c root hroot hexpired entry remaining hpop ih =>
    -- the entry that the heap gives up is the root that was looked at
    obtain ⟨rest, hrest⟩ := List.head?_eq_some_iff.mp hroot
    obtain ⟨_, hpop', hperm⟩ := pop_cons EarlyReplayEntry.before root rest
    rw [hrest, hpop'] at hpop
    cases hpop
    obtain ⟨hstep, hmax, hfewer, hkept⟩ := ih (hc.erase_root hrest hperm)
    refine ⟨hstep, hmax, ?_, ?_⟩
    · intro kept hmem
      rw [hrest]
      exact mem_cons_of_mem _ (hperm.mem_iff.mp (hfewer kept hmem))
    · intro kept hmem hlive
      apply hkept kept _ hlive
      rw [hrest] at hmem
      rcases mem_cons.mp hmem with rfl | hmem
      · exact absurd hlive hexpired
      · exact hperm.mem_iff.mpr hmem

/-- What a call does to a cache whose heap and set are in step. -/
theorem checkAndStore_spec (now : Instant) (identity : Bytes) (expires : Instant) (hc : c.InStep) :
    (c.checkAndStore now identity expires).2.InStep ∧
      (c.checkAndStore now identity expires).2.max = c.max ∧
      (∀ entry ∈ c.expirations, now.ns < entry.expires.ns →
        entry ∈ (c.checkAndStore now identity expires).2.expirations) ∧
      ((c.checkAndStore now identity expires).1 = true →
        ⟨identity, expires⟩ ∈ (c.checkAndStore now identity expires).2.expirations ∧
        ∀ entry ∈ c.expirations, entry.identity = identity → entry.expires.ns ≤ now.ns) := by
  obtain ⟨hstep, hmax, _, hkept⟩ := dropExpired_spec now hc
  unfold checkAndStore
  dsimp only
  split
  next => exact ⟨hstep, hmax, hkept, by simp⟩
  next hadmit =>
    have hfresh : identity ∉ (c.dropExpired now).entries := fun h => hadmit (.inl h)
    have hroom : (c.dropExpired now).entries.card < (c.dropExpired now).max :=
      Nat.lt_of_not_le fun h => hadmit (.inr h)
    have hpush := push_perm EarlyReplayEntry.before
      (c.dropExpired now).expirations ⟨identity, expires⟩
    have hids := hpush.map EarlyReplayEntry.identity
    refine ⟨⟨?_, ?_, ?_⟩, hmax, ?_, ?_⟩
    · apply hids.nodup_iff.mpr
      exact nodup_cons.mpr ⟨fun h => hfresh ((hstep.same identity).mpr h), hstep.nodup⟩
    · intro other
      rw [Finset.mem_insert, hstep.same, hids.mem_iff, map_cons, mem_cons]
    · have hcard := Finset.card_insert_of_notMem hfresh
      dsimp only
      omega
    · intro entry hmem hlive
      exact hpush.mem_iff.mpr (mem_cons_of_mem _ (hkept entry hmem hlive))
    · intro _
      refine ⟨hpush.mem_iff.mpr mem_cons_self, ?_⟩
      intro entry hmem heq
      apply Int.not_lt.mp
      intro hlive
      apply hfresh
      exact (hstep.same identity).mpr (mem_map.mpr ⟨entry, hkept entry hmem hlive, heq⟩)

/-! ## Sequences of calls -/

structure StoreCall where
  now : Instant
  identity : Bytes
  expires : Instant

def store (c : EarlyDataReplayCache) (call : StoreCall) : EarlyDataReplayCache :=
  (c.checkAndStore call.now call.identity call.expires).2

theorem inStep_run {capacity : Nat}
    (hnew : newLRUEarlyDataReplayCache capacity = some c) (calls : List StoreCall) :
    (RunSystem.run store c calls).InStep ∧ (RunSystem.run store c calls).max = capacity := by
  have hstep : ∀ (c : EarlyDataReplayCache) (call : StoreCall),
      c.InStep ∧ c.max = capacity → (c.store call).InStep ∧ (c.store call).max = capacity := by
    intro c call hc
    obtain ⟨hnext, hmax, _⟩ := checkAndStore_spec call.now call.identity call.expires hc.1
    exact ⟨hnext, hmax.trans hc.2⟩
  have hmax : c.max = capacity := by
    unfold newLRUEarlyDataReplayCache at hnew
    split at hnew
    next => cases hnew
    next =>
      cases hnew
      rfl
  exact RunSystem.run_invariant_all hstep ⟨inStep_new hnew, hmax⟩ calls

end EarlyDataReplayCache

end Dtls13
