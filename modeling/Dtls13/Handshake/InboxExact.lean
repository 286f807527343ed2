import Dtls13.Handshake.Inbox
import Dtls13.Handshake.ReassemblyExact

/-! # Messages in order, each of them once

The inbox hands out a run of messages in the order of their sequence numbers. A
message that completes early waits; the messages that wait are all above the number
the inbox expects.
-/

namespace Dtls13

open StateLogic RunSystem WeightedMap HandshakeMessage List Reassembler

namespace HandshakeInbox

/-! ## Draining -/

/-- What draining takes from an inbox: the messages that wait from the expected
number on, up to the first that is missing. -/
structure Drained (i : HandshakeInbox) (taken : List CompletedHandshake) (next : HandshakeInbox) :
    Prop where
  expected : next.expected = i.expected + taken.length
  waited : ∀ k < taken.length, i.ready.lookup (i.expected + k) = taken[k]?
  missing : i.ready.lookup (i.expected + taken.length) = none
  left : ∀ q, next.ready.lookup q = if q < i.expected + taken.length then none else i.ready.lookup q
  bytes : next.readyBytes = WeightedMap.total (fun c => c.body.length) next.ready
  fewer : next.ready.keys.length ≤ i.ready.keys.length
  less : next.readyBytes ≤ i.readyBytes
  reassembler : next.reassembler = i.reassembler
  maxReady : next.maxReady = i.maxReady
  maxBytes : next.maxBytes = i.maxBytes

/-- The limits an inbox works with. -/
def limits (i : HandshakeInbox) : Nat × Nat × Nat × Nat :=
  (i.maxReady, i.maxBytes, i.reassembler.maxMessages, i.reassembler.maxBytes)

theorem Drained.limits {i next : HandshakeInbox} {taken : List CompletedHandshake}
    (hdrained : Drained i taken next) : next.limits = i.limits := by
  unfold HandshakeInbox.limits
  rw [hdrained.maxReady, hdrained.maxBytes, hdrained.reassembler]

theorem drained_nil {i : HandshakeInbox} (hnone : i.ready.lookup i.expected = none)
    (habove : ∀ q c, i.ready.lookup q = some c → i.expected ≤ q)
    (hbytes : i.readyBytes = total (fun c => c.body.length) i.ready) : Drained i [] i where
  expected := rfl
  waited := nofun
  missing := hnone
  left q := by
    split_ifs with hlt
    · cases hq : i.ready.lookup q with
      | none => rfl
      | some c => exact absurd (habove q c hq) (Nat.not_le.mpr hlt)
    · rfl
  bytes := hbytes
  fewer := le_rfl
  less := le_rfl
  reassembler := rfl
  maxReady := rfl
  maxBytes := rfl

theorem advance_expected {i : HandshakeInbox} (hsmall : i.expected < 65535) :
    i.advance.expected = i.expected + 1 := by
  change (i.expected + 1) % 2 ^ 16 = _
  omega

/-- The inbox after the message it expects was taken from those that wait. -/
def takeFirst (i : HandshakeInbox) (message : CompletedHandshake) : HandshakeInbox :=
  { i.advance with
    ready := i.ready.erase i.expected
    readyBytes := i.readyBytes - message.body.length }

theorem drain_succ_of_some {fuel : Nat} {i : HandshakeInbox} {message : CompletedHandshake}
    (hfirst : i.ready.lookup i.expected = some message) :
    drain (fuel + 1) i = (message :: (drain fuel (i.takeFirst message)).1,
      (drain fuel (i.takeFirst message)).2) := by
  rw [drain, hfirst]
  rfl

theorem Drained.cons {i next : HandshakeInbox} {message : CompletedHandshake}
    {taken : List CompletedHandshake} (hfirst : i.ready.lookup i.expected = some message)
    (hsmall : i.expected < 65535) (hdrained : Drained (i.takeFirst message) taken next) :
    Drained i (message :: taken) next := by
  have hexpected : (i.takeFirst message).expected = i.expected + 1 := advance_expected hsmall
  have hlookup : ∀ q, i.expected < q →
      (i.takeFirst message).ready.lookup q = i.ready.lookup q := fun q hq =>
    AList.lookup_erase_ne (by omega)
  have hkeys := keys_erase_old hfirst
  have hfewer : next.ready.keys.length ≤ (i.ready.erase i.expected).keys.length := hdrained.fewer
  refine ⟨?_, fun k hk => ?_, ?_, fun q => ?_, hdrained.bytes, by omega,
    hdrained.less.trans (Nat.sub_le _ _), hdrained.reassembler, hdrained.maxReady,
    hdrained.maxBytes⟩
  · rw [hdrained.expected, hexpected, length_cons]
    omega
  · cases k with
    | zero => exact hfirst
    | succ k =>
      have hwaited := hdrained.waited k (by simpa using hk)
      rw [hexpected, hlookup _ (by omega)] at hwaited
      rw [List.getElem?_cons_succ, ← hwaited]
      congr 1
      omega
  · have hmissing := hdrained.missing
    rw [hexpected, hlookup _ (by omega)] at hmissing
    rw [length_cons, ← hmissing]
    congr 1
    omega
  · rw [hdrained.left, hexpected, length_cons]
    by_cases hlt : q < i.expected + 1 + taken.length
    · rw [if_pos hlt, if_pos (by omega)]
    · rw [if_neg hlt, if_neg (by omega), hlookup _ (by omega)]

theorem drained_drain {fuel : Nat} {i : HandshakeInbox} (hfuel : i.ready.keys.length ≤ fuel)
    (habove : ∀ q c, i.ready.lookup q = some c → i.expected ≤ q)
    (hsmall : ∀ q c, i.ready.lookup q = some c → q < 65535)
    (hbytes : i.readyBytes = total (fun c => c.body.length) i.ready) :
    Drained i (drain fuel i).1 (drain fuel i).2 := by
  induction fuel generalizing i with
  | zero =>
    refine drained_nil (AList.lookup_eq_none.mpr ?_) habove hbytes
    rw [AList.mem_keys, length_eq_zero_iff.mp (Nat.le_zero.mp hfuel)]
    exact not_mem_nil
  | succ fuel ih =>
    cases hfirst : i.ready.lookup i.expected with
    | none =>
      rw [drain, hfirst]
      exact drained_nil hfirst habove hbytes
    | some message =>
      have hkeys := keys_erase_old hfirst
      have htotal :=
        total_erase (fun c : CompletedHandshake => c.body.length) hfirst
      have hlt := hsmall _ _ hfirst
      have hrest : ∀ q c, (i.takeFirst message).ready.lookup q = some c →
          q ≠ i.expected ∧ i.ready.lookup q = some c := by
        intro q c hq
        change (i.ready.erase i.expected).lookup q = some c at hq
        have hne : q ≠ i.expected := by
          rintro rfl
          simp at hq
        rw [AList.lookup_erase_ne hne] at hq
        exact ⟨hne, hq⟩
      rw [drain_succ_of_some hfirst]
      refine Drained.cons hfirst hlt (ih ?_ (fun q c hq => ?_)
        (fun q c hq => hsmall q c (hrest q c hq).2) ?_)
      · change (i.ready.erase i.expected).keys.length ≤ fuel
        omega
      · obtain ⟨hne, hold⟩ := hrest q c hq
        have hle := habove q c hold
        change (i.expected + 1) % 2 ^ 16 ≤ q
        omega
      · change i.readyBytes - message.body.length = total _ (i.ready.erase i.expected)
        omega

/-! ## What an arrival does -/

/-- The messages that wait are above the expected number and within the limits. -/
structure Orderly (i : HandshakeInbox) : Prop where
  above : ∀ q c, i.ready.lookup q = some c → i.expected < q
  small : ∀ q c, i.ready.lookup q = some c → q < 65535
  expected_le : i.expected ≤ 65535
  bytes : i.readyBytes = WeightedMap.total (fun c => c.body.length) i.ready
  few : i.ready.keys.length ≤ i.maxReady
  room : i.readyBytes ≤ i.maxBytes

/-- The errors of a message that the limits on waiting messages reject. -/
def readyErrors : List Err :=
  [.protocolError "too many completed out-of-order handshake messages",
    .protocolError "completed handshake message memory limit exceeded"]

/-- A message that completed before its turn waits. -/
def hold (i : HandshakeInbox) (message : CompletedHandshake) : HandshakeInbox :=
  { i with
    ready := i.ready.insert message.sequence message
    readyBytes := i.readyBytes + message.body.length }

/-- What becomes of a message that completes: it waits, or it is handed out with
those that waited for it. -/
inductive Settled (i : HandshakeInbox) (message : CompletedHandshake) :
    List CompletedHandshake → HandshakeInbox → Prop where
  | held (hlater : message.sequence ≠ i.expected) : Settled i message [] (i.hold message)
  | delivered {taken next} (hnow : message.sequence = i.expected)
      (hdrained : Drained i.advance taken next) : Settled i message (message :: taken) next

variable {i : HandshakeInbox} {message : CompletedHandshake}

theorem Orderly.hold (horderly : i.Orderly) (hlater : i.expected < message.sequence)
    (hsmall : message.sequence < 65535) (hnone : i.ready.lookup message.sequence = none)
    (hfew : i.ready.keys.length < i.maxReady)
    (hroom : i.readyBytes + message.body.length ≤ i.maxBytes) : (i.hold message).Orderly where
  above q c hq := by
    by_cases heq : q = message.sequence
    · rwa [heq]
    · exact horderly.above q c (by rwa [← AList.lookup_insert_ne heq])
  small q c hq := by
    by_cases heq : q = message.sequence
    · rwa [heq]
    · exact horderly.small q c (by rwa [← AList.lookup_insert_ne heq])
  expected_le := horderly.expected_le
  bytes := by
    change i.readyBytes + message.body.length = total _ (i.ready.insert _ message)
    rw [total_insert_new _ hnone, horderly.bytes, Nat.add_comm]
  few := (keys_insert_new hnone).trans_le hfew
  room := hroom

theorem Orderly.drained (horderly : i.Orderly) (hsmall : i.expected < 65535)
    {taken : List CompletedHandshake} {next : HandshakeInbox}
    (hdrained : Drained i.advance taken next) : next.Orderly := by
  have hadvance := advance_expected hsmall
  have hexpected := hdrained.expected
  rw [hadvance] at hexpected
  have hleft : ∀ q c, next.ready.lookup q = some c →
      next.expected ≤ q ∧ i.ready.lookup q = some c := by
    intro q c hq
    rw [hdrained.left, hadvance] at hq
    split_ifs at hq with hlt
    exact ⟨by omega, hq⟩
  refine ⟨fun q c hq => ?_, fun q c hq => horderly.small q c (hleft q c hq).2, ?_, hdrained.bytes,
    ?_, ?_⟩
  · obtain ⟨hle, hold⟩ := hleft q c hq
    have hmissing := hdrained.missing
    rw [hadvance, ← hexpected] at hmissing
    refine lt_of_le_of_ne hle fun heq => ?_
    rw [← heq] at hold
    exact absurd (hmissing.symm.trans hold) (by simp)
  · -- The last message taken waited, so its number is below the last one.
    cases htaken : taken.length with
    | zero => omega
    | succ n =>
      have hlast := hdrained.waited n (by omega)
      rw [hadvance, List.getElem?_eq_getElem (by omega)] at hlast
      have hbound := horderly.small _ _ hlast
      omega
  · rw [hdrained.maxReady]
    exact hdrained.fewer.trans horderly.few
  · rw [hdrained.maxBytes]
    exact hdrained.less.trans horderly.room

theorem wp_complete (horderly : i.Orderly) (hturn : i.expected ≤ message.sequence)
    (hsmall : message.sequence < 65535) (hnone : i.ready.lookup message.sequence = none) :
    wp (complete message)
      (fun batch next => next.Orderly ∧ next.limits = i.limits ∧ Settled i message batch next)
      (fun err next => next = i ∧ err ∈ readyErrors) i := by
  unfold complete
  rw [wp_bind, wp_get]
  refine wp_guard ⟨rfl, by simp [readyErrors]⟩ fun hfew => ?_
  refine wp_guard ⟨rfl, by simp [readyErrors]⟩ fun hroom => ?_
  rw [wp_ite]
  refine ⟨fun hlater => ?_, fun hnow => ?_⟩
  · rw [wp_bind, wp_set]
    exact ⟨horderly.hold (by omega) hsmall hnone (by omega) (by omega), rfl, .held hlater⟩
  · have hnow : message.sequence = i.expected := not_not.mp hnow
    have hadvance := advance_expected (i := i) (by omega)
    have hdrained : Drained i.advance (drain i.ready.keys.length i.advance).1
        (drain i.ready.keys.length i.advance).2 := by
      refine drained_drain le_rfl (fun q c hq => ?_) horderly.small horderly.bytes
      rw [hadvance]
      exact horderly.above q c hq
    dsimp only
    rw [wp_bind, wp_set]
    exact ⟨horderly.drained (by omega) hdrained, hdrained.limits, .delivered hnow hdrained⟩

variable {s : Assemblies} {f : HandshakeFragment} {epoch : Nat} {isProtected : Bool}

/-- The errors of an arrival that a limit rejects. -/
def limitErrors : List Err := Reassembler.limitErrors ++ readyErrors

/-- The message of the fragment was handed out or waits already. -/
def Known (i : HandshakeInbox) (f : HandshakeFragment) : Prop :=
  f.messageSequence < i.expected ∨ (i.ready.lookup f.messageSequence).isSome

/-- What a fragment does to the inbox: nothing, if its message is known already;
otherwise it is filed, and the message settled when it is complete. -/
inductive Outcome (i : HandshakeInbox) (s : Assemblies) (f : HandshakeFragment)
    (epoch : Option Nat) : List CompletedHandshake → HandshakeInbox → Prop where
  | ignored (hknown : i.Known f) : Outcome i s f epoch [] i
  | filed {r} (hnew : ¬i.Known f) (hrep : r.Represents (s.feed f epoch none))
      (hmore : ¬((s.entry f epoch).filed f none).Whole) :
      Outcome i s f epoch [] { i with reassembler := r }
  | completed {r c batch next} (hnew : ¬i.Known f) (hrep : r.Represents (s.feed f epoch none))
      (hout : Reassembler.HandsOut ((s.entry f epoch).filed f none) (some c))
      (hsettled : Settled { i with reassembler := r } ⟨f.typ, f.messageSequence, c.body⟩ batch
        next) : Outcome i s f epoch batch next

/-- The reassembler still represents an account of what has arrived. -/
def Sound (i : HandshakeInbox) : Prop := i.Orderly ∧ ∃ s, i.reassembler.Represents s

theorem Orderly.withReassembler (horderly : i.Orderly) (r : Reassembler) :
    ({ i with reassembler := r } : HandshakeInbox).Orderly :=
  ⟨horderly.above, horderly.small, horderly.expected_le, horderly.bytes, horderly.few,
    horderly.room⟩

variable (epoch isProtected) in
theorem wp_addAtEpoch (horderly : i.Orderly) (hrep : i.reassembler.Represents s)
    (hwithin : f.offset + f.body.length ≤ f.length) (hsmall : f.messageSequence < 65535) :
    wp (addAtEpoch f epoch isProtected)
      (fun batch next => next.Orderly ∧ next.limits = i.limits ∧
        Outcome i s f (originEpoch epoch isProtected) batch next)
      (fun err next => next.Sound ∧ next.limits = i.limits ∧ (err ∈ limitErrors ∨ ¬i.Known f ∧
        ¬(s.entry f (originEpoch epoch isProtected)).Accepts f (originEpoch epoch isProtected)))
      i := by
  unfold addAtEpoch
  rw [wp_bind, wp_get, wp_ite]
  refine ⟨fun hpast => ⟨horderly, rfl, .ignored (.inl hpast)⟩, fun hpast => ?_⟩
  rw [wp_ite]
  refine ⟨fun hready => ⟨horderly, rfl, .ignored (.inr hready)⟩, fun hready => ?_⟩
  have hnew : ¬i.Known f := fun hknown => hknown.elim hpast hready
  rw [wp_bind, wp_zoom]
  have hlimits : ∀ r, Reassembler.SameOthers f.messageSequence i.reassembler r →
      ({ i with reassembler := r } : HandshakeInbox).limits = i.limits := by
    intro r hsame
    unfold limits
    rw [hsame.maxMessages, hsame.maxBytes]
  refine wp_mono (wp_and (wp_addAtEpochAndRecord_represents hrep hwithin)
    (wp_addAtEpochAndRecord_sameOthers ..)) ?_ ?_
  · rintro result r ⟨⟨-, hfed, -, hout⟩, hsame⟩
    cases result with
    | none =>
      refine ⟨horderly.withReassembler r, hlimits r hsame, .filed hnew hfed fun hwhole => ?_⟩
      exact absurd (hout.whole.mpr hwhole) (by simp)
    | some c =>
      have hnone : i.ready.lookup f.messageSequence = none := by
        simpa using hready
      refine wp_mono (wp_complete (horderly.withReassembler r) (Nat.not_lt.mp hpast) hsmall
        hnone) ?_ ?_
      · rintro batch next ⟨hnext, hkept, hsettled⟩
        exact ⟨hnext, hkept.trans (hlimits r hsame), .completed hnew hfed hout hsettled⟩
      · rintro err _ ⟨rfl, herr⟩
        exact ⟨⟨horderly.withReassembler r, _, hfed⟩, hlimits r hsame,
          .inl (mem_append_right _ herr)⟩
  · rintro err r ⟨⟨-, rfl, hlimit⟩ | ⟨-, hfed, hrefused⟩, hsame⟩
    · exact ⟨⟨horderly.withReassembler _, _, hrep⟩, rfl, .inl (mem_append_left _ hlimit)⟩
    · exact ⟨⟨horderly.withReassembler r, _, hfed⟩, hlimits r hsame, .inr ⟨hnew, hrefused⟩⟩

end HandshakeInbox

/-! ## The messages of a sender -/

/-- A message as the inbox hands it out. -/
def HandshakeMessage.completed (m : HandshakeMessage) : CompletedHandshake :=
  ⟨m.typ, m.sequence, m.body⟩

namespace FragmentArrival

/-- The inbox notes no record numbers. -/
def unnumbered (x : FragmentArrival) : FragmentArrival := { x with number := none }

/-- The fragments of one message. -/
def partsOf (m : HandshakeMessage) (xs : List FragmentArrival) : List FragmentArrival :=
  (xs.filter fun x => x.fragment.messageSequence == m.sequence).map unnumbered

/-- Everything of a message has arrived; of an empty one, at least one fragment. -/
def Arrived (m : HandshakeMessage) (xs : List FragmentArrival) : Prop :=
  partsOf m xs ≠ [] ∧ Complete m (partsOf m xs)

instance (m : HandshakeMessage) (xs : List FragmentArrival) : Decidable (Arrived m xs) :=
  inferInstanceAs (Decidable (_ ∧ _))

variable {m : HandshakeMessage} {xs : List FragmentArrival} {x : FragmentArrival}

theorem partsOf_snoc_self (hsequence : x.fragment.messageSequence = m.sequence) :
    partsOf m (xs ++ [x]) = partsOf m xs ++ [x.unnumbered] := by
  simp [partsOf, hsequence]

theorem partsOf_snoc_of_ne (hsequence : x.fragment.messageSequence ≠ m.sequence) :
    partsOf m (xs ++ [x]) = partsOf m xs := by
  simp [partsOf, hsequence]

theorem arrived_snoc_of_ne (hsequence : x.fragment.messageSequence ≠ m.sequence) :
    Arrived m (xs ++ [x]) ↔ Arrived m xs := by
  rw [Arrived, Arrived, partsOf_snoc_of_ne hsequence]

/-- The fragment completes its message if it covers what was missing. -/
theorem arrived_snoc_self (hsequence : x.fragment.messageSequence = m.sequence) :
    Arrived m (xs ++ [x]) ↔ Complete m (partsOf m xs ++ [x.unnumbered]) := by
  rw [Arrived, partsOf_snoc_self hsequence]
  exact and_iff_right (by simp)

theorem Arrived.snoc (harrived : Arrived m xs) (x : FragmentArrival) : Arrived m (xs ++ [x]) := by
  by_cases hsequence : x.fragment.messageSequence = m.sequence
  · rw [arrived_snoc_self hsequence]
    intro i hi
    obtain ⟨y, hy, hcovers⟩ := harrived.2 i hi
    exact ⟨y, mem_append_left _ hy, hcovers⟩
  · exact (arrived_snoc_of_ne hsequence).mpr harrived

end FragmentArrival

namespace HandshakeInbox

open FragmentArrival

/-- The inbox and the messages `ms`, whose numbers start at `first`: the first
`count` of them were handed out, and what has arrived of the others waits or is
being gathered. -/
structure Follows (ms : List HandshakeMessage) (first : Nat)
    (origin : HandshakeMessage → Option Nat) (xs : List FragmentArrival) (count : Nat)
    (i : HandshakeInbox) (s : Assemblies) : Prop where
  orderly : i.Orderly
  rep : i.reassembler.Represents s
  expected : i.expected = first + count
  count_le : count ≤ ms.length
  delivered : ∀ j m, ms[j]? = some m → j < count → Arrived m xs
  missing : ∀ m, ms[count]? = some m → ¬Arrived m xs
  waiting : ∀ j m, ms[j]? = some m → count < j →
    i.ready.lookup m.sequence = if Arrived m xs then some m.completed else none
  beyond : ∀ q, first + ms.length ≤ q → i.ready.lookup q = none
  gathering : ∀ j m, ms[j]? = some m → count ≤ j → ¬Arrived m xs →
    s.Gathering m (origin m) (partsOf m xs)

/-- The numbers of the messages are consecutive. -/
def Consecutive (ms : List HandshakeMessage) (first : Nat) : Prop :=
  ∀ j m, ms[j]? = some m → m.sequence = first + j

variable {ms : List HandshakeMessage} {first count j : Nat}
  {origin : HandshakeMessage → Option Nat} {xs : List FragmentArrival} {i next : HandshakeInbox}
  {s : Assemblies} {x : FragmentArrival} {m : HandshakeMessage} {batch : List CompletedHandshake}

variable {t : HandshakeInbox × List CompletedHandshake} {other : HandshakeMessage}

/-- Messages with consecutive numbers are told apart by them. -/
theorem Consecutive.eq_of_sequence_eq (hms : Consecutive ms first) {k : Nat}
    (hm : ms[j]? = some m) (hother : ms[k]? = some other)
    (heq : m.sequence = other.sequence) : k = j ∧ other = m := by
  have hj := hms j m hm
  have hk := hms k other hother
  obtain rfl : k = j := by omega
  exact ⟨rfl, Option.some.inj (hother.symm.trans hm)⟩

/-- What is left to gather of the other messages does not change. -/
theorem gathering_feed_of_ne {epoch : Option Nat}
    (hne : x.fragment.messageSequence ≠ other.sequence)
    (hgathering : s.Gathering other (origin other) (partsOf other xs)) :
    (s.feed x.fragment epoch none).Gathering other (origin other) (partsOf other (xs ++ [x])) := by
  rw [partsOf_snoc_of_ne hne]
  unfold Assemblies.Gathering Assemblies.feed at *
  split_ifs
  · rwa [Function.update_of_ne hne.symm]
  · exact hgathering

/-- Nothing is handed out and nothing new waits while no further message has
arrived. -/
theorem Follows.keep (hfollows : Follows ms first origin xs count i s)
    {ys : List FragmentArrival} {r : Assemblies}
    (hsame : ∀ (k : Nat) other, ms[k]? = some other → (Arrived other ys ↔ Arrived other xs))
    (horderly : next.Orderly) (hrep : next.reassembler.Represents r)
    (hexpected : next.expected = i.expected) (hready : next.ready = i.ready)
    (hgathering : ∀ (k : Nat) other, ms[k]? = some other → count ≤ k → ¬Arrived other xs →
      r.Gathering other (origin other) (partsOf other ys)) :
    Follows ms first origin ys count next r where
  orderly := horderly
  rep := hrep
  expected := hexpected.trans hfollows.expected
  count_le := hfollows.count_le
  delivered k other hother hk := (hsame k other hother).mpr (hfollows.delivered k other hother hk)
  missing other hother := (hsame _ other hother).not.mpr (hfollows.missing other hother)
  waiting k other hother hk := by
    rw [hready, hfollows.waiting k other hother hk]
    simp only [hsame k other hother]
  beyond q hq := by
    rw [hready]
    exact hfollows.beyond q hq
  gathering k other hother hk hnot :=
    hgathering k other hother hk ((hsame k other hother).not.mp hnot)

/-- Completing a message leaves the others as they are. -/
theorem arrived_of_ne (xs : List FragmentArrival) (hms : Consecutive ms first)
    (hm : ms[j]? = some m) (hpart : m.IsPart x.fragment) {k : Nat}
    (hother : ms[k]? = some other) (hne : k ≠ j) : x.fragment.messageSequence ≠ other.sequence ∧
      (Arrived other (xs ++ [x]) ↔ Arrived other xs) := by
  have hsequence : x.fragment.messageSequence ≠ other.sequence := fun heq =>
    hne (hms.eq_of_sequence_eq hm hother (hpart.sequence ▸ heq)).1
  exact ⟨hsequence, arrived_snoc_of_ne hsequence⟩

/-- The messages that are handed out with the expected one waited for it. -/
theorem Follows.waited (hfollows : Follows ms first origin xs count i s)
    (hms : Consecutive ms first) {q : Nat} {c : CompletedHandshake} (hq : first + count < q)
    (hc : i.ready.lookup q = some c) :
    ∃ other, ms[q - first]? = some other ∧ Arrived other xs ∧ c = other.completed := by
  have hlt : q - first < ms.length := by
    by_contra hge
    rw [hfollows.beyond q (by omega)] at hc
    cases hc
  have hother := List.getElem?_eq_getElem hlt
  have hsequence := hms _ _ hother
  have hwaiting := hfollows.waiting _ _ hother (by omega)
  rw [hsequence, show first + (q - first) = q by omega, hc] at hwaiting
  split_ifs at hwaiting with harrived
  exact ⟨_, hother, harrived, Option.some.inj hwaiting⟩

section

variable (hfollows : Follows ms first origin xs count i s) (hms : Consecutive ms first)
  (hm : ms[j]? = some m) (hpart : m.IsPart x.fragment)

include hfollows hms hm hpart

/-- A fragment of a message that is known already changes nothing. -/
theorem Follows.ignore (hknown : i.Known x.fragment) :
    Follows ms first origin (xs ++ [x]) count i s := by
  have hsequence := hms j m hm
  have harrived : Arrived m xs := by
    rcases hknown with hpast | hready
    · rw [hpart.sequence, hsequence, hfollows.expected] at hpast
      exact hfollows.delivered j m hm (by omega)
    · obtain ⟨c, hc⟩ := Option.isSome_iff_exists.mp hready
      have habove := hfollows.orderly.above _ _ hc
      rw [hpart.sequence, hsequence, hfollows.expected] at habove
      rw [hpart.sequence, hfollows.waiting j m hm (by omega)] at hc
      by_contra hmissing
      simp [hmissing] at hc
  refine hfollows.keep (fun k other hother => ?_) hfollows.orderly hfollows.rep rfl rfl
    fun k other hother hk hnot => ?_
  · by_cases heq : x.fragment.messageSequence = other.sequence
    · obtain ⟨-, rfl⟩ := hms.eq_of_sequence_eq hm hother (hpart.sequence ▸ heq)
      exact iff_of_true (harrived.snoc x) harrived
    · exact arrived_snoc_of_ne heq
  · have hne : x.fragment.messageSequence ≠ other.sequence := by
      intro heq
      obtain ⟨-, rfl⟩ := hms.eq_of_sequence_eq hm hother (hpart.sequence ▸ heq)
      exact hnot harrived
    rw [partsOf_snoc_of_ne hne]
    exact hfollows.gathering k other hother hk hnot

section

variable (hnew : ¬i.Known x.fragment)

include hnew

/-- A fragment of a message that is not known yet belongs to one that is missing. -/
theorem Follows.unknown : count ≤ j ∧ ¬Arrived m xs := by
  have hsequence := hms j m hm
  rw [Known, not_or, hpart.sequence, hsequence, hfollows.expected] at hnew
  have hle : count ≤ j := by omega
  refine ⟨hle, fun harrived => ?_⟩
  rcases hle.eq_or_lt with rfl | hlt
  · exact hfollows.missing m hm harrived
  · have hwaiting := hfollows.waiting j m hm hlt
    rw [if_pos harrived, hsequence] at hwaiting
    exact hnew.2 (by rw [hwaiting]; rfl)

/-- What is known of a message that is missing is what its fragments say. -/
theorem Follows.entry : s.entry x.fragment (origin m) = m.gathered (origin m) (partsOf m xs) := by
  obtain ⟨hle, hmissing⟩ := hfollows.unknown hms hm hpart hnew
  exact (hfollows.gathering j m hm hle hmissing).entry hpart

/-- A fragment that leaves its message incomplete is gathered. -/
theorem Follows.file {r : Reassembler} (hrep : r.Represents (s.feed x.fragment (origin m) none))
    (hmore : ¬Arrived m (xs ++ [x])) :
    Follows ms first origin (xs ++ [x]) count { i with reassembler := r }
      (s.feed x.fragment (origin m) none) := by
  obtain ⟨-, hmissing⟩ := hfollows.unknown hms hm hpart hnew
  refine hfollows.keep (fun k other hother => ?_) (hfollows.orderly.withReassembler r) hrep rfl rfl
    fun k other hother hk hnot => ?_
  · by_cases heq : x.fragment.messageSequence = other.sequence
    · obtain ⟨-, rfl⟩ := hms.eq_of_sequence_eq hm hother (hpart.sequence ▸ heq)
      exact iff_of_false hmore hmissing
    · exact arrived_snoc_of_ne heq
  · have hold := hfollows.gathering k other hother hk hnot
    by_cases heq : x.fragment.messageSequence = other.sequence
    · obtain ⟨-, rfl⟩ := hms.eq_of_sequence_eq hm hother (hpart.sequence ▸ heq)
      have hfed := hold.feed (x := x.unnumbered) hpart
      rw [if_neg ((arrived_snoc_self hpart.sequence).not.mp hmore)] at hfed
      rw [partsOf_snoc_self hpart.sequence]
      exact hfed
    · exact gathering_feed_of_ne heq hold

/-- A message that completes before its turn waits. -/
theorem Follows.hold {r : Reassembler}
    (hrep : r.Represents (s.feed x.fragment (origin m) none)) (hcomplete : Arrived m (xs ++ [x]))
    (hlater : m.sequence ≠ i.expected)
    (horderly : ({ i with reassembler := r }.hold m.completed).Orderly) :
    Follows ms first origin (xs ++ [x]) count ({ i with reassembler := r }.hold m.completed)
      (s.feed x.fragment (origin m) none) := by
  have hsequence := hms j m hm
  have hcount : count < j := by
    have hle := (hfollows.unknown hms hm hpart hnew).1
    rw [hsequence, hfollows.expected] at hlater
    omega
  have hready : ∀ q, q ≠ m.sequence →
      ({ i with reassembler := r }.hold m.completed).ready.lookup q = i.ready.lookup q :=
    fun q hq => AList.lookup_insert_ne hq
  refine ⟨horderly, hrep, hfollows.expected, hfollows.count_le,
    fun k other hother hk => (hfollows.delivered k other hother hk).snoc x, fun other hother => ?_,
    fun k other hother hk => ?_, fun q hq => ?_, fun k other hother hk hnot => ?_⟩
  · rw [(arrived_of_ne xs hms hm hpart hother (by omega)).2]
    exact hfollows.missing other hother
  · by_cases hkj : k = j
    · subst hkj
      rw [hm] at hother
      cases hother
      rw [if_pos hcomplete]
      exact AList.lookup_insert _
    · obtain ⟨hne, harrived⟩ := arrived_of_ne xs hms hm hpart hother hkj
      rw [hready _ (hpart.sequence ▸ hne.symm), hfollows.waiting k other hother hk]
      simp only [harrived]
  · have hlt := (List.getElem?_eq_some_iff.mp hm).1
    rw [hready q (by omega)]
    exact hfollows.beyond q hq
  · have hkj : k ≠ j := by
      rintro rfl
      rw [hm] at hother
      cases hother
      exact hnot hcomplete
    obtain ⟨hne, harrived⟩ := arrived_of_ne xs hms hm hpart hother hkj
    exact gathering_feed_of_ne hne (hfollows.gathering k other hother hk (harrived.not.mp hnot))

/-- The message of a fragment that is not known yet has arrived when what is filed
is whole. -/
theorem Follows.arrived_iff : (s.entry x.fragment (origin m)).filed x.fragment none =
        m.gathered (origin m) (partsOf m xs ++ [x.unnumbered]) ∧
      (((s.entry x.fragment (origin m)).filed x.fragment none).Whole ↔ Arrived m (xs ++ [x])) := by
  have hfiled : (s.entry x.fragment (origin m)).filed x.fragment none =
      m.gathered (origin m) (partsOf m xs ++ [x.unnumbered]) := by
    rw [hfollows.entry hms hm hpart hnew]
    exact gathered_filed (x := x.unnumbered) hpart
  refine ⟨hfiled, ?_⟩
  rw [hfiled, gathered_whole_iff, arrived_snoc_self hpart.sequence]

end

variable (hbound : first + ms.length ≤ 65535)

include hbound

/-- A message that completes in its turn is handed out with those that waited. -/
theorem Follows.deliver {r : Reassembler}
    (hrep : r.Represents (s.feed x.fragment (origin m) none)) (hcomplete : Arrived m (xs ++ [x]))
    (hnow : m.sequence = i.expected) {taken : List CompletedHandshake}
    (hdrained : Drained ({ i with reassembler := r } : HandshakeInbox).advance taken next)
    (horderly : next.Orderly) :
    Follows ms first origin (xs ++ [x]) (count + (taken.length + 1)) next
        (s.feed x.fragment (origin m) none) ∧
      m.completed :: taken = ((ms.drop count).take (taken.length + 1)).map completed := by
  have hj : j = count := by
    have hsequence := hms j m hm
    rw [hnow, hfollows.expected] at hsequence
    omega
  subst hj
  obtain ⟨hlt, hget⟩ := List.getElem?_eq_some_iff.mp hm
  have hadvance : ({ i with reassembler := r } : HandshakeInbox).advance.expected =
      first + j + 1 := by
    change (i.expected + 1) % 2 ^ 16 = _
    rw [hfollows.expected]
    omega
  have htaken : ∀ k < taken.length, ∃ other, ms[j + 1 + k]? = some other ∧ Arrived other xs ∧
      taken[k]? = some other.completed := by
    intro k hk
    have hwaited := hdrained.waited k hk
    rw [hadvance, List.getElem?_eq_getElem hk] at hwaited
    obtain ⟨other, hother, harrived, hc⟩ := hfollows.waited hms (by omega) hwaited
    rw [show first + j + 1 + k - first = j + 1 + k by omega] at hother
    exact ⟨other, hother, harrived, by rw [List.getElem?_eq_getElem hk, hc]⟩
  have hlast : j + (taken.length + 1) ≤ ms.length := by
    cases hlength : taken.length with
    | zero => omega
    | succ n =>
      obtain ⟨other, hother, -⟩ := htaken n (by omega)
      have hn := (List.getElem?_eq_some_iff.mp hother).1
      omega
  refine ⟨⟨horderly, ?_, ?_, hlast, fun k other hother hk => ?_, fun other hother => ?_,
    fun k other hother hk => ?_, fun q hq => ?_, fun k other hother hk hnot => ?_⟩, ?_⟩
  · rw [hdrained.reassembler]
    exact hrep
  · rw [hdrained.expected, hadvance]
    omega
  · -- Handed out before, just completed, or waited.
    rcases lt_trichotomy k j with hbefore | rfl | hafter
    · exact (hfollows.delivered k other hother hbefore).snoc x
    · rw [hm] at hother
      cases hother
      exact hcomplete
    · obtain ⟨found, hfound, harrived, -⟩ := htaken (k - (j + 1)) (by omega)
      rw [show j + 1 + (k - (j + 1)) = k by omega, hother] at hfound
      cases hfound
      exact harrived.snoc x
  · have hsequence := hms _ other hother
    have hmissing : i.ready.lookup (first + j + 1 + taken.length) = none :=
      hadvance ▸ hdrained.missing
    have hwaiting := hfollows.waiting _ other hother (by omega)
    rw [hsequence, show first + (j + (taken.length + 1)) = first + j + 1 + taken.length by omega,
      hmissing] at hwaiting
    rw [(arrived_of_ne xs hms hm hpart hother (by omega)).2]
    intro harrived
    rw [if_pos harrived] at hwaiting
    cases hwaiting
  · have hsequence := hms _ other hother
    rw [hdrained.left, hadvance, if_neg (by omega)]
    have hwaiting := hfollows.waiting k other hother (by omega)
    simp only [(arrived_of_ne xs hms hm hpart hother (by omega)).2]
    exact hwaiting
  · rw [hdrained.left, hadvance, if_neg (by omega)]
    exact hfollows.beyond q hq
  · obtain ⟨hne, harrived⟩ := arrived_of_ne xs hms hm hpart hother (by omega)
    exact gathering_feed_of_ne hne
      (hfollows.gathering k other hother (by omega) (harrived.not.mp hnot))
  · rw [drop_eq_getElem_cons hlt, take_succ_cons, map_cons, hget]
    congr 1
    apply ext_getElem?
    intro k
    rw [List.getElem?_map, List.getElem?_take, List.getElem?_drop]
    split_ifs with hk
    · obtain ⟨other, hother, -, hc⟩ := htaken k hk
      rw [hother, hc]
      rfl
    · exact List.getElem?_eq_none (by omega)

/-- Every fragment of the messages keeps the inbox in step with them. -/
theorem Follows.step (horderly : next.Orderly)
    (houtcome : Outcome i s x.fragment (origin m) batch next) :
    ∃ more s', Follows ms first origin (xs ++ [x]) (count + more) next s' ∧
      batch = ((ms.drop count).take more).map completed := by
  cases houtcome with
  | ignored hknown => exact ⟨0, s, hfollows.ignore hms hm hpart hknown, rfl⟩
  | filed hnew hrep hmore =>
    rw [(hfollows.arrived_iff hms hm hpart hnew).2] at hmore
    exact ⟨0, _, hfollows.file hms hm hpart hnew hrep hmore, rfl⟩
  | @completed r c _ _ hnew hrep hout hsettled =>
    obtain ⟨hfiled, hwhole⟩ := hfollows.arrived_iff hms hm hpart hnew
    have hcomplete := hwhole.mp (hout.whole.mp rfl)
    rw [hfiled] at hout
    have hmessage : (⟨x.fragment.typ, x.fragment.messageSequence, c.body⟩ : CompletedHandshake) =
        m.completed := by
      rw [hpart.typ, hpart.sequence, hout.reports.body c rfl]
      rfl
    rw [hmessage] at hsettled
    cases hsettled with
    | held hlater =>
      exact ⟨0, _, hfollows.hold hms hm hpart hnew hrep hcomplete hlater horderly, rfl⟩
    | @delivered taken _ hnow hdrained =>
      exact ⟨taken.length + 1, _,
        hfollows.deliver hms hm hpart hbound hrep hcomplete hnow hdrained horderly⟩

/-! ## Runs -/

/-- A fragment arrives. -/
def arrive (x : FragmentArrival) : EStateM Err HandshakeInbox (List CompletedHandshake) :=
  addAtEpoch x.fragment x.epoch x.isProtected

/-- The inbox, and all it has handed out. -/
def collect (t : HandshakeInbox × List CompletedHandshake) (x : FragmentArrival) :
    HandshakeInbox × List CompletedHandshake :=
  handle (arrive x) t.1 (fun batch next => (next, t.2 ++ batch)) fun _ next => (next, t.2)

/-- No limit rejects the fragment. -/
def Unlimited (t : HandshakeInbox × List CompletedHandshake) (x : FragmentArrival) : Prop :=
  ∀ err next, arrive x t.1 = .error err next → err ∉ limitErrors

instance (t : HandshakeInbox × List CompletedHandshake) (x : FragmentArrival) :
    Decidable (Unlimited t x) :=
  match hrun : arrive x t.1 with
  | .ok _ _ => .isTrue fun _ _ herror => by simp [hrun] at herror
  | .error err next => decidable_of_iff (err ∉ limitErrors)
      ⟨fun hnot _ _ herror => by
        rw [hrun] at herror
        cases herror
        exact hnot,
      fun hall => hall err next hrun⟩

theorem Follows.arrive (horigin : x.origin = origin m)
    {out : List CompletedHandshake} (hunlimited : Unlimited (i, out) x) :
    ∃ batch next more s', arrive x i = .ok batch next ∧
      Follows ms first origin (xs ++ [x]) (count + more) next s' ∧
      batch = ((ms.drop count).take more).map completed := by
  have hsmall : x.fragment.messageSequence < 65535 := by
    have hlt := (List.getElem?_eq_some_iff.mp hm).1
    rw [hpart.sequence, hms j m hm]
    omega
  rcases wp_cases (wp_addAtEpoch x.epoch x.isProtected hfollows.orderly hfollows.rep x.within
    hsmall) with
    ⟨batch, next, hrun, horderly, -, houtcome⟩ | ⟨err, next, hrun, -, -, hlimit | ⟨hnew, hrefused⟩⟩
  · change Outcome i s x.fragment x.origin batch next at houtcome
    rw [horigin] at houtcome
    obtain ⟨more, s', hnext, hbatch⟩ := hfollows.step hms hm hpart hbound horderly houtcome
    exact ⟨batch, next, more, s', hrun, hnext, hbatch⟩
  · exact absurd hlimit (hunlimited err next hrun)
  · -- A part of a message agrees with its other parts.
    change ¬(s.entry x.fragment x.origin).Accepts x.fragment x.origin at hrefused
    rw [horigin, hfollows.entry hms hm hpart hnew] at hrefused
    exact absurd (gathered_accepts (origin m) (partsOf m xs) hpart) hrefused

end

/-- The inbox is in step with the messages, and has handed out those it should. -/
def InStep (ms : List HandshakeMessage) (first : Nat) (origin : HandshakeMessage → Option Nat)
    (xs : List FragmentArrival) (t : HandshakeInbox × List CompletedHandshake) : Prop :=
  ∃ count s, Follows ms first origin xs count t.1 s ∧
    t.2 = (ms.take count).map HandshakeMessage.completed

theorem InStep.collect (hstep : InStep ms first origin xs t) (hms : Consecutive ms first)
    (hbound : first + ms.length ≤ 65535)
    (hx : ∃ m ∈ ms, m.IsPart x.fragment ∧ x.origin = origin m) (hunlimited : Unlimited t x) :
    InStep ms first origin (xs ++ [x]) (collect t x) := by
  obtain ⟨count, s, hfollows, hout⟩ := hstep
  obtain ⟨m, hmem, hpart, horigin⟩ := hx
  obtain ⟨j, hm⟩ := List.getElem?_of_mem hmem
  obtain ⟨batch, next, more, s', hrun, hnext, hbatch⟩ :=
    hfollows.arrive hms hm hpart hbound horigin hunlimited
  refine ⟨count + more, s', ?_, ?_⟩
  · rw [HandshakeInbox.collect, handle, hrun]
    exact hnext
  · rw [HandshakeInbox.collect, handle, hrun]
    change t.2 ++ batch = _
    rw [hout, hbatch, ← map_append, take_add]

theorem inStep_run {start : HandshakeInbox} (hms : Consecutive ms first)
    (hbound : first + ms.length ≤ 65535)
    (hxs : ∀ x ∈ xs, ∃ m ∈ ms, m.IsPart x.fragment ∧ x.origin = origin m)
    (hstart : InStep ms first origin [] (start, []))
    (hunlimited : Along collect Unlimited (start, []) xs) :
    InStep ms first origin xs (run collect (start, []) xs) := by
  induction xs using List.reverseRecOn with
  | nil => exact hstart
  | append_singleton before x ih =>
    rw [along_append] at hunlimited
    rw [run_append]
    exact (ih (fun y hy => hxs y (mem_append_left _ hy)) hunlimited.1).collect hms hbound
      (hxs x (by simp)) hunlimited.2.1

/-- Nothing has arrived yet. -/
theorem inStep_newHandshakeInbox (maxMessage maxMessages maxBytes : Nat)
    (hbound : first + ms.length ≤ 65535) :
    InStep ms first origin [] (newHandshakeInbox first maxMessage maxMessages maxBytes, []) := by
  refine ⟨0, fun _ => none, ⟨?_, represents_newReassembler _ _ _, rfl, Nat.zero_le _,
    nofun, fun m _ harrived => harrived.1 rfl, fun j m _ _ => ?_, fun _ _ => rfl,
    fun j m _ _ _ => .inl ⟨rfl, rfl⟩⟩, rfl⟩
  · refine ⟨nofun, nofun, ?_, rfl, Nat.zero_le _, Nat.zero_le _⟩
    change first ≤ 65535
    omega
  · exact (if_neg fun harrived : Arrived m [] => harrived.1 rfl).symm

/-- Messages are handed out up to the first that has not arrived. -/
theorem Follows.lt_iff (hfollows : Follows ms first origin xs count i s) {k : Nat}
    (hm : ms[k]? = some m) :
    k < count ↔ ∀ j ≤ k, ∀ other, ms[j]? = some other → Arrived other xs := by
  constructor
  · intro hk j hj other hother
    exact hfollows.delivered j other hother (by omega)
  · intro hall
    by_contra hge
    have hlt := (List.getElem?_eq_some_iff.mp hm).1
    have hnext : ms[count]? = some _ := List.getElem?_eq_getElem (by omega)
    exact hfollows.missing _ hnext (hall count (by omega) _ hnext)

/-! ## Limits -/

theorem Outcome.represents {f : HandshakeFragment} {epoch : Option Nat}
    (houtcome : Outcome i s f epoch batch next)
    (hrep : i.reassembler.Represents s) : ∃ s', next.reassembler.Represents s' := by
  cases houtcome with
  | ignored _ => exact ⟨s, hrep⟩
  | filed _ hfed _ => exact ⟨_, hfed⟩
  | completed _ hfed _ hsettled =>
    cases hsettled with
    | held _ => exact ⟨_, hfed⟩
    | delivered _ hdrained =>
      rw [hdrained.reassembler]
      exact ⟨_, hfed⟩

/-- What holds of the inbox whatever arrives. -/
def Bounded (bounds : Nat × Nat × Nat × Nat) (t : HandshakeInbox × List CompletedHandshake) :
    Prop :=
  t.1.Sound ∧ t.1.limits = bounds

theorem Bounded.collect {bounds : Nat × Nat × Nat × Nat} (hbounded : Bounded bounds t)
    (hsmall : x.fragment.messageSequence < 65535) : Bounded bounds (collect t x) := by
  obtain ⟨⟨horderly, s, hrep⟩, hlimits⟩ := hbounded
  refine handle_of_wp (wp_mono (wp_addAtEpoch x.epoch x.isProtected horderly hrep x.within hsmall)
    ?_ ?_)
  · rintro batch next ⟨hnext, hsame, houtcome⟩
    exact ⟨⟨hnext, houtcome.represents hrep⟩, hsame.trans hlimits⟩
  · rintro err next ⟨hnext, hsame, -⟩
    exact ⟨hnext, hsame.trans hlimits⟩

/-- From the fragments of messages with consecutive numbers, the inbox hands out a
prefix of the messages, up to the first that has not arrived. Whatever arrives, the
messages that wait are above the expected number, and what is kept of whole and of
partial messages is counted and within the limits. -/
theorem delivery_exact (first maxMessage maxMessages maxBytes : Nat) :
    let start := (newHandshakeInbox first maxMessage maxMessages maxBytes, [])
    (∀ (ms : List HandshakeMessage) (origin : HandshakeMessage → Option Nat)
        (xs : List FragmentArrival), Consecutive ms first → first + ms.length ≤ 65535 →
      (∀ x ∈ xs, ∃ m ∈ ms, m.IsPart x.fragment ∧ x.origin = origin m) →
      Along collect Unlimited start xs → ∃ count ≤ ms.length,
        (run collect start xs).2 = (ms.take count).map HandshakeMessage.completed ∧
        ∀ k m, ms[k]? = some m → (k < count ↔
          ∀ j ≤ k, ∀ other, ms[j]? = some other → Arrived other xs)) ∧
    (∀ xs : List FragmentArrival, first ≤ 65535 → (∀ x ∈ xs, x.fragment.messageSequence < 65535) →
      let i := (run collect start xs).1
      (∀ q c, i.ready.lookup q = some c → i.expected < q) ∧
      i.readyBytes = WeightedMap.total (fun c => c.body.length) i.ready ∧
      i.ready.keys.length ≤ maxMessages ∧ i.readyBytes ≤ maxBytes ∧ i.reassembler.allocated =
        WeightedMap.total (fun p => p.data.length) i.reassembler.messages ∧
      i.reassembler.messages.keys.length ≤ maxMessages ∧ i.reassembler.allocated ≤ maxBytes) := by
  intro start
  refine ⟨fun ms origin xs hms hbound hxs hunlimited => ?_, fun xs hfirst hsmall => ?_⟩
  · obtain ⟨count, s, hfollows, hout⟩ := inStep_run hms hbound hxs
      (inStep_newHandshakeInbox maxMessage maxMessages maxBytes hbound) hunlimited
    exact ⟨count, hfollows.count_le, hout, fun k m hm => hfollows.lt_iff hm⟩
  · intro i
    obtain ⟨count, s, hfollows, -⟩ : InStep [] first (fun _ => none) [] start :=
      inStep_newHandshakeInbox maxMessage maxMessages maxBytes hfirst
    have hstart : Bounded (maxMessages, maxBytes, maxMessages, maxBytes) start :=
      ⟨⟨hfollows.orderly, s, hfollows.rep⟩, rfl⟩
    have halong : Along collect (fun _ x => x.fragment.messageSequence < 65535) start xs :=
      along_of_forall hsmall
    obtain ⟨⟨horderly, s', hrep⟩, hlimits⟩ :=
      run_invariant (fun t x (ht : Bounded _ t) hx => ht.collect hx) hstart halong
    simp only [limits, Prod.mk.injEq] at hlimits
    obtain ⟨hready, hbytes, hmessages, hroom⟩ := hlimits
    have hfew := horderly.few
    have hless := horderly.room
    have hpartial := hrep.few
    have hallocated := hrep.room
    rw [hready] at hfew
    rw [hbytes] at hless
    rw [hmessages] at hpartial
    rw [hroom] at hallocated
    exact ⟨horderly.above, horderly.bytes, hfew, hless, hrep.allocated, hpartial, hallocated⟩

/-- Two messages; the second arrives first, and the parts of the other overlap. -/
def twoMessages : List HandshakeMessage × List FragmentArrival :=
  ([⟨8, 0, [7, 8, 9]⟩, ⟨20, 1, [5]⟩], [⟨⟨20, 1, 1, 0, [5]⟩, 2, true, none, by decide⟩,
      ⟨⟨8, 0, 3, 1, [8, 9]⟩, 2, true, none, twoParts.2.1.within⟩,
      ⟨⟨8, 0, 3, 0, [7, 8]⟩, 2, true, none, twoParts.2.2.within⟩])

theorem delivery_exact_twoMessages :
    ∃ count ≤ 2, (run collect (newHandshakeInbox 0 16 4 64, []) twoMessages.2).2 =
        (twoMessages.1.take count).map HandshakeMessage.completed ∧
      ∀ k m, twoMessages.1[k]? = some m → (k < count ↔
        ∀ j ≤ k, ∀ other, twoMessages.1[j]? = some other → Arrived other twoMessages.2) := by
  refine (delivery_exact 0 16 4 64).1 twoMessages.1 (fun _ => some 2) twoMessages.2 ?_ (by decide)
    ?_ (by decide)
  · intro j m hm
    match j with
    | 0 | 1 =>
      cases hm
      rfl
  · intro x hx
    simp only [twoMessages, List.mem_cons, List.not_mem_nil, or_false] at hx
    rcases hx with rfl | rfl | rfl
    · exact ⟨_, List.mem_cons_of_mem _ List.mem_cons_self, ⟨rfl, rfl, rfl, by decide, rfl⟩, rfl⟩
    · exact ⟨_, List.mem_cons_self, ⟨rfl, rfl, rfl, by decide, rfl⟩, rfl⟩
    · exact ⟨_, List.mem_cons_self, ⟨rfl, rfl, rfl, by decide, rfl⟩, rfl⟩

end HandshakeInbox

end Dtls13
