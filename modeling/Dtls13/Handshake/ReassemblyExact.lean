import Dtls13.Handshake.Assembly
import Dtls13.Handshake.Parts
import Dtls13.Lib.RunSystem
import Dtls13.Lib.WeightedMap

/-! # Reassembly is exact

The reassembler refines the account of what has arrived of every message. For the
parts of one message the account is a set of covered positions, so that the message
is handed out when the parts that arrived since it was last absent cover it.
-/

namespace Dtls13

open StateLogic RunSystem Assembly WeightedMap HandshakeMessage List

/-! ## The reassembler and what has arrived -/

/-- What has arrived of the messages that are not complete, by sequence number. -/
abbrev Assemblies := Nat → Option Assembly

namespace Assemblies

variable (s : Assemblies) (f : HandshakeFragment) (epoch : Option Nat)
  (number : Option RecordNumber)

/-- What is known of its message when a fragment arrives. -/
def entry : Assembly := (s f.messageSequence).getD (.fresh f epoch)

/-- A fragment arrives; one that does not belong to its message changes nothing. -/
def feed : Assemblies :=
  if (s.entry f epoch).Conforms f epoch then
    Function.update s f.messageSequence ((s.entry f epoch).settle f epoch number)
  else s

variable {s f epoch}

theorem entry_of_none (hnone : s f.messageSequence = none) : s.entry f epoch = .fresh f epoch := by
  rw [entry, hnone, Option.getD_none]

theorem entry_of_some {a : Assembly} (hsome : s f.messageSequence = some a) :
    s.entry f epoch = a := by
  rw [entry, hsome, Option.getD_some]

theorem feed_of_some {a : Assembly} (hsome : s f.messageSequence = some a)
    (hconforms : a.Conforms f epoch) :
    s.feed f epoch number = Function.update s f.messageSequence (a.settle f epoch number) := by
  rw [feed, entry_of_some hsome, if_pos hconforms]

theorem feed_of_none (hnone : s f.messageSequence = none) : s.feed f epoch number =
      Function.update s f.messageSequence ((fresh f epoch).settle f epoch number) := by
  rw [feed, entry_of_none hnone, if_pos ⟨rfl, rfl, rfl⟩]

end Assemblies

namespace Reassembler

/-- The entries are those of the messages of which something has arrived. -/
structure Matches (messages : AList fun _ : Nat => PartialMessage) (s : Assemblies) : Prop where
  absent : ∀ q, messages.lookup q = none ↔ s q = none
  present : ∀ q p a, messages.lookup q = some p → s q = some a → p.Represents a

section Matches

variable {messages : AList fun _ : Nat => PartialMessage} {s : Assemblies} {q : Nat}
  {p : PartialMessage} {a : Assembly}

/-- Only the entry of one message changes. -/
theorem Matches.update {changed : AList fun _ : Nat => PartialMessage} {entry : Option Assembly}
    (hmatches : Matches messages s) (hothers : ∀ k ≠ q, changed.lookup k = messages.lookup k)
    (habsent : changed.lookup q = none ↔ entry = none)
    (hpresent : ∀ p a, changed.lookup q = some p → entry = some a → p.Represents a) :
    Matches changed (Function.update s q entry) where
  absent k := by
    by_cases hk : k = q
    · subst hk
      rwa [Function.update_self]
    · rw [hothers k hk, Function.update_of_ne hk]
      exact hmatches.absent k
  present k := by
    by_cases hk : k = q
    · subst hk
      rwa [Function.update_self]
    · rw [hothers k hk, Function.update_of_ne hk]
      exact hmatches.present k

theorem Matches.insert (hmatches : Matches messages s) (hp : p.Represents a) (q : Nat) :
    Matches (messages.insert q p) (Function.update s q (some a)) := by
  refine hmatches.update (fun _ hk => AList.lookup_insert_ne hk) (by simp)
    fun found b hfound hb => ?_
  rw [AList.lookup_insert] at hfound
  cases hfound
  cases hb
  exact hp

theorem Matches.erase (hmatches : Matches messages s) (q : Nat) :
    Matches (messages.erase q) (Function.update s q none) :=
  hmatches.update (fun _ hk => AList.lookup_erase_ne hk) (by simp) (by simp)

end Matches

/-- The reassembler holds what has arrived, and no more than its limits allow. -/
structure Represents (r : Reassembler) (s : Assemblies) : Prop where
  entries : Matches r.messages s
  allocated : r.allocated = WeightedMap.total (fun p => p.data.length) r.messages
  few : r.messages.keys.length ≤ r.maxMessages
  room : r.allocated ≤ r.maxBytes

theorem represents_newReassembler (maxSize maxMessages maxBytes : Nat) :
    (newReassemblerWithLimits maxSize maxMessages maxBytes).Represents fun _ => none where
  entries := ⟨fun q => by simp [newReassemblerWithLimits],
    fun q p a hp => by simp [newReassemblerWithLimits] at hp⟩
  allocated := rfl
  few := Nat.zero_le _
  room := Nat.zero_le _

variable {r : Reassembler} {s : Assemblies} {q : Nat} {p old : PartialMessage} {a : Assembly}

theorem Represents.store (hrep : r.Represents s) (hold : r.messages.lookup q = some old)
    (hp : p.Represents a) (hlength : p.data.length = old.data.length) :
    (r.store q p).Represents (Function.update s q (some a)) where
  entries := hrep.entries.insert hp q
  allocated := by
    have htotal := total_insert_old (fun p : PartialMessage => p.data.length) p hold
    have hallocated := hrep.allocated
    change r.allocated = total _ (r.messages.insert q p)
    omega
  few := (keys_insert_old hold).trans_le hrep.few
  room := hrep.room

/-- The first fragment of a message that does not arrive whole gets an entry. -/
theorem Represents.storeNew (hrep : r.Represents s) (hnew : r.messages.lookup q = none)
    (hp : p.Represents a) (hfew : r.messages.keys.length < r.maxMessages)
    (hroom : r.allocated + p.data.length ≤ r.maxBytes) :
    { r.store q p with allocated := r.allocated + p.data.length }.Represents
      (Function.update s q (some a)) where
  entries := hrep.entries.insert hp q
  allocated := by
    change r.allocated + p.data.length = total _ (r.messages.insert q p)
    rw [total_insert_new _ hnew, hrep.allocated, Nat.add_comm]
  few := (keys_insert_new hnew).trans_le hfew
  room := hroom

theorem Represents.forget (hrep : r.Represents s) (hold : r.messages.lookup q = some p) :
    (r.forget q p.data.length).Represents (Function.update s q none) where
  entries := hrep.entries.erase q
  allocated := by
    have htotal := total_erase (fun p : PartialMessage => p.data.length) hold
    have hallocated := hrep.allocated
    change r.allocated - p.data.length = total _ (r.messages.erase q)
    omega
  few := by
    have hkeys := keys_erase_old hold
    have hfew := hrep.few
    change (r.messages.erase q).keys.length ≤ r.maxMessages
    omega
  room := (Nat.sub_le _ _).trans hrep.room

/-- What is handed out when a fragment is filed: nothing before every byte has
arrived, then the bytes and the range of the record numbers. -/
structure HandsOut (a : Assembly) (result : Option CompletedMessage) : Prop where
  whole : result.isSome = true ↔ a.Whole
  length : ∀ c, result = some c → c.body.length = a.length
  body : ∀ c, result = some c → ∀ i < a.length, c.body[i]? = a.bytes i
  first : ∀ c, result = some c → a.numbers ≠ [] → Smallest a.numbers c.firstRecord
  last : ∀ c, result = some c → a.numbers ≠ [] → Largest a.numbers c.lastRecord

theorem handsOut_none (hmore : ¬a.Whole) : HandsOut a none where
  whole := by simp [hmore]
  length := nofun
  body := nofun
  first := nofun
  last := nofun

theorem handsOut_some (hp : p.Represents a) (hwhole : a.Whole) :
    HandsOut a (some ⟨p.data, p.firstRecord, p.lastRecord⟩) where
  whole := by simp [hwhole]
  length c hc := by
    cases hc
    exact hp.length
  body c hc i hi := by
    cases hc
    obtain ⟨v, hv⟩ := Option.isSome_iff_exists.mp (hwhole i hi)
    rw [hv]
    exact hp.filled i v hv
  first c hc hne := by
    cases hc
    exact hp.first hne
  last c hc hne := by
    cases hc
    exact hp.last hne

variable {f : HandshakeFragment} {epoch : Nat} {isProtected : Bool}
  {number : Option RecordNumber}

/-- Filing a fragment of a message that has an entry follows the abstract account. -/
theorem wp_addToEntry_represents (hrep : r.Represents s)
    (hp : r.messages.lookup f.messageSequence = some p) (ha : s f.messageSequence = some a)
    (hwithin : f.offset + f.body.length ≤ f.length) : wp (addToEntry f epoch isProtected number p)
      (fun result next =>
        next.Represents (s.feed f (originEpoch epoch isProtected) number) ∧
        a.Accepts f (originEpoch epoch isProtected) ∧ HandsOut (a.filed f number) result)
      (fun _ next => next.Represents (s.feed f (originEpoch epoch isProtected) number) ∧
        ¬a.Accepts f (originEpoch epoch isProtected)) r := by
  have hrepresents := hrep.entries.present _ _ _ hp ha
  by_cases hconforms : a.Conforms f (originEpoch epoch isProtected)
  · have hagreed : (a.note number).agreed f.offset f.body = a.agreed f.offset f.body :=
      agreed_congr (a := a.note number) (b := a) (fun _ _ => rfl) _
    obtain ⟨hfill, hresult⟩ :=
      (hrepresents.note number).fill (hwithin.trans_eq hconforms.2.1.symm)
    have haccepts : a.Accepts f (originEpoch epoch isProtected) ↔
        a.agreed f.offset f.body = f.body.length := and_iff_right hconforms
    rw [hagreed] at hfill hresult
    rw [← haccepts] at hresult
    change PartialMessage.Represents _ (a.filed f number) at hfill
    have hlength : (a.filed f number).length = p.data.length := hrepresents.length.symm
    rw [Assemblies.feed_of_some number ha hconforms]
    unfold settle
    refine wp_addToEntry (fun err herror => ?_) (fun err filled _ hrun => ?_)
      (fun filled _ hrun hcount => ?_) fun filled _ hrun hcount => ?_
    · rw [hrepresents.checkFragment_eq_ok_iff.mpr hconforms] at herror
      cases herror
    all_goals
      rw [hrun] at hfill hresult
      have hstored := hrep.store hp hfill (hfill.length.trans hlength)
    · have hrefused : ¬a.Accepts f (originEpoch epoch isProtected) := by simpa using hresult
      rw [if_neg fun h => hrefused h.1]
      exact ⟨hstored, hrefused⟩
    · have hwhole := hfill.count_eq_length_iff.mp hcount
      rw [if_pos ⟨hresult.mp rfl, hwhole⟩]
      refine ⟨?_, hresult.mp rfl, handsOut_some hfill hwhole⟩
      have hforgotten := hstored.forget (lookup_store _ _)
      rwa [Function.update_idem] at hforgotten
    · have hmore := hfill.count_eq_length_iff.not.mp hcount
      rw [if_neg fun h => hmore h.2]
      exact ⟨hstored, hresult.mp rfl, handsOut_none hmore⟩
  · have hfeed : s.feed f (originEpoch epoch isProtected) number = s := by
      rw [Assemblies.feed, Assemblies.entry_of_some ha, if_neg hconforms]
    have hcheck : p.checkFragment f epoch isProtected ≠ .ok () :=
      hrepresents.checkFragment_eq_ok_iff.not.mpr hconforms
    rw [hfeed]
    exact wp_addToEntry (fun err _ => ⟨hrep, fun haccepts => hconforms haccepts.1⟩)
      (fun err filled hok _ => absurd hok hcheck) (fun filled hok _ _ => absurd hok hcheck)
      fun filled hok _ _ => absurd hok hcheck

/-- A message that arrives whole is handed out as it came. -/
theorem handsOut_whole (hwhole : f.isWhole = true) (epoch : Option Nat)
    (number : Option RecordNumber) : ((fresh f epoch).filed f number).Whole ∧
      HandsOut ((fresh f epoch).filed f number)
        (some ⟨f.body, number.getD ⟨0, 0⟩, number.getD ⟨0, 0⟩⟩) := by
  have hbounds : f.offset = 0 ∧ f.length = f.body.length := by
    simpa [HandshakeFragment.isWhole] using hwhole
  rw [filed_fresh]
  have hbytes : ∀ i < f.length,
      (((fresh f epoch).note number).file f.offset f.body).bytes i = f.body[i]? := by
    intro i hi
    change (if _ then _ else _) = _
    rw [if_pos (by omega), hbounds.1, Nat.sub_zero]
  have hall : (((fresh f epoch).note number).file f.offset f.body).Whole := by
    intro i hi
    rw [hbytes i hi, List.getElem?_eq_getElem (hbounds.2 ▸ hi)]
    rfl
  have hirrefl : ∀ n : RecordNumber, recordNumberLess n n = false := fun n => by
    rw [recordNumberLess_eq_false_iff]
    omega
  refine ⟨hall, by simp [hall], ?_, ?_, ?_, ?_⟩
  · rintro c ⟨⟩
    exact hbounds.2.symm
  · rintro c ⟨⟩ i hi
    exact (hbytes i hi).symm
  all_goals
    rintro c ⟨⟩ hne
    change number.toList ≠ [] at hne
    cases number with
    | none => exact absurd rfl hne
    | some n =>
      change _ ∈ [n] ∧ ∀ other ∈ [n], _
      simp [hirrefl]

/-- Every fragment follows the abstract account, unless a limit rejects it. -/
theorem wp_addAtEpochAndRecord_represents (hrep : r.Represents s)
    (hwithin : f.offset + f.body.length ≤ f.length) :
    wp (addAtEpochAndRecord f epoch isProtected number)
      (fun result next => r.rejects f = false ∧
        next.Represents (s.feed f (originEpoch epoch isProtected) number) ∧
        (s.entry f (originEpoch epoch isProtected)).Accepts f (originEpoch epoch isProtected) ∧
        HandsOut ((s.entry f (originEpoch epoch isProtected)).filed f number) result)
      (fun err next => (r.rejects f = true ∧ next = r ∧ err ∈ limitErrors) ∨
        r.rejects f = false ∧ next.Represents (s.feed f (originEpoch epoch isProtected) number) ∧
        ¬(s.entry f (originEpoch epoch isProtected)).Accepts f (originEpoch epoch isProtected))
      r := by
  refine wp_addAtEpochAndRecord (fun err herr hrejects => .inl ⟨hrejects, rfl, herr⟩)
    (fun hnone haccepted hwhole => ?_) (fun hnone haccepted _ => ?_) fun p hp haccepted => ?_
  · -- The whole message in one fragment: it is handed out without an entry.
    have hs := (hrep.entries.absent _).mp hnone
    obtain ⟨hall, hout⟩ := handsOut_whole hwhole (originEpoch epoch isProtected) number
    rw [Assemblies.entry_of_none hs, Assemblies.feed_of_none number hs]
    refine ⟨haccepted, ?_, accepts_fresh f _, hout⟩
    rw [settle, if_pos ⟨accepts_fresh f _, hall⟩, Function.update_eq_self_iff.mpr hs.symm]
    exact hrep
  · have hs := (hrep.entries.absent _).mp hnone
    have hlimits : r.messages.keys.length < r.maxMessages ∧
        r.allocated + f.length ≤ r.maxBytes := by
      simp only [rejects, hnone, Option.isNone_none, Bool.true_and, Bool.or_eq_false_iff,
        decide_eq_false_iff_not, not_le, not_lt] at haccepted
      exact haccepted.2
    have hlength : (PartialMessage.newPartialMessage f epoch isProtected).data.length =
        f.length := length_replicate
    have hstored := hrep.storeNew hnone
      (PartialMessage.represents_newPartialMessage f epoch isProtected) hlimits.1
      (hlength.symm ▸ hlimits.2)
    rw [hlength] at hstored
    rw [Assemblies.entry_of_none hs, Assemblies.feed_of_none number hs]
    have hentry : Function.update s f.messageSequence
        (some (fresh f (originEpoch epoch isProtected))) f.messageSequence = some _ :=
      Function.update_self _ _ _
    refine wp_mono (wp_addToEntry_represents hstored (lookup_store _ _) hentry hwithin)
      (fun _ _ hpost => ?_) fun _ _ hfail => absurd (accepts_fresh f _) hfail.2
    rw [Assemblies.feed_of_some number hentry (accepts_fresh f _).1, Function.update_idem] at hpost
    exact ⟨haccepted, hpost⟩
  · cases ha : s f.messageSequence with
    | none =>
      rw [(hrep.entries.absent _).mpr ha] at hp
      cases hp
    | some a =>
      rw [Assemblies.entry_of_some ha]
      exact wp_mono (wp_addToEntry_represents hrep hp ha hwithin)
        (fun _ _ hpost => ⟨haccepted, hpost⟩) fun _ _ hfail => .inr ⟨haccepted, hfail⟩

/-! ## Room for a message -/

/-- The limits and the entries of the other messages are the same. -/
structure SameOthers (q : Nat) (r next : Reassembler) : Prop where
  others : next.messages.erase q = r.messages.erase q
  maxSize : next.maxSize = r.maxSize
  maxMessages : next.maxMessages = r.maxMessages
  maxBytes : next.maxBytes = r.maxBytes

theorem SameOthers.refl (q : Nat) (r : Reassembler) : SameOthers q r r := ⟨rfl, rfl, rfl, rfl⟩

theorem SameOthers.store {next : Reassembler} (hsame : SameOthers q r next)
    (p : PartialMessage) : SameOthers q r (next.store q p) :=
  ⟨(erase_insert_self _ _ _).trans hsame.others, hsame.maxSize, hsame.maxMessages, hsame.maxBytes⟩

theorem SameOthers.forget {next : Reassembler} (hsame : SameOthers q r next) (length : Nat) :
    SameOthers q r (next.forget q length) :=
  ⟨(erase_eq_self (AList.lookup_erase _ _)).trans hsame.others, hsame.maxSize,
    hsame.maxMessages, hsame.maxBytes⟩

theorem wp_addAtEpochAndRecord_sameOthers (f : HandshakeFragment) (epoch : Nat)
    (isProtected : Bool) (number : Option RecordNumber) (r : Reassembler) :
    wp (addAtEpochAndRecord f epoch isProtected number)
      (fun _ => SameOthers f.messageSequence r) (fun _ => SameOthers f.messageSequence r) r := by
  have hentry : ∀ {start p}, SameOthers f.messageSequence r start →
      wp (addToEntry f epoch isProtected number p) (fun _ => SameOthers f.messageSequence r)
        (fun _ => SameOthers f.messageSequence r) start := fun hstart =>
    wp_addToEntry (fun _ _ => hstart) (fun _ filled _ _ => hstart.store filled)
      (fun filled _ _ _ => (hstart.store filled).forget _) fun filled _ _ _ => hstart.store filled
  refine wp_addAtEpochAndRecord (fun _ _ _ => .refl _ r) (fun _ _ _ => .refl _ r)
    (fun _ _ _ => hentry ?_) fun p _ _ => hentry (.refl _ r)
  have hstored := (SameOthers.refl f.messageSequence r).store
    (PartialMessage.newPartialMessage f epoch isProtected)
  exact ⟨hstored.others, hstored.maxSize, hstored.maxMessages, hstored.maxBytes⟩

/-- The limits leave room for a message beside the entries of the others. -/
structure HasRoom (r : Reassembler) (m : HandshakeMessage) : Prop where
  size : m.body.length ≤ r.maxSize
  few : (r.messages.erase m.sequence).keys.length < r.maxMessages
  bytes : WeightedMap.total (fun p => p.data.length) (r.messages.erase m.sequence) +
    m.body.length ≤ r.maxBytes

theorem HasRoom.congr {m : HandshakeMessage} {next : Reassembler} (hroom : r.HasRoom m)
    (hsame : SameOthers m.sequence r next) : next.HasRoom m := by
  constructor
  · rw [hsame.maxSize]
    exact hroom.size
  · rw [hsame.others, hsame.maxMessages]
    exact hroom.few
  · rw [hsame.others, hsame.maxBytes]
    exact hroom.bytes

/-- No limit rejects a part of a message there is room for. -/
theorem HasRoom.accepts {m : HandshakeMessage} (hroom : r.HasRoom m) (hrep : r.Represents s)
    (hpart : m.IsPart f) : r.rejects f = false := by
  have hsize := hroom.size
  unfold rejects
  rw [hpart.sequence, hpart.length]
  cases hlookup : r.messages.lookup m.sequence with
  | some p => simpa using hsize
  | none =>
    have hfew := hroom.few
    have hbytes := hroom.bytes
    rw [erase_eq_self hlookup] at hfew hbytes
    rw [← hrep.allocated] at hbytes
    simp only [Option.isNone_none, Bool.true_and, Bool.or_eq_false_iff, decide_eq_false_iff_not,
      not_le, not_lt]
    exact ⟨hsize, hfew, hbytes⟩

end Reassembler

/-! ## The parts of one message -/

/-- A fragment that arrives, the epoch of its record and the record number, if it
is noted. -/
structure FragmentArrival where
  fragment : HandshakeFragment
  epoch : Nat
  isProtected : Bool
  number : Option RecordNumber
  within : fragment.offset + fragment.body.length ≤ fragment.length

namespace FragmentArrival

def origin (x : FragmentArrival) : Option Nat := originEpoch x.epoch x.isProtected

/-- A position in one of the fragments. -/
def Cover (xs : List FragmentArrival) (i : Nat) : Prop :=
  ∃ x ∈ xs, x.fragment.offset ≤ i ∧ i < x.fragment.offset + x.fragment.body.length

instance (xs : List FragmentArrival) (i : Nat) : Decidable (Cover xs i) :=
  inferInstanceAs (Decidable (∃ x ∈ xs, _))

def numbers (xs : List FragmentArrival) : List RecordNumber := xs.filterMap (·.number)

/-- The fragments cover the message. -/
def Complete (m : HandshakeMessage) (xs : List FragmentArrival) : Prop :=
  ∀ i < m.body.length, Cover xs i

instance (m : HandshakeMessage) (xs : List FragmentArrival) : Decidable (Complete m xs) :=
  inferInstanceAs (Decidable (∀ i < m.body.length, _))

/-- The fragments since the message was last absent: it is when it is complete. -/
def sinceAbsent (m : HandshakeMessage) (xs : List FragmentArrival) : List FragmentArrival :=
  xs.foldl (fun since x => if Complete m (since ++ [x]) then [] else since ++ [x]) []

end FragmentArrival

namespace HandshakeMessage

variable {m : HandshakeMessage} {xs : List FragmentArrival} {x : FragmentArrival}
  {epoch : Option Nat}

/-- What is known of a message when some of its parts have arrived. -/
def gathered (m : HandshakeMessage) (epoch : Option Nat) (xs : List FragmentArrival) : Assembly :=
  ⟨m.typ, m.body.length, epoch, FragmentArrival.numbers xs,
    fun i => if FragmentArrival.Cover xs i then m.body[i]? else none⟩

theorem IsPart.getElem {f : HandshakeFragment} (hpart : m.IsPart f) {j : Nat}
    (hj : j < f.body.length) : f.body[j]? = m.body[f.offset + j]? := by
  rw [hpart.body, List.getElem?_take_of_lt hj, List.getElem?_drop]

theorem gathered_nil {f : HandshakeFragment} (hpart : m.IsPart f) :
    m.gathered epoch [] = .fresh f epoch := by
  unfold gathered fresh
  rw [hpart.typ, hpart.length]
  simp [FragmentArrival.Cover, FragmentArrival.numbers]

theorem gathered_whole_iff (epoch : Option Nat) :
    (m.gathered epoch xs).Whole ↔ FragmentArrival.Complete m xs := by
  apply forall_congr'
  intro i
  apply imp_congr_right
  intro hi
  change i < m.body.length at hi
  by_cases hcover : FragmentArrival.Cover xs i
  · simp [gathered, hcover, hi]
  · simp [gathered, hcover]

/-- A part of a message agrees with every other part. -/
theorem gathered_accepts (epoch : Option Nat) (xs : List FragmentArrival)
    (hpart : m.IsPart x.fragment) : (m.gathered epoch xs).Accepts x.fragment epoch := by
  refine ⟨⟨hpart.typ.symm, hpart.length.symm, rfl⟩, ?_⟩
  rw [agreed_eq_length_iff]
  intro j v hv w hw
  obtain ⟨hj, -⟩ := List.getElem?_eq_some_iff.mp hv
  have hbyte : m.body[x.fragment.offset + j]? = some w := by
    by_cases hcover : FragmentArrival.Cover xs (x.fragment.offset + j)
    · simpa [gathered, hcover] using hw
    · simp [gathered, hcover] at hw
  rw [hpart.getElem hj, hbyte] at hv
  exact Option.some.inj hv

theorem gathered_filed (hpart : m.IsPart x.fragment) :
    (m.gathered epoch xs).filed x.fragment x.number = m.gathered epoch (xs ++ [x]) := by
  rw [filed, (gathered_accepts epoch xs hpart).2, take_length]
  unfold file note gathered
  congr 1
  · cases hnumber : x.number <;> simp [FragmentArrival.numbers, hnumber]
  · ext1 i
    have hcover : FragmentArrival.Cover (xs ++ [x]) i ↔ FragmentArrival.Cover xs i ∨
        x.fragment.offset ≤ i ∧ i < x.fragment.offset + x.fragment.body.length := by
      simp [FragmentArrival.Cover, or_and_right, exists_or]
    simp only [hcover]
    by_cases hin : x.fragment.offset ≤ i ∧ i < x.fragment.offset + x.fragment.body.length
    · rw [if_pos hin, if_pos (.inr hin), hpart.getElem (by omega),
        show x.fragment.offset + (i - x.fragment.offset) = i by omega]
    · simp [hin]

end HandshakeMessage

/-- The parts `since` are what is known of a message. -/
def Assemblies.Gathering (s : Assemblies) (m : HandshakeMessage) (epoch : Option Nat)
    (since : List FragmentArrival) : Prop :=
  s m.sequence = none ∧ since = [] ∨ s m.sequence = some (m.gathered epoch since)

namespace Assemblies.Gathering

variable {s : Assemblies} {m : HandshakeMessage} {epoch : Option Nat} {since : List FragmentArrival}
  {x : FragmentArrival}

theorem entry (hgathering : s.Gathering m epoch since) (hpart : m.IsPart x.fragment) :
    s.entry x.fragment epoch = m.gathered epoch since := by
  rcases hgathering with ⟨hnone, rfl⟩ | hsome
  · rw [Assemblies.entry_of_none (by rwa [hpart.sequence]), gathered_nil hpart]
  · exact Assemblies.entry_of_some (by rwa [hpart.sequence])

theorem feed (hgathering : s.Gathering m epoch since) (hpart : m.IsPart x.fragment) :
    (s.feed x.fragment epoch x.number).Gathering m epoch
      (if FragmentArrival.Complete m (since ++ [x]) then [] else since ++ [x]) := by
  have haccepts := gathered_accepts epoch since hpart
  have hfeed : s.feed x.fragment epoch x.number = Function.update s m.sequence
      (if FragmentArrival.Complete m (since ++ [x]) then none
        else some (m.gathered epoch (since ++ [x]))) := by
    rw [Assemblies.feed, hgathering.entry hpart, if_pos haccepts.1, hpart.sequence,
      settle, gathered_filed hpart]
    simp only [haccepts, true_and, gathered_whole_iff]
  unfold Gathering
  rw [hfeed, Function.update_self]
  split_ifs
  · exact .inl ⟨rfl, rfl⟩
  · exact .inr rfl

end Assemblies.Gathering

namespace Reassembler

/-- A fragment arrives. -/
def add (x : FragmentArrival) : EStateM Err Reassembler (Option CompletedMessage) :=
  addAtEpochAndRecord x.fragment x.epoch x.isProtected x.number

/-- The reassembler and the abstract account of it, side by side. -/
def track (t : Reassembler × Assemblies) (x : FragmentArrival) : Reassembler × Assemblies :=
  (exec (add x) t.1, if t.1.rejects x.fragment then t.2 else t.2.feed x.fragment x.origin x.number)

/-- Nothing has arrived. -/
def untouched (maxSize maxMessages maxBytes : Nat) : Reassembler × Assemblies :=
  (newReassemblerWithLimits maxSize maxMessages maxBytes, fun _ => none)

variable {t : Reassembler × Assemblies} {m : HandshakeMessage} {epoch : Option Nat}
  {since : List FragmentArrival} {x : FragmentArrival}

/-- The reassembler refines the account, within its limits. -/
structure Tracked (maxSize maxMessages maxBytes : Nat) (t : Reassembler × Assemblies) : Prop where
  rep : t.1.Represents t.2
  maxSize_eq : t.1.maxSize = maxSize
  maxMessages_eq : t.1.maxMessages = maxMessages
  maxBytes_eq : t.1.maxBytes = maxBytes

theorem represents_track (hrep : t.1.Represents t.2) (x : FragmentArrival) :
    (track t x).1.Represents (track t x).2 := by
  have hnext : wp (add x)
      (fun _ next => next.Represents (Reassembler.track t x).2)
      (fun _ next => next.Represents (Reassembler.track t x).2) t.1 := by
    refine wp_mono (wp_addAtEpochAndRecord_represents hrep x.within) (fun _ next hpost => ?_)
      fun _ next hfail => ?_
    · rw [Reassembler.track, hpost.1]
      exact hpost.2.1
    · rcases hfail with ⟨hrejects, rfl, -⟩ | ⟨haccepted, hfed, -⟩
      · rw [Reassembler.track, hrejects]
        exact hrep
      · rw [Reassembler.track, haccepted]
        exact hfed
  exact exec_of_wp hnext

theorem tracked_run (maxSize maxMessages maxBytes : Nat) (arrivals : List FragmentArrival) :
    Tracked maxSize maxMessages maxBytes
      (run track (untouched maxSize maxMessages maxBytes) arrivals) := by
  have hstart : Tracked maxSize maxMessages maxBytes (untouched maxSize maxMessages maxBytes) :=
    ⟨represents_newReassembler maxSize maxMessages maxBytes, rfl, rfl, rfl⟩
  refine run_invariant_all ?_ hstart arrivals
  intro t x htracked
  have hsame := exec_of_wp
    (wp_addAtEpochAndRecord_sameOthers x.fragment x.epoch x.isProtected x.number t.1)
  exact ⟨represents_track htracked.rep x, hsame.maxSize.trans htracked.maxSize_eq,
    hsame.maxMessages.trans htracked.maxMessages_eq, hsame.maxBytes.trans htracked.maxBytes_eq⟩

/-- The parts of a message since it was last absent, and room for the message. -/
structure Gathers (t : Reassembler × Assemblies) (m : HandshakeMessage) (epoch : Option Nat)
    (since : List FragmentArrival) : Prop where
  rep : t.1.Represents t.2
  gathering : t.2.Gathering m epoch since
  room : t.1.HasRoom m

theorem Gathers.track (hgathers : Gathers t m epoch since) (hpart : m.IsPart x.fragment)
    (horigin : x.origin = epoch) : Gathers (track t x) m epoch
      (if FragmentArrival.Complete m (since ++ [x]) then [] else since ++ [x]) where
  rep := represents_track hgathers.rep x
  gathering := by
    unfold Reassembler.track
    dsimp only
    rw [hgathers.room.accepts hgathers.rep hpart, horigin]
    exact hgathers.gathering.feed hpart
  room := by
    have hothers := wp_addAtEpochAndRecord_sameOthers x.fragment x.epoch x.isProtected x.number t.1
    rw [hpart.sequence] at hothers
    exact hgathers.room.congr (exec_of_wp hothers)

theorem run_gathers {xs : List FragmentArrival} (hgathers : Gathers t m epoch since)
    (hparts : ∀ x ∈ xs, m.IsPart x.fragment ∧ x.origin = epoch) : Gathers (run track t xs) m epoch
      (xs.foldl (fun since x =>
        if FragmentArrival.Complete m (since ++ [x]) then [] else since ++ [x]) since) := by
  induction xs generalizing t since with
  | nil => exact hgathers
  | cons x rest ih =>
    obtain ⟨hpart, horigin⟩ := hparts x mem_cons_self
    exact ih (hgathers.track hpart horigin) fun y hy => hparts y (mem_cons_of_mem _ hy)

/-- What is reported of a message when the parts `xs` have arrived since it was
last absent. -/
structure Reports (m : HandshakeMessage) (xs : List FragmentArrival)
    (result : Option CompletedMessage) : Prop where
  complete : result.isSome = true ↔ FragmentArrival.Complete m xs
  body : ∀ c, result = some c → c.body = m.body
  first : ∀ c, result = some c → FragmentArrival.numbers xs ≠ [] →
    Smallest (FragmentArrival.numbers xs) c.firstRecord
  last : ∀ c, result = some c → FragmentArrival.numbers xs ≠ [] →
    Largest (FragmentArrival.numbers xs) c.lastRecord

theorem HandsOut.reports {result : Option CompletedMessage}
    (hout : HandsOut (m.gathered epoch since) result) : Reports m since result where
  complete := hout.whole.trans (gathered_whole_iff epoch)
  body c hc := by
    have hcomplete : FragmentArrival.Complete m since := by
      rw [← gathered_whole_iff epoch, ← hout.whole, hc]
      rfl
    have hlength : c.body.length = m.body.length := hout.length c hc
    apply ext_getElem?
    intro i
    by_cases hi : i < m.body.length
    · rw [hout.body c hc i hi]
      exact if_pos (hcomplete i hi)
    · rw [List.getElem?_eq_none (by omega), List.getElem?_eq_none (by omega)]
  first := hout.first
  last := hout.last

/-- Whatever has arrived before, a message there is room for is reported exactly
when its parts cover it, with its body and the range of their record numbers; a
fragment that disagrees with what has arrived is an error; and the bitmap, the byte
count and the allocation are those of the positions that have arrived. -/
theorem reassembly_exact (maxSize maxMessages maxBytes : Nat) (arrivals : List FragmentArrival) :
    let t := run track (untouched maxSize maxMessages maxBytes) arrivals
    (∀ (m : HandshakeMessage) (epoch : Option Nat) (xs : List FragmentArrival)
        (x : FragmentArrival),
      t.1.messages.lookup m.sequence = none → m.body.length ≤ maxSize →
      t.1.messages.keys.length < maxMessages → t.1.allocated + m.body.length ≤ maxBytes →
      (∀ y ∈ xs ++ [x], m.IsPart y.fragment ∧ y.origin = epoch) →
      ∃ result next, add x (run track t xs).1 = .ok result next ∧
        Reports m (FragmentArrival.sinceAbsent m xs ++ [x]) result) ∧
    (∀ (x : FragmentArrival) (a : Assembly), t.2 x.fragment.messageSequence = some a →
      (a.typ ≠ x.fragment.typ ∨ a.length ≠ x.fragment.length ∨ a.epoch ≠ x.origin ∨
        ∃ j v w, x.fragment.body[j]? = some v ∧ a.bytes (x.fragment.offset + j) = some w ∧ w ≠ v) →
      ∃ err next, add x t.1 = .error err next) ∧
    (∀ q, (t.1.messages.lookup q = none ↔ t.2 q = none) ∧
      ∀ p a, t.1.messages.lookup q = some p → t.2 q = some a →
        (∀ i, WordBitmap.bit p.received i = decide (i ∈ a.covered)) ∧ p.count = a.covered.card) ∧
    t.1.allocated = WeightedMap.total (fun p => p.data.length) t.1.messages := by
  intro t
  obtain ⟨hrep, hmaxSize, hmaxMessages, hmaxBytes⟩ : Tracked maxSize maxMessages maxBytes t :=
    tracked_run maxSize maxMessages maxBytes arrivals
  refine ⟨fun m epoch xs x hnone hsize hfew hbytes hparts => ?_, fun x a ha hdisagrees => ?_,
    fun q => ⟨hrep.entries.absent q, fun p a hp ha => ?_⟩, hrep.allocated⟩
  · have hroom : t.1.HasRoom m := by
      constructor
      · rwa [hmaxSize]
      · rwa [WeightedMap.erase_eq_self hnone, hmaxMessages]
      · rwa [WeightedMap.erase_eq_self hnone, ← hrep.allocated, hmaxBytes]
    have hstart : Gathers t m epoch [] :=
      ⟨hrep, .inl ⟨(hrep.entries.absent _).mp hnone, rfl⟩, hroom⟩
    have hgathers := run_gathers hstart fun y hy => hparts y (List.mem_append_left _ hy)
    obtain ⟨hpart, horigin⟩ := hparts x (List.mem_append_right _ (List.mem_singleton_self x))
    have hentry := hgathers.gathering.entry hpart
    have haccepts := HandshakeMessage.gathered_accepts epoch
      (FragmentArrival.sinceAbsent m xs) hpart
    rcases wp_cases (wp_addAtEpochAndRecord_represents hgathers.rep x.within) with
      ⟨result, next, hrun, -, -, -, hout⟩ | ⟨err, next, -, hfail⟩
    · refine ⟨result, next, hrun, ?_⟩
      change HandsOut ((Assemblies.entry _ x.fragment x.origin).filed x.fragment x.number) _ at hout
      rw [horigin, hentry, HandshakeMessage.gathered_filed hpart] at hout
      exact hout.reports
    · -- A part of a message there is room for is neither rejected nor refused.
      rw [hgathers.room.accepts hgathers.rep hpart] at hfail
      rcases hfail with ⟨hrejects, -⟩ | ⟨-, -, hrefused⟩
      · cases hrejects
      · change ¬(Assemblies.entry _ x.fragment x.origin).Accepts x.fragment x.origin at hrefused
        rw [horigin, hentry] at hrefused
        exact absurd haccepts hrefused
  · rcases wp_cases (wp_addAtEpochAndRecord_represents hrep x.within) with
      ⟨result, next, -, -, -, haccepts, -⟩ | ⟨err, next, hrun, -⟩
    · rw [Assemblies.entry_of_some ha] at haccepts
      obtain ⟨⟨htyp, hlength, hepoch⟩, hagreed⟩ := haccepts
      rcases hdisagrees with hne | hne | hne | ⟨j, v, w, hv, hw, hne⟩
      · exact absurd htyp hne
      · exact absurd hlength hne
      · exact absurd hepoch hne
      · exact absurd (Assembly.agreed_eq_length_iff.mp hagreed j v hv w hw) hne
    · exact ⟨err, next, hrun⟩
  · have hentry := hrep.entries.present q p a hp ha
    refine ⟨fun i => ?_, hentry.count⟩
    rw [hentry.marked, Bool.eq_iff_iff, decide_eq_true_eq, Assembly.covered, Finset.mem_filter,
      Finset.mem_range]
    refine ⟨fun hsome => ⟨?_, hsome⟩, fun hmem => hmem.2⟩
    obtain ⟨v, hv⟩ := Option.isSome_iff_exists.mp hsome
    obtain ⟨hlt, -⟩ := List.getElem?_eq_some_iff.mp (hentry.filled i v hv)
    rwa [hentry.length] at hlt

/-- Two parts of a message that overlap in one byte. -/
def twoParts : HandshakeMessage × FragmentArrival × FragmentArrival :=
  (⟨8, 0, [7, 8, 9]⟩, ⟨⟨8, 0, 3, 1, [8, 9]⟩, 2, true, some ⟨2, 5⟩, by decide⟩,
    ⟨⟨8, 0, 3, 0, [7, 8]⟩, 2, true, some ⟨2, 4⟩, by decide⟩)

theorem reassembly_exact_twoParts :
    ∃ result next, add twoParts.2.2 (run track (untouched 16 4 64) [twoParts.2.1]).1 =
        .ok result next ∧
      Reports twoParts.1 (FragmentArrival.sinceAbsent twoParts.1 [twoParts.2.1] ++ [twoParts.2.2])
        result := by
  refine (reassembly_exact 16 4 64 []).1 twoParts.1 (some 2) [twoParts.2.1] twoParts.2.2 rfl
    (by decide) (by decide) (by decide) fun y hy => ?_
  rcases List.mem_append.mp hy with hfirst | hsecond
  · rw [List.mem_singleton.mp hfirst]
    exact ⟨⟨rfl, rfl, rfl, by decide, rfl⟩, rfl⟩
  · rw [List.mem_singleton.mp hsecond]
    exact ⟨⟨rfl, rfl, rfl, by decide, rfl⟩, rfl⟩

end Reassembler

end Dtls13
