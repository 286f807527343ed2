import Dtls13.Handshake.Parts
import Dtls13.Record.RoundTrip

/-! # When a flight can be sealed

Building a flight and rebuilding it seal one record for each fragment. What a fragment
needs is a record number, and a record that is within the MTU under the connection ID of
the cipher. Nothing else can fail for a fragment that was sealed before.
-/

namespace Dtls13

open ByteCodec StateLogic CipherStore HandshakeFragment RecordCipher List

namespace RecordCipher

variable {c : RecordCipher}

/-- The length of the record that carries a fragment. -/
def fragmentRecordLen (c : RecordCipher) (fragment : HandshakeFragment) : Nat :=
  c.headerLen16 + c.suite.overhead + 1 + (handshakeHeaderLen + fragment.body.length)

/-- The cipher can seal `count` more records. -/
def hasNumbers (c : RecordCipher) (count : Nat) : Bool :=
  c.nextSequence + count ≤ 2 ^ 48 && c.nextSequence + count ≤ c.suite.recordLimit

/-- The fragment is one the cipher may carry, whatever its connection ID. -/
structure Admits (c : RecordCipher) (fragment : HandshakeFragment) : Prop where
  valid : fragment.validateHandshakeFragment = .ok ()
  epoch_le : c.epoch ≤ maxSendingEpoch
  content_le : handshakeHeaderLen + fragment.body.length ≤ maxRecordContent
  within_limit : c.plaintextLimit ≠ 0 → handshakeHeaderLen + fragment.body.length < c.plaintextLimit

/-- An admitted fragment can be sealed as long as there are numbers. -/
theorem Admits.sealable_iff {fragment : HandshakeFragment} (hadmits : c.Admits fragment) :
    c.Sealable recordTypeHandshake fragment.putHandshakeFragment.length ↔
      c.hasNumbers 1 = true := by
  rw [putHandshakeFragment_length]
  unfold hasNumbers
  simp only [Bool.and_eq_true, decide_eq_true_eq]
  constructor
  · exact fun hsealable => ⟨hsealable.sequence_lt, hsealable.below_limit⟩
  · rintro ⟨hsequence, hlimit⟩
    refine ⟨hadmits.epoch_le, hsequence, hlimit, by decide, fun hzero => ?_, hadmits.content_le,
      hadmits.within_limit⟩
    simp [handshakeHeaderLen] at hzero

/-- Every fragment has room in a record under the connection ID of the cipher, and
there are numbers for all of them. -/
def canCarry (c : RecordCipher) (mtu : Nat) (fragments : List HandshakeFragment) : Bool :=
  (fragments.isEmpty || c.hasNumbers fragments.length) &&
    fragments.all fun fragment => c.fragmentRecordLen fragment ≤ mtu

/-- The same for one fragment. -/
def canSeal (c : RecordCipher) (mtu : Nat) (fragment : HandshakeFragment) : Bool :=
  c.hasNumbers 1 && c.fragmentRecordLen fragment ≤ mtu

/-- The cipher after `count` more records. -/
def spent (c : RecordCipher) (count : Nat) : RecordCipher :=
  { c with nextSequence := c.nextSequence + count }

/-- The first of the fragments takes a number. -/
theorem canCarry_cons (c : RecordCipher) (mtu : Nat) (fragment : HandshakeFragment)
    (rest : List HandshakeFragment) : c.canCarry mtu (fragment :: rest) =
      (c.canSeal mtu fragment && (c.spent 1).canCarry mtu rest) := by
  have hnumbers : c.hasNumbers (rest.length + 1) = (c.hasNumbers 1 && (rest.isEmpty ||
      (c.spent 1).hasNumbers rest.length)) := by
    unfold hasNumbers spent
    cases rest with
    | nil => simp
    | cons next others =>
      rw [Bool.eq_iff_iff]
      simp only [length_cons, isEmpty_cons, Bool.false_or, Bool.and_eq_true, decide_eq_true_eq]
      omega
  have hlen : ∀ f, (c.spent 1).fragmentRecordLen f = c.fragmentRecordLen f := fun _ => rfl
  unfold canCarry canSeal
  rw [isEmpty_cons, Bool.false_or, length_cons, hnumbers, all_cons]
  simp only [hlen]
  ac_rfl

end RecordCipher

theorem fragment_length_le {message : HandshakeMessage} {maxFragment : Nat}
    {fragment : HandshakeFragment}
    (hmem : fragment ∈ fragmentHandshakeMessage message maxFragment) :
    fragment.body.length ≤ maxFragment := by
  unfold fragmentHandshakeMessage at hmem
  dsimp only at hmem
  split_ifs at hmem
  · rw [mem_singleton.mp hmem]
    exact Nat.zero_le _
  · obtain ⟨index, -, rfl⟩ := mem_map.mp hmem
    exact length_take_le _ _

variable {P : Primitives} {store : CipherStore} {ref : CipherRef} {mtu : Nat}

/-- The ciphers after `count` more records of one of them. -/
def CipherStore.spend (ciphers : CipherRef → RecordCipher) (ref : CipherRef) (count : Nat) :
    CipherRef → RecordCipher :=
  Function.update ciphers ref ((ciphers ref).spent count)

theorem CipherStore.read_logRecord_spent (href : ref < store.ciphers.length)
    (record : SealedRecord) :
    (store.logRecord ref record ((store.read ref).spent 1)).read = spend store.read ref 1 := by
  funext other
  unfold spend
  by_cases hother : other = ref
  · subst hother
    rw [Function.update_self, read_logRecord, read_write href]
  · rw [Function.update_of_ne hother, read_logRecord, read_write_of_ne (Ne.symm hother)]

theorem CipherStore.Seals.read {contentType : UInt8} {next : CipherStore} {contents : List Bytes}
    {records : List SealedRecord} (hseals : Seals P ref contentType store contents records next) :
    next.read = spend store.read ref contents.length := by
  induction hseals with
  | nil => exact (Function.update_eq_self ..).symm
  | @cons store next content contents records href _ _ ih =>
    have hfirst := read_logRecord_spent href
      ((store.read ref).protect P contentType content true true)
    unfold spent at hfirst
    rw [ih, hfirst]
    unfold spend spent
    rw [Function.update_idem, Function.update_self, length_cons]
    simp only [Nat.add_assoc, Nat.add_comm 1]

/-- The fragments of a flight were cut to fit. -/
theorem CipherStore.FlightBuilt.fragmentRecordLen_le {messages : List HandshakeMessage}
    {f : Flight} {next : CipherStore} (hbuilt : FlightBuilt P messages mtu ref store f next) :
    ∀ fragment ∈ f.fragments, (store.read ref).fragmentRecordLen fragment ≤ mtu := by
  intro fragment hfragment
  have hroom := hbuilt.room
  rw [hbuilt.cut] at hfragment
  obtain ⟨m, -, hpart⟩ := mem_flatMap.mp hfragment
  have hle := fragment_length_le hpart
  unfold maxFragmentFor at hle hroom
  unfold fragmentRecordLen
  omega

/-- Sealing an admitted fragment fails only for want of a number. -/
theorem wp_sealHandshakeFragment_exact {fragment : HandshakeFragment}
    (href : ref < store.ciphers.length) (hadmits : (store.read ref).Admits fragment) :
    wp (sealHandshakeFragment P ref fragment)
      (fun record next => (store.read ref).hasNumbers 1 = true ∧
        record.packet.length = (store.read ref).fragmentRecordLen fragment ∧
        next.read ref = (store.read ref).spent 1 ∧ next.ciphers.length = store.ciphers.length)
      (fun _ _ => (store.read ref).hasNumbers 1 = false) store := by
  unfold sealHandshakeFragment marshalHandshakeFragment
  rw [hadmits.valid]
  apply wp_sealRecord P
  · intro _ hsealable
    refine ⟨hadmits.sealable_iff.mp hsealable, ?_, read_write href _, write_length ..⟩
    rw [protect_packet_length, putHandshakeFragment_length]
    rfl
  · intro err hcheck
    rw [Bool.eq_false_iff]
    intro hnumbers
    have hok := sealCheck_eq_ok_iff.mpr (hadmits.sealable_iff.mpr hnumbers)
    rw [hcheck href] at hok
    cases hok

/-- What both loops do with a fragment: seal it, check the length, go on. -/
theorem wp_sealWithin_exact {α : Type} {fragment : HandshakeFragment} (tooLong : Err)
    {rest : SealedRecord → EStateM Err CipherStore α} {post : α → CipherStore → Prop}
    {fail : Err → CipherStore → Prop} (href : ref < store.ciphers.length)
    (hadmits : (store.read ref).Admits fragment)
    (hrest : ∀ wire next, (store.read ref).canSeal mtu fragment = true →
      next.read ref = (store.read ref).spent 1 → ref < next.ciphers.length →
      wp (rest wire) post fail next)
    (hfail : ∀ err next, (store.read ref).canSeal mtu fragment = false → fail err next) :
    wp (do
      let wire ← sealHandshakeFragment P ref fragment
      if mtu < wire.packet.length then throw tooLong else rest wire) post fail store := by
  rw [wp_bind]
  refine wp_mono (wp_sealHandshakeFragment_exact href hadmits) ?_ ?_
  · rintro wire next ⟨hnumber, hwire, hread, hsize⟩
    rw [canSeal, hnumber, Bool.true_and] at hrest hfail
    rw [wp_ite, hwire]
    exact ⟨fun hlong => hfail _ _ (decide_eq_false (Nat.not_le.mpr hlong)), fun hfits =>
      hrest wire next (decide_eq_true (Nat.le_of_not_lt hfits)) hread (hsize ▸ href)⟩
  · intro err next hnone
    exact hfail err next (by rw [canSeal, hnone, Bool.false_and])

theorem RecordCipher.Admits.spent {c : RecordCipher} {fragment : HandshakeFragment}
    (hadmits : c.Admits fragment) (count : Nat) : (c.spent count).Admits fragment :=
  ⟨hadmits.valid, hadmits.epoch_le, hadmits.content_le, hadmits.within_limit⟩

theorem wp_sealFragments_exact (mtu : Nat) (tooLong : Err) {fragments : List HandshakeFragment}
    (href : ref < store.ciphers.length)
    (hadmits : ∀ fragment ∈ fragments, (store.read ref).Admits fragment) :
    wp (sealFragments P ref mtu tooLong fragments)
      (fun _ _ => (store.read ref).canCarry mtu fragments = true)
      (fun _ _ => (store.read ref).canCarry mtu fragments = false) store := by
  induction fragments generalizing store with
  | nil => rfl
  | cons fragment rest ih =>
    obtain ⟨hfirst, hothers⟩ := forall_mem_cons.mp hadmits
    unfold sealFragments
    rw [canCarry_cons]
    refine wp_sealWithin_exact tooLong href hfirst (fun wire next hfits hread hnext => ?_) ?_
    · rw [hfits, Bool.true_and, ← hread]
      refine wp_seq (ih hnext fun other hother => ?_) fun _ _ hcarry => hcarry
      rw [hread]
      exact (hothers other hother).spent 1
    · intro err next hnone
      rw [hnone, Bool.false_and]

/-- The MTU leaves room for a byte of a message, and there are numbers for the fragments. -/
def RecordCipher.canBuild (c : RecordCipher) (mtu : Nat) (messages : List HandshakeMessage) :
    Bool :=
  let fragments := messages.flatMap fun m => fragmentHandshakeMessage m (maxFragmentFor c mtu)
  1 ≤ maxFragmentFor c mtu && (fragments.isEmpty || c.hasNumbers fragments.length)

/-- What is cut for a cipher fits it. -/
theorem admits_of_cut {c : RecordCipher} {messages : List HandshakeMessage}
    (hepoch : c.epoch ≤ maxSendingEpoch) (hlimit : c.plaintextLimit ≤ maxRecordContent + 1)
    (hroom : 1 ≤ maxFragmentFor c mtu) (hshort : ∀ m ∈ messages, m.body.length < 2 ^ 24)
    (fragment : HandshakeFragment) (hfragment : fragment ∈ messages.flatMap fun m =>
      fragmentHandshakeMessage m (maxFragmentFor c mtu)) :
    c.Admits fragment ∧ c.fragmentRecordLen fragment ≤ mtu := by
  obtain ⟨m, hm, hpart⟩ := mem_flatMap.mp hfragment
  have hle := fragment_length_le hpart
  have hwhole := isPart_of_mem_fragments hpart
  have hlength : fragment.length < 2 ^ 24 := hwhole.length ▸ hshort m hm
  have hwithin := hwhole.within
  unfold maxFragmentFor maxContent at hle hroom
  refine ⟨⟨?_, hepoch, ?_, fun hlimited => ?_⟩, ?_⟩
  · unfold validateHandshakeFragment
    rw [if_neg]
    simp only [Bool.or_eq_true, decide_eq_true_eq, not_or, not_le, not_lt]
    omega
  · split_ifs at hle hroom <;> omega
  · rw [if_neg hlimited] at hle hroom
    omega
  · unfold fragmentRecordLen
    omega

/-- Messages that a flight was built of can be cut and sealed anew exactly then. -/
theorem buildProtectedFlight_succeeds_iff {messages : List HandshakeMessage}
    (href : ref < store.ciphers.length) (hepoch : (store.read ref).epoch ≤ maxSendingEpoch)
    (hlimit : (store.read ref).plaintextLimit ≤ maxRecordContent + 1)
    (hshort : ∀ m ∈ messages, m.body.length < 2 ^ 24) :
    succeeds (buildProtectedFlight P messages mtu ref) store = true ↔
      (store.read ref).canBuild mtu messages = true := by
  have hbuild : wp (buildProtectedFlight P messages mtu ref)
      (fun _ _ => (store.read ref).canBuild mtu messages = true)
      (fun _ _ => (store.read ref).canBuild mtu messages = false) store := by
    unfold buildProtectedFlight canBuild
    rw [wp_bind, wp_get, wp_ite]
    refine ⟨fun hnarrow => ?_, fun hroom => ?_⟩
    · simp [Nat.lt_one_iff.mp hnarrow]
    have hwide := Nat.le_of_not_lt hroom
    have hcut := admits_of_cut hepoch hlimit hwide hshort
    rw [wp_ite, decide_eq_true hwide, Bool.true_and]
    refine ⟨fun hlong => ?_, fun _ => ?_⟩
    · obtain ⟨m, hm, hlarge⟩ := any_eq_true.mp hlong
      exact absurd (of_decide_eq_true hlarge) (Nat.not_le.mpr (hshort m hm))
    · have hall : ((messages.flatMap fun m => fragmentHandshakeMessage m (maxFragmentFor
          (store.read ref) mtu)).all fun f => (store.read ref).fragmentRecordLen f ≤ mtu) = true :=
        all_eq_true.mpr fun fragment hfragment => decide_eq_true (hcut fragment hfragment).2
      have hseal := wp_sealFragments_exact (P := P) mtu (.protocolError
        "protected handshake record exceeds MTU") href fun fragment hf => (hcut fragment hf).1
      unfold canCarry at hseal
      rw [hall, Bool.and_true] at hseal
      exact wp_seq hseal fun _ _ hcarry => hcarry
  unfold StateLogic.succeeds
  rcases wp_cases hbuild with ⟨f, next, hok, hcan⟩ | ⟨err, next, herror, hcannot⟩
  · rw [hok, hcan]
  · rw [herror, hcannot]

namespace Flight

theorem renewPending_exact {f : Flight} {index : Nat} {records : List FlightRecord}
    {fragments : List HandshakeFragment} (hfragments : f.fragments.drop index = fragments)
    (hlength : records.length = fragments.length) (href : f.cipher < store.ciphers.length)
    (hadmits : ∀ fragment ∈ pendingFragments records fragments,
      (store.read f.cipher).Admits fragment) :
    (renewPending (f.renew P) index records store).2.2 = none ↔
      (store.read f.cipher).canCarry f.mtu (pendingFragments records fragments) = true := by
  induction records generalizing index fragments store with
  | nil => exact iff_of_true rfl rfl
  | cons record records ih =>
    cases fragments with
    | nil => cases hlength
    | cons fragment fragments =>
      obtain ⟨hget, hdrop⟩ := getElem?_of_drop_eq_cons hfragments
      have hlengths := Nat.succ.inj hlength
      unfold pendingFragments at hadmits
      unfold renewPending pendingFragments
      by_cases hacked : record.acked = true
      · rw [if_pos hacked] at hadmits ⊢
        rw [if_pos hacked]
        exact ih hdrop hlengths href hadmits
      · rw [if_neg hacked] at hadmits ⊢
        obtain ⟨hfirst, hrest⟩ := forall_mem_cons.mp hadmits
        have hseal : wp (f.renew P index record)
            (fun _ next => (store.read f.cipher).canSeal f.mtu fragment = true ∧
              next.read f.cipher = (store.read f.cipher).spent 1 ∧ f.cipher < next.ciphers.length)
            (fun _ _ => (store.read f.cipher).canSeal f.mtu fragment = false) store := by
          rw [renew, hget]
          exact wp_sealWithin_exact _ href hfirst
            (fun _ _ hfits hread hnext => ⟨hfits, hread, hnext⟩) fun _ _ hnone => hnone
        rw [if_neg hacked, canCarry_cons]
        rcases wp_cases hseal with
          ⟨wire, next, hok, hfits, hread, hnext⟩ | ⟨err, next, herror, hnone⟩
        · rw [hok, hfits, Bool.true_and, ← hread]
          refine ih hdrop hlengths hnext fun other hother => ?_
          rw [hread]
          exact (hrest other hother).spent 1
        · rw [herror, hnone, Bool.false_and]
          exact iff_of_false (Option.some_ne_none _) Bool.false_ne_true

/-- A rebuild succeeds exactly when the cipher can carry what is pending. -/
theorem rebuild_iff {f : Flight} (hlength : f.records.length = f.fragments.length)
    (href : f.cipher < store.ciphers.length)
    (hadmits : ∀ fragment ∈ f.pending, (store.read f.cipher).Admits fragment) :
    (f.rebuild P store).2.2 = none ↔ (store.read f.cipher).canCarry f.mtu f.pending = true :=
  renewPending_exact drop_zero hlength href hadmits

theorem rebuild_read {f : Flight} (hlength : f.records.length = f.fragments.length)
    (hnone : (f.rebuild P store).2.2 = none) :
    (f.rebuild P store).2.1.read = spend store.read f.cipher f.pending.length := by
  obtain ⟨wires, lost, hseals, -, -, hall⟩ := rebuild_seals (P := P) hlength store
  have hcount : (pendingFragments f.records f.fragments).length ≤ (wires ++ lost).length := by
    rw [length_append, hall hnone]
    exact Nat.le_add_right _ _
  rw [take_of_length_le hcount] at hseals
  rw [hseals.read, contents, length_map]
  rfl

end Flight

end Dtls13
