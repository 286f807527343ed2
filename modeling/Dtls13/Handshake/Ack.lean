import Mathlib.Data.List.Destutter
import Mathlib.Data.List.Sort
import Dtls13.Record.Store

/-! # ACK records

The encoding of acknowledged record numbers, the checks made on a received ACK,
and the sealing of ACKs into as many records as the MTU demands.
-/

namespace Dtls13

open ByteCodec StateLogic List

def recordNumberLess (a b : RecordNumber) : Bool :=
  a.epoch < b.epoch || (a.epoch == b.epoch && a.sequence < b.sequence)

/-- Strictly increasing record numbers. -/
def increasing : List RecordNumber → Bool
  | first :: second :: rest => recordNumberLess first second && increasing (second :: rest)
  | _ => true

/-- Sorted without duplicates; a list that already is stays as it is. -/
def canonicalRecordNumbers (numbers : List RecordNumber) : List RecordNumber :=
  if increasing numbers then numbers
  else (numbers.insertionSort fun a b => recordNumberLess b a = false).destutter (· ≠ ·)

def marshalRecordNumber (number : RecordNumber) : Bytes :=
  beBytes 8 number.epoch ++ beBytes 8 number.sequence

/-- The body of an ACK. The length field is 16 bits wide; a record has no room for
more numbers than it can count. -/
def marshalCanonicalACKInto (numbers : List RecordNumber) : Bytes :=
  beBytes 2 (16 * numbers.length) ++ numbers.flatMap marshalRecordNumber

def parseRecordNumbers : Nat → Bytes → List RecordNumber
  | 0, _ => []
  | count + 1, b =>
    ⟨beNat (b.take 8), beNat ((b.drop 8).take 8)⟩ :: parseRecordNumbers count (b.drop 16)

def parseACK (b : Bytes) : Except Err (List RecordNumber) :=
  if b.length < 2 then
    .error (alertError alertDecodeError (.protocolError "truncated ACK"))
  else
    let n := beNat (b.take 2)
    if n % 16 ≠ 0 || n ≠ b.length - 2 then
      .error (alertError alertDecodeError (.protocolError "malformed ACK vector length"))
    else
      let numbers := parseRecordNumbers (n / 16) (b.drop 2)
      if increasing numbers then .ok numbers
      else .error (.protocolError "ACK record numbers are not in increasing order")

def validateACKEpoch (numbers : List RecordNumber) (ackEpoch : Nat) : Except Err Unit :=
  if numbers.any fun number => ackEpoch < number.epoch then
    .error (alertError alertIllegalParameter
      (.protocolError "ACK epoch is lower than an acknowledged record epoch"))
  else .ok ()

section Building

variable (P : Primitives)

/-- How many record numbers one ACK record of `cipher` has room for. -/
def maxACKEntries (cipher : RecordCipher) (mtu : Nat) : Nat :=
  min ((mtu - (cipher.headerLen16 + cipher.suite.overhead + 1 + 2)) / 16)
    ((cipher.maxContent - 2) / 16)

/-- One ACK record for every `maxEntries` numbers. -/
def sealACKs (ref : CipherRef) (mtu maxEntries : Nat) :
    Nat → List RecordNumber → EStateM Err CipherStore (List SealedRecord)
  | 0, _ => pure []
  | _, [] => pure []
  | fuel + 1, numbers => do
    let wire ← CipherStore.sealRecord P ref recordTypeACK
      (marshalCanonicalACKInto (numbers.take maxEntries))
    if mtu < wire.packet.length then throw (.protocolError "ACK record exceeds MTU")
    else do
      let others ← sealACKs ref mtu maxEntries fuel (numbers.drop maxEntries)
      pure (wire :: others)

def buildACKRecords (numbers : List RecordNumber) (mtu : Nat) (ref : CipherRef) :
    EStateM Err CipherStore (List SealedRecord) := do
  let store ← get
  let maxEntries := maxACKEntries (store.read ref) mtu
  if maxEntries < 1 then throw (.configError "MTU is too small for an ACK record")
  else if canonicalRecordNumbers numbers = [] then do
    let wire ← CipherStore.sealRecord P ref recordTypeACK (marshalCanonicalACKInto [])
    pure [wire]
  else
    sealACKs P ref mtu maxEntries numbers.length (canonicalRecordNumbers numbers)

end Building

/-! ## The encoding is faithful -/

@[simp] theorem marshalRecordNumber_length (number : RecordNumber) :
    (marshalRecordNumber number).length = 16 := by
  simp [marshalRecordNumber]

theorem flatMap_marshalRecordNumber_length (numbers : List RecordNumber) :
    (numbers.flatMap marshalRecordNumber).length = 16 * numbers.length := by
  induction numbers with
  | nil => rfl
  | cons number rest ih => simp [flatMap_cons, ih]; ring

/-- The numbers that fit the eight-byte fields. -/
def RecordNumber.Encodable (number : RecordNumber) : Prop :=
  number.epoch < 2 ^ 64 ∧ number.sequence < 2 ^ 64

variable {numbers : List RecordNumber}

theorem parseRecordNumbers_marshal (hfits : ∀ number ∈ numbers, number.Encodable) :
    parseRecordNumbers numbers.length (numbers.flatMap marshalRecordNumber) = numbers := by
  induction numbers with
  | nil => rfl
  | cons number rest ih =>
    obtain ⟨hepoch, hsequence⟩ := hfits number mem_cons_self
    have hrest := ih fun other hmem => hfits other (mem_cons_of_mem _ hmem)
    have hhead : (marshalRecordNumber number ++ rest.flatMap marshalRecordNumber).take 8 =
        beBytes 8 number.epoch := rfl
    have hnext : ((marshalRecordNumber number ++
        rest.flatMap marshalRecordNumber).drop 8).take 8 = beBytes 8 number.sequence := rfl
    have htail : (marshalRecordNumber number ++ rest.flatMap marshalRecordNumber).drop 16 =
        rest.flatMap marshalRecordNumber := rfl
    rw [flatMap_cons, length_cons, parseRecordNumbers, hhead, hnext, htail, hrest,
      beNat_beBytes 8 hepoch, beNat_beBytes 8 hsequence]

theorem marshalCanonicalACKInto_length (numbers : List RecordNumber) :
    (marshalCanonicalACKInto numbers).length = 2 + 16 * numbers.length := by
  rw [marshalCanonicalACKInto, length_append, beBytes_length, flatMap_marshalRecordNumber_length]

/-- An ACK that fits a record is read number by number. -/
theorem parseACK_marshalCanonicalACKInto (hlength : numbers.length ≤ 4095) :
    parseACK (marshalCanonicalACKInto numbers) =
      let parsed := parseRecordNumbers numbers.length (numbers.flatMap marshalRecordNumber)
      if increasing parsed then .ok parsed
      else .error (.protocolError "ACK record numbers are not in increasing order") := by
  have htake : (marshalCanonicalACKInto numbers).take 2 = beBytes 2 (16 * numbers.length) := rfl
  have hdrop : (marshalCanonicalACKInto numbers).drop 2 = numbers.flatMap marshalRecordNumber := rfl
  have hn : beNat ((marshalCanonicalACKInto numbers).take 2) = 16 * numbers.length := by
    rw [htake]
    exact beNat_beBytes 2 (by omega)
  unfold parseACK
  rw [hn, hdrop, marshalCanonicalACKInto_length, if_neg (by omega)]
  dsimp only
  rw [if_neg (by simp), Nat.mul_div_cancel_left _ (by decide)]

/-- A canonical list that fits a record is read back from its ACK. -/
theorem parseACK_marshal (hlength : numbers.length ≤ 4095)
    (hincreasing : increasing numbers = true) (hfits : ∀ number ∈ numbers, number.Encodable) :
    parseACK (marshalCanonicalACKInto numbers) = .ok numbers := by
  rw [parseACK_marshalCanonicalACKInto hlength]
  dsimp only
  rw [parseRecordNumbers_marshal hfits, if_pos hincreasing]

theorem canonicalRecordNumbers_length_le (numbers : List RecordNumber) :
    (canonicalRecordNumbers numbers).length ≤ numbers.length := by
  unfold canonicalRecordNumbers
  split
  · exact le_rfl
  · refine (destutter_sublist _ _).length_le.trans ?_
    rw [length_insertionSort]

/-! ## Sealing ACKs -/

namespace CipherStore

variable {P : Primitives}

/-- The records of an ACK: the numbers, cut into chunks that fit a record each. -/
structure ACKsSealed (P : Primitives) (ref : CipherRef) (maxEntries : Nat)
    (numbers : List RecordNumber) (store : CipherStore) (chunks : List (List RecordNumber))
    (acks : List SealedRecord) (next : CipherStore) : Prop where
  seals : Seals P ref recordTypeACK store (chunks.map marshalCanonicalACKInto) acks next
  flatten_eq : chunks.flatten = numbers
  length_le : ∀ chunk ∈ chunks, chunk.length ≤ maxEntries

theorem wp_sealACKs (ref : CipherRef) (mtu : Nat) {maxEntries fuel : Nat} (hpos : 0 < maxEntries)
    {numbers : List RecordNumber} (hfuel : numbers.length ≤ fuel) (store : CipherStore) :
    wp (sealACKs P ref mtu maxEntries fuel numbers)
      (fun acks next => ∃ chunks, ACKsSealed P ref maxEntries numbers store chunks acks next)
      (fun _ next => ∃ contents acks, Seals P ref recordTypeACK store contents acks next)
      store := by
  induction fuel generalizing numbers store with
  | zero =>
    obtain rfl := length_eq_zero_iff.mp (Nat.le_zero.mp hfuel)
    exact ⟨[], .nil, rfl, nofun⟩
  | succ fuel ih =>
    cases numbers with
    | nil => exact ⟨[], .nil, rfl, nofun⟩
    | cons number rest =>
      have hshorter : ((number :: rest).drop maxEntries).length ≤ fuel := by
        rw [length_drop]
        rw [length_cons] at hfuel ⊢
        omega
      unfold sealACKs
      rw [wp_bind]
      refine wp_mono (wp_sealRecord_seals P ref _ _ store) ?_ ?_
      · intro wire middle hfirst
        refine wp_guard ⟨_, _, hfirst⟩ fun _ => ?_
        rw [wp_bind]
        refine wp_mono (ih hshorter middle) ?_ ?_
        · rintro others next ⟨chunks, hseals, hflatten, hlength⟩
          refine ⟨(number :: rest).take maxEntries :: chunks, hfirst.append hseals, ?_, ?_⟩
          · rw [flatten_cons, hflatten, take_append_drop]
          · exact forall_mem_cons.mpr ⟨length_take_le _ _, hlength⟩
        · rintro _ next ⟨contents, acks, hseals⟩
          exact ⟨_, _, hfirst.append hseals⟩
      · rintro _ _ rfl
        exact ⟨[], [], .nil⟩

theorem wp_buildACKRecords (numbers : List RecordNumber) (mtu : Nat) (ref : CipherRef)
    (store : CipherStore) : wp (buildACKRecords P numbers mtu ref)
      (fun acks next => 0 < maxACKEntries (store.read ref) mtu ∧ ∃ chunks,
        ACKsSealed P ref (maxACKEntries (store.read ref) mtu) (canonicalRecordNumbers numbers)
          store chunks acks next)
      (fun _ next => ∃ contents acks, Seals P ref recordTypeACK store contents acks next)
      store := by
  unfold buildACKRecords
  rw [wp_bind, wp_get]
  dsimp only
  refine wp_guard ⟨[], [], .nil⟩ fun hroom => ?_
  have hpos : 0 < maxACKEntries (store.read ref) mtu := Nat.le_of_not_lt hroom
  rw [wp_ite]
  refine ⟨fun hempty => ?_, fun _ => ?_⟩
  · rw [wp_bind]
    refine wp_mono (wp_sealRecord_seals P ref _ _ store) ?_ ?_
    · intro wire next hseals
      exact ⟨hpos, [[]], hseals, hempty.symm, forall_mem_singleton.mpr (Nat.zero_le _)⟩
    · rintro _ _ rfl
      exact ⟨[], [], .nil⟩
  · exact wp_imp (wp_sealACKs ref mtu hpos (canonicalRecordNumbers_length_le numbers) store)
      fun _ _ hacks => ⟨hpos, hacks⟩

/-- Each record acknowledges some of the numbers. -/
theorem ACKsSealed.exists_logged {ref : CipherRef} {maxEntries : Nat} {store next : CipherStore}
    {chunks : List (List RecordNumber)} {acks : List SealedRecord} {ack : SealedRecord}
    (hacks : ACKsSealed P ref maxEntries numbers store chunks acks next) (hack : ack ∈ acks) :
    ∃ chunk, chunk.Sublist numbers ∧
      Logged next ref recordTypeACK (marshalCanonicalACKInto chunk) ack := by
  obtain ⟨content, hcontent, hlogged⟩ := hacks.seals.exists_logged hack
  obtain ⟨chunk, hchunk, rfl⟩ := mem_map.mp hcontent
  exact ⟨chunk, hacks.flatten_eq ▸ sublist_flatten_of_mem hchunk, hlogged⟩

end CipherStore

end Dtls13
