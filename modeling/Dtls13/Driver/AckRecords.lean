import Dtls13.Driver.Receive
import Dtls13.Record.RoundTrip

/-! # Building ACK records

The numbers to acknowledge come in any order and with repetitions. They are sorted on a
copy, cut into as many records as the MTU and the record limit demand, and numbered from
the plaintext counter or sealed. What the peer reads from the records, one after the
other, is the sorted list.
-/

namespace Dtls13

open ByteCodec StateLogic HandshakeChannel List Transmission

/-! ## Canonical lists -/

def RecordNumber.Precedes (a b : RecordNumber) : Prop := recordNumberLess a b = true

open RecordNumber

theorem precedes_iff {a b : RecordNumber} :
    a.Precedes b ↔ a.epoch < b.epoch ∨ a.epoch = b.epoch ∧ a.sequence < b.sequence := by
  simp [Precedes, recordNumberLess]

theorem eq_of_not_precedes {a b : RecordNumber} (hab : ¬a.Precedes b) (hba : ¬b.Precedes a) :
    a = b := by
  rw [precedes_iff] at hab hba
  cases a
  cases b
  simp only [RecordNumber.mk.injEq] at *
  omega

instance : Trans Precedes Precedes Precedes where
  trans hab hbc := by
    rw [precedes_iff] at *
    omega

theorem increasing_iff {numbers : List RecordNumber} :
    increasing numbers = true ↔ numbers.Pairwise Precedes := by
  rw [← isChain_iff_pairwise]
  induction numbers with
  | nil => simp [increasing]
  | cons first rest ih =>
    cases rest with
    | nil => simp [increasing]
    | cons second rest =>
      rw [increasing, Bool.and_eq_true, ih, isChain_cons_cons]
      rfl

/-- The order numbers are sorted in. -/
def Follows (a b : RecordNumber) : Prop := recordNumberLess b a = false

theorem follows_iff {a b : RecordNumber} : Follows a b ↔ ¬b.Precedes a := by
  simp [Follows, Precedes]

instance : DecidableRel Follows := fun _ _ => inferInstanceAs (Decidable (_ = _))

instance : Std.Total Follows where
  total a b := by
    rw [follows_iff, follows_iff, precedes_iff, precedes_iff]
    omega

instance : IsTrans RecordNumber Follows where
  trans a b c hab hbc := by
    rw [follows_iff, precedes_iff] at *
    omega

/-- Removing neighbours that are equal removes no number. -/
theorem mem_destutter {numbers : List RecordNumber} {number : RecordNumber} :
    number ∈ numbers.destutter (· ≠ ·) ↔ number ∈ numbers := by
  refine ⟨fun hmem => (destutter_sublist _ _).subset hmem, fun hmem => ?_⟩
  cases numbers with
  | nil => exact hmem
  | cons first rest =>
    rw [destutter_cons']
    induction rest generalizing first with
    | nil => exact hmem
    | cons second rest ih =>
      rw [List.destutter']
      split_ifs with hne
      · rcases mem_cons.mp hmem with rfl | hmem
        · exact mem_cons_self
        · exact mem_cons_of_mem _ (ih second hmem)
      · obtain rfl := not_not.mp hne
        exact ih first ((mem_cons.mp hmem).elim (fun heq => heq ▸ mem_cons_self) id)

theorem mem_canonicalRecordNumbers {numbers : List RecordNumber} {number : RecordNumber} :
    number ∈ canonicalRecordNumbers numbers ↔ number ∈ numbers := by
  unfold canonicalRecordNumbers
  split
  · rfl
  · rw [mem_destutter, mem_insertionSort]

theorem pairwise_canonicalRecordNumbers (numbers : List RecordNumber) :
    (canonicalRecordNumbers numbers).Pairwise Precedes := by
  unfold canonicalRecordNumbers
  split
  next hincreasing => exact increasing_iff.mp hincreasing
  next =>
    have hsorted : ((numbers.insertionSort Follows).destutter (· ≠ ·)).Pairwise Follows :=
      (pairwise_insertionSort Follows numbers).sublist (destutter_sublist _ _)
    have hapart := isChain_destutter (· ≠ ·) (numbers.insertionSort Follows)
    rw [← isChain_iff_pairwise]
    refine isChain_iff_getElem.mpr fun i hi => ?_
    by_contra hprecedes
    have hfollows := follows_iff.mp (isChain_iff_getElem.mp hsorted.isChain i hi)
    exact isChain_iff_getElem.mp hapart i hi (eq_of_not_precedes hprecedes hfollows)

/-! ## The copy is sorted in place -/

/-- One turn of the loop over an array: `dedup` is the beginning of the same array, and
`state` has its length. -/
def dedupStep (state : List RecordNumber × Nat) (i : Nat) : List RecordNumber × Nat :=
  match state.1[i]? with
  | none => state
  | some number =>
    if state.2 = 0 ∨ state.1[state.2 - 1]? ≠ some number then
      (state.1.set state.2 number, state.2 + 1)
    else state

def dedupInPlace (array : List RecordNumber) : List RecordNumber × Nat :=
  (List.range array.length).foldl dedupStep (array, 0)

/-- The beginning of an array in memory. -/
structure NumberSlice where
  array : Nat
  length : Nat
  deriving DecidableEq, Repr

def NumberSlice.read (memory : List (List RecordNumber)) (s : NumberSlice) : List RecordNumber :=
  ((memory[s.array]?).getD []).take s.length

/-- `canonicalRecordNumbers` on memory; the copy is a new array behind the others. -/
def canonicalSlice (numbers : NumberSlice) (memory : List (List RecordNumber)) :
    NumberSlice × List (List RecordNumber) :=
  if increasing (numbers.read memory) then (numbers, memory)
  else
    let copied := memory ++ [numbers.read memory]
    let sorted := copied.modify memory.length (·.insertionSort Follows)
    let dedup := dedupInPlace ((sorted[memory.length]?).getD [])
    (⟨memory.length, dedup.2⟩, sorted.set memory.length dedup.1)

/-- One more number is kept unless it is the last one kept. -/
theorem destutter_concat (numbers : List RecordNumber) (number : RecordNumber) :
    (numbers ++ [number]).destutter (· ≠ ·) =
      if (numbers.destutter (· ≠ ·)).getLast? = some number then numbers.destutter (· ≠ ·)
      else numbers.destutter (· ≠ ·) ++ [number] := by
  cases numbers with
  | nil => simp
  | cons first rest =>
    rw [cons_append, destutter_cons', destutter_cons']
    induction rest generalizing first with
    | nil =>
      by_cases heq : first = number <;> simp [heq]
    | cons second rest ih =>
      rw [cons_append]
      by_cases hne : first ≠ second
      · rw [List.destutter'_cons_pos _ hne, List.destutter'_cons_pos _ hne, ih,
          List.getLast?_cons_of_ne_nil (List.destutter'_ne_nil _ _)]
        split_ifs <;> rfl
      · rw [List.destutter'_cons_neg _ hne, List.destutter'_cons_neg _ hne, ih]

/-- After `i` turns over the array. -/
structure Deduplicated (array : List RecordNumber) (i : Nat) (state : List RecordNumber × Nat) :
    Prop where
  length_eq : state.1.length = array.length
  le : state.2 ≤ i
  unread : state.1.drop i = array.drop i
  kept : state.1.take state.2 = (array.take i).destutter (· ≠ ·)

theorem Deduplicated.step {array : List RecordNumber} {i : Nat} {state : List RecordNumber × Nat}
    (hstate : Deduplicated array i state) (hi : i < array.length) :
    Deduplicated array (i + 1) (dedupStep state i) := by
  obtain ⟨values, length⟩ := state
  obtain ⟨hlength, hle, hunread, hkept⟩ := hstate
  dsimp only at *
  have hi' : i < values.length := hlength ▸ hi
  -- The writes stay behind the reads.
  have hnumber : values[i] = array[i] := by
    have hheads := congrArg List.head? hunread
    rwa [List.head?_drop, List.head?_drop, List.getElem?_eq_getElem hi',
      List.getElem?_eq_getElem hi, Option.some_inj] at hheads
  have hrest : values.drop (i + 1) = array.drop (i + 1) := by
    rw [← tail_drop, ← tail_drop, hunread]
  have hlast : (values.take length).getLast? = some array[i] ↔
      ¬(length = 0 ∨ values[length - 1]? ≠ some array[i]) := by
    rw [List.getLast?_take]
    split_ifs with hzero
    · simp [hzero]
    · rw [List.getElem?_eq_getElem (by omega)]
      simp [hzero]
  unfold dedupStep
  rw [List.getElem?_eq_getElem hi', hnumber]
  dsimp only
  split_ifs with hnew
  · refine ⟨by rw [length_set, hlength], Nat.succ_le_succ hle, ?_, ?_⟩
    · rw [drop_set_of_lt (by omega), hrest]
    · rw [take_succ_eq_append_getElem (by rw [length_set]; omega), getElem_set_self,
        take_set_of_le le_rfl, take_succ_eq_append_getElem hi, destutter_concat, ← hkept,
        if_neg (hlast.not.mpr (not_not.mpr hnew))]
  · refine ⟨hlength, Nat.le_succ_of_le hle, hrest, ?_⟩
    rw [take_succ_eq_append_getElem hi, destutter_concat, ← hkept, if_pos (hlast.mpr hnew)]

theorem dedupInPlace_spec (array : List RecordNumber) :
    Deduplicated array array.length (dedupInPlace array) := by
  have hturns : ∀ i ≤ array.length,
      Deduplicated array i ((List.range i).foldl dedupStep (array, 0)) := by
    intro i
    induction i with
    | zero => exact fun _ => ⟨rfl, le_rfl, rfl, rfl⟩
    | succ i ih =>
      intro hi
      rw [range_succ, foldl_append]
      exact (ih (Nat.le_of_succ_le hi)).step hi
  exact hturns array.length le_rfl

/-- The result on memory is the canonical list, and no array that was there changes. -/
theorem canonicalSlice_spec (numbers : NumberSlice) (memory : List (List RecordNumber)) :
    (canonicalSlice numbers memory).1.read (canonicalSlice numbers memory).2 =
        canonicalRecordNumbers (numbers.read memory) ∧
      memory <+: (canonicalSlice numbers memory).2 := by
  unfold canonicalSlice
  split_ifs with hincreasing
  · exact ⟨by rw [canonicalRecordNumbers, if_pos hincreasing], prefix_rfl⟩
  · have hmodify : (memory ++ [numbers.read memory]).modify memory.length
        (·.insertionSort Follows) = memory ++ [(numbers.read memory).insertionSort Follows] := by
      rw [modify_eq_set_getElem?]
      simp
    dsimp only
    rw [hmodify, List.getElem?_concat_length, Option.getD_some,
      set_append_right memory.length _ le_rfl, Nat.sub_self]
    refine ⟨?_, prefix_append _ _⟩
    rw [NumberSlice.read, set_cons_zero, List.getElem?_concat_length, Option.getD_some,
      (dedupInPlace_spec _).kept, take_length, canonicalRecordNumbers, if_neg hincreasing]
    rfl

/-! ## Building plaintext records -/

/-- One ACK record for every `maxEntries` numbers. A record takes the next number also when
it cannot be written. -/
def plainACKs (mtu maxEntries : Nat) :
    Nat → List RecordNumber → EStateM Err Nat (List SealedRecord)
  | 0, _ => pure []
  | _, [] => pure []
  | fuel + 1, numbers => do
    let plainSequence ← get
    set (plainSequence + 1)
    let wire ← ofExcept (marshalPlainACKRecord (numbers.take maxEntries) plainSequence)
    if mtu < wire.packet.length then throw (.protocolError "ACK record exceeds MTU")
    else do
      let others ← plainACKs mtu maxEntries fuel (numbers.drop maxEntries)
      pure (wire :: others)

def maxPlainACKEntries (mtu : Nat) : Nat :=
  min ((mtu - (plainRecordHeaderLen + 2)) / 16) ((maxRecordContent - 2) / 16)

/-- The builder without a cipher; the state is the next plaintext number. -/
def buildPlainACKRecords (numbers : List RecordNumber) (mtu : Nat) :
    EStateM Err Nat (List SealedRecord) :=
  if maxPlainACKEntries mtu < 1 then throw (.configError "MTU is too small for an ACK record")
  else if canonicalRecordNumbers numbers = [] then do
    let plainSequence ← get
    let wire ← ofExcept (marshalPlainACKRecord [] plainSequence)
    set (plainSequence + 1)
    pure [wire]
  else
    plainACKs mtu (maxPlainACKEntries mtu) numbers.length (canonicalRecordNumbers numbers)

/-! ## Reading the records -/

/-- What plaintext records acknowledge. -/
def readPlainACKs : List Bytes → Except Err (List (List RecordNumber))
  | [] => .ok []
  | packet :: rest => do
    let (record, _) ← parsePlainRecordView packet
    let numbers ← parseACK record.payload
    let others ← readPlainACKs rest
    pure (numbers :: others)

/-- What protected records acknowledge that a receiver opens one after the other. -/
def readACKs (P : Primitives) : OpenHistory → List Bytes → Except Err (List (List RecordNumber))
  | _, [] => .ok []
  | history, packet :: rest => do
    let opened ← (history.cipher.openRecord P packet).1
    let numbers ← parseACK opened.content
    let others ← readACKs P (history.step P packet) rest
    pure (numbers :: others)

variable {P : Primitives} {numbers chunk : List RecordNumber} {mtu : Nat}
  {records : List SealedRecord}

/-- Numbers that ACKs carry chunk by chunk. -/
structure Acknowledgeable (numbers : List RecordNumber) : Prop where
  increasing : numbers.Pairwise Precedes
  fits : ∀ number ∈ numbers, number.Encodable

theorem Acknowledgeable.sublist (hnumbers : Acknowledgeable numbers)
    (hchunk : chunk.Sublist numbers) : Acknowledgeable chunk :=
  ⟨hnumbers.increasing.sublist hchunk, fun _ hmem => hnumbers.fits _ (hchunk.subset hmem)⟩

theorem Acknowledgeable.parseACK_eq (hchunk : Acknowledgeable chunk)
    (hlength : chunk.length ≤ 4095) : parseACK (marshalCanonicalACKInto chunk) = .ok chunk :=
  parseACK_marshal hlength (increasing_iff.mpr hchunk.increasing) hchunk.fits

/-- What a plaintext ACK record contains, and what is read from it. -/
theorem marshalPlainACKRecord_ok {sequence : Nat} {record : SealedRecord}
    (hrecord : marshalPlainACKRecord chunk sequence = .ok record) :
    record.content.length ≤ maxRecordContent ∧
      record.packet.length = plainRecordHeaderLen + 2 + 16 * chunk.length ∧
      (Acknowledgeable chunk → ∀ rest, readPlainACKs (record.packet :: rest) = do
        let others ← readPlainACKs rest
        pure (chunk :: others)) := by
  obtain ⟨length, hlength, hrecord⟩ := bind_eq_ok.mp hrecord
  obtain ⟨header, hheader, hrecord⟩ := bind_eq_ok.mp hrecord
  cases hrecord
  unfold canonicalACKPayloadLen at hlength
  split_ifs at hlength with hlong
  cases hlength
  rw [← marshalCanonicalACKInto_length] at hheader
  have hmarshal : marshalPlainRecord ⟨recordTypeACK, 0, sequence, marshalCanonicalACKInto chunk⟩ =
      .ok (header ++ marshalCanonicalACKInto chunk) := by
    rw [marshalPlainRecord, hheader]
  obtain ⟨hwritable, hput⟩ := marshalPlainRecord_eq_ok_iff.mp hmarshal
  refine ⟨hwritable.payload_le, ?_, fun hchunk rest => ?_⟩
  · rw [PlainRecord.image, hput, PlainRecord.put_length, marshalCanonicalACKInto_length, add_assoc]
  · have hview := parsePlainRecordView_append (encodes_of_marshalPlainRecord hmarshal) []
    rw [append_nil] at hview
    rw [PlainRecord.image, readPlainACKs, hview]
    simp only [ok_bind]
    rw [hchunk.parseACK_eq (Nat.not_lt.mp hlong), ok_bind]

/-- The records carry the numbers, and they are numbered from `sequence`. -/
structure PlainACKs (numbers : List RecordNumber) (mtu sequence : Nat) (records : List SealedRecord)
    (next : Nat) : Prop where
  next_eq : next = sequence + records.length
  packet_le : ∀ record ∈ records, record.packet.length ≤ mtu
  content_le : ∀ record ∈ records, record.content.length ≤ maxRecordContent
  read : ∃ chunks, readPlainACKs (records.map (·.packet)) = .ok chunks ∧ chunks.flatten = numbers

theorem PlainACKs.cons {sequence next : Nat} {record : SealedRecord}
    (hrecord : marshalPlainACKRecord chunk sequence = .ok record) (hchunk : Acknowledgeable chunk)
    (hmtu : record.packet.length ≤ mtu)
    (hacks : PlainACKs numbers mtu (sequence + 1) records next) :
    PlainACKs (chunk ++ numbers) mtu sequence (record :: records) next := by
  obtain ⟨hcontent, -, hread⟩ := marshalPlainACKRecord_ok hrecord
  obtain ⟨chunks, hchunks, hflatten⟩ := hacks.read
  refine ⟨?_, forall_mem_cons.mpr ⟨hmtu, hacks.packet_le⟩,
    forall_mem_cons.mpr ⟨hcontent, hacks.content_le⟩, chunk :: chunks, ?_, ?_⟩
  · rw [hacks.next_eq, length_cons]
    omega
  · rw [map_cons, hread hchunk, hchunks]
    rfl
  · rw [flatten_cons, hflatten]

theorem plainACKs_nil (mtu sequence : Nat) : PlainACKs [] mtu sequence [] sequence :=
  ⟨rfl, nofun, nofun, [], rfl, rfl⟩

theorem wp_plainACKs (mtu : Nat) {maxEntries fuel : Nat} (hpos : 0 < maxEntries)
    (hfuel : numbers.length ≤ fuel) (hnumbers : Acknowledgeable numbers) (sequence : Nat) :
    wp (plainACKs mtu maxEntries fuel numbers) (PlainACKs numbers mtu sequence) (fun _ _ => True)
      sequence := by
  induction fuel generalizing numbers sequence with
  | zero =>
    obtain rfl := length_eq_zero_iff.mp (Nat.le_zero.mp hfuel)
    exact plainACKs_nil mtu sequence
  | succ fuel ih =>
    cases numbers with
    | nil => exact plainACKs_nil mtu sequence
    | cons number rest =>
      have hshorter : ((number :: rest).drop maxEntries).length ≤ fuel := by
        rw [length_drop]
        rw [length_cons] at hfuel ⊢
        omega
      unfold plainACKs
      rw [wp_bind, wp_get, wp_bind]
      change wp _ _ _ (sequence + 1)
      refine wp_ofExcept_bind (fun record hrecord => ?_) fun _ => trivial
      refine wp_guard trivial fun hmtu => ?_
      rw [wp_bind]
      refine wp_imp (ih hshorter (hnumbers.sublist (drop_sublist _ _)) (sequence + 1)) ?_
      intro others next hothers
      rw [← take_append_drop maxEntries (number :: rest)]
      exact .cons hrecord (hnumbers.sublist (take_sublist _ _)) (Nat.not_lt.mp hmtu) hothers

/-- The empty list has one record too, and it fits since one with a number would. -/
theorem wp_buildPlainACKRecords (mtu : Nat)
    (hnumbers : Acknowledgeable (canonicalRecordNumbers numbers)) (sequence : Nat) :
    wp (buildPlainACKRecords numbers mtu)
      (PlainACKs (canonicalRecordNumbers numbers) mtu sequence) (fun _ _ => True) sequence := by
  unfold buildPlainACKRecords
  refine wp_guard trivial fun hroom => ?_
  rw [wp_ite]
  refine ⟨fun hempty => ?_, fun _ => ?_⟩
  · rw [wp_bind, wp_get, hempty]
    refine wp_ofExcept_bind (fun record hrecord => ?_) fun _ => trivial
    refine PlainACKs.cons hrecord ⟨.nil, nofun⟩ ?_ (plainACKs_nil mtu (sequence + 1))
    rw [(marshalPlainACKRecord_ok hrecord).2.1]
    unfold maxPlainACKEntries at hroom
    simp only [length_nil]
    omega
  · exact wp_plainACKs mtu (Nat.le_of_not_lt hroom) (canonicalRecordNumbers_length_le numbers)
      hnumbers sequence

/-! ## Reading protected records -/

section Reading

open CipherStore OpenHistory

variable {ref : CipherRef} {store next : CipherStore} {chunks : List (List RecordNumber)}
  {size : Nat} {history : OpenHistory}

/-- A receiver that has opened none of the numbers `sender` is about to use, and that
expects one of them. -/
structure Awaits (sender : RecordCipher) (history : OpenHistory) : Prop where
  paired : sender.Paired history.cipher
  below : ∀ sequence ∈ history.accepted, sequence < sender.nextSequence
  near : sender.nextSequence ≤ expectedAfter history.accepted + halfRange true

theorem lt_expectedAfter {accepted : List Nat} {sequence : Nat} (hmem : sequence ∈ accepted) :
    sequence < expectedAfter accepted := by
  unfold expectedAfter
  cases hmax : accepted.max? with
  | none => simp [List.max?_eq_none_iff.mp hmax] at hmem
  | some largest => exact Nat.lt_succ_of_le ((List.max?_eq_some_iff.mp hmax).2 sequence hmem)

theorem Awaits.deliverable {t : Transmission P} (hawaits : Awaits t.sender history)
    (hwide : t.sequence16 = true) : t.Deliverable size history.accepted := by
  refine ⟨fun hmem => (hawaits.below _ hmem).false, fun largest hmax => ?_, ?_, ?_⟩
  · exact Nat.lt_add_right _ (hawaits.below largest (List.max?_mem hmax))
  · unfold expectedAfter
    cases hmax : history.accepted.max? with
    | none => exact Nat.zero_le _
    | some largest => exact Nat.le_add_right_of_le (hawaits.below largest (List.max?_mem hmax))
  · rw [hwide]
    exact hawaits.near

theorem Awaits.step {t : Transmission P} (hawaits : Awaits t.sender history)
    {later : RecordCipher} (hlater : later = { t.sender with nextSequence := t.sequence + 1 }) :
    Awaits later ⟨history.cipher.commit ⟨t.sequence, t.sender.headerCID, t.opened⟩,
      history.accepted ++ [t.sequence]⟩ := by
  subst hlater
  have hpaired := hawaits.paired.commit ⟨t.sequence, t.sender.headerCID, t.opened⟩
  refine ⟨⟨hpaired.suite, hpaired.key, hpaired.iv, hpaired.sn, hpaired.epoch,
    hpaired.hasConnectionID, hpaired.connectionID_mem, hpaired.connectionID_nil,
    hpaired.prefixFree⟩, fun sequence hmem => ?_, ?_⟩
  · rcases mem_append.mp hmem with hold | hnew
    · exact Nat.lt_succ_of_lt (hawaits.below sequence hold)
    · exact Nat.lt_succ_of_le (mem_singleton.mp hnew).le
  · have hexpected := lt_expectedAfter (mem_append_right history.accepted
      (mem_singleton_self t.sequence))
    exact Nat.le_add_right_of_le hexpected

theorem readACKs_of_seals (hpos : 0 < size) (hsize : size ≤ 64) (hexact : Exact size history)
    (hseals : Seals P ref recordTypeACK store (chunks.map marshalCanonicalACKInto) records next)
    (hawaits : Awaits (store.read ref) history)
    (hchunks : ∀ chunk ∈ chunks, Acknowledgeable chunk ∧ (history.cipher.plaintextLimit ≠ 0 →
      2 + 16 * chunk.length + 1 ≤ history.cipher.plaintextLimit)) :
    readACKs P history (records.map (·.packet)) = .ok chunks := by
  induction chunks generalizing store records history with
  | nil =>
    cases hseals
    rfl
  | cons chunk chunks ih =>
    obtain ⟨⟨hchunk, hlimit⟩, hrest⟩ := forall_mem_cons.mp hchunks
    rw [map_cons] at hseals
    obtain _ | @⟨_, _, _, _, records, href, hsealable, hseals⟩ := hseals
    have hlength : chunk.length ≤ 4095 := by
      have hcontent := hsealable.content_le
      rw [marshalCanonicalACKInto_length, maxRecordContent] at hcontent
      omega
    let t : Transmission P := {
      sender := store.read ref
      contentType := recordTypeACK
      content := marshalCanonicalACKInto chunk
      sequence16 := true
      lengthPresent := true
      record := (store.read ref).protect P recordTypeACK (marshalCanonicalACKInto chunk) true true
      sealed := by
        rw [RecordCipher.sealWithHeader, RecordCipher.sealCheck_eq_ok_iff.mpr hsealable] }
    have hopen := hexact.open_transmission hpos hsize (t := t)
      ⟨hawaits.paired, fun hbounded => (marshalCanonicalACKInto_length chunk) ▸ hlimit hbounded⟩
      (hawaits.deliverable rfl) (.inr rfl)
    have hstep := step_transmission hopen
    rw [append_nil] at hopen hstep
    have hlater := ih (hexact.step hpos hsize history t.record.packet) hseals (by
      rw [hstep]
      refine hawaits.step (t := t) ?_
      rw [read_logRecord, read_write href]
      rfl) (by
      rw [hstep]
      exact hrest)
    rw [map_cons, readACKs]
    change (do
      let opened ← (history.cipher.openRecord P t.record.packet).1
      _) = _
    rw [hopen, ok_bind]
    change (parseACK (marshalCanonicalACKInto chunk) >>= _) = _
    rw [hchunk.parseACK_eq hlength, ok_bind, hlater]
    rfl

/-- Counting on does not change the length of the header. -/
theorem packet_length_of_seals {contentType : UInt8} {contents : List Bytes}
    (hseals : Seals P ref contentType store contents records next) :
    ∀ record ∈ records, record.packet.length = (store.read ref).headerLen16 +
      (store.read ref).suite.overhead + 1 + record.content.length := by
  induction hseals with
  | nil => exact nofun
  | cons href _ _ ih =>
    refine forall_mem_cons.mpr ⟨RecordCipher.protect_packet_length _ _, ?_⟩
    rwa [read_logRecord, read_write href] at ih

theorem maxACKEntries_spec {cipher : RecordCipher} (hroom : 0 < maxACKEntries cipher mtu)
    {count : Nat} (hcount : count ≤ maxACKEntries cipher mtu) :
    cipher.headerLen16 + cipher.suite.overhead + 1 + (2 + 16 * count) ≤ mtu ∧
      2 + 16 * count ≤ cipher.maxContent := by
  unfold maxACKEntries at hroom hcount
  omega

/-- The records fit, and a receiver that awaits them reads the numbers. -/
theorem wp_buildACKRecords_read (numbers : List RecordNumber) (mtu : Nat) (ref : CipherRef)
    (hnumbers : Acknowledgeable (canonicalRecordNumbers numbers)) (store : CipherStore) :
    wp (buildACKRecords P numbers mtu ref)
      (fun records _ => (∀ record ∈ records, record.packet.length ≤ mtu ∧
          record.content.length ≤ (store.read ref).maxContent) ∧
        ∀ size history, 0 < size → size ≤ 64 → Exact size history →
          Awaits (store.read ref) history → (history.cipher.plaintextLimit ≠ 0 →
            (store.read ref).maxContent < history.cipher.plaintextLimit) →
          ∃ chunks, readACKs P history (records.map (·.packet)) = .ok chunks ∧
            chunks.flatten = canonicalRecordNumbers numbers)
      (fun _ _ => True) store := by
  refine wp_mono (CipherStore.wp_buildACKRecords numbers mtu ref store) ?_ fun _ _ _ => trivial
  rintro records next ⟨hroom, chunks, hacks⟩
  constructor
  · intro record hrecord
    obtain ⟨content, hcontent, hlogged⟩ := hacks.seals.exists_logged hrecord
    obtain ⟨chunk, hchunk, rfl⟩ := mem_map.mp hcontent
    obtain ⟨hmtu, hmax⟩ := maxACKEntries_spec hroom (hacks.length_le chunk hchunk)
    rw [packet_length_of_seals hacks.seals record hrecord, hlogged.content_eq,
      marshalCanonicalACKInto_length]
    exact ⟨hmtu, hmax⟩
  · intro size history hpos hsize hexact hawaits hlimit
    refine ⟨chunks, readACKs_of_seals hpos hsize hexact hacks.seals hawaits ?_, hacks.flatten_eq⟩
    intro chunk hchunk
    obtain ⟨-, hmax⟩ := maxACKEntries_spec hroom (hacks.length_le chunk hchunk)
    refine ⟨hnumbers.sublist ?_, fun hbounded => ?_⟩
    · exact hacks.flatten_eq ▸ sublist_flatten_of_mem hchunk
    · exact (Nat.succ_le_succ hmax).trans (hlimit hbounded)

end Reading

/-- ACK building is exact. The numbers are sorted without repetitions on a copy, and every
array that was in memory is left as it was. Plaintext records are numbered one by one; they fit
the MTU and the record limit, and what is read from them is the sorted list. The same holds of
protected records, for any receiver that awaits them, whatever it opened before. -/
theorem ackRecords_exact (list : NumberSlice) (memory : List (List RecordNumber)) (mtu : Nat)
    (hfits : ∀ number ∈ list.read memory, number.Encodable) :
    let numbers := list.read memory
    let sorted := (canonicalSlice list memory).1.read (canonicalSlice list memory).2
    (memory <+: (canonicalSlice list memory).2 ∧ sorted.Pairwise Precedes ∧
      ∀ number, number ∈ sorted ↔ number ∈ numbers) ∧
    (∀ sequence records next, buildPlainACKRecords numbers mtu sequence = .ok records next →
      PlainACKs sorted mtu sequence records next) ∧
    ∀ P ref store records next, buildACKRecords P numbers mtu ref store = .ok records next →
      (∀ record ∈ records, record.packet.length ≤ mtu ∧
        record.content.length ≤ (store.read ref).maxContent) ∧
      ∀ configured size, normalizeReplayWindow configured = .ok size →
        ∀ cipher : RecordCipher, cipher.replay = newReplayWindow size → ∀ datagrams,
          let history := RunSystem.run (OpenHistory.step P) ⟨cipher, []⟩ datagrams
          Awaits (store.read ref) history → (history.cipher.plaintextLimit ≠ 0 →
            (store.read ref).maxContent < history.cipher.plaintextLimit) →
          ∃ chunks, readACKs P history (records.map (·.packet)) = .ok chunks ∧
            chunks.flatten = sorted := by
  intro numbers sorted
  obtain ⟨hsorted, hmemory⟩ := canonicalSlice_spec list memory
  have hcanonical : sorted = canonicalRecordNumbers numbers := hsorted
  have hnumbers : Acknowledgeable (canonicalRecordNumbers numbers) :=
    ⟨pairwise_canonicalRecordNumbers numbers,
      fun number hmem => hfits number (mem_canonicalRecordNumbers.mp hmem)⟩
  rw [hcanonical]
  refine ⟨⟨hmemory, hnumbers.increasing, fun _ => mem_canonicalRecordNumbers⟩, ?_, ?_⟩
  · intro sequence records next hrun
    exact post_of_wp (wp_buildPlainACKRecords mtu hnumbers sequence) hrun
  · intro P ref store records next hrun
    obtain ⟨hfit, hread⟩ := post_of_wp (wp_buildACKRecords_read numbers mtu ref hnumbers store) hrun
    refine ⟨hfit, fun configured size hconfig cipher hreplay datagrams => ?_⟩
    obtain ⟨hpos, hsize⟩ := normalizeReplayWindow_bounds hconfig
    exact hread size _ hpos hsize
      (RunSystem.run_invariant_all (OpenHistory.Exact.step hpos hsize)
        (OpenHistory.exact_start hreplay) datagrams)

theorem ackRecords_exact_repeated :
    let numbers : List RecordNumber := [⟨0, 2⟩, ⟨0, 1⟩, ⟨0, 2⟩]
    (∃ records, buildPlainACKRecords numbers 256 5 = .ok records 6 ∧
      PlainACKs [⟨0, 1⟩, ⟨0, 2⟩] 256 5 records 6) ∧
    ∃ records next, buildACKRecords .checksum numbers 256 0 ⟨[sampleCipher], []⟩ =
        .ok records next ∧
      ∃ chunks, readACKs .checksum ⟨sampleCipher, []⟩ (records.map (·.packet)) = .ok chunks ∧
        chunks.flatten = [⟨0, 1⟩, ⟨0, 2⟩] := by
  have hexact := ackRecords_exact ⟨0, 3⟩ [[⟨0, 2⟩, ⟨0, 1⟩, ⟨0, 2⟩]] 256
    (by unfold RecordNumber.Encodable; decide)
  refine ⟨⟨_, rfl, hexact.2.1 5 _ 6 rfl⟩, _, _, rfl, ?_⟩
  refine (hexact.2.2 .checksum 0 ⟨[sampleCipher], []⟩ _ _ rfl).2 0 64 rfl sampleCipher rfl [] ?_
    fun hbounded => absurd rfl hbounded
  exact ⟨⟨rfl, rfl, rfl, rfl, rfl, rfl, fun hhas => absurd hhas Bool.false_ne_true, fun _ => rfl,
    nofun⟩, nofun, Nat.zero_le _⟩

end Dtls13
