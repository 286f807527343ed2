import Mathlib.Data.Nat.Dist
import Mathlib.Tactic.NormNum
import Dtls13.Record.ReplayExact

/-! # Opening what was sealed

Sealing and opening are written separately: one builds a header, authenticates
it and masks the sequence number; the other finds its way through a datagram of
unknown shape. The lemmas follow the order in which opening undoes sealing:
layout, mask, sequence reconstruction, inner type, replay window.
-/

namespace Dtls13

open ByteCodec RunSystem RecordCipher List

/-- Half the range of the truncated sequence number. -/
def halfRange (sequence16 : Bool) : Nat := 2 ^ (8 * RecordCipher.sequenceWidth sequence16) / 2

/-- Reconstruction inverts truncation near the expected number. The lower bound
is strict: at distance exactly half the code picks the number above. -/
theorem reconstructSequence_of_near {expected sequence : Nat} {sequence16 : Bool}
    (hsequence : sequence < 2 ^ 48) (hlow : expected < sequence + halfRange sequence16)
    (hhigh : sequence ≤ expected + halfRange sequence16) :
    reconstructSequence expected (sequence % 256 ^ sequenceWidth sequence16)
      (8 * sequenceWidth sequence16) = sequence := by
  cases sequence16 <;> norm_num [reconstructSequence, halfRange, sequenceWidth]
      at hlow hhigh hsequence ⊢ <;>
    split_ifs <;> omega

/-! ### The words of the code -/

/-- The reconstruction as the code computes it, on 64-bit words. -/
def reconstructSequenceWord (expected truncated bits : UInt64) : UInt64 :=
  let window := (1 : UInt64) <<< bits
  let half := window / 2
  let mask := window - 1
  let candidate := (expected &&& ~~~mask) ||| truncated
  if candidate + half ≤ expected ∧ candidate + window < (1 : UInt64) <<< 48 then
    candidate + window
  else if expected + half < candidate ∧ window ≤ candidate then candidate - window
  else candidate

/-- Replacing the low bits of a word. -/
theorem toNat_replaceLow {bits : Nat} (word : UInt64) {low mask : UInt64}
    (hmask : mask.toNat = 2 ^ bits - 1) (hlow : low.toNat < 2 ^ bits) :
    ((word &&& ~~~mask) ||| low).toNat = word.toNat / 2 ^ bits * 2 ^ bits + low.toNat := by
  have hclear : (word &&& ~~~mask).toNat = word.toNat / 2 ^ bits * 2 ^ bits := by
    apply Nat.eq_of_testBit_eq
    intro i
    have hnot : (~~~mask).toNat = 2 ^ 64 - (mask.toNat + 1) := by
      have hsize : UInt64.size = 2 ^ 64 := rfl
      rw [UInt64.toNat_not, hsize, Nat.sub_sub, Nat.add_comm 1]
    rw [← Nat.shiftRight_eq_div_pow, ← Nat.shiftLeft_eq, Nat.testBit_shiftLeft,
      Nat.testBit_shiftRight, UInt64.toNat_and, Nat.testBit_and, hnot,
      Nat.testBit_two_pow_sub_succ mask.toNat_lt, hmask, Nat.testBit_two_pow_sub_one]
    by_cases hfirst : i < bits
    · simp [hfirst]
    · by_cases hlast : i < 64
      · simp [hlast, hfirst, Nat.add_sub_cancel' (not_lt.mp hfirst), not_lt.mp hfirst]
      · have hzero : word.toNat.testBit i = false :=
          Nat.testBit_lt_two_pow (word.toNat_lt.trans_le
            (Nat.pow_le_pow_right (by decide) (not_lt.mp hlast)))
        simp [hlast, hzero, Nat.add_sub_cancel' (not_lt.mp hfirst)]
  rw [UInt64.toNat_or, hclear, Nat.mul_comm, Nat.two_pow_add_eq_or_of_lt hlow]

/-- The 64-bit arithmetic of the code is the one of the natural numbers: no sum wraps around. -/
theorem toNat_reconstructSequenceWord {expected truncated : UInt64} {bits : Nat}
    (hbits : bits = 8 ∨ bits = 16) (hexpected : expected.toNat ≤ 2 ^ 48)
    (htruncated : truncated.toNat < 2 ^ bits) :
    (reconstructSequenceWord expected truncated (.ofNat bits)).toNat =
      reconstructSequence expected.toNat truncated.toNat bits := by
  have hwindow : ((1 : UInt64) <<< UInt64.ofNat bits).toNat = 2 ^ bits := by
    rcases hbits with rfl | rfl <;> rfl
  have hsmall : 2 ^ bits ≤ 2 ^ 16 := Nat.pow_le_pow_right (by decide) (by omega)
  have hpos := Nat.two_pow_pos bits
  unfold reconstructSequenceWord reconstructSequence
  dsimp only
  generalize (1 : UInt64) <<< UInt64.ofNat bits = window at hwindow ⊢
  have hmask : (window - 1).toNat = 2 ^ bits - 1 := by
    rw [UInt64.toNat_sub_of_le _ _ (UInt64.le_iff_toNat_le.mpr (hwindow ▸ hpos)), hwindow]
    rfl
  have hcandidate := toNat_replaceLow expected hmask htruncated
  have hhalf : (window / 2).toNat = 2 ^ bits / 2 := by
    rw [UInt64.toNat_div, hwindow]
    rfl
  have hle := Nat.div_mul_le_self expected.toNat (2 ^ bits)
  rw [← hcandidate]
  generalize (expected &&& ~~~(window - 1)) ||| truncated = candidate at hcandidate ⊢
  have hlast : ((1 : UInt64) <<< 48).toNat = 2 ^ 48 := rfl
  have hadd : ∀ left right : UInt64, left.toNat ≤ 2 ^ 49 → right.toNat ≤ 2 ^ 16 →
      (left + right).toNat = left.toNat + right.toNat := by
    intro left right hleft hright
    rw [UInt64.toNat_add]
    omega
  have hcandidate_half := hadd candidate (window / 2) (by omega) (by omega)
  have hcandidate_window := hadd candidate window (by omega) (by omega)
  have hexpected_half := hadd expected (window / 2) (by omega) (by omega)
  simp only [UInt64.le_iff_toNat_le, UInt64.lt_iff_toNat_lt, hcandidate_half, hcandidate_window,
    hexpected_half, hhalf, hlast, hwindow]
  split_ifs with habove hbelow
  · rw [hcandidate_window, hwindow]
  · rw [UInt64.toNat_sub_of_le _ _ (UInt64.le_iff_toNat_le.mpr (hwindow ▸ hbelow.2)), hwindow]
  · rfl

/-- Reconstruction is exact near the expected number, and gives the nearest number anywhere,
the larger one of two; the sums of the code stay below `2 ^ 64`. -/
theorem reconstructSequence_exact (expected truncated : UInt64) (bits : Nat)
    (hbits : bits = 8 ∨ bits = 16) (hexpected : expected.toNat ≤ 2 ^ 48)
    (htruncated : truncated.toNat < 2 ^ bits) :
    let sequence := (reconstructSequenceWord expected truncated (.ofNat bits)).toNat
    (∀ s < 2 ^ 48, s % 2 ^ bits = truncated.toNat → expected.toNat < s + 2 ^ bits / 2 →
      s ≤ expected.toNat + 2 ^ bits / 2 → sequence = s) ∧
    (expected.toNat < 2 ^ 48 → sequence < 2 ^ 48 ∧ sequence % 2 ^ bits = truncated.toNat ∧
      ∀ other < 2 ^ 48, other % 2 ^ bits = truncated.toNat →
        Nat.dist sequence expected.toNat < Nat.dist other expected.toNat ∨
          Nat.dist sequence expected.toNat = Nat.dist other expected.toNat ∧ other ≤ sequence) ∧
    expected.toNat / 2 ^ bits * 2 ^ bits + truncated.toNat + 2 ^ bits < 2 ^ 64 ∧
      expected.toNat + 2 ^ bits / 2 < 2 ^ 64 := by
  dsimp only
  rw [toNat_reconstructSequenceWord hbits hexpected htruncated]
  generalize expected.toNat = expected at *
  generalize truncated.toNat = truncated at *
  unfold Nat.dist
  rcases hbits with rfl | rfl <;> norm_num [reconstructSequence] at hexpected htruncated ⊢ <;>
    split_ifs <;> refine ⟨fun s _ _ _ _ => ?_, fun _ => ⟨?_, ?_, fun other _ _ => ?_⟩, ?_, ?_⟩ <;>
    omega

/-- The number after the end of a range of 16 bits. -/
theorem reconstructSequence_exact_nextRange : (reconstructSequenceWord 65535 0 16).toNat = 65536 :=
  (reconstructSequence_exact 65535 0 16 (.inr rfl) (by decide) (by decide)).1 65536 (by decide) rfl
    (by decide) (by decide)

/-! ## Masking -/

theorem maskHeader_append (mask : UInt8 × UInt8) (front middle back : Bytes) :
    maskHeader mask front.length middle.length (front ++ middle ++ back) =
      front ++ xorBytes middle [mask.1, mask.2] ++ back := by
  simp [maskHeader, append_assoc, drop_append]

namespace RecordCipher

variable {P : Primitives} {c : RecordCipher}

@[simp] theorem headerCID_length : c.headerCID.length = c.connectionID.length := by
  unfold headerCID
  split <;> simp

@[simp] theorem sealedText_length (contentType : UInt8) (content : Bytes)
    (sequence16 lengthPresent : Bool) :
    (c.sealedText P contentType content sequence16 lengthPresent).length =
      content.length + 1 + c.suite.overhead := by
  simp [sealedText]

/-- The packet by parts, the sequence number masked. -/
theorem protect_packet (contentType : UInt8) (content : Bytes) (sequence16 lengthPresent : Bool) :
    (c.protect P contentType content sequence16 lengthPresent).packet =
      (c.headerFirst sequence16 lengthPresent :: c.headerCID) ++
        xorBytes (beBytes (sequenceWidth sequence16) c.nextSequence)
          [(c.sealedMask P contentType content sequence16 lengthPresent).1,
            (c.sealedMask P contentType content sequence16 lengthPresent).2] ++
        lengthField lengthPresent (content.length + 1 + c.suite.overhead) ++
        c.sealedText P contentType content sequence16 lengthPresent := by
  have hmask := maskHeader_append (c.sealedMask P contentType content sequence16 lengthPresent)
    (c.headerFirst sequence16 lengthPresent :: c.headerCID)
    (beBytes (sequenceWidth sequence16) c.nextSequence)
    (lengthField lengthPresent (content.length + 1 + c.suite.overhead))
  rw [length_cons, headerCID_length, beBytes_length, Nat.add_comm] at hmask
  rw [← hmask]
  rfl

theorem protect_packet_length (contentType : UInt8) (content : Bytes) :
    (c.protect P contentType content true true).packet.length =
      c.headerLen16 + c.suite.overhead + 1 + content.length := by
  rw [protect_packet]
  simp [headerLen16, sequenceWidth, lengthField]
  omega

/-- Opening measures the parts of a record correctly. A record without length
field is the last one of its datagram. -/
theorem measureRecord_parts (first : UInt8) (cid masked text rest : Bytes)
    {sequence16 lengthPresent : Bool} (hseq : (first &&& 0x08 != 0) = sequence16)
    (hlen : (first &&& 0x04 != 0) = lengthPresent)
    (hmasked : masked.length = sequenceWidth sequence16)
    (hmin : c.suite.overhead + 1 ≤ text.length) (hmax : text.length ≤ maxCiphertextLen)
    (hrest : lengthPresent = true ∨ rest = []) :
    c.measureRecord (first :: cid ++ masked ++ lengthField lengthPresent text.length ++ text ++
        rest) cid =
      .ok ⟨cid, sequenceWidth sequence16,
        1 + cid.length + sequenceWidth sequence16 + (if lengthPresent then 2 else 0),
        text.length⟩ := by
  have hsample : ¬text.length < sequenceProtectionSampleSize := by
    simp only [CipherSuite.overhead, sequenceProtectionSampleSize] at hmin ⊢
    omega
  have hfits : text.length < 256 ^ 2 := by
    simp only [maxCiphertextLen] at hmax
    omega
  have hdrop : (first :: cid ++ masked ++ lengthField lengthPresent text.length ++ text ++
      rest).drop (1 + cid.length + sequenceWidth sequence16) =
      lengthField lengthPresent text.length ++ (text ++ rest) := by
    have hfront : 1 + cid.length + sequenceWidth sequence16 = (first :: cid ++ masked).length := by
      simp [hmasked]
      omega
    rw [hfront, append_assoc _ text, append_assoc (first :: cid ++ masked), drop_left]
  have hfield : (lengthField lengthPresent text.length).length =
      if lengthPresent then 2 else 0 := by
    cases lengthPresent <;> simp [lengthField]
  have htotal : (first :: cid ++ masked ++ lengthField lengthPresent text.length ++ text ++
      rest).length = 1 + cid.length + sequenceWidth sequence16 +
        (if lengthPresent then 2 else 0) + text.length + rest.length := by
    simp only [length_append, length_cons, hmasked, hfield]
    omega
  unfold measureRecord
  simp only [cons_append, headD_cons, hseq, hlen] at hdrop htotal ⊢
  rw [hdrop, htotal]
  cases lengthPresent with
  | false =>
    obtain rfl : rest = [] := by simpa using hrest
    simp [hmin.not_gt, hmax.not_gt, hsample]
  | true =>
    have hn : beNat ((lengthField true text.length ++ (text ++ rest)).take 2) = text.length := by
      rw [lengthField, if_pos rfl, take_left' (beBytes_length 2 _), beNat_beBytes 2 hfits]
    simp only [if_true, hn]
    simp [hmin.not_gt, hmax.not_gt, hsample]
    omega

/-- A first byte that fits the cipher leaves only the length checks. -/
theorem locateRecord_of_first {first : UInt8} {body cid : Bytes} (hbody : body ≠ [])
    (hfixed : first &&& 0xe0 = 0x20) (hepoch : (first &&& 0x03).toNat = c.epoch % 4)
    (hcid : (first &&& 0x10 != 0) = c.hasConnectionID)
    (hmatch : c.hasConnectionID = true → c.matchConnectionID body = some cid)
    (hnil : c.hasConnectionID = false → cid = []) :
    c.locateRecord (first :: body) = c.measureRecord (first :: body) cid := by
  have hlong : ¬(first :: body).length < 2 := by
    cases body with
    | nil => exact absurd rfl hbody
    | cons _ _ => simp
  unfold locateRecord
  rw [if_neg hlong]
  simp only [headD_cons, tail_cons, hfixed, matchesUnifiedEpoch, hepoch, hcid,
    bne_self_eq_false, beq_self_eq_true, Bool.false_eq_true, if_false, Bool.and_self, Bool.not_true]
  cases hhas : c.hasConnectionID with
  | false => rw [hnil hhas, if_neg (by simp)]
  | true => rw [if_pos rfl, hmatch hhas]

/-- No member of the accepted set continues another one. -/
def PrefixFree (cids : List Bytes) : Prop :=
  ∀ left ∈ cids, ∀ right ∈ cids, prefixRelated left right = true → left = right

/-- In a prefix-free set the ID at the front of a header is the only match. -/
theorem matchConnectionID_append {cid : Bytes} (hmem : cid ∈ c.acceptedCIDs)
    (hfree : PrefixFree c.acceptedCIDs) (rest : Bytes) :
    c.matchConnectionID (cid ++ rest) = some cid := by
  unfold matchConnectionID
  cases hfind : c.acceptedCIDs.find? fun candidate => candidate.isPrefixOf (cid ++ rest) with
  | none =>
    have hnone := List.find?_eq_none.mp hfind cid hmem
    simp at hnone
  | some found =>
    have hfound : found <+: cid ++ rest := by simpa using List.find?_some hfind
    have hrelated : prefixRelated found cid = true := by
      have hor := prefix_or_prefix_of_prefix hfound (prefix_append cid rest)
      simpa [prefixRelated] using hor
    rw [hfree found (mem_of_find?_eq_some hfind) cid hmem hrelated]

/-- A receiver that holds the sender's keys and accepts its connection ID. -/
structure Paired (sender receiver : RecordCipher) : Prop where
  suite : receiver.suite = sender.suite
  key : receiver.key = sender.key
  iv : receiver.iv = sender.iv
  sn : receiver.sn = sender.sn
  epoch : receiver.epoch = sender.epoch
  hasConnectionID : receiver.hasConnectionID = sender.hasConnectionID
  connectionID_mem : sender.hasConnectionID = true → sender.connectionID ∈ receiver.acceptedCIDs
  connectionID_nil : sender.hasConnectionID = false → sender.connectionID = []
  prefixFree : PrefixFree receiver.acceptedCIDs

variable {sender receiver : RecordCipher}

theorem Paired.nonce_eq (hpaired : Paired sender receiver) (sequence : Nat) :
    receiver.nonce sequence = sender.nonce sequence := by
  simp only [nonce, hpaired.iv]

variable {contentType : UInt8}

/-- The receiver sees the sender's header where the sender put it. -/
theorem Paired.locateRecord_packet (hpaired : Paired sender receiver)
    {content : Bytes} (hsealable : sender.Sealable contentType content.length)
    (sequence16 : Bool) {lengthPresent : Bool} {rest : Bytes}
    (hrest : lengthPresent = true ∨ rest = []) : receiver.locateRecord
        ((sender.protect P contentType content sequence16 lengthPresent).packet ++ rest) =
      .ok ⟨sender.headerCID, sequenceWidth sequence16,
        1 + sender.headerCID.length + sequenceWidth sequence16 + (if lengthPresent then 2 else 0),
        content.length + 1 + sender.suite.overhead⟩ := by
  obtain ⟨hfixed, hepoch, hcid, hseq, hlen⟩ := headerFirst_bits (c := sender) sequence16
    lengthPresent
  have hwidth : sequenceWidth sequence16 ≤ 2 := by cases sequence16 <;> decide
  have hmax : content.length + 1 + sender.suite.overhead ≤ maxCiphertextLen := by
    have hle := hsealable.content_le
    simp only [maxRecordContent, maxCiphertextLen, CipherSuite.overhead] at hle ⊢
    omega
  have hmeasure := measureRecord_parts (c := receiver)
    (sender.headerFirst sequence16 lengthPresent) sender.headerCID
    (xorBytes (beBytes (sequenceWidth sequence16) sender.nextSequence)
      [(sender.sealedMask P contentType content sequence16 lengthPresent).1,
        (sender.sealedMask P contentType content sequence16 lengthPresent).2])
    (sender.sealedText P contentType content sequence16 lengthPresent) rest hseq hlen
    (by simp [hwidth]) (by rw [sealedText_length, hpaired.suite]; omega)
    (by rwa [sealedText_length]) hrest
  rw [sealedText_length] at hmeasure
  rw [protect_packet, ← hmeasure]
  refine locateRecord_of_first ?_ hfixed (by rw [hepoch, hpaired.epoch])
    (by rw [hcid, hpaired.hasConnectionID]) ?_ ?_
  · intro hnil
    have hlength := congrArg List.length hnil
    simp only [append_eq, length_append, sealedText_length, length_nil] at hlength
    omega
  · intro hhas
    rw [hpaired.hasConnectionID] at hhas
    have hheader : sender.headerCID = sender.connectionID := by simp [headerCID, hhas]
    rw [hheader]
    simp only [append_eq, append_assoc]
    exact matchConnectionID_append (hpaired.connectionID_mem hhas) hpaired.prefixFree _
  · intro hhas
    rw [hpaired.hasConnectionID] at hhas
    simp [headerCID, hhas, hpaired.connectionID_nil hhas]

theorem ne_zero_of_validInnerContentType
    (hvalid : validInnerContentType contentType = true) : contentType ≠ 0 := by
  rintro rfl
  exact absurd hvalid (by decide)

/-- The receiver recovers content and type from a plaintext within its limit. -/
theorem innerPlaintext_append {content : Bytes}
    (hsealable : sender.Sealable contentType content.length)
    (hlimit : receiver.plaintextLimit ≠ 0 → content.length + 1 ≤ receiver.plaintextLimit) :
    receiver.innerPlaintext (content ++ [contentType]) = .ok (content, contentType) := by
  have hzero := ne_zero_of_validInnerContentType hsealable.valid_type
  have hnonempty : ¬(content.reverse.isEmpty &&
      (contentType == recordTypeHandshake || contentType == recordTypeAlert)) = true := by
    simpa using fun hempty : content = [] => hsealable.nonempty (by simp [hempty])
  have hfits : ¬(decide (maxRecordContent + 1 < (content ++ [contentType]).length) ||
      (receiver.plaintextLimit != 0 &&
        decide (receiver.plaintextLimit < (content ++ [contentType]).length))) = true := by
    simpa using ⟨hsealable.content_le, hlimit⟩
  unfold innerPlaintext
  rw [if_neg hfits]
  simp only [reverse_append, reverse_cons, reverse_nil, nil_append,
    singleton_append, dropWhile_cons, beq_iff_eq, hzero, if_false]
  rw [if_neg (by simp [hsealable.valid_type]), if_neg hnonempty, reverse_reverse]

/-- The receiver decodes what the sender sealed, if the reconstruction of the
truncated number is right. -/
theorem Paired.decodeRecord_packet (hpaired : Paired sender receiver)
    {content : Bytes} (hsealable : sender.Sealable contentType content.length)
    (hlimit : receiver.plaintextLimit ≠ 0 → content.length + 1 ≤ receiver.plaintextLimit)
    {sequence16 lengthPresent : Bool} {rest : Bytes} (hrest : lengthPresent = true ∨ rest = [])
    (hnear : reconstructSequence receiver.replay.nextExpected
      (sender.nextSequence % 256 ^ sequenceWidth sequence16) (8 * sequenceWidth sequence16) =
        sender.nextSequence) :
    let packet := (sender.protect P contentType content sequence16 lengthPresent).packet
    receiver.decodeRecord P (packet ++ rest) =
      .decoded ⟨sender.nextSequence, sender.headerCID, ⟨content, contentType, packet.length⟩⟩ := by
  have hwidth : sequenceWidth sequence16 ≤ 2 := by cases sequence16 <;> decide
  have hfield : (lengthField lengthPresent (content.length + 1 + sender.suite.overhead)).length =
      if lengthPresent then 2 else 0 := by
    cases lengthPresent <;> simp [lengthField]
  set mask := sender.sealedMask P contentType content sequence16 lengthPresent with hmask
  set text := sender.sealedText P contentType content sequence16 lengthPresent with htext
  set front := sender.headerFirst sequence16 lengthPresent :: sender.headerCID with hfront
  set number := beBytes (sequenceWidth sequence16) sender.nextSequence with hnumber
  set field := lengthField lengthPresent (content.length + 1 + sender.suite.overhead) with hfieldDef
  have hpacket : (sender.protect P contentType content sequence16 lengthPresent).packet =
      front ++ xorBytes number [mask.1, mask.2] ++ field ++ text := protect_packet ..
  have hmasked : (xorBytes number [mask.1, mask.2]).length = sequenceWidth sequence16 := by
    simp [hnumber, hwidth]
  have hheaderLen : 1 + sender.headerCID.length + sequenceWidth sequence16 +
      (if lengthPresent then 2 else 0) =
      (front ++ xorBytes number [mask.1, mask.2] ++ field).length := by
    simp only [length_append, hmasked, hfield, hfront, length_cons]
    omega
  have htextLen : content.length + 1 + sender.suite.overhead = text.length := by simp [htext]
  have hlocate := hpaired.locateRecord_packet (P := P) hsealable sequence16 hrest
  rw [hheaderLen, htextLen, hpacket, append_assoc _ text] at hlocate
  -- Removing the mask gives back the header the sender authenticated.
  have hunmask : maskHeader mask (1 + sender.headerCID.length) (sequenceWidth sequence16)
      (front ++ xorBytes number [mask.1, mask.2] ++ field) = front ++ number ++ field := by
    have happend := maskHeader_append mask front (xorBytes number [mask.1, mask.2]) field
    rw [xorBytes_cancel (by simp [hnumber, hwidth]), hmasked, hfront, length_cons,
      Nat.add_comm] at happend
    exact happend
  have htruncated : ((front ++ number ++ field).drop (1 + sender.headerCID.length)).take
      (sequenceWidth sequence16) = number := by
    have hoffset : 1 + sender.headerCID.length = front.length := by
      rw [hfront, length_cons, Nat.add_comm]
    have hcount : sequenceWidth sequence16 = number.length := by simp [hnumber]
    rw [hoffset, hcount, append_assoc, drop_left, take_left]
  have haead : P.aeadOpen receiver.suite receiver.key (receiver.nonce sender.nextSequence) text
      (front ++ number ++ field) = some (content ++ [contentType]) := by
    rw [hpaired.suite, hpaired.key, hpaired.nonce_eq]
    exact P.aeadOpen_aeadSeal ..
  have hmaskEq : sequenceMask P receiver.suite receiver.sn
      (text.take sequenceProtectionSampleSize) = mask := by
    rw [hpaired.suite, hpaired.sn]
    rfl
  dsimp only
  rw [hpacket, append_assoc _ text]
  unfold decodeRecord
  rw [hlocate]
  dsimp only [RecordLayout.sequenceOffset]
  rw [take_left, drop_left, take_left, hmaskEq, hunmask, htruncated, hnumber,
    beNat_beBytes_mod, hnear, if_neg hsealable.sequence_lt.not_ge, haead]
  dsimp only
  rw [innerPlaintext_append hsealable hlimit]
  simp only [length_append]

theorem Paired.commit (hpaired : Paired sender receiver) (record : DecodedRecord) :
    Paired sender (receiver.commit record) :=
  ⟨hpaired.suite, hpaired.key, hpaired.iv, hpaired.sn, hpaired.epoch, hpaired.hasConnectionID,
    hpaired.connectionID_mem, hpaired.connectionID_nil, hpaired.prefixFree⟩

end RecordCipher

/-! ## Transmissions and their delivery -/

/-- A record some sending cipher sealed. -/
structure Transmission (P : Primitives) where
  sender : RecordCipher
  contentType : UInt8
  content : Bytes
  sequence16 : Bool
  lengthPresent : Bool
  record : SealedRecord
  sealed : (sender.sealWithHeader P contentType content sequence16 lengthPresent).1 = .ok record

namespace Transmission

variable {P : Primitives} (t : Transmission P)

def sequence : Nat := t.sender.nextSequence

/-- What opening the transmission should return. -/
def opened : OpenedRecord := ⟨t.content, t.contentType, t.record.packet.length⟩

theorem sealable : t.sender.Sealable t.contentType t.content.length ∧
    t.record = t.sender.protect P t.contentType t.content t.sequence16 t.lengthPresent := by
  obtain ⟨hcheck, hrecord, _⟩ := sealWithHeader_ok (Prod.ext t.sealed rfl)
  exact ⟨sealCheck_eq_ok_iff.mp hcheck, hrecord⟩

/-- The receiver can read the transmission: keys, connection ID and limit fit. -/
structure ReadableBy (receiver : RecordCipher) : Prop where
  paired : t.sender.Paired receiver
  within_limit : receiver.plaintextLimit ≠ 0 → t.content.length + 1 ≤ receiver.plaintextLimit

/-- The number a receiver expects after the numbers it accepted. -/
def expectedAfter (accepted : List Nat) : Nat :=
  match accepted.max? with
  | none => 0
  | some largest => largest + 1

/-- The transmission is new to a receiver, above the floor of its replay window
and within half the truncated range of the number it expects. -/
structure Deliverable (size : Nat) (accepted : List Nat) : Prop where
  fresh : t.sequence ∉ accepted
  above_floor : ∀ largest, accepted.max? = some largest → largest < t.sequence + size
  near_below : expectedAfter accepted ≤ t.sequence + halfRange t.sequence16
  near_above : t.sequence ≤ expectedAfter accepted + halfRange t.sequence16

/-- Each transmission is deliverable after the ones before it. -/
def AllDeliverable (size : Nat) : List Nat → List (Transmission P) → Prop
  | _, [] => True
  | accepted, t :: rest =>
    t.Deliverable size accepted ∧ AllDeliverable size (accepted ++ [t.sequence]) rest

end Transmission

theorem ReplayWindow.Tracks.nextExpected_eq {w : ReplayWindow} {accepted : List Nat}
    (htracks : w.Tracks accepted) : w.nextExpected = Transmission.expectedAfter accepted := by
  unfold ReplayWindow.nextExpected Transmission.expectedAfter
  cases hinit : w.initialized with
  | false =>
    have hempty : accepted = [] := by
      by_contra hne
      simp [htracks.initialized_iff.mpr hne] at hinit
    simp [hempty]
  | true =>
    have hmax : accepted.max? = some w.latest :=
      List.max?_eq_some_iff.mpr ⟨htracks.latest_mem hinit, htracks.le_latest⟩
    simp [hmax]

namespace OpenHistory

variable {P : Primitives}

/-- Opening records until the datagram is used up. No datagram has more records
than bytes, so its length is enough fuel. -/
def openAll (P : Primitives) :
    Nat → OpenHistory → Bytes → Except Err (List OpenedRecord) × OpenHistory
  | 0, history, _ => (.ok [], history)
  | fuel + 1, history, datagram =>
    if datagram = [] then (.ok [], history)
    else match (history.cipher.openRecord P datagram).1 with
    | .error err => (.error err, history.step P datagram)
    | .ok opened =>
      match openAll P fuel (history.step P datagram) (datagram.drop opened.consumed) with
      | (.ok others, final) => (.ok (opened :: others), final)
      | (.error err, final) => (.error err, final)

/-- A deliverable record at the front of a datagram is opened and accepted. -/
theorem Exact.open_transmission {size : Nat} (hpos : 0 < size) (hsize : size ≤ 64)
    {history : OpenHistory} (hexact : Exact size history) {t : Transmission P}
    (hreadable : t.ReadableBy history.cipher) (hdeliver : t.Deliverable size history.accepted)
    {rest : Bytes} (hrest : t.lengthPresent = true ∨ rest = []) :
    history.cipher.openRecord P (t.record.packet ++ rest) =
      (.ok t.opened, history.cipher.commit ⟨t.sequence, t.sender.headerCID, t.opened⟩) := by
  obtain ⟨hsealable, hrecord⟩ := t.sealable
  have hadmits : history.cipher.replay.check t.sequence = true := by
    rw [hexact.tracks.check_iff (hexact.size_eq ▸ hpos) (hexact.size_eq ▸ hsize),
      hexact.size_eq, admits_iff_above_floor]
    exact ⟨hdeliver.fresh, hdeliver.above_floor⟩
  have hhalf : 64 < halfRange t.sequence16 := by cases t.sequence16 <;> decide
  -- The window is shorter than half the range, so the lower distance is never exactly half.
  have hlow : Transmission.expectedAfter history.accepted <
      t.sequence + halfRange t.sequence16 := by
    unfold Transmission.expectedAfter
    cases hmax : history.accepted.max? with
    | none => dsimp only; omega
    | some largest =>
      have hfloor := hdeliver.above_floor largest hmax
      dsimp only
      omega
  have hnear := reconstructSequence_of_near hsealable.sequence_lt hlow hdeliver.near_above
  rw [← hexact.tracks.nextExpected_eq] at hnear
  have hdecode := hreadable.paired.decodeRecord_packet (P := P) hsealable hreadable.within_limit
    hrest hnear
  rw [← hrecord] at hdecode
  exact openRecord_of_decoded hdecode hadmits

theorem step_transmission {history : OpenHistory} {t : Transmission P} {rest : Bytes}
    (hopen : history.cipher.openRecord P (t.record.packet ++ rest) =
      (.ok t.opened, history.cipher.commit ⟨t.sequence, t.sender.headerCID, t.opened⟩)) :
    history.step P (t.record.packet ++ rest) =
      ⟨history.cipher.commit ⟨t.sequence, t.sender.headerCID, t.opened⟩,
        history.accepted ++ [t.sequence]⟩ := by
  rw [step, hopen]
  rfl

theorem packet_ne_nil (t : Transmission P) : t.record.packet ≠ [] := by
  rw [t.sealable.2, protect_packet]
  simp

/-- The induction over the records of a datagram. -/
theorem openAll_transmissions {size : Nat} (hpos : 0 < size) (hsize : size ≤ 64)
    (transmissions : List (Transmission P)) (history : OpenHistory) (hexact : Exact size history)
    (hreadable : ∀ t ∈ transmissions, t.ReadableBy history.cipher)
    (hdeliver : Transmission.AllDeliverable size history.accepted transmissions)
    (hlengths : ∀ t ∈ transmissions.dropLast, t.lengthPresent = true) (fuel : Nat)
    (hfuel : transmissions.length ≤ fuel) :
    let outcome := openAll P fuel history (transmissions.map (·.record.packet)).flatten
    outcome.1 = .ok (transmissions.map (·.opened)) ∧
      outcome.2.accepted = history.accepted ++ transmissions.map (·.sequence) := by
  induction transmissions generalizing history fuel with
  | nil => cases fuel <;> simp [openAll]
  | cons t others ih =>
    obtain ⟨hhead, htail⟩ := hdeliver
    obtain ⟨fuel, rfl⟩ : ∃ smaller, fuel = smaller + 1 :=
      Nat.exists_eq_succ_of_ne_zero (by simp at hfuel; omega)
    have hrest : t.lengthPresent = true ∨ (others.map (·.record.packet)).flatten = [] := by
      cases others with
      | nil => exact .inr rfl
      | cons next later => exact .inl (hlengths t (by simp))
    have hopen := hexact.open_transmission hpos hsize (hreadable t (by simp)) hhead hrest
    have hstep := step_transmission hopen
    have hnext := ih (history.step P (t.record.packet ++ (others.map (·.record.packet)).flatten))
      (hexact.step hpos hsize _ _)
      (by
        intro other hmem
        have hother := hreadable other (mem_cons_of_mem _ hmem)
        rw [hstep]
        exact ⟨hother.paired.commit _, hother.within_limit⟩)
      (by rw [hstep]; exact htail)
      (by
        intro other hmem
        cases others with
        | nil => simp at hmem
        | cons next later => exact hlengths other (mem_cons_of_mem _ hmem))
      fuel (by simp at hfuel; omega)
    have hne : t.record.packet ++ (others.map (·.record.packet)).flatten ≠ [] := by
      simp [packet_ne_nil t]
    have hdrop : (t.record.packet ++ (others.map (·.record.packet)).flatten).drop
        t.opened.consumed = (others.map (·.record.packet)).flatten :=
      drop_left
    dsimp only at hnext ⊢
    rw [map_cons, flatten_cons, openAll, if_neg hne, hopen]
    dsimp only
    rw [hdrop]
    generalize openAll P fuel _ _ = outcome at hnext ⊢
    obtain ⟨result, final⟩ := outcome
    obtain ⟨rfl, haccepted⟩ := hnext
    refine ⟨rfl, ?_⟩
    rw [haccepted, hstep, map_cons, append_assoc, singleton_append]

/-- Records sealed under the receiver's keys come back exactly. The receiver has
any history of opened byte strings behind it; a single record may be followed by
other bytes when it carries its length, and a datagram of several records is
opened into exactly their list. -/
theorem sealedRecords_roundTrip (configured : Int) (size : Nat)
    (hconfig : normalizeReplayWindow configured = .ok size) (cipher : RecordCipher)
    (hreplay : cipher.replay = newReplayWindow size) (datagrams : List Bytes) :
    let history := run (step P) ⟨cipher, []⟩ datagrams
    (∀ (t : Transmission P) (rest : Bytes), t.ReadableBy history.cipher →
      t.Deliverable size history.accepted → (t.lengthPresent = true ∨ rest = []) →
      (history.cipher.openRecord P (t.record.packet ++ rest)).1 = .ok t.opened ∧
      (history.step P (t.record.packet ++ rest)).accepted = history.accepted ++ [t.sequence]) ∧
    (∀ transmissions : List (Transmission P), (∀ t ∈ transmissions, t.ReadableBy history.cipher) →
      Transmission.AllDeliverable size history.accepted transmissions →
      (∀ t ∈ transmissions.dropLast, t.lengthPresent = true) →
      let datagram := (transmissions.map (·.record.packet)).flatten
      let outcome := openAll P datagram.length history datagram
      outcome.1 = .ok (transmissions.map (·.opened)) ∧
        outcome.2.accepted = history.accepted ++ transmissions.map (·.sequence)) := by
  obtain ⟨hpos, hsize⟩ := normalizeReplayWindow_bounds hconfig
  have hexact : Exact size (run (step P) ⟨cipher, []⟩ datagrams) :=
    run_invariant_all (Exact.step hpos hsize) (exact_start hreplay) datagrams
  generalize run (step P) ⟨cipher, []⟩ datagrams = history at hexact
  constructor
  · intro t rest hreadable hdeliver hrest
    have hopen := hexact.open_transmission hpos hsize hreadable hdeliver hrest
    exact ⟨congrArg Prod.fst hopen, congrArg OpenHistory.accepted (step_transmission hopen)⟩
  · intro transmissions hreadable hdeliver hlengths
    refine openAll_transmissions hpos hsize transmissions history hexact hreadable hdeliver
      hlengths _ ?_
    clear hreadable hdeliver hlengths
    induction transmissions with
    | nil => simp
    | cons t others ih =>
      have hpacket := List.length_pos_of_ne_nil (packet_ne_nil t)
      simp only [List.map_cons, List.flatten_cons, List.length_append, List.length_cons]
      omega

/-- A record of the sample cipher, with one byte of application data. -/
def sampleTransmission (sequence16 lengthPresent : Bool) (sequence : Nat)
    (hsequence : sequence < 2 ^ 24) : Transmission .checksum where
  sender := { sampleCipher with nextSequence := sequence }
  contentType := recordTypeApplicationData
  content := [0]
  sequence16 := sequence16
  lengthPresent := lengthPresent
  record := { sampleCipher with nextSequence := sequence }.protect .checksum
    recordTypeApplicationData [0] sequence16 lengthPresent
  sealed := by
    have hcheck : { sampleCipher with nextSequence := sequence }.sealCheck
        recordTypeApplicationData 1 = .ok () :=
      RecordCipher.sealCheck_eq_ok_iff.mpr ⟨(by decide : 3 ≤ maxSendingEpoch),
        by dsimp only; omega, hsequence, rfl, by decide, by decide, fun hlimit => absurd rfl hlimit⟩
    rw [RecordCipher.sealWithHeader, List.length_singleton, hcheck]

/-- Two records in one datagram, the later one first and the other one without
its length. -/
theorem sealedRecords_roundTrip_reordered :
    let transmissions := [sampleTransmission true true 1 (by decide),
      sampleTransmission false false 0 (by decide)]
    let datagram := (transmissions.map (·.record.packet)).flatten
    (openAll .checksum datagram.length ⟨sampleCipher, []⟩ datagram).1 =
      .ok (transmissions.map (·.opened)) := by
  have hreadable : ∀ sequence16 lengthPresent sequence hsequence,
      (sampleTransmission sequence16 lengthPresent sequence hsequence).ReadableBy
        sampleCipher := by
    intro sequence16 lengthPresent sequence hsequence
    refine ⟨⟨rfl, rfl, rfl, rfl, rfl, rfl, fun hhas => absurd hhas Bool.false_ne_true,
      fun _ => rfl, ?_⟩, fun hlimit => absurd rfl hlimit⟩
    intro left hmem
    cases hmem
  refine ((sealedRecords_roundTrip 0 64 rfl sampleCipher rfl []).2 _ ?_ ?_ ?_).1
  · intro t hmem
    rcases List.mem_pair.mp hmem with rfl | rfl
    · exact hreadable _ _ _ _
    · exact hreadable _ _ _ _
  · refine ⟨⟨by decide, by decide, by decide, by decide⟩,
      ⟨by decide, ?_, by decide, by decide⟩, trivial⟩
    intro largest hmax
    obtain rfl : 1 = largest := Option.some.inj hmax
    decide
  · decide

end OpenHistory

end Dtls13
