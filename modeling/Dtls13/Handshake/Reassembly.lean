import Mathlib.Data.List.AList
import Dtls13.Lib.WordBitmap
import Dtls13.Handshake.Fragment
import Dtls13.Handshake.Ack

/-! # Reassembly of handshake messages

Fragments of a message arrive in any order, repeated and overlapping. The
reassembler keeps what has arrived of each message that is not complete yet; a
complete message is handed out and forgotten.
-/

namespace Dtls13

open ByteCodec StateLogic WordBitmap List

/-- What has arrived of one message. `received` marks the positions of `data`
that are filled, in 64-bit words, and `count` counts the marks. -/
structure PartialMessage where
  typ : UInt8
  epoch : Nat
  hasEpoch : Bool
  firstRecord : RecordNumber
  lastRecord : RecordNumber
  hasRecord : Bool
  data : Bytes
  received : List (BitVec 64)
  count : Nat
  deriving DecidableEq, Repr

namespace PartialMessage

/-- No position from `start` to `stop` is marked. -/
def bitmapRangeClear (bitmap : List (BitVec 64)) (start stop : Nat) : Bool :=
  rangeClear bitmap start stop

/-- Marks the positions from `start` to `stop`. -/
def setBitmapRange (bitmap : List (BitVec 64)) (start stop : Nat) : List (BitVec 64) :=
  setRange bitmap start stop

/-- Overwrites the elements from `start` on. -/
def overwrite {α : Type} (xs : List α) (start : Nat) (ys : List α) : List α :=
  xs.take start ++ ys ++ xs.drop (start + ys.length)

def newPartialMessage (f : HandshakeFragment) (epoch : Nat) (isProtected : Bool) :
    PartialMessage where
  typ := f.typ
  epoch := epoch
  hasEpoch := isProtected
  firstRecord := ⟨0, 0⟩
  lastRecord := ⟨0, 0⟩
  hasRecord := false
  data := List.replicate f.length 0
  received := List.replicate ((f.length + 63) / 64) (BitVec.ofNat 64 0)
  count := 0

/-- A fragment must agree with the message begun, in its type, length and epoch. -/
def checkFragment (p : PartialMessage) (f : HandshakeFragment) (epoch : Nat)
    (isProtected : Bool) : Except Err Unit :=
  if p.typ != f.typ || p.data.length != f.length then
    .error (.protocolError "inconsistent handshake fragments")
  else if p.hasEpoch != isProtected || isProtected && p.epoch != epoch then
    .error (alertError alertUnexpectedMessage
      (.protocolError "handshake message fragments span a key change"))
  else .ok ()

/-- The range of record numbers the message arrived in. -/
def noteRecord (p : PartialMessage) (number : RecordNumber) : PartialMessage :=
  if p.hasRecord then
    { p with
      firstRecord := if recordNumberLess number p.firstRecord then number else p.firstRecord
      lastRecord := if recordNumberLess p.lastRecord number then number else p.lastRecord }
  else { p with firstRecord := number, lastRecord := number, hasRecord := true }

def note (p : PartialMessage) : Option RecordNumber → PartialMessage
  | some number => p.noteRecord number
  | none => p

/-- Byte by byte, where the range is not clear. What was filled before a byte
that differs stays filled. -/
def mergeBytes : PartialMessage → Nat → Bytes → Except Err Unit × PartialMessage
  | p, _, [] => (.ok (), p)
  | p, position, v :: rest =>
    let seen := testBit p.received position
    if seen && p.data.getD position 0 != v then
      (.error (.protocolError "overlapping handshake fragments differ"), p)
    else
      mergeBytes { p with
        data := p.data.set position v
        received := if seen then p.received else setBit p.received position
        count := if seen then p.count else p.count + 1 } (position + 1) rest

/-- Files the bytes of a fragment. -/
def fill (p : PartialMessage) (start : Nat) (body : Bytes) : Except Err Unit × PartialMessage :=
  if bitmapRangeClear p.received start (start + body.length) then
    (.ok (), { p with
      data := overwrite p.data start body
      received := setBitmapRange p.received start (start + body.length)
      count := p.count + body.length })
  else p.mergeBytes start body

end PartialMessage

/-- A message handed out, with the first and the last record that carried it. -/
structure CompletedMessage where
  body : Bytes
  firstRecord : RecordNumber
  lastRecord : RecordNumber
  deriving DecidableEq, Repr

structure Reassembler where
  messages : AList fun _ : Nat => PartialMessage
  maxSize : Nat
  maxMessages : Nat
  maxBytes : Nat
  allocated : Nat
  deriving DecidableEq

namespace Reassembler

def newReassemblerWithLimits (maxSize maxMessages maxBytes : Nat) : Reassembler :=
  ⟨∅, maxSize, maxMessages, maxBytes, 0⟩

def store (r : Reassembler) (sequence : Nat) (p : PartialMessage) : Reassembler :=
  { r with messages := r.messages.insert sequence p }

/-- Files a fragment of a message that has an entry. -/
def addToEntry (f : HandshakeFragment) (epoch : Nat) (isProtected : Bool)
    (number : Option RecordNumber) (p : PartialMessage) :
    EStateM Err Reassembler (Option CompletedMessage) := do
  ofExcept (p.checkFragment f epoch isProtected)
  let (result, filled) := (p.note number).fill f.offset f.body
  modify (·.store f.messageSequence filled)
  ofExcept result
  if filled.count = filled.data.length then do
    modify fun r => { r with
      messages := r.messages.erase f.messageSequence
      allocated := r.allocated - filled.data.length }
    pure (some ⟨filled.data, filled.firstRecord, filled.lastRecord⟩)
  else pure none

/-- A message that arrives whole needs no entry, but it is counted against the
limits like one that does. -/
def addAtEpochAndRecord (f : HandshakeFragment) (epoch : Nat) (isProtected : Bool)
    (number : Option RecordNumber) : EStateM Err Reassembler (Option CompletedMessage) := do
  let r ← get
  if r.maxSize < f.length then
    throw (.protocolError "handshake message exceeds configured limit")
  else match r.messages.lookup f.messageSequence with
    | some p => addToEntry f epoch isProtected number p
    | none =>
      if r.maxMessages ≤ r.messages.keys.length then
        throw (.protocolError "too many incomplete handshake messages")
      else if r.maxBytes < r.allocated + f.length then
        throw (.protocolError "handshake reassembly memory limit exceeded")
      else if f.isWhole then
        pure (some ⟨f.body, number.getD ⟨0, 0⟩, number.getD ⟨0, 0⟩⟩)
      else do
        let p := PartialMessage.newPartialMessage f epoch isProtected
        modify fun r => { r.store f.messageSequence p with allocated := r.allocated + f.length }
        addToEntry f epoch isProtected number p

def addProtectedRecord (f : HandshakeFragment) (number : RecordNumber) :
    EStateM Err Reassembler (Option CompletedMessage) :=
  addAtEpochAndRecord f number.epoch true (some number)

def hasIncompleteProtected (r : Reassembler) : Bool :=
  r.messages.entries.any fun entry => entry.2.hasEpoch

end Reassembler

/-! ## Filling an entry -/

namespace PartialMessage

theorem overwrite_length {α : Type} {xs ys : List α} {start : Nat}
    (hwithin : start + ys.length ≤ xs.length) : (overwrite xs start ys).length = xs.length := by
  simp only [overwrite, length_append, length_take, length_drop]
  omega

/-- Two states of one entry: filling changes only what has arrived. -/
structure SameMessage (p q : PartialMessage) : Prop where
  typ : q.typ = p.typ
  epoch : q.epoch = p.epoch
  hasEpoch : q.hasEpoch = p.hasEpoch
  firstRecord : q.firstRecord = p.firstRecord
  lastRecord : q.lastRecord = p.lastRecord
  hasRecord : q.hasRecord = p.hasRecord
  data_length : q.data.length = p.data.length

theorem SameMessage.trans {p q r : PartialMessage} (hpq : SameMessage p q)
    (hqr : SameMessage q r) : SameMessage p r where
  typ := hqr.typ.trans hpq.typ
  epoch := hqr.epoch.trans hpq.epoch
  hasEpoch := hqr.hasEpoch.trans hpq.hasEpoch
  firstRecord := hqr.firstRecord.trans hpq.firstRecord
  lastRecord := hqr.lastRecord.trans hpq.lastRecord
  hasRecord := hqr.hasRecord.trans hpq.hasRecord
  data_length := hqr.data_length.trans hpq.data_length

theorem mergeBytes_same (p : PartialMessage) (position : Nat) (body : Bytes) :
    SameMessage p (p.mergeBytes position body).2 := by
  induction body generalizing p position with
  | nil => exact ⟨rfl, rfl, rfl, rfl, rfl, rfl, rfl⟩
  | cons v rest ih =>
    simp only [mergeBytes]
    split_ifs
    · exact ⟨rfl, rfl, rfl, rfl, rfl, rfl, rfl⟩
    all_goals
      refine SameMessage.trans ?_ (ih _ _)
      exact ⟨rfl, rfl, rfl, rfl, rfl, rfl, length_set⟩

theorem fill_same {p : PartialMessage} {start : Nat} {body : Bytes}
    (hwithin : start + body.length ≤ p.data.length) : SameMessage p (p.fill start body).2 := by
  unfold fill
  split_ifs
  · exact ⟨rfl, rfl, rfl, rfl, rfl, rfl, overwrite_length hwithin⟩
  · exact mergeBytes_same p start body

/-- The first fragment of a message meets no filled position. -/
theorem fill_newPartialMessage (f : HandshakeFragment) (epoch : Nat) (isProtected : Bool)
    (number : RecordNumber) :
    ∃ filled, ((newPartialMessage f epoch isProtected).note (some number)).fill f.offset f.body =
      (.ok (), filled) ∧ filled.count = f.body.length := by
  have hclear : bitmapRangeClear (newPartialMessage f epoch isProtected).received f.offset
      (f.offset + f.body.length) = true :=
    (rangeClear_iff (by decide)).mpr fun i _ _ => bit_replicate _ i
  refine ⟨_, if_pos hclear, ?_⟩
  exact Nat.zero_add _

end PartialMessage

namespace Reassembler

/-- The errors of a fragment that a limit rejects. -/
def limitErrors : List Err :=
  [.protocolError "handshake message exceeds configured limit",
    .protocolError "too many incomplete handshake messages",
    .protocolError "handshake reassembly memory limit exceeded"]

/-- A limit rejects the fragment before anything is stored. -/
def rejects (r : Reassembler) (f : HandshakeFragment) : Bool :=
  r.maxSize < f.length || (r.messages.lookup f.messageSequence).isNone &&
    (r.maxMessages ≤ r.messages.keys.length || r.maxBytes < r.allocated + f.length)

/-- The message is complete and its entry is dropped. -/
def forget (r : Reassembler) (sequence length : Nat) : Reassembler :=
  { r with messages := r.messages.erase sequence, allocated := r.allocated - length }

variable {f : HandshakeFragment} {epoch : Nat} {isProtected : Bool}
  {number : Option RecordNumber} {r : Reassembler}
  {post : Option CompletedMessage → Reassembler → Prop} {fail : Err → Reassembler → Prop}

/-- Filing a fragment: it does not fit the entry, it differs from what arrived, it
completes the message, or the entry stays. -/
theorem wp_addToEntry {p : PartialMessage}
    (hcheck : ∀ err, p.checkFragment f epoch isProtected = .error err → fail err r)
    (hdiffer : ∀ err filled, p.checkFragment f epoch isProtected = .ok () →
      (p.note number).fill f.offset f.body = (.error err, filled) →
      fail err (r.store f.messageSequence filled))
    (hcomplete : ∀ filled, p.checkFragment f epoch isProtected = .ok () →
      (p.note number).fill f.offset f.body = (.ok (), filled) → filled.count = filled.data.length →
      post (some ⟨filled.data, filled.firstRecord, filled.lastRecord⟩)
        ((r.store f.messageSequence filled).forget f.messageSequence filled.data.length))
    (hmore : ∀ filled, p.checkFragment f epoch isProtected = .ok () →
      (p.note number).fill f.offset f.body = (.ok (), filled) → filled.count ≠ filled.data.length →
      post none (r.store f.messageSequence filled)) :
    wp (addToEntry f epoch isProtected number p) post fail r := by
  unfold addToEntry
  rw [wp_bind, wp_ofExcept]
  refine ⟨fun _ hok => ?_, hcheck⟩
  cases hfill : (p.note number).fill f.offset f.body with
  | mk result filled =>
    dsimp only
    rw [wp_bind, wp_modify, wp_bind, wp_ofExcept]
    refine ⟨fun _ hresult => ?_, fun err hresult => ?_⟩
    · subst hresult
      rw [wp_ite]
      exact ⟨fun hcount => hcomplete filled hok hfill hcount,
        fun hcount => hmore filled hok hfill hcount⟩
    · subst hresult
      exact hdiffer err filled hok hfill

/-- A fragment is rejected by a limit, or arrives whole, or is filed. -/
theorem wp_addAtEpochAndRecord
    (hreject : ∀ err ∈ limitErrors, r.rejects f = true → fail err r)
    (hwhole : r.messages.lookup f.messageSequence = none → r.rejects f = false →
      f.isWhole = true → post (some ⟨f.body, number.getD ⟨0, 0⟩, number.getD ⟨0, 0⟩⟩) r)
    (hfirst : r.messages.lookup f.messageSequence = none → r.rejects f = false →
      f.isWhole = false → wp (addToEntry f epoch isProtected number
        (PartialMessage.newPartialMessage f epoch isProtected)) post fail
        { r.store f.messageSequence (PartialMessage.newPartialMessage f epoch isProtected) with
          allocated := r.allocated + f.length })
    (hlater : ∀ p, r.messages.lookup f.messageSequence = some p → r.rejects f = false →
      wp (addToEntry f epoch isProtected number p) post fail r) :
    wp (addAtEpochAndRecord f epoch isProtected number) post fail r := by
  unfold addAtEpochAndRecord
  rw [wp_bind, wp_get, wp_ite]
  refine ⟨fun hlarge => hreject _ (by simp [limitErrors]) (by simp [rejects, hlarge]),
    fun hsmall => ?_⟩
  cases hlookup : r.messages.lookup f.messageSequence with
  | some p => exact hlater p hlookup (by simp [rejects, hlookup, hsmall])
  | none =>
    simp only [wp_ite]
    refine ⟨fun hmany => hreject _ (by simp [limitErrors]) (by simp [rejects, hlookup, hmany]),
      fun hfew => ⟨fun hbytes => hreject _ (by simp [limitErrors])
        (by simp [rejects, hlookup, hbytes]), fun hroom => ?_⟩⟩
    have hrejects : r.rejects f = false := by simp [rejects, hlookup, hsmall, hfew, hroom]
    exact ⟨hwhole hlookup hrejects, fun hpart =>
      hfirst hlookup hrejects (Bool.eq_false_iff.mpr hpart)⟩

/-! ## Entries -/

/-- What filing a fragment does to the entries. A message without an entry is
handed out only if the fragment is the whole message. -/
structure Filed (r : Reassembler) (f : HandshakeFragment) (completes : Bool)
    (next : Reassembler) : Prop where
  others : ∀ q ≠ f.messageSequence, next.messages.lookup q = r.messages.lookup q
  accepted : r.rejects f = false
  entry : next.messages.lookup f.messageSequence = none ↔ completes = true
  late : r.messages.lookup f.messageSequence = none → (completes = true ↔ f.isWhole = true)

/-- A fragment that is not taken: a limit rejects it, or it contradicts the entry
of its message. -/
structure Refused (r : Reassembler) (f : HandshakeFragment) (next : Reassembler) : Prop where
  others : ∀ q ≠ f.messageSequence, next.messages.lookup q = r.messages.lookup q
  late : r.messages.lookup f.messageSequence = none → r.rejects f = true ∧ next = r

theorem lookup_store_ne {sequence q : Nat} (hne : q ≠ sequence) (p : PartialMessage) :
    (r.store sequence p).messages.lookup q = r.messages.lookup q := AList.lookup_insert_ne hne

@[simp] theorem lookup_store (sequence : Nat) (p : PartialMessage) :
    (r.store sequence p).messages.lookup sequence = some p := AList.lookup_insert _

theorem lookup_forget_ne {sequence q : Nat} (hne : q ≠ sequence) (length : Nat) :
    (r.forget sequence length).messages.lookup q = r.messages.lookup q := AList.lookup_erase_ne hne

@[simp] theorem lookup_forget (sequence length : Nat) :
    (r.forget sequence length).messages.lookup sequence = none := AList.lookup_erase _ _

theorem checkFragment_newPartialMessage (f : HandshakeFragment) (epoch : Nat) (isProtected : Bool) :
    (PartialMessage.newPartialMessage f epoch isProtected).checkFragment f epoch isProtected =
      .ok () := by
  simp [PartialMessage.checkFragment, PartialMessage.newPartialMessage]

/-- The first fragment of a message that does not arrive whole leaves an entry. -/
theorem wp_addToEntry_first {number : RecordNumber} (hpart : f.isWhole = false)
    (hwithin : f.offset + f.body.length ≤ f.length)
    (hpost : ∀ filled, post none (r.store f.messageSequence filled)) :
    wp (addToEntry f epoch isProtected (some number)
      (PartialMessage.newPartialMessage f epoch isProtected)) post fail r := by
  obtain ⟨filled, hfill, hcount⟩ :=
    PartialMessage.fill_newPartialMessage f epoch isProtected number
  have hcheck := checkFragment_newPartialMessage f epoch isProtected
  have hlength : filled.data.length = f.length := by
    have hroom : f.offset + f.body.length ≤ ((PartialMessage.newPartialMessage f epoch
        isProtected).note (some number)).data.length := by
      simpa [PartialMessage.newPartialMessage, PartialMessage.note, PartialMessage.noteRecord]
        using hwithin
    have hsame := PartialMessage.fill_same hroom
    rw [hfill] at hsame
    simpa [PartialMessage.newPartialMessage, PartialMessage.note, PartialMessage.noteRecord]
      using hsame.data_length
  refine wp_addToEntry (fun err herror => ?_) (fun err other _ herror => ?_)
    (fun other _ hother hcomplete => ?_) fun other _ _ _ => hpost other
  · rw [hcheck] at herror
    exact absurd herror (by simp)
  · rw [hfill] at herror
    exact absurd herror (by simp)
  · -- A count that reaches the length would make the fragment the whole message.
    rw [hfill] at hother
    obtain ⟨-, rfl⟩ := Prod.mk.inj hother
    rw [hlength, hcount] at hcomplete
    have hzero : f.offset = 0 := by omega
    simp [HandshakeFragment.isWhole, hzero, hcomplete] at hpart

theorem wp_addProtectedRecord {number : RecordNumber}
    (hwithin : f.offset + f.body.length ≤ f.length) :
    wp (addProtectedRecord f number) (fun result => Filed r f result.isSome)
      (fun _ => Refused r f) r := by
  refine wp_addAtEpochAndRecord (fun err _ hrejects => ⟨fun _ _ => rfl, fun _ => ⟨hrejects, rfl⟩⟩)
    (fun hnone haccepted hwhole => ?_) (fun hnone haccepted hpart => ?_)
    fun p hsome haccepted => ?_
  · exact ⟨fun _ _ => rfl, haccepted, by simp [hnone], fun _ => by simp [hwhole]⟩
  · refine wp_addToEntry_first hpart hwithin fun filled => ?_
    refine ⟨fun q hne => ?_, haccepted, by simp, fun _ => by simp [hpart]⟩
    rw [lookup_store_ne hne]
    exact lookup_store_ne hne _
  · have hlate : r.messages.lookup f.messageSequence ≠ none := by simp [hsome]
    refine wp_addToEntry (fun err _ => ⟨fun _ _ => rfl, fun hnone => absurd hnone hlate⟩)
      (fun err filled _ _ => ⟨fun q hne => lookup_store_ne hne _,
        fun hnone => absurd hnone hlate⟩) (fun filled _ _ _ => ?_) fun filled _ _ _ => ?_
    · refine ⟨fun q hne => ?_, haccepted, by simp, fun hnone => absurd hnone hlate⟩
      rw [lookup_forget_ne hne]
      exact lookup_store_ne hne _
    · exact ⟨fun q hne => lookup_store_ne hne _, haccepted, by simp,
        fun hnone => absurd hnone hlate⟩

theorem hasIncompleteProtected_iff : r.hasIncompleteProtected = true ↔
    ∃ q p, r.messages.lookup q = some p ∧ p.hasEpoch = true := by
  unfold hasIncompleteProtected
  rw [any_eq_true]
  constructor
  · rintro ⟨entry, hmem, hepoch⟩
    exact ⟨entry.1, entry.2, AList.mem_lookup_iff.mpr hmem, hepoch⟩
  · rintro ⟨q, p, hlookup, hepoch⟩
    exact ⟨⟨q, p⟩, AList.mem_lookup_iff.mp hlookup, hepoch⟩

end Reassembler

end Dtls13
