import Mathlib.Data.List.Nodup
import Dtls13.Lib.StateLogic
import Dtls13.Record.Cipher

/-! # Shared sending ciphers

The sending ciphers of one endpoint are shared: the traffic state, the sending
side of the connection and every outstanding flight hold a pointer to the cipher
they seal with. A store keeps the ciphers, a reference names one of them, and the
log lists every record that was sealed.
-/

namespace Dtls13

open ByteCodec StateLogic RecordCipher List

abbrev CipherRef := Nat

structure CipherStore where
  ciphers : List RecordCipher
  log : List SealedRecord

/-- What a reference that was never allocated reads. -/
def missingCipher : RecordCipher where
  suite := .aes128GcmSha256
  epoch := 0
  key := []
  iv := List.replicate 12 0
  sn := []
  nextSequence := 0
  lastOpened := 0
  replay := newReplayWindow 64
  authFailures := 0
  connectionID := []
  hasConnectionID := false
  plaintextLimit := 0
  acceptedCIDs := []
  lastConnectionID := []
  iv_length := rfl

namespace CipherStore

variable (P : Primitives)

def read (store : CipherStore) (ref : CipherRef) : RecordCipher :=
  store.ciphers.getD ref missingCipher

def write (store : CipherStore) (ref : CipherRef) (cipher : RecordCipher) : CipherStore :=
  { store with ciphers := store.ciphers.set ref cipher }

/-- A new cipher and its reference. -/
def allocate (store : CipherStore) (cipher : RecordCipher) : CipherRef × CipherStore :=
  (store.ciphers.length, { store with ciphers := store.ciphers ++ [cipher] })

/-- The store once the cipher behind a reference sealed a record. -/
def logRecord (store : CipherStore) (ref : CipherRef) (record : SealedRecord)
    (next : RecordCipher) : CipherStore :=
  { store.write ref next with log := store.log ++ [record] }

/-- Seals a record with the cipher behind a reference. -/
def sealRecord (ref : CipherRef) (contentType : UInt8) (content : Bytes) :
    EStateM Err CipherStore SealedRecord := fun store =>
  if ref < store.ciphers.length then
    match (store.read ref).sealWithHeader P contentType content true true with
    | (.ok record, next) => .ok record (store.logRecord ref record next)
    | (.error err, next) => .error err (store.write ref next)
  else .error (.protocolError "missing flight record cipher") store

/-- Changes the cipher behind a reference. -/
def updateCipher (ref : CipherRef) (f : RecordCipher → Except Err RecordCipher) :
    EStateM Err CipherStore Unit := fun store =>
  match f (store.read ref) with
  | .ok cipher => .ok () (store.write ref cipher)
  | .error err => .error err store

variable {store : CipherStore} {ref : CipherRef} {p : SealedRecord → Prop} {cipher : RecordCipher}
  {record : SealedRecord} {contentType : UInt8} {content : Bytes}

@[simp] theorem read_write (href : ref < store.ciphers.length) (cipher : RecordCipher) :
    (store.write ref cipher).read ref = cipher := by
  simp [read, write, href]

theorem read_write_of_ne {ref other : CipherRef} (hne : ref ≠ other)
    (cipher : RecordCipher) : (store.write ref cipher).read other = store.read other := by
  simp [read, write, List.getElem?_set_ne hne]

@[simp] theorem write_length (store : CipherStore) (ref : CipherRef) (cipher : RecordCipher) :
    (store.write ref cipher).ciphers.length = store.ciphers.length := length_set

@[simp] theorem logRecord_log (store : CipherStore) (ref : CipherRef) (record : SealedRecord)
    (next : RecordCipher) : (store.logRecord ref record next).log = store.log ++ [record] := rfl

@[simp] theorem logRecord_length (store : CipherStore) (ref : CipherRef) (record : SealedRecord)
    (next : RecordCipher) :
    (store.logRecord ref record next).ciphers.length = store.ciphers.length := length_set

@[simp] theorem read_logRecord (store : CipherStore) (ref : CipherRef) (record : SealedRecord)
    (next : RecordCipher) (other : CipherRef) :
    (store.logRecord ref record next).read other = (store.write ref next).read other := rfl

theorem write_read (store : CipherStore) (ref : CipherRef) :
    store.write ref (store.read ref) = store := by
  rcases Nat.lt_or_ge ref store.ciphers.length with href | href
  · simp [write, read, href]
  · simp [write, set_eq_of_length_le href]

@[simp] theorem allocate_length (store : CipherStore) (cipher : RecordCipher) :
    (store.allocate cipher).2.ciphers.length = store.ciphers.length + 1 := by
  simp [allocate]

theorem read_allocate_of_lt (href : ref < store.ciphers.length) (cipher : RecordCipher) :
    (store.allocate cipher).2.read ref = store.read ref := by
  simp [read, allocate, List.getElem?_append_left href]

@[simp] theorem read_allocate_new (store : CipherStore) (cipher : RecordCipher) :
    (store.allocate cipher).2.read store.ciphers.length = cipher := by
  simp [read, allocate]

/-! ## What sealing does to the store -/

/-- A cipher later in its life: same keys, and a counter that did not go back. -/
structure Older (before after : RecordCipher) : Prop where
  suite : after.suite = before.suite
  epoch : after.epoch = before.epoch
  key : after.key = before.key
  iv : after.iv = before.iv
  sn : after.sn = before.sn
  sequence_le : before.nextSequence ≤ after.nextSequence

theorem Older.refl (cipher : RecordCipher) : Older cipher cipher :=
  ⟨rfl, rfl, rfl, rfl, rfl, le_rfl⟩

theorem Older.trans {first second third : RecordCipher} (h₁ : Older first second)
    (h₂ : Older second third) : Older first third :=
  ⟨h₂.suite.trans h₁.suite, h₂.epoch.trans h₁.epoch, h₂.key.trans h₁.key, h₂.iv.trans h₁.iv,
    h₂.sn.trans h₁.sn, h₁.sequence_le.trans h₂.sequence_le⟩

/-- The record was sealed by the cipher, with a number it has left behind. -/
structure SealedBy (cipher : RecordCipher) (record : SealedRecord) : Prop where
  epoch : record.epoch = cipher.epoch
  sequence_lt : record.sequence < cipher.nextSequence
  key : record.key = cipher.key
  nonce : record.nonce = nonceInto cipher.iv record.sequence
  epoch_le : record.epoch ≤ maxSendingEpoch
  below_2_48 : record.sequence < 2 ^ 48
  below_limit : record.sequence < cipher.suite.recordLimit
  epoch_bits : (record.packet.headD 0 &&& 0x03).toNat = record.epoch % 4

theorem SealedBy.older {before after : RecordCipher}
    (hsealed : SealedBy before record) (holder : Older before after) : SealedBy after record where
  epoch := hsealed.epoch.trans holder.epoch.symm
  sequence_lt := hsealed.sequence_lt.trans_le holder.sequence_le
  key := hsealed.key.trans holder.key.symm
  nonce := by rw [holder.iv, hsealed.nonce]
  epoch_le := hsealed.epoch_le
  below_2_48 := hsealed.below_2_48
  below_limit := by rw [holder.suite]; exact hsealed.below_limit
  epoch_bits := hsealed.epoch_bits

/-- The global invariant: one cipher for each epoch, every logged record sealed
by one of the ciphers, and no record number twice. -/
structure Sound (store : CipherStore) : Prop where
  epoch_inj : ∀ ref < store.ciphers.length, ∀ other < store.ciphers.length,
    (store.read ref).epoch = (store.read other).epoch → ref = other
  sealed : ∀ record ∈ store.log, ∃ ref < store.ciphers.length, SealedBy (store.read ref) record
  numbers_nodup : (store.log.map SealedRecord.number).Nodup

/-- A logged record of a cipher's epoch lies below the cipher's counter. -/
theorem Sound.sequence_lt (hsound : store.Sound)
    (href : ref < store.ciphers.length) (hmem : record ∈ store.log)
    (hepoch : record.epoch = (store.read ref).epoch) :
    record.sequence < (store.read ref).nextSequence := by
  obtain ⟨owner, howner, hsealed⟩ := hsound.sealed record hmem
  obtain rfl := hsound.epoch_inj owner howner ref href (hsealed.epoch.symm.trans hepoch)
  exact hsealed.sequence_lt

/-- The store after some sealing: the same ciphers, older, and a longer log. The
new records are of kind `p` and have later numbers than the ones before. -/
structure Grows (p : SealedRecord → Prop) (before after : CipherStore) : Prop where
  length_eq : after.ciphers.length = before.ciphers.length
  older : ∀ ref, Older (before.read ref) (after.read ref)
  log : before.log <+: after.log
  sound : before.Sound → after.Sound
  added : before.Sound → ∀ record ∈ after.log, record ∈ before.log ∨
    p record ∧ ∀ old ∈ before.log, old.epoch = record.epoch → old.sequence < record.sequence

section Grows

variable {p : SealedRecord → Prop}

theorem Grows.refl (store : CipherStore) : Grows p store store :=
  ⟨rfl, fun _ => Older.refl _, prefix_rfl, id, fun _ _ hmem => .inl hmem⟩

/-- The store after some operations of the sending side, which may have made new
ciphers as well. -/
structure Extends (p : SealedRecord → Prop) (before after : CipherStore) : Prop where
  length_le : before.ciphers.length ≤ after.ciphers.length
  older : ∀ ref < before.ciphers.length, Older (before.read ref) (after.read ref)
  log : before.log <+: after.log
  sound : before.Sound → after.Sound
  added : before.Sound → ∀ record ∈ after.log, record ∈ before.log ∨
    p record ∧ ∀ old ∈ before.log, old.epoch = record.epoch → old.sequence < record.sequence

theorem Grows.extends {before after : CipherStore} (hgrows : Grows p before after) :
    Extends p before after :=
  ⟨hgrows.length_eq.ge, fun ref _ => hgrows.older ref, hgrows.log, hgrows.sound, hgrows.added⟩

theorem Extends.refl (store : CipherStore) : Extends p store store := (Grows.refl store).extends

theorem Extends.trans {first second third : CipherStore} (h₁ : Extends p first second)
    (h₂ : Extends p second third) : Extends p first third where
  length_le := h₁.length_le.trans h₂.length_le
  older ref href := (h₁.older ref href).trans (h₂.older ref (href.trans_le h₁.length_le))
  log := h₁.log.trans h₂.log
  sound := h₂.sound ∘ h₁.sound
  added hsound record hmem := by
    rcases h₂.added (h₁.sound hsound) record hmem with hmiddle | ⟨hp, hlater⟩
    · exact h₁.added hsound record hmiddle
    · exact .inr ⟨hp, fun old hold => hlater old (h₁.log.subset hold)⟩

theorem Grows.trans {first second third : CipherStore} (h₁ : Grows p first second)
    (h₂ : Grows p second third) : Grows p first third :=
  have hextends := h₁.extends.trans h₂.extends
  ⟨h₂.length_eq.trans h₁.length_eq, fun ref => (h₁.older ref).trans (h₂.older ref),
    hextends.log, hextends.sound, hextends.added⟩

end Grows

theorem older_write (href : ref < store.ciphers.length) (holder : Older (store.read ref) cipher)
    (other : CipherRef) : Older (store.read other) ((store.write ref cipher).read other) := by
  by_cases heq : ref = other
  · subst heq
    rwa [read_write href]
  · rw [read_write_of_ne heq]
    exact Older.refl _

/-- Replacing a cipher by an older self keeps the invariant. -/
theorem Sound.write (hsound : store.Sound) (href : ref < store.ciphers.length)
    (holder : Older (store.read ref) cipher) : (store.write ref cipher).Sound where
  epoch_inj first hfirst second hsecond heq := by
    rw [write_length] at hfirst hsecond
    rw [(older_write href holder first).epoch, (older_write href holder second).epoch] at heq
    exact hsound.epoch_inj first hfirst second hsecond heq
  sealed record hmem := by
    obtain ⟨owner, howner, hsealed⟩ := hsound.sealed record hmem
    exact ⟨owner, by rwa [write_length], hsealed.older (older_write href holder owner)⟩
  numbers_nodup := hsound.numbers_nodup

theorem grows_write (href : ref < store.ciphers.length) (holder : Older (store.read ref) cipher) :
    Grows p store (store.write ref cipher) :=
  ⟨write_length .., older_write href holder, prefix_rfl,
    fun hsound => hsound.write href holder, fun _ _ hmem => .inl hmem⟩

/-- A protected record has the cipher's next number, and the counter moves past it. -/
theorem protect_sealedBy (hsealable : cipher.Sealable contentType content.length) :
    SealedBy { cipher with nextSequence := cipher.nextSequence + 1 }
      (cipher.protect P contentType content true true) :=
  ⟨rfl, Nat.lt_succ_self _, rfl, rfl, hsealable.epoch_le, hsealable.sequence_lt,
    hsealable.below_limit, by
      rw [protect_packet_head]
      exact (headerFirst_bits true true).2.1⟩

theorem older_count (cipher : RecordCipher) :
    Older cipher { cipher with nextSequence := cipher.nextSequence + 1 } :=
  ⟨rfl, rfl, rfl, rfl, rfl, Nat.le_succ _⟩

/-- The record just sealed is new to the log. -/
theorem Sound.log_append (hsound : store.Sound)
    {next : RecordCipher} (href : ref < store.ciphers.length)
    (hsealed : SealedBy next record) (holder : Older (store.read ref) next)
    (hsequence : record.sequence = (store.read ref).nextSequence) :
    (store.logRecord ref record next).Sound where
  epoch_inj := (hsound.write href holder).epoch_inj
  sealed logged hmem := by
    rcases mem_append.mp hmem with hold | hnew
    · exact (hsound.write href holder).sealed logged hold
    · rw [mem_singleton.mp hnew]
      exact ⟨ref, by rwa [logRecord_length], by rwa [read_logRecord, read_write href]⟩
  numbers_nodup := by
    rw [logRecord_log, map_append]
    refine nodup_append.mpr ⟨hsound.numbers_nodup, nodup_singleton _, ?_⟩
    intro number hmem last hlast heq
    obtain ⟨logged, hlogged, rfl⟩ := mem_map.mp hmem
    rw [map_singleton, mem_singleton] at hlast
    have hnumber : logged.number = record.number := heq.trans hlast
    have hepoch : logged.epoch = (store.read ref).epoch := by
      rw [← holder.epoch, ← hsealed.epoch]
      exact congrArg RecordNumber.epoch hnumber
    have hlt := hsound.sequence_lt href hlogged hepoch
    have hseq : logged.sequence = record.sequence := congrArg RecordNumber.sequence hnumber
    omega

/-- Sealing fails without effect, or logs the record the cipher protects. -/
theorem wp_sealRecord {post : SealedRecord → CipherStore → Prop} {fail : Err → CipherStore → Prop}
    (hok : ref < store.ciphers.length → (store.read ref).Sealable contentType content.length →
      post ((store.read ref).protect P contentType content true true)
        (store.logRecord ref ((store.read ref).protect P contentType content true true)
          { store.read ref with nextSequence := (store.read ref).nextSequence + 1 }))
    (hfail : ∀ err, (ref < store.ciphers.length →
      (store.read ref).sealCheck contentType content.length = .error err) → fail err store) :
    wp (sealRecord P ref contentType content) post fail store := by
  unfold wp sealRecord
  by_cases href : ref < store.ciphers.length
  · rw [if_pos href]
    unfold RecordCipher.sealWithHeader
    cases hcheck : (store.read ref).sealCheck contentType content.length with
    | error err =>
      dsimp only
      rw [write_read]
      exact hfail err fun _ => hcheck
    | ok _ => exact hok href (sealCheck_eq_ok_iff.mp hcheck)
  · rw [if_neg href]
    exact hfail _ fun hlt => absurd hlt href

/-- Logging the record a cipher protects. -/
theorem grows_logRecord (href : ref < store.ciphers.length)
    (hsealable : (store.read ref).Sealable contentType content.length)
    (hp : p ((store.read ref).protect P contentType content true true)) :
    Grows p store (store.logRecord ref
      ((store.read ref).protect P contentType content true true)
      { store.read ref with nextSequence := (store.read ref).nextSequence + 1 }) where
  length_eq := write_length ..
  older := older_write href (older_count _)
  log := prefix_append _ _
  sound hsound := hsound.log_append href (protect_sealedBy P hsealable) (older_count _) rfl
  added hsound record hmem := by
    rcases mem_append.mp hmem with hold | hnew
    · exact .inl hold
    · obtain rfl := mem_singleton.mp hnew
      exact .inr ⟨hp, fun old hold hepoch => hsound.sequence_lt href hold hepoch⟩

/-- The record was logged under the cipher's epoch. -/
structure Logged (store : CipherStore) (ref : CipherRef) (contentType : UInt8) (content : Bytes)
    (record : SealedRecord) : Prop where
  ref_lt : ref < store.ciphers.length
  mem : record ∈ store.log
  epoch : record.epoch = (store.read ref).epoch
  contentType_eq : record.contentType = contentType
  content_eq : record.content = content

theorem Logged.extend {before after : CipherStore}
    (hlogged : Logged before ref contentType content record)
    (hextends : Extends p before after) : Logged after ref contentType content record :=
  ⟨hlogged.ref_lt.trans_le hextends.length_le, hextends.log.subset hlogged.mem,
    hlogged.epoch.trans (hextends.older ref hlogged.ref_lt).epoch.symm,
    hlogged.contentType_eq, hlogged.content_eq⟩

/-- Sealing adds a record of the given type and content, or nothing. -/
theorem wp_sealRecord_grows (store : CipherStore)
    (hp : ∀ record, record.contentType = contentType → record.content = content → p record) :
    wp (sealRecord P ref contentType content)
      (fun record next => Grows p store next ∧ Logged next ref contentType content record)
      (fun _ => Grows p store) store := by
  refine wp_sealRecord P (fun href hsealable => ?_) fun _ _ => Grows.refl store
  have hgrows := grows_logRecord P href hsealable (hp _ rfl rfl)
  exact ⟨hgrows, href.trans_eq hgrows.length_eq.symm,
    mem_append_right _ (mem_singleton_self _), (hgrows.older ref).epoch.symm, rfl, rfl⟩

theorem keeps_grows_sealRecord (ref : CipherRef) (contentType : UInt8) (content : Bytes)
    (hp : ∀ record, record.contentType = contentType → record.content = content → p record) :
    Keeps (Grows p) (sealRecord P ref contentType content) :=
  keeps_of_wp fun store => wp_sealRecord_grows P store hp

theorem wp_updateCipher {f : RecordCipher → Except Err RecordCipher}
    {post : Unit → CipherStore → Prop} {fail : Err → CipherStore → Prop}
    (hok : ∀ cipher, f (store.read ref) = .ok cipher → post () (store.write ref cipher))
    (hfail : ∀ err, f (store.read ref) = .error err → fail err store) :
    wp (updateCipher ref f) post fail store := by
  unfold wp updateCipher
  cases hf : f (store.read ref) with
  | ok cipher => exact hok cipher hf
  | error err => exact hfail err hf

theorem keeps_grows_updateCipher (ref : CipherRef) {f : RecordCipher → Except Err RecordCipher}
    (hf : ∀ before after, f before = .ok after → Older before after) :
    Keeps (Grows p) (updateCipher ref f) := by
  intro store
  refine wp_updateCipher (fun cipher hcipher => ?_) fun _ _ => Grows.refl store
  rcases Nat.lt_or_ge ref store.ciphers.length with href | href
  · exact grows_write href (hf _ _ hcipher)
  · rw [write, set_eq_of_length_le href]
    exact Grows.refl store

/-- A cipher of a new epoch keeps the invariant. -/
theorem Sound.allocate (hsound : store.Sound)
    (hfresh : ∀ ref < store.ciphers.length, (store.read ref).epoch ≠ cipher.epoch) :
    (store.allocate cipher).2.Sound where
  epoch_inj first hfirst second hsecond heq := by
    rw [allocate_length] at hfirst hsecond
    rcases Nat.lt_succ_iff_lt_or_eq.mp hfirst with hold₁ | rfl <;>
      rcases Nat.lt_succ_iff_lt_or_eq.mp hsecond with hold₂ | rfl
    · rw [read_allocate_of_lt hold₁, read_allocate_of_lt hold₂] at heq
      exact hsound.epoch_inj first hold₁ second hold₂ heq
    · rw [read_allocate_of_lt hold₁, read_allocate_new] at heq
      exact absurd heq (hfresh first hold₁)
    · rw [read_allocate_of_lt hold₂, read_allocate_new] at heq
      exact absurd heq.symm (hfresh second hold₂)
    · rfl
  sealed record hmem := by
    obtain ⟨owner, howner, hsealed⟩ := hsound.sealed record hmem
    refine ⟨owner, by rw [allocate_length]; omega, ?_⟩
    rwa [read_allocate_of_lt howner]
  numbers_nodup := hsound.numbers_nodup

theorem Extends.allocate (store : CipherStore)
    (hfresh : ∀ ref < store.ciphers.length, (store.read ref).epoch ≠ cipher.epoch) :
    Extends p store (store.allocate cipher).2 where
  length_le := (Nat.le_succ _).trans_eq (allocate_length ..).symm
  older ref href := by
    rw [read_allocate_of_lt href]
    exact Older.refl _
  log := prefix_rfl
  sound hsound := hsound.allocate hfresh
  added _ _ hmem := .inl hmem

/-! ## What was appended to the log -/

/-- The record has a later number than every logged record of its epoch. -/
def Later (store : CipherStore) (record : SealedRecord) : Prop :=
  ∀ old ∈ store.log, old.epoch = record.epoch → old.sequence < record.sequence

/-- What is appended to the log is new: its number does not occur before. -/
theorem Extends.appended {before after : CipherStore}
    {new : List SealedRecord} (hextends : Extends p before after) (hsound : before.Sound)
    (hlog : after.log = before.log ++ new) (hmem : record ∈ new) :
    p record ∧ Later before record := by
  have hnodup := (hextends.sound hsound).numbers_nodup
  rw [hlog, map_append] at hnodup
  have hmem' : record ∈ after.log := by
    rw [hlog]
    exact mem_append_right _ hmem
  rcases hextends.added hsound record hmem' with hold | hnew
  · exact absurd rfl ((nodup_append.mp hnodup).2.2 _ (mem_map_of_mem hold) _
      (mem_map_of_mem hmem))
  · exact hnew

/-! ## Records sealed one after the other -/

/-- The records of some contents, all of one type and sealed in order by one cipher. -/
inductive Seals (ref : CipherRef) (contentType : UInt8) :
    CipherStore → List Bytes → List SealedRecord → CipherStore → Prop
  | nil {store : CipherStore} : Seals ref contentType store [] [] store
  | cons {store next : CipherStore} {content : Bytes} {contents : List Bytes}
      {records : List SealedRecord} (href : ref < store.ciphers.length)
      (hsealable : (store.read ref).Sealable contentType content.length)
      (hrest : Seals ref contentType
        (store.logRecord ref ((store.read ref).protect P contentType content true true)
          { store.read ref with nextSequence := (store.read ref).nextSequence + 1 })
        contents records next) :
      Seals ref contentType store (content :: contents)
        ((store.read ref).protect P contentType content true true :: records) next

theorem wp_sealRecord_seals (ref : CipherRef) (contentType : UInt8) (content : Bytes)
    (store : CipherStore) : wp (sealRecord P ref contentType content)
      (fun record next => Seals P ref contentType store [content] [record] next)
      (fun _ next => next = store) store :=
  wp_sealRecord P (fun href hsealable => .cons href hsealable .nil) fun _ _ => rfl

section Seals

variable {P} {next : CipherStore} {contents : List Bytes} {records : List SealedRecord}

section

variable (hseals : Seals P ref contentType store contents records next)

include hseals

theorem Seals.append {last : CipherStore} {contents' : List Bytes} {records' : List SealedRecord}
    (hmore : Seals P ref contentType next contents' records' last) :
    Seals P ref contentType store (contents ++ contents') (records ++ records') last := by
  induction hseals with
  | nil => exact hmore
  | cons href hsealable _ ih => exact .cons href hsealable (ih hmore)

theorem Seals.grows
    (hp : ∀ record, record.contentType = contentType → record.content ∈ contents → p record) :
    Grows p store next := by
  induction hseals with
  | nil => exact Grows.refl _
  | cons href hsealable _ ih =>
    refine (grows_logRecord P href hsealable (hp _ rfl mem_cons_self)).trans (ih ?_)
    exact fun record htype hmem => hp record htype (mem_cons_of_mem _ hmem)

theorem Seals.growsAny : Grows (fun _ => True) store next := hseals.grows fun _ _ _ => trivial

theorem Seals.log : next.log = store.log ++ records := by
  induction hseals with
  | nil => exact (append_nil _).symm
  | cons _ _ _ ih => rw [ih, logRecord_log, append_assoc, singleton_append]

theorem Seals.logged :
    List.Forall₂ (fun record content => Logged next ref contentType content record) records
      contents := by
  induction hseals with
  | nil => exact .nil
  | cons href hsealable hrest ih =>
    refine .cons ?_ ih
    refine Logged.extend ⟨?_, ?_, ?_, rfl, rfl⟩ hrest.growsAny.extends
    · rwa [logRecord_length]
    · exact mem_append_right _ (mem_singleton_self _)
    · rw [read_logRecord, read_write href]
      rfl

theorem Seals.exists_logged (hmem : record ∈ records) :
    ∃ content ∈ contents, Logged next ref contentType content record := by
  obtain ⟨i, hi, rfl⟩ := getElem_of_mem hmem
  have hi' : i < contents.length := hseals.logged.length_eq ▸ hi
  exact ⟨contents[i], getElem_mem hi', hseals.logged.get hi hi'⟩

end

end Seals

/-- Some of the contents were sealed, as a loop that failed leaves it behind. -/
def SealsSome (ref : CipherRef) (contentType : UInt8) (contents : List Bytes)
    (store next : CipherStore) : Prop :=
  ∃ done records, done ⊆ contents ∧ Seals P ref contentType store done records next

variable {P} {next : CipherStore} {contents : List Bytes}

theorem SealsSome.none : SealsSome P ref contentType contents store store :=
  ⟨[], [], nil_subset _, .nil⟩

theorem Seals.some_cons {middle : CipherStore}
    (hfirst : Seals P ref contentType store [content] [record] middle)
    (hsome : SealsSome P ref contentType contents middle next) :
    SealsSome P ref contentType (content :: contents) store next := by
  obtain ⟨done, records, hdone, hseals⟩ := hsome
  exact ⟨content :: done, record :: records, cons_subset_cons _ hdone, hfirst.append hseals⟩

theorem SealsSome.grows
    (hsome : SealsSome P ref contentType contents store next)
    (hp : ∀ record, record.contentType = contentType → record.content ∈ contents → p record) :
    Grows p store next := by
  obtain ⟨done, records, hdone, hseals⟩ := hsome
  exact hseals.grows fun record htype hmem => hp record htype (hdone hmem)

/-! ## Nonces -/

/-- Different epochs have different keys. -/
def DistinctKeys (store : CipherStore) : Prop :=
  ∀ first ∈ store.ciphers, ∀ second ∈ store.ciphers,
    first.epoch ≠ second.epoch → first.key ≠ second.key

instance (store : CipherStore) : Decidable store.DistinctKeys :=
  inferInstanceAs (Decidable (∀ first ∈ store.ciphers, ∀ second ∈ store.ciphers,
    first.epoch ≠ second.epoch → first.key ≠ second.key))

theorem read_mem (href : ref < store.ciphers.length) : store.read ref ∈ store.ciphers := by
  simp [read, href]

/-- Two records under one key have one epoch, and then their nonces tell the
sequence numbers apart. -/
theorem Sound.key_nonce_nodup (hsound : store.Sound) (hkeys : store.DistinctKeys) :
    (store.log.map fun record => (record.key, record.nonce)).Nodup := by
  refine pairwise_map.mpr ((pairwise_map.mp hsound.numbers_nodup).imp_of_mem ?_)
  intro left right hleft hright hne heq
  obtain ⟨hkey, hnonce⟩ := Prod.mk.inj heq
  obtain ⟨owner, howner, hby⟩ := hsound.sealed left hleft
  obtain ⟨other, hother, hby'⟩ := hsound.sealed right hright
  have hepoch : (store.read owner).epoch = (store.read other).epoch := by
    by_contra hdiffer
    exact hkeys _ (read_mem howner) _ (read_mem hother) hdiffer
      (hby.key.symm.trans (hkey.trans hby'.key))
  obtain rfl := hsound.epoch_inj owner howner other hother hepoch
  have hiv : 8 ≤ (store.read owner).iv.length := by
    rw [(store.read owner).iv_length]
    cases (store.read owner).suite <;> decide
  have hwide : (2 : Nat) ^ 48 ≤ 2 ^ 64 := by decide
  rw [hby.nonce, hby'.nonce] at hnonce
  have hsequence := nonceInto_inj hiv (hby.below_2_48.trans_le hwide)
    (hby'.below_2_48.trans_le hwide) hnonce
  refine hne ?_
  rw [SealedRecord.number, SealedRecord.number, hby.epoch, hby'.epoch, hsequence]

end CipherStore

end Dtls13
