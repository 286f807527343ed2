import Dtls13.Handshake.Fragment
import Dtls13.Record.Store

/-! # Protected flights

A flight keeps its handshake messages, the fragments they were split into and
the records that carry them. The closures the code stores in a flight are its
data here: the fragments and the MTU for a rebuild, the messages for a resize,
and the reference to the one cipher both of them seal with.
-/

namespace Dtls13

open ByteCodec StateLogic List

structure HandshakeMessage where
  typ : UInt8
  sequence : Nat
  body : Bytes
  deriving DecidableEq, Repr

/-- Consecutive message sequence numbers from `first` on. -/
def numberMessages (first : Nat) : List (UInt8 × Bytes) → List HandshakeMessage
  | [] => []
  | (typ, body) :: rest => ⟨typ, first, body⟩ :: numberMessages (first + 1) rest

/-- A record of a flight. `earlierNumbers` are the numbers of its former wire
images, the last one first. -/
structure FlightRecord where
  wire : SealedRecord
  earlierNumbers : List RecordNumber
  acked : Bool
  sent : Bool
  deriving DecidableEq, Repr

namespace FlightRecord

def number (record : FlightRecord) : RecordNumber := record.wire.number

def fresh (wire : SealedRecord) : FlightRecord := ⟨wire, [], false, false⟩

/-- A new wire image; the number of the former one joins the history. -/
def replaceNumber (record : FlightRecord) (wire : SealedRecord) : FlightRecord :=
  { record with wire := wire, earlierNumbers := record.number :: record.earlierNumbers }

def hasNumber (record : FlightRecord) (number : RecordNumber) : Bool :=
  record.number == number || record.earlierNumbers.contains number

def acknowledgedBy (record : FlightRecord) (numbers : List RecordNumber) : Bool :=
  numbers.any record.hasNumber

end FlightRecord

/-! ## The records of a flight of any kind -/

/-- Acknowledges the records that had one of the numbers. -/
def ackRecords (records : List FlightRecord) (numbers : List RecordNumber) : List FlightRecord :=
  records.map fun record =>
    { record with acked := record.acked || record.acknowledgedBy numbers }

/-- Marks up to `capacity` unsent records as sent and returns their wire images. -/
def takeUnsent : Nat → List FlightRecord → List FlightRecord × List SealedRecord
  | 0, records => (records, [])
  | _, [] => ([], [])
  | capacity + 1, record :: records =>
    if record.acked || record.sent then
      let (others, wires) := takeUnsent (capacity + 1) records
      (record :: others, wires)
    else
      let (others, wires) := takeUnsent capacity records
      ({ record with sent := true } :: others, record.wire :: wires)

/-- What is related to a list element by element comes from one of its elements. -/
theorem exists_of_forall₂ {α β : Type} {R : α → β → Prop} {as : List α} {bs : List β} {b : β}
    (hall : List.Forall₂ R as bs) (hb : b ∈ bs) : ∃ a ∈ as, R a b := by
  induction hall with
  | nil => cases hb
  | cons hfirst _ ih =>
    rcases mem_cons.mp hb with rfl | hrest
    · exact ⟨_, mem_cons_self, hfirst⟩
    · obtain ⟨a, ha, hrel⟩ := ih hrest
      exact ⟨a, mem_cons_of_mem _ ha, hrel⟩

/-- A window takes the first records that are neither sent nor acknowledged. -/
theorem takeUnsent_returned (capacity : Nat) (records : List FlightRecord) :
    (takeUnsent capacity records).2 =
      ((records.filter fun r => !(r.acked || r.sent)).take capacity).map (·.wire) := by
  fun_induction takeUnsent capacity records with
  | case1 records => simp
  | case2 => simp
  | case3 capacity r records hdone others wires hrest ih =>
    rw [hrest] at ih
    rw [filter_cons_of_neg (by simp [hdone])]
    exact ih
  | case4 capacity r records hnot others wires hrest ih =>
    rw [hrest] at ih
    rw [filter_cons_of_pos (by simpa using hnot), take_succ_cons, map_cons]
    exact congrArg (r.wire :: ·) ih

/-- Sending raises flags only. -/
theorem forall₂_takeUnsent (capacity : Nat) (records : List FlightRecord) :
    List.Forall₂ (fun r r' => r' = r ∨ r' = { r with sent := true }) records
      (takeUnsent capacity records).1 := by
  fun_induction takeUnsent capacity records with
  | case1 records => exact forall₂_same.mpr fun _ _ => .inl rfl
  | case2 => exact .nil
  | case3 capacity r records hdone others wires hrest ih =>
    rw [hrest] at ih
    exact .cons (.inl rfl) ih
  | case4 capacity r records hnot others wires hrest ih =>
    rw [hrest] at ih
    exact .cons (.inr rfl) ih

/-- How many records are sent and not acknowledged. -/
def outstandingRecords (records : List FlightRecord) : Nat :=
  records.countP fun record => record.sent && !record.acked

/-- The room for unsent records: of a flight with a protected record, at most ten
are outstanding. -/
def windowCapacity (records : List FlightRecord) : Nat :=
  if records.any fun record => 0 < record.number.epoch then 10 - outstandingRecords records
  else records.length

def nextUnsentRecords (records : List FlightRecord) : List FlightRecord × List SealedRecord :=
  takeUnsent (windowCapacity records) records

def retransmitRecords (records : List FlightRecord) (maxRecords : Nat) : List SealedRecord :=
  ((records.filter fun record => !record.acked && record.sent).take maxRecords).map (·.wire)

structure Flight where
  records : List FlightRecord
  fragments : List HandshakeFragment
  messages : List HandshakeMessage
  mtu : Nat
  cipher : CipherRef
  retransmitted : Bool
  deriving DecidableEq, Repr

/-- Fragments of at most `maxFragment` bytes; an empty message is one fragment. -/
def fragmentHandshakeMessage (message : HandshakeMessage) (maxFragment : Nat) :
    List HandshakeFragment :=
  let length := message.body.length
  if length = 0 then [⟨message.typ, message.sequence, 0, 0, []⟩]
  else (List.range ((length + maxFragment - 1) / maxFragment)).map fun index =>
    ⟨message.typ, message.sequence, length, index * maxFragment,
      (message.body.drop (index * maxFragment)).take maxFragment⟩

def sealHandshakeFragment (P : Primitives) (ref : CipherRef) (fragment : HandshakeFragment) :
    EStateM Err CipherStore SealedRecord :=
  match fragment.marshalHandshakeFragment with
  | .error err => throw err
  | .ok content => CipherStore.sealRecord P ref recordTypeHandshake content

/-- Seals fragments one after the other, each into a record within the MTU. -/
def sealFragments (P : Primitives) (ref : CipherRef) (mtu : Nat) (tooLong : Err) :
    List HandshakeFragment → EStateM Err CipherStore (List SealedRecord)
  | [] => pure []
  | fragment :: rest => do
    let record ← sealHandshakeFragment P ref fragment
    if mtu < record.packet.length then throw tooLong
    else do
      let others ← sealFragments P ref mtu tooLong rest
      pure (record :: others)

/-- The room a record of `cipher` has for the bytes of one fragment. -/
def maxFragmentFor (cipher : RecordCipher) (mtu : Nat) : Nat :=
  min (mtu - (cipher.headerLen16 + cipher.suite.overhead + 1 + handshakeHeaderLen))
    (cipher.maxContent - handshakeHeaderLen)

def buildProtectedFlight (P : Primitives) (messages : List HandshakeMessage) (mtu : Nat)
    (ref : CipherRef) : EStateM Err CipherStore Flight := do
  let store ← get
  let maxFragment := maxFragmentFor (store.read ref) mtu
  if maxFragment < 1 then
    throw (.configError "MTU is too small for a protected handshake fragment")
  else if messages.any fun message => 2 ^ 24 ≤ message.body.length then
    throw (.protocolError "handshake message exceeds 24-bit length")
  else do
    let fragments := messages.flatMap fun message => fragmentHandshakeMessage message maxFragment
    let records ← sealFragments P ref mtu
      (.protocolError "protected handshake record exceeds MTU") fragments
    pure ⟨records.map FlightRecord.fresh, fragments, messages, mtu, ref, false⟩

/-- The loop of a rebuild over the records that are not acknowledged, which stops at
the first failure; `source` is what numbers are taken from. -/
def renewPending {τ : Type} (renew : Nat → FlightRecord → EStateM Err τ SealedRecord) :
    Nat → List FlightRecord → τ → List FlightRecord × τ × Option Err
  | _, [], source => ([], source, none)
  | index, record :: records, source =>
    if record.acked then
      let (others, next, failure) := renewPending renew (index + 1) records source
      (record :: others, next, failure)
    else match renew index record source with
      | .error err next => (record :: records, next, some err)
      | .ok wire next =>
        let (others, last, failure) := renewPending renew (index + 1) records next
        (record.replaceNumber wire :: others, last, failure)

namespace Flight

variable (P : Primitives)

/-- A protected record is rebuilt from its fragment. -/
def renew (f : Flight) (index : Nat) (_ : FlightRecord) : EStateM Err CipherStore SealedRecord :=
  match f.fragments[index]? with
  | none => throw indexOutOfRange
  | some fragment => do
    let wire ← sealHandshakeFragment P f.cipher fragment
    if f.mtu < wire.packet.length then
      throw (.protocolError "retransmitted protected handshake record exceeds MTU")
    else pure wire

/-- The rebuild, with the records it has renewed when it fails. -/
def rebuild (f : Flight) (store : CipherStore) : Flight × CipherStore × Option Err :=
  let (records, next, failure) := renewPending (f.renew P) 0 f.records store
  ({ f with records := records }, next, failure)

/-- The rebuild for callers that keep the flight in any case. -/
def tryRebuild (f : Flight) (store : CipherStore) : Flight × CipherStore :=
  ((f.rebuild P store).1, (f.rebuild P store).2.1)

/-- The rebuild for callers that give the flight up when it fails. -/
def refreshPending (f : Flight) : EStateM Err CipherStore Flight := fun store =>
  match f.rebuild P store with
  | (next, grown, none) => .ok next grown
  | (_, grown, some err) => .error err grown

/-- Fragments the messages anew, with the same cipher. -/
def resize (f : Flight) (mtu : Nat) : EStateM Err CipherStore Flight := do
  let rebuilt ← buildProtectedFlight P f.messages mtu f.cipher
  pure { rebuilt with retransmitted := f.retransmitted }

/-- A resize that fails leaves the flight as it was. -/
def tryResize (f : Flight) (mtu : Nat) (store : CipherStore) : Flight × CipherStore :=
  handle (f.resize P mtu) store Prod.mk fun _ grown => (f, grown)

def ack (f : Flight) (numbers : List RecordNumber) : Flight :=
  { f with records := ackRecords f.records numbers }

def complete (f : Flight) : Bool := f.records.all (·.acked)

/-- The fragments whose records are not acknowledged. -/
def pendingFragments : List FlightRecord → List HandshakeFragment → List HandshakeFragment
  | record :: records, fragment :: fragments =>
    if record.acked then pendingFragments records fragments
    else fragment :: pendingFragments records fragments
  | _, _ => []

/-- The records after a rebuild: those that are not acknowledged have new wire images. -/
def refill : List FlightRecord → List SealedRecord → List FlightRecord
  | record :: records, wire :: wires =>
    if record.acked then record :: refill records (wire :: wires)
    else record.replaceNumber wire :: refill records wires
  | records, _ => records

/-- The fragments a rebuild of the flight seals again. -/
def pending (f : Flight) : List HandshakeFragment := pendingFragments f.records f.fragments

/-- The window: at most ten protected records are outstanding. -/
def nextUnsentWire (f : Flight) : Flight × List SealedRecord :=
  let (records, wires) := nextUnsentRecords f.records
  ({ f with records := records }, wires)

def retransmitWire (f : Flight) (maxRecords : Nat) : List SealedRecord :=
  retransmitRecords f.records maxRecords

theorem pendingFragments_subset (records : List FlightRecord)
    (fragments : List HandshakeFragment) : pendingFragments records fragments ⊆ fragments := by
  fun_induction pendingFragments records fragments with
  | case1 record records fragment fragments _ ih => exact subset_cons_of_subset _ ih
  | case2 record records fragment fragments _ ih => exact cons_subset_cons _ ih
  | case3 => exact nil_subset _

end Flight

/-! ## What a flight carries -/

namespace CipherStore

variable {P : Primitives} {p : SealedRecord → Prop} {store : CipherStore}

/-- The record carries the fragment, sealed by the cipher behind the reference. -/
def Carries (store : CipherStore) (ref : CipherRef) (record : SealedRecord)
    (fragment : HandshakeFragment) : Prop :=
  Logged store ref recordTypeHandshake fragment.putHandshakeFragment record

/-- The records of kind `p` include those that carry one of the fragments. -/
def Admits (p : SealedRecord → Prop) (fragments : List HandshakeFragment) : Prop :=
  ∀ record, record.contentType = recordTypeHandshake →
    ∀ fragment ∈ fragments, record.content = fragment.putHandshakeFragment → p record

theorem wp_sealHandshakeFragment (ref : CipherRef) (fragment : HandshakeFragment)
    (store : CipherStore) : wp (sealHandshakeFragment P ref fragment)
      (fun record next => fragment.validateHandshakeFragment = .ok () ∧
        Seals P ref recordTypeHandshake store [fragment.putHandshakeFragment] [record] next)
      (fun _ next => next = store) store := by
  unfold sealHandshakeFragment HandshakeFragment.marshalHandshakeFragment
  cases fragment.validateHandshakeFragment with
  | error err => rfl
  | ok checked => exact wp_imp (wp_sealRecord_seals P ref _ _ store) fun _ _ hseals => ⟨rfl, hseals⟩

/-- The contents of the records that carry the fragments. -/
def contents (fragments : List HandshakeFragment) : List Bytes :=
  fragments.map (·.putHandshakeFragment)

theorem wp_sealFragments (ref : CipherRef) (mtu : Nat) (tooLong : Err)
    (fragments : List HandshakeFragment) (store : CipherStore) :
    wp (sealFragments P ref mtu tooLong fragments)
      (fun records next => Seals P ref recordTypeHandshake store (contents fragments) records next ∧
        ∀ fragment ∈ fragments, fragment.validateHandshakeFragment = .ok ())
      (fun _ => SealsSome P ref recordTypeHandshake (contents fragments) store) store := by
  induction fragments generalizing store with
  | nil => exact ⟨.nil, nofun⟩
  | cons fragment rest ih =>
    unfold sealFragments
    rw [wp_bind]
    refine wp_mono (wp_sealHandshakeFragment ref fragment store) ?_ ?_
    · rintro record middle ⟨hvalid, hfirst⟩
      refine wp_guard (hfirst.some_cons .none) fun _ => ?_
      rw [wp_bind]
      refine wp_mono (ih middle) ?_ fun _ _ hsome => hfirst.some_cons hsome
      rintro others next ⟨hrest, hvalids⟩
      exact ⟨hfirst.append hrest, forall_mem_cons.mpr ⟨hvalid, hvalids⟩⟩
    · rintro _ _ rfl
      exact .none

/-- The records of a flight carry its fragments, and these are its messages cut up
at one size. -/
structure Holds (store : CipherStore) (f : Flight) : Prop where
  cipher_lt : f.cipher < store.ciphers.length
  carried : List.Forall₂ (fun record fragment => Carries store f.cipher record.wire fragment)
    f.records f.fragments
  cut : ∃ maxFragment, f.fragments =
    f.messages.flatMap fun message => fragmentHandshakeMessage message maxFragment
  valid : ∀ fragment ∈ f.fragments, fragment.validateHandshakeFragment = .ok ()

theorem Holds.extend {f : Flight} {next : CipherStore} (hholds : Holds store f)
    (hextends : Extends p store next) : Holds next f :=
  ⟨hholds.cipher_lt.trans_le hextends.length_le,
    hholds.carried.imp fun _ _ hcarries => hcarries.extend hextends, hholds.cut, hholds.valid⟩

/-- Every way to cut the messages up gives records of kind `p`. -/
def AdmitsMessages (p : SealedRecord → Prop) (messages : List HandshakeMessage) : Prop :=
  ∀ maxFragment, Admits p
    (messages.flatMap fun message => fragmentHandshakeMessage message maxFragment)

/-- A flight that was built: its fragments are the messages cut up, its records carry them,
and none of the records was sent. -/
structure FlightBuilt (P : Primitives) (messages : List HandshakeMessage) (mtu : Nat)
    (ref : CipherRef) (store : CipherStore) (f : Flight) (next : CipherStore) : Prop where
  seals : Seals P ref recordTypeHandshake store (contents f.fragments) (f.records.map (·.wire)) next
  fresh : f.records = (f.records.map (·.wire)).map FlightRecord.fresh
  cut : f.fragments = messages.flatMap fun message =>
    fragmentHandshakeMessage message (maxFragmentFor (store.read ref) mtu)
  room : 1 ≤ maxFragmentFor (store.read ref) mtu
  valid : ∀ fragment ∈ f.fragments, fragment.validateHandshakeFragment = .ok ()
  mtu : f.mtu = mtu
  cipher : f.cipher = ref
  messages : f.messages = messages

/-- Some fragments of the messages were sealed. -/
def SealsPart (P : Primitives) (messages : List HandshakeMessage) (ref : CipherRef)
    (store next : CipherStore) : Prop :=
  ∃ maxFragment, SealsSome P ref recordTypeHandshake (contents (messages.flatMap fun message =>
    fragmentHandshakeMessage message maxFragment)) store next

section Build

variable {messages : List HandshakeMessage} {mtu : Nat} {ref : CipherRef} {f : Flight}
  {next : CipherStore}

theorem wp_buildProtectedFlight (messages : List HandshakeMessage) (mtu : Nat) (ref : CipherRef)
    (store : CipherStore) :
    wp (buildProtectedFlight P messages mtu ref) (FlightBuilt P messages mtu ref store)
      (fun _ => SealsPart P messages ref store) store := by
  have hnone : SealsPart P messages ref store store := ⟨0, .none⟩
  unfold buildProtectedFlight
  rw [wp_bind, wp_get]
  refine wp_guard hnone fun hroom => ?_
  refine wp_guard hnone fun _ => ?_
  rw [wp_bind]
  refine wp_mono (wp_sealFragments ref mtu _ _ store) ?_ fun _ _ hsome => ⟨_, hsome⟩
  rintro wires next ⟨hseals, hvalid⟩
  have hwires : (wires.map FlightRecord.fresh).map (·.wire) = wires := by
    rw [map_map]
    exact map_id wires
  refine ⟨?_, ?_, rfl, Nat.le_of_not_lt hroom, hvalid, rfl, rfl, rfl⟩
  · rwa [hwires]
  · rw [hwires]

theorem Admits.contents {fragments : List HandshakeFragment} (hp : Admits p fragments)
    (record : SealedRecord) (htype : record.contentType = recordTypeHandshake)
    (hmem : record.content ∈ contents fragments) : p record := by
  obtain ⟨fragment, hfragment, hcontent⟩ := mem_map.mp hmem
  exact hp record htype fragment hfragment hcontent.symm

theorem SealsPart.grows (hpart : SealsPart P messages ref store next)
    (hp : AdmitsMessages p messages) : Grows p store next := by
  obtain ⟨maxFragment, hsome⟩ := hpart
  exact hsome.grows (hp maxFragment).contents

theorem FlightBuilt.grows (hbuilt : FlightBuilt P messages mtu ref store f next)
    (hp : AdmitsMessages p messages) : Grows p store next :=
  hbuilt.seals.grows (hbuilt.cut ▸ hp _).contents

theorem FlightBuilt.holds (hbuilt : FlightBuilt P messages mtu ref store f next)
    (href : ref < store.ciphers.length) : Holds next f := by
  have hlength := hbuilt.seals.growsAny.length_eq
  refine ⟨hbuilt.cipher ▸ href.trans_eq hlength.symm, ?_, ⟨_, hbuilt.messages ▸ hbuilt.cut⟩,
    hbuilt.valid⟩
  have hlogged := hbuilt.seals.logged
  rw [contents, forall₂_map_left_iff, forall₂_map_right_iff] at hlogged
  rw [hbuilt.cipher]
  exact hlogged

theorem FlightBuilt.log (hbuilt : FlightBuilt P messages mtu ref store f next) :
    next.log = store.log ++ f.records.map (·.wire) := hbuilt.seals.log

end Build

/-! ## Rebuilding -/

theorem getElem?_of_drop_eq_cons {α : Type} {xs rest : List α} {x : α} {index : Nat}
    (hdrop : xs.drop index = x :: rest) : xs[index]? = some x ∧ xs.drop (index + 1) = rest := by
  rw [← head?_drop, ← drop_drop, hdrop]
  exact ⟨rfl, rfl⟩

theorem refill_of_acked {record : FlightRecord} (hacked : record.acked = true)
    (records : List FlightRecord) (wires : List SealedRecord) :
    Flight.refill (record :: records) wires = record :: Flight.refill records wires := by
  cases wires with
  | nil => cases records <;> rfl
  | cons wire wires => rw [Flight.refill, if_pos hacked]

/-- What a rebuild has done when it stops: the first of the pending fragments were sealed,
and their records renewed. A record that is too long for the MTU is lost. -/
theorem renewPending_renew {f : Flight} {index : Nat} {records : List FlightRecord}
    {fragments : List HandshakeFragment} (hfragments : f.fragments.drop index = fragments)
    (hlength : records.length = fragments.length) (store : CipherStore) :
    ∃ wires lost, Seals P f.cipher recordTypeHandshake store
        (contents ((Flight.pendingFragments records fragments).take (wires ++ lost).length))
        (wires ++ lost) (renewPending (f.renew P) index records store).2.1 ∧
      (renewPending (f.renew P) index records store).1 = Flight.refill records wires ∧
      (∀ wire ∈ wires, wire.packet.length ≤ f.mtu) ∧
      ((renewPending (f.renew P) index records store).2.2 = none →
        wires.length = (Flight.pendingFragments records fragments).length) := by
  induction records generalizing index fragments store with
  | nil => exact ⟨[], [], .nil, rfl, by simp, fun _ => rfl⟩
  | cons record records ih =>
    cases fragments with
    | nil => cases hlength
    | cons fragment fragments =>
      obtain ⟨hget, hdrop⟩ := getElem?_of_drop_eq_cons hfragments
      have hrest := ih hdrop (Nat.succ.inj hlength)
      unfold renewPending Flight.pendingFragments
      by_cases hacked : record.acked = true
      · -- An acknowledged record stays as it is.
        obtain ⟨wires, lost, hseals, hothers, hfits, hall⟩ := hrest store
        rw [if_pos hacked, if_pos hacked]
        refine ⟨wires, lost, hseals, ?_, hfits, hall⟩
        rw [refill_of_acked hacked]
        exact congrArg (record :: ·) hothers
      · rw [if_neg hacked, if_neg hacked, Flight.renew, hget]
        dsimp only
        have hseal := wp_sealHandshakeFragment (P := P) f.cipher fragment store
        unfold wp at hseal
        rw [bind_apply]
        cases hrun : sealHandshakeFragment P f.cipher fragment store with
        | error err next =>
          rw [hrun] at hseal
          subst hseal
          exact ⟨[], [], .nil, rfl, by simp, fun habsurd => nomatch habsurd⟩
        | ok wire next =>
          rw [hrun] at hseal
          dsimp only
          by_cases hlong : f.mtu < wire.packet.length
          · rw [if_pos hlong]
            exact ⟨[], [wire], hseal.2, rfl, by simp, fun habsurd => nomatch habsurd⟩
          · obtain ⟨wires, lost, hseals, hothers, hfits, hall⟩ := hrest next
            rw [if_neg hlong]
            refine ⟨wire :: wires, lost, hseal.2.append hseals, ?_,
              forall_mem_cons.mpr ⟨Nat.le_of_not_lt hlong, hfits⟩, fun hnone => ?_⟩
            · rw [Flight.refill, if_neg hacked]
              exact congrArg (record.replaceNumber wire :: ·) hothers
            · exact congrArg Nat.succ (hall hnone)

theorem rebuild_seals {f : Flight} (hlength : f.records.length = f.fragments.length)
    (store : CipherStore) : ∃ wires lost, Seals P f.cipher recordTypeHandshake store
        (contents ((Flight.pendingFragments f.records f.fragments).take (wires ++ lost).length))
        (wires ++ lost) (f.rebuild P store).2.1 ∧
      (f.rebuild P store).1.records = Flight.refill f.records wires ∧
      (∀ wire ∈ wires, wire.packet.length ≤ f.mtu) ∧
      ((f.rebuild P store).2.2 = none →
        wires.length = (Flight.pendingFragments f.records f.fragments).length) :=
  renewPending_renew drop_zero hlength store

/-- What holds of the acknowledged records and of the new wire images holds of every record,
if it holds of all of them in case some wire images are missing. -/
theorem forall₂_refill {Q : FlightRecord → HandshakeFragment → Prop}
    {W : SealedRecord → HandshakeFragment → Prop} {records : List FlightRecord}
    {fragments : List HandshakeFragment} {wires : List SealedRecord}
    (hkept : List.Forall₂ (fun record fragment => record.acked = true → Q record fragment) records
      fragments) (hnew : ∀ record wire fragment, W wire fragment →
      Q (FlightRecord.replaceNumber record wire) fragment)
    (hwires : List.Forall₂ W wires
      ((Flight.pendingFragments records fragments).take wires.length))
    (hmissing : wires.length ≠ (Flight.pendingFragments records fragments).length →
      List.Forall₂ Q records fragments) :
    List.Forall₂ Q (Flight.refill records wires) fragments := by
  induction hkept generalizing wires with
  | nil => cases wires <;> exact .nil
  | @cons record fragment records fragments hrecord _ ih =>
    unfold Flight.pendingFragments at hwires hmissing
    split_ifs at hwires hmissing with hacked
    · rw [refill_of_acked hacked]
      exact .cons (hrecord hacked) (ih hwires fun hfew => (forall₂_cons.mp (hmissing hfew)).2)
    · cases wires with
      | nil => exact hmissing (Nat.succ_ne_zero _).symm
      | cons wire wires =>
        obtain ⟨hwire, hrest⟩ := forall₂_cons.mp hwires
        rw [Flight.refill, if_neg hacked]
        exact .cons (hnew record _ fragment hwire) (ih hrest fun hfew =>
          (forall₂_cons.mp (hmissing fun heq => hfew (Nat.succ.inj heq))).2)

/-- The wire images that a rebuild keeps carry the pending fragments. -/
theorem Seals.carries_left {ref : CipherRef} {fragments : List HandshakeFragment}
    {wires lost : List SealedRecord} {next : CipherStore}
    (hseals : Seals P ref recordTypeHandshake store
      (contents (fragments.take (wires ++ lost).length)) (wires ++ lost) next) :
    List.Forall₂ (Carries next ref) wires (fragments.take wires.length) := by
  have hlogged := hseals.logged
  rw [contents, forall₂_map_right_iff] at hlogged
  have hwires := forall₂_take wires.length hlogged
  rwa [take_left, take_take, min_eq_left (by simp)] at hwires

/-- The pending fragments are those of the records that are not acknowledged. -/
theorem forall₂_pending {Q : FlightRecord → HandshakeFragment → Prop}
    {records : List FlightRecord} {fragments : List HandshakeFragment}
    (hall : List.Forall₂ Q records fragments) :
    List.Forall₂ Q (records.filter (!·.acked)) (Flight.pendingFragments records fragments) := by
  induction hall with
  | nil => exact .nil
  | @cons record fragment records fragments hfirst _ ih =>
    unfold Flight.pendingFragments
    cases hacked : record.acked with
    | true => rwa [filter_cons_of_neg (by simp [hacked]), if_pos rfl]
    | false =>
      rw [filter_cons_of_pos (by simp [hacked]), if_neg Bool.false_ne_true]
      exact .cons hfirst ih

/-- A rebuild keeps the flight whole, also one that fails. -/
theorem Holds.rebuild {f : Flight} (hp : AdmitsMessages p f.messages) (hholds : Holds store f) :
    Grows p store (f.rebuild P store).2.1 ∧
      Holds (f.rebuild P store).2.1 (f.rebuild P store).1 := by
  obtain ⟨maxFragment, hcut⟩ := hholds.cut
  have hadmits : Admits p f.fragments := hcut ▸ hp maxFragment
  obtain ⟨wires, lost, hseals, hrecords, -, -⟩ := rebuild_seals (P := P)
    hholds.carried.length_eq store
  have hgrows : Grows p store (f.rebuild P store).2.1 := hseals.grows fun record htype hmem =>
    hadmits.contents record htype (map_subset _ (Subset.trans (take_subset _ _)
      (Flight.pendingFragments_subset _ _)) hmem)
  refine ⟨hgrows, hholds.cipher_lt.trans_eq hgrows.length_eq.symm, ?_, hholds.cut, hholds.valid⟩
  have hold : List.Forall₂ (fun record fragment =>
      Carries (f.rebuild P store).2.1 f.cipher record.wire fragment) f.records f.fragments :=
    hholds.carried.imp fun _ _ hcarries => hcarries.extend hgrows.extends
  rw [hrecords]
  refine forall₂_refill ?_ (fun _ _ _ hcarries => hcarries) hseals.carries_left fun _ => hold
  refine hold.imp ?_
  exact fun _ _ hcarries _ => hcarries

/-- What a caller that gives the flight up sees of a rebuild. -/
theorem wp_refreshPending {f : Flight} {post : Flight → CipherStore → Prop}
    {fail : Err → CipherStore → Prop} : wp (f.refreshPending P) post fail store ↔
      ((f.rebuild P store).2.2 = none → post (f.rebuild P store).1 (f.rebuild P store).2.1) ∧
      ∀ err, (f.rebuild P store).2.2 = some err → fail err (f.rebuild P store).2.1 := by
  unfold wp Flight.refreshPending
  rcases f.rebuild P store with ⟨next, grown, _ | err⟩ <;> simp

theorem wp_resize {f : Flight} (mtu : Nat) (hp : AdmitsMessages p f.messages)
    (hholds : Holds store f) : wp (f.resize P mtu)
      (fun next store' => Grows p store store' ∧ Holds store' next ∧ next.cipher = f.cipher ∧
        next.messages = f.messages)
      (fun _ => Grows p store) store := by
  unfold Flight.resize
  rw [wp_bind]
  refine wp_mono (wp_buildProtectedFlight f.messages mtu f.cipher store) ?_
    fun _ _ hpart => hpart.grows hp
  intro rebuilt next hbuilt
  have hrebuilt := hbuilt.holds hholds.cipher_lt
  exact ⟨hbuilt.grows hp, ⟨hrebuilt.cipher_lt, hrebuilt.carried, hrebuilt.cut, hrebuilt.valid⟩,
    hbuilt.cipher, hbuilt.messages⟩

theorem Holds.tryResize {f : Flight} (mtu : Nat) (hp : AdmitsMessages p f.messages)
    (hholds : Holds store f) : Grows p store (f.tryResize P mtu store).2 ∧
      Holds (f.tryResize P mtu store).2 (f.tryResize P mtu store).1 ∧
      (f.tryResize P mtu store).1.cipher = f.cipher := by
  unfold Flight.tryResize handle
  rcases wp_cases (wp_resize (P := P) mtu hp hholds) with
    ⟨next, grown, hok, hgrows, hnext, hcipher, -⟩ | ⟨err, grown, herror, hgrows⟩
  · rw [hok]
    exact ⟨hgrows, hnext, hcipher⟩
  · rw [herror]
    exact ⟨hgrows, hholds.extend hgrows.extends, rfl⟩

/-- Acknowledging changes no wire image. -/
theorem Holds.ack {f : Flight} (hholds : Holds store f) (numbers : List RecordNumber) :
    Holds store (f.ack numbers) :=
  ⟨hholds.cipher_lt, forall₂_map_left_iff.mpr hholds.carried, hholds.cut, hholds.valid⟩

end CipherStore

end Dtls13
