import Dtls13.Driver.PostHandshake
import Dtls13.Handshake.Rebuild

/-! # Flights under another connection ID

The size of the fragments of a flight is fixed when it is built, and the header of
its records grows with the connection ID of its cipher. A rebuild under a longer ID
fails when a pending fragment has no room for it.
-/

namespace Dtls13

open ByteCodec StateLogic RunSystem CipherStore HandshakeFragment RecordCipher List

namespace RecordCipher

variable {c : RecordCipher}

/-- Two ciphers with the same limits. -/
structure SameLimits (before after : RecordCipher) : Prop where
  suite : after.suite = before.suite
  epoch : after.epoch = before.epoch
  plaintextLimit : after.plaintextLimit = before.plaintextLimit

theorem Admits.of_same {d : RecordCipher} {fragment : HandshakeFragment}
    (hadmits : c.Admits fragment) (hsame : SameLimits c d) : d.Admits fragment :=
  ⟨hadmits.valid, hsame.epoch ▸ hadmits.epoch_le, hadmits.content_le,
    hsame.plaintextLimit ▸ hadmits.within_limit⟩

end RecordCipher

namespace CipherStore

variable {P : Primitives}

/-- No cipher has other limits than before. -/
structure SameLimits (before after : CipherStore) : Prop where
  length_eq : after.ciphers.length = before.ciphers.length
  same : ∀ ref, RecordCipher.SameLimits (before.read ref) (after.read ref)

instance : Std.Refl SameLimits := ⟨fun _ => ⟨rfl, fun _ => ⟨rfl, rfl, rfl⟩⟩⟩

instance : IsTrans CipherStore SameLimits where
  trans _ _ _ h₁ h₂ := ⟨h₂.length_eq.trans h₁.length_eq, fun ref =>
    ⟨(h₂.same ref).suite.trans (h₁.same ref).suite, (h₂.same ref).epoch.trans (h₁.same ref).epoch,
      (h₂.same ref).plaintextLimit.trans (h₁.same ref).plaintextLimit⟩⟩

theorem sameLimits_write {store : CipherStore} {ref : CipherRef} {cipher : RecordCipher}
    (hsame : RecordCipher.SameLimits (store.read ref) cipher) :
    SameLimits store (store.write ref cipher) := by
  refine ⟨write_length .., fun other => ?_⟩
  by_cases hother : ref = other
  · subst hother
    by_cases href : ref < store.ciphers.length
    · rw [read_write href]
      exact hsame
    · rw [write, set_eq_of_length_le (Nat.le_of_not_lt href)]
      exact ⟨rfl, rfl, rfl⟩
  · rw [read_write_of_ne hother]
    exact ⟨rfl, rfl, rfl⟩

theorem keeps_setConnectionID (ref : CipherRef) (connectionID : Bytes) :
    Keeps SameLimits (updateCipher ref (·.setConnectionID connectionID)) := by
  intro store
  apply wp_updateCipher
  · intro named hnamed
    obtain ⟨-, rfl⟩ := setConnectionID_ok hnamed
    exact sameLimits_write ⟨rfl, rfl, rfl⟩
  · exact fun _ _ => Std.Refl.refl store

/-- Sealing leaves the limits, and what was sealed is admitted. -/
theorem sameLimits_of_seals {ref : CipherRef} {store next : CipherStore} {contentType : UInt8}
    {contents : List Bytes} {records : List SealedRecord}
    (hseals : Seals P ref contentType store contents records next) :
    SameLimits store next ∧ ∀ fragment : HandshakeFragment,
      fragment.validateHandshakeFragment = .ok () → fragment.putHandshakeFragment ∈ contents →
        (store.read ref).Admits fragment := by
  induction hseals with
  | nil => exact ⟨Std.Refl.refl _, by simp⟩
  | @cons store next content contents records _ hsealable _ ih =>
    have hcounted : SameLimits store (store.write ref ((store.read ref).spent 1)) :=
      sameLimits_write ⟨rfl, rfl, rfl⟩
    have hfirst : SameLimits store (store.logRecord ref
        ((store.read ref).protect P contentType content true true) ((store.read ref).spent 1)) :=
      ⟨hcounted.length_eq, hcounted.same⟩
    refine ⟨Trans.trans hfirst ih.1, fun fragment hvalid hmem => ?_⟩
    rcases mem_cons.mp hmem with rfl | hmem
    · rw [putHandshakeFragment_length] at hsealable
      exact ⟨hvalid, hsealable.epoch_le, hsealable.content_le, hsealable.within_limit⟩
    · obtain ⟨hsuite, hepoch, hlimit⟩ := hfirst.same ref
      exact (ih.2 fragment hvalid hmem).of_same ⟨hsuite.symm, hepoch.symm, hlimit.symm⟩

theorem keeps_sealRecord (ref : CipherRef) (contentType : UInt8) (content : Bytes) :
    Keeps SameLimits (sealRecord P ref contentType content) := fun store =>
  wp_mono (wp_sealRecord_seals P ref contentType content store)
    (fun _ _ hseals => (sameLimits_of_seals hseals).1) fun _ _ hsame => hsame ▸ Std.Refl.refl _

theorem keeps_sealHandshakeFragment (ref : CipherRef) (fragment : HandshakeFragment) :
    Keeps SameLimits (sealHandshakeFragment P ref fragment) := fun store =>
  wp_mono (wp_sealHandshakeFragment ref fragment store)
    (fun _ _ hseals => (sameLimits_of_seals hseals.2).1)
    fun _ _ hsame => hsame ▸ Std.Refl.refl _

end CipherStore

namespace Flight

variable {P : Primitives}

/-- The flight can be rebuilt as far as the limits of its cipher are concerned, and its
fragments have room in a record with a connection ID of `idLength` bytes. -/
structure Fitted (ref : CipherRef) (idLength : Nat) (store : CipherStore) (f : Flight) :
    Prop where
  cipher : f.cipher = ref
  cipher_lt : ref < store.ciphers.length
  length_eq : f.records.length = f.fragments.length
  admits : ∀ fragment ∈ f.fragments, (store.read ref).Admits fragment
  room : ∀ fragment ∈ f.fragments, 5 + idLength + (store.read ref).suite.overhead + 1 +
    (handshakeHeaderLen + fragment.body.length) ≤ f.mtu

variable {ref : CipherRef} {idLength : Nat} {store : CipherStore} {f : Flight}

theorem Fitted.of_same {next : CipherStore} (hfitted : f.Fitted ref idLength store)
    (hsame : CipherStore.SameLimits store next) : f.Fitted ref idLength next :=
  ⟨hfitted.cipher, hfitted.cipher_lt.trans_eq hsame.length_eq.symm, hfitted.length_eq,
    fun fragment hfragment => (hfitted.admits fragment hfragment).of_same (hsame.same _),
    (hsame.same ref).suite ▸ hfitted.room⟩

theorem Fitted.withRecords (hfitted : f.Fitted ref idLength store)
    {records : List FlightRecord} (hlength : records.length = f.records.length) :
    Fitted ref idLength store { f with records := records } :=
  ⟨hfitted.cipher, hfitted.cipher_lt, hlength.trans hfitted.length_eq, hfitted.admits,
    hfitted.room⟩

theorem wp_buildProtectedFlight_fitted (messages : List HandshakeMessage) (mtu : Nat)
    (href : ref < store.ciphers.length) (hid : idLength ≤ (store.read ref).connectionID.length) :
    wp (buildProtectedFlight P messages mtu ref)
      (fun f next => CipherStore.SameLimits store next ∧ f.Fitted ref idLength next)
      (fun _ => CipherStore.SameLimits store) store := by
  refine wp_mono (wp_buildProtectedFlight messages mtu ref store) ?_
    fun _ _ ⟨_, _, _, _, hseals⟩ => (sameLimits_of_seals hseals).1
  intro f next hbuilt
  obtain ⟨hsame, hadmits⟩ := sameLimits_of_seals hbuilt.seals
  refine ⟨hsame, Fitted.of_same ⟨hbuilt.cipher, href, ?_, fun fragment hfragment => ?_,
    fun fragment hfragment => ?_⟩ hsame⟩
  · simpa [contents] using hbuilt.seals.logged.length_eq
  · exact hadmits fragment (hbuilt.valid fragment hfragment) (mem_map_of_mem hfragment)
  · have hlen := hbuilt.fragmentRecordLen_le fragment hfragment
    rw [hbuilt.mtu]
    unfold fragmentRecordLen headerLen16 at hlen
    omega

/-! ## When a rebuild succeeds -/

theorem Fitted.rebuild_iff (hfitted : f.Fitted ref idLength store) :
    ((f.rebuild P store).2.2 = none ↔
        (store.read f.cipher).canCarry f.mtu f.pending = true) ∧
      ((f.rebuild P store).2.2 = none → ∀ record ∈ (f.rebuild P store).1.records,
        record.acked = false → record.wire.packet.length ≤ f.mtu) := by
  obtain ⟨wires, -, -, hrecords, hfits, hall⟩ := rebuild_seals (P := P) hfitted.length_eq store
  constructor
  · refine Flight.rebuild_iff hfitted.length_eq (hfitted.cipher ▸ hfitted.cipher_lt) ?_
    rw [hfitted.cipher]
    exact fun fragment hfragment => hfitted.admits fragment (pendingFragments_subset _ _ hfragment)
  · intro hnone
    have hlength := hall hnone
    have hwithin : List.Forall₂ (fun record _ => record.acked = false →
        record.wire.packet.length ≤ f.mtu) (refill f.records wires) f.fragments := by
      refine forall₂_refill (W := fun wire _ => wire.packet.length ≤ f.mtu)
        (forall₂_iff_get.mpr ⟨hfitted.length_eq, fun i _ _ hacked hopen => ?_⟩)
        (fun _ _ _ hwire _ => hwire) (forall₂_iff_get.mpr
          ⟨by rw [length_take, ← hlength, min_self], fun i hi _ => hfits _ (get_mem wires ⟨i, hi⟩)⟩)
        fun hmissing => absurd hlength hmissing
      rw [hacked] at hopen
      cases hopen
    intro record hrecord
    rw [hrecords] at hrecord
    obtain ⟨_, -, hle⟩ := exists_of_forall₂ hwithin.flip hrecord
    exact hle

/-- Under an ID that is not longer, only the numbers can run out. -/
theorem Fitted.canCarry_iff (hfitted : f.Fitted ref idLength store)
    (hid : (store.read ref).connectionID.length ≤ idLength) :
    (store.read f.cipher).canCarry f.mtu f.pending = true ↔
      f.pending = [] ∨ (store.read f.cipher).hasNumbers f.pending.length = true := by
  unfold canCarry
  rw [Bool.and_eq_true, Bool.or_eq_true, List.isEmpty_iff, and_iff_left]
  rw [all_eq_true]
  intro fragment hfragment
  have hroom := hfitted.room fragment (pendingFragments_subset _ _ hfragment)
  rw [decide_eq_true_eq, hfitted.cipher]
  unfold fragmentRecordLen headerLen16
  omega

/-! ## Runs -/

theorem renewPending_keeps {τ : Type} {R : τ → τ → Prop} [Std.Refl R] [IsTrans τ R]
    {renew : Nat → FlightRecord → EStateM Err τ SealedRecord}
    (hrenew : ∀ index record, Keeps R (renew index record)) (index : Nat)
    (records : List FlightRecord) (source : τ) :
    R source (renewPending renew index records source).2.1 ∧
      (renewPending renew index records source).1.length = records.length := by
  induction records generalizing index source with
  | nil => exact ⟨Std.Refl.refl source, rfl⟩
  | cons record records ih =>
    unfold renewPending
    split_ifs
    · exact ⟨(ih (index + 1) source).1, congrArg Nat.succ (ih (index + 1) source).2⟩
    · rcases wp_cases (hrenew index record source) with ⟨wire, next, hok, hnext⟩ |
        ⟨err, next, herror, hnext⟩
      · rw [hok]
        obtain ⟨hlast, hlength⟩ := ih (index + 1) next
        exact ⟨Trans.trans hnext hlast, congrArg Nat.succ hlength⟩
      · rw [herror]
        exact ⟨hnext, rfl⟩

theorem Fitted.rebuild (hfitted : f.Fitted ref idLength store) :
    (f.rebuild P store).1.Fitted ref idLength (f.rebuild P store).2.1 := by
  have hrenew : ∀ index record, Keeps CipherStore.SameLimits (f.renew P index record) := by
    intro index record
    unfold renew
    split
    · exact keeps_throw _
    · apply keeps_bind (keeps_sealHandshakeFragment _ _)
      exact fun _ => keeps_ite (fun _ => keeps_throw _) fun _ => keeps_pure _
  obtain ⟨hsame, hlength⟩ := renewPending_keeps hrenew 0 f.records store
  exact (hfitted.withRecords hlength).of_same hsame

end Flight

/-- What can happen to a flight and to the connection ID of a cipher. -/
inductive RenamedOp where
  | flight (op : FlightOp)
  | setConnectionID (ref : CipherRef) (connectionID : Bytes)
  deriving DecidableEq, Repr

namespace FlightSession

variable {P : Primitives} {s : FlightSession} {ref : CipherRef} {idLength : Nat}

def renamedStep (P : Primitives) (s : FlightSession) : RenamedOp → FlightSession
  | .flight op => s.step P op
  | .setConnectionID ref connectionID =>
    let rename := CipherStore.updateCipher ref (·.setConnectionID connectionID)
    { s with store := exec rename s.store }

/-- A protected flight whose fragments its cipher admits. -/
def Fitted (ref : CipherRef) (idLength : Nat) (s : FlightSession) : Prop :=
  ∃ f, s.flight = .sealed f ∧ f.Fitted ref idLength s.store

theorem Fitted.onStore {α : Type} (hs : s.Fitted ref idLength) {m : EStateM Err CipherStore α}
    (hm : Keeps CipherStore.SameLimits m) :
    Fitted ref idLength { s with store := exec m s.store } := by
  obtain ⟨f, hflight, hfitted⟩ := hs
  have hsame : CipherStore.SameLimits s.store (exec m s.store) := exec_of_wp (hm s.store)
  exact ⟨f, hflight, hfitted.of_same hsame⟩

theorem Fitted.withRecords (hs : s.Fitted ref idLength) {records : List FlightRecord}
    (hlength : records.length = s.records.length) :
    Fitted ref idLength { s with flight := s.flight.withRecords records } := by
  obtain ⟨f, hflight, hfitted⟩ := hs
  unfold FlightSession.records at hlength
  rw [hflight] at hlength ⊢
  exact ⟨_, rfl, hfitted.withRecords hlength⟩

theorem Fitted.resize (hs : s.Fitted ref idLength) (mtu : Nat)
    (hid : idLength ≤ (s.store.read ref).connectionID.length) :
    (s.step P (.resize mtu)).Fitted ref idLength := by
  obtain ⟨f, hflight, hfitted⟩ := hs
  have hbuild : wp (f.resize P mtu)
      (fun next store => CipherStore.SameLimits s.store store ∧ next.Fitted ref idLength store)
      (fun _ => CipherStore.SameLimits s.store) s.store := by
    unfold Flight.resize
    rw [hfitted.cipher]
    refine wp_seq (Flight.wp_buildProtectedFlight_fitted _ _ hfitted.cipher_lt hid) ?_
    rintro rebuilt store ⟨hsame, hnext⟩
    exact ⟨hsame, hnext.cipher, hnext.cipher_lt, hnext.length_eq, hnext.admits, hnext.room⟩
  unfold step OutgoingFlight.resize
  rw [hflight]
  dsimp only
  rcases wp_cases hbuild with ⟨next, store, hok, -, hnext⟩ | ⟨err, store, herror, hsame⟩
  · rw [hok]
    exact ⟨next, rfl, hnext⟩
  · rw [herror]
    exact ⟨f, rfl, hfitted.of_same hsame⟩

/-- A resize finds an ID of at least this length in use. -/
def LongID (ref : CipherRef) (idLength : Nat) (s : FlightSession) : RenamedOp → Prop
  | .flight (.resize _) => idLength ≤ (s.store.read ref).connectionID.length
  | _ => True

theorem longID_zero (s : FlightSession) (ref : CipherRef) (op : RenamedOp) :
    s.LongID ref 0 op := by
  unfold LongID
  split
  · exact Nat.zero_le _
  · trivial

theorem Fitted.step (hs : s.Fitted ref idLength) {op : RenamedOp}
    (hid : s.LongID ref idLength op) : (s.renamedStep P op).Fitted ref idLength := by
  cases op with
  | setConnectionID ref connectionID =>
    exact hs.onStore (keeps_setConnectionID ref connectionID)
  | flight op =>
    cases op with
    | nextUnsentWire =>
      have hwires := (Flight.takeUnsent_wires (windowCapacity s.records) s.records).1
      exact hs.withRecords (by simpa [nextUnsentRecords] using congrArg List.length hwires)
    | ack numbers => exact hs.withRecords (by simp [ackRecords])
    | refreshPending =>
      obtain ⟨f, hflight, hfitted⟩ := hs
      change Fitted ref idLength { s with
        flight := (s.flight.refreshPending P s.store).1
        store := (s.flight.refreshPending P s.store).2.1 }
      rw [hflight]
      exact ⟨_, rfl, hfitted.rebuild⟩
    | resize mtu => exact hs.resize mtu hid
    | retransmitWire maxRecords => exact hs
    | sealElsewhere ref contentType content =>
      exact hs.onStore (keeps_sealRecord ref contentType content)

theorem fitted_of_built {messages : List HandshakeMessage} {mtu : Nat}
    {before store : CipherStore} {flight : Flight} (href : ref < before.ciphers.length)
    (hflight : buildProtectedFlight P messages mtu ref before = .ok flight store)
    (hid : idLength ≤ (before.read ref).connectionID.length) :
    Fitted ref idLength ⟨.sealed flight, store, 0⟩ := by
  have hbuilt := post_of_wp (Flight.wp_buildProtectedFlight_fitted messages mtu href hid) hflight
  exact ⟨flight, rfl, hbuilt.2⟩

/-- After any run of operations on a protected flight and of changes of connection IDs,
a rebuild succeeds exactly when the cipher has numbers for the pending fragments and
each of them fits a record under the connection ID now in use; then all records that
were rebuilt are within the MTU. -/
theorem rebuild_underConnectionID {messages : List HandshakeMessage} {mtu : Nat}
    {ref : CipherRef} {before store : CipherStore} {flight : Flight}
    (href : ref < before.ciphers.length)
    (hflight : buildProtectedFlight P messages mtu ref before = .ok flight store)
    (ops : List RenamedOp) :
    let s := run (renamedStep P) ⟨.sealed flight, store, 0⟩ ops
    ∃ f, s.flight = .sealed f ∧ ((f.rebuild P s.store).2.2 = none ↔
        (s.store.read f.cipher).canCarry f.mtu f.pending = true) ∧
      ((f.rebuild P s.store).2.2 = none → ∀ record ∈ (f.rebuild P s.store).1.records,
        record.acked = false → record.wire.packet.length ≤ f.mtu) := by
  have hstart := fitted_of_built href hflight (Nat.zero_le _)
  obtain ⟨f, hf, hfitted⟩ := run_invariant_all
    (fun t op (ht : t.Fitted ref 0) => ht.step (t.longID_zero ref op)) hstart ops
  exact ⟨f, hf, hfitted.rebuild_iff⟩

/-- If the ID in use is not longer than the IDs were when the flight was built and when it
was resized, a rebuild needs nothing but the numbers. -/
theorem rebuild_underShorterConnectionID {messages : List HandshakeMessage} {mtu : Nat}
    {before store : CipherStore} {flight : Flight} (href : ref < before.ciphers.length)
    (hflight : buildProtectedFlight P messages mtu ref before = .ok flight store)
    (hbuilt : idLength ≤ (before.read ref).connectionID.length) {ops : List RenamedOp}
    (hresized : Along (renamedStep P) (LongID ref idLength) ⟨.sealed flight, store, 0⟩ ops)
    (hid : ((run (renamedStep P) ⟨.sealed flight, store, 0⟩ ops).store.read
      ref).connectionID.length ≤ idLength) :
    let s := run (renamedStep P) ⟨.sealed flight, store, 0⟩ ops
    ∃ f, s.flight = .sealed f ∧ ((f.rebuild P s.store).2.2 = none ↔
      f.pending = [] ∨ (s.store.read f.cipher).hasNumbers f.pending.length = true) := by
  obtain ⟨f, hf, hfitted⟩ := run_invariant
    (fun t op (ht : t.Fitted ref idLength) hid => ht.step hid)
    (fitted_of_built href hflight hbuilt) hresized
  exact ⟨f, hf, hfitted.rebuild_iff.1.trans (hfitted.canCarry_iff hid)⟩

/-- A flight of three records; the connection ID changes while they are on their way. -/
theorem rebuild_underConnectionID_ticket : ∃ flight store, buildProtectedFlight .checksum
        [⟨handshakeTypeNewSessionTicket, 0, List.replicate 100 5⟩] 80 0 ⟨[sampleCipher], []⟩ =
      .ok flight store ∧
    let s := run (renamedStep .checksum) ⟨.sealed flight, store, 0⟩
      [.flight .nextUnsentWire, .setConnectionID 0 [9, 9]]
    ∃ f, s.flight = .sealed f ∧ ((f.rebuild .checksum s.store).2.2 = none ↔
        (s.store.read f.cipher).canCarry f.mtu f.pending = true) ∧
      ((f.rebuild .checksum s.store).2.2 = none →
        ∀ record ∈ (f.rebuild .checksum s.store).1.records,
          record.acked = false → record.wire.packet.length ≤ f.mtu) := by
  obtain ⟨flight, store, hflight⟩ := exists_of_succeeds
    (show succeeds (buildProtectedFlight .checksum
      [⟨handshakeTypeNewSessionTicket, 0, List.replicate 100 5⟩] 80 0)
        ⟨[sampleCipher], []⟩ = true by decide +kernel)
  exact ⟨flight, store, hflight, rebuild_underConnectionID (by decide) hflight _⟩

end FlightSession

namespace SendingSide

/-- A NewConnectionId is on its way in full records when the peer asks for an ID that
is one byte longer; the next timeout fails the connection. -/
theorem rebuild_longerConnectionID :
    let s := run (step .checksum anonymousAuth)
      (start ((System.start .checksum smallSetup).endpoint .client) [])
      [.sendNewConnectionIDs [List.replicate 250 7] false none]
    let switched := s.step .checksum anonymousAuth
      (.receiveConnectionIDs { s.cids with sendConnectionID := [9, 9] } (some [9, 9]))
    switched.failure = none ∧
    (switched.step .checksum anonymousAuth (.flightTimer .newConnectionID 1)).failure =
      some (.protocolError "retransmitted protected handshake record exceeds MTU") := by
  decide +kernel

end SendingSide

end Dtls13
