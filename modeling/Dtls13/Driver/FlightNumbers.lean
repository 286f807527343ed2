import Dtls13.Driver.Transport
import Dtls13.Handshake.RetransmissionExact
import Mathlib.Data.List.Pairwise

/-! # Plaintext numbers of flights

Numbers of epoch 0 come from two sources, the flights and the counter of the
connection. A flight that takes new numbers, in a rebuild or a resize, takes those
after its own; this is enough to tell its records from all others as long as the
counter is not ahead of the flight.
-/

namespace Dtls13

open StateLogic FlightRecord OutgoingFlight List FlightSession Transport

/-! ## Errors of sending a plaintext flight -/

/-- The error carries no alert, so that before there are keys nothing reports it. -/
def Err.Silent (err : Err) : Prop := err.asLocalAlert = none

open Err

theorem raises_allocatePlainRecordWire {typ : UInt8} {epoch sequence payloadLen : Nat} :
    Raises Silent (allocatePlainRecordWire typ epoch sequence payloadLen) := by
  intro err herr
  unfold allocatePlainRecordWire at herr
  split_ifs at herr <;> cases herr <;> rfl

theorem raises_marshalPlainRecord (r : PlainRecord) : Raises Silent (marshalPlainRecord r) := by
  intro err herr
  unfold marshalPlainRecord at herr
  cases hheader : allocatePlainRecordWire r.typ r.epoch r.sequence r.payload.length with
  | ok header =>
    rw [hheader] at herr
    cases herr
  | error failure =>
    rw [hheader] at herr
    cases herr
    exact raises_allocatePlainRecordWire _ hheader

/-- A fragment within its message can be written. -/
theorem raises_marshalHandshakeFragment {f : HandshakeFragment} (hlength : f.length < 2 ^ 24)
    (hwithin : f.offset + f.body.length ≤ f.length) : Raises Silent f.marshalHandshakeFragment := by
  intro err herr
  unfold HandshakeFragment.marshalHandshakeFragment
    HandshakeFragment.validateHandshakeFragment at herr
  have hbounds : (decide (2 ^ 24 ≤ f.length) || decide (2 ^ 24 ≤ f.offset) ||
      decide (f.length < f.offset + f.body.length)) = false := by
    simp only [Bool.or_eq_false_iff, decide_eq_false_iff_not]
    omega
  rw [hbounds] at herr
  cases herr

theorem raises_plainFragmentRecords {sequence : Nat} {fragments : List HandshakeFragment}
    (hfragments : ∀ f ∈ fragments, f.length < 2 ^ 24 ∧ f.offset + f.body.length ≤ f.length) :
    Raises Silent (plainFragmentRecords sequence fragments) := by
  induction fragments generalizing sequence with
  | nil => exact raises_ok _
  | cons fragment rest ih =>
    obtain ⟨⟨hlength, hwithin⟩, hrest⟩ := forall_mem_cons.mp hfragments
    have hfirst : Raises Silent (plainFragmentRecord sequence fragment) :=
      raises_bind raises_allocatePlainRecordWire fun _ =>
        raises_bind (raises_marshalHandshakeFragment hlength hwithin) fun _ => raises_ok _
    exact raises_bind hfirst fun _ => raises_bind (ih hrest) fun _ => raises_ok _

theorem raises_buildPlainFlight {messages : List HandshakeMessage} {mtu first : Nat} :
    Raises Silent (buildPlainFlight messages mtu first) := by
  intro err herr
  unfold buildPlainFlight at herr
  dsimp only at herr
  split_ifs at herr with hsmall hlong
  · cases herr
    rfl
  · cases herr
    rfl
  · refine raises_bind (raises_plainFragmentRecords fun f hf => ?_) (fun _ => raises_ok _) err herr
    obtain ⟨message, hmessage, hf⟩ := mem_flatMap.mp hf
    have hpart := isPart_of_mem_fragments hf
    rw [hpart.length]
    simp only [any_eq_true, decide_eq_true_eq, not_exists, not_and, not_le] at hlong
    exact ⟨hlong message hmessage, hpart.length ▸ hpart.within⟩

/-- The failure of a rebuild is the failure of renewing a record. -/
theorem failure_renewPending {τ : Type} {E : Err → Prop}
    {renew : Nat → FlightRecord → EStateM Err τ SealedRecord} {index : Nat}
    {records : List FlightRecord} {source : τ} {err : Err}
    (hrenew : ∀ r ∈ records, ∀ i, Throws E (renew i r))
    (hfailure : (renewPending renew index records source).2.2 = some err) : E err := by
  fun_induction renewPending with
  | case1 => cases hfailure
  | case2 index r records source hacked others next failure hloop ih =>
    rw [hloop] at ih
    exact ih (forall_mem_cons.mp hrenew).2 hfailure
  | case3 index r records source hopen error next hrun =>
    cases hfailure
    have hthrows := (forall_mem_cons.mp hrenew).1 index source
    unfold wp at hthrows
    rwa [hrun] at hthrows
  | case4 index r records source hopen wire middle hrun others next failure hloop ih =>
    rw [hloop] at ih
    exact ih (forall_mem_cons.mp hrenew).2 hfailure

theorem throws_renewPlain {r : FlightRecord} (hplain : IsPlain r.wire) (i : Nat) :
    Throws Silent (renewPlain i r) := by
  obtain ⟨old, packet, hpacket, hwire⟩ := hplain
  apply throws_bind throws_get
  intro sequence
  have hparsed : parsePlainRecordsView r.wire.packet = .ok [old] := by
    rw [hwire]
    exact parsePlainRecordsView_marshal hpacket
  rw [hparsed]
  apply throws_bind (throws_ofExcept (raises_ok _))
  intro parsed
  cases parsed with
  | nil => exact throws_throw rfl
  | cons record _ =>
    apply throws_bind (throws_ofExcept (raises_marshalPlainRecord _))
    intro renewed
    exact throws_bind (throws_modify _) fun _ => throws_pure _

/-! ## Known records -/

theorem SentFlight.records_withRecords (f : SentFlight) (records : List FlightRecord) :
    (f.withRecords records).records = records := Dtls13.records_withRecords f.flight records

namespace OutgoingFlight

variable {P : Primitives} {flight flight' : OutgoingFlight} {store store' : CipherStore}

theorem cipher_withRecords (flight : OutgoingFlight) (records : List FlightRecord) :
    (flight.withRecords records).cipher = flight.cipher := by
  cases flight <;> rfl

theorem exists_of_cipher_eq_none (hcipher : flight.cipher = none) :
    ∃ plain, flight = .plain plain := by
  cases flight with
  | plain plain => exact ⟨plain, rfl⟩
  | sealed flight => cases hcipher
  | combined records first second => cases hcipher

end OutgoingFlight

/-- In a flight a number belongs to one record. -/
theorem eq_of_number {records : List FlightRecord}
    (hnodup : (allNumbers records).Nodup) {x x' : FlightRecord}
    (hx : x ∈ records) (hx' : x' ∈ records) (heq : x.number = x'.number) : x = x' := by
  by_contra hne
  have : Std.Symm (Function.onFun List.Disjoint numbers) :=
    ⟨fun _ _ hdisjoint _ hn hn' => hdisjoint hn' hn⟩
  have hdisjoint := (nodup_flatMap.mp hnodup).2.forall hx hx' hne
  exact hdisjoint mem_cons_self (heq ▸ mem_cons_self)

namespace Outbox

/-- No two plaintext records that were written have the same number. -/
def Unambiguous (o : Outbox) : Prop :=
  ∀ r ∈ o.transport.written, ∀ r' ∈ o.transport.written, r.epoch = 0 → r'.epoch = 0 →
    r.sequence = r'.sequence → r = r'

/-- The plaintext records that were written or that a flight can write. -/
structure Known (records : List FlightRecord) (o : Outbox) (r : SealedRecord) : Prop where
  epoch : r.epoch = 0
  origin : r ∈ o.transport.written ∨ ∃ x ∈ records, x.wire = r

/-- The numbers in use are below the counter or below those the flight takes next,
and they tell the records apart. -/
structure Numbered (counter : Nat) (records : List FlightRecord) (o : Outbox) : Prop where
  below : ∀ r, Known records o r → r.sequence < counter ∨ r.sequence < nextRecordSequence records
  unique : ∀ r r', Known records o r → Known records o r' → r.sequence = r'.sequence → r = r'

variable {counter : Nat} {records others : List FlightRecord} {o next : Outbox}

section

variable (hnumbered : Numbered counter records o)

include hnumbered

theorem Numbered.unambiguous : o.Unambiguous :=
  fun r hr r' hr' hepoch hepoch' => hnumbered.unique r r' ⟨hepoch, .inl hr⟩ ⟨hepoch', .inl hr'⟩

/-- Only the records that are known matter. -/
theorem Numbered.of_known (hknown : ∀ r, Known others next r → Known records o r)
    (hnext : nextRecordSequence others = nextRecordSequence records) :
    Numbered counter others next where
  below r hr := by
    rw [hnext]
    exact hnumbered.below r (hknown r hr)
  unique r r' hr hr' := hnumbered.unique r r' (hknown r hr) (hknown r' hr')

theorem Numbered.reflag (hreflag : List.Forall₂ Reflag records others) :
    Numbered counter others o := by
  refine hnumbered.of_known ?_ (nextRecordSequence_of_reflag hreflag)
  rintro r ⟨hepoch, hwritten | ⟨x', hx', rfl⟩⟩
  · exact ⟨hepoch, .inl hwritten⟩
  · obtain ⟨i, hi⟩ := List.getElem?_of_mem hx'
    obtain ⟨x, hx, hflags⟩ := exists_of_reflag hreflag hi
    exact ⟨hepoch, .inr ⟨x, mem_of_getElem? hx, hflags.wire.symm⟩⟩

/-- Records of the flight, and protected ones, may be written at any time. -/
theorem Numbered.wrote {wires : List SealedRecord}
    (hwires : ∀ wire ∈ wires, wire.epoch = 0 → ∃ x ∈ records, x.wire = wire)
    (hwritten : next.transport.written = o.transport.written ++ wires) :
    Numbered counter records next := by
  refine hnumbered.of_known ?_ rfl
  rintro r ⟨hepoch, horigin⟩
  rw [hwritten, mem_append] at horigin
  rcases horigin with (hold | hnew) | hflight
  · exact ⟨hepoch, .inl hold⟩
  · exact ⟨hepoch, .inr (hwires r hnew hepoch)⟩
  · exact ⟨hepoch, .inr hflight⟩

/-- New records of a flight that is not behind the counter. -/
theorem Numbered.renumber (hahead : counter ≤ nextRecordSequence records)
    (hnext : nextRecordSequence records ≤ nextRecordSequence others)
    (hnodup : (allNumbers others).Nodup) (hfresh : ∀ x ∈ others, x.wire.epoch = 0 →
      (∃ y ∈ records, y.wire = x.wire) ∨ nextRecordSequence records ≤ x.wire.sequence)
    (hwritten : next.transport.written = o.transport.written) : Numbered counter others next := by
  have hbelow : ∀ r, Known records o r → r.sequence < nextRecordSequence records := fun r hr =>
    (hnumbered.below r hr).elim (fun hlt => hlt.trans_le hahead) id
  -- What was written before is known from before.
  have hold : ∀ r, Known others next r → Known records o r ∨ ∃ x ∈ others, x.wire = r := by
    rintro r ⟨hepoch, horigin⟩
    rw [hwritten] at horigin
    exact horigin.imp (fun hmem => ⟨hepoch, .inl hmem⟩) id
  have hsame : ∀ x ∈ others, ∀ r, Known records o r → x.wire.epoch = 0 →
      r.sequence = x.wire.sequence → r = x.wire := by
    intro x hx r hr hepoch heq
    rcases hfresh x hx hepoch with ⟨y, hy, hwire⟩ | hlater
    · exact hnumbered.unique r x.wire hr ⟨hepoch, .inr ⟨y, hy, hwire⟩⟩ heq
    · have hlt := hbelow r hr
      omega
  constructor
  · intro r hr
    rcases hold r hr with hbefore | ⟨x, hx, rfl⟩
    · exact .inr ((hbelow r hbefore).trans_le hnext)
    · exact .inr (lt_nextRecordSequence hx hr.epoch)
  · intro r r' hr hr' heq
    rcases hold r hr with hbefore | ⟨x, hx, rfl⟩
    · rcases hold r' hr' with hbefore' | ⟨x', hx', rfl⟩
      · exact hnumbered.unique r r' hbefore hbefore' heq
      · exact hsame x' hx' r hbefore hr'.epoch heq
    · rcases hold r' hr' with hbefore' | ⟨x', hx', rfl⟩
      · exact (hsame x hx r' hbefore' hr.epoch heq.symm).symm
      · have hepoch := hr.epoch.trans hr'.epoch.symm
        have hnumber : x.number = x'.number := by
          rw [number, number, SealedRecord.number, SealedRecord.number, hepoch, heq]
        exact congrArg wire (eq_of_number hnodup hx hx' hnumber)

/-- A record with the number of a counter that is not behind the flight. -/
theorem Numbered.count (hahead : nextRecordSequence records ≤ counter) {record : SealedRecord}
    (hsequence : record.sequence = counter)
    (hwritten : next.transport.written = o.transport.written ++ [record]) :
    Numbered (counter + 1) records next := by
  have hbelow : ∀ r, Known records o r → r.sequence < counter := fun r hr =>
    (hnumbered.below r hr).elim id fun hlt => hlt.trans_le hahead
  have hold : ∀ r, Known records next r → Known records o r ∨ r = record := by
    rintro r ⟨hepoch, horigin⟩
    rw [hwritten, mem_append, mem_singleton] at horigin
    rcases horigin with (hmem | rfl) | hflight
    · exact .inl ⟨hepoch, .inl hmem⟩
    · exact .inr rfl
    · exact .inl ⟨hepoch, .inr hflight⟩
  constructor
  · intro r hr
    rcases hold r hr with hbefore | rfl
    · exact .inl ((hbelow r hbefore).trans (Nat.lt_succ_self counter))
    · exact .inl (hsequence ▸ Nat.lt_succ_self _)
  · intro r r' hr hr' heq
    rcases hold r hr with hbefore | rfl
    · rcases hold r' hr' with hbefore' | rfl
      · exact hnumbered.unique r r' hbefore hbefore' heq
      · have hlt := hbelow r hbefore
        omega
    · rcases hold r' hr' with hbefore' | rfl
      · have hlt := hbelow r' hbefore'
        omega
      · rfl

/-- A counter may leave numbers out. -/
theorem Numbered.weaken {later : Nat} (hle : counter ≤ later) : Numbered later records o :=
  ⟨fun r hr => (hnumbered.below r hr).imp_left fun hlt => hlt.trans_le hle, hnumbered.unique⟩

/-- Writing a record with the number of the counter, which is spent even if the write
fails. -/
theorem Numbered.writeCounted (hahead : nextRecordSequence records ≤ counter)
    {record : SealedRecord} (hsequence : record.sequence = counter) : wp (writeAll [record])
      (fun _ t => Numbered (counter + 1) records { o with transport := t })
      (fun _ t => Numbered (counter + 1) records { o with transport := t }) o.transport := by
  refine wp_mono (wp_writeAll [record] o.transport) ?_ ?_
  · intro _ t hwrote
    exact hnumbered.count hahead hsequence hwrote.written
  · rintro err t ⟨done, rest, heq, hne, hwrote⟩
    have hnone : done = [] := by
      cases done with
      | nil => rfl
      | cons first others =>
        have hlength := congrArg List.length heq
        have hrest := length_pos_iff.mpr hne
        simp only [length_cons, length_append, length_nil] at hlength
        omega
    rw [hnone] at hwrote
    exact (hnumbered.wrote (by simp) hwrote.written).weaken (Nat.le_succ counter)

end

/-! ## Sending a flight -/

variable {P : Primitives} {ref : Option CipherRef} {f : SentFlight}

/-- A flight that may take new numbers. Before there is a cipher there is no store. -/
structure Sending (counter : Nat) (ref : Option CipherRef) (f : SentFlight) (o : Outbox) :
    Prop where
  consistent : Consistent f.flight o.store
  nodup : (allNumbers f.records).Nodup
  numbered : Numbered counter f.records o
  ahead : counter ≤ nextRecordSequence f.records
  cipher : f.flight.cipher = ref
  unkeyed : ref = none → o.store = ⟨[], []⟩

/-- A flight was given up. -/
structure Abandoned (ref : Option CipherRef) (err : Err) (o : Outbox) : Prop where
  unambiguous : o.Unambiguous
  silent : ref = none → err.Silent

section

variable (hsending : Sending counter ref f o)

include hsending

theorem Sending.reflag (hreflag : List.Forall₂ Reflag f.records others) :
    Sending counter ref (f.withRecords others) o where
  consistent := hsending.consistent.reflag hreflag
  nodup := by
    rw [f.records_withRecords, flatMap_numbers_of_reflag hreflag]
    exact hsending.nodup
  numbered := by
    rw [f.records_withRecords]
    exact hsending.numbered.reflag hreflag
  ahead := by
    rw [f.records_withRecords, nextRecordSequence_of_reflag hreflag]
    exact hsending.ahead
  cipher := (f.flight.cipher_withRecords others).trans hsending.cipher
  unkeyed := hsending.unkeyed

theorem Sending.flagged (retransmitted : Bool) :
    Sending counter ref { f with retransmitted := retransmitted } o :=
  ⟨hsending.consistent, hsending.nodup, hsending.numbered, hsending.ahead, hsending.cipher,
    hsending.unkeyed⟩

theorem Sending.atMTU (mtu : Nat) :
    Sending counter ref f { o with transport := { o.transport with pathMTU := mtu } } where
  consistent := hsending.consistent
  nodup := hsending.nodup
  numbered := hsending.numbered.of_known (fun _ hr => ⟨hr.epoch, hr.origin⟩) rfl
  ahead := hsending.ahead
  cipher := hsending.cipher
  unkeyed := hsending.unkeyed

/-- The flight with other records, all of them old or with numbers it had not reached. -/
theorem Sending.renumber {flight : OutgoingFlight} {store : CipherStore}
    (hconsistent : Consistent flight store)
    (hnext : nextRecordSequence f.records ≤ nextRecordSequence flight.records)
    (hnodup : (allNumbers flight.records).Nodup)
    (hfresh : ∀ x ∈ flight.records, (∃ y ∈ f.records, y.wire = x.wire) ∨
      x.number ∉ Spent (nextRecordSequence f.records) o.store)
    (hcipher : flight.cipher = f.flight.cipher) (hstore : f.flight.cipher = none → store = o.store)
    :
    Sending counter ref { f with flight := flight } { o with store := store } where
  consistent := hconsistent
  nodup := hnodup
  numbered := by
    refine hsending.numbered.renumber hsending.ahead hnext hnodup ?_ rfl
    intro x hx hepoch
    refine (hfresh x hx).imp id fun hunspent => ?_
    by_contra hlt
    exact hunspent (.inl ⟨hepoch, Nat.lt_of_not_le hlt⟩)
  ahead := hsending.ahead.trans hnext
  cipher := hcipher.trans hsending.cipher
  unkeyed hnone := by
    rw [hstore (hsending.cipher.trans hnone)]
    exact hsending.unkeyed hnone

theorem Sending.refreshPending :
    wp (refreshPending P f) (Sending counter ref) (Abandoned ref) o := by
  unfold wp Outbox.refreshPending
  rcases hrun : f.flight.refreshPending P o.store with ⟨flight, store, failure⟩
  have hrebuilt := hsending.consistent.refreshPending hrun
  cases failure with
  | none =>
    refine hsending.renumber hrebuilt.consistent hrebuilt.bound (hrebuilt.nodup hsending.nodup)
      ?_ hrebuilt.cipher fun hnone => ?_
    · intro x hx
      obtain ⟨y, hy, hrenewal⟩ := exists_of_forall₂ hrebuilt.each hx
      cases hrenewal with
      | same => exact .inl ⟨x, hy, rfl⟩
      | renewed _ hunspent _ _ => exact .inr hunspent
    · obtain ⟨plain, hflight⟩ := exists_of_cipher_eq_none hnone
      rw [hflight] at hrun
      exact (congrArg (fun result => result.2.1) hrun).symm
  | some err =>
    refine ⟨hsending.numbered.unambiguous, fun hnone => ?_⟩
    obtain ⟨plain, hflight⟩ :=
      exists_of_cipher_eq_none (hsending.cipher.trans hnone)
    have hconsistent := hsending.consistent
    rw [hflight] at hrun hconsistent
    cases hconsistent with
    | plain hrecords =>
      exact failure_renewPending (fun r hr i => throws_renewPlain (hrecords.plain r hr) i)
        (congrArg (fun result => result.2.2) hrun)

end

/-- A resize that succeeds did not stop between the parts of a combined flight. -/
theorem refits_of_resize {flight flight' : OutgoingFlight} {store store' : CipherStore} {mtu : Nat}
    (hrun : flight.resize P mtu store = (flight', store', none)) :
    FlightSession.Refits P ⟨flight, store, 0⟩ (.resize mtu) := by
  cases flight with
  | plain flight => rfl
  | sealed flight => rfl
  | combined records first second =>
    unfold OutgoingFlight.resize OutgoingFlight.resizeCombined at hrun
    dsimp only at hrun
    cases hfirst : first.resize mtu with
    | error err =>
      rw [hfirst] at hrun
      cases hrun
    | ok plain =>
      rw [hfirst] at hrun
      dsimp only at hrun
      cases hsecond : second.resize P mtu store with
      | error err next =>
        rw [hsecond] at hrun
        cases hrun
      | ok rebuilt next =>
        simp [FlightSession.Refits, refits, StateLogic.succeeds, hsecond]

theorem Sending.resize (hsending : Sending counter ref f o) (mtu : Nat) :
    wp (resize P f mtu) (Sending counter ref) (Abandoned ref) o := by
  unfold wp Outbox.resize
  rcases hrun : f.flight.resize P mtu o.store with ⟨flight, store, failure⟩
  cases failure with
  | none =>
    have hresized := resize_of_consistent (s := ⟨f.flight, o.store, 0⟩)
      hsending.consistent (refits_of_resize hrun) hrun
    rcases hresized with ⟨-, hresized⟩ | ⟨hfailed, -⟩
    · refine hsending.renumber hresized.consistent hresized.bound hresized.fresh.nodup
        (fun x hx => .inr (hresized.fresh.unused x hx)) hresized.cipher
        fun hnone => ?_
      obtain ⟨plain, hflight⟩ := exists_of_cipher_eq_none hnone
      rw [hflight] at hrun
      unfold OutgoingFlight.resize at hrun
      dsimp only at hrun
      split at hrun <;> cases hrun
      rfl
    · cases hfailed
  | some err =>
    refine ⟨hsending.numbered.unambiguous, fun hnone => ?_⟩
    obtain ⟨plain, hflight⟩ :=
      exists_of_cipher_eq_none (hsending.cipher.trans hnone)
    rw [hflight] at hrun
    unfold OutgoingFlight.resize at hrun
    dsimp only at hrun
    split at hrun
    next hresize =>
      cases hrun
      exact raises_buildPlainFlight _ hresize
    next => cases hrun

theorem throws_writeAll (wires : List SealedRecord) : Throws Silent (writeAll wires) := by
  induction wires with
  | nil => exact throws_pure _
  | cons wire rest ih =>
    refine throws_bind ?_ fun _ => ih
    apply throws_bind throws_get
    intro t
    split
    · exact throws_bind (throws_modify _) fun _ => throws_throw rfl
    · exact throws_bind (throws_modify _) fun _ => throws_throw rfl
    · exact throws_modify _

theorem Sending.write (hsending : Sending counter ref f o) {wires : List SealedRecord}
    (hwires : ∀ wire ∈ wires, wire.epoch = 0 → ∃ x ∈ f.records, x.wire = wire) :
    wp (onTransport (writeAll wires)) (fun _ => Sending counter ref f)
      (fun err next => Sending counter ref f next ∧ err.Silent) o := by
  have hwrote : ∀ {done : List SealedRecord} {t : Transport}, done ⊆ wires →
      Transport.Wrote done o.transport t → Sending counter ref f { o with transport := t } :=
    fun hdone hwritten => ⟨hsending.consistent, hsending.nodup,
      hsending.numbered.wrote (fun wire hwire => hwires wire (hdone hwire)) hwritten.written,
      hsending.ahead, hsending.cipher, hsending.unkeyed⟩
  rw [onTransport, wp_zoom]
  refine wp_mono (wp_and (wp_writeAll wires o.transport)
    (throws_writeAll wires o.transport)) ?_ ?_
  · rintro _ t ⟨hall, -⟩
    exact hwrote (List.Subset.refl _) hall
  · rintro err t ⟨⟨done, rest, rfl, -, hdone⟩, hsilent⟩
    exact ⟨hwrote (subset_append_left _ _) hdone, hsilent⟩

theorem Sending.abandoned (hsending : Sending counter ref f o) {err : Err} (hsilent : err.Silent) :
    Abandoned ref err o := ⟨hsending.numbered.unambiguous, fun _ => hsilent⟩

/-- What a flight hands out are wire images of its records. -/
theorem mem_of_returned (op : FlightOp) (store : CipherStore) {wire : SealedRecord}
    (hwire : wire ∈ returned ⟨f.flight, store, 0⟩ op) : ∃ x ∈ f.records, x.wire = wire := by
  obtain ⟨r, hr, -, heq⟩ := exists_of_returned hwire
  exact ⟨r, hr, heq⟩

/-- A flight that may take new numbers keeps them apart however it is sent. -/
theorem sendingRule (P : Primitives) (counter : Nat) (ref : Option CipherRef) :
    FlightRule P (Sending counter ref) (Sending counter ref) (Abandoned ref) where
  stops hsending := hsending.abandoned rfl
  unsent {f o} hsending := by
    have hreflag := reflag_nextUnsentRecords f.records
    refine wp_mono (hsending.write fun wire hwire _ =>
      mem_of_returned .nextUnsentWire o.store hwire) ?_ ?_
    · exact fun _ _ hwritten => hwritten.reflag hreflag
    · exact fun err _ hfailed => ⟨hfailed.1.reflag hreflag, hfailed.1.abandoned hfailed.2⟩
  atMTU mtu hsending := hsending.atMTU mtu
  resize mtu hsending := hsending.resize mtu
  refresh hsending := hsending.refreshPending
  resend {f o} hsending := by
    rw [Outbox.retransmitFlight, wp_bind]
    refine wp_mono (hsending.write fun wire hwire _ =>
      mem_of_returned (.retransmitWire 10) o.store hwire) ?_ ?_
    · exact fun _ _ hwritten => hwritten.flagged _
    · exact fun err _ hfailed => hfailed.1.abandoned hfailed.2
  flagged retransmitted hsending := hsending.flagged retransmitted

end Outbox

end Dtls13
