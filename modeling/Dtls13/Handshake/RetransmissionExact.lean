import Dtls13.Handshake.Rebuild
import Dtls13.Handshake.Retransmission

/-! # Runs of a flight

Sending, acknowledging, rebuilding and resizing in any order. The flight is a list
of numbered items; every call is one step of it. A combined flight stays in step with
its parts unless a resize succeeds in the plaintext part only.
-/

namespace Dtls13

open ByteCodec StateLogic RunSystem Renumbering FlightRecord List

/-! ## Raising flags -/

/-- The record with more flags set. -/
structure FlightRecord.Reflag (r r' : FlightRecord) : Prop where
  wire : r'.wire = r.wire
  earlier : r'.earlierNumbers = r.earlierNumbers
  acked : r.acked = true → r'.acked = true

variable {records others left right : List FlightRecord} {messages : List HandshakeMessage}
  {next : Nat} {store store' : CipherStore} {f : Flight} {flight flight' : OutgoingFlight}

theorem FlightRecord.Reflag.number {r r' : FlightRecord} (hreflag : Reflag r r') :
    r'.number = r.number := congrArg SealedRecord.number hreflag.wire

theorem FlightRecord.Reflag.numbers {r r' : FlightRecord} (hreflag : Reflag r r') :
    r'.numbers = r.numbers := by
  rw [FlightRecord.numbers, FlightRecord.numbers, hreflag.number, hreflag.earlier]

section

variable (hreflag : List.Forall₂ Reflag records others)

include hreflag

theorem flatMap_numbers_of_reflag : allNumbers others = allNumbers records := by
  induction hreflag with
  | nil => rfl
  | cons hfirst _ ih => rw [allNumbers_cons, allNumbers_cons, hfirst.numbers, ih]

theorem map_wire_of_reflag : others.map wire = records.map wire := by
  induction hreflag with
  | nil => rfl
  | cons hfirst _ ih => rw [map_cons, map_cons, hfirst.wire, ih]

theorem map_number_of_reflag : others.map number = records.map number := by
  have hmap := congrArg (map SealedRecord.number) (map_wire_of_reflag hreflag)
  rwa [map_map, map_map] at hmap

theorem nextRecordSequence_of_reflag : nextRecordSequence others = nextRecordSequence records := by
  have hmap := map_number_of_reflag hreflag
  have heq : ∀ list : List FlightRecord, nextRecordSequence list =
      (list.map number).foldl (fun next number =>
        if number.epoch = 0 ∧ next ≤ number.sequence then number.sequence + 1 else next) 0 := by
    intro list
    rw [foldl_map]
    rfl
  rw [heq, heq, hmap]

theorem exists_of_reflag {i : Nat} {r' : FlightRecord} (hr : others[i]? = some r') :
    ∃ r, records[i]? = some r ∧ Reflag r r' := by
  obtain ⟨hi, rfl⟩ := List.getElem?_eq_some_iff.mp hr
  have hi' : i < records.length := hreflag.length_eq ▸ hi
  exact ⟨_, List.getElem?_eq_getElem hi', hreflag.get hi' hi⟩

theorem PlainRecords.reflag (hplain : PlainRecords messages next records) :
    PlainRecords messages next others where
  plain r' hr' := by
    obtain ⟨i, hi⟩ := List.getElem?_of_mem hr'
    obtain ⟨r, hr, hflags⟩ := exists_of_reflag hreflag hi
    rw [hflags.wire]
    exact hplain.plain r (mem_of_getElem? hr)
  bound := by
    rw [nextRecordSequence_of_reflag hreflag]
    exact hplain.bound
  known := by
    rw [flatMap_numbers_of_reflag hreflag, nextRecordSequence_of_reflag hreflag]
    exact hplain.known
  empty hmessages := by
    have hlength := hreflag.length_eq
    rw [hplain.empty hmessages] at hlength
    exact length_eq_zero_iff.mp hlength.symm

theorem SealedRecords.reflag (hsealed : SealedRecords f store records) :
    SealedRecords f store others where
  sealing := hsealed.sealing
  holds := Flight.Reflagged.holds (f := { f with records := records })
    ⟨map_wire_of_reflag hreflag, rfl, rfl, rfl⟩ hsealed.holds
  known := by
    rw [flatMap_numbers_of_reflag hreflag]
    exact hsealed.known

end

theorem Consistent.reflag (hconsistent : Consistent flight store)
    (hreflag : List.Forall₂ Reflag flight.records others) :
    Consistent (flight.withRecords others) store := by
  cases hconsistent with
  | plain hplain => exact .plain (hplain.reflag hreflag)
  | sealed hsealed => exact .sealed ((hsealed.reflag hreflag).withRecords _ _)
  | @combined left right first second _ hleft hright hplain hnext hsealed =>
    have hfirst := forall₂_take left.length hreflag
    have hsecond := forall₂_drop left.length hreflag
    change List.Forall₂ Reflag ((left ++ right).take left.length) _ at hfirst
    change List.Forall₂ Reflag ((left ++ right).drop left.length) _ at hsecond
    rw [take_left' rfl] at hfirst
    rw [drop_left' rfl] at hsecond
    have hcombined := Consistent.combined (hfirst.length_eq.symm.trans hleft)
      (hsecond.length_eq.symm.trans hright) (hplain.reflag hfirst)
      ((nextRecordSequence_of_reflag hfirst).trans_le hnext) (hsealed.reflag hsecond)
    rwa [take_append_drop] at hcombined

theorem reflag_ackRecords (records : List FlightRecord) (listed : List RecordNumber) :
    List.Forall₂ Reflag records (ackRecords records listed) := by
  unfold ackRecords
  rw [forall₂_map_right_iff]
  exact forall₂_same.mpr fun r _ => ⟨rfl, rfl, fun hacked => by simp [hacked]⟩

theorem reflag_nextUnsentRecords (records : List FlightRecord) :
    List.Forall₂ Reflag records (nextUnsentRecords records).1 := by
  refine (forall₂_takeUnsent _ records).imp fun r r' hmarked => ?_
  rcases hmarked with rfl | rfl <;> exact ⟨rfl, rfl, id⟩

@[simp] theorem records_withRecords (flight : OutgoingFlight) (records : List FlightRecord) :
    (flight.withRecords records).records = records := by
  cases flight <;> rfl

/-! ## One step -/

namespace FlightSession

variable (P : Primitives)

/-- A resize of a combined flight does not stop between its two parts. -/
def refits (s : FlightSession) : FlightOp → Bool
  | .resize mtu =>
    match s.flight with
    | .combined _ first second =>
      !(first.resize mtu).isOk || succeeds (second.resize P mtu) s.store
    | _ => true
  | _ => true

abbrev Refits (s : FlightSession) (op : FlightOp) : Prop := s.refits P op = true

/-- In terms of the MTU and the cipher: if the plaintext part can be cut for the MTU, a
protected record has room for a byte of a message and there are numbers for its fragments. -/
theorem refits_resize_iff {s : FlightSession} {mtu : Nat} {records : List FlightRecord}
    {first : PlainFlight} {second : Flight} (hflight : s.flight = .combined records first second)
    (href : second.cipher < s.store.ciphers.length)
    (hepoch : (s.store.read second.cipher).epoch ≤ maxSendingEpoch)
    (hlimit : (s.store.read second.cipher).plaintextLimit ≤ maxRecordContent + 1)
    (hshort : ∀ m ∈ second.messages, m.body.length < 2 ^ 24) :
    s.Refits P (.resize mtu) ↔ ((first.resize mtu).isOk = true →
      (s.store.read second.cipher).canBuild mtu second.messages = true) := by
  have hresize : succeeds (second.resize P mtu) s.store =
      succeeds (buildProtectedFlight P second.messages mtu second.cipher) s.store := by
    unfold StateLogic.succeeds Flight.resize
    rw [bind_apply]
    cases buildProtectedFlight P second.messages mtu second.cipher s.store <;> rfl
  rw [← buildProtectedFlight_succeeds_iff (P := P) href hepoch hlimit hshort, ← hresize]
  unfold Refits refits
  rw [hflight]
  dsimp only
  cases (first.resize mtu).isOk <;> simp

/-- The flight as numbered items. -/
def snapshot (s : FlightSession) : Snapshot RecordNumber SealedRecord Bytes :=
  ⟨s.generation, Spent (nextRecordSequence s.records) s.store, s.records.map FlightRecord.item⟩

structure Healthy (s : FlightSession) : Prop where
  consistent : Consistent s.flight s.store
  nodup : (allNumbers s.records).Nodup
  window : WithinWindow s.records

variable {P} {s : FlightSession}

theorem spent_of_consistent (hconsistent : Consistent flight store) :
    ∀ n ∈ allNumbers flight.records, n ∈ Spent (nextRecordSequence flight.records) store := by
  cases hconsistent with
  | plain hplain => exact hplain.spent le_rfl store
  | sealed hsealed => exact hsealed.spent _
  | @combined left right first second _ hleft hright hplain hnext hsealed =>
    intro n hn
    change n ∈ allNumbers (left ++ right) at hn
    change n ∈ Spent (nextRecordSequence (left ++ right)) store
    rw [nextRecordSequence_append fun r hr => hsealed.epoch hr]
    rw [allNumbers_append, mem_append] at hn
    rcases hn with hleft | hright
    · exact hplain.spent le_rfl store n hleft
    · exact hsealed.spent _ n hright

theorem flatMap_items (records : List FlightRecord) : (records.map item).flatMap Item.numbers =
      allNumbers records := by
  rw [flatMap_map]
  rfl

theorem Healthy.valid (hhealthy : s.Healthy) : s.snapshot.Valid where
  spent x hx n hn := by
    obtain ⟨r, hr, rfl⟩ := mem_map.mp hx
    exact spent_of_consistent hhealthy.consistent n (mem_flatMap.mpr ⟨r, hr, hn⟩)
  nodup := by
    change ((s.records.map item).flatMap Item.numbers).Nodup
    rw [flatMap_items]
    exact hhealthy.nodup

/-- Raising flags is a step in which every record keeps its number. -/
theorem Healthy.reflag (hhealthy : s.Healthy) (hreflag : List.Forall₂ Reflag s.records others)
    (hwindow : WithinWindow others) : Healthy { s with flight := s.flight.withRecords others } ∧
      s.snapshot.Advance (snapshot { s with flight := s.flight.withRecords others }) := by
  have hrecords : records { s with flight := s.flight.withRecords others } = others :=
    records_withRecords s.flight others
  refine ⟨⟨hhealthy.consistent.reflag hreflag, ?_, ?_⟩, .kept rfl ?_ ?_⟩
  · rw [hrecords, flatMap_numbers_of_reflag hreflag]
    exact hhealthy.nodup
  · rwa [hrecords]
  · unfold snapshot
    dsimp only
    rw [hrecords, nextRecordSequence_of_reflag hreflag]
  · change List.Forall₂ _ (s.records.map item) ((records { s with flight := _ }).map item)
    rw [hrecords, forall₂_map_left_iff, forall₂_map_right_iff]
    exact hreflag.imp fun r r' hflags =>
      .kept hflags.numbers hflags.wire (congrArg SealedRecord.content hflags.wire) hflags.acked

theorem protected_of_reflag (hreflag : List.Forall₂ Reflag records others)
    (hothers : ∃ r ∈ others, 0 < r.number.epoch) : ∃ r ∈ records, 0 < r.number.epoch := by
  obtain ⟨r', hr', hepoch⟩ := hothers
  obtain ⟨i, hi⟩ := List.getElem?_of_mem hr'
  obtain ⟨r, hr, hflags⟩ := exists_of_reflag hreflag hi
  exact ⟨r, mem_of_getElem? hr, by rwa [← hflags.number]⟩

theorem withinWindow_nextUnsent (hwindow : WithinWindow records) :
    WithinWindow (nextUnsentRecords records).1 := by
  intro hprotected
  have hbefore := protected_of_reflag (reflag_nextUnsentRecords records) hprotected
  have hany : (records.any fun record => 0 < record.number.epoch) = true := by
    simpa using hbefore
  have hle := outstandingRecords_takeUnsent (windowCapacity records) records
  have hten := hwindow hbefore
  rw [windowCapacity, if_pos hany] at hle
  change outstandingRecords (takeUnsent (windowCapacity records) records).1 ≤ 10
  rw [windowCapacity, if_pos hany]
  omega

theorem withinWindow_ack (hwindow : WithinWindow records) (listed : List RecordNumber) :
    WithinWindow (ackRecords records listed) := by
  intro hprotected
  refine le_trans ?_ (hwindow (protected_of_reflag (reflag_ackRecords records listed) hprotected))
  unfold outstandingRecords ackRecords
  rw [countP_map]
  refine countP_mono_left fun r _ houtstanding => ?_
  simp only [Function.comp_apply, Bool.and_eq_true, Bool.not_eq_true', Bool.or_eq_false_iff]
    at houtstanding ⊢
  exact ⟨houtstanding.1, houtstanding.2.1⟩

/-- A rebuild changes neither flags nor epochs. -/
theorem Renewal.flags {used : Set RecordNumber} {r r' : FlightRecord}
    (hrenewal : Renewal used r r') :
    r'.sent = r.sent ∧ r'.acked = r.acked ∧ r'.number.epoch = r.number.epoch := by
  cases hrenewal with
  | same => exact ⟨rfl, rfl, rfl⟩
  | renewed _ _ _ hepoch => exact ⟨rfl, rfl, hepoch⟩

theorem withinWindow_renewals {used : Set RecordNumber} (hwindow : WithinWindow records)
    (hrenewals : List.Forall₂ (Renewal used) records others) : WithinWindow others := by
  have hcount : outstandingRecords others = outstandingRecords records := by
    clear hwindow
    unfold outstandingRecords
    induction hrenewals with
    | nil => rfl
    | cons hfirst _ ih =>
      obtain ⟨hsent, hacked, -⟩ := Renewal.flags hfirst
      rw [countP_cons, countP_cons, ih, hsent, hacked]
  rintro ⟨r', hr', hepoch⟩
  obtain ⟨r, hr, hrenewal⟩ := exists_of_forall₂ hrenewals hr'
  rw [(Renewal.flags hrenewal).2.2] at hepoch
  rw [hcount]
  exact hwindow ⟨r, hr, hepoch⟩

theorem withinWindow_fresh (hfresh : ∀ r ∈ records, r.IsFresh) : WithinWindow records := by
  intro _
  have hnone : outstandingRecords records = 0 := by
    rw [outstandingRecords, countP_eq_zero]
    intro r hr
    simp [(hfresh r hr).2.2]
  omega

/-- Renewing some of the records is a step. -/
theorem Healthy.rebuilt (hhealthy : s.Healthy)
    (hrebuilt : Rebuilt s.flight s.store flight' store') :
    Healthy { s with flight := flight', store := store' } ∧
      s.snapshot.Advance (snapshot { s with flight := flight', store := store' }) := by
  refine ⟨⟨hrebuilt.consistent, hrebuilt.nodup hhealthy.nodup,
    withinWindow_renewals hhealthy.window hrebuilt.each⟩, .kept rfl ?_ ?_⟩
  · exact Spent.mono hrebuilt.bound hrebuilt.log
  · change List.Forall₂ _ (s.records.map item) (flight'.records.map item)
    rw [forall₂_map_left_iff, forall₂_map_right_iff]
    exact hrebuilt.each.imp fun r r' hrenewal => hrenewal.step

theorem Healthy.refreshPending (hhealthy : s.Healthy) : (s.step P .refreshPending).Healthy ∧
      s.snapshot.Advance (s.step P .refreshPending).snapshot := by
  cases hrun : s.flight.refreshPending P s.store with
  | mk flight result =>
    have hstep : s.step P .refreshPending = { s with flight := flight, store := result.1 } := by
      rw [step, hrun]
    rw [hstep]
    exact hhealthy.rebuilt (hhealthy.consistent.refreshPending hrun)

/-- A resize gives new records, or leaves those there are. -/
theorem resize_of_consistent {mtu : Nat} {failure : Option Err}
    (hconsistent : Consistent s.flight s.store) (hrefits : s.Refits P (.resize mtu))
    (hrun : s.flight.resize P mtu s.store = (flight', store', failure)) :
    failure = none ∧ Resized s.flight s.store flight' store' ∨
      failure.isSome = true ∧ Rebuilt s.flight s.store flight' store' := by
  obtain ⟨flight, before, generation⟩ := s
  dsimp only at hconsistent hrun ⊢
  unfold OutgoingFlight.resize at hrun
  cases hconsistent with
  | @plain plain before hplain =>
    dsimp only at hrun
    cases hresize : plain.resize mtu with
    | error err =>
      rw [hresize] at hrun
      cases hrun
      exact .inr ⟨rfl, .unchanged (.plain hplain) rfl prefix_rfl rfl⟩
    | ok plain' =>
      rw [hresize] at hrun
      cases hrun
      obtain ⟨-, hplain', hfresh, hbound⟩ := hplain.resize le_rfl hresize store'
      exact .inl ⟨rfl, .plain hplain', prefix_rfl, hbound, hfresh, rfl⟩
  | @sealed sealed before hsealed =>
    dsimp only at hrun
    rcases wp_cases (hsealed.wp_resize (P := P) mtu (nextRecordSequence sealed.records)) with
      ⟨sealed', grown, hresize, hgrows, hsealed', hfresh, hcipher⟩ | ⟨err, grown, hresize, hgrows⟩
    · rw [hresize] at hrun
      cases hrun
      refine .inl ⟨rfl, .sealed hsealed', hgrows.log, ?_, hfresh, congrArg some hcipher⟩
      rw [nextRecordSequence_le_iff]
      intro r hr hzero
      exact absurd hzero (hsealed.epoch hr).ne'
    · rw [hresize] at hrun
      cases hrun
      exact .inr ⟨rfl, .unchanged (.sealed (hsealed.grows hgrows)) rfl hgrows.log rfl⟩
  | @combined left right first second before hleft hright hplain hnext hsealed =>
    dsimp only [OutgoingFlight.resizeCombined] at hrun
    have hbound : nextRecordSequence (left ++ right) = nextRecordSequence left :=
      nextRecordSequence_append fun r hr => hsealed.epoch hr
    cases hresize : first.resize mtu with
    | error err =>
      rw [hresize] at hrun
      cases hrun
      exact .inr ⟨rfl, .unchanged (.combined hleft hright hplain hnext hsealed) rfl
        prefix_rfl rfl⟩
    | ok plain' =>
      have hok : succeeds (second.resize P mtu) before = true := by
        simpa [Refits, refits, hresize, Except.isOk, Except.toBool] using hrefits
      obtain ⟨sealed', grown, hresize'⟩ := exists_of_succeeds hok
      rw [hresize] at hrun
      dsimp only at hrun
      rw [hresize'] at hrun
      cases hrun
      obtain ⟨-, hplain', hfresh, hmono⟩ := hplain.resize hnext hresize before
      obtain ⟨hgrows, hsealed', hfresh', hcipher⟩ :=
        post_of_wp (hsealed.wp_resize mtu (nextRecordSequence left)) hresize'
      refine .inl ⟨rfl, .combined rfl rfl hplain' le_rfl hsealed', hgrows.log, ?_, ?_,
        congrArg some hcipher⟩
      · change nextRecordSequence (left ++ right) ≤
          nextRecordSequence (plain'.records ++ sealed'.records)
        rw [hbound, nextRecordSequence_append fun r hr => hsealed'.epoch hr]
        exact hmono
      · change FreshRecords (Spent (nextRecordSequence (left ++ right)) before)
          (plain'.records ++ sealed'.records)
        rw [hbound]
        refine ⟨fun r hr => ?_, fun r hr => ?_,
          nodup_append_parts hplain' hsealed' hfresh.nodup hfresh'.nodup⟩
        · rcases mem_append.mp hr with hr | hr
          · exact hfresh.fresh r hr
          · exact hfresh'.fresh r hr
        · rcases mem_append.mp hr with hr | hr
          · exact hfresh.unused r hr
          · exact hfresh'.unused r hr

theorem Healthy.resize (hhealthy : s.Healthy) {mtu : Nat} (hrefits : s.Refits P (.resize mtu)) :
    (s.step P (.resize mtu)).Healthy ∧ s.snapshot.Advance (s.step P (.resize mtu)).snapshot := by
  cases hrun : s.flight.resize P mtu s.store with
  | mk flight result =>
    obtain ⟨store, failure⟩ := result
    rcases resize_of_consistent hhealthy.consistent hrefits hrun with
      ⟨rfl, hresized⟩ | ⟨hfailed, hrebuilt⟩
    · have hstep : s.step P (.resize mtu) = ⟨flight, store, s.generation + 1⟩ := by
        rw [step, hrun]
      rw [hstep]
      refine ⟨⟨hresized.consistent, hresized.fresh.nodup,
        withinWindow_fresh hresized.fresh.fresh⟩, .replaced rfl ?_ fun x hx => ?_⟩
      · exact Spent.mono hresized.bound hresized.log
      · obtain ⟨r, hr, rfl⟩ := mem_map.mp hx
        exact ⟨(hresized.fresh.fresh r hr).1, hresized.fresh.unused r hr⟩
    · obtain ⟨err, rfl⟩ := Option.isSome_iff_exists.mp hfailed
      have hstep : s.step P (.resize mtu) = { s with flight := flight, store := store } := by
        rw [step, hrun]
      rw [hstep]
      exact hhealthy.rebuilt hrebuilt

/-- Every call keeps the flight healthy and is a step of its items. -/
theorem Healthy.step (hhealthy : s.Healthy) {op : FlightOp} (hrefits : s.Refits P op) :
    (s.step P op).Healthy ∧ s.snapshot.Advance (s.step P op).snapshot := by
  cases op with
  | nextUnsentWire =>
    exact hhealthy.reflag (reflag_nextUnsentRecords s.records)
      (withinWindow_nextUnsent hhealthy.window)
  | ack listed =>
    exact hhealthy.reflag (reflag_ackRecords s.records listed)
      (withinWindow_ack hhealthy.window listed)
  | refreshPending => exact hhealthy.refreshPending
  | resize mtu => exact hhealthy.resize hrefits
  | retransmitWire maxRecords =>
    exact ⟨hhealthy, .kept rfl Set.Subset.rfl (forall₂_same.mpr fun _ _ =>
      .kept rfl rfl rfl id)⟩
  | sealElsewhere ref contentType content =>
    have hgrows : CipherStore.Grows (fun _ => True) s.store
        (exec (CipherStore.sealRecord P ref contentType content) s.store) :=
      exec_of_wp (CipherStore.keeps_grows_sealRecord P ref contentType content
        (fun _ _ _ => trivial) s.store)
    exact hhealthy.rebuilt (.unchanged (hhealthy.consistent.grows hgrows) rfl hgrows.log rfl)

theorem healthy_of_built (hbuilt : Built P s) :
    s.Healthy ∧ ∀ r ∈ s.records, r.earlierNumbers = [] := by
  cases hbuilt with
  | plain store hflight =>
    obtain ⟨hmessages, hplain, hfresh, -⟩ := freshRecords_plain hflight store
    rw [← hmessages] at hplain
    exact ⟨⟨.plain hplain, hfresh.nodup, withinWindow_fresh hfresh.fresh⟩,
      fun r hr => (hfresh.fresh r hr).1⟩
  | sealed hsound href hepoch hflight =>
    obtain ⟨-, hsealed, hfresh⟩ := freshRecords_sealed hsound href hepoch
      (post_of_wp (CipherStore.wp_buildProtectedFlight _ _ _ _) hflight) 0
    exact ⟨⟨.sealed hsealed, hfresh.nodup, withinWindow_fresh hfresh.fresh⟩,
      fun r hr => (hfresh.fresh r hr).1⟩
  | @combined _ _ _ plain _ _ _ before second store hplain hsound href hepoch hsecond =>
    obtain ⟨hmessages, hplain, hfresh, -⟩ := freshRecords_plain hplain before
    obtain ⟨-, hsealed, hfresh'⟩ := freshRecords_sealed hsound href hepoch
      (post_of_wp (CipherStore.wp_buildProtectedFlight _ _ _ _) hsecond) 0
    rw [← hmessages] at hplain
    have hall : ∀ r ∈ plain.records ++ second.records, r.IsFresh := by
      intro r hr
      rcases mem_append.mp hr with hr | hr
      · exact hfresh.fresh r hr
      · exact hfresh'.fresh r hr
    exact ⟨⟨.combined rfl rfl hplain le_rfl hsealed,
      nodup_append_parts hplain hsealed hfresh.nodup hfresh'.nodup, withinWindow_fresh hall⟩,
      fun r hr => (hall r hr).1⟩

/-! ## What is returned -/

/-- Neither sent nor acknowledged. -/
def unsent (records : List FlightRecord) : List FlightRecord :=
  records.filter fun r => !(r.acked || r.sent)

/-- Sent and not acknowledged. -/
def outstanding (records : List FlightRecord) : List FlightRecord :=
  records.filter fun r => !r.acked && r.sent

theorem outstanding_length (records : List FlightRecord) :
    (outstanding records).length = outstandingRecords records := by
  rw [outstanding, outstandingRecords, countP_eq_length_filter]
  congr 1
  exact filter_congr fun r _ => Bool.and_comm _ _

/-- Only records that are not acknowledged are returned. -/
theorem exists_of_returned {op : FlightOp} {wire : SealedRecord} (hwire : wire ∈ s.returned op) :
    ∃ r ∈ s.records, r.acked = false ∧ r.wire = wire := by
  cases op with
  | nextUnsentWire =>
    change wire ∈ (takeUnsent _ s.records).2 at hwire
    rw [takeUnsent_returned] at hwire
    obtain ⟨r, hr, rfl⟩ := mem_map.mp hwire
    obtain ⟨hmem, hflags⟩ := mem_filter.mp (mem_of_mem_take hr)
    simp only [Bool.not_or, Bool.and_eq_true, Bool.not_eq_true'] at hflags
    exact ⟨r, hmem, hflags.1, rfl⟩
  | retransmitWire maxRecords =>
    obtain ⟨r, hr, rfl⟩ := mem_map.mp hwire
    obtain ⟨hmem, hflags⟩ := mem_filter.mp (mem_of_mem_take hr)
    simp only [Bool.and_eq_true, Bool.not_eq_true'] at hflags
    exact ⟨r, hmem, hflags.1, rfl⟩
  | ack _ => cases hwire
  | refreshPending => cases hwire
  | resize _ => cases hwire
  | sealElsewhere _ _ _ => cases hwire

/-! ## Whole runs -/

theorem healthy_run (hstart : s.Healthy) {ops : List FlightOp}
    (hrefits : Along (step P) (Refits P) s ops) : (run (step P) s ops).Healthy :=
  run_invariant (fun _ _ hhealthy hrefits => (hhealthy.step hrefits).1) hstart hrefits

theorem advances_run (hstart : s.Healthy) {ops : List FlightOp}
    (hrefits : Along (step P) (Refits P) s ops) : Advances (step P) snapshot s ops := by
  rintro before op ⟨rest, rfl⟩
  obtain ⟨hbefore, -⟩ := along_append.mp hrefits
  obtain ⟨hbefore, hop, -⟩ := along_append.mp hbefore
  rw [run_append]
  exact ((healthy_run hstart hbefore).step hop).2

theorem snapshot_getElem? {i : Nat} {r : FlightRecord} (hr : s.records[i]? = some r) :
    s.snapshot.items[i]? = some r.item := by
  change (s.records.map item)[i]? = _
  rw [List.getElem?_map, hr]
  rfl

theorem exists_of_snapshot {i : Nat} {x : Item RecordNumber SealedRecord Bytes}
    (hx : s.snapshot.items[i]? = some x) : ∃ r, s.records[i]? = some r ∧ r.item = x := by
  change (s.records.map item)[i]? = _ at hx
  rw [List.getElem?_map] at hx
  exact Option.map_eq_some_iff.mp hx

/-- The records of both parts once each was rebuilt, or the records there were. -/
def joinRebuilt (records : List FlightRecord) :
    PlainFlight × Option Err → Flight × CipherStore × Option Err → List FlightRecord
  | (plain, none), (sealed, _, none) => plain.records ++ sealed.records
  | _, _ => records

/-- The records of both parts once each was resized, or the records there were. -/
def joinResized (records : List FlightRecord) :
    Except Err PlainFlight → EStateM.Result Err CipherStore Flight → List FlightRecord
  | .ok plain, .ok sealed _ => plain.records ++ sealed.records
  | _, _ => records

/-- The combined flight is the concatenation of its parts: `left` are the records of
the first one, `right` those of the second. -/
structure Concatenates (P : Primitives) (s : FlightSession) (left right : List FlightRecord)
    (first : PlainFlight) (second : Flight) : Prop where
  records : s.records = left ++ right
  plaintext : ∀ r ∈ left, r.number.epoch = 0
  protected_right : ∀ r ∈ right, 0 < r.number.epoch
  ack : ∀ listed, (s.step P (.ack listed)).records =
    ackRecords left listed ++ ackRecords right listed
  nextUnsentWire : s.returned .nextUnsentWire =
    ((unsent left ++ unsent right).take (windowCapacity s.records)).map (·.wire)
  retransmitWire : ∀ maxRecords, s.returned (.retransmitWire maxRecords) =
    ((outstanding left ++ outstanding right).take maxRecords).map (·.wire)
  refreshPending : (s.step P .refreshPending).records = joinRebuilt s.records
    ({ first with records := left } : PlainFlight).refreshPending
    (({ second with records := right } : Flight).rebuild P s.store)
  resize : ∀ mtu, (s.step P (.resize mtu)).records =
    joinResized s.records (first.resize mtu) (second.resize P mtu s.store)

/-- A rebuild with nothing to rebuild. -/
theorem renewPending_of_acked {τ : Type} (renew : Nat → FlightRecord → EStateM Err τ SealedRecord)
    (hacked : ∀ r ∈ records, r.acked = true) (index : Nat) (source : τ) :
    renewPending renew index records source = (records, source, none) := by
  induction records generalizing index with
  | nil => rfl
  | cons r records ih =>
    obtain ⟨hfirst, hrest⟩ := forall_mem_cons.mp hacked
    rw [renewPending, if_pos hfirst, ih hrest]

theorem records_refreshPending_combined {first : PlainFlight} {second : Flight} {generation : Nat}
    (hleft : left.length = first.records.length) (hright : right.length = second.records.length) :
    ((FlightSession.mk (.combined (left ++ right) first second) store generation).step P
      .refreshPending).records = joinRebuilt (left ++ right)
        ({ first with records := left } : PlainFlight).refreshPending
        (({ second with records := right } : Flight).rebuild P store) := by
  unfold step OutgoingFlight.refreshPending
  dsimp only
  by_cases hacked : ((left ++ right).all (·.acked)) = true
  · rw [if_pos hacked]
    have hall := all_eq_true.mp hacked
    unfold PlainFlight.refreshPending Flight.rebuild
    rw [renewPending_of_acked _ fun r hr => hall r (mem_append_left _ hr),
      renewPending_of_acked _ fun r hr => hall r (mem_append_right _ hr)]
    rfl
  · rw [if_neg hacked, OutgoingFlight.rebuildCombined, if_neg (by rw [length_append]; omega)]
    dsimp only
    rw [← hleft, take_left' rfl, drop_left' rfl, copyInto_eq hleft, copyInto_eq hright]
    cases hplain : ({ first with records := left } : PlainFlight).refreshPending with
    | mk plain failed =>
      cases failed with
      | some err =>
        cases ({ second with records := right } : Flight).rebuild P store
        rfl
      | none =>
        dsimp only
        cases hsealed : ({ second with records := right } : Flight).rebuild P store with
        | mk sealed result =>
          obtain ⟨grown, failed⟩ := result
          cases failed <;> rfl

theorem records_resize_combined {first : PlainFlight} {second : Flight} {generation : Nat}
    (records : List FlightRecord) (mtu : Nat) :
    ((FlightSession.mk (.combined records first second) store generation).step P
      (.resize mtu)).records =
        joinResized records (first.resize mtu) (second.resize P mtu store) := by
  unfold step OutgoingFlight.resize OutgoingFlight.resizeCombined
  dsimp only
  cases first.resize mtu with
  | error err => rfl
  | ok plain =>
    dsimp only
    cases second.resize P mtu store with
    | error err grown => rfl
    | ok sealed grown => rfl

theorem Healthy.concatenates (hhealthy : s.Healthy) {records : List FlightRecord}
    {first : PlainFlight} {second : Flight} (hflight : s.flight = .combined records first second) :
    ∃ left right, Concatenates P s left right first second := by
  obtain ⟨flight, store, generation⟩ := s
  dsimp only at hflight
  subst hflight
  have hconsistent := hhealthy.consistent
  dsimp only at hconsistent
  cases hconsistent with
  | @combined left right _ _ _ hleft hright hplain hnext hsealed =>
    refine ⟨left, right, rfl, fun r hr => hplain.epoch hr, fun r hr => hsealed.epoch hr,
      fun listed => map_append, ?_, fun maxRecords => ?_,
      records_refreshPending_combined hleft hright, records_resize_combined _⟩
    · change (takeUnsent (windowCapacity (left ++ right)) (left ++ right)).2 = _
      rw [takeUnsent_returned, filter_append]
      rfl
    · change ((outstanding (left ++ right)).take maxRecords).map _ = _
      rw [outstanding, filter_append]
      rfl

/-- What selective retransmission promises of the state that `ops` lead to, in terms
of the states before it. -/
structure RetransmitsSelectively (P : Primitives) (s : FlightSession) (ops : List FlightOp) :
    Prop where
  /-- A number stands for one wire image of one record. -/
  numbers : ∀ before, before <+: ops → ∀ (i j : Nat) r r' n,
    (run (step P) s before).records[i]? = some r →
    (run (step P) s ops).records[j]? = some r' → n ∈ r.numbers → n ∈ r'.numbers →
    (run (step P) s before).generation = (run (step P) s ops).generation ∧ i = j ∧
      (r.number = r'.number → r.wire = r'.wire)
  /-- An ACK reaches the records that had a listed number since the last resize. -/
  acks : ∀ listed (i : Nat) r, (run (step P) s ops).records[i]? = some r →
    ∃ r', ((run (step P) s ops).step P (.ack listed)).records[i]? = some r' ∧
      r' = { r with acked := r'.acked } ∧
      (r'.acked = true ↔ r.acked = true ∨ ∃ before, before <+: ops ∧
        (run (step P) s before).generation = (run (step P) s ops).generation ∧
        ∃ old, (run (step P) s before).records[i]? = some old ∧ old.number ∈ listed)
  /-- Until the next resize a record carries its fragment, and once it is
  acknowledged it keeps its number and is not returned again. -/
  records : ∀ before, before <+: ops →
    (run (step P) s before).generation = (run (step P) s ops).generation →
    ∀ (i : Nat) r, (run (step P) s before).records[i]? = some r →
      ∃ r', (run (step P) s ops).records[i]? = some r' ∧ r'.wire.content = r.wire.content ∧
        (r.acked = true → r'.acked = true ∧ r'.wire = r.wire ∧
          ∀ op, r.wire ∉ (run (step P) s ops).returned op)
  /-- The window of a flight with a protected record. -/
  window : (∃ r ∈ (run (step P) s ops).records, 0 < r.number.epoch) →
    outstandingRecords (run (step P) s ops).records ≤ 10 ∧
      (run (step P) s ops).returned (.retransmitWire 10) =
        (outstanding (run (step P) s ops).records).map (·.wire)
  combined : ∀ records first second, (run (step P) s ops).flight = .combined records first second →
    ∃ left right, Concatenates P (run (step P) s ops) left right first second

/-- In a run in which no resize of a combined flight stops between its parts, every
state retransmits selectively. -/
theorem selective_retransmission {P : Primitives} {s : FlightSession} (hbuilt : Built P s)
    {ops : List FlightOp} (hrefits : Along (step P) (Refits P) s ops) :
    ∀ before, before <+: ops → RetransmitsSelectively P s before := by
  rintro ops ⟨after, rfl⟩
  obtain ⟨hrefits, -⟩ := along_append.mp hrefits
  obtain ⟨hstart, hearlier⟩ := healthy_of_built hbuilt
  have hnow := healthy_run hstart hrefits
  have hadvances := advances_run hstart hrefits
  have hhealthy : ∀ before, before <+: ops → (run (step P) s before).Healthy := by
    rintro before ⟨rest, rfl⟩
    exact healthy_run hstart (along_append.mp hrefits).1
  have hevolves : ∀ before, before <+: ops →
      (run (step P) s before).snapshot.Evolves (run (step P) s ops).snapshot := by
    rintro before ⟨rest, rfl⟩
    exact hadvances.evolves rest List.prefix_rfl
  refine ⟨fun before hbefore i j r r' n hr hr' hn hn' => ?_, fun listed i r hr => ?_,
    fun before hbefore hgeneration i r hr => ?_, fun hprotected => ⟨hnow.window hprotected, ?_⟩,
    fun records first second hflight => hnow.concatenates hflight⟩
  · exact (hevolves before hbefore).number_unique (hhealthy before hbefore).valid hnow.valid
      (snapshot_getElem? hr) (snapshot_getElem? hr') hn hn'
  · refine ⟨{ r with acked := r.acked || r.acknowledgedBy listed }, ?_, rfl, ?_⟩
    · rw [records, step]
      dsimp only
      rw [records_withRecords, ackRecords, List.getElem?_map, hr]
      rfl
    · have hnumbers : ∀ n, n ∈ r.numbers ↔ _ := fun n =>
        hadvances.mem_numbers_iff (fun x hx => by
          obtain ⟨first, hfirst, rfl⟩ := List.mem_map.mp hx
          exact hearlier first hfirst) List.prefix_rfl (snapshot_getElem? hr)
      rw [Bool.or_eq_true, acknowledgedBy_iff]
      refine or_congr_right ⟨?_, ?_⟩
      · rintro ⟨n, hn, hlisted⟩
        obtain ⟨before, hbefore, hgeneration, x, hx, rfl⟩ := (hnumbers n).mp hn
        obtain ⟨old, hold, rfl⟩ := exists_of_snapshot hx
        exact ⟨before, hbefore, hgeneration, old, hold, hlisted⟩
      · rintro ⟨before, hbefore, hgeneration, old, hold, hlisted⟩
        exact ⟨old.number, (hnumbers old.number).mpr ⟨before, hbefore, hgeneration, old.item,
          snapshot_getElem? hold, rfl⟩, hlisted⟩
  · have hlength := (hevolves before hbefore).length hgeneration
    obtain ⟨hi, -⟩ := List.getElem?_eq_some_iff.mp (snapshot_getElem? hr)
    have hx := List.getElem?_eq_getElem (hlength ▸ hi)
    obtain ⟨r', hr', hitem⟩ := exists_of_snapshot hx
    rw [← hitem] at hx
    obtain ⟨new, hdescends⟩ := (hevolves before hbefore).same hgeneration i _ _
      (snapshot_getElem? hr) hx
    refine ⟨r', hr', hdescends.content, fun hacked => ?_⟩
    obtain ⟨hdone, rfl⟩ := hdescends.done hacked
    have hacked' : r'.acked = true := hdone
    have hwire : r'.wire = r.wire := hdescends.image rfl
    refine ⟨hacked', hwire, fun op hreturned => ?_⟩
    -- What is returned belongs to a record that is not acknowledged.
    obtain ⟨other, hother, hunacked, hsame⟩ := exists_of_returned hreturned
    obtain ⟨k, hk⟩ := List.getElem?_of_mem hother
    have hnumber : r'.number ∈ other.numbers := by
      rw [FlightRecord.number, hwire, ← hsame]
      exact List.mem_cons_self
    obtain rfl := hnow.valid.eq_of_mem (snapshot_getElem? hr') (snapshot_getElem? hk)
      List.mem_cons_self hnumber
    rw [hr'] at hk
    cases hk
    rw [hacked'] at hunacked
    cases hunacked
  · change ((outstanding _).take 10).map _ = _
    rw [List.take_of_length_le]
    rw [outstanding_length]
    exact hnow.window hprotected

/-! ## A resize that stops between the parts -/

/-- A cipher for the handshake epoch that has sealed nothing. -/
def handshakeStore : CipherStore :=
  ⟨[newRecordCipher .checksum .aes128GcmSha256 [1] 2 64], []⟩

theorem handshakeStore_sound : handshakeStore.Sound where
  epoch_inj ref href other hother _ := by
    change ref < 1 at href
    change other < 1 at hother
    omega
  sealed := nofun
  numbers_nodup := nodup_nil

/-- A ServerHello in one record, combined with a certificate in three. -/
def helloAndCertificate : FlightSession :=
  match buildPlainFlight [⟨2, 0, List.replicate 8 1⟩] 60 0,
    buildProtectedFlight .checksum [⟨11, 1, List.replicate 60 2⟩] 60 0 handshakeStore with
  | .ok plain, .ok sealed store => ⟨.combineFlights plain sealed, store, 0⟩
  | _, _ => ⟨.plain ⟨[], [], 0⟩, handshakeStore, 0⟩

theorem built_helloAndCertificate : Built .checksum helloAndCertificate := by
  unfold helloAndCertificate
  cases hplain : buildPlainFlight [⟨2, 0, List.replicate 8 1⟩] 60 0 with
  | error err =>
    have hok : (buildPlainFlight [⟨2, 0, List.replicate 8 1⟩] 60 0).isOk = true := by decide
    rw [hplain] at hok
    cases hok
  | ok plain =>
    cases hsealed : buildProtectedFlight .checksum [⟨11, 1, List.replicate 60 2⟩] 60 0
        handshakeStore with
    | error err store =>
      have hok : succeeds (buildProtectedFlight .checksum [⟨11, 1, List.replicate 60 2⟩] 60 0)
          handshakeStore = true := by decide +kernel
      obtain ⟨sealed, next, hrun⟩ := exists_of_succeeds hok
      rw [hsealed] at hrun
      cases hrun
    | ok sealed store =>
      exact .combined hplain handshakeStore_sound Nat.one_pos (Nat.succ_pos 1) hsealed

/-- The first certificate record is acknowledged; then the ServerHello is cut for a
path that has no room for a protected fragment. The next rebuild seals the first
fragment of the certificate in place of the second. -/
theorem selective_retransmission_halfResized : Built .checksum helloAndCertificate ∧
      ¬RetransmitsSelectively .checksum helloAndCertificate
        [.ack [⟨2, 0⟩], .resize 30, .refreshPending] := by
  refine ⟨built_helloAndCertificate, fun hsound => ?_⟩
  have hchanged : (run (step .checksum) helloAndCertificate
        [.ack [⟨2, 0⟩], .resize 30, .refreshPending]).records[2]?.map (·.wire.content) ≠
      (run (step .checksum) helloAndCertificate []).records[2]?.map (·.wire.content) := by
    decide +kernel
  have hpresent : (run (step .checksum) helloAndCertificate []).records[2]?.isSome = true := by
    decide +kernel
  obtain ⟨r, hr⟩ := Option.isSome_iff_exists.mp hpresent
  obtain ⟨r', hr', hcontent, -⟩ := hsound.records [] List.nil_prefix (by decide +kernel) 2 r hr
  rw [hr, hr'] at hchanged
  exact hchanged (congrArg some hcontent)

/-- A resize for which both parts have room. -/
theorem selective_retransmission_resized : RetransmitsSelectively .checksum helloAndCertificate
      [.nextUnsentWire, .ack [⟨2, 0⟩], .refreshPending, .resize 50, .refreshPending] := by
  exact selective_retransmission built_helloAndCertificate (by decide +kernel) _ List.prefix_rfl

end FlightSession

end Dtls13
